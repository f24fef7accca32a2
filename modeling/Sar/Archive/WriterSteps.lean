import Sar.Archive.Writer

/-!
# What one call of the writer does

A call of the writer encodes the payload, settles the width of the size fields, writes the Global
Header if it is still missing, and appends one entry, sealed under the flags and keys of the
archive (`Seals`). What it leaves behind is told once for all calls: when the entry is written
(`appended`), and when the call fails before that (`FailsTo`).

## Main results

* `writeEncoded_cases` — a call fails without a trace in the sink but the Global Header, or comes
  down to `writeEntry` with a sealed entry.
* `writeEntry_eq_ok` — a written entry.
* `fecLength_exact` — the length of an FEC value is known before the payload is encrypted.
-/

namespace Sar

open Except (rejectIf liftError okOr bind_eq_ok_iff pure_eq_ok ok_bind exists_unit
  rejectIf_eq_ok_iff rejectIf_of rejectIf_bind liftError_eq_ok_iff ok.injEq ok.inj)
open Stateful LittleEndian List

namespace ArchiveWriter

variable (backend : Backend)

/-! ### What a call does not change -/

/-- The writer without what every entry changes: the sink, the position, the offsets, the
nonces, the bytes under recovery. -/
def frame (w : ArchiveWriter) : ArchiveWriter :=
  { w with
    writer := [], position := 0, offsets := [], usedNonces := []
    archiveRecovery := w.archiveRecovery.map fun r => { r with protectedBytes := [] }
    streamState := .needLocalFileHeader }

/-- The settings: the frame without what the Global Header fixes. -/
def settings (w : ArchiveWriter) : ArchiveWriter :=
  { w.frame with
    flags := { w.flags with size64Bit := false }
    globalFlagsSection := [], headerWritten := false }

/-- More bytes under archive-level recovery. -/
def tracked (bytes : Bytes) (w : ArchiveWriter) : ArchiveWriter :=
  { w with
    archiveRecovery := w.archiveRecovery.map fun r =>
      { r with protectedBytes := r.protectedBytes ++ bytes } }

variable {w w' : ArchiveWriter} {u : Unit}

variable {n : ℕ}

theorem advancePosition_eq_ok_iff {msg : String} :
    advancePosition n msg w = (.ok u, w') ↔
      w.position + n ≤ u64Max ∧ w' = { w with position := w.position + n } := by
  simp only [advancePosition, bind_apply, current_apply, andThen_ok, andThen_eq_ok_iff,
    lift_eq_ok_iff, rejectIf_eq_ok_iff, update_apply, Prod.mk.injEq, not_lt, gt_iff_lt, true_and]
  constructor
  · rintro ⟨_, _, ⟨hle, rfl⟩, rfl⟩
    exact ⟨hle, rfl⟩
  · rintro ⟨hle, rfl⟩
    exact ⟨(), w, ⟨hle, rfl⟩, rfl⟩

/-- The writer with one more entry in the sink. -/
def appended (lfhBytes payload : Bytes) (w : ArchiveWriter) : ArchiveWriter :=
  { (w.tracked lfhBytes).tracked payload with
    writer := w.writer ++ lfhBytes ++ payload
    position := w.position + (lfhBytes.length + payload.length)
    offsets := w.offsets ++ [w.position]
    streamState := .entryReady }

theorem frame_tracked (bytes : Bytes) (w : ArchiveWriter) : (w.tracked bytes).frame = w.frame := by
  simp only [frame, tracked, Option.map_map]
  rfl

theorem frame_appended (lfhBytes payload : Bytes) (w : ArchiveWriter) :
    (w.appended lfhBytes payload).frame = w.frame := by
  have h := (frame_tracked payload (w.tracked lfhBytes)).trans (frame_tracked lfhBytes w)
  exact h

theorem settings_eq_of_frame_eq (h : w'.frame = w.frame) : w'.settings = w.settings := by
  have hflags : w'.flags = w.flags := (congrArg flags h :)
  rw [settings, settings, h, hflags]

/-! ### Room for recovery -/

/-- There is room for that many more bytes under archive-level recovery. -/
def HasRoom (w : ArchiveWriter) (n : ℕ) : Prop :=
  ∀ r ∈ w.archiveRecovery,
    r.protectedBytes.length + n ≤ ResourceLimits.default.maxInMemoryBuffer

/-- Bytes are tracked when there is room for them, and a failure changes nothing. -/
theorem trackArchiveRecoveryBytes_of_room {bytes : Bytes} (h : w.HasRoom bytes.length) :
    trackArchiveRecoveryBytes bytes w = (.ok (), w.tracked bytes) := by
  rw [trackArchiveRecoveryBytes, current_bind]
  rcases hrec : w.archiveRecovery with _ | r
  · have htracked : w.tracked bytes = w := by rw [tracked, hrec, Option.map_none, ← hrec]
    rw [htracked]
    rfl
  · have hroom := h r hrec
    have hmem : ResourceLimits.default.maxInMemoryBuffer ≤ u64Max := by decide
    have hrange : ResourceLimits.default.maxInMemoryBuffer ≤
        ResourceLimits.default.maxRecoveryProtectedRange := by decide
    dsimp only
    rw [lift_rejectIf_bind (by omega), bind_apply, ResourceLimits.checkInMemoryBuffer,
      ResourceLimits.atMost_of_le _ hroom, lift_apply, andThen_ok, bind_apply,
      ResourceLimits.checkRecoveryProtectedRange,
      ResourceLimits.atMost_of_le _ (hroom.trans hrange), lift_apply, andThen_ok, update_apply,
      tracked, hrec]
    rfl

theorem trackArchiveRecoveryBytes_of_not_room {bytes : Bytes} (h : ¬ w.HasRoom bytes.length) :
    ∃ e, trackArchiveRecoveryBytes bytes w = (.error e, w) := by
  simp only [HasRoom, not_forall, not_le] at h
  obtain ⟨r, hrec, hfull⟩ := h
  rw [Option.mem_def] at hrec
  rw [trackArchiveRecoveryBytes, current_bind, hrec]
  dsimp only
  by_cases hmax : r.protectedBytes.length + bytes.length > u64Max
  · rw [bind_apply, rejectIf_of hmax, lift_apply]
    exact ⟨_, rfl⟩
  · rw [lift_rejectIf_bind hmax, bind_apply, ResourceLimits.checkInMemoryBuffer,
      ResourceLimits.atMost, rejectIf_of hfull, lift_apply]
    exact ⟨_, rfl⟩

theorem trackArchiveRecoveryBytes_eq_ok {bytes : Bytes}
    (h : trackArchiveRecoveryBytes bytes w = (.ok u, w')) :
    w.HasRoom bytes.length ∧ w' = w.tracked bytes := by
  by_cases hroom : w.HasRoom bytes.length
  · rw [trackArchiveRecoveryBytes_of_room hroom] at h
    exact ⟨hroom, (Prod.mk.inj h).2.symm⟩
  · obtain ⟨e, herror⟩ := trackArchiveRecoveryBytes_of_not_room hroom
    rw [herror] at h
    cases h

theorem advancePosition_of_le {msg : String} (h : w.position + n ≤ u64Max) :
    advancePosition n msg w = (.ok (), { w with position := w.position + n }) :=
  advancePosition_eq_ok_iff.mpr ⟨h, rfl⟩

theorem advancePosition_of_gt {msg : String} (h : u64Max < w.position + n) :
    advancePosition n msg w = (.error (.overflow msg), w) := by
  rw [advancePosition, current_bind, bind_apply, rejectIf_of h, lift_apply, andThen_error]

theorem hasRoom_tracked {bytes : Bytes} :
    (w.tracked bytes).HasRoom n ↔ w.HasRoom (bytes.length + n) := by
  constructor
  · intro h r hr
    have := h _ (Option.mem_map.mpr ⟨r, hr, rfl⟩)
    rw [length_append] at this
    omega
  · intro h r hr
    obtain ⟨r', hr', rfl⟩ := Option.mem_map.mp hr
    have := h r' hr'
    rw [length_append]
    omega

/-- No more bytes are under recovery than fit the buffer. -/
def Bounded (w : ArchiveWriter) : Prop := w.HasRoom 0

/-- All that writing an entry can answer and leave. -/
inductive EntryOutcome (w : ArchiveWriter) (lfhBytes payload : Bytes) :
    Result EntryWritten × ArchiveWriter → Prop where
  | written (hroom : w.HasRoom (lfhBytes.length + payload.length))
      (hle : w.position + (lfhBytes.length + payload.length) ≤ u64Max) :
      EntryOutcome w lfhBytes payload
        (.ok ⟨w.position, lfhBytes.length + payload.length⟩, w.appended lfhBytes payload)
  /-- The header is refused. -/
  | refused (e : SarError) (hfull : ¬ w.HasRoom lfhBytes.length) :
      EntryOutcome w lfhBytes payload (.error e, { w with streamState := .needPayload })
  /-- The payload is refused after its header was taken note of. -/
  | halved (e : SarError) (hroom : w.HasRoom lfhBytes.length)
      (hfull : ¬ w.HasRoom (lfhBytes.length + payload.length)) :
      EntryOutcome w lfhBytes payload
        (.error e, ({ w with streamState := .needPayload } : ArchiveWriter).tracked lfhBytes)
  /-- The bytes of the entry are in the sink when the position overflows. -/
  | overflowed (e : SarError) (hroom : w.HasRoom (lfhBytes.length + payload.length))
      (hover : u64Max < w.position + (lfhBytes.length + payload.length)) :
      EntryOutcome w lfhBytes payload (.error e,
        { (({ w with streamState := .needPayload } : ArchiveWriter).tracked lfhBytes).tracked
            payload with writer := w.writer ++ lfhBytes ++ payload })

theorem writeEntry_outcome (w : ArchiveWriter) (lfhBytes payload : Bytes) :
    EntryOutcome w lfhBytes payload (writeEntry lfhBytes payload w) := by
  set w₁ : ArchiveWriter := { w with streamState := .needPayload } with hw₁
  rw [writeEntry, current_bind, update_bind, bind_apply, ← hw₁]
  by_cases hfirst : w.HasRoom lfhBytes.length
  · rw [trackArchiveRecoveryBytes_of_room (w := w₁) hfirst, andThen_ok, bind_apply]
    by_cases hroom : w.HasRoom (lfhBytes.length + payload.length)
    · rw [trackArchiveRecoveryBytes_of_room (w := w₁.tracked lfhBytes) (hasRoom_tracked.mpr hroom),
        andThen_ok, writeAll, update_bind, writeAll, update_bind, bind_apply, lift_apply]
      by_cases hle : w.position + (lfhBytes.length + payload.length) ≤ u64Max
      · rw [Except.rejectIf_of_not (by omega), andThen_ok, bind_apply, advancePosition_of_le]
        · exact .written hroom hle
        · exact hle
      · by_cases hlong : lfhBytes.length + payload.length > u64Max
        · rw [rejectIf_of hlong]
          exact .overflowed _ hroom (not_le.mp hle)
        · rw [Except.rejectIf_of_not hlong, andThen_ok, bind_apply, advancePosition_of_gt]
          · exact .overflowed _ hroom (not_le.mp hle)
          · exact not_le.mp hle
    · obtain ⟨e, herror⟩ := trackArchiveRecoveryBytes_of_not_room (w := w₁.tracked lfhBytes)
        (mt hasRoom_tracked.mp hroom)
      rw [herror]
      exact .halved e hfirst hroom
  · obtain ⟨e, herror⟩ := trackArchiveRecoveryBytes_of_not_room (w := w₁) hfirst
    rw [herror]
    exact .refused e hfirst

theorem writeEntry_eq_ok {lfhBytes payload : Bytes} {r : EntryWritten}
    (h : writeEntry lfhBytes payload w = (.ok r, w')) :
    w' = w.appended lfhBytes payload ∧ w'.position ≤ u64Max ∧ w'.Bounded := by
  have houtcome := writeEntry_outcome w lfhBytes payload
  rw [h] at houtcome
  cases houtcome with
  | written hroom hle => exact ⟨rfl, hle, hasRoom_tracked.mpr (hasRoom_tracked.mpr hroom)⟩

/-! ### Nonces -/

/-- A drawn nonce is new, and is one the generator delivered. -/
theorem drawNonce_eq_ok {algoId : UInt8} {randoms : List (Octets 24)} {nonce : Octets 24}
    (h : drawNonce algoId randoms w = (.ok nonce, w')) :
    nonce ∉ w.usedNonces ∧ w' = { w with usedNonces := nonce :: w.usedNonces } ∧
      ∃ random ∈ randoms, generateNonce algoId random = .ok nonce := by
  induction randoms with
  | nil => cases h
  | cons random randoms ih =>
    simp only [drawNonce, bind_apply, andThen_eq_ok_iff, lift_eq_ok_iff, liftError_eq_ok_iff,
      current_apply, Prod.mk.injEq, ok.injEq] at h
    obtain ⟨drawn, _, ⟨hgen, rfl⟩, _, _, ⟨rfl, rfl⟩, h⟩ := h
    split at h
    · obtain ⟨hnew, hw', random', hmem, hgen'⟩ := ih h
      exact ⟨hnew, hw', random', mem_cons_of_mem _ hmem, hgen'⟩
    · rename_i hnew
      obtain ⟨hdrawn, rfl⟩ := Prod.mk.inj h
      obtain rfl : drawn = nonce := ok.inj hdrawn
      exact ⟨hnew, rfl, random, mem_cons_self, hgen⟩

/-! ### The size policy -/

/-- A forced width of the size fields is the width in the flags. -/
def SizeForced (w : ArchiveWriter) : Prop :=
  (w.lfhSizeFieldPolicy = .force64 → w.flags.size64Bit = true) ∧
    (w.lfhSizeFieldPolicy = .force32 → w.flags.size64Bit = false)

/-- The policy settles the width before the Global Header, and leaves it alone afterwards. -/
theorem applySizePolicy_eq_ok {uncompressed payload : ℕ} (hw : w.SizeForced)
    (h : applySizePolicy uncompressed payload w = (.ok u, w')) :
    w'.SizeForced ∧ (∃ b, w' = w.withSize64Bit b) ∧ (w.headerWritten = true → w' = w) := by
  have hsame : ∀ {b}, w.flags.size64Bit = b → w.withSize64Bit b = w := by
    rintro b rfl
    rfl
  rw [applySizePolicy, current_bind] at h
  rcases hpolicy : w.lfhSizeFieldPolicy with _ | _ | _
  all_goals simp only [hpolicy] at h
  · -- the automatic policy
    split at h
    · split at h
      · cases h
      · rename_i hwide
        obtain ⟨-, rfl⟩ := Prod.mk.inj h
        refine ⟨⟨fun _ => rfl, fun hp => ?_⟩, ⟨true, rfl⟩, fun hwritten => hsame ?_⟩
        · cases hpolicy.symm.trans hp
        · simpa [hwritten] using hwide
    · split at h
      · rename_i hnot
        obtain ⟨-, rfl⟩ := Prod.mk.inj h
        refine ⟨⟨fun hp => ?_, fun _ => rfl⟩, ⟨false, rfl⟩, fun hwritten => ?_⟩
        · cases hpolicy.symm.trans hp
        · simp [hwritten] at hnot
      · obtain ⟨-, rfl⟩ := Prod.mk.inj h
        exact ⟨hw, ⟨w.flags.size64Bit, rfl⟩, fun _ => rfl⟩
  · split at h
    · cases h
    · obtain ⟨-, rfl⟩ := Prod.mk.inj h
      refine ⟨⟨fun hp => ?_, fun _ => rfl⟩, ⟨false, rfl⟩, fun _ => hsame (hw.2 hpolicy)⟩
      cases hpolicy.symm.trans hp
  · obtain ⟨-, rfl⟩ := Prod.mk.inj h
    refine ⟨⟨fun _ => rfl, fun hp => ?_⟩, ⟨true, rfl⟩, fun _ => hsame (hw.1 hpolicy)⟩
    cases hpolicy.symm.trans hp

/-! ### The Global Header -/

/-- The key-management extension of a Global Header, if it has one. -/
def kmsBytesOf (kms : Option KmsData) : Bytes :=
  (kms.map fun kms =>
    [kms.modeId] ++ (u32Bytes (UInt32.ofNat kms.payload.length) ++ kms.payload)).getD []

/-- The bytes of the writer's Global Header. -/
def headerBytesOf (w : ArchiveWriter) : Bytes :=
  magic ++ ([0x01] ++ ([0] ++ (u16Bytes 4 ++ (u32Bytes w.flags.bits ++ kmsBytesOf w.headerKms))))

theorem kmsBytes_eq_ok_iff {kms : Option KmsData} {bytes : Bytes} :
    kmsBytes kms = .ok bytes ↔
      (∀ k ∈ kms, k.payload.length < 2 ^ 32) ∧ bytes = kmsBytesOf kms := by
  cases kms with
  | none => simp [kmsBytes, kmsBytesOf, eq_comm]
  | some kms =>
    simp only [kmsBytes, KmsData.toBytes, u32OfLen, bind_eq_ok_iff, exists_unit,
      rejectIf_eq_ok_iff, pure_eq_ok, ok.injEq, ge_iff_le, not_le,
      kmsBytesOf, Option.mem_some_iff, forall_eq', Option.map_some, Option.getD_some,
      and_assoc, exists_and_left, exists_eq_left', eq_comm (a := bytes)]

/-- The writer's Global Header has no partition descriptor and only the four flag bytes, so what
remains to be checked are the flags and the key-management extension. -/
theorem writeGlobalHeader_globalHeaderOf {bytes : Bytes} :
    writeGlobalHeader w.globalHeaderOf = .ok bytes ↔
      validateGlobalFlags w.flags = .ok () ∧ w.flags.encrypted = w.headerKms.isSome ∧
        w.flags.partitionedArchive = false ∧
        (∀ kms ∈ w.headerKms, kms.payload.length < 2 ^ 32) ∧ bytes = w.headerBytesOf := by
  have hflags : w.globalHeaderOf.wireFlagsBytes = u32Bytes w.flags.bits := by
    rw [GlobalHeader.wireFlagsBytes, globalHeaderOf,
      drop_of_length_le (by rw [length_u32Bytes]), append_nil]
  have hlen : u16OfLen (u32Bytes w.flags.bits).length "global flags size does not fit u16" =
      .ok 4 := by
    rw [length_u32Bytes]
    rfl
  simp only [writeGlobalHeader, bind_eq_ok_iff, exists_unit, rejectIf_eq_ok_iff, pure_eq_ok,
    ok.injEq, hflags, hlen, kmsBytes_eq_ok_iff, exists_eq_left']
  simp only [globalHeaderOf, length_u32Bytes, lt_irrefl, not_false_eq_true, true_and,
    Option.map_none, Option.getD_none, nil_append, headerBytesOf]
  cases w.flags.encrypted <;> cases w.headerKms <;> cases w.flags.partitionedArchive <;>
    simp [eq_comm]

/-- The header's fixed part ends with the flags. -/
theorem flags_headerBytesOf (w : ArchiveWriter) (rest : Bytes) :
    ((w.headerBytesOf ++ rest).drop globalHeaderFlagsOffset).take 4 = u32Bytes w.flags.bits := by
  have hfixed : (magic ++ ([0x01] ++ ([0] ++ u16Bytes 4))).length = globalHeaderFlagsOffset := rfl
  have hsplit : w.headerBytesOf ++ rest = (magic ++ ([0x01] ++ ([0] ++ u16Bytes 4))) ++
      (u32Bytes w.flags.bits ++ (kmsBytesOf w.headerKms ++ rest)) := by
    simp only [headerBytesOf, append_assoc]
  rw [hsplit, drop_left' hfixed, take_left' (length_u32Bytes _)]

theorem length_headerBytesOf (w : ArchiveWriter) :
    w.headerBytesOf.length = 12 + (kmsBytesOf w.headerKms).length := by
  simp only [headerBytesOf, magic, length_append, length_cons, length_nil,
    length_u16Bytes, length_u32Bytes]
  omega

theorem length_headerBytesOf_le (hkms : ∀ kms ∈ w.headerKms, kms.payload.length < 2 ^ 32) :
    w.headerBytesOf.length ≤ u64Max := by
  have hsmall : 2 ^ 32 + 17 ≤ u64Max := by decide
  rw [length_headerBytesOf]
  rcases hk : w.headerKms with _ | kms
  · simp only [kmsBytesOf, Option.map_none, Option.getD_none, length_nil]
    omega
  · have := hkms kms hk
    simp only [kmsBytesOf, Option.map_some, Option.getD_some, length_append, length_cons,
      length_nil, length_u32Bytes]
    omega

/-- The writer with the Global Header in the sink. -/
def headered (bytes : Bytes) (w : ArchiveWriter) : ArchiveWriter :=
  { w with
    globalFlagsSection := globalHeaderFlagsBytes w.globalHeaderOf
    archiveRecovery := w.archiveRecovery.map fun r =>
      { r with protectedBytes := r.protectedBytes ++ bytes.drop r.globalFlagsStartOffset }
    writer := w.writer ++ bytes
    position := w.position + bytes.length
    headerWritten := true }

theorem trackHeader_eq_ok {bytes : Bytes} (h : trackHeader bytes w = (.ok u, w')) :
    w' = { w with
      archiveRecovery := w.archiveRecovery.map fun r =>
        { r with protectedBytes := r.protectedBytes ++ bytes.drop r.globalFlagsStartOffset } } ∧
      w'.Bounded := by
  rw [trackHeader, current_bind] at h
  rcases hrec : w.archiveRecovery with _ | recovery
  · simp only [hrec, pure_apply, Prod.mk.injEq, true_and] at h
    rw [← h, Option.map_none, ← hrec]
    exact ⟨rfl, fun r hr => nomatch hrec.symm.trans hr⟩
  · simp only [hrec, bind_apply, andThen_eq_ok_iff, lift_eq_ok_iff] at h
    obtain ⟨_, _, ⟨-, rfl⟩, htrack⟩ := h
    obtain ⟨hroom, rfl⟩ := trackArchiveRecoveryBytes_eq_ok htrack
    refine ⟨?_, hasRoom_tracked.mpr hroom⟩
    rw [tracked, hrec]
    rfl

/-- The Global Header is written once. -/
theorem emitGlobalHeaderIfNeeded_eq_ok (h : emitGlobalHeaderIfNeeded w = (.ok u, w')) :
    (w.headerWritten = true ∧ w' = w) ∨
      (w.headerWritten = false ∧ ∃ bytes, writeGlobalHeader w.globalHeaderOf = .ok bytes ∧
        w.position + bytes.length ≤ u64Max ∧ w' = w.headered bytes ∧ w'.Bounded) := by
  rw [emitGlobalHeaderIfNeeded, current_bind] at h
  split at h
  · rename_i hwritten
    obtain ⟨-, rfl⟩ := Prod.mk.inj h
    exact .inl ⟨hwritten, rfl⟩
  · rename_i hwritten
    simp only [writeAll, bind_apply, andThen_eq_ok_iff, lift_eq_ok_iff, update_apply, andThen_ok,
      advancePosition_eq_ok_iff, Prod.mk.injEq] at h
    obtain ⟨_, _, ⟨-, rfl⟩, bytes, _, ⟨hbytes, rfl⟩, _, _, htrack, _, _, ⟨hle, rfl⟩, -, rfl⟩ := h
    obtain ⟨rfl, hbounded⟩ := trackHeader_eq_ok htrack
    exact .inr ⟨by simpa using hwritten, bytes, hbytes, hle, rfl, hbounded⟩

variable {e : SarError}

theorem trackHeader_eq_error {bytes : Bytes} (h : trackHeader bytes w = (.error e, w')) :
    w' = w := by
  rw [trackHeader, current_bind] at h
  rcases hrec : w.archiveRecovery with _ | recovery
  · rw [hrec] at h
    cases h
  · simp only [hrec, bind_apply, andThen_eq_error_iff, lift_eq_error_iff, lift_eq_ok_iff] at h
    rcases h with ⟨-, rfl⟩ | ⟨_, _, ⟨-, rfl⟩, htrack⟩
    · rfl
    · by_cases hroom : w.HasRoom (bytes.drop recovery.globalFlagsStartOffset).length
      · rw [trackArchiveRecoveryBytes_of_room hroom] at htrack
        cases htrack
      · obtain ⟨e', herror⟩ := trackArchiveRecoveryBytes_of_not_room hroom
        exact (Prod.mk.inj (herror.symm.trans htrack)).2.symm

/-- A Global Header that cannot be written leaves nothing in the sink. -/
theorem emitGlobalHeaderIfNeeded_eq_error (hposition : w.headerWritten = false → w.position = 0)
    (h : emitGlobalHeaderIfNeeded w = (.error e, w')) :
    w.headerWritten = false ∧
      ∃ flagsSection, w' = { w with globalFlagsSection := flagsSection } := by
  rw [emitGlobalHeaderIfNeeded, current_bind] at h
  split at h
  · cases h
  rename_i hwritten
  rw [Bool.not_eq_true] at hwritten
  refine ⟨hwritten, ?_⟩
  simp only [writeAll, bind_apply, andThen_eq_error_iff, lift_eq_error_iff, lift_eq_ok_iff,
    update_apply, andThen_ok] at h
  rcases h with ⟨-, rfl⟩ | ⟨_, _, ⟨-, rfl⟩, h⟩
  · exact ⟨_, rfl⟩
  rcases h with ⟨-, rfl⟩ | ⟨bytes, _, ⟨hbytes, rfl⟩, h⟩
  · exact ⟨_, rfl⟩
  rcases h with h | ⟨_, _, htrack, h⟩
  · exact ⟨_, trackHeader_eq_error h⟩
  -- the position cannot overflow, since the header comes first
  obtain ⟨rfl, -⟩ := trackHeader_eq_ok htrack
  obtain ⟨-, -, -, hkms, rfl⟩ := writeGlobalHeader_globalHeaderOf.mp hbytes
  rw [advancePosition_of_le] at h
  · rcases h with h | ⟨_, _, -, h⟩
    · cases h
    · cases h
  · change w.position + w.headerBytesOf.length ≤ u64Max
    rw [hposition hwritten, Nat.zero_add]
    exact length_headerBytesOf_le hkms

/-- The state in which an entry is written: the Global Header is in the sink, written now under
a width of the size fields that the policy allows, or written before. -/
def Opened (w w' : ArchiveWriter) : Prop :=
  (w.headerWritten = true ∧ w' = w) ∨
    (w.headerWritten = false ∧ ∃ b bytes, (w.withSize64Bit b).SizeForced ∧
      writeGlobalHeader (w.withSize64Bit b).globalHeaderOf = .ok bytes ∧
      w.position + bytes.length ≤ u64Max ∧ w' = (w.withSize64Bit b).headered bytes)

theorem Opened.of_emit {w₁ : ArchiveWriter} (hforced : w₁.SizeForced)
    (hwidth : ∃ b, w₁ = w.withSize64Bit b) (hsame : w.headerWritten = true → w₁ = w)
    (h : emitGlobalHeaderIfNeeded w₁ = (.ok u, w')) : Opened w w' ∧ (w.Bounded → w'.Bounded) := by
  obtain ⟨b, rfl⟩ := hwidth
  rcases emitGlobalHeaderIfNeeded_eq_ok h with
    ⟨hwritten, rfl⟩ | ⟨hwritten, bytes, hbytes, hle, rfl, hbounded⟩
  · exact ⟨.inl ⟨hwritten, hsame hwritten⟩, fun h => h⟩
  · exact ⟨.inr ⟨hwritten, b, bytes, hforced, hbytes, hle, rfl⟩, fun _ => hbounded⟩

theorem Opened.settings_eq (h : Opened w w') : w'.settings = w.settings := by
  rcases h with ⟨-, rfl⟩ | ⟨-, b, bytes, -, -, -, rfl⟩
  · rfl
  · simp only [settings, frame, headered, withSize64Bit, Option.map_map]
    rfl

/-! ### One entry -/

/-- A written entry: its header, the header's bytes and the stored payload. -/
structure Sealed where
  lfh : LocalFileHeader
  lfhBytes : Bytes
  payload : Bytes

/-- The entry in the sink. -/
def Sealed.bytes (s : Sealed) : Bytes := s.lfhBytes ++ s.payload

/-- How the writer seals an entry: what it computes of the bytes to store and of the header that
`prepare` starts from, without encryption or with it. -/
inductive Seals (w : ArchiveWriter) (wire : Bytes)
    (prepare : GlobalFlags → UInt64 → Result LocalFileHeader) : Sealed → Prop where
  | plain {encoded fecValue lfhBytes : Bytes} {lfh : LocalFileHeader}
      (hflag : w.flags.encrypted = false)
      (hencode : encodePayloadV2 backend wire (w.encodingPlan none) = .ok encoded)
      (hprepare : prepare w.flags (UInt64.ofNat encoded.length) = .ok lfh)
      (hfec : w.fecValueOf encoded = .ok fecValue)
      (hwrite : writeLfh w.flags { w.withWriterFields lfh with fecValue } = .ok lfhBytes) :
      Seals w wire prepare ⟨{ w.withWriterFields lfh with fecValue }, lfhBytes, encoded⟩
  | encrypted {encoded reserved fecValue lfhBytes payload : Bytes} {lfh : LocalFileHeader}
      {algoId : UInt8} {nonce random : Octets 24} {crypto : EntryCryptoContext} {msg : String}
      (hflag : w.flags.encrypted = true)
      (hencode : encodePayloadV2 backend wire (w.encodingPlan none) = .ok encoded)
      (hprepare : prepare w.flags (UInt64.ofNat (encoded.length + 16)) = .ok lfh)
      (hreserve : w.reservedFecValue encoded.length = .ok reserved)
      (halgo : w.encrAlgoId = some algoId)
      (hnonce : generateNonce algoId random = .ok nonce)
      (hcrypto : w.writerCrypto (encryptedLfh (w.withWriterFields lfh) algoId nonce reserved)
        algoId nonce = .ok crypto)
      (hseal : encodePayloadV2 backend wire (w.encodingPlan (some crypto)) = .ok payload)
      (hfec : w.encryptedFecValue reserved payload msg = .ok fecValue)
      (hwrite : writeLfh w.flags (encryptedLfh (w.withWriterFields lfh) algoId nonce fecValue) =
        .ok lfhBytes) :
      Seals w wire prepare
        ⟨encryptedLfh (w.withWriterFields lfh) algoId nonce fecValue, lfhBytes, payload⟩

section Seals

variable {backend} {wire : Bytes} {prepare : GlobalFlags → UInt64 → Result LocalFileHeader}
  {w w' : ArchiveWriter} {s : Sealed}

/-- Sealing looks at nothing that an entry changes. -/
theorem Seals.of_frame_eq (hframe : w'.frame = w.frame) (h : Seals backend w wire prepare s) :
    Seals backend w' wire prepare s := by
  have hto : Seals backend w.frame wire prepare s := by
    cases h with
    | plain hflag hencode hprepare hfec hwrite =>
      exact .plain hflag hencode hprepare hfec hwrite
    | encrypted hflag hencode hprepare hreserve halgo hnonce hcrypto hseal hfec hwrite =>
      exact .encrypted hflag hencode hprepare hreserve halgo hnonce hcrypto hseal hfec hwrite
  rw [← hframe] at hto
  generalize hw : w'.frame = wf at hto
  cases hto with
  | plain hflag hencode hprepare hfec hwrite =>
    subst hw
    exact .plain hflag hencode hprepare hfec hwrite
  | encrypted hflag hencode hprepare hreserve halgo hnonce hcrypto hseal hfec hwrite =>
    subst hw
    exact .encrypted hflag hencode hprepare hreserve halgo hnonce hcrypto hseal hfec hwrite

end Seals

variable {backend}

/-! ### Calls that fail -/

theorem applySizePolicy_eq_error {uncompressed payload : ℕ}
    (h : applySizePolicy uncompressed payload w = (.error e, w')) : w' = w := by
  rw [applySizePolicy, current_bind] at h
  rcases hpolicy : w.lfhSizeFieldPolicy with _ | _ | _
  all_goals simp only [hpolicy] at h
  · split at h
    · split at h
      · exact (Prod.mk.inj h).2.symm
      · cases h
    · split at h
      · cases h
      · cases h
  · split at h
    · exact (Prod.mk.inj h).2.symm
    · cases h
  · cases h

theorem drawNonce_eq_error {algoId : UInt8} {randoms : List (Octets 24)}
    (h : drawNonce algoId randoms w = (.error e, w')) : w' = w := by
  induction randoms with
  | nil => exact (Prod.mk.inj h).2.symm
  | cons random randoms ih =>
    simp only [drawNonce, bind_apply, andThen_eq_error_iff, lift_eq_error_iff, lift_eq_ok_iff,
      current_apply, andThen_ok] at h
    rcases h with ⟨-, rfl⟩ | ⟨nonce, _, ⟨-, rfl⟩, h⟩
    · rfl
    · split at h
      · exact ih h
      · cases h

/-- What a call leaves that fails before its entry is written: the sink gets the Global Header at
most. Until that is written, the width of the size fields may have changed; afterwards a nonce may
have been used up. -/
def FailsTo (w w' : ArchiveWriter) : Prop :=
  w' = w ∨
    (w.headerWritten = false ∧ ∃ b flagsSection, (w.withSize64Bit b).SizeForced ∧
      w' = { w.withSize64Bit b with globalFlagsSection := flagsSection }) ∨
    ∃ w₁ nonces state, Opened w w₁ ∧ (w.Bounded → w₁.Bounded) ∧
      w' = { w₁ with usedNonces := nonces, streamState := state }

theorem FailsTo.bounded (h : FailsTo w w') (hw : w.Bounded) : w'.Bounded := by
  rcases h with rfl | ⟨-, b, flagsSection, -, rfl⟩ | ⟨w₁, nonces, state, -, hbounded, rfl⟩
  · exact hw
  · exact hw
  · exact hbounded hw

section Encoded

variable {random : Fin 3 → Octets 24} {wire : Bytes} {logicalSize : ℕ}
  {prepare : GlobalFlags → UInt64 → Result LocalFileHeader} {msg : String} {w w' : ArchiveWriter}

/-- A call fails before its entry is written, or comes down to writing a sealed entry. -/
theorem writeEncoded_cases (hforced : w.SizeForced)
    (hposition : w.headerWritten = false → w.position = 0) :
    (∃ e w', writeEncoded backend random wire logicalSize prepare msg w = (.error e, w') ∧
      FailsTo w w') ∨
    ∃ w₁ nonces s, Opened w w₁ ∧ (w.Bounded → w₁.Bounded) ∧ Seals backend w₁ wire prepare s ∧
      writeEncoded backend random wire logicalSize prepare msg w =
        writeEntry s.lfhBytes s.payload { w₁ with usedNonces := nonces } := by
  rw [writeEncoded, current_bind, bind_apply, lift_apply]
  rcases hencode : encodePayloadV2 backend wire (w.encodingPlan none) with e | encoded
  · exact .inl ⟨e, w, andThen_error .., .inl rfl⟩
  rw [andThen_ok, bind_apply, lift_apply]
  rcases hlen : w.announcedLen encoded.length with e | payloadLen
  · exact .inl ⟨e, w, andThen_error .., .inl rfl⟩
  rw [andThen_ok, bind_apply]
  rcases hpolicy : applySizePolicy logicalSize payloadLen w with ⟨e | _, w₂⟩
  · exact .inl ⟨e, w₂, andThen_error .., .inl (applySizePolicy_eq_error hpolicy)⟩
  obtain ⟨hforced', hwidth, hsame⟩ := applySizePolicy_eq_ok hforced hpolicy
  rw [andThen_ok, bind_apply]
  rcases hemit : emitGlobalHeaderIfNeeded w₂ with ⟨e | _, w₁⟩
  · obtain ⟨b, rfl⟩ := hwidth
    obtain ⟨hwritten, flagsSection, rfl⟩ :=
      emitGlobalHeaderIfNeeded_eq_error (w := w.withSize64Bit b) hposition hemit
    exact .inl ⟨e, _, andThen_error .., .inr (.inl ⟨hwritten, b, flagsSection, hforced', rfl⟩)⟩
  obtain ⟨hopened, hbounded⟩ := Opened.of_emit hforced' hwidth hsame hemit
  -- from here on only the nonces can change
  have hleft : ∀ nonces, FailsTo w { w₁ with usedNonces := nonces } := fun nonces =>
    .inr (.inr ⟨w₁, nonces, w₁.streamState, hopened, hbounded, rfl⟩)
  have hsettings := hopened.settings_eq
  have hcomp : w₁.compression = w.compression := (congrArg compression hsettings :)
  have henc : w₁.flags.encrypted = w.flags.encrypted :=
    (congrArg (fun w => w.flags.encrypted) hsettings :)
  have hplan : ∀ c, w₁.encodingPlan c = w.encodingPlan c := by
    intro c
    rw [encodingPlan, encodingPlan, hcomp]
  rw [← hplan] at hencode
  rw [announcedLen, ← henc] at hlen
  rw [andThen_ok, current_bind, bind_apply, lift_apply]
  rcases hprepare : prepare w₁.flags (UInt64.ofNat payloadLen) with e | lfh
  · exact .inl ⟨e, w₁, andThen_error .., hleft _⟩
  rw [andThen_ok]
  split
  · rename_i hflag
    simp only [hflag, if_true, bind_eq_ok_iff, exists_unit, pure_eq_ok, ok.injEq] at hlen
    obtain ⟨-, rfl⟩ := hlen
    rw [writeEncrypted, current_bind, bind_apply, lift_apply]
    rcases hreserve : w₁.reservedFecValue encoded.length with e | reserved
    · exact .inl ⟨e, w₁, andThen_error .., hleft _⟩
    rw [andThen_ok, bind_apply, lift_apply]
    rcases halgo : w₁.encrAlgoId with _ | algoId
    · exact .inl ⟨_, w₁, andThen_error .., hleft _⟩
    rw [Except.okOr_some, andThen_ok, bind_apply]
    rcases hdraw : drawNonce algoId (List.ofFn random) w₁ with ⟨e | nonce, w₃⟩
    · obtain rfl := drawNonce_eq_error hdraw
      exact .inl ⟨e, _, andThen_error .., hleft _⟩
    obtain ⟨-, rfl, random, -, hnonce⟩ := drawNonce_eq_ok hdraw
    rw [andThen_ok, bind_apply, lift_apply]
    rcases hcrypto : w₁.writerCrypto (encryptedLfh (w₁.withWriterFields lfh) algoId nonce reserved)
      algoId nonce with e | crypto
    · exact .inl ⟨e, _, andThen_error .., hleft _⟩
    rw [andThen_ok, bind_apply, lift_apply]
    rcases hseal : encodePayloadV2 backend wire (w₁.encodingPlan (some crypto)) with e | payload
    · exact .inl ⟨e, _, andThen_error .., hleft _⟩
    rw [andThen_ok, bind_apply, lift_apply]
    rcases hfec : w₁.encryptedFecValue reserved payload msg with e | fecValue
    · exact .inl ⟨e, _, andThen_error .., hleft _⟩
    rw [andThen_ok, bind_apply, lift_apply]
    rcases hwrite : writeLfh w₁.flags (encryptedLfh (w₁.withWriterFields lfh) algoId nonce fecValue)
      with e | lfhBytes
    · exact .inl ⟨e, _, andThen_error .., hleft _⟩
    exact .inr ⟨w₁, _, _, hopened, hbounded, .encrypted hflag hencode hprepare hreserve
      halgo hnonce hcrypto hseal hfec hwrite, rfl⟩
  · rename_i hflag
    rw [Bool.not_eq_true] at hflag
    rw [hflag, if_neg Bool.false_ne_true] at hlen
    obtain rfl : encoded.length = payloadLen := ok.inj hlen
    rw [writePlain, current_bind, bind_apply, lift_apply]
    rcases hfec : w₁.fecValueOf encoded with e | fecValue
    · exact .inl ⟨e, w₁, andThen_error .., hleft _⟩
    rw [andThen_ok, bind_apply, lift_apply]
    rcases hwrite : writeLfh w₁.flags { w₁.withWriterFields lfh with fecValue } with e | lfhBytes
    · exact .inl ⟨e, w₁, andThen_error .., hleft _⟩
    exact .inr ⟨w₁, _, _, hopened, hbounded, .plain hflag hencode hprepare hfec hwrite, rfl⟩

end Encoded

/-! ### The length of an FEC value -/

section FecLength

variable {random : Fin 3 → Octets 24} {wire encoded : Bytes}
  {lfh : LocalFileHeader} {w : ArchiveWriter}

/-- The value that was reserved fits the encrypted payload. -/
theorem encryptedFecValue_eq_ok (hcipher : backend.aead.InPlace) {reserved payload : Bytes}
    {crypto : EntryCryptoContext}
    (hencode : encodePayloadV2 backend wire (w.encodingPlan none) = .ok encoded)
    (hreserve : w.reservedFecValue encoded.length = .ok reserved)
    (hseal : encodePayloadV2 backend wire (w.encodingPlan (some crypto)) = .ok payload) :
    ∃ value, ∀ msg, w.encryptedFecValue reserved payload msg = .ok value := by
  obtain ⟨compressed, hcompress, hnone⟩ := bind_eq_ok_iff.mp hencode
  obtain rfl : compressed = encoded := ok.inj hnone
  obtain ⟨compressed', hcompress', hseal⟩ := bind_eq_ok_iff.mp hseal
  obtain rfl : compressed = compressed' := ok.inj (hcompress.symm.trans hcompress')
  have hlen := length_aeadEncrypt hcipher (liftError_eq_ok_iff.mp hseal)
  cases hfec : w.fec with
  | none =>
    refine ⟨reserved, fun msg => ?_⟩
    rw [encryptedFecValue, hfec]
    rfl
  | some fec =>
    rw [reservedFecValue, hfec] at hreserve
    obtain ⟨n, hn, rfl⟩ := Except.map_eq_ok_iff.mp hreserve
    have htake : (payload.take (payload.length - 16)).length = compressed.length := by
      rw [length_take, hlen, tagSize]
      omega
    rw [← htake, FecSettings.computeFecValueLen_eq_ok_iff] at hn
    obtain ⟨value, hvalue, rfl⟩ := hn
    refine ⟨value, fun msg => ?_⟩
    rw [encryptedFecValue, hfec, Option.isSome_some, if_pos rfl, rejectIf_bind, fecValueOf, hfec]
    · dsimp only
      rw [hvalue, ok_bind, rejectIf_bind (not_not.mpr length_replicate.symm)]
      rfl
    · rw [hlen, tagSize]
      omega

theorem writeEncrypted_congr (hcipher : backend.aead.InPlace)
    (hencode : encodePayloadV2 backend wire (w.encodingPlan none) = .ok encoded)
    (msg msg' : String) :
    writeEncrypted backend random wire encoded.length lfh msg w =
      writeEncrypted backend random wire encoded.length lfh msg' w := by
  rw [writeEncrypted, writeEncrypted, current_bind, current_bind]
  refine bind_congr_at fun reserved w₁ hlift => ?_
  obtain ⟨hreserve, rfl⟩ := lift_eq_ok_iff.mp hlift
  refine bind_congr_at fun algoId _ _ => bind_congr_at fun nonce _ _ => ?_
  refine bind_congr_at fun crypto _ _ => bind_congr_at fun payload _ hlift => ?_
  obtain ⟨hseal, -⟩ := lift_eq_ok_iff.mp hlift
  obtain ⟨value, hvalue⟩ := encryptedFecValue_eq_ok hcipher hencode hreserve hseal
  rw [hvalue, hvalue]

/-- The settings of the payload's encoding stay what they are. -/
theorem preserves_compression_applySizePolicy (c : CompressionSettings) (a b : ℕ) :
    Preserves (fun w => w.compression = c) (applySizePolicy a b) := by
  intro w hw
  rw [applySizePolicy, current_bind]
  cases w.lfhSizeFieldPolicy with
  | force64 => exact hw
  | force32 =>
    dsimp only
    split <;> exact hw
  | auto =>
    dsimp only
    split_ifs <;> exact hw

theorem writeEncoded_congr (hcipher : backend.aead.InPlace) (logicalSize : ℕ)
    (prepare : GlobalFlags → UInt64 → Result LocalFileHeader) (msg msg' : String) :
    writeEncoded backend random wire logicalSize prepare msg w =
      writeEncoded backend random wire logicalSize prepare msg' w := by
  rw [writeEncoded, writeEncoded, current_bind, current_bind]
  refine bind_congr_at fun encoded w₁ hlift => ?_
  obtain ⟨hencode, rfl⟩ := lift_eq_ok_iff.mp hlift
  refine bind_congr_at fun payloadLen w₁ hlen => ?_
  obtain ⟨-, rfl⟩ := lift_eq_ok_iff.mp hlen
  refine bind_congr_at fun _ w₁ hpolicy => bind_congr_at fun _ w₂ hemit => ?_
  have hsize := preserves_compression_applySizePolicy _ logicalSize payloadLen
    (rfl : w.compression = _)
  rw [hpolicy] at hsize
  have hcomp : w₂.compression = w.compression := by
    rcases emitGlobalHeaderIfNeeded_eq_ok hemit with ⟨-, rfl⟩ | ⟨-, _, -, -, rfl, -⟩
    · exact hsize
    · exact hsize
  have hplan : w.encodingPlan none = w₂.encodingPlan none := by
    rw [encodingPlan, encodingPlan, hcomp]
  rw [hplan] at hencode
  rw [current_bind, current_bind]
  refine bind_congr_at fun lfh w₃ hprepare => ?_
  obtain ⟨-, rfl⟩ := lift_eq_ok_iff.mp hprepare
  by_cases hflag : w₂.flags.encrypted = true
  · rw [if_pos hflag, if_pos hflag]
    exact writeEncrypted_congr hcipher hencode msg msg'
  · rw [if_neg hflag, if_neg hflag]

theorem inPlace_plain : Backend.plain.aead.InPlace := by
  intro cipher hcipher key nonce aad text out tag h
  obtain rfl : cipher = Cipher.plain := by simpa [Backend.plain] using hcipher
  simp only [Cipher.plain] at h
  split at h
  · cases h
    rfl
  · cases h

/-- **The predicted length is exact.** It is predicted if and only if every byte string of the
length has a value, which then has that length; values are accepted with the parameters and the
length they were made for; no call ends with the error for a changed length, as what it does never
depends on that text; and the value of the encrypted payload always fits what was reserved. -/
theorem fecLength_exact (hcipher : backend.aead.InPlace) :
    (∀ (fec : FecSettings) (len n : ℕ), fec.computeFecValueLen len = .ok n ↔
      ∀ bs : Bytes, bs.length = len → ∃ value, fec.computeFecValue bs = .ok value ∧
        value.length = n) ∧
    (∀ (fec : FecSettings) (bs value : Bytes), fec.computeFecValue bs = .ok value →
      ∃ summary, parseFecValue fec.algoId value = .ok summary ∧
        fec.Describes bs.length summary) ∧
    (∀ random wire logicalSize prepare msg msg' w,
      writeEncoded backend random wire logicalSize prepare msg w =
        writeEncoded backend random wire logicalSize prepare msg' w) ∧
    ∀ (w : ArchiveWriter) wire encoded reserved payload crypto,
      encodePayloadV2 backend wire (w.encodingPlan none) = .ok encoded →
      w.reservedFecValue encoded.length = .ok reserved →
      encodePayloadV2 backend wire (w.encodingPlan (some crypto)) = .ok payload →
      ∃ value, ∀ msg, w.encryptedFecValue reserved payload msg = .ok value := by
  refine ⟨fun fec len n => ⟨?_, fun h => ?_⟩, fun fec bs value h => ?_, ?_,
    fun w wire encoded reserved payload crypto => encryptedFecValue_eq_ok hcipher⟩
  · rintro h bs rfl
    exact FecSettings.computeFecValueLen_eq_ok_iff.mp h
  · have hlen : (replicate len (0 : UInt8)).length = len := length_replicate
    rw [← hlen]
    exact FecSettings.computeFecValueLen_eq_ok_iff.mpr (h _ hlen)
  · exact FecSettings.parseFecValue_computeFecValue (FecSettings.length_computeFecValue_le h).1 h
  · intro random wire logicalSize prepare msg msg' w
    exact writeEncoded_congr hcipher logicalSize prepare msg msg'

/-- The value of five bytes under two data blocks of the least size. -/
theorem fecLength_exact_plain :
    ∃ value, FecSettings.computeFecValue ⟨fecAlgoXor, 2, 0, 0⟩ [1, 2, 3, 4, 5] = .ok value ∧
      value.length = 270 :=
  ((fecLength_exact inPlace_plain).1 ⟨fecAlgoXor, 2, 0, 0⟩ 5 270).mp (by decide) _ rfl

end FecLength

end ArchiveWriter

end Sar
