import Sar.Archive.WriterLayout

/-!
# When an archive can be finished

`finish` writes what is still missing: the Global Header, if no entry was added, and the index.
Whether it succeeds can be told from the writer's state before it (`Finishable`): the offsets of
the entries have to fit the size fields whose width the first entry fixed, and the metadata that
was given to the constructor has to be writable.

* `Consistent`: what the constructor and all calls leave intact.
* `Consistent.finish_eq_ok_iff`: `finish` succeeds exactly on `Finishable` writers, provided that
  the parity of an archive with recovery is within its limit.
-/

namespace Sar

open Except (rejectIf liftError okOr)
open Stateful LittleEndian List

namespace ArchiveWriter

variable {backend : Backend} {w w' : ArchiveWriter}

/-! ### Bytes under archive-level recovery -/

/-- Archive-level recovery has seen everything in the sink from the global flags on. -/
def Tracks (w : ArchiveWriter) : Prop :=
  ∀ r ∈ w.archiveRecovery, r.globalFlagsStartOffset = globalHeaderFlagsOffset ∧
    r.protectedRangeStart = globalHeaderFlagsOffset ∧
    r.protectedBytes = w.writer.drop globalHeaderFlagsOffset

/-- The Global Header is written when its key-management extension can be, and there is room for
it. -/
theorem emitGlobalHeaderIfNeeded_of_fits (hfresh : w.Fresh) (htracks : w.Tracks)
    (hwrite : writeGlobalHeader w.globalHeaderOf = .ok w.headerBytesOf)
    (hroom : ∀ r ∈ w.archiveRecovery, w.headerBytesOf.length - globalHeaderFlagsOffset ≤
      ResourceLimits.default.maxInMemoryBuffer) (hlen : w.headerBytesOf.length ≤ u64Max) :
    emitGlobalHeaderIfNeeded w = (.ok (), w.headered w.headerBytesOf) := by
  obtain ⟨hvalid, -⟩ := writeGlobalHeader_globalHeaderOf.mp hwrite
  have hfixed : globalHeaderFlagsOffset ≤ w.headerBytesOf.length := by
    rw [headerBytesOf]
    simp [magic, globalHeaderFlagsOffset]
  generalize hbytes : w.headerBytesOf = bytes at *
  set w₁ : ArchiveWriter := { w with globalFlagsSection := globalHeaderFlagsBytes w.globalHeaderOf }
    with hw₁
  have htrack : trackHeader bytes w₁ = (.ok (), { w₁ with
      archiveRecovery := w.archiveRecovery.map fun r =>
        { r with
          protectedBytes := r.protectedBytes ++ bytes.drop r.globalFlagsStartOffset } }) := by
    rw [trackHeader, current_bind]
    rcases hrec : w.archiveRecovery with _ | r
    · rw [hw₁, hrec]
      rfl
    · obtain ⟨hstart, -, hseen⟩ := htracks r hrec
      have hrec₁ : w₁.archiveRecovery = some r := hrec
      rw [hfresh.writer, drop_nil] at hseen
      have hroom₁ : w₁.HasRoom (bytes.drop r.globalFlagsStartOffset).length := by
        intro r' hr'
        obtain rfl : r = r' := Option.some.inj (hrec₁.symm.trans hr')
        rw [hseen, length_nil, Nat.zero_add, hstart, length_drop]
        exact hroom r hrec
      dsimp only
      rw [lift_rejectIf_bind (by rw [hstart]; exact not_lt.mpr hfixed),
        trackArchiveRecoveryBytes_of_room hroom₁, tracked, hrec₁]
      rfl
  rw [emitGlobalHeaderIfNeeded, current_bind, hfresh.headerWritten, if_neg Bool.false_ne_true,
    bind_apply, hvalid, lift_apply, andThen_ok, update_bind, bind_apply, hwrite, lift_apply,
    andThen_ok, bind_apply, htrack, andThen_ok, bind_apply, writeAll, update_apply, andThen_ok,
    bind_apply, advancePosition_of_le]
  · rfl
  · rw [hw₁, hfresh.position]
    omega

/-! ### What recovery has seen -/

theorem Holds.length_headerBytes {headerBytes : Bytes} {stored : List Sealed}
    (h : w.Holds headerBytes stored) : headerBytes = w.headerBytesOf ∧ 12 ≤ w.writer.length := by
  obtain ⟨-, -, -, -, rfl⟩ := writeGlobalHeader_globalHeaderOf.mp h.header
  refine ⟨rfl, ?_⟩
  rw [h.writer, length_append, length_headerBytesOf]
  omega

/-- Writing the Global Header. -/
theorem Tracks.opened {stored : List Sealed} (h : w.Tracks) (hbegun : w.Begun stored)
    (hopened : Opened w w') : w'.Tracks := by
  rcases hopened with ⟨-, rfl⟩ | ⟨hwritten, b, bytes, -, -, -, rfl⟩
  · exact h
  · rcases hbegun with ⟨hfresh, -⟩ | ⟨_, hholds⟩
    · intro r hr
      obtain ⟨r', hr', rfl⟩ := Option.mem_map.mp hr
      obtain ⟨hstart, hrange, hseen⟩ := h r' hr'
      refine ⟨hstart, hrange, ?_⟩
      change r'.protectedBytes ++ bytes.drop r'.globalFlagsStartOffset = (w.writer ++ bytes).drop _
      rw [hseen, hstart, hfresh.writer, drop_nil, nil_append, nil_append]
    · cases hwritten.symm.trans hholds.headerWritten

/-- Writing an entry. -/
theorem Tracks.appended (h : w.Tracks) (hlen : globalHeaderFlagsOffset ≤ w.writer.length)
    (lfhBytes payload : Bytes) : (w.appended lfhBytes payload).Tracks := by
  intro r hr
  obtain ⟨r', hr', rfl⟩ := Option.mem_map.mp hr
  obtain ⟨r'', hr'', rfl⟩ := Option.mem_map.mp hr'
  obtain ⟨hstart, hrange, hseen⟩ := h r'' hr''
  refine ⟨hstart, hrange, ?_⟩
  change r''.protectedBytes ++ lfhBytes ++ payload = (w.writer ++ lfhBytes ++ payload).drop _
  rw [hseen, append_assoc, append_assoc, drop_append_of_le_length hlen]

/-! ### Consistent writers -/

/-- What the constructor checks of the options and the metadata together. -/
structure Admitted (options : ArchiveWriterOptions) (compression : CompressionSettings)
    (cdMetadata : List Tlv) : Prop where
  unindexed : options.noIndex = true → cdMetadata = [] ∧ options.archiveRecovery = none
  recoveryTlvs : options.archiveRecovery.isSome = true → cdMetadata.any isRecoveryTlv = false
  flags : validateGlobalFlags (flagsOfOptions options compression cdMetadata) = .ok ()

variable {options : ArchiveWriterOptions} {compression : CompressionSettings}
  {keyProvider : Option KeyProvider} {cdMetadata : List Tlv}
  {encryption : Option ResolvedEncryption}

/-- A writer that a run leaves, whether its calls succeeded or failed: the given entries are in the
sink, and recovery has seen what the sink holds. -/
structure Consistent (backend : Backend) (options : ArchiveWriterOptions)
    (compression : CompressionSettings) (keyProvider : Option KeyProvider) (cdMetadata : List Tlv)
    (encryption : Option ResolvedEncryption) (w : ArchiveWriter) (stored : List Sealed) :
    Prop where
  writtenUnder : WrittenUnder backend options compression keyProvider cdMetadata encryption w
  admitted : Admitted options compression cdMetadata
  begun : w.Begun stored
  nonempty : ∀ s ∈ stored, 0 < s.bytes.length
  tracks : w.Tracks
  bounded : w.Bounded

theorem consistent_initial {start : ArchiveWriter}
    (h : newWithCompressionKeyProviderAndCdMetadata backend options compression keyProvider
      cdMetadata = .ok start) :
    ∃ encryption, Consistent backend options compression keyProvider cdMetadata encryption start
      [] := by
  obtain ⟨encryption, hconf, rfl⟩ := new_eq_ok h
  simp only [newWithCompressionKeyProviderAndCdMetadata, Except.bind_eq_ok_iff, Except.exists_unit,
    Except.rejectIf_eq_ok_iff] at h
  obtain ⟨hmeta, hrec, hconflict, _, -, -, _, -, hflags, -⟩ := h
  refine ⟨encryption, ⟨hconf, rfl⟩, ⟨fun hno => ?_, fun hsome => ?_, hflags⟩,
    .inl ⟨fresh_initial .., rfl⟩, (fun _ hmem => nomatch hmem), ?_, ?_⟩
  · rw [hno] at hmeta hrec
    simpa using And.intro hmeta hrec
  · rw [hsome] at hconflict
    simpa using hconflict
  · intro r hr
    obtain ⟨settings, -, rfl⟩ := Option.mem_map.mp hr
    exact ⟨rfl, rfl, rfl⟩
  · intro r hr
    obtain ⟨settings, -, rfl⟩ := Option.mem_map.mp hr
    exact Nat.zero_le _

variable {stored : List Sealed}

/-- A call that succeeds. -/
theorem Consistent.call
    (h : Consistent backend options compression keyProvider cdMetadata encryption w stored)
    {call : Call} {r : EntryWritten} (hcall : call.run backend w = (.ok r, w')) :
    ∃ s, Appends backend w call w' s ∧
      Consistent backend options compression keyProvider cdMetadata encryption w'
        (stored ++ [s]) := by
  obtain ⟨s, hs⟩ := Call.run_eq_ok h.begun hcall
  obtain ⟨headerBytes, hholds⟩ := h.begun.call hs
  obtain ⟨w₁, nonces, hopened, rfl⟩ := hs.opened
  obtain ⟨_, hholds₁⟩ := h.begun.holds_of_opened hopened
  have hlen : globalHeaderFlagsOffset ≤ w₁.writer.length :=
    le_trans (by decide) hholds₁.length_headerBytes.2
  have htracks : w₁.Tracks := h.tracks.opened h.begun hopened
  refine ⟨s, hs, ⟨⟨h.writtenUnder.configured, hs.settings_eq.trans h.writtenUnder.settings_eq⟩,
    h.admitted, .inr ⟨headerBytes, hholds⟩, fun s' hs' => ?_,
    Tracks.appended (w := { w₁ with usedNonces := nonces }) htracks hlen _ _, hs.bounded⟩⟩
  rcases mem_append.mp hs' with hs' | hs'
  · exact h.nonempty s' hs'
  · obtain rfl := mem_singleton.mp hs'
    have := length_pos_of_writeLfh hs.seals.writeLfh_eq
    rw [Sealed.bytes, length_append]
    omega

/-- Calls that all succeed. -/
theorem Consistent.runCalls
    (h : Consistent backend options compression keyProvider cdMetadata encryption w stored)
    {calls : List Call} {u : Unit} (hcalls : ArchiveWriter.runCalls backend calls w = (.ok u, w')) :
    ∃ new, Consistent backend options compression keyProvider cdMetadata encryption w'
      (stored ++ new) := by
  induction calls generalizing w stored with
  | nil =>
    obtain ⟨-, rfl⟩ := Prod.mk.inj hcalls
    exact ⟨[], by rwa [append_nil]⟩
  | cons call calls ih =>
    obtain ⟨_, w₁, hcall, hrest⟩ := andThen_eq_ok_iff.mp hcalls
    obtain ⟨s, -, hnext⟩ := h.call hcall
    obtain ⟨new, hlast⟩ := ih hnext hrest
    exact ⟨s :: new, by rwa [append_assoc] at hlast⟩

/-! ### What `finish` needs -/

/-- The position behind the Global Header and the entries. -/
def openedLen (w : ArchiveWriter) : ℕ :=
  if w.headerWritten then w.position else w.headerBytesOf.length

/-- How many bytes archive-level recovery protects in the end. -/
def protectedLen (w : ArchiveWriter) : ℕ := w.openedLen - globalHeaderFlagsOffset

/-- The length of the RECOVERY record, of an archive that has one within the parity limit. -/
def recoveryLen (w : ArchiveWriter) : ℕ :=
  (w.archiveRecovery.map fun r =>
    match r.settings.computeFecValueLen w.protectedLen with
    | .ok n => tlvLen n
    | .error _ => 0).getD 0

/-- The length of the Central Dictionary. -/
def dictionaryLen (w : ArchiveWriter) : ℕ :=
  8 + sizeFieldLen w.flags +
    (if w.flags.optPresent then 4 + (tlvsLen w.cdMetadata + w.recoveryLen) else 0) +
    w.offsets.length * sizeFieldLen w.flags

/-- The archive can be finished: the key-management extension and the bytes under recovery are
within their limits, the records given to the constructor can be written, and the offsets of the
entries fit the size fields. -/
structure Finishable (w : ArchiveWriter) : Prop where
  kms : ∀ kms ∈ w.headerKms, kms.payload.length < 2 ^ 32
  protectedBytes : w.archiveRecovery.isSome = true →
    w.protectedLen ≤ ResourceLimits.default.maxInMemoryBuffer
  records : ∀ tlv ∈ w.cdMetadata, tlv.Writable
  metadata : tlvsLen w.cdMetadata + w.recoveryLen < 2 ^ 32
  offsets : w.flags.noIndex = false →
    w.flags.size64Bit = true ∨ ∀ offset ∈ w.offsets, offset < 2 ^ 32
  size : w.flags.noIndex = false →
    w.openedLen + w.dictionaryLen + (8 - (w.openedLen + w.dictionaryLen) % 8) % 8 + 8 ≤ u64Max

/-- The parity of an archive with recovery is within the limit of the codec. -/
def ParityWithinLimit (w : ArchiveWriter) : Prop :=
  ∀ r ∈ w.archiveRecovery, ∃ n, r.settings.computeFecValueLen w.protectedLen = .ok n

/-- The writer once its Global Header is out. -/
def opened (w : ArchiveWriter) : ArchiveWriter :=
  if w.headerWritten then w else w.headered w.headerBytesOf

theorem isSome_archiveRecovery_opened (w : ArchiveWriter) :
    w.opened.archiveRecovery.isSome = w.archiveRecovery.isSome := by
  rw [opened]
  split
  · rfl
  · exact Option.isSome_map

/-- Increasing numbers from `a` on and below `b` are not more than there are. -/
theorem length_le_of_pairwise {l : List ℕ} {a b : ℕ} (h : l.Pairwise (· < ·))
    (hmem : ∀ x ∈ l, a ≤ x ∧ x < b) : l.length ≤ b - a := by
  induction l generalizing a with
  | nil => exact Nat.zero_le _
  | cons x l ih =>
    obtain ⟨hlt, hrest⟩ := pairwise_cons.mp h
    have hx := hmem x mem_cons_self
    have hle := @ih (x + 1) hrest fun y hy => ⟨hlt y hy, (hmem y (mem_cons_of_mem x hy)).2⟩
    rw [length_cons]
    omega

/-- The offsets fit the size fields. -/
theorem fitsSizeField_offsets {flags : GlobalFlags} {offsets : List ℕ}
    (hmax : ∀ offset ∈ offsets, offset ≤ u64Max) :
    (∀ offset ∈ offsets.map UInt64.ofNat, FitsSizeField flags offset) ↔
      flags.size64Bit = true ∨ ∀ offset ∈ offsets, offset < 2 ^ 32 := by
  rw [forall_mem_map]
  constructor
  · intro hall
    by_cases hwide : flags.size64Bit = true
    · exact .inl hwide
    · refine .inr fun offset hoffset => ?_
      have hlt := (hall offset hoffset).resolve_left hwide
      rwa [toNat_uint64_ofNat (hmax offset hoffset)] at hlt
  · rintro (hwide | hlt) offset hoffset
    · exact .inl hwide
    · exact .inr (by rw [toNat_uint64_ofNat (hmax offset hoffset)]; exact hlt offset hoffset)

theorem opened_same (w : ArchiveWriter) :
    w.opened.headerWritten = true ∧ w.opened.flags = w.flags ∧ w.opened.offsets = w.offsets ∧
      w.opened.cdMetadata = w.cdMetadata ∧
      w.opened.archiveRecovery.map (·.settings) = w.archiveRecovery.map (·.settings) := by
  rw [opened]
  split
  · rename_i hwritten
    exact ⟨hwritten, rfl, rfl, rfl, rfl⟩
  · exact ⟨rfl, rfl, rfl, rfl, Option.map_map ..⟩

/-- What `finish` needs of the index is the same before and after the Global Header. -/
theorem opened_lengths (hposition : w.opened.position = w.openedLen) :
    w.opened.openedLen = w.openedLen ∧ w.opened.recoveryLen = w.recoveryLen ∧
      w.opened.dictionaryLen = w.dictionaryLen ∧
      (w.ParityWithinLimit → w.opened.ParityWithinLimit) := by
  obtain ⟨hwritten, hflags, hoffsets, hmeta, hrec⟩ := w.opened_same
  have hopened : w.opened.openedLen = w.openedLen := by rw [openedLen, if_pos hwritten, hposition]
  have hprotected : w.opened.protectedLen = w.protectedLen := by
    rw [protectedLen, hopened, protectedLen]
  -- both are functions of the settings
  have hlenOf : ∀ v : ArchiveWriter, v.recoveryLen = ((v.archiveRecovery.map (·.settings)).map
      fun settings => match settings.computeFecValueLen v.protectedLen with
        | .ok n => tlvLen n
        | .error _ => 0).getD 0 := by
    intro v
    rw [recoveryLen, Option.map_map]
    rfl
  have hrecovery : w.opened.recoveryLen = w.recoveryLen := by
    rw [hlenOf, hlenOf w, hrec, hprotected]
  refine ⟨hopened, hrecovery, ?_, ?_⟩
  · rw [dictionaryLen, hflags, hoffsets, hmeta, hrecovery, dictionaryLen]
  · intro hparity r hr
    have hsettings : some r.settings = w.archiveRecovery.map (·.settings) := by
      rw [← hrec, hr, Option.map_some]
    obtain ⟨r', hr', heq⟩ := Option.map_eq_some_iff.mp hsettings.symm
    rw [hprotected, ← heq]
    exact hparity r' hr'

/-- `finish` is the Global Header and the index. -/
theorem finish_eq_ok_iff (hfinished : w.finished = false) :
    (∃ summary w', finish w = (.ok summary, w')) ↔
      ∃ w₁, emitGlobalHeaderIfNeeded w = (.ok (), w₁) ∧
        (w₁.flags.noIndex = false → ∃ tlvs cdBytes, w₁.recoveryMetadata = .ok tlvs ∧
          writeCentralDictionary { w₁.centralDictionaryOf with tlvs := w₁.cdMetadata ++ tlvs }
            w₁.flags = .ok cdBytes ∧
          w₁.position + (indexBytes w₁.position cdBytes).length ≤ u64Max) := by
  simp only [finish, writeIndexIfIndexed, bind_apply, checkNotFinished_of_not hfinished,
    andThen_ok, andThen_eq_ok_iff, update_apply, current_apply, pure_apply, Prod.mk.injEq]
  constructor
  · rintro ⟨summary, w', _, w₁, hemit, _, w₂, hindex, -⟩
    refine ⟨w₁, hemit, fun hidx => ?_⟩
    rw [hidx, if_neg Bool.false_ne_true] at hindex
    obtain ⟨tlvs, cdBytes, htlvs, hcd, hle, -⟩ := writeIndex_eq_ok_iff.mp hindex
    exact ⟨tlvs, cdBytes, htlvs, hcd, hle⟩
  · rintro ⟨w₁, hemit, hindex⟩
    cases hidx : w₁.flags.noIndex with
    | true => exact ⟨_, _, (), w₁, hemit, (), _, by rw [hidx, if_pos rfl]; rfl, rfl, rfl⟩
    | false =>
      obtain ⟨tlvs, cdBytes, htlvs, hcd, hle⟩ := hindex hidx
      have hwrite : (if w₁.flags.noIndex = true then pure () else writeIndex)
          { w₁ with streamState := .needCentralDictionaryOrFooter } =
          (.ok (), indexed tlvs cdBytes
            { w₁ with streamState := .needCentralDictionaryOrFooter }) := by
        rw [hidx, if_neg Bool.false_ne_true]
        exact writeIndex_eq_ok_iff.mpr ⟨tlvs, cdBytes, htlvs, hcd, hle, rfl⟩
      exact ⟨_, _, (), w₁, hemit, (), _, hwrite, rfl, rfl⟩

section WrittenUnder

variable (h : WrittenUnder backend options compression keyProvider cdMetadata encryption w)

include h

theorem WrittenUnder.flags_bits :
    w.flags.partitionedArchive = false ∧ w.flags.hasGlobalCrc32 = false ∧
      w.flags.noIndex = options.noIndex ∧
      w.flags.optPresent = (!cdMetadata.isEmpty || options.archiveRecovery.isSome) := by
  have hflags := h.flags_eq
  exact ⟨congrArg GlobalFlags.partitionedArchive hflags,
    congrArg GlobalFlags.hasGlobalCrc32 hflags, congrArg GlobalFlags.noIndex hflags,
    congrArg GlobalFlags.optPresent hflags⟩

theorem WrittenUnder.cdMetadata_eq :
    w.cdMetadata = cdMetadata :=
  (congrArg ArchiveWriter.cdMetadata h.settings_eq :)

/-- The settings of archive-level recovery are the given ones, which have a codec. -/
theorem WrittenUnder.archiveRecovery :
    w.archiveRecovery.isSome = options.archiveRecovery.isSome ∧
      ∀ r ∈ w.archiveRecovery, options.archiveRecovery = some r.settings ∧
        (r.settings.algoId = fecAlgoXor ∨ r.settings.algoId = fecAlgoReedSolomon) := by
  have hrec := (congrArg ArchiveWriter.archiveRecovery h.settings_eq :)
  simp only [settings, frame, initial, Option.map_map] at hrec
  constructor
  · have := congrArg Option.isSome hrec
    simpa using this
  · intro r hr
    rw [Option.mem_def] at hr
    rw [hr, Option.map_some] at hrec
    obtain ⟨given, hgiven, heq⟩ := Option.map_eq_some_iff.mp hrec.symm
    obtain rfl : given = r.settings := (congrArg ArchiveRecoveryState.settings heq :)
    exact ⟨hgiven, FecSettings.algoId_of_withCodec (h.configured.recovery_valid _ hgiven)⟩

theorem WrittenUnder.headerKms :
    w.flags.encrypted = w.headerKms.isSome := by
  have hkms : w.headerKms = encryption.map (·.kms) :=
    (congrArg ArchiveWriter.headerKms h.settings_eq :)
  have hflag : w.flags.encrypted = options.encryption.isSome :=
    (congrArg GlobalFlags.encrypted h.flags_eq :)
  rw [hkms, hflag, Option.isSome_map]
  have hresolve := h.configured.encryption_eq
  rcases hgiven : options.encryption with _ | settings
  · rw [hgiven] at hresolve
    obtain rfl : none = encryption := Except.ok.inj hresolve
    rfl
  · rw [hgiven] at hresolve
    obtain ⟨resolved, -, rfl⟩ := Except.map_eq_ok_iff.mp hresolve
    rfl

end WrittenUnder

section Consistent

variable (h : Consistent backend options compression keyProvider cdMetadata encryption w stored)

include h

/-- What the Global Header needs. -/
theorem Consistent.writeGlobalHeader_iff :
    writeGlobalHeader w.globalHeaderOf = .ok w.headerBytesOf ↔
      ∀ kms ∈ w.headerKms, kms.payload.length < 2 ^ 32 := by
  have hvalid : validateGlobalFlags w.flags = .ok () := by
    change validateGlobalFlags { w.flags with size64Bit := false } = .ok ()
    rw [h.writtenUnder.flags_eq]
    exact h.admitted.flags
  rw [writeGlobalHeader_globalHeaderOf]
  constructor
  · rintro ⟨-, -, -, hkms, -⟩
    exact hkms
  · intro hkms
    exact ⟨hvalid, h.writtenUnder.headerKms, h.writtenUnder.flags_bits.1, hkms, rfl⟩

/-- The writer once its Global Header is out, if that header can be written. -/
theorem Consistent.opened_opened (hkms : ∀ kms ∈ w.headerKms, kms.payload.length < 2 ^ 32) :
    Opened w w.opened ∧ w.opened.position = w.openedLen := by
  rw [opened, openedLen]
  cases hwritten : w.headerWritten with
  | true => exact ⟨.inl ⟨hwritten, rfl⟩, rfl⟩
  | false =>
    rcases h.begun with ⟨hfresh, -⟩ | ⟨_, hholds⟩
    · refine ⟨.inr ⟨hwritten, w.flags.size64Bit, w.headerBytesOf, hfresh.sizeForced,
        h.writeGlobalHeader_iff.mpr hkms, ?_, rfl⟩, ?_⟩
      · rw [hfresh.position, Nat.zero_add]
        exact length_headerBytesOf_le hkms
      · change w.position + w.headerBytesOf.length = w.headerBytesOf.length
        rw [hfresh.position, Nat.zero_add]
    · cases hwritten.symm.trans hholds.headerWritten

/-- The bytes under recovery, once the Global Header is out. -/
theorem Consistent.protectedBytes_opened (hkms : ∀ kms ∈ w.headerKms, kms.payload.length < 2 ^ 32) :
    ∀ r ∈ w.opened.archiveRecovery, r.protectedBytes.length = w.protectedLen := by
  intro r hr
  obtain ⟨hopened, hposition⟩ := h.opened_opened hkms
  obtain ⟨headerBytes, hholds⟩ := h.begun.holds_of_opened hopened
  obtain ⟨-, -, hseen⟩ := h.tracks.opened h.begun hopened r hr
  rw [hseen, length_drop, ← hholds.position, hposition, protectedLen]

/-- The Global Header is out when its extension can be written and there is room for it. -/
theorem Consistent.emit_eq_ok_iff {u : Unit} :
    emitGlobalHeaderIfNeeded w = (.ok u, w') ↔
      (∀ kms ∈ w.headerKms, kms.payload.length < 2 ^ 32) ∧
        (w.archiveRecovery.isSome = true →
          w.protectedLen ≤ ResourceLimits.default.maxInMemoryBuffer) ∧ w' = w.opened := by
  constructor
  · intro hemit
    have hsame : (∀ kms ∈ w.headerKms, kms.payload.length < 2 ^ 32) ∧ w'.Bounded ∧
        w' = w.opened := by
      rcases emitGlobalHeaderIfNeeded_eq_ok hemit with
        ⟨hwritten, rfl⟩ | ⟨hwritten, bytes, hbytes, -, rfl, hbounded⟩
      · rcases h.begun with ⟨hfresh, -⟩ | ⟨_, hholds⟩
        · cases hwritten.symm.trans hfresh.headerWritten
        · obtain ⟨-, -, -, hkms, -⟩ := writeGlobalHeader_globalHeaderOf.mp hholds.header
          exact ⟨hkms, h.bounded, by rw [opened, if_pos hwritten]⟩
      · obtain ⟨-, -, -, hkms, rfl⟩ := writeGlobalHeader_globalHeaderOf.mp hbytes
        exact ⟨hkms, hbounded, by rw [opened, hwritten, if_neg Bool.false_ne_true]⟩
    obtain ⟨hkms, hbounded, rfl⟩ := hsame
    refine ⟨hkms, fun hsome => ?_, rfl⟩
    rw [← isSome_archiveRecovery_opened] at hsome
    obtain ⟨r, hr⟩ := Option.isSome_iff_exists.mp hsome
    rw [← h.protectedBytes_opened hkms r hr]
    exact hbounded r hr
  · rintro ⟨hkms, hroom, rfl⟩
    cases hwritten : w.headerWritten with
    | true =>
      rw [emitGlobalHeaderIfNeeded, current_bind, opened, hwritten]
      rfl
    | false =>
      rcases h.begun with ⟨hfresh, -⟩ | ⟨_, hholds⟩
      · rw [opened, hwritten, if_neg Bool.false_ne_true]
        refine emitGlobalHeaderIfNeeded_of_fits hfresh h.tracks
          (h.writeGlobalHeader_iff.mpr hkms) (fun r hr => ?_) (length_headerBytesOf_le hkms)
        have := hroom (Option.isSome_iff_exists.mpr ⟨r, hr⟩)
        rwa [protectedLen, openedLen, hwritten, if_neg Bool.false_ne_true] at this
      · cases hwritten.symm.trans hholds.headerWritten

/-! ### The index -/

/-- The RECOVERY record of a writer whose header is out. -/
theorem Consistent.recoveryMetadata_eq_ok (hwritten : w.headerWritten = true)
    (hparity : w.ParityWithinLimit) :
    ∃ tlvs, w.recoveryMetadata = .ok tlvs ∧ tlvsLen tlvs = w.recoveryLen ∧
      (∀ tlv ∈ tlvs, tlv.Writable) ∧ (w.archiveRecovery = none → tlvs = []) := by
  rcases hrec : w.archiveRecovery with _ | r
  · refine ⟨[], ?_, ?_, (fun _ hmem => nomatch hmem), fun _ => rfl⟩
    · rw [recoveryMetadata, hrec]
      rfl
    · rw [recoveryLen, hrec]
      rfl
  · obtain ⟨n, hn⟩ := hparity r hrec
    obtain ⟨hstart, hrange, hseen⟩ := h.tracks r hrec
    obtain ⟨headerBytes, hholds⟩ : ∃ headerBytes, w.Holds headerBytes stored := by
      rcases h.begun with ⟨hfresh, -⟩ | hholds
      · cases hwritten.symm.trans hfresh.headerWritten
      · exact hholds
    have hlong : globalHeaderFlagsOffset ≤ w.position := by
      rw [hholds.position]
      exact le_trans (by decide) hholds.length_headerBytes.2
    have hlen : r.protectedBytes.length = w.protectedLen := by
      rw [hseen, length_drop, ← hholds.position, protectedLen, openedLen, if_pos hwritten]
    have hpos : w.protectedLen = w.position - globalHeaderFlagsOffset := by
      rw [protectedLen, openedLen, if_pos hwritten]
    have hn' := hn
    rw [← hlen] at hn'
    obtain ⟨value, hvalue, rfl⟩ := FecSettings.computeFecValueLen_eq_ok_iff.mp hn'
    refine ⟨[⟨r.settings.algoId, value⟩], ?_, ?_, ?_, fun hnone => nomatch hnone⟩
    · rw [recoveryMetadata, hrec]
      dsimp only
      rw [hrange, Except.rejectIf_bind (not_lt.mpr hlong),
        Except.rejectIf_bind (by rw [hlen, hpos]; exact fun hne => hne rfl), hvalue]
      rfl
    · rw [recoveryLen, hrec, Option.map_some, Option.getD_some, hn]
      rfl
    · intro tlv htlv
      obtain rfl := mem_singleton.mp htlv
      refine ⟨?_, (FecSettings.length_computeFecValue_le hvalue).2.trans_lt (by decide)⟩
      rcases (h.writtenUnder.archiveRecovery.2 r hrec).2 with halgo | halgo
      · rw [halgo]
        rfl
      · rw [halgo]
        rfl

/-- The offsets that the index lists: they are numbers of 64 bits, and so is their count. If they
fit the size fields, so does the count. -/
theorem Consistent.offsets :
    (∀ offset ∈ w.offsets, offset ≤ u64Max) ∧ w.offsets.length ≤ u64Max ∧
      ((∀ offset ∈ w.offsets, offset < 2 ^ 32) → w.offsets.length < 2 ^ 32) := by
  rcases h.begun with ⟨hfresh, -⟩ | ⟨headerBytes, hholds⟩
  · rw [hfresh.offsets]
    exact ⟨(fun _ hmem => nomatch hmem), Nat.zero_le _, fun _ => by decide⟩
  · obtain ⟨hpairwise, hbounds⟩ := offsetsFrom_pairwise headerBytes.length h.nonempty
    rw [← hholds.offsets] at hpairwise hbounds
    have hlt : ∀ offset ∈ w.offsets, 12 ≤ offset ∧ offset < u64Max := by
      intro offset hoffset
      have hmax := hholds.position_le
      obtain ⟨hheader, -⟩ := hholds.length_headerBytes
      have hfixed := length_headerBytesOf w
      rw [hholds.position, hholds.writer, length_append] at hmax
      have := hbounds offset hoffset
      rw [hheader] at this hmax
      omega
    refine ⟨fun offset hoffset => (hlt offset hoffset).2.le, ?_, fun hsmall => ?_⟩
    · exact (length_le_of_pairwise hpairwise hlt).trans (Nat.sub_le _ _)
    · have := length_le_of_pairwise hpairwise fun offset hoffset =>
        ⟨(hlt offset hoffset).1, hsmall offset hoffset⟩
      omega

/-- The records, the offsets and the whole index of a writer whose header is out. -/
theorem Consistent.writeIndex_iff (hwritten : w.headerWritten = true)
    (hparity : w.ParityWithinLimit) :
    (∃ tlvs cdBytes, w.recoveryMetadata = .ok tlvs ∧
      writeCentralDictionary { w.centralDictionaryOf with tlvs := w.cdMetadata ++ tlvs } w.flags =
        .ok cdBytes ∧ w.position + (indexBytes w.position cdBytes).length ≤ u64Max) ↔
      (∀ tlv ∈ w.cdMetadata, tlv.Writable) ∧ tlvsLen w.cdMetadata + w.recoveryLen < 2 ^ 32 ∧
      (w.flags.size64Bit = true ∨ ∀ offset ∈ w.offsets, offset < 2 ^ 32) ∧
      w.openedLen + w.dictionaryLen + (8 - (w.openedLen + w.dictionaryLen) % 8) % 8 + 8 ≤
        u64Max := by
  obtain ⟨tlvs, htlvs, hlen, hwritable, hnone⟩ := h.recoveryMetadata_eq_ok hwritten hparity
  obtain ⟨hpart, hcrc, -, hopt⟩ := h.writtenUnder.flags_bits
  obtain ⟨hmax, hcountMax, hcountFits⟩ := h.offsets
  have hopened : w.openedLen = w.position := by rw [openedLen, if_pos hwritten]
  set cd : CentralDictionary := { w.centralDictionaryOf with tlvs := w.cdMetadata ++ tlvs } with hcd
  have htotal : tlvsLen (w.cdMetadata ++ tlvs) = tlvsLen w.cdMetadata + w.recoveryLen := by
    rw [← hlen, tlvsLen, tlvsLen, tlvsLen, map_append, sum_append]
  have hcdLen : cdLen w.flags cd.tlvs cd.offsets.length = w.dictionaryLen := by
    rw [cdLen, cdMetadataLen, dictionaryLen, hcd]
    change 8 + sizeFieldLen w.flags +
      (if w.flags.optPresent then 4 + tlvsLen (w.cdMetadata ++ tlvs) else 0) +
      (w.offsets.map UInt64.ofNat).length * sizeFieldLen w.flags = _
    rw [htotal, length_map]
  have hindexLen : ∀ {cdBytes : Bytes}, cdBytes.length = w.dictionaryLen →
      w.position + (indexBytes w.position cdBytes).length = w.openedLen + w.dictionaryLen +
        (8 - (w.openedLen + w.dictionaryLen) % 8) % 8 + 8 := by
    intro cdBytes hcdBytes
    rw [indexBytes, length_append, length_append, length_replicate, writeFooter,
      length_u64Bytes, hcdBytes, hopened]
    omega
  -- the fields of the dictionary, in terms of the writer's
  have hfields : FitsSizeField w.flags cd.fileCount ∧
      (w.flags.optPresent = true → (∀ tlv ∈ cd.tlvs, tlv.Writable) ∧ tlvsLen cd.tlvs < 2 ^ 32) ∧
      cd.fileCount.toNat = cd.offsets.length ∧
      (∀ offset ∈ cd.offsets, FitsSizeField w.flags offset) ↔
      (∀ tlv ∈ w.cdMetadata, tlv.Writable) ∧ tlvsLen w.cdMetadata + w.recoveryLen < 2 ^ 32 ∧
      (w.flags.size64Bit = true ∨ ∀ offset ∈ w.offsets, offset < 2 ^ 32) := by
    have hcount : cd.fileCount.toNat = w.offsets.length := toNat_uint64_ofNat hcountMax
    have hoffsets : (∀ offset ∈ cd.offsets, FitsSizeField w.flags offset) ↔ _ :=
      fitsSizeField_offsets hmax
    have hrecords : (w.flags.optPresent = true → (∀ tlv ∈ cd.tlvs, tlv.Writable) ∧
        tlvsLen cd.tlvs < 2 ^ 32) ↔ (∀ tlv ∈ w.cdMetadata, tlv.Writable) ∧
          tlvsLen w.cdMetadata + w.recoveryLen < 2 ^ 32 := by
      rw [← htotal]
      constructor
      · intro hall
        cases hpresent : w.flags.optPresent with
        | true =>
          obtain ⟨hwritables, hlt⟩ := hall hpresent
          exact ⟨fun tlv htlv => hwritables tlv (mem_append_left _ htlv), hlt⟩
        | false =>
          -- without the section there are no records
          rw [hpresent, eq_comm, Bool.or_eq_false_iff, Bool.not_eq_false', List.isEmpty_iff] at hopt
          have hrec : w.archiveRecovery = none := by
            rw [← Option.not_isSome_iff_eq_none, h.writtenUnder.archiveRecovery.1, hopt.2]
            exact Bool.false_ne_true
          rw [h.writtenUnder.cdMetadata_eq, hopt.1, hnone hrec]
          exact ⟨by simp, by decide⟩
      · rintro ⟨hall, hlt⟩ -
        refine ⟨fun tlv htlv => ?_, hlt⟩
        rcases mem_append.mp htlv with htlv | htlv
        · exact hall tlv htlv
        · exact hwritable tlv htlv
    rw [hoffsets, hrecords]
    constructor
    · rintro ⟨-, ⟨hall, hlt⟩, -, hfits⟩
      exact ⟨hall, hlt, hfits⟩
    · rintro ⟨hall, hlt, hfits⟩
      refine ⟨hfits.imp_right fun hsmall => ?_, ⟨hall, hlt⟩, ?_, hfits⟩
      · rw [hcount]
        exact hcountFits hsmall
      · rw [hcount]
        exact (length_map _).symm
  constructor
  · rintro ⟨tlvs', cdBytes, htlvs', hwrite, hle⟩
    obtain rfl : tlvs = tlvs' := Except.ok.inj (htlvs.symm.trans htlvs')
    obtain ⟨hcount, hrecords, hmatch, hoffsets, hbytes⟩ :=
      (exists_writeCentralDictionary_iff cd _ hpart hcrc).mp ⟨cdBytes, hwrite, rfl⟩
    obtain ⟨hall, hmeta, hfits⟩ := hfields.mp ⟨hcount, hrecords, hmatch, hoffsets⟩
    refine ⟨hall, hmeta, hfits, ?_⟩
    rwa [← hindexLen (hbytes.symm.trans hcdLen)]
  · rintro ⟨hall, hmeta, hfits, hle⟩
    obtain ⟨hcount, hrecords, hmatch, hoffsets⟩ := hfields.mpr ⟨hall, hmeta, hfits⟩
    obtain ⟨cdBytes, hwrite, hbytes⟩ := (exists_writeCentralDictionary_iff cd _ hpart hcrc).mpr
      ⟨hcount, hrecords, hmatch, hoffsets, hcdLen⟩
    exact ⟨tlvs, cdBytes, htlvs, hwrite, (hindexLen hbytes).trans_le hle⟩

/-! ### The whole of `finish` -/

theorem Consistent.opened {u : Unit} (hemit : emitGlobalHeaderIfNeeded w = (.ok u, w.opened)) :
    Consistent backend options compression keyProvider cdMetadata encryption w.opened stored := by
  obtain ⟨hkms, -, -⟩ := h.emit_eq_ok_iff.mp hemit
  obtain ⟨hopened, -⟩ := h.opened_opened hkms
  obtain ⟨-, hbounded⟩ := Opened.of_emit h.begun.sizeForced ⟨w.flags.size64Bit, rfl⟩
    (fun _ => rfl) hemit
  exact ⟨⟨h.writtenUnder.configured, hopened.settings_eq.trans h.writtenUnder.settings_eq⟩,
    h.admitted, .inr (h.begun.holds_of_opened hopened), h.nonempty,
    h.tracks.opened h.begun hopened, hbounded h.bounded⟩

/-- On a consistent writer `finish` succeeds exactly when the archive can be finished. -/
theorem Consistent.finish_eq_ok_iff (hparity : w.ParityWithinLimit) :
    (∃ summary w', finish w = (.ok summary, w')) ↔ w.Finishable := by
  obtain ⟨-, hflags, hoffsets, hmeta, -⟩ := w.opened_same
  have hwritten := w.opened_same.1
  rw [ArchiveWriter.finish_eq_ok_iff h.begun.finished]
  constructor
  · rintro ⟨w₁, hemit, hindex⟩
    obtain ⟨hkms, hroom, rfl⟩ := h.emit_eq_ok_iff.mp hemit
    obtain ⟨hopened, hrecovery, hdict, hparity'⟩ := opened_lengths (h.opened_opened hkms).2
    have hneeds := (h.opened hemit).writeIndex_iff hwritten (hparity' hparity)
    rw [hmeta, hrecovery, hflags, hoffsets, hopened, hdict] at hneeds
    rw [hmeta, hflags] at hindex
    have hparts := fun hidx => hneeds.mp (hindex hidx)
    have hrecords : (∀ tlv ∈ w.cdMetadata, tlv.Writable) ∧
        tlvsLen w.cdMetadata + w.recoveryLen < 2 ^ 32 := by
      cases hidx : w.flags.noIndex with
      | false => exact ⟨(hparts hidx).1, (hparts hidx).2.1⟩
      | true =>
        -- an archive without index has no records
        rw [h.writtenUnder.flags_bits.2.2.1] at hidx
        obtain ⟨hempty, hnone⟩ := h.admitted.unindexed hidx
        have hrec : w.archiveRecovery = none := by
          rw [← Option.not_isSome_iff_eq_none, h.writtenUnder.archiveRecovery.1, hnone]
          exact Bool.false_ne_true
        rw [h.writtenUnder.cdMetadata_eq, hempty, recoveryLen, hrec]
        exact ⟨fun _ hmem => (nomatch hmem), Nat.two_pow_pos 32⟩
    exact ⟨hkms, hroom, hrecords.1, hrecords.2, fun hidx => (hparts hidx).2.2.1,
      fun hidx => (hparts hidx).2.2.2⟩
  · intro hfin
    have hemit := (h.emit_eq_ok_iff (u := ())).mpr ⟨hfin.kms, hfin.protectedBytes, rfl⟩
    obtain ⟨hopened, hrecovery, hdict, hparity'⟩ := opened_lengths (h.opened_opened hfin.kms).2
    have hneeds := (h.opened hemit).writeIndex_iff hwritten (hparity' hparity)
    rw [hmeta, hrecovery, hflags, hoffsets, hopened, hdict] at hneeds
    refine ⟨w.opened, hemit, fun hidx => ?_⟩
    rw [hflags] at hidx
    rw [hmeta, hflags]
    exact hneeds.mpr ⟨hfin.records, hfin.metadata, hfin.offsets hidx, hfin.size hidx⟩

end Consistent

end ArchiveWriter

end Sar
