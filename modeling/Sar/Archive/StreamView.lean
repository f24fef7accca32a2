import Sar.Archive.StreamParser

/-!
# What the stream parser sees of its buffer

The buffer and the cursor matter only through the bytes that are still unread. `compact` is the
parser with the read part of its buffer dropped. Each phase gets one equation for every way it
can go.
-/

namespace Sar

open Except (rejectIf liftError okOr okOr_some okOr_none)
open Stateful LittleEndian

namespace StreamArchiveParser

variable {p q : StreamArchiveParser}

/-- The bytes that were delivered and not yet read. -/
def unread (p : StreamArchiveParser) : Bytes := p.buffer.drop p.consumed

/-- The parser with the read part of its buffer dropped. -/
def compact (p : StreamArchiveParser) : StreamArchiveParser :=
  { p with
    buffer := p.unread
    consumed := 0
    consumed_le := Nat.zero_le _ }

theorem available_eq (p : StreamArchiveParser) : p.available = p.unread.length :=
  List.length_drop.symm

theorem peek_eq (p : StreamArchiveParser) (n : ℕ) :
    p.peek n = if p.unread.length < n then none else some (p.unread.take n) := by
  rw [peek, available_eq]
  rfl

variable {n : ℕ}

theorem peek_of_le (h : n ≤ p.available) : p.peek n = some (p.unread.take n) := by
  rw [available_eq] at h
  rw [peek_eq, if_neg (Nat.not_lt.mpr h)]

theorem peek_of_lt (h : p.available < n) : p.peek n = none := by
  rw [available_eq] at h
  rw [peek_eq, if_pos h]

theorem compact_ext (hopt : p.options = q.options) (hkey : p.keyProvider = q.keyProvider)
    (hstate : p.state = q.state) (hunread : p.unread = q.unread) (hfin : p.finalized = q.finalized)
    (hoff : p.absoluteOffset = q.absoluteOffset) (harch : p.archive = q.archive)
    (hpend : p.pendingEntry = q.pendingEntry) : p.compact = q.compact := by
  simp only [compact, hopt, hkey, hstate, hunread, hfin, hoff, harch, hpend]

theorem unread_skip (h : n ≤ p.available) : (p.skip n h).unread = p.unread.drop n := by
  simp only [unread, skip, List.drop_drop]

theorem compact_drainBuffer (p : StreamArchiveParser) : p.drainBuffer.compact = p.compact := by
  unfold drainBuffer
  split
  · simp only [compact, unread, List.drop_zero]
  · rfl

/-- The parser after `n` bytes were read. -/
def advance (p : StreamArchiveParser) (n : ℕ) (h : n ≤ p.available) : StreamArchiveParser :=
  { p.skip n h with absoluteOffset := p.absoluteOffset + n }.drainBuffer

/-- The compact form after `n` bytes were read. -/
theorem compact_advance (h : n ≤ p.available) :
    (p.advance n h).compact =
      { p with
        buffer := p.unread.drop n
        consumed := 0
        consumed_le := Nat.zero_le _
        absoluteOffset := p.absoluteOffset + n } := by
  rw [advance, compact_drainBuffer]
  simp only [compact, unread, skip, List.drop_drop]

section Advance

variable {n : ℕ} (h : n ≤ p.available)

@[simp] theorem unread_advance : (p.advance n h).unread = p.unread.drop n :=
  show (p.advance n h).compact.buffer = _ by rw [compact_advance]

@[simp] theorem available_advance : (p.advance n h).available = p.available - n := by
  rw [available_eq, available_eq, unread_advance, List.length_drop]

@[simp] theorem options_advance : (p.advance n h).options = p.options :=
  show (p.advance n h).compact.options = _ by rw [compact_advance]

@[simp] theorem keyProvider_advance : (p.advance n h).keyProvider = p.keyProvider :=
  show (p.advance n h).compact.keyProvider = _ by rw [compact_advance]

@[simp] theorem state_advance : (p.advance n h).state = p.state :=
  show (p.advance n h).compact.state = _ by rw [compact_advance]

@[simp] theorem finalized_advance : (p.advance n h).finalized = p.finalized :=
  show (p.advance n h).compact.finalized = _ by rw [compact_advance]

@[simp] theorem absoluteOffset_advance :
    (p.advance n h).absoluteOffset = p.absoluteOffset + n :=
  show (p.advance n h).compact.absoluteOffset = _ by rw [compact_advance]

@[simp] theorem archive_advance : (p.advance n h).archive = p.archive :=
  show (p.advance n h).compact.archive = _ by rw [compact_advance]

@[simp] theorem pendingEntry_advance : (p.advance n h).pendingEntry = p.pendingEntry :=
  show (p.advance n h).compact.pendingEntry = _ by rw [compact_advance]

end Advance

/-- `consume`, for bytes that are there and an offset that does not overflow. -/
theorem consume_of_le (h : n ≤ p.available) (hoff : p.absoluteOffset + n ≤ u64Max) :
    consume n p = (.ok (), p.advance n h) := by
  have hoff' : ¬ (p.skip n h).absoluteOffset + n > u64Max := Nat.not_lt.mpr hoff
  rw [consume, dif_pos h]
  exact if_neg hoff'

theorem consume_of_overflow (h : n ≤ p.available) (hoff : p.absoluteOffset + n > u64Max) :
    consume n p = (.error (.overflow "stream absolute offset"), p.skip n h) := by
  have hoff' : (p.skip n h).absoluteOffset + n > u64Max := hoff
  rw [consume, dif_pos h]
  exact if_pos hoff'

theorem consume_eq_ok_iff {u : Unit} {s : StreamArchiveParser} :
    consume n p = (.ok u, s) ↔
      ∃ h : n ≤ p.available, p.absoluteOffset + n ≤ u64Max ∧ s = p.advance n h := by
  constructor
  · intro hc
    by_cases hn : n ≤ p.available
    · by_cases hoff : p.absoluteOffset + n > u64Max
      · rw [consume_of_overflow hn hoff] at hc
        cases hc
      · rw [consume_of_le hn (Nat.not_lt.mp hoff)] at hc
        exact ⟨hn, Nat.not_lt.mp hoff, (Prod.mk.inj hc).2.symm⟩
    · rw [consume, dif_neg hn] at hc
      cases hc
  · rintro ⟨hn, hoff, rfl⟩
    exact consume_of_le hn hoff

/-! ### The length of a Global Header -/

theorem checkedFlagsSize_eq_ok_iff {limits : ResourceLimits} {fixed : Bytes} {n : ℕ} :
    checkedFlagsSize limits fixed = .ok n ↔
      fixed.take 4 = magic ∧ 4 ≤ n ∧ n ≤ limits.maxGlobalFlagsBytes ∧
        n = headerFlagsSize fixed := by
  simp only [checkedFlagsSize, Except.bind_eq_ok_iff, Except.exists_unit,
    Except.rejectIf_eq_ok_iff, ResourceLimits.checkGlobalFlagsBytes,
    ResourceLimits.atMost_eq_ok_iff, Except.pure_eq_ok, Except.ok.injEq, ne_eq, not_not, not_lt]
  constructor
  · rintro ⟨hmagic, hmin, hmax, rfl⟩
    exact ⟨hmagic, hmin, hmax, rfl⟩
  · rintro ⟨hmagic, hmin, hmax, rfl⟩
    exact ⟨hmagic, hmin, hmax, rfl⟩

/-- The flags whose bytes start at offset eight. -/
def announcedFlags (p : StreamArchiveParser) (n : ℕ) : GlobalFlags :=
  flagsOfBytes ((p.unread.take (8 + n)).drop 8)

theorem requiredWithFlags_of_le (hn : 8 + n ≤ p.available) :
    p.requiredWithFlags n =
      if (p.announcedFlags n).encrypted &&
          kmsPrefixStart n (p.announcedFlags n) + 5 ≤ p.available then do
        let payloadLen := leNat (((p.unread.take (kmsPrefixStart n (p.announcedFlags n) + 5)).drop
          (kmsPrefixStart n (p.announcedFlags n) + 1)).take 4)
        p.options.limits.checkKmsPayloadBytes payloadLen
        pure (kmsPrefixStart n (p.announcedFlags n) + 5 + payloadLen)
      else pure (kmsPrefixStart n (p.announcedFlags n)) := by
  simp only [requiredWithFlags, peek_of_le hn, okOr_some, Except.ok_bind]
  change (if (p.announcedFlags n).encrypted &&
    decide (kmsPrefixStart n (p.announcedFlags n) + 5 ≤ p.available) then _ else _) = _
  by_cases hkms : kmsPrefixStart n (p.announcedFlags n) + 5 ≤ p.available
  · rw [peek_of_le (n := kmsPrefixStart n (flagsOfBytes ((p.unread.take (8 + n)).drop 8)) + 5) hkms]
    rfl
  · simp only [hkms, decide_false, Bool.and_false, Bool.false_eq_true, if_false]
    rfl

/-! ### What each phase does -/

/-- A parser that is not finalized waits for missing bytes. -/
theorem awaitBytes_of_not_finalized (hfin : p.finalized = false) (n : ℕ) (msg : String) :
    awaitBytes n msg p = (.ok (.needMore (some n)), p) := by
  simp only [awaitBytes, bind_apply, current_apply, andThen_ok, hfin]
  rfl

theorem awaitBytes_of_finalized (hfin : p.finalized = true) (n : ℕ) (msg : String) :
    awaitBytes n msg p = (.error (.truncated msg), { p with state := .error }) := by
  rw [awaitBytes, current_bind, if_pos hfin]
  rfl

section Equations

variable (backend : Backend)

theorem step_of_needPayload (hstate : p.state = .needPayload) :
    step backend p = stepNeedPayload backend p := by
  simp only [step, bind_apply, current_apply, andThen_ok, hstate]

theorem step_of_needLocalFileHeader (hstate : p.state = .needLocalFileHeader) :
    step backend p = stepNeedLocalFileHeader backend p := by
  simp only [step, bind_apply, current_apply, andThen_ok, hstate]

theorem step_of_entryReady (hstate : p.state = .entryReady) :
    step backend p = stepNeedLocalFileHeader backend { p with state := .needLocalFileHeader } := by
  simp only [step, bind_apply, current_apply, andThen_ok, hstate, update_apply]

theorem step_of_needGlobalHeader (hstate : p.state = .needGlobalHeader) :
    step backend p = stepNeedGlobalHeader p := by
  simp only [step, bind_apply, current_apply, andThen_ok, hstate]

theorem step_of_transformingEntry (hstate : p.state = .transformingEntry) :
    step backend p = stepTransformingEntry backend p := by
  simp only [step, bind_apply, current_apply, andThen_ok, hstate]

theorem step_of_archiveComplete (hstate : p.state = .archiveComplete) :
    step backend p = stepArchiveComplete p := by
  simp only [step, bind_apply, current_apply, andThen_ok, hstate]

theorem step_of_needCentralDictionaryOrFooter (hstate : p.state = .needCentralDictionaryOrFooter) :
    step backend p = (.error (.unsupported
      "forward-only stream parser currently supports NO_INDEX archives only"),
      { p with state := .error }) := by
  simp only [step, bind_apply, current_apply, andThen_ok, hstate]
  rfl

theorem step_of_error (hstate : p.state = .error) :
    step backend p = (.error (.streamState "stream parser is in terminal error state"), p) := by
  simp only [step, bind_apply, current_apply, andThen_ok, hstate, fail_apply]

variable {e : SarError}

theorem stepNeedPayload_error (h : p.pendingPayload = .error e) :
    stepNeedPayload backend p = (.error e, p) := by
  simp only [stepNeedPayload, bind_apply, current_apply, andThen_ok, lift_apply, h, andThen_error]

theorem stepNeedPayload_wait {pending : PendingEntry} {len : ℕ}
    (h : p.pendingPayload = .ok (pending, len)) (hlt : p.available < len) :
    stepNeedPayload backend p = awaitBytes len "incomplete payload at end of stream" p := by
  simp only [stepNeedPayload, bind_apply, current_apply, andThen_ok, lift_apply, h, if_pos hlt]

/-- The entry with its payload, about to be decoded. -/
def withPayload (pending : PendingEntry) (payload : Bytes) (p : StreamArchiveParser) :
    StreamArchiveParser :=
  { p with
    pendingEntry := some { pending with encodedPayload := some payload }
    state := .transformingEntry }

theorem stepNeedPayload_read {pending : PendingEntry} {len : ℕ}
    (h : p.pendingPayload = .ok (pending, len)) (hle : len ≤ p.available) :
    stepNeedPayload backend p = andThen (consume len p) fun _ => (do
      update (withPayload pending (p.unread.take len))
      stepTransformingEntry backend) := by
  simp only [stepNeedPayload, bind_apply, current_apply, andThen_ok, lift_apply, h,
    if_neg (Nat.not_lt.mpr hle), peek_of_le hle, okOr_some]
  rfl

variable {archive : ActiveArchive}

theorem stepArchiveComplete_of_some (h : p.archive = some archive) :
    stepArchiveComplete p =
      (.ok (.ready (.archiveComplete
        ⟨archive.entryCount, archive.header.flags, !archive.header.flags.noIndex⟩)),
        { p with archive := none, pendingEntry := none, state := .needGlobalHeader }) := by
  simp only [stepArchiveComplete, bind_apply, current_apply, andThen_ok, lift_apply, h,
    okOr_some, update_apply, pure_apply]

theorem stepArchiveComplete_of_none (h : p.archive = none) :
    stepArchiveComplete p = (.error (.internal "stream parser missing archive summary"), p) := by
  simp only [stepArchiveComplete, bind_apply, current_apply, andThen_ok, lift_apply, h,
    okOr_none, andThen_error]

section ReadLfh

variable {flags : GlobalFlags} {n : ℕ} (hle : n ≤ p.available)
include hle

theorem stepReadLfh_parse_error {e : SarError}
    (h : parseLfh (p.unread.take n) flags p.options.limits = .error e) :
    stepReadLfh backend flags n p = (.error e, p) := by
  simp only [stepReadLfh, bind_apply, current_apply, andThen_ok, lift_apply, peek_of_le hle,
    okOr_some, h, andThen_error]

theorem stepReadLfh_length_error {lfh : LocalFileHeader} {read : ℕ}
    (h : parseLfh (p.unread.take n) flags p.options.limits = .ok (lfh, read)) (hread : read ≠ n) :
    stepReadLfh backend flags n p =
      (.error (.invalidLength "LFH parser consumed unexpected length"),
        { p with state := .error }) := by
  simp only [stepReadLfh, bind_apply, current_apply, andThen_ok, lift_apply, peek_of_le hle,
    okOr_some, h, if_pos hread]
  rfl

/-- The entry without its payload. -/
def withPending (lfh : LocalFileHeader) (lfhBytes : Bytes) (p : StreamArchiveParser) :
    StreamArchiveParser :=
  { p with
    pendingEntry := some ⟨lfh, lfhBytes, p.absoluteOffset, none⟩
    state := .needPayload }

theorem stepReadLfh_read {lfh : LocalFileHeader}
    (h : parseLfh (p.unread.take n) flags p.options.limits = .ok (lfh, n)) :
    stepReadLfh backend flags n p = andThen (consume n p) fun _ => (do
      let _ ← lift (p.options.limits.allocationLen lfh.payloadSize.toNat "payload length usize")
      update (withPending lfh (p.unread.take n))
      stepNeedPayload backend) := by
  simp only [stepReadLfh, bind_apply, current_apply, andThen_ok, lift_apply, peek_of_le hle,
    okOr_some, h, ne_eq, not_true_eq_false, if_false]
  rfl

end ReadLfh

theorem stepLfhSize_limit_error {flags : GlobalFlags} {bytes : Bytes}
    (h : p.options.limits.checkLfhHeaderBytes (leNat bytes) = .error e) :
    stepLfhSize backend flags bytes p = (.error e, p) := by
  simp only [stepLfhSize, bind_apply, current_apply, andThen_ok, lift_apply, h, andThen_error]

theorem stepLfhSize_ok {flags : GlobalFlags} {bytes : Bytes}
    (h : p.options.limits.checkLfhHeaderBytes (leNat bytes) = .ok ()) :
    stepLfhSize backend flags bytes p =
      if leNat bytes < 4 then
        (.error (.invalidLength "LFH Header Size smaller than fixed prefix"),
          { p with state := .error })
      else if p.available < leNat bytes then
        awaitBytes (leNat bytes) "incomplete LFH at end of stream" p
      else stepReadLfh backend flags (leNat bytes) p := by
  simp only [stepLfhSize, bind_apply, current_apply, andThen_ok, lift_apply, h]
  split
  · rfl
  split
  · rfl
  · rfl

theorem stepNeedLocalFileHeader_of_none (h : p.archive = none) :
    stepNeedLocalFileHeader backend p =
      (.error (.internal "stream parser missing active archive"), p) := by
  simp only [stepNeedLocalFileHeader, bind_apply, current_apply, andThen_ok, lift_apply, h,
    okOr_none, andThen_error]

/-- The archive is over: emit its summary. -/
def finishArchive (p : StreamArchiveParser) : Except SarError StreamStep × StreamArchiveParser :=
  stepArchiveComplete { p with state := .archiveComplete }

theorem finishArchive_of_some (h : p.archive = some archive) :
    p.finishArchive =
      (.ok (.ready (.archiveComplete
        ⟨archive.entryCount, archive.header.flags, !archive.header.flags.noIndex⟩)),
        { p with archive := none, pendingEntry := none, state := .needGlobalHeader }) :=
  stepArchiveComplete_of_some (p := { p with state := .archiveComplete }) h

theorem stepNeedLocalFileHeader_of_some (h : p.archive = some archive) :
    stepNeedLocalFileHeader backend p =
      if p.available = 0 then
        if p.finalized then p.finishArchive else (.ok (.needMore (some 4)), p)
      else if 4 ≤ p.available then
        if p.unread.take 4 = magic then p.finishArchive
        else stepLfhSize backend archive.header.flags (p.unread.take 4) p
      else awaitBytes 4 "incomplete LFH prefix at end of stream" p := by
  simp only [stepNeedLocalFileHeader, bind_apply, current_apply, andThen_ok, lift_apply, h,
    okOr_some]
  by_cases hzero : p.available = 0
  · rw [if_pos hzero, if_pos hzero]
    split <;> rfl
  · rw [if_neg hzero, if_neg hzero]
    by_cases hfour : 4 ≤ p.available
    · rw [if_pos hfour, if_pos hfour, peek_of_le hfour, bind_apply, lift_apply, okOr_some,
        andThen_ok]
      split <;> rfl
    · rw [if_neg hfour, if_neg hfour]

section ReadGlobalHeader

variable {n : ℕ} (hle : n ≤ p.available)
include hle

theorem stepReadGlobalHeader_parse_error {e : SarError}
    (h : parseGlobalHeader (p.unread.take n) p.options.limits = .error e) :
    stepReadGlobalHeader n p = (.error e, p) := by
  simp only [stepReadGlobalHeader, bind_apply, current_apply, andThen_ok, lift_apply,
    peek_of_le hle, okOr_some, h, andThen_error]

theorem stepReadGlobalHeader_length_error {header : GlobalHeader} {read : ℕ}
    (h : parseGlobalHeader (p.unread.take n) p.options.limits = .ok (header, read))
    (hread : read ≠ n) :
    stepReadGlobalHeader n p =
      (.error (.invalidLength "global header parser consumed unexpected length"),
        { p with state := .error }) := by
  simp only [stepReadGlobalHeader, bind_apply, current_apply, andThen_ok, lift_apply,
    peek_of_le hle, okOr_some, h, if_pos hread]
  rfl

/-- The parser once a Global Header was accepted. -/
def withArchive (header : GlobalHeader) (p : StreamArchiveParser) : StreamArchiveParser :=
  { p with
    archive := some ⟨header, globalHeaderFlagsBytes header, 0⟩
    state := if header.flags.noIndex then .needLocalFileHeader else .needCentralDictionaryOrFooter }

theorem stepReadGlobalHeader_read {header : GlobalHeader}
    (h : parseGlobalHeader (p.unread.take n) p.options.limits = .ok (header, n)) :
    stepReadGlobalHeader n p = andThen (checkKmsContext header, p) fun _ => (do
      consume n
      update (withArchive header)
      pure (.ready (.globalHeader header))) := by
  simp only [stepReadGlobalHeader, bind_apply, current_apply, andThen_ok, lift_apply,
    peek_of_le hle, okOr_some, h, ne_eq, not_true_eq_false, if_false]
  rfl

end ReadGlobalHeader

/-- At the end of the input with nothing left, the parser is done. -/
theorem stepNeedGlobalHeader_of_end (hend : (p.finalized && p.available == 0) = true) :
    stepNeedGlobalHeader p = (.ok .complete, p) := by
  simp only [stepNeedGlobalHeader, bind_apply, current_apply, andThen_ok, hend, if_true, pure_apply]

theorem stepNeedGlobalHeader_error (hfin : (p.finalized && p.available == 0) = false)
    (h : p.requiredGlobalHeaderBytes = .error e) : stepNeedGlobalHeader p = (.error e, p) := by
  simp only [stepNeedGlobalHeader, bind_apply, current_apply, andThen_ok, hfin,
    Bool.false_eq_true, if_false, lift_apply, h, andThen_error]

theorem stepNeedGlobalHeader_none (hfin : (p.finalized && p.available == 0) = false)
    (h : p.requiredGlobalHeaderBytes = .ok none) :
    stepNeedGlobalHeader p = awaitBytes 8 "incomplete global header at end of stream" p := by
  simp only [stepNeedGlobalHeader, bind_apply, current_apply, andThen_ok, hfin,
    Bool.false_eq_true, if_false, lift_apply, h]

theorem stepNeedGlobalHeader_some {n : ℕ} (hfin : (p.finalized && p.available == 0) = false)
    (h : p.requiredGlobalHeaderBytes = .ok (some n)) :
    stepNeedGlobalHeader p =
      if p.available < n then awaitBytes n "incomplete global header at end of stream" p
      else stepReadGlobalHeader n p := by
  simp only [stepNeedGlobalHeader, bind_apply, current_apply, andThen_ok, hfin,
    Bool.false_eq_true, if_false, lift_apply, h]
  split <;> rfl

end Equations

/-! ### The decoder -/

/-- The decoder reads the options and the key provider of the parser, and nothing else. -/
theorem decodeParts_congr (backend : Backend) (hopt : p.options = q.options)
    (hkey : p.keyProvider = q.keyProvider) (archive : ActiveArchive) (lfh : LocalFileHeader)
    (lfhBytes payload : Bytes) (offset : ℕ) :
    decodeParts backend p archive lfh lfhBytes payload offset =
      decodeParts backend q archive lfh lfhBytes payload offset := by
  simp only [decodeParts, hopt, hkey]

end StreamArchiveParser

end Sar
