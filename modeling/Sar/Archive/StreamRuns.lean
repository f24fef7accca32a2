import Sar.Archive.StreamResume

/-!
# Runs of the stream parser

All that one step can come to is said once (`Outcome`), with what it costs and where it leaves the
parser; the facts about events, errors and the bytes taken in are read off from it. Every event
is paid for with unread bytes or with a change of phase (`progress_machine`), so a client's loop
over the parser as a resumable machine returns.
-/

namespace Sar

open Except (rejectIf liftError okOr)
open Stateful LittleEndian Resumable List

namespace StreamArchiveParser

variable {p q : StreamArchiveParser} (backend : Backend)

variable {s : StreamArchiveParser}

/-- What a successful decoding went through. -/
theorem decodePendingEntry_eq_ok_iff {entry : EntryReader} :
    decodePendingEntry backend p = (.ok entry, s) ↔
      ∃ archive pending payload, p.archive = some archive ∧ p.pendingEntry = some pending ∧
        pending.encodedPayload = some payload ∧
        decodeParts backend p archive pending.lfh pending.lfhBytes payload
          pending.payloadOffset = .ok entry ∧
        archive.entryCount + 1 ≤ u64Max ∧
        s = { p with
          pendingEntry := none
          archive := some { archive with entryCount := archive.entryCount + 1 } } := by
  simp only [decodePendingEntry, bind_apply, current_apply, andThen_ok, andThen_eq_ok_iff,
    lift_eq_ok_iff, Except.okOr_eq_ok_iff, update_apply, pure_apply, Except.rejectIf_eq_ok_iff,
    not_lt, gt_iff_lt, Prod.mk.injEq, Except.ok.injEq]
  constructor
  · rintro ⟨archive, _, ⟨harch, rfl⟩, pending, _, ⟨hpend, rfl⟩, payload, _, ⟨hpay, rfl⟩, entry', _,
      ⟨hdec, rfl⟩, _, _, ⟨hcount, rfl⟩, rfl, rfl⟩
    exact ⟨archive, pending, payload, harch, hpend, hpay, hdec, hcount, rfl⟩
  · rintro ⟨archive, pending, payload, harch, hpend, hpay, hdec, hcount, rfl⟩
    exact ⟨archive, _, ⟨harch, rfl⟩, pending, _, ⟨hpend, rfl⟩, payload, _, ⟨hpay, rfl⟩, entry, _,
      ⟨hdec, rfl⟩, (), _, ⟨hcount, rfl⟩, rfl, rfl⟩

theorem stepTransformingEntry_eq_ok_iff {r : StreamStep} :
    stepTransformingEntry backend p = (.ok r, s) ↔
      ∃ entry t, decodePendingEntry backend p = (.ok entry, t) ∧ r = .ready (.entry entry) ∧
        s = { t with state := .entryReady } := by
  simp only [stepTransformingEntry, bind_apply, andThen_eq_ok_iff, update_apply, andThen_ok,
    pure_apply, Prod.mk.injEq, Except.ok.injEq, eq_comm (a := r), eq_comm (a := s)]

variable {e : StreamEvent} {n : ℕ}

/-! ### The length of a Global Header -/

theorem headerFlagsSize_take (u : Bytes) : headerFlagsSize (u.take 8) = headerFlagsSize u := by
  simp only [headerFlagsSize, drop_take, take_take, Nat.reduceSub, min_self]

theorem announcedFlags_eq (p : StreamArchiveParser) :
    p.announcedFlags (headerFlagsSize p.unread) = headerFlags p.unread := by
  rw [announcedFlags, drop_take, Nat.add_sub_cancel_left]
  rfl

/-- For a header that is there, the length asked for is its length. -/
theorem requiredGlobalHeaderBytes_of_parse {header : GlobalHeader}
    (h : parseGlobalHeader p.unread p.options.limits = .ok (header, n)) :
    p.requiredGlobalHeaderBytes = .ok (some n) := by
  have hshape := parseGlobalHeader_shape h
  have hthere := hshape.flags_there
  have h8 : 8 ≤ p.available := by
    rw [available_eq]
    omega
  have hflags : 8 + headerFlagsSize p.unread ≤ p.available := by rwa [available_eq]
  have htake : (p.unread.take 8).take 4 = magic := by
    rw [take_take]
    exact hshape.magic_eq
  have hchecked : checkedFlagsSize p.options.limits (p.unread.take 8) =
      .ok (headerFlagsSize p.unread) :=
    checkedFlagsSize_eq_ok_iff.mpr ⟨htake, hshape.flagsSize_ge, hshape.flagsSize_le,
      (headerFlagsSize_take _).symm⟩
  simp only [requiredGlobalHeaderBytes, peek_of_le h8, hchecked, Except.ok_bind, if_pos hflags]
  rw [requiredWithFlags_of_le hflags, announcedFlags_eq, ← hshape.flags_eq]
  have hlen := hshape.length_eq
  have hle := hshape.length_le
  rw [← available_eq] at hle
  set start := kmsPrefixStart (headerFlagsSize p.unread) header.flags
  by_cases henc : header.flags.encrypted = true
  · rw [if_pos henc, kmsLength] at hlen
    have hkms : start + 5 ≤ p.available := by omega
    have hfield : ((p.unread.take (start + 5)).drop (start + 1)).take 4 =
        (p.unread.drop (start + 1)).take 4 := by
      rw [drop_take, take_take]
      congr 1
      omega
    have hlimit : p.options.limits.checkKmsPayloadBytes
        (leNat ((p.unread.drop (start + 1)).take 4)) = .ok () :=
      ResourceLimits.atMost_of_le _ (hshape.kms_le henc)
    simp only [henc, hkms, decide_true, Bool.and_self, if_true, hfield, hlimit, Except.ok_bind,
      Except.pure_eq_ok]
    rw [hlen, ← Nat.add_assoc]
    rfl
  · rw [if_neg henc] at hlen
    simp only [henc, Bool.false_and, Bool.false_eq_true, if_false, Except.pure_eq_ok]
    rw [hlen]
    rfl

/-! ### What a step comes to -/

/-- The phases, by how many events can follow without reading a byte. -/
def phaseRank : StreamParseState → ℕ
  | .needGlobalHeader | .needCentralDictionaryOrFooter | .error => 0
  | .needLocalFileHeader | .entryReady | .archiveComplete => 1
  | .needPayload | .transformingEntry => 2

/-- The number of bytes pushed so far, the settings, and whether the input has ended. -/
def intake (p : StreamArchiveParser) : ℕ × ArchiveReaderOptions × Option KeyProvider × Bool :=
  (p.absoluteOffset + p.available, p.options, p.keyProvider, p.finalized)

theorem intake_advance (h : n ≤ p.available) : (p.advance n h).intake = p.intake := by
  rw [intake, absoluteOffset_advance, available_advance, options_advance, keyProvider_advance,
    finalized_advance, intake]
  congr 1
  omega

/-- A Local File Header is there whose payload length is over the limit. -/
def payloadOverLimit (p : StreamArchiveParser) : Bool :=
  (p.state = .needLocalFileHeader || p.state = .entryReady) && p.unread.take 4 != magic &&
    match p.archive with
    | none => false
    | some archive =>
      match parseLfh (p.unread.take (leNat (p.unread.take 4))) archive.header.flags
        p.options.limits with
      | .error _ => false
      | .ok (lfh, _) =>
        !(p.options.limits.allocationLen lfh.payloadSize.toNat "payload length usize").isOk

/-- The entry that was to be decoded is gone. -/
def Lost (p : StreamArchiveParser) : Prop :=
  p.state = .transformingEntry ∧ (p.archive = none ∨ p.pendingEntry = none)

/-- The phase that `EntryReady` stands for. -/
def settle (p : StreamArchiveParser) : StreamArchiveParser :=
  if p.state = .entryReady then { p with state := .needLocalFileHeader } else p

/-- The entry was decoded in the parser's archive, with the parser's options. -/
def Decodes (p : StreamArchiveParser) (entry : EntryReader) : Prop :=
  ∃ archive p' lfh lfhBytes payload off, p.archive = some archive ∧ p'.options = p.options ∧
    decodeParts backend p' archive lfh lfhBytes payload off = .ok entry

/-- Where an error leaves the parser: in the state `Error`, without its entry, or with nothing
changed, unless the offset overflowed or a payload length was over the limit. -/
inductive Failed (p s : StreamArchiveParser) : Prop
  | error : s.state = .error → Failed p s
  | lost : Lost s → Failed p s
  | refused : s = p.settle → (phaseRank p.state = 2 → ∃ e, p.pendingPayload = .error e) →
      Failed p s
  | overflow : u64Max < p.absoluteOffset + p.available → Failed p s
  | overLimit : p.payloadOverLimit = true → Failed p s

/-- What one step comes to. -/
inductive Outcome (p : StreamArchiveParser) :
    Except SarError StreamStep × StreamArchiveParser → Prop
  | complete : p.state = .needGlobalHeader → p.finalized = true → p.available = 0 →
      Outcome p (.ok .complete, p)
  | wait {needed : Option ℕ} {s : StreamArchiveParser} :
      p.finalized = false → s.intake = p.intake → s.archive = p.archive →
        (s.state = .needGlobalHeader ∨ p.state = .needGlobalHeader → s = p) →
        Outcome p (.ok (.needMore needed), s)
  | header {header : GlobalHeader} {n : ℕ} (hle : n ≤ p.available) :
      p.state = .needGlobalHeader → p.absoluteOffset + n ≤ u64Max →
        parseGlobalHeader (p.unread.take n) p.options.limits = .ok (header, n) →
        checkKmsContext header = .ok () →
        Outcome p (.ok (.ready (.globalHeader header)), (p.advance n hle).withArchive header)
  | entry {entry : EntryReader} {s : StreamArchiveParser} :
      p.Decodes backend entry → s.intake = p.intake → s.state = .entryReady →
        phaseRank p.state ≠ 0 → 2 * s.available + 1 < 2 * p.available + phaseRank p.state →
        Outcome p (.ok (.ready (.entry entry)), s)
  | summary {summary : StreamArchiveSummary} :
      p.archive ≠ none → phaseRank p.state = 1 →
        Outcome p (.ok (.ready (.archiveComplete summary)),
          { p with archive := none, pendingEntry := none, state := .needGlobalHeader })
  | failed {e : SarError} {s : StreamArchiveParser} :
      s.archive = p.archive → Failed p s → Outcome p (.error e, s)

variable {backend}

/-- The outcome of a later phase of the same step. -/
theorem Outcome.of_later {x : Except SarError StreamStep × StreamArchiveParser}
    (h : Outcome backend q x) (hintake : q.intake = p.intake) (harch : q.archive = p.archive)
    (hrank : phaseRank q.state = 2) (hpos : phaseRank p.state ≠ 0)
    (hless : 2 * q.available + 2 ≤ 2 * p.available + phaseRank p.state)
    {r : PendingEntry × ℕ} (hpay : q.pendingPayload = .ok r) : Outcome backend p x := by
  have hne : ∀ state, phaseRank state ≠ 2 → q.state ≠ state :=
    fun state hstate heq => hstate (heq ▸ hrank)
  obtain ⟨htotal, hopt, -, hfin⟩ : _ ∧ _ ∧ _ ∧ _ := by
    simpa only [intake, Prod.mk.injEq] using hintake
  cases h with
  | complete hstate => exact absurd hstate (hne _ (by decide))
  | wait hlive hs hsarch hstate =>
    refine .wait (hfin ▸ hlive) (hs.trans hintake) (hsarch.trans harch) ?_
    rintro (hs | hp)
    · exact absurd (hstate (.inl hs) ▸ hs) (hne _ (by decide))
    · exact absurd (congrArg phaseRank hp) hpos
  | header _ hstate => exact absurd hstate (hne _ (by decide))
  | entry hdec hs hstate _ hlt =>
    rw [Decodes, harch, hopt] at hdec
    exact .entry hdec (hs.trans hintake) hstate hpos (by omega)
  | summary _ hone => exact absurd (hone.symm.trans hrank) (by decide)
  | failed hsarch hfail =>
    refine .failed (hsarch.trans harch) ?_
    cases hfail with
    | error hstate => exact .error hstate
    | lost hlost => exact .lost hlost
    | refused _ hbad =>
      obtain ⟨e, he⟩ := hbad hrank
      cases hpay.symm.trans he
    | overflow hover => exact .overflow (htotal ▸ hover)
    | overLimit hover =>
      have hstate : q.state = .needLocalFileHeader ∨ q.state = .entryReady := by
        simp only [payloadOverLimit, Bool.and_eq_true, Bool.or_eq_true, decide_eq_true_iff] at hover
        exact hover.1.1
      rcases hstate with hstate | hstate <;> exact absurd hstate (hne _ (by decide))

variable (backend)

theorem outcome_awaitBytes {msg : String} (hintake : q.intake = p.intake)
    (harch : q.archive = p.archive)
    (hstate : q.state = .needGlobalHeader ∨ p.state = .needGlobalHeader → q = p) :
    Outcome backend p (awaitBytes n msg q) := by
  rcases hfin : q.finalized with _ | _
  · rw [awaitBytes_of_not_finalized hfin]
    exact .wait ((congrArg (·.2.2.2) hintake).symm.trans hfin) hintake harch hstate
  · rw [awaitBytes_of_finalized hfin]
    exact .failed harch (.error rfl)

theorem outcome_consume {f : StreamM StreamStep} (hle : n ≤ p.available)
    (h : p.absoluteOffset + n ≤ u64Max → Outcome backend p (f (p.advance n hle))) :
    Outcome backend p (andThen (consume n p) fun _ => f) := by
  by_cases hover : p.absoluteOffset + n > u64Max
  · rw [consume_of_overflow hle hover]
    exact .failed rfl (.overflow (by omega))
  · rw [consume_of_le hle (Nat.not_lt.mp hover)]
    exact h (Nat.not_lt.mp hover)

theorem stepTransformingEntry_eq_error {e : SarError}
    (h : stepTransformingEntry backend p = (.error e, s)) :
    s.state = p.state ∧ s.archive = p.archive ∧ (s.archive = none ∨ s.pendingEntry = none) := by
  have hdec : decodePendingEntry backend p = (.error e, s) := by
    rcases andThen_eq_error_iff.mp h with hdec | ⟨_, _, -, hrest⟩
    · exact hdec
    · cases hrest
  simp only [decodePendingEntry, bind_apply, current_apply, andThen_ok, andThen_eq_error_iff,
    lift_eq_error_iff, lift_eq_ok_iff, update_apply, pure_apply, Except.okOr_eq_error_iff,
    Except.okOr_eq_ok_iff] at hdec
  rcases hdec with ⟨⟨harch, -⟩, rfl⟩ | ⟨archive, _, ⟨-, rfl⟩, ⟨⟨hpend, -⟩, rfl⟩ |
    ⟨pending, _, ⟨-, rfl⟩, ⟨-, rfl⟩ | ⟨_, _, ⟨-, rfl⟩, ⟨-, rfl⟩ | ⟨_, _, ⟨-, rfl⟩, hrest⟩⟩⟩⟩
  · exact ⟨rfl, rfl, .inl harch⟩
  · exact ⟨rfl, rfl, .inr hpend⟩
  -- from here on the entry has been taken out
  · exact ⟨rfl, rfl, .inr rfl⟩
  · exact ⟨rfl, rfl, .inr rfl⟩
  · rcases hrest with ⟨-, rfl⟩ | ⟨_, _, -, hrest⟩
    · exact ⟨rfl, rfl, .inr rfl⟩
    · cases hrest

theorem outcome_stepTransformingEntry (hstate : p.state = .transformingEntry) :
    Outcome backend p (stepTransformingEntry backend p) := by
  rcases hstep : stepTransformingEntry backend p with ⟨e | r, s⟩
  · obtain ⟨hs, harch, hgone⟩ := stepTransformingEntry_eq_error backend hstep
    exact .failed harch (.lost ⟨hs.trans hstate, hgone⟩)
  · obtain ⟨entry, t, hdec, rfl, rfl⟩ := (stepTransformingEntry_eq_ok_iff backend).mp hstep
    obtain ⟨archive, pending, payload, harch, -, -, hparts, -, rfl⟩ :=
      (decodePendingEntry_eq_ok_iff backend).mp hdec
    refine .entry ⟨archive, p, _, _, payload, _, harch, rfl, hparts⟩ rfl rfl ?_ ?_ <;> rw [hstate]
    · decide
    · exact Nat.lt_succ_self _

theorem outcome_stepNeedPayload (hstate : p.state = .needPayload) :
    Outcome backend p (stepNeedPayload backend p) := by
  rcases hres : p.pendingPayload with e | ⟨pending, len⟩
  · rw [stepNeedPayload_error backend hres]
    exact .failed rfl (.refused (if_neg (by simp [hstate])).symm fun _ => ⟨e, hres⟩)
  by_cases hlen : p.available < len
  · rw [stepNeedPayload_wait backend hres hlen]
    exact outcome_awaitBytes backend rfl rfl fun _ => rfl
  · have hle := Nat.not_lt.mp hlen
    rw [stepNeedPayload_read backend hres hle]
    refine outcome_consume backend hle fun _ => ?_
    have hpay : ((p.advance len hle).withPayload pending (p.unread.take len)).pendingPayload =
        .ok ({ pending with encodedPayload := some (p.unread.take len) }, len) := by
      refine pendingPayload_eq_ok_iff.mpr ⟨rfl, ?_⟩
      change (p.advance len hle).options.limits.allocationLen _ _ = _
      rw [options_advance]
      exact (pendingPayload_eq_ok_iff.mp hres).2
    refine (outcome_stepTransformingEntry backend rfl).of_later (intake_advance hle)
      (archive_advance hle) rfl (by simp [hstate, phaseRank]) ?_ hpay
    change 2 * (p.advance len hle).available + 2 ≤ 2 * p.available + phaseRank p.state
    rw [available_advance, hstate]
    change _ ≤ _ + 2
    omega

theorem outcome_stepReadLfh {flags : GlobalFlags} (hstate : p.state = .needLocalFileHeader)
    (hfour : 4 ≤ n) (hle : n ≤ p.available)
    (hlimit : ∀ lfh e, parseLfh (p.unread.take n) flags p.options.limits = .ok (lfh, n) →
      p.options.limits.allocationLen lfh.payloadSize.toNat "payload length usize" = .error e →
        p.payloadOverLimit = true) :
    Outcome backend p (stepReadLfh backend flags n p) := by
  rcases hres : parseLfh (p.unread.take n) flags p.options.limits with e | ⟨lfh, read⟩
  · rw [stepReadLfh_parse_error backend hle hres]
    exact .failed rfl (.refused (if_neg (by simp [hstate])).symm (by simp [hstate, phaseRank]))
  by_cases hread : read = n
  · rw [hread] at hres
    rw [stepReadLfh_read backend hle hres]
    refine outcome_consume backend hle fun _ => ?_
    rw [bind_apply, lift_apply]
    rcases hlen : p.options.limits.allocationLen lfh.payloadSize.toNat "payload length usize" with
      e | len
    · exact .failed (archive_advance hle) (.overLimit (hlimit lfh e hres hlen))
    -- the length of the payload is checked again, with the same result
    have hpay : ((p.advance n hle).withPending lfh (p.unread.take n)).pendingPayload =
        .ok (⟨lfh, p.unread.take n, (p.advance n hle).absoluteOffset, none⟩, len) := by
      refine pendingPayload_eq_ok_iff.mpr ⟨rfl, ?_⟩
      change (p.advance n hle).options.limits.allocationLen _ _ = _
      rw [options_advance]
      exact hlen
    refine (outcome_stepNeedPayload backend rfl).of_later (intake_advance hle)
      (archive_advance hle) rfl (by simp [hstate, phaseRank]) ?_ hpay
    change 2 * (p.advance n hle).available + 2 ≤ _
    rw [available_advance]
    omega
  · rw [stepReadLfh_length_error backend hle hres hread]
    exact .failed rfl (.error rfl)

theorem outcome_stepNeedLocalFileHeader (hstate : p.state = .needLocalFileHeader) :
    Outcome backend p (stepNeedLocalFileHeader backend p) := by
  have hsettle : p = p.settle := (if_neg (by simp [hstate])).symm
  have hrank : phaseRank p.state = 1 := by rw [hstate]; rfl
  have hrefused : ∀ e, Outcome backend p (.error e, p) := fun e =>
    .failed rfl (.refused hsettle fun htwo => absurd (hrank.symm.trans htwo) (by decide))
  have hawait : ∀ n msg, Outcome backend p (awaitBytes n msg p) := fun n msg =>
    outcome_awaitBytes backend rfl rfl fun _ => rfl
  rcases harch : p.archive with _ | archive
  · rw [stepNeedLocalFileHeader_of_none backend harch]
    exact hrefused _
  rw [stepNeedLocalFileHeader_of_some backend harch, finishArchive_of_some harch]
  have hne : p.archive ≠ none := by simp [harch]
  by_cases hzero : p.available = 0
  · rw [if_pos hzero]
    split
    · exact .summary hne hrank
    · next hfin => exact .wait (by simpa using hfin) rfl rfl fun _ => rfl
  rw [if_neg hzero]
  by_cases hfour : 4 ≤ p.available
  · rw [if_pos hfour]
    by_cases hmagic : p.unread.take 4 = magic
    · rw [if_pos hmagic]
      exact .summary hne hrank
    rw [if_neg hmagic]
    rcases hcheck : p.options.limits.checkLfhHeaderBytes (leNat (p.unread.take 4)) with e | _
    · rw [stepLfhSize_limit_error backend hcheck]
      exact hrefused _
    rw [stepLfhSize_ok backend hcheck]
    by_cases hsmall : leNat (p.unread.take 4) < 4
    · rw [if_pos hsmall]
      exact .failed rfl (.error rfl)
    rw [if_neg hsmall]
    by_cases hlen : p.available < leNat (p.unread.take 4)
    · rw [if_pos hlen]
      exact hawait _ _
    rw [if_neg hlen]
    refine outcome_stepReadLfh backend hstate (Nat.not_lt.mp hsmall) (Nat.not_lt.mp hlen) ?_
    intro lfh e hparse hover
    simp [payloadOverLimit, hstate, harch, hparse, hover, hmagic, Except.isOk, Except.toBool]
  · rw [if_neg hfour]
    exact hawait _ _

theorem outcome_stepNeedGlobalHeader (hstate : p.state = .needGlobalHeader) :
    Outcome backend p (stepNeedGlobalHeader p) := by
  have hsettle : p = p.settle := (if_neg (by simp [hstate])).symm
  have hrefused : ∀ e, Outcome backend p (.error e, p) := fun e =>
    .failed rfl (.refused hsettle (by simp [hstate, phaseRank]))
  have hawait : ∀ n msg, Outcome backend p (awaitBytes n msg p) := fun n msg =>
    outcome_awaitBytes backend rfl rfl fun _ => rfl
  by_cases hend : (p.finalized && p.available == 0) = true
  · rw [stepNeedGlobalHeader_of_end hend]
    obtain ⟨hfin, hzero⟩ := Bool.and_eq_true_iff.mp hend
    exact .complete hstate hfin (by simpa using hzero)
  have hfin : (p.finalized && p.available == 0) = false := by simpa using hend
  rcases hreq : p.requiredGlobalHeaderBytes with e | _ | n
  · rw [stepNeedGlobalHeader_error hfin hreq]
    exact hrefused e
  · rw [stepNeedGlobalHeader_none hfin hreq]
    exact hawait _ _
  rw [stepNeedGlobalHeader_some hfin hreq]
  by_cases hlen : p.available < n
  · rw [if_pos hlen]
    exact hawait _ _
  have hle := Nat.not_lt.mp hlen
  rw [if_neg hlen]
  rcases hres : parseGlobalHeader (p.unread.take n) p.options.limits with e | ⟨header, read⟩
  · rw [stepReadGlobalHeader_parse_error hle hres]
    exact hrefused e
  by_cases hread : read = n
  · rw [hread] at hres
    rw [stepReadGlobalHeader_read hle hres]
    rcases hkms : checkKmsContext header with e | _
    · exact hrefused e
    exact outcome_consume backend hle fun hoff => .header hle hstate hoff hres hkms
  · rw [stepReadGlobalHeader_length_error hle hres hread]
    exact .failed rfl (.error rfl)

/-- A step in the phase `EntryReady` is one in the phase that it stands for. -/
theorem Outcome.of_settle {x : Except SarError StreamStep × StreamArchiveParser}
    (hstate : p.state = .entryReady)
    (h : Outcome backend { p with state := .needLocalFileHeader } x) : Outcome backend p x := by
  have hrank : phaseRank p.state = 1 := by rw [hstate]; rfl
  cases h with
  | complete hneed => cases hneed
  | wait hfin hs harch hneed =>
    refine .wait hfin hs harch ?_
    rintro (hs | hp)
    · cases hneed (.inl hs) ▸ hs
    · cases hstate.symm.trans hp
  | header _ hneed => cases hneed
  | entry hdec hs hs' _ hlt =>
    exact .entry hdec hs hs' (by simp [hrank]) (by rw [hrank]; exact hlt)
  | summary harch _ => exact .summary harch hrank
  | failed harch hfail =>
    refine .failed harch ?_
    cases hfail with
    | error herr => exact .error herr
    | lost hlost => exact .lost hlost
    | refused hs _ => exact .refused (hs.trans (if_pos hstate).symm) (by simp [hrank])
    | overflow hover => exact .overflow hover
    | overLimit hover =>
      refine .overLimit (Eq.trans ?_ hover)
      simp only [payloadOverLimit, hstate]
      rfl

/-- All that a step can come to. -/
theorem outcome_step (p : StreamArchiveParser) : Outcome backend p (step backend p) := by
  rcases hstate : p.state with _ | _ | _ | _ | _ | _ | _ | _
  · rw [step_of_needGlobalHeader backend hstate]
    exact outcome_stepNeedGlobalHeader backend hstate
  · rw [step_of_needLocalFileHeader backend hstate]
    exact outcome_stepNeedLocalFileHeader backend hstate
  · rw [step_of_needPayload backend hstate]
    exact outcome_stepNeedPayload backend hstate
  · rw [step_of_transformingEntry backend hstate]
    exact outcome_stepTransformingEntry backend hstate
  · rw [step_of_entryReady backend hstate]
    exact (outcome_stepNeedLocalFileHeader backend rfl).of_settle backend hstate
  · rw [step_of_needCentralDictionaryOrFooter backend hstate]
    exact .failed rfl (.error rfl)
  · rw [step_of_archiveComplete backend hstate]
    rcases harch : p.archive with _ | archive
    · rw [stepArchiveComplete_of_none harch]
      exact .failed rfl (.refused (if_neg (by simp [hstate])).symm (by simp [hstate, phaseRank]))
    · rw [stepArchiveComplete_of_some harch]
      exact .summary (by simp [harch]) (by rw [hstate]; rfl)
  · rw [step_of_error backend hstate]
    exact .failed rfl (.error hstate)

/-- A Global Header is accepted exactly when the bytes that are there start with one. -/
theorem step_header_iff (hstate : p.state = .needGlobalHeader) :
    step backend p = (.ok (.ready e), s) ↔
      ∃ header n, parseGlobalHeader p.unread p.options.limits = .ok (header, n) ∧
        checkKmsContext header = .ok () ∧ p.absoluteOffset + n ≤ u64Max ∧
        e = .globalHeader header ∧
        ∃ h : n ≤ p.available, s = (p.advance n h).withArchive header := by
  constructor
  · intro h
    have hout := outcome_step backend p
    have hrank : phaseRank p.state = 0 := by rw [hstate]; rfl
    rw [h] at hout
    cases hout with
    | @header _ n hle _ hoff hparse hkms =>
      have hwhole := runParser_append_of_ok (incremental_globalHeader _) hparse (p.unread.drop n)
      rw [take_append_drop] at hwhole
      exact ⟨_, _, hwhole, hkms, hoff, rfl, hle, rfl⟩
    | entry _ _ _ hpos => exact absurd hrank hpos
    | summary _ hone => exact absurd (hrank.symm.trans hone) (by decide)
  · rintro ⟨header, n, hparse, hkms, hoff, rfl, hle, rfl⟩
    have hpart : parseGlobalHeader (p.unread.take n) p.options.limits = .ok (header, n) := by
      refine runParser_of_append (incremental_globalHeader _) (z := p.unread.drop n) ?_ ?_
      · rw [take_append_drop]
        exact hparse
      · rw [length_take, ← available_eq]
        omega
    have hreq := requiredGlobalHeaderBytes_of_parse hparse
    have hend : (p.finalized && p.available == 0) = false := by
      refine Bool.eq_false_iff.mpr fun hend => ?_
      have hzero : p.available = 0 := by simpa using (Bool.and_eq_true_iff.mp hend).2
      cases (requiredGlobalHeaderBytes_of_lt (by omega)).symm.trans hreq
    rw [step_of_needGlobalHeader backend hstate, stepNeedGlobalHeader_some hend hreq,
      if_neg (Nat.not_lt.mpr hle), stepReadGlobalHeader_read hle hpart, hkms, andThen_ok,
      bind_apply, consume_of_le hle hoff]
    rfl

/-- A successful step neither loses nor invents bytes. -/
theorem step_intake {r : StreamStep} (h : step backend p = (.ok r, s)) : s.intake = p.intake := by
  have hout := outcome_step backend p
  rw [h] at hout
  cases hout with
  | complete => rfl
  | wait _ hs => exact hs
  | header hle => exact intake_advance hle
  | entry _ hs => exact hs
  | summary => rfl

/-! ### The machine -/

/-- The result of a step, for a client that does not look at errors or hints. -/
def moveOf : Except SarError StreamStep → Move StreamEvent
  | .ok (.ready e) => .ready e
  | .ok (.needMore _) => .stop .wait
  | .ok .complete => .stop .done
  | .error _ => .stop .failed

/-- The parser as a resumable machine. -/
def machine : Machine StreamArchiveParser UInt8 StreamEvent where
  step p := (moveOf (step backend p).1, (step backend p).2)
  more := more
  rank p := 2 * p.available + phaseRank p.state

theorem machine_step_ready_iff :
    (machine backend).step p = (.ready e, s) ↔ step backend p = (.ok (.ready e), s) := by
  rcases hstep : step backend p with ⟨_ | _ | e' | _, t⟩ <;>
    simp [machine, hstep, moveOf]

theorem machine_step_wait_iff :
    (machine backend).step p = (.stop .wait, s) ↔
      ∃ n, step backend p = (.ok (.needMore n), s) := by
  rcases hstep : step backend p with ⟨_ | _ | _ | _, t⟩ <;>
    simp [machine, hstep, moveOf]

theorem machine_step_done_iff :
    (machine backend).step p = (.stop .done, s) ↔ step backend p = (.ok .complete, s) := by
  rcases hstep : step backend p with ⟨_ | _ | _ | _, t⟩ <;>
    simp [machine, hstep, moveOf]

theorem machine_step_failed_iff :
    (machine backend).step p = (.stop .failed, s) ↔ ∃ e, step backend p = (.error e, s) := by
  rcases hstep : step backend p with ⟨_ | _ | _ | _, t⟩ <;>
    simp [machine, hstep, moveOf]

/-- Every event is paid for with unread bytes or with a phase. -/
theorem progress_machine : (machine backend).Progress := by
  intro p s e h
  rw [machine_step_ready_iff] at h
  change 2 * s.available + phaseRank s.state < 2 * p.available + phaseRank p.state
  have hout := outcome_step backend p
  rw [h] at hout
  cases hout with
  | @header header n hle hstate _ hparse _ =>
    have hshape := parseGlobalHeader_shape hparse
    have hn : 12 ≤ n := by
      have := hshape.flagsSize_ge
      have hlen := hshape.length_eq
      rw [kmsPrefixStart] at hlen
      split at hlen <;> omega
    have hrank : phaseRank ((p.advance n hle).withArchive header).state ≤ 1 := by
      change phaseRank (if header.flags.noIndex then _ else _) ≤ 1
      split <;> decide
    have havail : ((p.advance n hle).withArchive header).available = p.available - n :=
      available_advance hle
    rw [havail]
    omega
  | entry _ _ hstate _ hlt =>
    rw [hstate]
    exact hlt
  | summary _ hrank =>
    rw [hrank]
    exact Nat.lt_succ_self _

/-! ### Outside an archive -/

section Outside

/-- No archive is open. -/
def Outside (p : StreamArchiveParser) : Prop := p.archive = none

theorem preserves_outside_pushBytes (chunk : Bytes) : Preserves Outside (pushBytes chunk) := by
  refine Preserves.current_bind fun _ _ => Preserves.bind (Preserves.lift _) fun _ =>
    Preserves.bind (Preserves.lift _) fun _ => Preserves.update ?_
  exact fun _ h => h

/-- Only a Global Header opens an archive. -/
theorem outside_step {r : Result StreamStep} (hp : p.Outside) (h : step backend p = (r, q)) :
    q.Outside ∨ ∃ header, r = .ok (.ready (.globalHeader header)) := by
  have hout := outcome_step backend p
  rw [h] at hout
  cases hout with
  | complete => exact .inl hp
  | wait _ _ harch => exact .inl (harch.trans hp)
  | header => exact .inr ⟨_, rfl⟩
  | entry hdec =>
    obtain ⟨archive, _, _, _, _, _, harch, -⟩ := hdec
    cases harch.symm.trans hp
  | summary => exact .inl rfl
  | failed harch => exact .inl (harch.trans hp)

/-- An entry that is reported was decoded. -/
theorem decodes_of_step {entry : EntryReader}
    (h : step backend p = (.ok (.ready (.entry entry)), q)) : p.Decodes backend entry := by
  have hout := outcome_step backend p
  rw [h] at hout
  cases hout with
  | entry hdec => exact hdec

/-- An entry is reported inside an archive only. -/
theorem not_outside_of_step_entry {entry : EntryReader}
    (h : step backend p = (.ok (.ready (.entry entry)), q)) : ¬ p.Outside := by
  obtain ⟨archive, _, _, _, _, _, harch, -⟩ := decodes_of_step backend h
  intro hp
  exact nomatch harch.symm.trans hp

end Outside

end StreamArchiveParser

end Sar
