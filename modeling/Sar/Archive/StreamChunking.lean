import Sar.Archive.StreamRuns

/-!
# Cutting a stream into chunks

A client pushes chunks, steps until the parser waits, and finally declares the end of the
input. The events and the ending depend on the bytes only, not on how they were cut, unless a
step is taken inside the key-management window of a Global Header that would be accepted.
-/

namespace Sar

open Except (rejectIf liftError okOr)
open Stateful LittleEndian Resumable List

namespace StreamArchiveParser

variable {p q : StreamArchiveParser} (backend : Backend) {c bytes : Bytes}

/-! ### The client -/

/-- How a run ends. -/
inductive StreamEnd where
  /-- `step` returned `Complete`. -/
  | complete
  /-- `step` returned an error. -/
  | failed
  /-- `push_bytes` returned an error. -/
  | pushRejected
  deriving DecidableEq

/-- The ending, for a machine that does not wait any more. -/
def endOf : Stop → StreamEnd
  | .done => .complete
  | .wait | .failed => .failed

theorem endOf_eq_complete_iff {why : Stop} : endOf why = .complete ↔ why = .done := by
  cases why <;> simp [endOf]

/-- Push the chunks one by one and step until the parser waits, then declare the end of the
input and step to the end: the events, and how the run ended. -/
def runChunks : StreamArchiveParser → List Bytes → Option (List StreamEvent × StreamEnd)
  | p, [] => ((machine backend).drain p.finalizeInput).map fun r => (r.1, endOf r.2.1)
  | p, chunk :: chunks =>
    match pushBytes chunk p with
    | (.error _, _) => some ([], .pushRejected)
    | (.ok _, p) =>
      match (machine backend).drain p with
      | none => none
      | some (events, .wait, q) => (runChunks q chunks).map fun r => (events ++ r.1, r.2)
      | some (events, why, _) => some (events, endOf why)

/-- The calls of `step` that such a run makes before the end of the input is declared, each with
the bytes that are pushed after it. -/
def stepCalls : StreamArchiveParser → List Bytes → List (StreamArchiveParser × Bytes)
  | _, [] => []
  | p, chunk :: chunks =>
    match pushBytes chunk p with
    | (.error _, _) => []
    | (.ok _, p) =>
      ((machine backend).calls p).map (fun s => (s, chunks.flatten)) ++
        match (machine backend).drain p with
        | some (_, .wait, q) => stepCalls q chunks
        | _ => []

/-- The bytes start with a Global Header that the parser accepts. -/
def headerAccepted (limits : ResourceLimits) (bytes : Bytes) : Bool :=
  match parseGlobalHeader bytes limits with
  | .ok (header, _) => (checkKmsContext header).isOk
  | .error _ => false

/-- A step is taken inside the key-management window of a Global Header that the parser would
accept once the bytes still to come are there. -/
def cutsHeader (call : StreamArchiveParser × Bytes) : Bool :=
  call.1.kmsWindow && headerAccepted call.1.options.limits (call.1.unread ++ call.2)

/-! ### What the client controls -/

theorem Reaches.intake {backend : Backend} {ok : StreamArchiveParser → Prop}
    {es : List StreamEvent} (h : Reaches (machine backend) ok p es q) : q.intake = p.intake := by
  induction h with
  | refl => rfl
  | ready _ hstep _ ih =>
    exact ih.trans (step_intake backend ((machine_step_ready_iff backend).mp hstep))

theorem Drains.intake {backend : Backend} {ok : StreamArchiveParser → Prop} {es : List StreamEvent}
    (h : Drains (machine backend) ok p es .wait q) : q.intake = p.intake := by
  generalize hw : Stop.wait = w at h
  induction h with
  | stop _ hstep =>
    subst hw
    obtain ⟨n, hn⟩ := (machine_step_wait_iff backend).mp hstep
    exact step_intake backend hn
  | ready _ hstep _ ih =>
    exact (ih hw).trans (step_intake backend ((machine_step_ready_iff backend).mp hstep))

/-- A parser that can take more bytes: it has not been told that the input ended, and the total
stays within the limits. -/
structure Accepts (p : StreamArchiveParser) (bytes : Bytes) : Prop where
  finalized : p.finalized = false
  total_le : p.absoluteOffset + p.available + bytes.length ≤ u64Max
  size_ok : p.options.limits.checkArchiveSize
    (p.absoluteOffset + p.available + bytes.length) = .ok ()

theorem Accepts.congr (h : p.Accepts bytes) (hq : q.intake = p.intake) : q.Accepts bytes := by
  obtain ⟨htotal, hopt, -, hfin⟩ : _ ∧ _ ∧ _ ∧ _ := by simpa only [intake, Prod.mk.injEq] using hq
  refine ⟨hfin.trans h.finalized, htotal ▸ h.total_le, ?_⟩
  rw [htotal, hopt]
  exact h.size_ok

theorem Accepts.more (h : p.Accepts (c ++ bytes)) : (p.more c false).Accepts bytes := by
  have hav : (p.more c false).available = p.available + c.length := by
    rw [available_eq, available_eq, unread_more, length_append]
  have hlen : (p.more c false).absoluteOffset + (p.more c false).available + bytes.length =
      p.absoluteOffset + p.available + (c ++ bytes).length := by
    rw [hav, length_append]
    change p.absoluteOffset + _ + _ = _
    omega
  refine ⟨?_, hlen ▸ h.total_le, hlen ▸ h.size_ok⟩
  change (p.finalized || false) = false
  rw [h.finalized]
  rfl

theorem pushBytes_eq_ok_iff {u : Unit} :
    pushBytes c p = (.ok u, q) ↔
      p.absoluteOffset + p.available + c.length ≤ u64Max ∧
        p.options.limits.checkArchiveSize (p.absoluteOffset + p.available + c.length) = .ok () ∧
        q = p.more c false := by
  have hmore : p.more c false = p.append c := by
    simp only [StreamArchiveParser.more, Bool.or_false]
    rfl
  simp only [StreamArchiveParser.pushBytes, bind_apply, current_apply, andThen_ok,
    andThen_eq_ok_iff, lift_eq_ok_iff, update_apply, Except.rejectIf_eq_ok_iff, Prod.mk.injEq,
    hmore]
  constructor
  · rintro ⟨_, _, ⟨htotal, rfl⟩, _, _, ⟨hsize, rfl⟩, -, rfl⟩
    exact ⟨Nat.not_lt.mp htotal, hsize, rfl⟩
  · rintro ⟨htotal, hsize, rfl⟩
    exact ⟨(), p, ⟨Nat.not_lt.mpr htotal, rfl⟩, (), p, ⟨hsize, rfl⟩, trivial, rfl⟩

theorem Accepts.mono (h : p.Accepts bytes) (hle : c.length ≤ bytes.length) : p.Accepts c := by
  have htotal := h.total_le
  have hsize := h.size_ok
  refine ⟨h.finalized, by omega, ?_⟩
  simp only [ResourceLimits.checkArchiveSize, Except.rejectIf_eq_ok_iff] at hsize ⊢
  omega

/-- Pushing a part of what the parser can take succeeds. -/
theorem Accepts.pushBytes (h : p.Accepts (c ++ bytes)) :
    pushBytes c p = (.ok (), p.more c false) := by
  have hpart := h.mono (c := c) (by rw [length_append]; omega)
  exact pushBytes_eq_ok_iff.mpr ⟨hpart.total_le, hpart.size_ok, rfl⟩

theorem accepts_of_pushBytes (hfin : p.finalized = false)
    (h : (StreamArchiveParser.pushBytes bytes p).1 = .ok ()) : p.Accepts bytes := by
  obtain ⟨htotal, hsize, -⟩ := pushBytes_eq_ok_iff.mp (Prod.ext h rfl)
  exact ⟨hfin, htotal, hsize⟩

/-! ### Inside the window -/

theorem kmsWindow_eq_true (h : p.kmsWindow = true) :
    let n := headerFlagsSize p.unread
    p.state = .needGlobalHeader ∧ 8 + n ≤ p.available ∧
      (p.announcedFlags n).encrypted = true ∧
      kmsPrefixStart n (p.announcedFlags n) ≤ p.available ∧
      p.available < kmsPrefixStart n (p.announcedFlags n) + 5 := by
  rw [kmsWindow, Bool.and_eq_true, decide_eq_true_iff] at h
  obtain ⟨hstate, h⟩ := h
  rcases Nat.lt_or_ge p.available 8 with h8 | h8
  · rw [peek_of_lt h8] at h
    cases h
  simp only [peek_of_le h8, headerFlagsSize_take] at h
  rcases Nat.lt_or_ge p.available (8 + headerFlagsSize p.unread) with hn | hn
  · simp only [peek_of_lt hn, Bool.false_eq_true] at h
  simp only [peek_of_le hn, Bool.and_eq_true, decide_eq_true_iff] at h
  obtain ⟨⟨henc, hge⟩, hlt⟩ := h
  exact ⟨hstate, hn, henc, hge, hlt⟩

/-- Inside the window the parser takes a part of the header for all of it, and fails. -/
theorem step_of_kmsWindow (h : p.kmsWindow = true) : ∃ e, step backend p = (.error e, p) := by
  obtain ⟨hstate, hn, henc, hge, hlt⟩ := kmsWindow_eq_true h
  have hzero : (p.finalized && p.available == 0) = false := by
    rw [Bool.and_eq_false_iff]
    exact .inr (beq_false_of_ne (by omega))
  rw [step_of_needGlobalHeader backend hstate]
  set n := headerFlagsSize p.unread with hdef
  have h8 : 8 ≤ p.available := by omega
  rcases hfixed : checkedFlagsSize p.options.limits (p.unread.take 8) with e | k
  · have hreq : p.requiredGlobalHeaderBytes = .error e := by
      simp only [requiredGlobalHeaderBytes, peek_of_le h8, hfixed, Except.error_bind]
    exact ⟨e, stepNeedGlobalHeader_error hzero hreq⟩
  obtain ⟨-, -, -, hk⟩ := checkedFlagsSize_eq_ok_iff.mp hfixed
  rw [headerFlagsSize_take, ← hdef] at hk
  rw [hk] at hfixed
  have hreq : p.requiredGlobalHeaderBytes = .ok (some (kmsPrefixStart n (p.announcedFlags n))) := by
    have hlt' : ¬ kmsPrefixStart n (p.announcedFlags n) + 5 ≤ p.available := Nat.not_le.mpr hlt
    simp only [requiredGlobalHeaderBytes, peek_of_le h8, hfixed, Except.ok_bind, if_pos hn,
      requiredWithFlags_of_le hn, hlt', decide_false, Bool.and_false, Bool.false_eq_true, if_false]
    rfl
  rw [stepNeedGlobalHeader_some hzero hreq, if_neg (Nat.not_lt.mpr hge)]
  -- the part that is read cannot be a header: its key-management payload is not there
  rcases hparse : parseGlobalHeader (p.unread.take (kmsPrefixStart n (p.announcedFlags n)))
    p.options.limits with e | ⟨header, read⟩
  · exact ⟨e, stepReadGlobalHeader_parse_error hge hparse⟩
  · have hwhole := runParser_append_of_ok (incremental_globalHeader _) hparse
      (p.unread.drop (kmsPrefixStart n (p.announcedFlags n)))
    rw [take_append_drop] at hwhole
    have hshape := parseGlobalHeader_shape hwhole
    have hflags : p.announcedFlags n = header.flags := by
      rw [hshape.flags_eq, hdef]
      exact announcedFlags_eq p
    have hlen := hshape.length_eq
    have hle := hshape.length_le
    rw [← hflags, if_pos henc, kmsLength, ← hdef] at hlen
    rw [← available_eq] at hle
    omega

theorem headerAccepted_iff {limits : ResourceLimits} :
    headerAccepted limits bytes = true ↔
      ∃ header n, parseGlobalHeader bytes limits = .ok (header, n) ∧
        checkKmsContext header = .ok () := by
  rw [headerAccepted]
  rcases hparse : parseGlobalHeader bytes limits with e | ⟨header, n⟩
  · simp
  · rcases hkms : checkKmsContext header with e | ⟨⟩ <;> simp [hkms, Except.isOk, Except.toBool]

/-- A parser that expects a Global Header emits an event exactly when it has one. -/
theorem step_ready_iff_headerAccepted (hstate : p.state = .needGlobalHeader)
    (htotal : p.absoluteOffset + p.available ≤ u64Max) :
    (∃ e s, step backend p = (.ok (.ready e), s)) ↔
      headerAccepted p.options.limits p.unread = true := by
  simp only [step_header_iff backend hstate, headerAccepted_iff]
  constructor
  · rintro ⟨e, s, header, n, hparse, hkms, -⟩
    exact ⟨header, n, hparse, hkms⟩
  · rintro ⟨header, n, hparse, hkms⟩
    have hle := (parseGlobalHeader_shape hparse).length_le
    rw [← available_eq] at hle
    exact ⟨_, _, header, n, hparse, hkms, by omega, rfl, hle, rfl⟩

/-! ### The laws of the machine -/

/-- The states at which stepping before the end of the input is harmless. -/
def Early (p : StreamArchiveParser) : Prop := p.finalized = false ∧ p.kmsWindow = false

theorem compact_more_congr (v : Bytes) (b : Bool) (h : p.compact = q.compact) :
    (p.more v b).compact = (q.more v b).compact := by
  have hmore : ∀ r : StreamArchiveParser, (r.more v b).compact = (r.compact.more v b).compact :=
    fun r => compact_ext rfl rfl rfl (by rw [unread_more, unread_more]; rfl) rfl rfl rfl rfl
  rw [hmore p, hmore q, h]

theorem compact_more_more (v w : Bytes) (b : Bool) (p : StreamArchiveParser) :
    ((p.more v false).more w b).compact = (p.more (v ++ w) b).compact := by
  refine compact_ext rfl rfl rfl ?_ ?_ rfl rfl rfl
  · rw [unread_more, unread_more, unread_more, append_assoc]
  · change ((p.finalized || false) || b) = (p.finalized || b)
    rw [Bool.or_false]

/-- One step, on what has arrived and on what the client has after more arrived. -/
theorem Early.follows (h : p.Early) (v : Bytes) (b : Bool) :
    Follows backend v b 0 (step backend p) (step backend (p.more v b)) :=
  follows_step backend (grown_more v b p) (fun hfin => absurd (hfin.symm.trans h.1) (by decide))
    fun _ => h.2

/-- Outside the window, early steps of the parser are harmless. -/
theorem lawful_machine : Lawful (machine backend) compact Early where
  step_congr h := by
    obtain ⟨hres, hstate⟩ := step_congr backend h
    exact ⟨congrArg moveOf hres, hstate⟩
  more_congr := compact_more_congr
  more_more := compact_more_more
  ready v b hok hstep := by
    rw [machine_step_ready_iff] at hstep
    have hf := hok.follows backend v b
    rw [hstep] at hf
    generalize hy : step backend _ = y at hf
    cases hf with
    | ready hgrown =>
      rw [StreamEvent.shift_zero] at hy
      exact ⟨(congrArg (moveOf ∘ Prod.fst) hy :),
        (congrArg (compact ∘ Prod.snd) hy :).trans (grown_zero_iff.mp hgrown)⟩
  wait v b hok hstep := by
    obtain ⟨n, hstep⟩ := (machine_step_wait_iff backend).mp hstep
    have hf := hok.follows backend v b
    rw [hstep] at hf
    generalize hy : step backend _ = y at hf
    cases hf with
    | wait hgrown _ =>
      obtain ⟨hres, hstate⟩ := step_congr backend (grown_zero_iff.mp hgrown)
      rw [← hy] at hres hstate
      exact ⟨congrArg moveOf hres, hstate⟩
  halt v b hok hstep hwhy := by
    have hf := hok.follows backend v b
    change moveOf (step backend _).1 = _
    obtain ⟨hmove, -⟩ := Prod.mk.inj hstep
    generalize hx : step backend _ = x at hf hmove
    generalize hy : step backend _ = y at hf
    cases hf with
    | ready _ => cases hmove
    | wait _ _ => exact absurd (Move.stop.inj hmove).symm hwhy
    | complete | error => exact (congrArg (fun r => moveOf r.1) hy).trans hmove

/-! ### The client computes the relations -/

theorem more_nil_true (p : StreamArchiveParser) : p.more [] true = p.finalizeInput := by
  simp only [more, append, append_nil, Bool.or_true]
  rfl

section Client

variable {backend} {ok : StreamArchiveParser → Prop} {chunks : List Bytes}
  {es : List StreamEvent} {why : Stop}

section

variable (hacc : p.Accepts (c :: chunks).flatten)
include hacc

theorem runChunks_cons_wait (hd : Drains (machine backend) ok (p.more c false) es .wait q) :
    runChunks backend p (c :: chunks) =
      (runChunks backend q chunks).map fun r => (es ++ r.1, r.2) := by
  rw [flatten_cons] at hacc
  simp only [runChunks, hacc.pushBytes, hd.drain_eq (progress_machine backend)]

theorem runChunks_cons_halt (hd : Drains (machine backend) ok (p.more c false) es why q)
    (hwhy : why ≠ .wait) : runChunks backend p (c :: chunks) = some (es, endOf why) := by
  rw [flatten_cons] at hacc
  cases why with
  | wait => exact absurd rfl hwhy
  | done | failed => simp only [runChunks, hacc.pushBytes, hd.drain_eq (progress_machine backend)]

theorem stepCalls_cons_wait (hd : Drains (machine backend) ok (p.more c false) es .wait q) :
    stepCalls backend p (c :: chunks) =
      ((machine backend).calls (p.more c false)).map (fun s => (s, chunks.flatten)) ++
        stepCalls backend q chunks := by
  rw [flatten_cons] at hacc
  simp only [stepCalls, hacc.pushBytes, hd.drain_eq (progress_machine backend)]

theorem stepCalls_cons_halt (hd : Drains (machine backend) ok (p.more c false) es why q)
    (hwhy : why ≠ .wait) :
    stepCalls backend p (c :: chunks) =
      ((machine backend).calls (p.more c false)).map (fun s => (s, chunks.flatten)) := by
  rw [flatten_cons] at hacc
  simp only [stepCalls, hacc.pushBytes, hd.drain_eq (progress_machine backend)]
  cases why with
  | wait => exact absurd rfl hwhy
  | done | failed => exact append_nil _

/-- What is left to push stays acceptable when a chunk ends in a wait. -/
theorem Accepts.next (hd : Drains (machine backend) ok (p.more c false) es .wait q) :
    q.Accepts chunks.flatten := by
  rw [flatten_cons] at hacc
  exact hacc.more.congr (Drains.intake hd)

end

theorem Feeds.runChunks_eq (h : Feeds (machine backend) ok p chunks es why)
    (hacc : p.Accepts chunks.flatten) : runChunks backend p chunks = some (es, endOf why) := by
  induction h with
  | last hd =>
    change Drains _ _ (StreamArchiveParser.more [] true _) _ _ _ at hd
    rw [more_nil_true] at hd
    rw [runChunks, hd.drain_eq (progress_machine backend)]
    rfl
  | resume hd _ ih =>
    rw [runChunks_cons_wait hacc hd, ih (hacc.next hd)]
    rfl
  | halt hd hwhy => exact runChunks_cons_halt hacc hd hwhy

theorem Feeds.stepCalls_ok (h : Feeds (machine backend) ok p chunks es why)
    (hacc : p.Accepts chunks.flatten) : ∀ call ∈ stepCalls backend p chunks, ok call.1 := by
  induction h with
  | last => exact fun _ h => nomatch h
  | resume hd _ ih =>
    intro call hmem
    rw [stepCalls_cons_wait hacc hd, mem_append, mem_map] at hmem
    rcases hmem with ⟨s, hs, rfl⟩ | hmem
    · exact hd.calls_ok (progress_machine backend) (Nat.lt_succ_self _) s hs
    · exact ih (hacc.next hd) call hmem
  | halt hd hwhy =>
    intro call hmem
    rw [stepCalls_cons_halt hacc hd hwhy, mem_map] at hmem
    obtain ⟨s, hs, rfl⟩ := hmem
    exact hd.calls_ok (progress_machine backend) (Nat.lt_succ_self _) s hs

/-- The first step of a run that is not early. -/
structure Halted (backend : Backend) (p : StreamArchiveParser) (chunks : List Bytes)
    (es : List StreamEvent) (s : StreamArchiveParser) (rest : Bytes) : Prop where
  window : s.kmsWindow = true
  accepts : s.Accepts rest
  run_eq : runChunks backend p chunks = some (es, .failed)
  mem_calls : (s, rest) ∈ stepCalls backend p chunks
  calls_early : ∀ call ∈ stepCalls backend p chunks, call.1.kmsWindow = true → call = (s, rest)

theorem Stuck.halted {s : StreamArchiveParser} {rest : Bytes}
    (h : Stuck (machine backend) Early p chunks es s rest) (hacc : p.Accepts chunks.flatten) :
    Halted backend p chunks es s rest := by
  induction h with
  | @here p s c cs es hr hs =>
    have hacc' := hacc
    rw [flatten_cons] at hacc'
    have hacc_s : s.Accepts cs.flatten := hacc'.more.congr (Reaches.intake hr)
    have hwindow : s.kmsWindow = true := by
      by_contra hne
      exact hs ⟨hacc_s.finalized, by simpa using hne⟩
    obtain ⟨e, hstep⟩ := step_of_kmsWindow backend hwindow
    have hfail := (machine_step_failed_iff backend).mpr ⟨e, hstep⟩
    have hd : Drains (machine backend) (fun _ => True) (p.more c false) es .failed s := by
      have := Reaches.drains hr (.stop trivial hfail)
      rwa [append_nil] at this
    obtain ⟨hmem, hall⟩ := hr.mem_calls (progress_machine backend) hfail (Nat.lt_succ_self _)
    have hcalls := stepCalls_cons_halt hacc hd (by decide)
    refine ⟨hwindow, hacc_s, runChunks_cons_halt hacc hd (by decide), ?_, ?_⟩
    · rw [hcalls]
      exact mem_map.mpr ⟨s, hmem, rfl⟩
    · intro call hmem' hw
      rw [hcalls] at hmem'
      obtain ⟨x, hx, rfl⟩ := mem_map.mp hmem'
      rcases hall x hx with hearly | rfl
      · exact absurd hw (by simp [hearly.2])
      · rfl
  | @later p q s c cs es es' rest hd _ ih =>
    obtain ⟨hwindow, hacc_s, hrun, hmem, hearly⟩ := ih (hacc.next hd)
    have hcalls := stepCalls_cons_wait hacc hd
    refine ⟨hwindow, hacc_s, ?_, ?_, ?_⟩
    · rw [runChunks_cons_wait hacc hd, hrun]
      rfl
    · rw [hcalls]
      exact mem_append_right _ hmem
    · intro call hmem' hw
      rw [hcalls, mem_append, mem_map] at hmem'
      rcases hmem' with ⟨x, hx, rfl⟩ | hmem'
      · have := hd.calls_ok (progress_machine backend) (Nat.lt_succ_self _) x hx
        exact absurd hw (by simp [this.2])
      · exact hearly call hmem' hw

/-! ### One chunk -/

theorem Accepts.flatten_singleton (hacc : p.Accepts chunks.flatten) :
    p.Accepts [chunks.flatten].flatten := by
  rwa [List.flatten_singleton]

section Rejected

variable (backend)

/-- With all bytes there at the end of the input, a header that is not accepted is an error. -/
theorem finalized_step_failed (hstate : p.state = .needGlobalHeader) (hav : p.available ≠ 0)
    (htotal : p.absoluteOffset + p.available ≤ u64Max)
    (hrej : headerAccepted p.options.limits p.unread = false) :
    ((machine backend).step (p.more [] true)).1 = .stop .failed := by
  rw [more_nil_true]
  have hno : ¬ ∃ e s, step backend p.finalizeInput = (.ok (.ready e), s) := by
    rw [step_ready_iff_headerAccepted backend (p := p.finalizeInput) hstate htotal]
    exact fun h => absurd (h.symm.trans hrej) (by decide)
  have hout := outcome_step backend p.finalizeInput
  rcases hstep : step backend p.finalizeInput with ⟨e | r, s⟩
  · rw [(machine_step_failed_iff backend).mpr ⟨e, hstep⟩]
  · rw [hstep] at hout
    cases hout with
    | complete _ _ hzero => exact absurd hzero hav
    | wait hlive => cases hlive
    | header | entry | summary => exact absurd ⟨_, _, hstep⟩ hno

/-- A header that is not accepted: the step fails, or waits and fails at the end of the input. -/
theorem rejected_step (hfin : p.finalized = false) (hstate : p.state = .needGlobalHeader)
    (hav : p.available ≠ 0) (htotal : p.absoluteOffset + p.available ≤ u64Max)
    (hrej : headerAccepted p.options.limits p.unread = false) :
    ((machine backend).step p).1 = .stop .failed ∨
      ∃ q, (machine backend).step p = (.stop .wait, q) ∧
        ((machine backend).step (q.more [] true)).1 = .stop .failed := by
  have hend := finalized_step_failed backend hstate hav htotal hrej
  rcases hw : p.kmsWindow with _ | _
  · have hlaw := lawful_machine backend
    rcases hstep : (machine backend).step p with ⟨e | why, q⟩
    · have hready := (machine_step_ready_iff backend).mp hstep
      have hacc := (step_ready_iff_headerAccepted backend hstate htotal).mp ⟨e, q, hready⟩
      exact absurd (hacc.symm.trans hrej) (by decide)
    · by_cases hwhy : why = .wait
      · subst hwhy
        obtain ⟨hmove, -⟩ := hlaw.wait [] true ⟨hfin, hw⟩ hstep
        exact .inr ⟨q, rfl, hmove.symm.trans hend⟩
      · have hmove := hlaw.halt [] true ⟨hfin, hw⟩ hstep hwhy
        exact .inl (hmove.symm.trans hend)
  · obtain ⟨e, hstep⟩ := step_of_kmsWindow backend hw
    exact .inl (by rw [(machine_step_failed_iff backend).mpr ⟨e, hstep⟩])

end Rejected

section Stuck

variable {s : StreamArchiveParser} {rest : Bytes}
  (h : Stuck (machine backend) Early p chunks es s rest) (hacc : p.Accepts chunks.flatten)
include h hacc

theorem Stuck.window_state :
    (s.more rest false).state = .needGlobalHeader ∧ (s.more rest false).finalized = false ∧
      (s.more rest false).available ≠ 0 ∧
      (s.more rest false).absoluteOffset + (s.more rest false).available ≤ u64Max := by
  obtain ⟨hwindow, hacc_s, -⟩ := Stuck.halted h hacc
  obtain ⟨hstate, hn, -⟩ := kmsWindow_eq_true hwindow
  have hav : (s.more rest false).available = s.available + rest.length := by
    rw [available_eq, available_eq, unread_more, length_append]
  refine ⟨hstate, ?_, by omega, ?_⟩
  · change (s.finalized || false) = false
    rw [hacc_s.finalized]
    rfl
  · rw [hav, ← Nat.add_assoc]
    exact hacc_s.total_le

/-- The whole input at once fails after the same events when the header is not acceptable. -/
theorem Stuck.single_of_rejected
    (hrej : headerAccepted s.options.limits (s.unread ++ rest) = false) :
    runChunks backend p [chunks.flatten] = some (es, .failed) := by
  obtain ⟨hstate, hfin, hav, htotal⟩ := Stuck.window_state h hacc
  obtain ⟨s', hr, hmove, hnorm⟩ := (lawful_machine backend).stuck_single h
  rw [← unread_more rest false] at hrej
  rcases rejected_step backend hfin hstate hav htotal hrej with hfail | ⟨q, hq, hend⟩
  · have hd := hr.drains (.stop trivial (step_eq_of_move (hmove.trans hfail)))
    rw [append_nil] at hd
    exact runChunks_cons_halt hacc.flatten_singleton hd (by decide)
  · change ((machine backend).step s').1 = ((machine backend).step (s.more rest false)).1 at hmove
    change ((machine backend).step s').2.compact =
      ((machine backend).step (s.more rest false)).2.compact at hnorm
    rw [hq] at hmove hnorm
    have hd := hr.drains (.stop trivial (step_eq_of_move hmove))
    rw [append_nil] at hd
    have hlast := ((lawful_machine backend).step_congr (compact_more_congr [] true hnorm)).1.trans
      hend
    rw [more_nil_true] at hlast
    have hd' : Drains (machine backend) (fun _ => True) _ [] .failed _ :=
      .stop trivial (step_eq_of_move hlast)
    rw [runChunks_cons_wait hacc.flatten_singleton hd, runChunks,
      hd'.drain_eq (progress_machine backend)]
    simp only [Option.map_some, append_nil, endOf]

/-- The whole input at once goes on after the same events when the header is acceptable. -/
theorem Stuck.single_of_accepted (hok : headerAccepted s.options.limits (s.unread ++ rest) = true) :
    runChunks backend p [chunks.flatten] ≠ some (es, .failed) := by
  obtain ⟨hstate, -, -, htotal⟩ := Stuck.window_state h hacc
  obtain ⟨s', hr, hmove, -⟩ := (lawful_machine backend).stuck_single h
  rw [← unread_more rest false] at hok
  obtain ⟨e, t, ht⟩ := (step_ready_iff_headerAccepted backend hstate htotal).mpr hok
  change ((machine backend).step s').1 = ((machine backend).step (s.more rest false)).1 at hmove
  rw [(machine_step_ready_iff backend).mpr ht] at hmove
  obtain ⟨es', why, r, hd, -⟩ := exists_drains (fun _ => True) (progress_machine backend)
    (p := ((machine backend).step s').2) fun _ _ => trivial
  have hd' := hr.drains (.ready trivial (step_eq_of_move hmove) hd)
  -- one more event than before the failure
  intro heq
  by_cases hwhy : why = .wait
  · subst hwhy
    rw [runChunks_cons_wait hacc.flatten_singleton hd', Option.map_eq_some_iff] at heq
    obtain ⟨r', -, heq⟩ := heq
    have hlen := congrArg (List.length ∘ Prod.fst) heq
    simp at hlen
  · rw [runChunks_cons_halt hacc.flatten_singleton hd' hwhy] at heq
    have hlen := congrArg (List.length ∘ Prod.fst) (Option.some.inj heq)
    simp at hlen

end Stuck

end Client

/-- Cutting the input into chunks does not change the events and the ending, unless a step is
taken inside the key-management window of an acceptable Global Header. -/
theorem runChunks_eq_single_iff (options : ArchiveReaderOptions)
    (keyProvider : Option KeyProvider) (chunks : List Bytes)
    (hpush : (pushBytes chunks.flatten (withOptions options keyProvider)).1 = .ok ()) :
    (∃ outcome, runChunks backend (withOptions options keyProvider) chunks = some outcome ∧
      runChunks backend (withOptions options keyProvider) [chunks.flatten] = some outcome) ↔
    ∀ call ∈ stepCalls backend (withOptions options keyProvider) chunks,
      cutsHeader call = false := by
  have hacc := accepts_of_pushBytes (p := withOptions options keyProvider) rfl hpush
  cases chunks with
  | nil =>
    have hd : Drains (machine backend) (fun _ => True)
        ((withOptions options keyProvider).more [] false) [] .wait _ := .stop trivial rfl
    refine ⟨fun _ _ hmem => (not_mem_nil hmem).elim, fun _ => ⟨_, rfl, ?_⟩⟩
    rw [flatten_nil, runChunks_cons_wait hacc hd]
    rfl
  | cons c cs =>
    rcases feeds_or_stuck Early (progress_machine backend)
      (withOptions options keyProvider) (c :: cs) with ⟨es, why, hf⟩ | ⟨es, s, rest, hst⟩
    · -- no step in the window: both runs exist and agree
      refine ⟨fun _ call hmem => ?_, fun _ => ⟨_, Feeds.runChunks_eq hf hacc, ?_⟩⟩
      · rw [cutsHeader, (Feeds.stepCalls_ok hf hacc call hmem).2, Bool.false_and]
      · exact Feeds.runChunks_eq (Feeds.single (lawful_machine backend) hf)
          hacc.flatten_singleton
    · -- the first step in the window fails, and the header decides what the whole run does
      have hhalt := Stuck.halted hst hacc
      rcases hres : headerAccepted s.options.limits (s.unread ++ rest) with _ | _
      · refine ⟨fun _ call hmem => ?_,
          fun _ => ⟨_, hhalt.run_eq, Stuck.single_of_rejected hst hacc hres⟩⟩
        rcases hw : call.1.kmsWindow with _ | _
        · rw [cutsHeader, hw, Bool.false_and]
        · rw [hhalt.calls_early call hmem hw, cutsHeader, hres, Bool.and_false]
      · refine ⟨?_, fun hall => ?_⟩
        · rintro ⟨outcome, hchunks, hwhole⟩
          obtain rfl := Option.some.inj (hhalt.run_eq.symm.trans hchunks)
          exact absurd hwhole (Stuck.single_of_accepted hst hacc hres)
        · have := hall (s, rest) hhalt.mem_calls
          rw [cutsHeader, hhalt.window, hres] at this
          cases this

/-- An encrypted archive without index: the Global Header up to the end of its flags, and its
key-management extension with one wrapped key. -/
def encryptedHeader : List Bytes :=
  [[0x53, 0x41, 0x52, 0x21, 1, 0, 4, 0, 0x02, 0x04, 0, 0], [3, 6, 0, 0, 0, 0, 1, 0, 1, 0, 0xAA]]

/-- The same bytes, cut inside the magic, the flags and the key-management extension behind its
first five bytes. -/
def cutHeader : List Bytes :=
  [[0x53, 0x41, 0x52], [0x21, 1, 0, 4, 0, 0x02], [0x04, 0, 0, 3, 6, 0, 0, 0], [0, 1, 0], [],
    [1, 0, 0xAA]]

/-- With these cuts the archive is read to its end, as it is in one piece. -/
theorem runChunks_eq_single_iff_cutHeader :
    (runChunks .plain (withOptions ⟨.default, none⟩ none) cutHeader).map
        (fun outcome => (outcome.1.length, outcome.2)) = some (2, .complete) ∧
      ∃ outcome, runChunks .plain (withOptions ⟨.default, none⟩ none) cutHeader = some outcome ∧
        runChunks .plain (withOptions ⟨.default, none⟩ none) [cutHeader.flatten] =
          some outcome := by
  have hpush : (pushBytes cutHeader.flatten (withOptions ⟨.default, none⟩ none)).1 = .ok () := by
    decide
  have huncut : ∀ call ∈ stepCalls .plain (withOptions ⟨.default, none⟩ none) cutHeader,
      cutsHeader call = false := by decide +kernel
  exact ⟨by decide +kernel, (runChunks_eq_single_iff .plain _ none cutHeader hpush).mpr huncut⟩

/-- Cut at the end of the flags, an archive that parses as a whole is an error. -/
theorem runChunks_encryptedHeader :
    (pushBytes encryptedHeader.flatten (withOptions ⟨.default, none⟩ none)).1 = .ok () ∧
      runChunks .plain (withOptions ⟨.default, none⟩ none) encryptedHeader =
        some ([], .failed) ∧
      (runChunks .plain (withOptions ⟨.default, none⟩ none) [encryptedHeader.flatten]).map
        (fun outcome => (outcome.1.length, outcome.2)) = some (2, .complete) := by
  decide +kernel

end StreamArchiveParser

end Sar
