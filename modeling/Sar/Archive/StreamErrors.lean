import Sar.Archive.StreamChunking

/-!
# Errors of the stream parser

Whether an error of `step` is final. Most exits either enter the state `Error`, or lose the
entry that was to be decoded, or leave the parser at bytes that fail again however many more
arrive. Two exits do not: a step inside the key-management window of a Global Header, and a
payload length over the limit, which is noticed after the Local File Header was consumed.
-/

namespace Sar

open Except (rejectIf liftError okOr)
open Stateful LittleEndian Resumable List

namespace StreamArchiveParser

variable {p q s : StreamArchiveParser} {e : SarError} (backend : Backend)

/-! ### Runs -/

/-- The calls a client can make. -/
inductive StreamCall where
  | pushBytes (chunk : Bytes)
  | finalizeInput
  | step

/-- The calls of `step` in a run, each with the state it was made in and its result. -/
def stepResults : StreamArchiveParser → List StreamCall →
    List (StreamArchiveParser × Except SarError StreamStep)
  | _, [] => []
  | p, .pushBytes chunk :: calls => stepResults (StreamArchiveParser.pushBytes chunk p).2 calls
  | p, .finalizeInput :: calls => stepResults p.finalizeInput calls
  | p, .step :: calls =>
    (p, (StreamArchiveParser.step backend p).1) ::
      stepResults (StreamArchiveParser.step backend p).2 calls

/-! ### Where an error leaves the parser -/

/-- The parser before the end of the input was declared. -/
def live (p : StreamArchiveParser) : StreamArchiveParser := { p with finalized := false }

theorem Lost.step_eq_error (h : Lost p) : ∃ e s, step backend p = (.error e, s) ∧ Lost s := by
  obtain ⟨hstate, hgone⟩ := h
  rw [step_of_transformingEntry backend hstate]
  rcases hstep : stepTransformingEntry backend p with ⟨e | r, s⟩
  · obtain ⟨hs, -, hgone'⟩ := stepTransformingEntry_eq_error backend hstep
    exact ⟨e, s, rfl, hs.trans hstate, hgone'⟩
  · obtain ⟨_, _, hdec, -⟩ := (stepTransformingEntry_eq_ok_iff backend).mp hstep
    obtain ⟨archive, pending, _, harch, hpend, -⟩ := (decodePendingEntry_eq_ok_iff backend).mp hdec
    rcases hgone with hnone | hnone
    · cases harch.symm.trans hnone
    · cases hpend.symm.trans hnone

theorem step_settle (p : StreamArchiveParser) : step backend p.settle = step backend p := by
  rw [settle]
  split
  · rename_i hstate
    rw [step_of_entryReady backend hstate]
    exact step_of_needLocalFileHeader backend rfl
  · rfl

theorem grown_live (p : StreamArchiveParser) : Grown [] p.finalized 0 p.live p :=
  grown_zero_iff.mpr (compact_ext rfl rfl rfl (by rw [unread_more, append_nil]; rfl) rfl rfl
    rfl rfl)

theorem Finishes.ne_error {y : Except SarError StreamStep × StreamArchiveParser}
    (h : Finishes p y) : y ≠ (.error e, s) := by
  rintro rfl
  rcases h.2 with ⟨-, hy⟩ | ⟨-, hne, hy⟩
  · cases hy
  · obtain ⟨archive, harch⟩ := Option.ne_none_iff_exists'.mp hne
    rw [finishArchive_of_some harch] at hy
    cases hy

/-- An error either comes from the end of the input, and is final, or does not depend on it. -/
theorem step_live_of_error (h : step backend p = (.error e, s)) :
    s.state = .error ∨ ∃ t, step backend p.live = (.error e, t) := by
  have hfollows := follows_step backend (grown_live p) (fun _ => rfl) fun hne => absurd rfl hne
  generalize step backend p.live = x at hfollows
  generalize hy : step backend p = y at hfollows
  have herr := hy.symm.trans h
  cases hfollows with
  | ready => cases herr
  | complete => cases herr
  | error =>
    obtain ⟨he, -⟩ := Prod.mk.inj herr
    exact .inr ⟨_, by rw [he]⟩
  | wait _ hsettles =>
    obtain ⟨hwaits, hends⟩ := hsettles rfl
    rcases hfin : p.finalized with _ | _
    · cases (hwaits hfin).symm.trans herr
    · rcases hends hfin with ⟨_, _, hstep, hstate⟩ | hfinish
      · obtain ⟨-, rfl⟩ := Prod.mk.inj (hstep.symm.trans herr)
        exact .inl hstate
      · exact absurd herr hfinish.ne_error

/-! ### Errors are final -/

/-- A parser that will not emit anything any more: it is in the state `Error`, or its entry is
lost, or it has grown from one that failed before the end of the input, outside the window. -/
inductive Doomed : StreamArchiveParser → Prop
  | error {p : StreamArchiveParser} : p.state = .error → Doomed p
  | lost {p : StreamArchiveParser} : Lost p → Doomed p
  | grown {p q t : StreamArchiveParser} {v : Bytes} {b : Bool} {e : SarError} :
      p.finalized = false → p.kmsWindow = false → step backend p = (.error e, t) → Grown v b 0 p q →
        q.absoluteOffset + q.available ≤ u64Max → Doomed q

theorem Grown.more {v : Bytes} {b : Bool} (h : Grown v b 0 p q) (w : Bytes) (c : Bool) :
    Grown (v ++ w) (b || c) 0 p (q.more w c) := by
  refine { h with unread := ?_, finalized := ?_ }
  · rw [unread_more, h.unread, append_assoc]
  · change (q.finalized || c) = _
    rw [h.finalized, Bool.or_assoc]

theorem Grown.settle {v : Bytes} {b : Bool} (h : Grown v b 0 p q) :
    Grown v b 0 p.settle q.settle := by
  rw [StreamArchiveParser.settle, StreamArchiveParser.settle, h.state]
  split
  · exact { h with state := rfl }
  · exact h

variable {backend}

theorem Doomed.more (h : Doomed backend p) {w : Bytes} {c : Bool}
    (htotal : p.absoluteOffset + p.available + w.length ≤ u64Max) :
    Doomed backend (p.more w c) := by
  cases h with
  | error hstate => exact .error hstate
  | lost hlost => exact .lost hlost
  | grown hfin hwindow hstep hgrown _ =>
    refine .grown hfin hwindow hstep (hgrown.more w c) ?_
    rw [available_more, ← Nat.add_assoc]
    exact htotal

theorem pushBytes_snd (chunk : Bytes) (p : StreamArchiveParser) :
    (StreamArchiveParser.pushBytes chunk p).2 = p ∨
      p.absoluteOffset + p.available + chunk.length ≤ u64Max ∧
        (StreamArchiveParser.pushBytes chunk p).2 = p.more chunk false := by
  rcases hpush : StreamArchiveParser.pushBytes chunk p with ⟨e | u, q⟩
  · left
    simp only [StreamArchiveParser.pushBytes, bind_apply, current_apply, andThen_ok,
      andThen_eq_error_iff, lift_eq_error_iff, lift_eq_ok_iff, update_apply] at hpush
    rcases hpush with ⟨-, rfl⟩ | ⟨_, _, ⟨-, rfl⟩, ⟨-, rfl⟩ | ⟨_, _, -, hpush⟩⟩
    · rfl
    · rfl
    · cases hpush
  · obtain ⟨htotal, -, rfl⟩ := pushBytes_eq_ok_iff.mp hpush
    exact .inr ⟨htotal, rfl⟩

theorem Doomed.finalizeInput (h : Doomed backend p) : Doomed backend p.finalizeInput := by
  rw [← more_nil_true]
  cases h with
  | error hstate => exact .error hstate
  | lost hlost => exact .lost hlost
  | grown hfin hwindow hstep hgrown htotal =>
    exact (Doomed.grown hfin hwindow hstep hgrown htotal).more htotal

theorem Doomed.pushBytes (h : Doomed backend p) (chunk : Bytes) :
    Doomed backend (StreamArchiveParser.pushBytes chunk p).2 := by
  rcases pushBytes_snd chunk p with heq | ⟨htotal, heq⟩
  · rwa [heq]
  · rw [heq]
    exact h.more htotal

theorem kmsWindow_settle_live (hwindow : p.kmsWindow = false) :
    p.settle.live.kmsWindow = false := by
  rw [settle]
  split
  · rfl
  · exact hwindow

theorem settle_total (htotal : p.absoluteOffset + p.available ≤ u64Max) :
    p.settle.absoluteOffset + p.settle.available ≤ u64Max := by
  rw [settle]
  split <;> exact htotal

/-- A failed step with no payload over the limit dooms the parser, if what it left unchanged is
doomed. -/
theorem doomed_of_refused (hlimit : p.payloadOverLimit = false)
    (htotal : p.absoluteOffset + p.available ≤ u64Max) (h : step backend p = (.error e, s))
    (hrefused : s = p.settle → Doomed backend s) : Doomed backend s := by
  have hout := outcome_step backend p
  rw [h] at hout
  cases hout with
  | failed _ hfail =>
    cases hfail with
    | error hstate => exact .error hstate
    | lost hlost => exact .lost hlost
    | refused hs _ => exact hrefused hs
    | overflow hover => omega
    | overLimit hover => cases hlimit.symm.trans hover

/-- A failed step outside the window, with no payload over the limit, dooms the parser. -/
theorem doomed_of_step_eq_error (hwindow : p.kmsWindow = false)
    (hlimit : p.payloadOverLimit = false) (htotal : p.absoluteOffset + p.available ≤ u64Max)
    (h : step backend p = (.error e, s)) : Doomed backend s := by
  refine doomed_of_refused hlimit htotal h ?_
  rintro rfl
  rcases step_live_of_error backend h with hstate | ⟨t, hlive⟩
  · exact .error hstate
  · -- nothing was consumed: the parser still holds the bytes that failed
    have hsettled : p.settle.live = p.live.settle := apply_ite live _ _ _
    rw [← step_settle, ← hsettled] at hlive
    exact .grown rfl (kmsWindow_settle_live hwindow) hlive (grown_live p.settle)
      (settle_total htotal)

/-- A doomed parser fails, and stays doomed. -/
theorem Doomed.step_eq_error (h : Doomed backend p) (hlimit : p.payloadOverLimit = false) :
    ∃ e s, step backend p = (.error e, s) ∧ Doomed backend s := by
  cases h with
  | error hstate => exact ⟨_, p, step_of_error backend hstate, .error hstate⟩
  | lost hlost =>
    obtain ⟨e, s, hstep, hlost'⟩ := hlost.step_eq_error backend
    exact ⟨e, s, hstep, .lost hlost'⟩
  | @grown p₁ _ t v b e hfin hwindow hstep hgrown htotal =>
    have hfollows := follows_step backend hgrown
      (fun htrue => absurd (htrue.symm.trans hfin) (by decide)) fun _ => hwindow
    rw [hstep] at hfollows
    generalize hy : step backend p = y at hfollows
    cases hfollows with
    | @error _ _ s hgrown' =>
      refine ⟨e, s, rfl, doomed_of_refused hlimit htotal hy ?_⟩
      rintro rfl
      refine .grown (p := p₁.settle) ?_ ?_ ((step_settle backend p₁).trans hstep) hgrown.settle
        (settle_total htotal)
      · rw [settle]
        split <;> exact hfin
      · rw [settle]
        split
        · rfl
        · exact hwindow

/-- Once doomed, every step of a run is an error. -/
theorem Doomed.stepResults (h : Doomed backend p) (calls : List StreamCall)
    (hlimit : ∀ r ∈ stepResults backend p calls, r.1.payloadOverLimit = false) :
    ∀ r ∈ stepResults backend p calls, r.2.isOk = false := by
  induction calls generalizing p with
  | nil => exact fun _ hr => nomatch hr
  | cons call calls ih =>
    cases call with
    | pushBytes chunk => exact ih (h.pushBytes chunk) hlimit
    | finalizeInput => exact ih h.finalizeInput hlimit
    | step =>
      obtain ⟨e, s, hstep, hs⟩ := h.step_eq_error (hlimit _ mem_cons_self)
      simp only [StreamArchiveParser.stepResults, hstep, forall_mem_cons] at hlimit ⊢
      exact ⟨rfl, ih hs hlimit.2⟩

theorem stepResults_pairwise (htotal : p.absoluteOffset + p.available ≤ u64Max)
    (calls : List StreamCall)
    (hmeets : ∀ r ∈ StreamArchiveParser.stepResults backend p calls,
      r.1.kmsWindow = false ∧ r.1.payloadOverLimit = false) :
    (StreamArchiveParser.stepResults backend p calls).Pairwise fun earlier later =>
      earlier.2.isOk = false → later.2.isOk = false := by
  induction calls generalizing p with
  | nil => exact .nil
  | cons call calls ih =>
    cases call with
    | pushBytes chunk =>
      refine ih ?_ hmeets
      rcases pushBytes_snd chunk p with heq | ⟨hle, heq⟩
      · rwa [heq]
      · rw [heq, available_more, ← Nat.add_assoc]
        exact hle
    | finalizeInput => exact ih htotal hmeets
    | step =>
      rcases hstep : step backend p with ⟨e | r, s⟩
      · obtain ⟨hwindow, hlimit⟩ := hmeets _ mem_cons_self
        simp only [StreamArchiveParser.stepResults, hstep, forall_mem_cons] at hmeets ⊢
        have hdoomed := doomed_of_step_eq_error hwindow hlimit htotal hstep
        have hall := hdoomed.stepResults calls fun r hr => (hmeets.2 r hr).2
        exact .cons (fun r hr _ => hall r hr)
          (pairwise_of_forall_mem_list fun _ _ r hr _ => hall r hr)
      · simp only [StreamArchiveParser.stepResults, hstep, forall_mem_cons] at hmeets ⊢
        refine .cons (fun _ _ h => absurd h (by simp [Except.isOk, Except.toBool])) ?_
        refine ih ?_ hmeets.2
        have hkept : s.intake = p.intake := step_intake backend hstep
        rw [show s.absoluteOffset + s.available = p.absoluteOffset + p.available from
          congrArg Prod.fst hkept]
        exact htotal

/-- Errors are final: in every run whose steps are taken outside the key-management window and
with no payload over the limit, a step after a failed step fails. -/
theorem stepResults_error_final (options : ArchiveReaderOptions)
    (keyProvider : Option KeyProvider) (calls : List StreamCall)
    (hmeets : ∀ r ∈ stepResults backend (withOptions options keyProvider) calls,
      r.1.kmsWindow = false ∧ r.1.payloadOverLimit = false) :
    (stepResults backend (withOptions options keyProvider) calls).Pairwise fun earlier later =>
      earlier.2.isOk = false → later.2.isOk = false :=
  stepResults_pairwise (Nat.zero_le _) calls hmeets

/-- A run that fails at a bad magic number, and goes on failing. -/
theorem stepResults_error_final_badMagic :
    (∀ r ∈ stepResults .plain (withOptions ⟨.default, none⟩ none)
      [.pushBytes [0, 0, 0, 0, 1, 0, 4, 0], .step, .pushBytes [2, 0, 0, 0], .step],
      r.1.kmsWindow = false ∧ r.1.payloadOverLimit = false) ∧
    (stepResults .plain (withOptions ⟨.default, none⟩ none)
      [.pushBytes [0, 0, 0, 0, 1, 0, 4, 0], .step, .pushBytes [2, 0, 0, 0], .step]).Pairwise
      fun earlier later => earlier.2.isOk = false → later.2.isOk = false := by
  have hmeets : ∀ r ∈ stepResults .plain (withOptions ⟨.default, none⟩ none)
      [.pushBytes [0, 0, 0, 0, 1, 0, 4, 0], .step, .pushBytes [2, 0, 0, 0], .step],
      r.1.kmsWindow = false ∧ r.1.payloadOverLimit = false := by decide +kernel
  exact ⟨hmeets, stepResults_error_final _ _ _ hmeets⟩

/-- Both exits that are not final. A step at the end of the flags of an encrypted archive fails,
and the key-management extension turns the failure into a Global Header; a payload of five bytes
under a limit of four fails, and the next Local File Header gives an entry. -/
theorem stepResults_error_not_final :
    (stepResults .plain (withOptions ⟨.default, none⟩ none)
      [.pushBytes [0x53, 0x41, 0x52, 0x21, 1, 0, 4, 0, 0x02, 0x04, 0, 0], .step,
        .pushBytes [3, 6, 0, 0, 0, 0, 1, 0, 1, 0, 0xAA], .step]).map
      (fun r => (r.2.isOk, r.2 matches .ok (.ready _))) = [(false, false), (true, true)] ∧
    (stepResults .plain
      (withOptions ⟨{ ResourceLimits.default with maxInMemoryBuffer := 4 }, none⟩ none)
      [.pushBytes ([0x53, 0x41, 0x52, 0x21, 1, 0, 4, 0, 0x02, 0, 0, 0] ++
          [21, 0, 0, 0, 0, 0, 0, 0, 0, 0, 5, 0, 0, 0, 5, 0, 0, 0, 1, 0, 97]),
        .step, .step,
        .pushBytes [21, 0, 0, 0, 0, 0, 0, 0, 0, 0, 0, 0, 0, 0, 0, 0, 0, 0, 1, 0, 98], .step]).map
      (fun r => (r.2.isOk, r.2 matches .ok (.ready _))) =
        [(true, true), (false, false), (true, true)] := by
  decide +kernel

end StreamArchiveParser

end Sar
