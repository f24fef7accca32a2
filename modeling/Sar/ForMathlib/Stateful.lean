import Sar.ForMathlib.ExceptLemmas

/-!
# Programs on a mutable state

A method on a mutable receiver that may fail: `Prog σ ε α` maps a state to a result and a new
state. In contrast to the usual error-and-state monads, what was written before a failure
stays written, so the state after an error is part of the meaning of the program.
-/

namespace Stateful

/-- A fallible computation on a state; the state survives a failure. -/
def Prog (σ ε α : Type) : Type := σ → Except ε α × σ

variable {σ ε α β : Type}

/-- Run the second program on what the first one left, unless it failed. -/
def andThen (r : Except ε α × σ) (f : α → Prog σ ε β) : Except ε β × σ :=
  match r with
  | (.ok a, s) => f a s
  | (.error e, s) => (.error e, s)

instance : Monad (Prog σ ε) where
  pure a := fun s => (.ok a, s)
  bind x f := fun s => andThen (x s) f

/-- The current state. -/
def current : Prog σ ε σ := fun s => (.ok s, s)

/-- Change the state. -/
def update (f : σ → σ) : Prog σ ε Unit := fun s => (.ok (), f s)

/-- A computation that does not touch the state. -/
def lift (x : Except ε α) : Prog σ ε α := fun s => (x, s)

/-- Fail and leave the state as it is. -/
def fail (e : ε) : Prog σ ε α := lift (.error e)

theorem bind_apply (x : Prog σ ε α) (f : α → Prog σ ε β) (s : σ) :
    (x >>= f) s = andThen (x s) f := rfl

@[simp] theorem pure_apply (a : α) (s : σ) : (pure a : Prog σ ε α) s = (.ok a, s) := rfl

@[simp] theorem current_apply (s : σ) : (current : Prog σ ε σ) s = (.ok s, s) := rfl

@[simp] theorem update_apply (f : σ → σ) (s : σ) : (update f : Prog σ ε Unit) s = (.ok (), f s) :=
  rfl

@[simp] theorem lift_apply (x : Except ε α) (s : σ) : (lift x : Prog σ ε α) s = (x, s) := rfl

@[simp] theorem fail_apply (e : ε) (s : σ) : (fail e : Prog σ ε α) s = (.error e, s) := rfl

@[simp] theorem andThen_ok (a : α) (s : σ) (f : α → Prog σ ε β) :
    andThen (.ok a, s) f = f a s := rfl

@[simp] theorem andThen_error (e : ε) (s : σ) (f : α → Prog σ ε β) :
    andThen (.error e, s) f = (.error e, s) := rfl

/-- The state is read. -/
theorem current_bind (f : σ → Prog σ ε α) (s : σ) : (current >>= f) s = f s s := rfl

/-- The state is changed. -/
theorem update_bind (g : σ → σ) (f : Unit → Prog σ ε α) (s : σ) :
    (update g >>= f) s = f () (g s) := rfl

/-- A guard lets the program go on. -/
theorem lift_rejectIf_bind {c : Prop} [Decidable c] {e : ε} (h : ¬ c) (f : Unit → Prog σ ε α)
    (s : σ) : (lift (Except.rejectIf c e) >>= f) s = f () s := by
  rw [bind_apply, Except.rejectIf_of_not h, lift_apply, andThen_ok]

/-- Two continuations that agree on what the first program can leave. -/
theorem bind_congr_at {x : Prog σ ε α} {f g : α → Prog σ ε β} {s : σ}
    (h : ∀ a t, x s = (.ok a, t) → f a t = g a t) : (x >>= f) s = (x >>= g) s := by
  rw [bind_apply, bind_apply]
  rcases hx : x s with ⟨e | a, t⟩
  · rfl
  · exact h a t hx

theorem andThen_eq_ok_iff {r : Except ε α × σ} {f : α → Prog σ ε β} {b : β} {t : σ} :
    andThen r f = (.ok b, t) ↔ ∃ a s, r = (.ok a, s) ∧ f a s = (.ok b, t) := by
  obtain ⟨r, s⟩ := r
  cases r <;> simp [andThen]

theorem andThen_eq_error_iff {r : Except ε α × σ} {f : α → Prog σ ε β} {e : ε} {t : σ} :
    andThen r f = (.error e, t) ↔
      r = (.error e, t) ∨ ∃ a s, r = (.ok a, s) ∧ f a s = (.error e, t) := by
  obtain ⟨r, s⟩ := r
  cases r <;> simp [andThen]

theorem lift_eq_error_iff {x : Except ε α} {e : ε} {s t : σ} :
    (lift x : Prog σ ε α) s = (.error e, t) ↔ x = .error e ∧ s = t := by
  rw [lift_apply, Prod.mk.injEq]

theorem lift_eq_ok_iff {x : Except ε α} {a : α} {s t : σ} :
    (lift x : Prog σ ε α) s = (.ok a, t) ↔ x = .ok a ∧ s = t := by
  rw [lift_apply, Prod.mk.injEq]

/-! ### Invariants that survive a failure -/

section Preserves

variable {P : σ → Prop}

/-- A state with the property is left with it, whether the program succeeds or fails. -/
def Preserves (P : σ → Prop) (f : Prog σ ε α) : Prop := ∀ ⦃s⦄, P s → P (f s).2

theorem Preserves.pure (a : α) : Preserves P (pure a : Prog σ ε α) := fun _ h => h

theorem Preserves.lift (x : Except ε α) : Preserves P (lift x : Prog σ ε α) := fun _ h => h

theorem Preserves.update {f : σ → σ} (hf : ∀ ⦃s⦄, P s → P (f s)) :
    Preserves P (update f : Prog σ ε Unit) := hf

theorem Preserves.bind {x : Prog σ ε α} {f : α → Prog σ ε β} (hx : Preserves P x)
    (hf : ∀ a, Preserves P (f a)) : Preserves P (x >>= f) := by
  intro s hs
  have hleft := hx hs
  rw [bind_apply]
  rcases hxs : x s with ⟨e | a, t⟩ <;> rw [hxs] at hleft
  · exact hleft
  · exact hf a hleft

/-- The state that is read has the property. -/
theorem Preserves.current_bind {f : σ → Prog σ ε α} (hf : ∀ ⦃s⦄, P s → Preserves P (f s)) :
    Preserves P (current >>= f) := fun _ hs => hf hs hs

theorem Preserves.forM {f : α → Prog σ ε PUnit} (hf : ∀ a, Preserves P (f a)) (l : List α) :
    Preserves P (l.forM f) := by
  induction l with
  | nil => exact Preserves.pure _
  | cons a l ih => exact (hf a).bind fun _ => ih

theorem Preserves.foldlM {f : β → α → Prog σ ε β} (hf : ∀ b a, Preserves P (f b a)) (l : List α)
    (b : β) : Preserves P (l.foldlM f b) := by
  induction l generalizing b with
  | nil => exact Preserves.pure _
  | cons a l ih =>
    rw [List.foldlM_cons]
    exact (hf b a).bind ih

end Preserves

/-! ### Loops -/

section Loop

variable {turn : Prog σ ε Bool} {rank : σ → ℕ}

/-- Take turns until one asks to stop or fails, at most the given number of times. -/
def iterate (turn : Prog σ ε Bool) : ℕ → Prog σ ε Unit
  | 0 => pure ()
  | fuel + 1 => do
    let more ← turn
    if more then iterate turn fuel else pure ()

/-- A turn that asks for another one uses up rank. -/
def Decreases (rank : σ → ℕ) (turn : Prog σ ε Bool) : Prop :=
  ∀ ⦃s t⦄, turn s = (.ok true, t) → rank t < rank s

/-- What every turn preserves, the loop preserves. -/
theorem Preserves.iterate {P : σ → Prop} (h : Preserves P turn) (fuel : ℕ) :
    Preserves P (Stateful.iterate turn fuel) := by
  induction fuel with
  | zero => exact Preserves.pure ()
  | succ fuel ih =>
    refine Preserves.bind h fun more => ?_
    cases more with
    | false => exact Preserves.pure ()
    | true => exact ih

end Loop

end Stateful
