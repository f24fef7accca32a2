import Mathlib.Algebra.Order.Ring.Nat
import Mathlib.Data.List.Basic
import Mathlib.Tactic.Ring

/-!
# Fallible computations

Inversion and congruence lemmas for `Except`-valued programs written with `do`: from the
success of a sequence, the success of its parts. `rejectIf` is the guard such programs are
written with, `liftError` a change of error type.
-/

namespace Except

variable {ε ε' α β : Type}

/-- Fail with `e` when `c` holds. -/
def rejectIf (c : Prop) [Decidable c] (e : ε) : Except ε Unit :=
  if c then .error e else .ok ()

/-- Change the error type. -/
def liftError (f : ε → ε') : Except ε α → Except ε' α
  | .ok a => .ok a
  | .error e => .error (f e)

/-- The value, or the given error. -/
def okOr (x : Option α) (e : ε) : Except ε α :=
  match x with
  | some a => .ok a
  | none => .error e

variable {x : Except ε α}

@[simp]
theorem bind_eq_ok_iff {f : α → Except ε β} {b : β} :
    (x >>= f) = .ok b ↔ ∃ a, x = .ok a ∧ f a = .ok b := by
  cases x <;> simp [bind, Except.bind]

/-- A step run for its effect only has one possible result. -/
theorem exists_unit {p : Unit → Prop} : (∃ u, p u) ↔ p () :=
  ⟨fun ⟨_, h⟩ => h, fun h => ⟨(), h⟩⟩

theorem bind_eq_error_iff {x : Except ε α} {f : α → Except ε β} {e : ε} :
    (x >>= f) = .error e ↔ x = .error e ∨ ∃ a, x = .ok a ∧ f a = .error e := by
  cases x <;> simp [bind, Except.bind]

theorem exists_error_iff : (∃ e, x = .error e) ↔ ¬ ∃ a, x = .ok a := by
  cases x <;> simp

@[simp]
theorem ok_bind (a : α) (f : α → Except ε β) : ((.ok a : Except ε α) >>= f) = f a := rfl

@[simp]
theorem error_bind (e : ε) (f : α → Except ε β) :
    ((.error e : Except ε α) >>= f) = .error e := rfl

@[simp]
theorem pure_eq_ok (a : α) : (pure a : Except ε α) = .ok a := rfl

@[simp]
theorem map_eq_ok_iff {f : α → β} {b : β} : (f <$> x) = .ok b ↔ ∃ a, x = .ok a ∧ f a = b := by
  cases x <;> simp [Functor.map, Except.map]

variable {c : Prop} {e : ε}

@[simp]
theorem rejectIf_eq_ok_iff [Decidable c] {u : Unit} : rejectIf c e = .ok u ↔ ¬ c := by
  unfold rejectIf
  split <;> simp [*]

@[simp]
theorem rejectIf_eq_error_iff [Decidable c] {e' : ε} : rejectIf c e = .error e' ↔ c ∧ e = e' := by
  unfold rejectIf
  split <;> simp [*]

theorem rejectIf_of_not [Decidable c] (h : ¬ c) : rejectIf c e = .ok () := by
  simp [h]

theorem rejectIf_of [Decidable c] (h : c) : rejectIf c e = .error e := by
  simp [h]

/-- A guard that lets a program go on. -/
theorem rejectIf_bind [Decidable c] (h : ¬ c) (f : Unit → Except ε α) :
    (rejectIf c e >>= f) = f () := by
  rw [rejectIf_of_not h, ok_bind]

@[simp]
theorem liftError_eq_ok_iff {f : ε → ε'} {a : α} : liftError f x = .ok a ↔ x = .ok a := by
  cases x <;> simp [liftError]

@[simp]
theorem liftError_ok (f : ε → ε') (a : α) : liftError f (.ok a) = .ok a := rfl

@[simp]
theorem liftError_error (f : ε → ε') (e : ε) :
    liftError f (.error e : Except ε α) = .error (f e) := rfl

@[simp]
theorem okOr_some (a : α) (e : ε) : okOr (some a) e = .ok a := rfl

@[simp]
theorem okOr_none (e : ε) : okOr (none : Option α) e = .error e := rfl

@[simp]
theorem okOr_eq_ok_iff {x : Option α} {a : α} : okOr x e = .ok a ↔ x = some a := by
  cases x <;> simp [okOr]

@[simp]
theorem okOr_eq_error_iff {o : Option α} {e' : ε} : okOr o e' = .error e ↔ o = none ∧ e' = e := by
  cases o <;> simp [okOr]

/-- A loop of checks succeeds when every check does. -/
theorem forM_eq_ok_iff {f : α → Except ε Unit} {l : List α} {u : Unit} :
    l.forM f = .ok u ↔ ∀ a ∈ l, f a = .ok () := by
  induction l with
  | nil => exact iff_of_true rfl (fun _ h => nomatch h)
  | cons a l ih =>
    change (f a >>= fun _ => l.forM f) = .ok u ↔ _
    rw [bind_eq_ok_iff, exists_unit, ih, List.forall_mem_cons]

/-- A loop in which only the element decides about failure stops with the first error. -/
theorem foldlM_eq_error {turn : β → α → Except ε β} {error? : α → Option ε}
    (hok : ∀ b a, error? a = none → ∃ b', turn b a = .ok b')
    (herror : ∀ b a e, error? a = some e → turn b a = .error e) {l : List α}
    (h : l.findSome? error? = some e) (b : β) : l.foldlM turn b = .error e := by
  induction l generalizing b with
  | nil => exact nomatch h
  | cons a l ih =>
    rw [List.foldlM_cons]
    cases ha : error? a with
    | none =>
      obtain ⟨b', hturn⟩ := hok b a ha
      rw [List.findSome?_cons, ha] at h
      rw [hturn]
      exact ih h b'
    | some e' =>
      rw [List.findSome?_cons, ha] at h
      rw [herror b a e' ha, ← Option.some.inj h]
      rfl

/-- Whether the computation succeeded. -/
theorem isOk_iff_exists : x.isOk = true ↔ ∃ a, x = .ok a := by
  cases x <;> simp [Except.isOk, Except.toBool]

theorem eq_error_of_forall_ne_ok (h : ∀ a, x ≠ .ok a) : ∃ e, x = .error e := by
  cases x with
  | ok a => exact absurd rfl (h a)
  | error e => exact ⟨e, rfl⟩

/-! ### When a computation succeeds -/

/-- The computation succeeds exactly if `c` holds, and then with a result in `post`. -/
def SucceedsIff (c : Prop) (post : α → Prop) (x : Except ε α) : Prop :=
  (c → ∃ a, x = .ok a ∧ post a) ∧ (¬ c → ∃ e, x = .error e)

namespace SucceedsIff

variable {c d : Prop} {post : α → Prop} {post' : β → Prop} {x : Except ε α}
  {f : α → Except ε β}

theorem ok {a : α} (h : post a) : SucceedsIff True post (.ok a : Except ε α) :=
  ⟨fun _ => ⟨a, rfl, h⟩, fun hnot => absurd trivial hnot⟩

theorem of_rejectIf {e : ε} [Decidable c] :
    SucceedsIff (¬ c) (fun _ => True) (Except.rejectIf c e) :=
  ⟨fun hnot => ⟨(), rejectIf_of_not hnot, trivial⟩, fun hc => ⟨e, rejectIf_of (not_not.mp hc)⟩⟩

/-- A sequence succeeds if both parts do. -/
theorem bind (hx : SucceedsIff c post x) (hf : ∀ a, c → post a → SucceedsIff d post' (f a)) :
    SucceedsIff (c ∧ d) post' (x >>= f) := by
  refine ⟨?_, ?_⟩
  · rintro ⟨hc, hd⟩
    obtain ⟨a, rfl, ha⟩ := hx.1 hc
    exact (hf a hc ha).1 hd
  · intro hnot
    by_cases hc : c
    · obtain ⟨a, rfl, ha⟩ := hx.1 hc
      exact (hf a hc ha).2 fun hd => hnot ⟨hc, hd⟩
    · obtain ⟨e, rfl⟩ := hx.2 hc
      exact ⟨e, rfl⟩

theorem map {g : α → β} (hx : SucceedsIff c post x) (hg : ∀ a, post a → post' (g a)) :
    SucceedsIff c post' (x.map g) := by
  refine ⟨?_, ?_⟩
  · intro hc
    obtain ⟨a, rfl, ha⟩ := hx.1 hc
    exact ⟨g a, rfl, hg a ha⟩
  · intro hnot
    obtain ⟨e, rfl⟩ := hx.2 hnot
    exact ⟨e, rfl⟩

theorem congr (hx : SucceedsIff c post x) (h : c ↔ d) : SucceedsIff d post x :=
  ⟨fun hd => hx.1 (h.mpr hd), fun hnot => hx.2 fun hc => hnot (h.mp hc)⟩

/-- With a single possible result, that result is returned exactly if the condition holds. -/
theorem eq_ok_iff {a : α} (hx : SucceedsIff c (· = a) x) : x = .ok a ↔ c := by
  refine ⟨?_, ?_⟩
  · rintro rfl
    by_contra hnot
    obtain ⟨e, he⟩ := hx.2 hnot
    exact (nomatch he)
  · intro hc
    obtain ⟨b, rfl, rfl⟩ := hx.1 hc
    rfl

end SucceedsIff

end Except
