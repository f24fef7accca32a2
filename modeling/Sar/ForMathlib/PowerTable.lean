import Mathlib.Algebra.Group.Hom.Basic
import Mathlib.Algebra.GroupWithZero.Basic
import Mathlib.Algebra.Ring.Defs
import Mathlib.Logic.Function.Iterate

/-!
# Multiplication by a table of powers

An additive group in which every non-zero element is a power of one generator, reached from the
unit by iterating an additive map, carries a multiplication: add the exponents. This is how a small
finite field is implemented with an exponential and a logarithm table. `PowerTable` holds what
such tables satisfy, and `PowerTable.mul` is a commutative multiplication that distributes over
addition and has inverses.

All laws come from one fact, `mul_exp`: multiplying by the `i`-th power is iterating the map `i`
times.
-/

/-- An additive map whose iterates on one element reach every non-zero element. -/
structure PowerTable (A : Type*) [AddCommGroup A] where
  /-- Multiplication by the generator. -/
  shift : A →+ A
  /-- The unit. -/
  unit : A
  /-- The exponent of a non-zero element. -/
  log : A → ℕ
  /-- A period of the powers. -/
  period : ℕ
  unit_ne : unit ≠ 0
  iterate_log : ∀ a, a ≠ 0 → shift^[log a] unit = a
  iterate_period : shift^[period] unit = unit
  period_pos : 0 < period

namespace PowerTable

variable {A : Type*} [AddCommGroup A] (T : PowerTable A)

/-- The `i`-th power of the generator. -/
def exp (i : ℕ) : A := T.shift^[i] T.unit

theorem exp_log {a : A} (ha : a ≠ 0) : T.exp (T.log a) = a := T.iterate_log a ha

theorem iterate_exp (i j : ℕ) : T.shift^[i] (T.exp j) = T.exp (i + j) := by
  rw [exp, exp, Function.iterate_add_apply]

theorem exp_add_period (i : ℕ) : T.exp (i + T.period) = T.exp i := by
  rw [exp, Function.iterate_add_apply, T.iterate_period, exp]

theorem exp_add_mul_period (i n : ℕ) : T.exp (i + T.period * n) = T.exp i := by
  induction n with
  | zero => rfl
  | succ n ih => rw [Nat.mul_succ, ← Nat.add_assoc, exp_add_period, ih]

theorem exp_mod_period (i : ℕ) : T.exp (i % T.period) = T.exp i := by
  rw [← T.exp_add_mul_period (i % T.period) (i / T.period), Nat.mod_add_div]

/-- Every power divides the unit. -/
theorem exists_iterate_exp (i : ℕ) : ∃ j, T.shift^[j] (T.exp i) = T.unit := by
  refine ⟨T.period * i - i, ?_⟩
  have hle : i ≤ T.period * i := Nat.le_mul_of_pos_left i T.period_pos
  rw [iterate_exp, Nat.sub_add_cancel hle]
  have := T.exp_add_mul_period 0 i
  rwa [Nat.zero_add] at this

theorem exp_ne_zero (i : ℕ) : T.exp i ≠ 0 := by
  intro hzero
  obtain ⟨j, hj⟩ := T.exists_iterate_exp i
  rw [hzero, iterate_map_zero] at hj
  exact T.unit_ne hj.symm

variable [DecidableEq A]

/-- Multiplication by adding exponents. -/
def mul (a b : A) : A := if a = 0 ∨ b = 0 then 0 else T.exp (T.log a + T.log b)

theorem mul_zero (a : A) : T.mul a 0 = 0 := if_pos (Or.inr rfl)

theorem zero_mul (a : A) : T.mul 0 a = 0 := if_pos (Or.inl rfl)

theorem mul_comm (a b : A) : T.mul a b = T.mul b a := by
  rw [mul, mul, Nat.add_comm]
  exact if_congr Or.comm rfl rfl

/-- Multiplying by a power is iterating the map. -/
theorem mul_exp (i : ℕ) (b : A) : T.mul (T.exp i) b = T.shift^[i] b := by
  by_cases hb : b = 0
  · rw [hb, mul_zero, iterate_map_zero]
  · rw [mul, if_neg (not_or.mpr ⟨T.exp_ne_zero i, hb⟩), Nat.add_comm, ← iterate_exp,
      T.exp_log (T.exp_ne_zero i), iterate_exp, Nat.add_comm, ← iterate_exp, T.exp_log hb]

theorem mul_assoc (a b c : A) : T.mul (T.mul a b) c = T.mul a (T.mul b c) := by
  by_cases ha : a = 0
  · rw [ha, zero_mul, zero_mul, zero_mul]
  by_cases hb : b = 0
  · rw [hb, mul_zero, zero_mul, mul_zero]
  rw [← T.exp_log ha, ← T.exp_log hb, mul_exp, mul_exp, mul_exp, iterate_exp, mul_exp,
    Function.iterate_add_apply]

theorem mul_add (a b c : A) : T.mul a (b + c) = T.mul a b + T.mul a c := by
  by_cases ha : a = 0
  · rw [ha, zero_mul, zero_mul, zero_mul, add_zero]
  · rw [← T.exp_log ha, mul_exp, mul_exp, mul_exp, iterate_map_add]

theorem one_mul (a : A) : T.mul T.unit a = a := T.mul_exp 0 a

/-- Dividing by subtracting exponents modulo the period. -/
theorem exp_sub_mul {a b : A} (ha : a ≠ 0) (hb : b ≠ 0) (hlog : T.log b ≤ T.period) :
    T.mul (T.exp ((T.log a + T.period - T.log b) % T.period)) b = a := by
  have hsum : T.log a + T.period - T.log b + T.log b = T.log a + T.period := by omega
  rw [exp_mod_period, mul_exp]
  calc T.shift^[T.log a + T.period - T.log b] b
      = T.shift^[T.log a + T.period - T.log b] (T.exp (T.log b)) := by rw [T.exp_log hb]
    _ = a := by rw [iterate_exp, hsum, exp_add_period, T.exp_log ha]

end PowerTable
