import Mathlib.Algebra.Order.Ring.Nat
import Mathlib.Data.List.Basic

/-!
# Numbers as lists of bits

`natOfBits` packs a list of bits, least significant first; `testBit_natOfBits` reads each of
them back. A record of flags is encoded through the list of its fields.
-/

namespace BitList

/-- The number with the given bits, least significant first. -/
def natOfBits : List Bool → ℕ
  | [] => 0
  | b :: bs => b.toNat + 2 * natOfBits bs

theorem natOfBits_lt (bs : List Bool) : natOfBits bs < 2 ^ bs.length := by
  induction bs with
  | nil => simp [natOfBits]
  | cons b bs ih =>
    have hb := Bool.toNat_lt b
    rw [natOfBits, List.length_cons, pow_succ]
    omega

theorem testBit_natOfBits (bs : List Bool) (i : ℕ) :
    (natOfBits bs).testBit i = bs.getD i false := by
  induction bs generalizing i with
  | nil => simp [natOfBits]
  | cons b bs ih =>
    cases i with
    | zero => cases b <;> simp [natOfBits]
    | succ i =>
      have hhalf : (b.toNat + 2 * natOfBits bs) / 2 = natOfBits bs := by
        have hb := Bool.toNat_lt b
        omega
      rw [natOfBits, Nat.testBit_succ, hhalf, ih, List.getD_cons_succ]

end BitList
