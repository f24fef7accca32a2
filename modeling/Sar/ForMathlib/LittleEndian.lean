import Mathlib.Algebra.Order.Ring.Nat
import Mathlib.Tactic.Ring

/-!
# Little-endian byte strings

The fixed-width little-endian encoding of a natural number, least significant byte first, and
its inverse. `leBytes w n` drops the bits of `n` above `8 * w`, so the round trip
`leNat_leBytes` is stated modulo `256 ^ w`; it is exact on the values of the fixed-width
unsigned types, which is how a record codec uses it (`leNat_leBytes_uint16` and its siblings).
-/

namespace LittleEndian

open List

/-- The `w` little-endian bytes of `n`. -/
def leBytes : ℕ → ℕ → List UInt8
  | 0, _ => []
  | w + 1, n => UInt8.ofNat n :: leBytes w (n / 256)

/-- The natural number with the given little-endian bytes. -/
def leNat : List UInt8 → ℕ
  | [] => 0
  | b :: bs => b.toNat + 256 * leNat bs

@[simp]
theorem length_leBytes (w n : ℕ) : (leBytes w n).length = w := by
  induction w generalizing n with
  | zero => rfl
  | succ w ih => simp [leBytes, ih]

theorem leNat_leBytes (w n : ℕ) : leNat (leBytes w n) = n % 256 ^ w := by
  induction w generalizing n with
  | zero => simp [leBytes, leNat, Nat.mod_one]
  | succ w ih =>
    rw [leBytes, leNat, ih, UInt8.toNat_ofNat', pow_succ' 256 w, Nat.mod_mul]

theorem leNat_leBytes_of_lt {w n : ℕ} (h : n < 256 ^ w) : leNat (leBytes w n) = n := by
  rw [leNat_leBytes, Nat.mod_eq_of_lt h]

theorem leNat_lt (bs : List UInt8) : leNat bs < 256 ^ bs.length := by
  induction bs with
  | nil => simp [leNat]
  | cons b bs ih =>
    have hb : b.toNat < 256 := b.toNat_lt
    rw [leNat, length_cons, pow_succ]
    omega

/-- Every byte string is the encoding of its own value at its own width. -/
theorem leBytes_leNat (bs : List UInt8) : leBytes bs.length (leNat bs) = bs := by
  induction bs with
  | nil => rfl
  | cons b bs ih =>
    have hb : b.toNat < 256 := b.toNat_lt
    have hlow : UInt8.ofNat (b.toNat + 256 * leNat bs) = b := by
      apply UInt8.toNat_inj.mp
      rw [UInt8.toNat_ofNat']
      omega
    have hhigh : (b.toNat + 256 * leNat bs) / 256 = leNat bs := by omega
    rw [length_cons, leNat, leBytes, hlow, hhigh, ih]

/-- The byte strings of one width with a given value. -/
theorem leNat_eq_iff {bs : List UInt8} {n : ℕ} :
    leNat bs = n ↔ n < 256 ^ bs.length ∧ bs = leBytes bs.length n := by
  constructor
  · rintro rfl
    exact ⟨leNat_lt bs, (leBytes_leNat bs).symm⟩
  · rintro ⟨hn, hbs⟩
    rw [hbs, leNat_leBytes_of_lt hn]

theorem leNat_append (bs cs : List UInt8) :
    leNat (bs ++ cs) = leNat bs + 256 ^ bs.length * leNat cs := by
  induction bs with
  | nil => simp [leNat]
  | cons b bs ih =>
    rw [cons_append, leNat, ih, leNat, length_cons, pow_succ]
    ring

/-- The low bytes of a number are its remainder. -/
theorem leNat_take {n : ℕ} {bs : List UInt8} (h : n ≤ bs.length) :
    leNat (bs.take n) = leNat bs % 256 ^ n := by
  have hlen : (bs.take n).length = n := length_take_of_le h
  have hlt : leNat (bs.take n) < 256 ^ n := by
    simpa only [hlen] using leNat_lt (bs.take n)
  conv_rhs => rw [← take_append_drop n bs, leNat_append, hlen]
  rw [Nat.add_mul_mod_self_left, Nat.mod_eq_of_lt hlt]

/-- The bits of a number, byte by byte. -/
theorem testBit_leNat (bs : List UInt8) (j : ℕ) {i : ℕ} (hi : i < 8) :
    (leNat bs).testBit (8 * j + i) = (bs.getD j 0).toNat.testBit i := by
  induction bs generalizing j with
  | nil => simp [leNat]
  | cons b bs ih =>
    have hb : b.toNat < 2 ^ 8 := b.toNat_lt
    rw [leNat, Nat.add_comm, show (256 : ℕ) = 2 ^ 8 from rfl, Nat.testBit_two_pow_mul_add _ hb]
    cases j with
    | zero => rw [Nat.mul_zero, Nat.zero_add, if_pos hi, getD_cons_zero]
    | succ j =>
      rw [if_neg (by omega), show 8 * (j + 1) + i - 8 = 8 * j + i by omega, ih, getD_cons_succ]

/-! ### The fixed-width unsigned types -/

@[simp]
theorem ofNat_leNat_leBytes_uint16 (x : UInt16) : UInt16.ofNat (leNat (leBytes 2 x.toNat)) = x := by
  rw [leNat_leBytes_of_lt (by simpa using x.toNat_lt), UInt16.ofNat_toNat]

@[simp]
theorem ofNat_leNat_leBytes_uint32 (x : UInt32) : UInt32.ofNat (leNat (leBytes 4 x.toNat)) = x := by
  rw [leNat_leBytes_of_lt (by simpa using x.toNat_lt), UInt32.ofNat_toNat]

@[simp]
theorem ofNat_leNat_leBytes_uint64 (x : UInt64) : UInt64.ofNat (leNat (leBytes 8 x.toNat)) = x := by
  rw [leNat_leBytes_of_lt (by simpa using x.toNat_lt), UInt64.ofNat_toNat]

end LittleEndian
