import Mathlib.Algebra.Field.Defs
import Mathlib.Data.Fintype.EquivFin
import Mathlib.Data.FinEnum
import Mathlib.Dynamics.PeriodicPts.Defs
import Mathlib.NumberTheory.Divisors
import Sar.Fec.Codec
import Sar.ForMathlib.PowerTable

/-!
# The field of the Reed–Solomon codec

`gf_add`, `gf_mul` and `gf_div` make a field of the bytes. Both tables are built from one map, the
multiplication by the primitive element, which is additive for exclusive or; `Gf256.table` collects
what they satisfy, and the laws of `gf_mul` are those of `PowerTable.mul`.

The field's type `Gf256` is a wrapped byte, so that its addition does not clash with the one of
machine integers; its operations are the source's functions.
-/

namespace Sar

/-- `gf_add`. -/
def gfAdd (a b : UInt8) : UInt8 := a ^^^ b

/-- `gf_div`; the divisor is not zero. -/
def gfDiv (a b : UInt8) : UInt8 :=
  if a = 0 then 0 else gfExp.getD ((gfLog a + 255 - gfLog b) % 255) 0

/-! ### The generator of the tables -/

/-- Multiplication by the primitive element. -/
def gfShift (a : UInt8) : UInt8 := gfMulRaw a 2

/-- The multiplication by the primitive element is a shift and a conditional reduction. -/
theorem gfShift_eq (a : UInt8) :
    gfShift a = a <<< 1 ^^^ (if a &&& 0x80 = 0x80 then 0x1D else 0) := by
  revert a
  decide +kernel

theorem and_xor_distrib (a b m : UInt8) : (a ^^^ b) &&& m = (a &&& m) ^^^ (b &&& m) := by
  apply UInt8.toBitVec_inj.mp
  ext i hi
  simp [Bool.and_xor_distrib_right]

/-- The reduction depends on the top bit alone. -/
theorem gfReduction_xor (a b : UInt8) :
    (if (a ^^^ b) &&& 0x80 = 0x80 then 0x1D else 0 : UInt8) =
      (if a &&& 0x80 = 0x80 then 0x1D else 0) ^^^ (if b &&& 0x80 = 0x80 then 0x1D else 0) := by
  have htop : ∀ c : UInt8, c &&& 0x80 = 0 ∨ c &&& 0x80 = 0x80 := by decide +kernel
  rw [and_xor_distrib]
  rcases htop a with ha | ha <;> rcases htop b with hb | hb <;> rw [ha, hb] <;> decide

theorem gfShift_xor (a b : UInt8) : gfShift (a ^^^ b) = gfShift a ^^^ gfShift b := by
  rw [gfShift_eq, gfShift_eq, gfShift_eq, UInt8.shiftLeft_xor, gfReduction_xor]
  ac_rfl

theorem getElem?_gfPowers {n i : ℕ} (hi : i < n) (x : UInt8) :
    (gfPowers n x)[i]? = some (gfShift^[i] x) := by
  induction n generalizing i x with
  | zero => exact absurd hi (Nat.not_lt_zero i)
  | succ n ih =>
    cases i with
    | zero => rfl
    | succ i =>
      rw [gfPowers, List.getElem?_cons_succ, ih (by omega), Function.iterate_succ_apply]
      rfl

@[simp]
theorem length_gfPowers (n : ℕ) (x : UInt8) : (gfPowers n x).length = n := by
  induction n generalizing x with
  | zero => rfl
  | succ n ih => rw [gfPowers, List.length_cons, ih]

theorem gfShift_eq_zero {a : UInt8} (h : gfShift a = 0) : a = 0 := by
  revert a
  decide +kernel

theorem gfShift_injective : Function.Injective gfShift := by
  intro a b h
  have hxor : gfShift (a ^^^ b) = 0 := by rw [gfShift_xor, h, UInt8.xor_self]
  exact UInt8.xor_eq_zero_iff.mp (gfShift_eq_zero hxor)

theorem iterate_gfShift_period : gfShift^[255] 1 = 1 := by decide +kernel

/-- The primitive element has order 255: its order divides 255 and none of the three largest
proper divisors. -/
theorem minimalPeriod_gfShift : Function.minimalPeriod gfShift 1 = 255 := by
  have hdvd : Function.minimalPeriod gfShift 1 ∣ 255 :=
    Function.IsPeriodicPt.minimalPeriod_dvd iterate_gfShift_period
  have hcases : ∀ d ∈ Nat.divisors 255, d = 255 ∨ d ∣ 85 ∨ d ∣ 51 ∨ d ∣ 15 := by decide +kernel
  have hperiod := Function.isPeriodicPt_minimalPeriod gfShift 1
  have hnot : ∀ n, gfShift^[n] 1 ≠ 1 → ¬ Function.minimalPeriod gfShift 1 ∣ n :=
    fun n hne hn => hne (hperiod.trans_dvd hn)
  rcases hcases _ (Nat.mem_divisors.mpr ⟨hdvd, by decide⟩) with h | h | h | h
  · exact h
  · exact absurd h (hnot 85 (by decide +kernel))
  · exact absurd h (hnot 51 (by decide +kernel))
  · exact absurd h (hnot 15 (by decide +kernel))

theorem iterate_gfShift_ne_zero (i : ℕ) : gfShift^[i] 1 ≠ 0 := by
  have hzero : gfShift^[i] 0 = 0 := Function.iterate_fixed (by decide) i
  intro h
  exact absurd (gfShift_injective.iterate i (h.trans hzero.symm)) (by decide)

/-- The first 255 powers are different. -/
theorem iterate_gfShift_injOn {i j : ℕ} (hi : i < 255) (hj : j < 255)
    (h : gfShift^[i] 1 = gfShift^[j] 1) : i = j := by
  have hinj := Function.iterate_injOn_Iio_minimalPeriod (f := gfShift) (x := 1)
  rw [minimalPeriod_gfShift] at hinj
  exact hinj hi hj h

/-- The primitive element generates: its 255 powers are all the non-zero bytes. -/
theorem exists_iterate_gfShift {a : UInt8} (ha : a ≠ 0) : ∃ i < 255, gfShift^[i] 1 = a := by
  -- as many different powers as there are non-zero bytes
  let powers := (Finset.range 255).image fun i => (gfShift^[i] 1).toNat
  have hcard : powers.card = 255 := by
    rw [Finset.card_image_of_injOn, Finset.card_range]
    intro i hi j hj h
    exact iterate_gfShift_injOn (by simpa using hi) (by simpa using hj) (UInt8.toNat_inj.mp h)
  have hsub : powers ⊆ (Finset.range 256).erase 0 := by
    intro n hn
    obtain ⟨i, -, rfl⟩ := Finset.mem_image.mp hn
    refine Finset.mem_erase.mpr ⟨fun h => iterate_gfShift_ne_zero i ?_, ?_⟩
    · exact UInt8.toNat_inj.mp h
    · exact Finset.mem_range.mpr (UInt8.toNat_lt _)
  have heq : powers = (Finset.range 256).erase 0 := by
    refine Finset.eq_of_subset_of_card_le hsub ?_
    rw [hcard, Finset.card_erase_of_mem (Finset.mem_range.mpr (by decide)), Finset.card_range]
  have hmem : a.toNat ∈ powers := by
    rw [heq]
    exact Finset.mem_erase.mpr ⟨fun h => ha (UInt8.toNat_inj.mp h),
      Finset.mem_range.mpr (UInt8.toNat_lt a)⟩
  obtain ⟨i, hi, hia⟩ := Finset.mem_image.mp hmem
  exact ⟨i, Finset.mem_range.mp hi, UInt8.toNat_inj.mp hia⟩

theorem mem_gfPowers {a : UInt8} (ha : a ≠ 0) : a ∈ gfPowers 255 1 := by
  obtain ⟨i, hi, rfl⟩ := exists_iterate_gfShift ha
  exact List.mem_of_getElem? (getElem?_gfPowers hi 1)

theorem gfLog_lt {a : UInt8} (ha : a ≠ 0) : gfLog a < 255 := by
  have := List.idxOf_lt_length_of_mem (mem_gfPowers ha)
  rwa [length_gfPowers] at this

/-- The logarithm is an exponent. -/
theorem iterate_gfLog {a : UInt8} (ha : a ≠ 0) : gfShift^[gfLog a] 1 = a := by
  have hget : (gfPowers 255 1)[gfLog a]? = some a := List.getElem?_idxOf (mem_gfPowers ha)
  rw [getElem?_gfPowers (gfLog_lt ha)] at hget
  exact Option.some.inj hget

/-! ### The field -/

/-- A byte as an element of the field. -/
@[ext]
structure Gf256 where
  /-- The byte. -/
  byte : UInt8
  deriving DecidableEq

namespace Gf256

instance : Zero Gf256 := ⟨⟨0⟩⟩
instance : One Gf256 := ⟨⟨1⟩⟩
instance : Add Gf256 := ⟨fun a b => ⟨gfAdd a.byte b.byte⟩⟩
instance : Mul Gf256 := ⟨fun a b => ⟨gfMul a.byte b.byte⟩⟩

@[simp]
theorem byte_zero : (0 : Gf256).byte = 0 := rfl

@[simp]
theorem byte_add (a b : Gf256) : (a + b).byte = a.byte ^^^ b.byte := rfl

@[simp]
theorem byte_mul (a b : Gf256) : (a * b).byte = gfMul a.byte b.byte := rfl

theorem byte_ne_zero {a : Gf256} (ha : a ≠ 0) : a.byte ≠ 0 := fun h => ha (Gf256.ext h)

/-- Every element is its own negative. -/
instance : Neg Gf256 := ⟨fun a => a⟩

instance : AddCommGroup Gf256 where
  sub a b := ⟨gfAdd a.byte b.byte⟩
  add_assoc a b c := Gf256.ext (UInt8.xor_assoc a.byte b.byte c.byte)
  zero_add _ := Gf256.ext UInt8.zero_xor
  add_zero _ := Gf256.ext UInt8.xor_zero
  add_comm a b := Gf256.ext (UInt8.xor_comm a.byte b.byte)
  neg_add_cancel _ := Gf256.ext UInt8.xor_self
  nsmul := nsmulRec
  zsmul := zsmulRec

theorem sub_eq_add (a b : Gf256) : a - b = a + b := rfl

/-- Multiplication by the primitive element. -/
def shift : Gf256 →+ Gf256 where
  toFun a := ⟨gfShift a.byte⟩
  map_zero' := by decide
  map_add' a b := Gf256.ext (gfShift_xor a.byte b.byte)

theorem byte_iterate_shift (i : ℕ) (a : Gf256) : (shift^[i] a).byte = gfShift^[i] a.byte := by
  induction i generalizing a with
  | zero => rfl
  | succ i ih => rw [Function.iterate_succ_apply, Function.iterate_succ_apply, ih]; rfl

/-- The tables of the codec. -/
def table : PowerTable Gf256 where
  shift := shift
  unit := 1
  log a := gfLog a.byte
  period := 255
  unit_ne := by decide
  iterate_log a ha := Gf256.ext ((byte_iterate_shift _ 1).trans (iterate_gfLog (byte_ne_zero ha)))
  iterate_period := Gf256.ext ((byte_iterate_shift 255 1).trans iterate_gfShift_period)
  period_pos := by decide

theorem byte_exp (i : ℕ) : (table.exp i).byte = gfShift^[i] 1 := byte_iterate_shift i 1

/-- The exponential table holds the powers, over two periods. -/
theorem getD_gfExp {i : ℕ} (hi : i < 510) : gfExp.getD i 0 = (table.exp i).byte := by
  rw [byte_exp, List.getD_eq_getElem?_getD, gfExp, List.append_assoc]
  by_cases hlt : i < 255
  · rw [List.getElem?_append_left (by simpa using hlt), getElem?_gfPowers hlt, Option.getD_some]
  · have hperiod : i - 255 + 255 = i := Nat.sub_add_cancel (not_lt.mp hlt)
    rw [List.getElem?_append_right (by simpa using hlt), length_gfPowers,
      List.getElem?_append_left (by rw [length_gfPowers]; omega), getElem?_gfPowers (by omega),
      Option.getD_some, ← byte_exp, ← table.exp_add_period, ← byte_exp]
    exact congrArg (fun j => (table.exp j).byte) hperiod

theorem mul_eq (a b : Gf256) : a * b = table.mul a b := by
  refine Gf256.ext ?_
  by_cases h : a = 0 ∨ b = 0
  · have hbyte : a.byte = 0 ∨ b.byte = 0 := h.imp (congrArg byte) (congrArg byte)
    rw [byte_mul, gfMul, if_pos hbyte, PowerTable.mul, if_pos h, byte_zero]
  · obtain ⟨ha, hb⟩ := not_or.mp h
    have hla := gfLog_lt (byte_ne_zero ha)
    have hlb := gfLog_lt (byte_ne_zero hb)
    rw [byte_mul, gfMul, if_neg (not_or.mpr ⟨byte_ne_zero ha, byte_ne_zero hb⟩),
      getD_gfExp (by omega), PowerTable.mul, if_neg h]
    rfl

instance : CommRing Gf256 where
  mul_assoc a b c := by simp only [mul_eq, table.mul_assoc]
  one_mul a := (mul_eq 1 a).trans (table.one_mul a)
  mul_one a := by rw [mul_eq, table.mul_comm]; exact table.one_mul a
  mul_comm a b := by rw [mul_eq, mul_eq, table.mul_comm]
  zero_mul a := (mul_eq 0 a).trans (table.zero_mul a)
  mul_zero a := (mul_eq a 0).trans (table.mul_zero a)
  left_distrib a b c := by simp only [mul_eq, table.mul_add]
  right_distrib a b c := by simp only [mul_eq, table.mul_comm _ c, table.mul_add]

/-- Division undoes multiplication. -/
theorem gfDiv_mul (a : Gf256) {b : Gf256} (hb : b ≠ 0) :
    (⟨gfDiv a.byte b.byte⟩ : Gf256) * b = a := by
  by_cases ha : a = 0
  · rw [ha, byte_zero, gfDiv, if_pos rfl]
    exact zero_mul b
  · have hlog := gfLog_lt (byte_ne_zero hb)
    have hpower : (⟨gfDiv a.byte b.byte⟩ : Gf256) =
        table.exp ((table.log a + table.period - table.log b) % table.period) := by
      refine Gf256.ext ?_
      rw [gfDiv, if_neg (byte_ne_zero ha), getD_gfExp (by omega)]
      rfl
    rw [hpower, mul_eq]
    exact table.exp_sub_mul ha hb hlog.le

/-- `gf_div` is the field's division, where it is defined. -/
instance : Field Gf256 where
  inv a := if a = 0 then 0 else ⟨gfDiv 1 a.byte⟩
  div a b := if b = 0 then 0 else ⟨gfDiv a.byte b.byte⟩
  exists_pair_ne := ⟨0, 1, by decide⟩
  mul_inv_cancel a ha := by
    rw [if_neg ha, mul_comm]
    exact gfDiv_mul 1 ha
  inv_zero := if_pos rfl
  div_eq_mul_inv a b := by
    change (if b = 0 then 0 else _) = a * (if b = 0 then 0 else _)
    split
    · rw [mul_zero]
    · next hb =>
      have hcancel : (⟨gfDiv 1 b.byte⟩ : Gf256) * b = 1 := gfDiv_mul 1 hb
      calc (⟨gfDiv a.byte b.byte⟩ : Gf256)
          = ⟨gfDiv a.byte b.byte⟩ * b * ⟨gfDiv 1 b.byte⟩ := by
            rw [mul_assoc, mul_comm b, hcancel, mul_one]
        _ = a * ⟨gfDiv 1 b.byte⟩ := by rw [gfDiv_mul a hb]
  nnqsmul := _
  qsmul := _

/-! ### Powers of the primitive element -/

/-- The primitive element. -/
def alpha : Gf256 := ⟨2⟩

theorem alpha_pow (i : ℕ) : alpha ^ i = table.exp i := by
  induction i with
  | zero => rfl
  | succ i ih =>
    have hmul : alpha * table.exp i = table.exp (i + 1) := by
      have hone : alpha = table.exp 1 := by decide +kernel
      rw [mul_eq, hone, table.mul_exp, table.iterate_exp, Nat.add_comm]
    rw [pow_succ', ih, hmul]

theorem byte_alpha_pow (i : ℕ) : (alpha ^ i).byte = gfPow i := by
  rw [alpha_pow, gfPow]
  split
  · next hzero => rw [hzero]; rfl
  · rw [getD_gfExp (by omega)]
    exact (congrArg byte (table.exp_mod_period i)).symm

/-- A full period of powers, all different. -/
theorem alpha_pow_injOn {i j : ℕ} (hi : i < 255) (hj : j < 255) (h : alpha ^ i = alpha ^ j) :
    i = j := by
  rw [alpha_pow, alpha_pow] at h
  have hbyte := congrArg byte h
  rw [byte_exp, byte_exp] at hbyte
  exact iterate_gfShift_injOn hi hj hbyte

theorem alpha_pow_ne_zero (i : ℕ) : alpha ^ i ≠ 0 := alpha_pow i ▸ table.exp_ne_zero i

end Gf256

end Sar
