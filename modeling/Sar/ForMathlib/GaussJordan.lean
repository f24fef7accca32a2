import Mathlib.Algebra.BigOperators.Field
import Mathlib.Algebra.BigOperators.Intervals
import Mathlib.Algebra.BigOperators.Ring.Finset
import Mathlib.Data.List.GetD
import Mathlib.LinearAlgebra.Matrix.ToLinearEquiv
import Mathlib.LinearAlgebra.Vandermonde
import Mathlib.Logic.Equiv.Basic
import Mathlib.Tactic.Ring

/-!
# Gauss–Jordan elimination on lists of rows

`invert` inverts a square matrix, given as a list of rows over a field, by eliminating the
augmented matrix in place: for each column the first row at or below the diagonal with a non-zero
entry becomes the pivot row, is scaled, and is subtracted from every other row.

A list of rows is read as a homogeneous system, `Solves rows z`; a step keeps its solutions
(`solves_clear_swap_iff`), leaves the columns already treated alone and makes its own a unit column
(`unitColumn_clear_swap_self`), and finds a pivot unless the system has a solution that it should
not have (`exists_solves_of_pivot_eq_none`). The inverse is read off the solutions of the augmented
system: `invert_spec`. It is the inverse matrix, unless the determinant is zero (`invert_rowsOf`).
Matrices whose columns are the successive powers of different elements are among those that are
inverted (`eq_zero_of_solves_powers`).
-/

namespace GaussJordan

open Finset

/-! ### Rows -/

section Rows

variable {α : Type*} {rows : List (List α)} {n r i j : ℕ}

/-- Row `r`, empty when there is none. -/
def row (rows : List (List α)) (r : ℕ) : List α := rows.getD r []

/-- Exchange two rows. -/
def swapRows (rows : List (List α)) (i j : ℕ) : List (List α) :=
  (rows.set i (row rows j)).set j (row rows i)

/-- The number of rows and the width they share. -/
structure IsGrid (rows : List (List α)) (n w : ℕ) : Prop where
  length_eq : rows.length = n
  width_eq : ∀ r < n, (row rows r).length = w

/-- Exchanging two rows renumbers them. -/
theorem row_swapRows (hi : i < rows.length) (hj : j < rows.length) (r : ℕ) :
    row (swapRows rows i j) r = row rows (Equiv.swap i j r) := by
  simp only [row, swapRows, List.getD_eq_getElem?_getD, List.getElem?_set, List.length_set]
  by_cases hrj : r = j
  · subst hrj
    simp [hj, Equiv.swap_apply_right]
  · by_cases hri : r = i
    · subst hri
      simp [Ne.symm hrj, hi, Equiv.swap_apply_left]
    · simp [Ne.symm hrj, Ne.symm hri, Equiv.swap_apply_of_ne_of_ne hri hrj]

/-- The exchange numbers rows of the grid by rows of the grid. -/
theorem swap_lt (hi : i < n) (hj : j < n) : Equiv.swap i j r < n ↔ r < n := by
  by_cases hri : r = i
  · subst hri
    simp [hi, hj]
  · by_cases hrj : r = j
    · subst hrj
      simp [hi, hj]
    · rw [Equiv.swap_apply_of_ne_of_ne hri hrj]

theorem IsGrid.swapRows {w : ℕ} (hg : IsGrid rows n w) (hi : i < n) (hj : j < n) :
    IsGrid (swapRows rows i j) n w where
  length_eq := by simp [GaussJordan.swapRows, hg.length_eq]
  width_eq r hr := by
    rw [row_swapRows (hg.length_eq ▸ hi) (hg.length_eq ▸ hj)]
    exact hg.width_eq _ ((swap_lt hi hj).mpr hr)

theorem row_map_drop (rows : List (List α)) (n r : ℕ) :
    row (rows.map (List.drop n)) r = (row rows r).drop n := by
  simp only [row, List.getD_eq_getElem?_getD, List.getElem?_map]
  cases rows[r]? <;> simp

end Rows

variable {K : Type*} [Field K]

/-! ### The algorithm -/

/-- The entry of row `r` in column `c`. -/
def entry (rows : List (List K)) (r c : ℕ) : K := (row rows r).getD c 0

/-- Divide every entry of a row. -/
def scaleRow (xs : List K) (d : K) : List K := xs.map (· / d)

variable [DecidableEq K]

/-- The first row at or below the diagonal with a non-zero entry in the column. -/
def pivot (rows : List (List K)) (col : ℕ) : Option ℕ :=
  (List.range' col (rows.length - col)).find? fun r => entry rows r col ≠ 0

/-- Subtract the multiple of the pivot row that clears the entry in the column. -/
def eliminateRow (col : ℕ) (pivotRow xs : List K) : List K :=
  let factor := xs.getD col 0
  if factor = 0 then xs else List.zipWith (fun x p => x - factor * p) xs pivotRow

/-- Clear the column of a pivot row that has been put into its place. -/
def clearColumn (rows : List (List K)) (col : ℕ) : List (List K) :=
  let pivotRow := scaleRow (row rows col) (entry rows col col)
  rows.mapIdx fun r xs => if r = col then pivotRow else eliminateRow col pivotRow xs

/-- Treat one column; `none` when it has no pivot. -/
def step (rows : List (List K)) (col : ℕ) : Option (List (List K)) :=
  (pivot rows col).map fun p => clearColumn (swapRows rows col p) col

/-- Treat the first `n` columns. -/
def reduce (rows : List (List K)) (n : ℕ) : Option (List (List K)) :=
  (List.range n).foldlM step rows

/-- The matrix with the identity to its right. -/
def augment (rows : List (List K)) : List (List K) :=
  rows.mapIdx fun r xs => xs ++ (List.replicate rows.length 0).set r 1

/-- The inverse matrix; `none` when a column has no pivot. -/
def invert (rows : List (List K)) : Option (List (List K)) :=
  (reduce (augment rows) rows.length).map fun reduced => reduced.map (List.drop rows.length)

/-! ### Rows as equations -/

/-- The left side of the equation a row stands for. -/
def dot (w : ℕ) (xs : List K) (z : ℕ → K) : K := ∑ c ∈ range w, xs.getD c 0 * z c

/-- `z` solves the homogeneous system of the first `n` rows. -/
def Solves (n w : ℕ) (rows : List (List K)) (z : ℕ → K) : Prop :=
  ∀ r < n, dot w (row rows r) z = 0

/-- The column is the unit vector of its own index. -/
def UnitColumn (n : ℕ) (rows : List (List K)) (c : ℕ) : Prop :=
  ∀ r < n, entry rows r c = if r = c then 1 else 0

variable {rows rows' : List (List K)} {n w col p r : ℕ} {z : ℕ → K}

omit [DecidableEq K] in
/-- A row applied to a unit vector. -/
theorem dot_unit (xs : List K) {m : ℕ} (hm : m < w) :
    dot w xs (fun c => if c = m then 1 else 0) = xs.getD m 0 := by
  rw [dot, sum_eq_single_of_mem m (mem_range.mpr hm), if_pos rfl, mul_one]
  intro c _ hc
  rw [if_neg hc, mul_zero]

omit [DecidableEq K] in
/-- A row applied to a vector and a combination of vectors. -/
theorem dot_add_sum {ι : Type*} (xs : List K) (a : ℕ → K) (s : Finset ι) (v : ℕ → ι → K)
    (y : ι → K) :
    dot w xs (fun r => a r + ∑ j ∈ s, v r j * y j) =
      dot w xs a + ∑ j ∈ s, dot w xs (fun r => v r j) * y j := by
  simp only [dot, mul_add, sum_add_distrib, sum_mul, mul_sum]
  rw [sum_comm]
  refine congrArg (_ + ·) (sum_congr rfl fun j _ => sum_congr rfl fun r _ => ?_)
  ring

omit [DecidableEq K] in
theorem getD_scaleRow (xs : List K) (d : K) (c : ℕ) :
    (scaleRow xs d).getD c 0 = xs.getD c 0 / d := by
  simp only [scaleRow, List.getD_eq_getElem?_getD, List.getElem?_map]
  cases xs[c]? <;> simp

/-- Clearing an entry, whether or not there is anything to clear. -/
theorem getD_eliminateRow {pivotRow xs : List K} (hlen : pivotRow.length = xs.length) (c : ℕ) :
    (eliminateRow col pivotRow xs).getD c 0 =
      xs.getD c 0 - xs.getD col 0 * pivotRow.getD c 0 := by
  simp only [eliminateRow]
  split
  · next hzero => rw [hzero, zero_mul, sub_zero]
  · simp only [List.getD_eq_getElem?_getD, List.getElem?_zipWith]
    by_cases hc : c < xs.length
    · rw [List.getElem?_eq_getElem hc, List.getElem?_eq_getElem (hlen ▸ hc)]
      simp
    · rw [List.getElem?_eq_none (not_lt.mp hc), List.getElem?_eq_none (hlen ▸ not_lt.mp hc)]
      simp

theorem length_eliminateRow {pivotRow xs : List K} (hlen : pivotRow.length = xs.length) :
    (eliminateRow col pivotRow xs).length = xs.length := by
  simp only [eliminateRow]
  split
  · rfl
  · rw [List.length_zipWith, hlen, min_self]

theorem row_clearColumn (hr : r < rows.length) :
    row (clearColumn rows col) r =
      if r = col then scaleRow (row rows col) (entry rows col col)
      else eliminateRow col (scaleRow (row rows col) (entry rows col col)) (row rows r) := by
  simp [row, clearColumn, List.getD_eq_getElem?_getD, hr]

/-! ### One step -/

/-- The row exchanged into the diagonal lies at or below it and is non-zero in the column. -/
theorem pivot_eq_some (h : pivot rows col = some p) :
    col ≤ p ∧ p < rows.length ∧ entry rows p col ≠ 0 := by
  have hmem := List.mem_of_find?_eq_some h
  rw [List.mem_range'_1] at hmem
  have hne := List.find?_some h
  exact ⟨hmem.1, by omega, by simpa using hne⟩

theorem pivot_eq_none (h : pivot rows col = none) (hr : col ≤ r) (hlt : r < rows.length) :
    entry rows r col = 0 := by
  have := List.find?_eq_none.mp h r (List.mem_range'_1.mpr ⟨hr, by omega⟩)
  simpa using this

theorem IsGrid.clearColumn (hg : IsGrid rows n w) (hcol : col < n) :
    IsGrid (clearColumn rows col) n w where
  length_eq := by simp [GaussJordan.clearColumn, hg.length_eq]
  width_eq r hr := by
    have hscaled : (scaleRow (row rows col) (entry rows col col)).length = w := by
      rw [scaleRow, List.length_map, hg.width_eq col hcol]
    rw [row_clearColumn (hg.length_eq ▸ hr)]
    split
    · exact hscaled
    · rw [length_eliminateRow (hscaled.trans (hg.width_eq r hr).symm), hg.width_eq r hr]

omit [DecidableEq K] in
theorem solves_swapRows_iff (hg : IsGrid rows n w) (hcol : col < n) (hp : p < n) :
    Solves n w (swapRows rows col p) z ↔ Solves n w rows z := by
  have hrow := row_swapRows (hg.length_eq ▸ hcol : col < rows.length) (hg.length_eq ▸ hp)
  constructor
  · intro h r hr
    have := h (Equiv.swap col p r) ((swap_lt hcol hp).mpr hr)
    rwa [hrow, Equiv.swap_apply_self] at this
  · intro h r hr
    rw [hrow]
    exact h _ ((swap_lt hcol hp).mpr hr)

omit [DecidableEq K] in
theorem dot_scaleRow (xs : List K) (d : K) : dot w (scaleRow xs d) z = dot w xs z / d := by
  rw [dot, dot, sum_div]
  refine sum_congr rfl fun c _ => ?_
  rw [getD_scaleRow]
  ring

theorem dot_eliminateRow {pivotRow xs : List K} (hlen : pivotRow.length = xs.length) :
    dot w (eliminateRow col pivotRow xs) z =
      dot w xs z - xs.getD col 0 * dot w pivotRow z := by
  rw [dot, dot, dot, mul_sum, ← sum_sub_distrib]
  refine sum_congr rfl fun c _ => ?_
  rw [getD_eliminateRow hlen]
  ring

/-- Clearing a column keeps the solutions. -/
theorem solves_clearColumn_iff (hg : IsGrid rows n w) (hcol : col < n)
    (hdiag : entry rows col col ≠ 0) : Solves n w (clearColumn rows col) z ↔ Solves n w rows z := by
  have hlen : ∀ r < n, (scaleRow (row rows col) (entry rows col col)).length =
      (row rows r).length := by
    intro r hr
    rw [scaleRow, List.length_map, hg.width_eq col hcol, hg.width_eq r hr]
  have hrow : ∀ r < n, row (clearColumn rows col) r = _ := fun r hr =>
    row_clearColumn (hg.length_eq ▸ hr)
  constructor
  · intro h
    -- the pivot equation is the scaled one, and the others are what was subtracted from
    have hpivot : dot w (row rows col) z = 0 := by
      have := h col hcol
      rw [hrow col hcol, if_pos rfl, dot_scaleRow, div_eq_zero_iff] at this
      exact this.resolve_right hdiag
    intro r hr
    by_cases hrc : r = col
    · rw [hrc, hpivot]
    · have := h r hr
      rw [hrow r hr, if_neg hrc, dot_eliminateRow (hlen r hr), dot_scaleRow, hpivot, zero_div,
        mul_zero, sub_zero] at this
      exact this
  · intro h r hr
    rw [hrow r hr]
    split
    · rw [dot_scaleRow, h col hcol, zero_div]
    · rw [dot_eliminateRow (hlen r hr), dot_scaleRow, h col hcol, h r hr, zero_div, mul_zero,
        sub_zero]

/-- The entry a cleared column leaves. -/
theorem entry_clearColumn (hg : IsGrid rows n w) (hcol : col < n) (hr : r < n) (c : ℕ) :
    entry (clearColumn rows col) r c =
      if r = col then entry rows col c / entry rows col col
      else entry rows r c - entry rows r col * (entry rows col c / entry rows col col) := by
  have hlen : (scaleRow (row rows col) (entry rows col col)).length = (row rows r).length := by
    rw [scaleRow, List.length_map, hg.width_eq col hcol, hg.width_eq r hr]
  rw [entry, row_clearColumn (hg.length_eq ▸ hr)]
  split
  · exact getD_scaleRow _ _ c
  · rw [getD_eliminateRow hlen, getD_scaleRow]
    rfl

section Step

variable (hg : IsGrid rows n w) (hcol : col < n) (hp : pivot rows col = some p)

include hg hcol hp

theorem entry_swapRows_diag : entry (swapRows rows col p) col col = entry rows p col := by
  have hlt := (pivot_eq_some hp).2.1
  rw [entry, row_swapRows (hg.length_eq ▸ hcol) hlt, Equiv.swap_apply_left, entry]

/-- A step keeps the solutions. -/
theorem solves_clear_swap_iff :
    Solves n w (clearColumn (swapRows rows col p) col) z ↔ Solves n w rows z := by
  obtain ⟨-, hlt, hne⟩ := pivot_eq_some hp
  have hpn : p < n := hg.length_eq ▸ hlt
  rw [solves_clearColumn_iff (hg.swapRows hcol hpn) hcol
    ((entry_swapRows_diag hg hcol hp).symm ▸ hne), solves_swapRows_iff hg hcol hpn]

/-- A step makes its own column a unit column. -/
theorem unitColumn_clear_swap_self :
    UnitColumn n (clearColumn (swapRows rows col p) col) col := by
  obtain ⟨-, hlt, hne⟩ := pivot_eq_some hp
  have hdiag : entry (swapRows rows col p) col col ≠ 0 :=
    (entry_swapRows_diag hg hcol hp).symm ▸ hne
  intro r hr
  rw [entry_clearColumn (hg.swapRows hcol (hg.length_eq ▸ hlt)) hcol hr, div_self hdiag, mul_one,
    sub_self]

/-- A step leaves the columns to its left alone. -/
theorem unitColumn_clear_swap_of_lt {c : ℕ} (hc : c < col) (hunit : UnitColumn n rows c) :
    UnitColumn n (clearColumn (swapRows rows col p) col) c := by
  obtain ⟨hle, hlt, -⟩ := pivot_eq_some hp
  have hpn : p < n := hg.length_eq ▸ hlt
  -- both exchanged rows are zero in the column, so the exchange does not show
  have hswap : UnitColumn n (swapRows rows col p) c := by
    intro r hr
    rw [entry, row_swapRows (hg.length_eq ▸ hcol) hlt]
    refine (hunit _ ((swap_lt hcol hpn).mpr hr)).trans ?_
    by_cases hrc : r = col
    · subst hrc
      rw [Equiv.swap_apply_left, if_neg (by omega), if_neg (by omega)]
    · by_cases hrp : r = p
      · subst hrp
        rw [Equiv.swap_apply_right, if_neg (by omega), if_neg (by omega)]
      · rw [Equiv.swap_apply_of_ne_of_ne hrc hrp]
  have hzero : entry (swapRows rows col p) col c = 0 := by
    rw [hswap col hcol, if_neg (by omega)]
  intro r hr
  rw [entry_clearColumn (hg.swapRows hcol hpn) hcol hr, hzero, zero_div, mul_zero, sub_zero]
  split
  · next hrc => rw [if_neg (by omega)]
  · exact hswap r hr

end Step

/-- With unit columns to the left and no pivot, the column is a combination of those: the system
has a solution that is `1` at the column and vanishes behind it. -/
theorem exists_solves_of_pivot_eq_none (hg : IsGrid rows n w) (hcol : col < n) (hw : n ≤ w)
    (hunit : ∀ c < col, UnitColumn n rows c) (hp : pivot rows col = none) :
    ∃ z : ℕ → K, z col = 1 ∧ (∀ c, col < c → z c = 0) ∧ Solves n w rows z := by
  refine ⟨fun c => if c < col then -entry rows c col else if c = col then 1 else 0, ?_, ?_, ?_⟩
  · simp
  · intro c hc
    simp [Nat.not_lt.mpr hc.le, hc.ne']
  · intro r hr
    -- the sum ends at the column, where the entry itself is added
    have hsplit : dot w (row rows r)
        (fun c => if c < col then -entry rows c col else if c = col then 1 else 0) =
        (∑ c ∈ range col, entry rows r c * -entry rows c col) + entry rows r col := by
      rw [dot, ← sum_subset (range_subset_range.mpr (by omega : col + 1 ≤ w)), sum_range_succ]
      · congr 1
        · refine sum_congr rfl fun c hc => ?_
          rw [if_pos (mem_range.mp hc)]
          rfl
        · simp [entry]
      · intro c _ hc
        have hle : ¬ c < col + 1 := fun hlt => hc (mem_range.mpr hlt)
        rw [if_neg (by omega), if_neg (by omega), mul_zero]
    have hterm : ∀ c ∈ range col, entry rows r c * -entry rows c col =
        if c = r then -entry rows r col else 0 := by
      intro c hc
      rw [hunit c (mem_range.mp hc) r hr]
      by_cases hrc : r = c
      · simp [hrc]
      · simp [hrc, Ne.symm hrc]
    rw [hsplit, sum_congr rfl hterm, sum_ite_eq']
    by_cases hrc : r < col
    · rw [if_pos (mem_range.mpr hrc), neg_add_cancel]
    · rw [if_neg (by simpa using hrc), zero_add, pivot_eq_none hp (by omega) (hg.length_eq ▸ hr)]

/-! ### Whole runs -/

theorem reduce_succ (k : ℕ) : reduce rows (k + 1) = (reduce rows k).bind (step · k) := by
  rw [reduce, List.range_succ, List.foldlM_append]
  change (reduce rows k).bind _ = _
  refine congrArg _ (funext fun mid => ?_)
  exact bind_pure _

/-- A run that goes through keeps the solutions and makes the columns unit columns. -/
theorem reduce_eq_some (hg : IsGrid rows n w) {k : ℕ} (hk : k ≤ n) {reduced : List (List K)}
    (h : reduce rows k = some reduced) :
    IsGrid reduced n w ∧ (∀ z, Solves n w reduced z ↔ Solves n w rows z) ∧
      ∀ c < k, UnitColumn n reduced c := by
  induction k generalizing reduced with
  | zero =>
    obtain rfl : rows = reduced := Option.some.inj h
    exact ⟨hg, fun _ => Iff.rfl, fun c hc => absurd hc (Nat.not_lt_zero c)⟩
  | succ k ih =>
    rw [reduce_succ, Option.bind_eq_some_iff] at h
    obtain ⟨mid, hmid, hstep⟩ := h
    rw [step, Option.map_eq_some_iff] at hstep
    obtain ⟨p, hp, rfl⟩ := hstep
    obtain ⟨hgmid, hsolves, hunits⟩ := ih (by omega) hmid
    have hkn : k < n := hk
    have hpn : p < n := hgmid.length_eq ▸ (pivot_eq_some hp).2.1
    refine ⟨(hgmid.swapRows hkn hpn).clearColumn hkn,
      fun z => (solves_clear_swap_iff hgmid hkn hp).trans (hsolves z), fun c hc => ?_⟩
    rcases Nat.lt_succ_iff_lt_or_eq.mp hc with hlt | rfl
    · exact unitColumn_clear_swap_of_lt hgmid hkn hp hlt (hunits c hlt)
    · exact unitColumn_clear_swap_self hgmid hkn hp

/-- If the first `n` unknowns can only be zero, all columns are treated. -/
theorem exists_reduce_eq_some (hg : IsGrid rows n w) (hw : n ≤ w)
    (hsolve : ∀ z, Solves n w rows z → (∀ c, n ≤ c → z c = 0) → ∀ c < n, z c = 0)
    {k : ℕ} (hk : k ≤ n) : ∃ reduced, reduce rows k = some reduced := by
  induction k with
  | zero => exact ⟨rows, rfl⟩
  | succ k ih =>
    obtain ⟨mid, hmid⟩ := ih (by omega)
    obtain ⟨hgmid, hsolves, hunits⟩ := reduce_eq_some hg (by omega) hmid
    rw [reduce_succ, hmid, Option.bind_some, step]
    -- a missing pivot would give a solution that does not vanish
    cases hp : pivot mid k with
    | none =>
      obtain ⟨z, hone, hzero, hz⟩ := exists_solves_of_pivot_eq_none hgmid hk hw hunits hp
      have := hsolve z ((hsolves z).mp hz) (fun c hc => hzero c (by omega)) k hk
      exact absurd (hone.symm.trans this) one_ne_zero
    | some p => exact ⟨_, rfl⟩

/-! ### The inverse -/

omit [DecidableEq K] in
theorem row_augment (hr : r < rows.length) :
    row (augment rows) r = row rows r ++ (List.replicate rows.length 0).set r 1 := by
  simp [row, augment, List.getD_eq_getElem?_getD, hr]

omit [DecidableEq K] in
/-- An equation of the augmented matrix: the matrix's own and one more unknown. -/
theorem dot_augment (hg : IsGrid rows n n) (hr : r < n) :
    dot (n + n) (row (augment rows) r) z = dot n (row rows r) z + z (n + r) := by
  have hlen : (row rows r).length = n := hg.width_eq r hr
  rw [dot, sum_range_add, row_augment (hg.length_eq ▸ hr), hg.length_eq]
  congr 1
  · refine sum_congr rfl fun c hc => ?_
    rw [List.getD_append _ _ _ _ (hlen.symm ▸ mem_range.mp hc)]
  · have hterm : ∀ c ∈ range n,
        (row rows r ++ (List.replicate n (0 : K)).set r 1).getD (n + c) 0 * z (n + c) =
          if c = r then z (n + r) else 0 := by
      intro c hc
      rw [List.getD_append_right _ _ _ _ (by omega), hlen, Nat.add_sub_cancel_left,
        List.getD_eq_getElem?_getD, List.getElem?_set, List.length_replicate]
      by_cases hcr : c = r
      · subst hcr
        simp [hr]
      · simp [Ne.symm hcr, hcr, mem_range.mp hc]
    rw [sum_congr rfl hterm, sum_ite_eq', if_pos (mem_range.mpr hr)]

omit [DecidableEq K] in
theorem IsGrid.augment (hg : IsGrid rows n n) : IsGrid (augment rows) n (n + n) where
  length_eq := by simp [GaussJordan.augment, hg.length_eq]
  width_eq r hr := by
    rw [row_augment (hg.length_eq ▸ hr), List.length_append, hg.width_eq r hr, List.length_set,
      List.length_replicate, hg.length_eq]

omit [DecidableEq K] in
/-- An equation whose left half is a row of the identity. -/
theorem dot_of_unitColumns (hunit : ∀ c < n, UnitColumn n rows c) (hr : r < n) :
    dot (n + n) (row rows r) z = z r + dot n ((row rows r).drop n) fun c => z (n + c) := by
  rw [dot, sum_range_add]
  congr 1
  · have hterm : ∀ c ∈ range n, (row rows r).getD c 0 * z c = if c = r then z r else 0 := by
      intro c hc
      have hentry : (row rows r).getD c 0 = if r = c then 1 else 0 :=
        hunit c (mem_range.mp hc) r hr
      rw [hentry]
      by_cases hcr : c = r
      · simp [hcr]
      · simp [hcr, Ne.symm hcr]
    rw [sum_congr rfl hterm, sum_ite_eq', if_pos (mem_range.mpr hr)]
  · refine sum_congr rfl fun c _ => ?_
    simp only [List.getD_eq_getElem?_getD, List.getElem?_drop]

/-- What is returned as the inverse undoes multiplication by the matrix. -/
theorem invert_eq_some (hg : IsGrid rows n n) {inv : List (List K)} (h : invert rows = some inv) :
    IsGrid inv n n ∧
      ∀ x : ℕ → K, ∀ i < n, dot n (row inv i) (fun r => dot n (row rows r) x) = x i := by
  rw [invert, hg.length_eq, Option.map_eq_some_iff] at h
  obtain ⟨reduced, hreduce, rfl⟩ := h
  obtain ⟨hgrid, hsolves, hunit⟩ := reduce_eq_some hg.augment (le_refl n) hreduce
  refine ⟨⟨?_, ?_⟩, ?_⟩
  · rw [List.length_map, hgrid.length_eq]
  · intro r hr
    rw [row_map_drop, List.length_drop, hgrid.width_eq r hr, Nat.add_sub_cancel]
  · intro x i hi
    -- `x` and the negated product solve the augmented system, hence the reduced one
    let z : ℕ → K := fun c => if c < n then x c else -dot n (row rows (c - n)) x
    have hleft : ∀ r, dot n (row rows r) z = dot n (row rows r) x := fun r =>
      sum_congr rfl fun c hc => by simp only [z, if_pos (mem_range.mp hc)]
    have hright : ∀ c, z (n + c) = -dot n (row rows c) x := by
      intro c
      simp only [z, if_neg (Nat.not_lt.mpr (Nat.le_add_right n c)), Nat.add_sub_cancel_left]
    have hz : Solves n (n + n) (augment rows) z := by
      intro r hr
      rw [dot_augment hg hr, hleft, hright, add_neg_cancel]
    have hrow := (hsolves z).mpr hz i hi
    have hneg : dot n ((row reduced i).drop n) (fun c => z (n + c)) =
        -dot n ((row reduced i).drop n) fun r => dot n (row rows r) x := by
      rw [dot, dot, ← sum_neg_distrib]
      refine sum_congr rfl fun c _ => ?_
      rw [hright, mul_neg]
    rw [dot_of_unitColumns hunit hi, hneg, ← sub_eq_add_neg, sub_eq_zero] at hrow
    rw [row_map_drop, ← hrow]
    simp only [z, if_pos hi]

/-- **Inversion.** A square matrix whose homogeneous system has only the zero solution is inverted,
and the result undoes multiplication by it. -/
theorem invert_spec (hg : IsGrid rows n n) (hsolve : ∀ z, Solves n n rows z → ∀ c < n, z c = 0) :
    ∃ inv, invert rows = some inv ∧ IsGrid inv n n ∧
      ∀ x : ℕ → K, ∀ i < n, dot n (row inv i) (fun r => dot n (row rows r) x) = x i := by
  have haug : ∀ z, Solves n (n + n) (augment rows) z →
      (∀ c, n ≤ c → z c = 0) → ∀ c < n, z c = 0 := by
    intro z hz hzero
    refine hsolve z fun r hr => ?_
    have := hz r hr
    rwa [dot_augment hg hr, hzero (n + r) (by omega), add_zero] at this
  obtain ⟨reduced, hreduce⟩ := exists_reduce_eq_some hg.augment (by omega) haug (le_refl n)
  have hinv : invert rows = some (reduced.map (List.drop n)) := by
    rw [invert, hg.length_eq, hreduce]
    rfl
  exact ⟨_, hinv, invert_eq_some hg hinv⟩

/-! ### Matrices -/

section Matrix

/-- The rows of a matrix. -/
def rowsOf (A : Matrix (Fin n) (Fin n) K) : List (List K) := List.ofFn fun i => List.ofFn (A i)

variable (A : Matrix (Fin n) (Fin n) K)

omit [DecidableEq K] in
theorem dot_rowsOf (i : Fin n) (x : ℕ → K) :
    dot n (row (rowsOf A) i) x = A.mulVec (fun j => x j) i := by
  rw [dot, sum_range]
  simp [row, rowsOf, Matrix.mulVec, dotProduct]

omit [DecidableEq K] in
theorem IsGrid.eq_rowsOf (hg : IsGrid rows n n) :
    rows = rowsOf (.of fun i j : Fin n => entry rows i j) := by
  refine List.ext_getElem (by simp [rowsOf, hg.length_eq]) fun r hr _ => ?_
  have hrow : row rows r = rows[r] := List.getD_eq_getElem _ _ hr
  have hwidth := hg.width_eq r (hg.length_eq ▸ hr)
  refine List.ext_getElem (by simp [rowsOf, ← hrow, hwidth]) fun c hc _ => ?_
  simp [rowsOf, entry, hrow, hc]

/-- Elimination inverts exactly the matrices that have an inverse, and computes it. -/
theorem invert_rowsOf : invert (rowsOf A) = if A.det = 0 then none else some (rowsOf A⁻¹) := by
  have hgrid : IsGrid (rowsOf A) n n := ⟨List.length_ofFn, fun r hr => by simp [row, rowsOf, hr]⟩
  have hinverse : ∀ inv, invert (rowsOf A) = some inv → ∃ B, inv = rowsOf B ∧ B * A = 1 := by
    intro inv hinv
    obtain ⟨hg, hleft⟩ := invert_eq_some hgrid hinv
    refine ⟨_, hg.eq_rowsOf, Matrix.ext fun i j => ?_⟩
    have hij := hleft (fun c => if c = j then 1 else 0) i i.isLt
    rw [dot, sum_range] at hij
    simpa [dot_rowsOf, Matrix.mul_apply, Matrix.one_apply, entry, Matrix.mulVec, dotProduct,
      Fin.val_inj] using hij
  split_ifs with hdet
  · refine Option.eq_none_iff_forall_ne_some.mpr fun inv hinv => ?_
    obtain ⟨B, -, hB⟩ := hinverse inv hinv
    exact (Matrix.isUnit_det_of_left_inverse hB).ne_zero hdet
  · obtain ⟨inv, hinv, -⟩ := invert_spec hgrid fun z hz c hc =>
      congrFun (Matrix.eq_zero_of_mulVec_eq_zero (v := fun j : Fin n => z j) hdet
        (funext fun r => (dot_rowsOf A r z).symm.trans (hz r r.isLt))) ⟨c, hc⟩
    obtain ⟨B, rfl, hB⟩ := hinverse inv hinv
    rw [hinv, Matrix.inv_eq_left_inv hB]

end Matrix

/-- A matrix with two equal columns is not inverted. -/
theorem invert_eq_none_of_columns_eq (hg : IsGrid rows n n) {a b : ℕ} (ha : a < n) (hb : b < n)
    (hab : a ≠ b) (heq : ∀ r < n, entry rows r a = entry rows r b) : invert rows = none := by
  have hne : (⟨a, ha⟩ : Fin n) ≠ ⟨b, hb⟩ := fun h => hab (Fin.val_eq_of_eq h)
  rw [hg.eq_rowsOf, invert_rowsOf, if_pos (Matrix.det_zero_of_column_eq hne fun r => heq r r.isLt)]

omit [DecidableEq K] in
/-- Columns of successive powers, from the first, of different non-zero elements. -/
theorem eq_zero_of_solves_powers {x : ℕ → K} (hne : ∀ i < n, x i ≠ 0)
    (hinj : ∀ i < n, ∀ j < n, x i = x j → i = j)
    (hentry : ∀ r < n, ∀ i < n, entry rows r i = x i ^ (r + 1)) (hz : Solves n n rows z) :
    ∀ c < n, z c = 0 := by
  have hsum : ∀ r : Fin n, ∑ j : Fin n, z j * x j * x j ^ (r : ℕ) = 0 := by
    intro r
    rw [← hz r r.isLt, dot, Finset.sum_range]
    refine sum_congr rfl fun j _ => ?_
    have hrow : (row rows r).getD j 0 = x j ^ ((r : ℕ) + 1) := hentry r r.isLt j j.isLt
    rw [hrow]
    ring
  have hfinj : Function.Injective fun j : Fin n => x j := fun i j hij =>
    Fin.ext (hinj i i.isLt j j.isLt hij)
  intro c hc
  have := congrFun (Matrix.eq_zero_of_forall_pow_sum_mul_pow_eq_zero hfinj hsum) ⟨c, hc⟩
  exact (mul_eq_zero.mp this).resolve_right (hne c hc)

omit [DecidableEq K] in
/-- A combination of the rows of such a matrix that vanishes in every column. -/
theorem eq_zero_of_forall_sum_powers {x u : ℕ → K} (hne : ∀ i < n, x i ≠ 0)
    (hinj : ∀ i < n, ∀ j < n, x i = x j → i = j)
    (hu : ∀ i < n, ∑ r ∈ range n, u r * x i ^ (r + 1) = 0) : ∀ r < n, u r = 0 := by
  have hfinj : Function.Injective fun j : Fin n => x j := fun i j hij =>
    Fin.ext (hinj i i.isLt j j.isLt hij)
  have hsum : ∀ j : Fin n, ∑ r : Fin n, x j ^ (r : ℕ) * u r = 0 := by
    intro j
    refine (mul_eq_zero.mp ?_).resolve_left (hne j j.isLt)
    rw [← hu j j.isLt, mul_sum, Finset.sum_range]
    refine sum_congr rfl fun r _ => ?_
    ring
  intro r hr
  exact congrFun (Matrix.eq_zero_of_forall_index_sum_pow_mul_eq_zero hfinj hsum) ⟨r, hr⟩

end GaussJordan
