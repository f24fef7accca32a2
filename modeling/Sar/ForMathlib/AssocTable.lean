import Mathlib.Algebra.GroupWithZero.Nat
import Mathlib.Data.List.AList

/-!
# Tables

A table is an association list with different keys whose values all have one type. Beyond the
operations of `AList`, a table's value can be changed in place (`modify`) and its entries can be
selected by their values (`retain`); lookups after each operation are equations on `lookup`.
-/

/-- A finite map. -/
abbrev Table (K V : Type) := AList fun _ : K => V

namespace Table

open List

variable {K V : Type} [DecidableEq K]

/-- Change the value of a key, if it has one. -/
def modify (k : K) (f : V → V) (m : Table K V) : Table K V :=
  match m.lookup k with
  | some v => m.insert k (f v)
  | none => m

/-- Keep the entries whose value satisfies the condition. -/
def retain (p : V → Bool) (m : Table K V) : Table K V :=
  ⟨m.entries.filter fun e => p e.2, m.nodupKeys.sublist filter_sublist⟩

/-- The number of entries. -/
def size (m : Table K V) : ℕ := m.entries.length

/-- The number of entries whose value satisfies the condition. -/
def countValues (p : V → Bool) (m : Table K V) : ℕ := m.entries.countP fun e => p e.2

/-- The sum of a measure over the values. -/
def sumValues (f : V → ℕ) (m : Table K V) : ℕ := (m.entries.map fun e => f e.2).sum

theorem lookup_insert_eq (k k' : K) (v : V) (m : Table K V) :
    AList.lookup k' (m.insert k v) = if k' = k then some v else m.lookup k' := by
  split
  · next h =>
    subst h
    exact AList.lookup_insert m
  · next h => exact AList.lookup_insert_ne h

theorem lookup_erase_eq (k k' : K) (m : Table K V) :
    AList.lookup k' (m.erase k) = if k' = k then none else m.lookup k' := by
  split
  · next h =>
    subst h
    exact AList.lookup_erase k' m
  · next h => exact AList.lookup_erase_ne h

theorem erase_insert (k : K) (v : V) (m : Table K V) :
    AList.erase k (m.insert k v) = AList.erase k m := by
  refine AList.ext ?_
  change List.kerase k (⟨k, v⟩ :: List.kerase k m.entries) = List.kerase k m.entries
  exact kerase_cons_eq rfl

theorem lookup_modify_eq (k k' : K) (f : V → V) (m : Table K V) :
    AList.lookup k' (modify k f m) = if k' = k then (m.lookup k).map f else m.lookup k' := by
  rw [modify]
  cases h : m.lookup k with
  | none =>
    by_cases hk : k' = k
    · rw [if_pos hk, hk, h, Option.map_none]
    · rw [if_neg hk]
  | some v => rw [lookup_insert_eq, Option.map_some]

theorem lookup_retain_eq (p : V → Bool) (k : K) (m : Table K V) :
    AList.lookup k (retain p m) = (m.lookup k).filter p := by
  refine Option.ext fun v => ?_
  rw [← Option.mem_def, AList.mem_lookup_iff, retain, mem_filter, ← AList.mem_lookup_iff,
    Option.mem_def, Option.filter_eq_some_iff]

/-- What is retained was there before. -/
theorem lookup_of_retain {p : V → Bool} {k : K} {v : V} {m : Table K V}
    (h : AList.lookup k (retain p m) = some v) : AList.lookup k m = some v := by
  rw [lookup_retain_eq] at h
  exact (Option.filter_eq_some_iff.mp h).1

/-! ### Sums over the values -/

section Sums

variable {f : V → ℕ} {k : K} {v : V} {m : Table K V}

theorem sumValues_insert (f : V → ℕ) (k : K) (v : V) (m : Table K V) :
    sumValues f (m.insert k v) = f v + sumValues f (m.erase k) := by
  rw [sumValues, AList.entries_insert, map_cons, sum_cons]
  rfl

/-- To insert a value that is there already only moves its entry. -/
theorem insert_entries_perm (h : m.lookup k = some v) :
    (AList.insert k v m).entries.Perm m.entries := by
  refine lookup_ext (AList.nodupKeys _) m.nodupKeys fun k' v' => ?_
  change v' ∈ AList.lookup k' (m.insert k v) ↔ v' ∈ AList.lookup k' m
  rw [lookup_insert_eq]
  split
  · next hk => rw [hk, h]
  · rfl

/-- The value of a key and the rest. -/
theorem sumValues_of_lookup (h : m.lookup k = some v) :
    sumValues f m = f v + sumValues f (m.erase k) := by
  rw [← sumValues_insert]
  exact (((insert_entries_perm h).map fun e : Sigma fun _ : K => V => f e.2).sum_nat).symm

theorem erase_of_lookup_eq_none (h : m.lookup k = none) : m.erase k = m := by
  refine AList.ext ?_
  change List.kerase k m.entries = m.entries
  exact kerase_of_notMem_keys fun hmem => by
    rw [← Option.not_isSome_iff_eq_none, AList.lookup_isSome] at h
    exact h hmem

theorem sumValues_erase_le : sumValues f (m.erase k) ≤ sumValues f m := by
  rcases hk : m.lookup k with _ | v
  · rw [erase_of_lookup_eq_none hk]
  · rw [sumValues_of_lookup hk]
    exact Nat.le_add_left _ _

theorem sumValues_insert_of_none (h : m.lookup k = none) :
    sumValues f (m.insert k v) = sumValues f m + f v := by
  rw [sumValues_insert, erase_of_lookup_eq_none h, Nat.add_comm]

/-- The value of a key, if it has one, and the rest. -/
theorem sumValues_eq_add_erase (f : V → ℕ) (k : K) (m : Table K V) :
    sumValues f m = ((m.lookup k).map f).getD 0 + sumValues f (m.erase k) := by
  rcases hk : m.lookup k with _ | v
  · rw [erase_of_lookup_eq_none hk]
    exact (Nat.zero_add _).symm
  · exact sumValues_of_lookup hk

/-- Tables that agree up to one key. -/
theorem sumValues_erase_congr {m' : Table K V} (h : ∀ k', k' ≠ k → m'.lookup k' = m.lookup k') :
    sumValues f (m'.erase k) = sumValues f (m.erase k) := by
  have hperm : (m'.erase k).entries.Perm (m.erase k).entries := by
    refine lookup_ext (AList.nodupKeys _) (AList.nodupKeys _) fun k' v' => ?_
    change v' ∈ AList.lookup k' (m'.erase k) ↔ v' ∈ AList.lookup k' (m.erase k)
    rw [lookup_erase_eq, lookup_erase_eq]
    split
    · rfl
    · next hk => rw [h k' hk]
  exact (hperm.map fun e : Sigma fun _ : K => V => f e.2).sum_nat

/-- A table with at most one key. -/
theorem sumValues_of_single (h : ∀ k', k' ≠ k → m.lookup k' = none) :
    sumValues f m = ((m.lookup k).map f).getD 0 := by
  have hrest : sumValues f (m.erase k) = 0 := by
    have hnil : (m.erase k).entries = [] := by
      refine eq_nil_iff_forall_not_mem.mpr fun e he => ?_
      have hlookup : AList.lookup e.1 (m.erase k) = some e.2 := AList.mem_lookup_iff.mpr he
      rw [lookup_erase_eq] at hlookup
      split at hlookup
      · cases hlookup
      · next hk =>
        rw [h e.1 hk] at hlookup
        cases hlookup
    rw [sumValues, hnil]
    rfl
  rcases hk : m.lookup k with _ | v
  · rw [← erase_of_lookup_eq_none hk, hrest]
    rfl
  · rw [sumValues_of_lookup hk, hrest]
    rfl

theorem le_sumValues (h : m.lookup k = some v) : f v ≤ sumValues f m := by
  rw [sumValues_of_lookup h]
  exact Nat.le_add_right _ _

omit [DecidableEq K] in
theorem size_eq_sumValues (m : Table K V) : m.size = sumValues (fun _ => 1) m := by
  rw [size, sumValues, map_const', sum_replicate_nat, Nat.mul_one]

omit [DecidableEq K] in
theorem countValues_eq_sumValues (p : V → Bool) (m : Table K V) :
    m.countValues p = sumValues (fun v => (p v).toNat) m := by
  rw [countValues, sumValues]
  induction m.entries with
  | nil => rfl
  | cons e entries ih =>
    rw [countP_cons, map_cons, sum_cons, ih, Nat.add_comm]
    cases p e.2 <;> rfl

omit [DecidableEq K] in
theorem countValues_retain_le (p q : V → Bool) (m : Table K V) :
    (retain q m).countValues p ≤ m.countValues p :=
  filter_sublist.countP_le

end Sums

theorem mem_iff_exists_lookup {k : K} {m : Table K V} : k ∈ m ↔ ∃ v, m.lookup k = some v := by
  rw [← AList.lookup_isSome, Option.isSome_iff_exists]

theorem size_pos_of_mem {k : K} {m : Table K V} (h : k ∈ m) : 0 < m.size := by
  obtain ⟨v, hv⟩ := mem_iff_exists_lookup.mp h
  exact length_pos_of_mem (AList.mem_lookup_iff.mp hv)

theorem mem_of_lookup {k : K} {v : V} {m : Table K V} (h : m.lookup k = some v) : k ∈ m :=
  mem_iff_exists_lookup.mpr ⟨v, h⟩

/-- Two changes of one value, one after the other. -/
theorem modify_modify (k : K) (f g : V → V) (m : Table K V) :
    modify k g (modify k f m) = modify k (g ∘ f) m := by
  cases h : m.lookup k with
  | none => simp only [modify, h]
  | some v =>
    have hfirst : modify k f m = m.insert k (f v) := by rw [modify, h]
    have hlookup : AList.lookup k (m.insert k (f v)) = some (f v) := AList.lookup_insert m
    have hlast : modify k (g ∘ f) m = m.insert k (g (f v)) := by rw [modify, h]; rfl
    rw [hfirst, hlast, modify, hlookup]
    exact AList.insert_insert m

end Table
