import Mathlib.Data.List.Sort

/-!
# Relations along a sorted list

A stable sort keeps the order of elements with the same key. So whether a relation `Q` holds along
the sorted list can be read off the list itself: of two elements, the one with the smaller key
comes first, and the earlier one if the keys are the same (`pairwise_insertionSort_iff`).
-/

namespace List

variable {α : Type*} {r : α → α → Prop} [DecidableRel r] {Q : α → α → Prop}

/-- `Q` between two elements in the order the sort puts them in. -/
def SortedRel (r : α → α → Prop) [DecidableRel r] (Q : α → α → Prop) (a b : α) : Prop :=
  if r a b then Q a b else Q b a

theorem pairwise_orderedInsert_iff [IsTrans α r] {a : α} {l : List α} (hl : l.Pairwise r) :
    (l.orderedInsert r a).Pairwise Q ↔ (∀ b ∈ l, SortedRel r Q a b) ∧ l.Pairwise Q := by
  induction l with
  | nil => simp
  | cons b l ih =>
    obtain ⟨hb, hl⟩ := pairwise_cons.mp hl
    by_cases hab : r a b
    · -- everything behind the new element is at least as large
      have hall : ∀ c ∈ b :: l, SortedRel r Q a c ↔ Q a c := by
        intro c hc
        have hac : r a c := by
          rcases mem_cons.mp hc with rfl | hc
          · exact hab
          · exact trans_of r hab (hb c hc)
        rw [SortedRel, if_pos hac]
      rw [orderedInsert_cons, if_pos hab, pairwise_cons]
      exact and_congr_left fun _ => forall₂_congr fun c hc => (hall c hc).symm
    · have hmem : (∀ c ∈ l.orderedInsert r a, Q b c) ↔ Q b a ∧ ∀ c ∈ l, Q b c := by
        simp only [mem_orderedInsert, forall_eq_or_imp]
      have hba : SortedRel r Q a b ↔ Q b a := by rw [SortedRel, if_neg hab]
      rw [orderedInsert_cons, if_neg hab, pairwise_cons, pairwise_cons, forall_mem_cons, hmem,
        ih hl, hba]
      tauto

theorem pairwise_insertionSort_iff [Std.Total r] [IsTrans α r] (l : List α) :
    (l.insertionSort r).Pairwise Q ↔ l.Pairwise (SortedRel r Q) := by
  induction l with
  | nil => simp
  | cons a l ih =>
    rw [insertionSort_cons, pairwise_orderedInsert_iff (pairwise_insertionSort r l), ih,
      pairwise_cons]
    simp only [(perm_insertionSort r l).mem_iff]

end List
