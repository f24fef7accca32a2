import Sar.ForMathlib.ExceptLemmas
import Sar.ForMathlib.InsertionSort
import Sar.Fragmentation.Group

/-!
# What fragment validation and reassembly mean

`validate_fragment_group` sorts the descriptors by offset and compares neighbours. It refuses
descriptors that share a byte, and also an empty one that the sort puts behind the start of another
one, so the order of the group can decide (`validateFragmentGroup_order_independent_iff`).

`reconstruct_fragments` puts a file back together that was cut into pieces, in any order
(`reconstructFragments_of_cut`). The order never matters (`reconstructFragments_perm`), and every
byte comes from the fragment that covers it (`reconstructFragments_holds`). In the other direction
it looks at neighbours only: a group that starts with a later index, that has the last-fragment
marker in the middle or that is empty passes as complete (`complete_iff`).
-/

namespace Sar

open Scatter List
open Except (rejectIf bind_eq_ok_iff pure_eq_ok ok_bind exists_unit rejectIf_of_not
  rejectIf_eq_ok_iff rejectIf_bind)

/-- The fragment's byte range holds position `i`. -/
def FragmentEntry.Covers (f : FragmentEntry) (i : ℕ) : Prop :=
  f.descriptor.absoluteOffset.toNat ≤ i ∧ i < f.descriptor.stop

instance (f : FragmentEntry) (i : ℕ) : Decidable (f.Covers i) :=
  inferInstanceAs (Decidable (_ ∧ _))

/-- One fragment ends before the other starts. -/
def FragmentEntry.Before (f g : FragmentEntry) : Prop :=
  f.descriptor.stop ≤ g.descriptor.absoluteOffset.toNat

/-- The key of the second sort. -/
def FragmentEntry.offsetLe (f g : FragmentEntry) : Prop :=
  f.descriptor.absoluteOffset ≤ g.descriptor.absoluteOffset

theorem FragmentEntry.offset_le_stop (f : FragmentEntry) :
    f.descriptor.absoluteOffset.toNat ≤ f.descriptor.stop :=
  Nat.le_add_right _ _

variable {fragments sorted : List FragmentEntry} {logicalSize a b : ℕ} {limits : FragmentLimits}

/-! ### Validation -/

theorem checkFragmentBounds_eq_ok_iff (hn : logicalSize ≤ u64Max) :
    checkFragmentBounds logicalSize fragments = .ok () ↔
      ∀ f ∈ fragments, f.descriptor.stop ≤ logicalSize := by
  induction fragments with
  | nil => simp [checkFragmentBounds, pure_eq_ok]
  | cons f fs ih =>
    simp only [checkFragmentBounds, bind_eq_ok_iff, exists_unit,
      rejectIf_eq_ok_iff, ih, forall_mem_cons]
    constructor
    · rintro ⟨-, hstop, hrest⟩
      exact ⟨by omega, hrest⟩
    · rintro ⟨hstop, hrest⟩
      exact ⟨by omega, by omega, hrest⟩

/-- The overlap loop accepts fragments that come one after the other. -/
theorem checkFragmentOverlap_eq_ok_iff (hstop : ∀ f ∈ fragments, f.descriptor.stop ≤ u64Max) :
    checkFragmentOverlap a fragments = .ok () ↔
      (∀ f ∈ fragments, a ≤ f.descriptor.absoluteOffset.toNat) ∧
        fragments.Pairwise FragmentEntry.Before := by
  induction fragments generalizing a with
  | nil => simp [checkFragmentOverlap, pure_eq_ok]
  | cons f fs ih =>
    obtain ⟨hf, hfs⟩ := forall_mem_cons.mp hstop
    simp only [checkFragmentOverlap, bind_eq_ok_iff, exists_unit,
      rejectIf_eq_ok_iff, ih hfs, forall_mem_cons, pairwise_cons]
    constructor
    · rintro ⟨hle, -, hlater, hrest⟩
      refine ⟨⟨by omega, fun g hg => ?_⟩, hlater, hrest⟩
      have hg' := hlater g hg
      have hle' := f.offset_le_stop
      omega
    · rintro ⟨⟨hle, -⟩, hlater, hrest⟩
      exact ⟨by omega, by omega, hlater, hrest⟩

instance : DecidableRel FragmentEntry.offsetLe := fun f g =>
  inferInstanceAs (Decidable (f.descriptor.absoluteOffset ≤ g.descriptor.absoluteOffset))

instance : Std.Total FragmentEntry.offsetLe where
  total f g := UInt64.le_total f.descriptor.absoluteOffset g.descriptor.absoluteOffset

instance : IsTrans FragmentEntry FragmentEntry.offsetLe where
  trans _ _ _ := UInt64.le_trans

/-- The limits of a group are met. -/
def FragmentLimits.Admit (limits : FragmentLimits) (fragments : List FragmentEntry)
    (logicalSize : ℕ) : Prop :=
  fragments.length ≤ limits.maxFragmentCount ∧ logicalSize ≤ limits.maxFragmentGroupSpan

/-- What `validate_fragment_group` accepts: of two fragments, the one that the sort puts first ends
before the other starts. -/
theorem validateFragmentGroup_eq_ok_iff (hn : logicalSize ≤ u64Max) :
    validateFragmentGroup fragments logicalSize limits = .ok () ↔
      limits.Admit fragments logicalSize ∧ (∀ f ∈ fragments, f.descriptor.stop ≤ logicalSize) ∧
        fragments.Pairwise
          (List.SortedRel FragmentEntry.offsetLe FragmentEntry.Before) := by
  simp only [validateFragmentGroup, FragmentLimits.checkFragmentCount,
    FragmentLimits.checkFragmentGroupSpan, FragmentLimits.atMost, bind_eq_ok_iff,
    exists_unit, rejectIf_eq_ok_iff, checkFragmentBounds_eq_ok_iff hn, not_lt,
    gt_iff_lt, FragmentLimits.Admit, and_assoc]
  refine and_congr_right fun _ => and_congr_right fun _ => and_congr_right fun hbounds => ?_
  have hmem : ∀ f ∈ sortByOffset fragments, f.descriptor.stop ≤ u64Max := fun f hf =>
    (hbounds f ((perm_insertionSort _ _).mem_iff.mp hf)).trans hn
  rw [checkFragmentOverlap_eq_ok_iff hmem, and_iff_right fun _ _ => Nat.zero_le _]
  exact pairwise_insertionSort_iff (r := FragmentEntry.offsetLe) fragments

/-- No two fragments share a byte. -/
def FragmentsApart (fragments : List FragmentEntry) : Prop :=
  fragments.Pairwise fun f g => ∀ i, ¬ (f.Covers i ∧ g.Covers i)

/-- An empty fragment starts inside the range of another one. -/
def EmptyInside (fragments : List FragmentEntry) : Prop :=
  ∃ f ∈ fragments, ∃ g ∈ fragments, f.descriptor.fragmentSize = 0 ∧
    g.Covers f.descriptor.absoluteOffset.toNat

theorem fragmentsApart_perm {l l' : List FragmentEntry} (h : l.Perm l') :
    FragmentsApart l ↔ FragmentsApart l' :=
  h.pairwise_iff fun h i hi => h i hi.symm

/-- Fragments that the scan accepts share no byte. -/
theorem not_covers_of_sortedRel {f g : FragmentEntry}
    (h : List.SortedRel FragmentEntry.offsetLe FragmentEntry.Before f g) (i : ℕ) :
    ¬ (f.Covers i ∧ g.Covers i) := by
  rintro ⟨⟨hf, hf'⟩, hg, hg'⟩
  rw [List.SortedRel] at h
  split at h
  · rw [FragmentEntry.Before] at h
    omega
  · rw [FragmentEntry.Before] at h
    omega

/-- Without an empty fragment inside another one, the converse holds in either order. -/
theorem before_of_not_covers {f g : FragmentEntry}
    (hle : f.descriptor.absoluteOffset.toNat ≤ g.descriptor.absoluteOffset.toNat)
    (happart : ∀ i, ¬ (f.Covers i ∧ g.Covers i))
    (hempty : g.descriptor.fragmentSize = 0 → ¬ f.Covers g.descriptor.absoluteOffset.toNat) :
    f.Before g := by
  by_contra hlt
  rw [FragmentEntry.Before, Nat.not_le] at hlt
  by_cases hzero : g.descriptor.fragmentSize = 0
  · exact hempty hzero ⟨hle, hlt⟩
  · have hpos : 0 < g.descriptor.fragmentSize.toNat :=
      Nat.pos_of_ne_zero fun h => hzero (UInt32.toNat_inj.mp h)
    refine happart _ ⟨⟨hle, hlt⟩, le_rfl, ?_⟩
    rw [FragmentDescriptor.stop]
    omega

theorem pairwise_sortedRel (hapart : FragmentsApart fragments) (hempty : ¬ EmptyInside fragments) :
    fragments.Pairwise (List.SortedRel FragmentEntry.offsetLe FragmentEntry.Before) := by
  have hnone : ∀ f ∈ fragments, ∀ g ∈ fragments, g.descriptor.fragmentSize = 0 →
      ¬ f.Covers g.descriptor.absoluteOffset.toNat := fun f hf g hg hzero hcovers =>
    hempty ⟨g, hg, f, hf, hzero, hcovers⟩
  refine hapart.imp_of_mem fun {f g} hf hg happart => ?_
  rw [List.SortedRel]
  split
  · next hle => exact before_of_not_covers hle happart (hnone f hf g hg)
  · next hlt =>
    have hle := (Nat.lt_of_not_le hlt).le
    exact before_of_not_covers hle (fun i hi => happart i hi.symm) (hnone g hg f hf)

/-- **Validation is order-independent and means disjointness** exactly for the groups in which no
empty fragment starts inside the range of another one, or that are refused for another reason. -/
theorem validateFragmentGroup_order_independent_iff (fragments : List FragmentEntry)
    (logicalSize : UInt64) (limits : FragmentLimits) :
    ((∀ l', l'.Perm fragments →
        (validateFragmentGroup l' logicalSize.toNat limits = .ok () ↔
          validateFragmentGroup fragments logicalSize.toNat limits = .ok ())) ∧
      (limits.Admit fragments logicalSize.toNat →
        (validateFragmentGroup fragments logicalSize.toNat limits = .ok () ↔
          (∀ f ∈ fragments, f.descriptor.stop ≤ logicalSize.toNat) ∧
            FragmentsApart fragments))) ↔
    (limits.Admit fragments logicalSize.toNat →
      (∀ f ∈ fragments, f.descriptor.stop ≤ logicalSize.toNat) → FragmentsApart fragments →
        ¬ EmptyInside fragments) := by
  have hn : logicalSize.toNat ≤ u64Max := Nat.le_of_lt_succ logicalSize.toNat_lt
  constructor
  · rintro ⟨hperm, hmeans⟩ hlimits hbounds hapart ⟨f, hf, g, hg, hzero, hcovers⟩
    classical
    -- put the empty fragment right behind the one it lies in
    have hne : f ≠ g := by
      rintro rfl
      have hlt := hcovers.2
      rw [FragmentDescriptor.stop, hzero] at hlt
      exact absurd hlt (lt_irrefl _)
    have hf' : f ∈ fragments.erase g := (mem_erase_of_ne hne).mpr hf
    have hmoved := (perm_cons_erase hg).trans ((perm_cons_erase hf').cons g)
    have hok := (hperm _ hmoved.symm).mpr ((hmeans hlimits).mpr ⟨hbounds, hapart⟩)
    obtain ⟨-, -, hpairs⟩ := (validateFragmentGroup_eq_ok_iff hn).mp hok
    have hrel := (pairwise_cons.mp hpairs).1 f mem_cons_self
    rw [List.SortedRel, if_pos (show g.offsetLe f from hcovers.1)] at hrel
    exact absurd hcovers.2 (Nat.not_lt.mpr hrel)
  · intro hcond
    have hverdict : ∀ l', l'.Perm fragments →
        (validateFragmentGroup l' logicalSize.toNat limits = .ok () ↔
          limits.Admit fragments logicalSize.toNat ∧
          (∀ f ∈ fragments, f.descriptor.stop ≤ logicalSize.toNat) ∧
          FragmentsApart fragments) := by
      intro l' hl'
      rw [validateFragmentGroup_eq_ok_iff hn, FragmentLimits.Admit, hl'.length_eq]
      simp only [hl'.mem_iff]
      refine and_congr_right fun hlimits => and_congr_right fun hbounds => ?_
      rw [← fragmentsApart_perm hl']
      refine ⟨fun hpairs => hpairs.imp not_covers_of_sortedRel, fun hapart => ?_⟩
      have hempty := hcond hlimits hbounds ((fragmentsApart_perm hl').mp hapart)
      refine pairwise_sortedRel hapart fun hcovered => hempty ?_
      obtain ⟨f, hf, g, hg, h⟩ := hcovered
      exact ⟨f, hl'.mem_iff.mp hf, g, hl'.mem_iff.mp hg, h⟩
    refine ⟨fun l' hl' => (hverdict l' hl').trans (hverdict fragments (.refl _)).symm, ?_⟩
    exact fun hlimits => (hverdict fragments (.refl _)).trans (and_iff_right hlimits)

/-- Five bytes at the start of the file. -/
def exampleFive : FragmentEntry := ⟨0, false, false, ⟨0, 5⟩, [1, 2, 3, 4, 5]⟩

/-- An empty piece at the same place. -/
def exampleEmpty : FragmentEntry := ⟨1, true, false, ⟨0, 0⟩, []⟩

/-- The same two descriptors in either order. -/
theorem validateFragmentGroup_order_decides :
    validateFragmentGroup [exampleEmpty, exampleFive] 5 ⟨9, 9, 9, 9, 9⟩ = .ok () ∧
      validateFragmentGroup [exampleFive, exampleEmpty] 5 ⟨9, 9, 9, 9, 9⟩ =
        .error (.invalidMap "fragment descriptors overlap") := by
  decide +kernel

/-! ### Neighbours -/

/-- Each fragment starts where the one before it ends, from `a` up to `b`. -/
def Contiguous : ℕ → List FragmentEntry → ℕ → Prop
  | a, [], b => a = b
  | a, f :: fs, b => f.descriptor.absoluteOffset.toNat = a ∧ Contiguous f.descriptor.stop fs b

theorem Contiguous.le (h : Contiguous a fragments b) :
    a ≤ b ∧ ∀ f ∈ fragments, a ≤ f.descriptor.absoluteOffset.toNat ∧ f.descriptor.stop ≤ b := by
  induction fragments generalizing a with
  | nil => exact ⟨Nat.le_of_eq h, fun _ hf => nomatch hf⟩
  | cons f fs ih =>
    obtain ⟨rfl, hrest⟩ := h
    obtain ⟨hle, hfs⟩ := ih hrest
    have hstop := f.offset_le_stop
    refine ⟨hstop.trans hle, forall_mem_cons.mpr ⟨⟨le_rfl, hle⟩, fun g hg => ?_⟩⟩
    exact ⟨hstop.trans (hfs g hg).1, (hfs g hg).2⟩

theorem Contiguous.end_le (h : Contiguous a fragments b) (ha : a ≤ logicalSize)
    (hstop : ∀ f ∈ fragments, f.descriptor.stop ≤ logicalSize) : b ≤ logicalSize := by
  induction fragments generalizing a with
  | nil => exact (Nat.le_of_eq (Eq.symm h)).trans ha
  | cons f fs ih =>
    obtain ⟨hf, hfs⟩ := forall_mem_cons.mp hstop
    exact ih h.2 hf hfs

theorem Contiguous.pairwise (h : Contiguous a fragments b) :
    fragments.Pairwise FragmentEntry.Before := by
  induction fragments generalizing a with
  | nil => exact .nil
  | cons f fs ih => exact .cons (fun g hg => (h.2.le.2 g hg).1) (ih h.2)

/-- Contiguous fragments cover each position once. -/
theorem Contiguous.countP_covers (h : Contiguous a fragments b) (i : ℕ) :
    fragments.countP (fun f => f.Covers i) = if a ≤ i ∧ i < b then 1 else 0 := by
  induction fragments generalizing a with
  | nil =>
    obtain rfl : a = b := h
    rw [countP_nil, if_neg (by omega)]
  | cons f fs ih =>
    obtain ⟨rfl, hrest⟩ := h
    have hle := hrest.le.1
    have hstop := f.offset_le_stop
    have hcovers : f.Covers i ↔ f.descriptor.absoluteOffset.toNat ≤ i ∧ i < f.descriptor.stop :=
      Iff.rfl
    rw [countP_cons, ih hrest]
    simp only [decide_eq_true_eq, hcovers]
    split_ifs <;> omega

/-- A gap that was seen is reported. -/
theorem descriptorGaps_of_gap {tolerant hasGap : Bool}
    (h : descriptorGaps tolerant limits a true fragments = .ok (b, hasGap)) : hasGap = true := by
  induction fragments generalizing a with
  | nil => exact (Prod.mk.inj (Except.ok.inj h)).2.symm
  | cons f fs ih =>
    simp only [descriptorGaps, bind_eq_ok_iff, exists_unit] at h
    obtain ⟨-, h⟩ := h
    split at h
    · simp only [bind_eq_ok_iff, exists_unit] at h
      exact ih h.2.2
    · simp only [bind_eq_ok_iff, exists_unit] at h
      exact ih h.2

/-- Fragments without overlap and without gap are contiguous. -/
theorem contiguous_iff {tolerant : Bool} (hstop : ∀ f ∈ fragments, f.descriptor.stop ≤ u64Max) :
    checkFragmentOverlap a fragments = .ok () ∧
        descriptorGaps tolerant limits a false fragments = .ok (b, false) ↔
      Contiguous a fragments b := by
  induction fragments generalizing a with
  | nil => simp [checkFragmentOverlap, descriptorGaps, Contiguous, pure_eq_ok]
  | cons f fs ih =>
    obtain ⟨hf, hfs⟩ := forall_mem_cons.mp hstop
    rw [Contiguous, ← ih hfs]
    by_cases hgap : f.descriptor.absoluteOffset.toNat > a
    · refine iff_of_false (fun h => ?_) fun h => absurd h.1 hgap.ne'
      have hgaps := h.2
      simp only [descriptorGaps, hgap, decide_true, if_true, Bool.or_true, bind_eq_ok_iff,
        exists_unit] at hgaps
      cases descriptorGaps_of_gap hgaps.2.2.2
    · simp only [checkFragmentOverlap, descriptorGaps, hgap, decide_false, Bool.false_and,
        Bool.or_false, Bool.false_eq_true, if_false, rejectIf_of_not (Nat.not_lt.mpr hf),
        rejectIf_of_not id, ok_bind, bind_eq_ok_iff, exists_unit, rejectIf_eq_ok_iff]
      constructor
      · rintro ⟨⟨hle, hover⟩, hgaps⟩
        exact ⟨by omega, hover, hgaps⟩
      · rintro ⟨heq, hover, hgaps⟩
        exact ⟨⟨by omega, hover⟩, hgaps⟩

/-- Sorted indices without a duplicate and without a break are consecutive. -/
theorem map_index_iff {f : FragmentEntry} {fs : List FragmentEntry}
    (hsorted : (f :: fs).Pairwise fun f g => f.fragmentIndex ≤ g.fragmentIndex) :
    hasDuplicateIndex (f :: fs) = false ∧ hasIndexBreak (f :: fs) = false ↔
      (f :: fs).map (·.fragmentIndex.toNat) =
        List.range' f.fragmentIndex.toNat (fs.length + 1) := by
  induction fs generalizing f with
  | nil => simp [hasDuplicateIndex, hasIndexBreak]
  | cons g fs ih =>
    obtain ⟨hf, hfs⟩ := pairwise_cons.mp hsorted
    have hle := UInt32.le_iff_toNat_le.mp (hf g mem_cons_self)
    -- the successor of the last index is zero, which is not greater
    have hnext : f.fragmentIndex ≠ g.fragmentIndex ∧ g.fragmentIndex = f.fragmentIndex + 1 ↔
        g.fragmentIndex.toNat = f.fragmentIndex.toNat + 1 := by
      have hlt := g.fragmentIndex.toNat_lt
      rw [Ne, ← UInt32.toNat_inj, ← UInt32.toNat_inj, UInt32.toNat_add]
      have hone : (1 : UInt32).toNat = 1 := rfl
      rw [hone]
      omega
    rw [hasDuplicateIndex, hasIndexBreak, Bool.or_eq_false_iff, Bool.or_eq_false_iff,
      map_cons, length_cons, List.range'_succ, List.cons.injEq, and_iff_right rfl]
    constructor
    · rintro ⟨⟨hne, hdup⟩, hstep, hbreak⟩
      have hg := hnext.mp ⟨by simpa using hne, by simpa using hstep⟩
      rw [(ih hfs).mp ⟨hdup, hbreak⟩, hg]
    · intro hmap
      have hg : g.fragmentIndex.toNat = f.fragmentIndex.toNat + 1 := by
        rw [List.range'_succ] at hmap
        exact (List.cons.inj hmap).1
      rw [← hg] at hmap
      obtain ⟨hdup, hbreak⟩ := (ih hfs).mpr hmap
      obtain ⟨hne, hstep⟩ := hnext.mpr hg
      exact ⟨⟨by simpa using hne, hdup⟩, by simpa using hstep, hbreak⟩

/-- The pieces that the scatter loop writes. -/
def fragmentPieces (fragments : List FragmentEntry) : List (Piece UInt8) :=
  fragments.map fun f => (f.descriptor.absoluteOffset.toNat, f.payload)

theorem scatterFragments_eq_ok_iff {output out : Bytes} (hn : logicalSize ≤ u64Max) :
    scatterFragments logicalSize fragments output = .ok out ↔
      (∀ p ∈ fragmentPieces fragments, Inside logicalSize p) ∧
        out = scatter (fragmentPieces fragments) output := by
  induction fragments generalizing output with
  | nil => simp [scatterFragments, fragmentPieces, scatter, pure_eq_ok, eq_comm]
  | cons f fs ih =>
    simp only [scatterFragments, bind_eq_ok_iff, exists_unit, rejectIf_eq_ok_iff, ih,
      fragmentPieces, map_cons, forall_mem_cons, scatter_cons, Inside, and_assoc]
    constructor
    · rintro ⟨-, hin, hrest⟩
      exact ⟨by omega, hrest⟩
    · rintro ⟨hin, hrest⟩
      exact ⟨by omega, by omega, hrest⟩

/-! ### Reassembly -/

theorem sortByOffset_perm (fragments : List FragmentEntry) :
    (sortByOffset fragments).Perm fragments :=
  perm_insertionSort _ _

/-- When the sorted group is put together without loss. -/
theorem reconstructSorted_eq_ok_iff {out : Bytes} :
    reconstructSorted sorted logicalSize limits = .ok (out, false) ↔
      (hasDuplicateIndex sorted = false ∧ hasIndexBreak sorted = false) ∧
      (∀ f ∈ sorted, f.payload.length = f.descriptor.fragmentSize.toNat) ∧
      sorted.any (·.isLastFragment) = true ∧ limits.Admit sorted logicalSize ∧
      Contiguous 0 (sortByOffset sorted) logicalSize ∧
      logicalSize ≤ limits.maxAllocationBytes ∧ logicalSize ≤ isizeMax ∧
      (∀ p ∈ fragmentPieces sorted, Inside logicalSize p) ∧
      out = scatter (fragmentPieces sorted) (List.replicate logicalSize 0) := by
  have hwide : logicalSize ≤ isizeMax → logicalSize ≤ u64Max := fun h => h.trans (by decide)
  have hsizes_iff : ¬ (sorted.any fun f => f.payload.length != f.descriptor.fragmentSize.toNat) =
      true ↔ ∀ f ∈ sorted, f.payload.length = f.descriptor.fragmentSize.toNat := by
    simp
  simp only [reconstructSorted, FragmentLimits.allocationLen, FragmentLimits.atMost,
    bind_eq_ok_iff, exists_unit, rejectIf_eq_ok_iff, Prod.exists, hsizes_iff]
  constructor
  · rintro ⟨hdup, hsizes, -, hvalid, lastEnd, hasGap, hgaps, -, h⟩
    split at h
    · -- a gap at the end of the file is reported
      next htail =>
      simp only [bind_eq_ok_iff, pure_eq_ok, Except.ok.injEq, Prod.mk.injEq,
        htail, Bool.or_true, Bool.true_eq_false, and_false, exists_const] at h
    · next htail =>
      simp only [bind_eq_ok_iff, exists_unit, rejectIf_eq_ok_iff,
        pure_eq_ok, Except.ok.injEq, Prod.mk.injEq, Bool.or_eq_false_iff] at h
      obtain ⟨_, ⟨halloc, hisize, rfl⟩, _, hscatter, rfl, ⟨hlast, hbreak⟩, rfl, -⟩ := h
      have hn := hwide (Nat.not_lt.mp hisize)
      obtain ⟨hlimits, hbounds, -⟩ := (validateFragmentGroup_eq_ok_iff hn).mp hvalid
      have hstop : ∀ f ∈ sortByOffset sorted, f.descriptor.stop ≤ logicalSize := fun f hf =>
        hbounds f ((sortByOffset_perm sorted).mem_iff.mp hf)
      simp only [validateFragmentGroup, bind_eq_ok_iff, exists_unit] at hvalid
      have hcont := (contiguous_iff fun f hf => (hstop f hf).trans hn).mp ⟨hvalid.2.2.2, hgaps⟩
      obtain rfl : lastEnd = logicalSize := by
        refine le_antisymm (hcont.end_le (Nat.zero_le _) hstop) ?_
        simpa using htail
      obtain ⟨hin, hout⟩ := (scatterFragments_eq_ok_iff hn).mp hscatter
      exact ⟨⟨Bool.eq_false_iff.mpr hdup, hbreak⟩, hsizes, by simpa using hlast, hlimits, hcont,
        Nat.not_lt.mp halloc, Nat.not_lt.mp hisize, hin, hout⟩
  · rintro ⟨⟨hdup, hbreak⟩, hsizes, hlast, hlimits, hcont, halloc, hisize, hin, rfl⟩
    have hn := hwide hisize
    have hbounds : ∀ f ∈ sorted, f.descriptor.stop ≤ logicalSize := fun f hf =>
      (hcont.le.2 f ((sortByOffset_perm sorted).mem_iff.mpr hf)).2
    have hstop : ∀ f ∈ sortByOffset sorted, f.descriptor.stop ≤ u64Max := fun f hf =>
      (hcont.le.2 f hf).2.trans hn
    obtain ⟨hover, hgaps⟩ := (contiguous_iff hstop).mpr hcont
    have hvalid : validateFragmentGroup sorted logicalSize limits = .ok () := by
      simp only [validateFragmentGroup, FragmentLimits.checkFragmentCount,
        FragmentLimits.checkFragmentGroupSpan, FragmentLimits.atMost, bind_eq_ok_iff,
        exists_unit, rejectIf_eq_ok_iff]
      exact ⟨Nat.not_lt.mpr hlimits.1, Nat.not_lt.mpr hlimits.2,
        (checkFragmentBounds_eq_ok_iff hn).mpr hbounds, hover⟩
    refine ⟨by simp [hdup], hsizes, by simp [hlast, hbreak], hvalid, logicalSize, false, hgaps,
      by simp, ?_⟩
    rw [if_neg (by simp), rejectIf_of_not (Nat.not_lt.mpr halloc),
      rejectIf_of_not (Nat.not_lt.mpr hisize)]
    simp only [ok_bind, pure_eq_ok, (scatterFragments_eq_ok_iff hn).mpr ⟨hin, rfl⟩, hlast, hbreak]
    simp

/-! ### A file that was cut -/

/-- The string was cut into pieces, one after the other, and each became a fragment with its place
in the string and in the group; the last one is marked. -/
structure Cut (sorted : List FragmentEntry) (string : Bytes) : Prop where
  indices : sorted.map (·.fragmentIndex.toNat) = List.range sorted.length
  contiguous : Contiguous 0 sorted string.length
  sizes : ∀ f ∈ sorted, f.payload.length = f.descriptor.fragmentSize.toNat
  last : ∀ f ∈ sorted, f.fragmentIndex.toNat + 1 = sorted.length → f.isLastFragment = true
  bytes : sorted.flatMap (·.payload) = string

/-- Pieces that are contiguous are written one behind the other. -/
theorem scatter_contiguous {pre zeros : Bytes} (h : Contiguous a fragments b)
    (hsizes : ∀ f ∈ fragments, f.payload.length = f.descriptor.fragmentSize.toNat)
    (hpre : pre.length = a) (hzeros : a + zeros.length = b) :
    scatter (fragmentPieces fragments) (pre ++ zeros) = pre ++ fragments.flatMap (·.payload) := by
  induction fragments generalizing a pre zeros with
  | nil =>
    obtain rfl : a = b := h
    obtain rfl : zeros = [] := eq_nil_of_length_eq_zero (by omega)
    rfl
  | cons f fs ih =>
    obtain ⟨hoff, hrest⟩ := h
    obtain ⟨hf, hfs⟩ := forall_mem_cons.mp hsizes
    have hle := hrest.le.1
    have hstop : f.descriptor.stop = a + f.payload.length := by
      rw [FragmentDescriptor.stop, hoff, hf]
    have hwrite : overwrite (pre ++ zeros) f.descriptor.absoluteOffset.toNat f.payload =
        (pre ++ f.payload) ++ zeros.drop f.payload.length := by
      rw [overwrite, hoff, ← hpre, take_left, drop_length_add_append, append_assoc]
    rw [fragmentPieces, map_cons, scatter_cons]
    dsimp only
    rw [hwrite, flatMap_cons, ← append_assoc]
    refine ih hrest hfs ?_ ?_
    · rw [length_append, hpre, hstop]
    · rw [length_drop]
      omega

theorem sortByIndex_pairwise (fragments : List FragmentEntry) :
    (sortByIndex fragments).Pairwise fun f g => f.fragmentIndex ≤ g.fragmentIndex := by
  have : Std.Total fun f g : FragmentEntry => f.fragmentIndex ≤ g.fragmentIndex :=
    ⟨fun _ _ => UInt32.le_total _ _⟩
  have : IsTrans FragmentEntry fun f g => f.fragmentIndex ≤ g.fragmentIndex :=
    ⟨fun _ _ _ => UInt32.le_trans⟩
  exact pairwise_insertionSort _ fragments

/-- The fragments of a cut are put in their order. -/
theorem Cut.sortByIndex_eq {string : Bytes} (h : Cut sorted string)
    (hperm : fragments.Perm sorted) : sortByIndex fragments = sorted := by
  have hlt : (sorted.map (·.fragmentIndex.toNat)).Pairwise (· < ·) :=
    h.indices ▸ pairwise_lt_range
  have hinj := inj_on_of_nodup_map (hlt.imp Nat.ne_of_lt)
  have hsorted : (sortByIndex fragments).Perm sorted := (perm_insertionSort _ _).trans hperm
  refine hsorted.eq_of_pairwise (fun f g hf hg hle hle' => ?_) (sortByIndex_pairwise fragments) ?_
  · exact hinj (hsorted.mem_iff.mp hf) hg (Nat.le_antisymm hle hle')
  · exact (pairwise_map.mp hlt).imp fun h => (Nat.le_of_lt h :)

/-- **Reassembly inverts splitting**: the pieces of a string, in any order and with any
loss-tolerance bits, give back the string. -/
theorem reconstructFragments_of_cut {string : Bytes} (hcut : Cut sorted string)
    (hperm : fragments.Perm sorted) (hisize : string.length ≤ isizeMax)
    (hcount : fragments.length ≤ limits.maxFragmentCount)
    (hspan : string.length ≤ limits.maxFragmentGroupSpan)
    (hdecoded : string.length ≤ limits.maxDecodedEntrySize)
    (halloc : string.length ≤ limits.maxAllocationBytes) :
    reconstructFragments fragments string.length limits = .ok (string, false) := by
  rw [reconstructFragments, FragmentLimits.checkFragmentCount,
    FragmentLimits.checkFragmentGroupSpan, FragmentLimits.checkDecodedEntrySize,
    FragmentLimits.atMost, rejectIf_bind (Nat.not_lt.mpr hcount), FragmentLimits.atMost,
    rejectIf_bind (Nat.not_lt.mpr hspan), FragmentLimits.atMost,
    rejectIf_bind (Nat.not_lt.mpr hdecoded), hcut.sortByIndex_eq hperm]
  have hbytes := hcut.bytes
  rcases hsorted : sorted with _ | ⟨f, fs⟩
  · rw [hsorted] at hperm hbytes
    obtain rfl := hperm.eq_nil
    obtain rfl : string = [] := hbytes.symm
    rfl
  · have hne : fragments.isEmpty = false := by
      rw [isEmpty_eq_false_iff]
      rintro rfl
      exact nomatch hsorted.symm.trans (nil_perm.mp hperm)
    rw [hne, ← hsorted]
    have hindices := hcut.indices
    have hzero : f.fragmentIndex.toNat = 0 := by
      rw [hsorted, length_cons, range_succ_eq_map] at hindices
      exact (List.cons.inj hindices).1
    have hlast : ∃ g ∈ sorted, g.fragmentIndex.toNat = sorted.length - 1 := by
      refine mem_map.mp ?_
      rw [hindices, mem_range, hsorted, length_cons]
      omega
    have hoffsets : sortByOffset sorted = sorted := by
      refine List.Pairwise.insertionSort_eq (hcut.contiguous.pairwise.imp fun {f g} h => ?_)
      exact UInt64.le_iff_toNat_le.mpr (f.offset_le_stop.trans h)
    refine reconstructSorted_eq_ok_iff.mpr ⟨?_, hcut.sizes, ?_, ?_, ?_, halloc, hisize, ?_, ?_⟩
    · have hordered := hcut.sortByIndex_eq hperm ▸ sortByIndex_pairwise fragments
      rw [hsorted] at hindices hordered ⊢
      rw [map_index_iff hordered, hzero, hindices, range_eq_range', length_cons]
    · obtain ⟨g, hg, hindex⟩ := hlast
      refine any_eq_true.mpr ⟨g, hg, hcut.last g hg ?_⟩
      rw [hindex, hsorted, length_cons]
      omega
    · exact ⟨hperm.length_eq ▸ hcount, hspan⟩
    · rw [hoffsets]
      exact hcut.contiguous
    · intro p hp
      obtain ⟨g, hg, rfl⟩ := mem_map.mp hp
      have hstop := (hcut.contiguous.le.2 g hg).2
      rwa [FragmentDescriptor.stop, ← hcut.sizes g hg] at hstop
    · have hscatter := @scatter_contiguous _ _ _ [] (List.replicate string.length 0)
        hcut.contiguous hcut.sizes rfl (by rw [length_replicate, Nat.zero_add])
      rw [nil_append, nil_append, hcut.bytes] at hscatter
      exact hscatter.symm

/-- Three pieces, one of them empty, that arrive in another order. -/
theorem reconstructFragments_of_cut_three :
    reconstructFragments [⟨2, true, true, ⟨2, 1⟩, [3]⟩, ⟨0, false, false, ⟨0, 2⟩, [1, 2]⟩,
      ⟨1, false, false, ⟨2, 0⟩, []⟩] 3 ⟨9, 9, 9, 9, 9⟩ = .ok ([1, 2, 3], false) := by
  have hcut : Cut [⟨0, false, false, ⟨0, 2⟩, [1, 2]⟩, ⟨1, false, false, ⟨2, 0⟩, []⟩,
      ⟨2, true, true, ⟨2, 1⟩, [3]⟩] [1, 2, 3] :=
    ⟨rfl, ⟨rfl, rfl, rfl, rfl⟩, by simp, by simp, rfl⟩
  refine reconstructFragments_of_cut hcut ?_ (by decide) (by decide) (by decide) (by decide)
    (by decide)
  exact (List.Perm.swap _ _ _).trans ((List.Perm.swap _ _ _).cons _)

/-! ### Groups that pass as complete -/

/-- The group is complete and `out` is the file it describes. -/
structure Complete (fragments : List FragmentEntry) (logicalSize : ℕ) (out : Bytes) : Prop where
  indices : (fragments.map (·.fragmentIndex.toNat)).Perm (List.range fragments.length)
  last : ∀ f ∈ fragments,
    f.isLastFragment = true ↔ f.fragmentIndex.toNat + 1 = fragments.length
  covered : ∀ i < logicalSize, fragments.countP (fun f => f.Covers i) = 1
  holds : ∀ f ∈ fragments, ∀ i, f.Covers i →
    out[i]? = f.payload[i - f.descriptor.absoluteOffset.toNat]?

/-- The group starts with index zero and marks only its greatest index, and a file with bytes has
fragments. -/
structure WellMarked (fragments : List FragmentEntry) (logicalSize : ℕ) : Prop where
  nonempty : fragments = [] → logicalSize = 0
  first : fragments ≠ [] → ∃ f ∈ fragments, f.fragmentIndex = 0
  last : ∀ f ∈ fragments, f.isLastFragment = true →
    ∀ g ∈ fragments, g.fragmentIndex ≤ f.fragmentIndex

theorem Complete.wellMarked {out : Bytes} (h : Complete fragments logicalSize out) :
    WellMarked fragments logicalSize := by
  have hmem : ∀ k, k < fragments.length ↔ ∃ f ∈ fragments, f.fragmentIndex.toNat = k := by
    intro k
    rw [← mem_range, ← h.indices.mem_iff, mem_map]
  refine ⟨?_, fun hne => ?_, fun f hf hlast g hg => ?_⟩
  · rintro rfl
    by_contra hpos
    exact nomatch h.covered 0 (Nat.pos_of_ne_zero hpos)
  · obtain ⟨f, hf, hzero⟩ := (hmem 0).mp (length_pos_of_ne_nil hne)
    exact ⟨f, hf, UInt32.toNat_inj.mp hzero⟩
  · have hf' := (h.last f hf).mp hlast
    have hg' := (hmem _).mpr ⟨g, hg, rfl⟩
    exact UInt32.le_iff_toNat_le.mpr (by omega)

/-- Where the fragments lie apart, the file holds the bytes of each of them. -/
theorem holds_of_contiguous (hcont : Contiguous 0 (sortByOffset sorted) logicalSize)
    (hsizes : ∀ f ∈ sorted, f.payload.length = f.descriptor.fragmentSize.toNat)
    (hin : ∀ p ∈ fragmentPieces sorted, Inside logicalSize p) {f : FragmentEntry} (hf : f ∈ sorted)
    {i : ℕ} (hi : f.Covers i) :
    (scatter (fragmentPieces sorted) (List.replicate logicalSize 0))[i]? =
      f.payload[i - f.descriptor.absoluteOffset.toNat]? := by
  have hpairs : sorted.Pairwise fun f g => f.Before g ∨ g.Before f :=
    ((sortByOffset_perm sorted).pairwise_iff Or.symm).mp (hcont.pairwise.imp Or.inl)
  have hapart : (fragmentPieces sorted).Pairwise Apart := by
    refine pairwise_map.mpr (hpairs.imp_of_mem fun {f g} hf hg hfg => ?_)
    rw [FragmentEntry.Before, FragmentEntry.Before, FragmentDescriptor.stop,
      FragmentDescriptor.stop, ← hsizes f hf, ← hsizes g hg] at hfg
    exact hfg
  refine getElem?_scatter_of_covers (by rwa [length_replicate]) hapart
    (mem_map_of_mem hf) ?_
  rwa [FragmentEntry.Covers, FragmentDescriptor.stop, ← hsizes f hf] at hi

/-- **When complete output means complete input**: a group that is put together without loss is
complete exactly when it is well marked. -/
theorem complete_iff {out : Bytes}
    (h : reconstructFragments fragments logicalSize limits = .ok (out, false)) :
    Complete fragments logicalSize out ↔ WellMarked fragments logicalSize := by
  refine ⟨Complete.wellMarked, fun hmarked => ?_⟩
  simp only [reconstructFragments, bind_eq_ok_iff, exists_unit] at h
  obtain ⟨-, -, -, h⟩ := h
  split at h
  · next hempty =>
    obtain rfl := List.isEmpty_iff.mp hempty
    obtain rfl := hmarked.nonempty rfl
    exact ⟨.refl _, by simp, by simp, by simp⟩
  · next hne =>
    rw [List.isEmpty_iff] at hne
    have hperm : (sortByIndex fragments).Perm fragments := perm_insertionSort _ _
    obtain ⟨hindex, hsizes, hany, -, hcont, -, -, hin, rfl⟩ := reconstructSorted_eq_ok_iff.mp h
    have hordered := sortByIndex_pairwise fragments
    -- the first index is zero, so the indices are those of the list
    have hindices : (fragments.map (·.fragmentIndex.toNat)).Perm (List.range fragments.length) := by
      refine (hperm.map _).symm.trans (.of_eq ?_)
      obtain ⟨z, hz, hzero⟩ := hmarked.first hne
      have hz' := hperm.mem_iff.mpr hz
      rw [← hperm.length_eq]
      rcases hsorted : sortByIndex fragments with _ | ⟨f, fs⟩
      · rw [hsorted] at hz'
        cases hz'
      · rw [hsorted] at hindex hordered hz'
        have hf : f.fragmentIndex.toNat = 0 := by
          rcases mem_cons.mp hz' with rfl | hmem
          · rw [hzero]
            rfl
          · have hle := (pairwise_cons.mp hordered).1 z hmem
            rw [hzero] at hle
            exact Nat.le_zero.mp hle
        rw [(map_index_iff hordered).mp hindex, hf, range_eq_range', length_cons]
    have hmem : ∀ k, k < fragments.length ↔ ∃ f ∈ fragments, f.fragmentIndex.toNat = k := by
      intro k
      rw [← mem_range, ← hindices.mem_iff, mem_map]
    have hmax : ∀ f ∈ fragments, f.isLastFragment = true →
        f.fragmentIndex.toNat + 1 = fragments.length := by
      intro f hf hlast
      have hlt := (hmem _).mpr ⟨f, hf, rfl⟩
      obtain ⟨g, hg, hgreatest⟩ := (hmem (fragments.length - 1)).mp (by omega)
      have hle := UInt32.le_iff_toNat_le.mp (hmarked.last f hf hlast g hg)
      omega
    refine ⟨hindices, fun f hf => ⟨hmax f hf, fun hgreatest => ?_⟩, fun i hi => ?_,
      fun f hf i hi => ?_⟩
    · obtain ⟨g, hg, hlast⟩ := any_eq_true.mp hany
      have hg' := hperm.mem_iff.mp hg
      have hnodup := hindices.nodup_iff.mpr nodup_range
      have hsame : f.fragmentIndex.toNat = g.fragmentIndex.toNat := by
        have hother := hmax g hg' hlast
        omega
      rwa [inj_on_of_nodup_map hnodup hf hg' hsame]
    · rw [← ((sortByOffset_perm _).trans hperm).countP_eq, hcont.countP_covers,
        if_pos ⟨Nat.zero_le _, hi⟩]
    · exact holds_of_contiguous hcont hsizes hin (hperm.mem_iff.mpr hf) hi

/-- Two fragments that arrive in the other order. -/
theorem complete_two :
    Complete [⟨1, true, false, ⟨1, 1⟩, [8]⟩, ⟨0, false, false, ⟨0, 1⟩, [7]⟩] 2 [7, 8] := by
  have hout : reconstructFragments [⟨1, true, false, ⟨1, 1⟩, [8]⟩, ⟨0, false, false, ⟨0, 1⟩, [7]⟩] 2
      ⟨9, 9, 9, 9, 9⟩ = .ok ([7, 8], false) := by decide +kernel
  exact (complete_iff hout).mpr ⟨by simp, by simp, by decide⟩

/-- Three groups that pass as complete: one without index zero, one with the marker on its first
fragment, and an empty one for three bytes. -/
theorem not_complete_groups :
    let limits : FragmentLimits := ⟨9, 9, 9, 9, 9⟩
    let late : FragmentEntry := ⟨1, true, false, ⟨0, 1⟩, [7]⟩
    let early : List FragmentEntry :=
      [⟨0, true, false, ⟨0, 1⟩, [7]⟩, ⟨1, false, false, ⟨1, 1⟩, [8]⟩]
    (reconstructFragments [late] 1 limits = .ok ([7], false) ∧ ¬ Complete [late] 1 [7]) ∧
    (reconstructFragments early 2 limits = .ok ([7, 8], false) ∧ ¬ Complete early 2 [7, 8]) ∧
    reconstructFragments [] 3 limits = .ok ([0, 0, 0], false) ∧ ¬ Complete [] 3 [0, 0, 0] := by
  refine ⟨⟨by decide +kernel, fun h => ?_⟩, ⟨by decide +kernel, fun h => ?_⟩, by decide +kernel,
    fun h => ?_⟩
  · exact absurd h.wellMarked.first (by decide)
  · exact absurd h.wellMarked.last (by decide)
  · exact nomatch h.wellMarked.nonempty rfl

/-! ### Any group -/

/-- In a sorted group equal indices are neighbours. -/
theorem pairwise_lt_of_hasDuplicateIndex
    (hsorted : sorted.Pairwise fun f g => f.fragmentIndex ≤ g.fragmentIndex)
    (h : hasDuplicateIndex sorted = false) :
    sorted.Pairwise fun f g => f.fragmentIndex < g.fragmentIndex := by
  induction sorted with
  | nil => exact .nil
  | cons f fs ih =>
    obtain ⟨hf, hfs⟩ := pairwise_cons.mp hsorted
    rcases fs with _ | ⟨g, fs⟩
    · exact pairwise_singleton _ _
    rw [hasDuplicateIndex, Bool.or_eq_false_iff, beq_eq_false_iff_ne] at h
    have hlt := UInt32.lt_of_le_of_ne (hf g mem_cons_self) h.1
    have hrest := ih hfs h.2
    refine pairwise_cons.mpr ⟨forall_mem_cons.mpr ⟨hlt, fun x hx => ?_⟩, hrest⟩
    exact UInt32.lt_trans hlt ((pairwise_cons.mp hrest).1 x hx)

/-- **The order of a group does not matter.** Reassembly gives the same file with the same degraded
bit, or the same error, in whatever order the fragments arrive. -/
theorem reconstructFragments_perm (h : fragments.Perm sorted) :
    reconstructFragments fragments logicalSize limits =
      reconstructFragments sorted logicalSize limits := by
  have hsame : ∀ {l l' : List FragmentEntry}, l.Perm l' →
      hasDuplicateIndex (sortByIndex l') = false → sortByIndex l = sortByIndex l' := by
    intro l l' h hdup
    have hpair := sortByIndex_pairwise l'
    have hlt := pairwise_lt_of_hasDuplicateIndex hpair hdup
    have hinj := inj_on_of_nodup_map ((pairwise_map.mpr hlt).imp UInt32.ne_of_lt)
    have hperm : (sortByIndex l).Perm (sortByIndex l') :=
      (perm_insertionSort _ _).trans (h.trans (perm_insertionSort _ _).symm)
    refine hperm.eq_of_pairwise (fun f g hf hg hle hle' => ?_) (sortByIndex_pairwise l) hpair
    exact hinj (hperm.mem_iff.mp hf) hg (UInt32.le_antisymm hle hle')
  rw [reconstructFragments, h.length_eq, h.isEmpty_eq, reconstructFragments]
  rcases hdup : hasDuplicateIndex (sortByIndex sorted) with _ | _
  · rw [hsame h hdup]
  -- a duplicate is found in either order
  rcases hdup' : hasDuplicateIndex (sortByIndex fragments) with _ | _
  · rw [hsame h.symm hdup']
  · rw [reconstructSorted, hdup', reconstructSorted, hdup]
    rfl

/-- An empty fragment and one of five bytes, in both orders. -/
theorem reconstructFragments_perm_two :
    reconstructFragments [exampleEmpty, exampleFive] 5 ⟨9, 9, 9, 9, 9⟩ =
      reconstructFragments [exampleFive, exampleEmpty] 5 ⟨9, 9, 9, 9, 9⟩ :=
  reconstructFragments_perm (.swap _ _ [])

/-- **What reassembly puts where**, whether or not fragments are missing: a byte that a fragment
covers comes from it, and every other byte of the file is zero. -/
theorem reconstructFragments_holds {out : Bytes} {degraded : Bool}
    (h : reconstructFragments fragments logicalSize limits = .ok (out, degraded)) :
    out.length = logicalSize ∧
      (∀ f ∈ fragments, ∀ i, f.Covers i →
        out[i]? = f.payload[i - f.descriptor.absoluteOffset.toNat]?) ∧
      ∀ i < logicalSize, (∀ f ∈ fragments, ¬ f.Covers i) → out[i]? = some 0 := by
  simp only [reconstructFragments, FragmentLimits.allocationLen, FragmentLimits.atMost,
    bind_eq_ok_iff, exists_unit] at h
  obtain ⟨-, -, -, h⟩ := h
  split at h
  · next hempty =>
    simp only [bind_eq_ok_iff, exists_unit, pure_eq_ok, Except.ok.injEq, Prod.mk.injEq] at h
    obtain ⟨_, ⟨-, -, rfl⟩, rfl, -⟩ := h
    obtain rfl := List.isEmpty_iff.mp hempty
    exact ⟨length_replicate, by simp, fun i hi _ => getElem?_replicate_of_lt hi⟩
  simp only [reconstructSorted, FragmentLimits.allocationLen, FragmentLimits.atMost,
    bind_eq_ok_iff, exists_unit, rejectIf_eq_ok_iff, Prod.exists, any_eq_true, bne_iff_ne,
    not_exists, not_and, not_not] at h
  obtain ⟨-, hsizes, -, hvalid, lastEnd, _, -, -, h⟩ := h
  have hperm : (sortByIndex fragments).Perm fragments := perm_insertionSort _ _
  generalize sortByIndex fragments = sorted at *
  obtain ⟨hisize, hscatter⟩ : logicalSize ≤ isizeMax ∧
      scatterFragments logicalSize sorted (List.replicate logicalSize 0) = .ok out := by
    split at h <;> simp only [bind_eq_ok_iff, exists_unit, rejectIf_eq_ok_iff, pure_eq_ok,
      Except.ok.injEq, Prod.mk.injEq] at h <;> grind
  have hn : logicalSize ≤ u64Max := hisize.trans (by decide)
  obtain ⟨hin, rfl⟩ := (scatterFragments_eq_ok_iff hn).mp hscatter
  obtain ⟨-, -, hrel⟩ := (validateFragmentGroup_eq_ok_iff hn).mp hvalid
  have hapart : (fragmentPieces sorted).Pairwise Apart := by
    refine pairwise_map.mpr (hrel.imp_of_mem fun {f g} hf hg hfg => ?_)
    rw [SortedRel, FragmentEntry.Before, FragmentEntry.Before, FragmentDescriptor.stop,
      FragmentDescriptor.stop, ← hsizes f hf, ← hsizes g hg] at hfg
    split at hfg
    exacts [.inl hfg, .inr hfg]
  have hcovers : ∀ f ∈ sorted, ∀ i, f.Covers i ↔
      Covers (f.descriptor.absoluteOffset.toNat, f.payload) i := by
    intro f hf i
    rw [FragmentEntry.Covers, FragmentDescriptor.stop, ← hsizes f hf, Covers]
  rw [← length_replicate (n := logicalSize) (a := (0 : UInt8))] at hin
  refine ⟨by rw [length_scatter hin, length_replicate], fun f hf i hi => ?_, fun i hi hout => ?_⟩
  · rw [← hperm.mem_iff] at hf
    exact getElem?_scatter_of_covers hin hapart (mem_map_of_mem hf) ((hcovers f hf i).mp hi)
  · rw [getElem?_scatter_of_not_covers hin, getElem?_replicate_of_lt hi]
    intro p hp hi
    obtain ⟨f, hf, rfl⟩ := mem_map.mp hp
    exact hout f (hperm.mem_iff.mp hf) ((hcovers f hf i).mpr hi)

/-- One byte in the middle, with a gap on either side. -/
theorem reconstructFragments_holds_gap :
    ([0, 3, 0] : Bytes)[1]? = ([3] : Bytes)[0]? ∧ ([0, 3, 0] : Bytes)[2]? = some 0 := by
  have h : reconstructFragments [⟨4, true, true, ⟨1, 1⟩, [3]⟩] 3 ⟨9, 9, 9, 9, 9⟩ =
    .ok ([0, 3, 0], true) := by decide
  obtain ⟨-, hcovered, hzero⟩ := reconstructFragments_holds h
  exact ⟨hcovered _ mem_cons_self 1 (by decide), hzero 2 (by decide) (by decide)⟩

end Sar
