import Sar.ForMathlib.Scatter
import Sar.Sparse.Map

/-!
# Sparse reconstruction

The validity rules for extents and the scatter step that rebuilds a sparse file from its
gathered data.

* `validateSparseExtents_eq_ok_iff`: the accepted extents are the nonempty, ascending, disjoint
  ones inside the file (`ExtentsIn`).
* `applySparseReconstruction_eq_ok_iff`: reconstruction succeeds for such extents and a payload
  of the right length, and scatters the payload's pieces into a file of zeros.
* **`applySparseReconstruction_exact`**: the file holds the payload at the extents and zeros
  elsewhere.
-/

namespace Sar

open Scatter List
open Except (rejectIf bind_eq_ok_iff pure_eq_ok exists_unit rejectIf_eq_ok_iff)

/-- `SparseLimits`. -/
structure SparseLimits where
  maxSparseMapBytes : ℕ
  maxSparseDescriptors : ℕ
  maxDecodedEntrySize : ℕ
  maxAllocationBytes : ℕ

/-- `ResourceLimits::sparse_limits`. -/
def ResourceLimits.sparseLimits (limits : ResourceLimits) : SparseLimits where
  maxSparseMapBytes := limits.maxSparseMapBytes
  maxSparseDescriptors := limits.maxSparseDescriptors
  maxDecodedEntrySize := limits.maxDecodedEntrySize
  maxAllocationBytes := min limits.maxInMemoryBuffer limits.maxTotalPipelineMemory

/-! ### Validity of extents -/

/-- The loop of `validate_sparse_extents`, from the running end and the running total. -/
def validateExtents (logicalSize : ℕ) : List SparseExtent → ℕ → ℕ → Except SparseError Unit
  | [], _, _ => pure ()
  | extent :: extents, lastEnd, total => do
    rejectIf (extent.length = 0) (.invalidMap "zero-length sparse extent")
    let extentEnd := extent.offset.toNat + extent.length.toNat
    rejectIf (extentEnd > u64Max) (.overflow "sparse extent offset+length overflow")
    rejectIf (extentEnd > logicalSize) (.invalidMap "sparse extent exceeds logical file size")
    rejectIf (extent.offset.toNat < lastEnd) (.invalidMap "sparse extents overlap")
    rejectIf (total + extent.length.toNat > u64Max) (.overflow "sparse extent length sum overflow")
    validateExtents logicalSize extents extentEnd (total + extent.length.toNat)

/-- `validate_sparse_extents`. -/
def validateSparseExtents (extents : List SparseExtent) (logicalSize : ℕ)
    (limits : SparseLimits) : Except SparseError Unit := do
  rejectIf (extents.length > limits.maxSparseDescriptors)
    (.limitExceeded "sparse descriptor count exceeds configured limit")
  validateExtents logicalSize extents 0 0

/-! ### Reconstruction -/

/-- The loop of `apply_sparse_reconstruction`; `payload` is what has not been copied yet. -/
def scatterExtents (logicalSize : ℕ) :
    List SparseExtent → Bytes → Bytes → Except SparseError (Bytes × Bytes)
  | [], payload, output => pure (payload, output)
  | extent :: extents, payload, output => do
    let extentEnd := extent.offset.toNat + extent.length.toNat
    rejectIf (extentEnd > u64Max) (.overflow "sparse extent offset+length overflow")
    rejectIf (extentEnd > logicalSize) (.invalidMap "sparse extent exceeds logical file size")
    rejectIf (extent.length.toNat > payload.length)
      (.truncated "payload too short for declared sparse extents")
    scatterExtents logicalSize extents (payload.drop extent.length.toNat)
      (overwrite output extent.offset.toNat (payload.take extent.length.toNat))

/-- `apply_sparse_reconstruction`. -/
def applySparseReconstruction (payload : Bytes) (extents : List SparseExtent) (logicalSize : ℕ)
    (limits : SparseLimits) : Except SparseError Bytes := do
  rejectIf (logicalSize > limits.maxDecodedEntrySize)
    (.limitExceeded "decoded entry size exceeds configured limit")
  rejectIf (logicalSize > limits.maxAllocationBytes)
    (.limitExceeded "allocation exceeds configured limit")
  rejectIf (logicalSize > isizeMax) (.overflow "logical size usize")
  validateSparseExtents extents logicalSize limits
  let (rest, output) ← scatterExtents logicalSize extents payload (List.replicate logicalSize 0)
  rejectIf (rest ≠ [])
    (.invalidMap "sparse payload has excess bytes beyond declared extents")
  pure output

/-! ### What the checks accept -/

/-- `e.offset + e.length`. -/
def SparseExtent.stop (e : SparseExtent) : ℕ := e.offset.toNat + e.length.toNat

/-- Nonempty extents in ascending order, apart from each other, from `lastEnd` up to
`logicalSize`. -/
structure ExtentsIn (logicalSize lastEnd : ℕ) (extents : List SparseExtent) : Prop where
  bounds : ∀ e ∈ extents, e.length ≠ 0 ∧ lastEnd ≤ e.offset.toNat ∧ e.stop ≤ logicalSize
  sorted : extents.Pairwise fun e e' => e.stop ≤ e'.offset.toNat

/-- The number of data bytes the extents describe. -/
def gatheredLen (extents : List SparseExtent) : ℕ := (extents.map (·.length.toNat)).sum

@[simp] theorem gatheredLen_nil : gatheredLen [] = 0 := rfl

@[simp]
theorem gatheredLen_cons (e : SparseExtent) (es : List SparseExtent) :
    gatheredLen (e :: es) = e.length.toNat + gatheredLen es := by
  simp [gatheredLen]

variable {logicalSize lastEnd : ℕ}

theorem extentsIn_cons {e : SparseExtent} {es : List SparseExtent} :
    ExtentsIn logicalSize lastEnd (e :: es) ↔
      e.length ≠ 0 ∧ lastEnd ≤ e.offset.toNat ∧ e.stop ≤ logicalSize ∧
        ExtentsIn logicalSize e.stop es := by
  constructor
  · rintro ⟨hbounds, hsorted⟩
    obtain ⟨⟨hne, hoff, hstop⟩, hbounds⟩ := forall_mem_cons.mp hbounds
    obtain ⟨hlater, hsorted⟩ := pairwise_cons.mp hsorted
    exact ⟨hne, hoff, hstop, fun e' he' => ⟨(hbounds e' he').1, hlater e' he',
      (hbounds e' he').2.2⟩, hsorted⟩
  · rintro ⟨hne, hoff, hstop, hbounds, hsorted⟩
    have hlater e' (he' : e' ∈ es) := (hbounds e' he').2.1
    refine ⟨forall_mem_cons.mpr ⟨⟨hne, hoff, hstop⟩, fun e' he' => ?_⟩,
      pairwise_cons.mpr ⟨hlater, hsorted⟩⟩
    have hle : e.offset.toNat ≤ e.stop := Nat.le_add_right _ _
    exact ⟨(hbounds e' he').1, hoff.trans (hle.trans (hlater e' he')), (hbounds e' he').2.2⟩

theorem validateExtents_eq_ok_iff (hn : logicalSize ≤ u64Max) (extents : List SparseExtent)
    {total : ℕ} (ht : total ≤ lastEnd) :
    validateExtents logicalSize extents lastEnd total = .ok () ↔
      ExtentsIn logicalSize lastEnd extents := by
  induction extents generalizing lastEnd total with
  | nil => exact ⟨fun _ => ⟨by simp, .nil⟩, fun _ => rfl⟩
  | cons e es ih =>
    simp only [validateExtents, extentsIn_cons, bind_eq_ok_iff, exists_unit,
      rejectIf_eq_ok_iff, not_lt, gt_iff_lt, SparseExtent.stop]
    constructor
    · rintro ⟨hne, -, hle, hoff, -, h⟩
      exact ⟨hne, hoff, hle, (ih (by omega)).mp h⟩
    · rintro ⟨hne, hoff, hle, h⟩
      exact ⟨hne, by omega, hle, hoff, by omega, (ih (by omega)).mpr h⟩

variable {extents : List SparseExtent}

/-- The extents `validate_sparse_extents` accepts. -/
theorem validateSparseExtents_eq_ok_iff (hn : logicalSize ≤ u64Max) {limits : SparseLimits} :
    validateSparseExtents extents logicalSize limits = .ok () ↔
      extents.length ≤ limits.maxSparseDescriptors ∧ ExtentsIn logicalSize 0 extents := by
  simp only [validateSparseExtents, bind_eq_ok_iff, exists_unit,
    rejectIf_eq_ok_iff, not_lt, gt_iff_lt, validateExtents_eq_ok_iff hn extents le_rfl]

/-! ### Reconstruction is a scatter -/

/-- The pieces of the gathered payload, each with the offset its extent gives it. -/
def sparsePieces : List SparseExtent → Bytes → List (Piece UInt8)
  | [], _ => []
  | e :: es, payload =>
    (e.offset.toNat, payload.take e.length.toNat) ::
      sparsePieces es (payload.drop e.length.toNat)

variable {payload : Bytes}

/-- The copy loop runs through when the payload is long enough, and writes the pieces. -/
theorem scatterExtents_eq_ok_iff (hn : logicalSize ≤ u64Max) {output rest out : Bytes}
    (hin : ExtentsIn logicalSize lastEnd extents) :
    scatterExtents logicalSize extents payload output = .ok (rest, out) ↔
      payload.length = gatheredLen extents + rest.length ∧
        rest = payload.drop (gatheredLen extents) ∧
        out = scatter (sparsePieces extents payload) output := by
  induction extents generalizing lastEnd payload output with
  | nil =>
    simp only [scatterExtents, pure_eq_ok, Except.ok.injEq, Prod.mk.injEq, gatheredLen_nil,
      Nat.zero_add, drop_zero, sparsePieces]
    constructor
    · rintro ⟨rfl, rfl⟩
      exact ⟨rfl, rfl, rfl⟩
    · rintro ⟨-, rfl, rfl⟩
      exact ⟨rfl, rfl⟩
  | cons e es ih =>
    obtain ⟨-, -, hstop, hrest⟩ := extentsIn_cons.mp hin
    rw [SparseExtent.stop] at hstop
    simp only [scatterExtents, bind_eq_ok_iff, exists_unit, rejectIf_eq_ok_iff, ih hrest,
      gatheredLen_cons, sparsePieces, scatter_cons, drop_drop, length_drop]
    constructor
    · rintro ⟨-, -, hlong, hlen, hdrop, hout⟩
      exact ⟨by omega, hdrop, hout⟩
    · rintro ⟨hlen, hdrop, hout⟩
      exact ⟨by omega, by omega, by omega, by omega, hdrop, hout⟩

variable {limits : SparseLimits}

/-- Reconstruction succeeds, within the limits, for valid extents and a payload of their total
length, and is then a scatter into zeros. -/
theorem applySparseReconstruction_eq_ok_iff {out : Bytes} :
    applySparseReconstruction payload extents logicalSize limits = .ok out ↔
      logicalSize ≤ limits.maxDecodedEntrySize ∧ logicalSize ≤ limits.maxAllocationBytes ∧
      logicalSize ≤ isizeMax ∧ extents.length ≤ limits.maxSparseDescriptors ∧
      ExtentsIn logicalSize 0 extents ∧ gatheredLen extents = payload.length ∧
      out = scatter (sparsePieces extents payload) (List.replicate logicalSize 0) := by
  simp only [applySparseReconstruction, bind_eq_ok_iff, exists_unit, rejectIf_eq_ok_iff, not_lt,
    gt_iff_lt, ne_eq, not_not, Prod.exists, pure_eq_ok, Except.ok.injEq]
  refine and_congr_right fun _ => and_congr_right fun _ => and_congr_right fun hisize => ?_
  have hn : logicalSize ≤ u64Max := hisize.trans (by decide)
  rw [validateSparseExtents_eq_ok_iff hn, and_assoc]
  refine and_congr_right fun _ => and_congr_right fun hin => ?_
  constructor
  · rintro ⟨rest, output, h, rfl, rfl⟩
    obtain ⟨hlen, -, hout⟩ := (scatterExtents_eq_ok_iff hn hin).mp h
    exact ⟨hlen.symm, hout⟩
  · rintro ⟨hlen, hout⟩
    refine ⟨[], out, (scatterExtents_eq_ok_iff hn hin).mpr ⟨hlen.symm, ?_, hout⟩, rfl, rfl⟩
    rw [hlen, drop_length]

/-! ### The reconstructed file -/

/-- A piece comes from an extent and covers the same positions. -/
theorem mem_sparsePieces {p : Piece UInt8} (hlen : gatheredLen extents = payload.length)
    (hp : p ∈ sparsePieces extents payload) :
    ∃ e ∈ extents, p.1 = e.offset.toNat ∧ p.1 + p.2.length = e.stop := by
  induction extents generalizing payload with
  | nil => cases hp
  | cons e es ih =>
    rw [gatheredLen_cons] at hlen
    rcases mem_cons.mp hp with rfl | hp
    · refine ⟨e, mem_cons_self, rfl, ?_⟩
      simp only [length_take, SparseExtent.stop]
      omega
    · obtain ⟨e', he', h⟩ := ih (by rw [length_drop]; omega) hp
      exact ⟨e', mem_cons_of_mem e he', h⟩

theorem apart_sparsePieces (hin : ExtentsIn logicalSize lastEnd extents)
    (hlen : gatheredLen extents = payload.length) :
    (sparsePieces extents payload).Pairwise Apart := by
  induction extents generalizing lastEnd payload with
  | nil => exact List.Pairwise.nil
  | cons e es ih =>
    obtain ⟨-, -, -, hrest⟩ := extentsIn_cons.mp hin
    rw [gatheredLen_cons] at hlen
    have hdrop : gatheredLen es = (payload.drop e.length.toNat).length := by
      rw [length_drop]
      omega
    refine List.Pairwise.cons (fun p hp => .inl ?_) (ih hrest hdrop)
    -- every later piece starts at or after the end of this extent
    obtain ⟨e', he', hoff, -⟩ := mem_sparsePieces hdrop hp
    have hafter := (hrest.bounds e' he').2.1
    simp only [length_take]
    rw [SparseExtent.stop] at hafter
    omega

/-- The bytes of an extent. -/
def SparseExtent.slice (data : Bytes) (e : SparseExtent) : Bytes :=
  (data.drop e.offset.toNat).take e.length.toNat

/-- A file that holds every piece at its offset gives back the payload. -/
theorem flatMap_slice {data : Bytes} (hlen : gatheredLen extents = payload.length)
    (hholds : ∀ p ∈ sparsePieces extents payload, (data.drop p.1).take p.2.length = p.2) :
    extents.flatMap (SparseExtent.slice data) = payload := by
  induction extents generalizing payload with
  | nil => exact (eq_nil_of_length_eq_zero hlen.symm).symm
  | cons e es ih =>
    rw [gatheredLen_cons] at hlen
    obtain ⟨hfirst, hrest⟩ := forall_mem_cons.mp hholds
    have htake : (payload.take e.length.toNat).length = e.length.toNat := by
      rw [length_take]
      omega
    rw [htake] at hfirst
    rw [flatMap_cons, SparseExtent.slice, hfirst,
      ih (by rw [length_drop]; omega) hrest, take_append_drop]

/-- **Reconstruction is the exact scatter**: within the limits and the largest allocation it
succeeds for nonempty, ascending, disjoint extents inside the file whose lengths add up to the
payload's, and the result has the logical size, gives back the payload and is zero elsewhere. -/
theorem applySparseReconstruction_exact (payload : Bytes) (extents : List SparseExtent)
    (logicalSize : ℕ) (limits : SparseLimits) :
    ((∃ out, applySparseReconstruction payload extents logicalSize limits = .ok out) ↔
      logicalSize ≤ limits.maxDecodedEntrySize ∧ logicalSize ≤ limits.maxAllocationBytes ∧
      logicalSize ≤ isizeMax ∧ extents.length ≤ limits.maxSparseDescriptors ∧
      (∀ e ∈ extents, e.length ≠ 0 ∧ e.stop ≤ logicalSize) ∧
      (extents.Pairwise fun e e' => e.stop ≤ e'.offset.toNat) ∧
      gatheredLen extents = payload.length) ∧
    ∀ out, applySparseReconstruction payload extents logicalSize limits = .ok out →
      out.length = logicalSize ∧ extents.flatMap (SparseExtent.slice out) = payload ∧
      ∀ i < logicalSize, (∀ e ∈ extents, ¬ (e.offset.toNat ≤ i ∧ i < e.stop)) →
        out[i]? = some 0 := by
  simp only [applySparseReconstruction_eq_ok_iff]
  refine ⟨⟨?_, ?_⟩, ?_⟩
  · rintro ⟨out, hdecoded, halloc, hisize, hcount, hin, hlen, -⟩
    exact ⟨hdecoded, halloc, hisize, hcount,
      fun e he => ⟨(hin.bounds e he).1, (hin.bounds e he).2.2⟩, hin.sorted, hlen⟩
  · rintro ⟨hdecoded, halloc, hisize, hcount, hbounds, hsorted, hlen⟩
    exact ⟨_, hdecoded, halloc, hisize, hcount,
      ⟨fun e he => ⟨(hbounds e he).1, Nat.zero_le _, (hbounds e he).2⟩, hsorted⟩, hlen, rfl⟩
  · rintro out ⟨-, -, -, -, hin, hlen, rfl⟩
    have hinside : ∀ p ∈ sparsePieces extents payload,
        Inside (List.replicate logicalSize (0 : UInt8)).length p := by
      intro p hp
      obtain ⟨e, he, -, hstop⟩ := mem_sparsePieces hlen hp
      rw [Inside, hstop, length_replicate]
      exact (hin.bounds e he).2.2
    refine ⟨by rw [length_scatter hinside, length_replicate],
      flatMap_slice hlen fun p hp => take_drop_scatter hinside (apart_sparsePieces hin hlen) hp,
      fun i hi hout => ?_⟩
    rw [getElem?_scatter_of_not_covers hinside, List.getElem?_replicate_of_lt hi]
    rintro p hp ⟨h1, h2⟩
    obtain ⟨e, he, hoff, hstop⟩ := mem_sparsePieces hlen hp
    exact hout e he ⟨by omega, by omega⟩

/-- No limit binds and there is nothing to copy, but no buffer may be larger than `isize::MAX`. -/
theorem applySparseReconstruction_isize :
    applySparseReconstruction [] [] (2 ^ 63) ⟨u64Max, u64Max, u64Max, u64Max⟩ =
      .error (.overflow "logical size usize") := by
  decide +kernel

end Sar
