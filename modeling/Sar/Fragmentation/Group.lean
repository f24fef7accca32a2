import Mathlib.Data.List.Sort
import Sar.Core.Limits
import Sar.ForMathlib.Scatter

/-!
# Fragment groups

The entries that share a fragment id are put together by `reconstruct_fragments`: fragments
are ordered by index, gaps in the indices and in the byte ranges are fatal unless a fragment
is loss tolerant, and the payloads are scattered into a buffer of zeros.
-/

namespace Sar

open Scatter
open Except (rejectIf)

/-- `sar_fragmentation::FragmentDescriptor`. -/
structure FragmentDescriptor where
  absoluteOffset : UInt64
  fragmentSize : UInt32
  deriving DecidableEq

/-- `absolute_offset + fragment_size`, before the overflow check. -/
def FragmentDescriptor.stop (d : FragmentDescriptor) : ℕ :=
  d.absoluteOffset.toNat + d.fragmentSize.toNat

/-- `FragmentEntry`. -/
structure FragmentEntry where
  fragmentIndex : UInt32
  isLastFragment : Bool
  isLossTolerant : Bool
  descriptor : FragmentDescriptor
  payload : Bytes

/-- `FragmentLimits`. -/
structure FragmentLimits where
  maxFragmentCount : ℕ
  maxFragmentGroupSpan : ℕ
  maxDecodedEntrySize : ℕ
  maxLossTolerantGap : ℕ
  maxAllocationBytes : ℕ

/-- `ResourceLimits::fragment_limits`. -/
def ResourceLimits.fragmentLimits (limits : ResourceLimits) : FragmentLimits where
  maxFragmentCount := limits.maxFragmentCount
  maxFragmentGroupSpan := limits.maxFragmentGroupSpan
  maxDecodedEntrySize := limits.maxDecodedEntrySize
  maxLossTolerantGap := limits.maxLossTolerantGap
  maxAllocationBytes := min limits.maxInMemoryBuffer limits.maxTotalPipelineMemory

namespace FragmentLimits

/-- The guard the limit checks are instances of. -/
def atMost (limit : ℕ) (msg : String) (value : ℕ) : Except FragmentError Unit :=
  rejectIf (value > limit) (.limitExceeded msg)

variable (limits : FragmentLimits)

/-- `check_fragment_count`. -/
def checkFragmentCount := atMost limits.maxFragmentCount "fragment count exceeds configured limit"

/-- `check_fragment_group_span`. -/
def checkFragmentGroupSpan :=
  atMost limits.maxFragmentGroupSpan "fragment group span exceeds configured limit"

/-- `check_decoded_entry_size`. -/
def checkDecodedEntrySize :=
  atMost limits.maxDecodedEntrySize "decoded entry size exceeds configured limit"

/-- `check_loss_tolerant_gap`. -/
def checkLossTolerantGap :=
  atMost limits.maxLossTolerantGap "loss-tolerant gap exceeds configured limit"

/-- `allocation_len`. -/
def allocationLen (bytes : ℕ) (context : String) : Except FragmentError ℕ := do
  atMost limits.maxAllocationBytes "allocation exceeds configured limit" bytes
  rejectIf (bytes > isizeMax) (.overflow context)
  pure bytes

end FragmentLimits

/-- `gap_degraded_output_permitted`. -/
def gapDegradedOutputPermitted (isLossTolerant : Bool) : Bool := isLossTolerant

variable (fragments : List FragmentEntry)

/-- `sort_by_key` on the fragment index; Rust's sort is stable, and so is this one. -/
def sortByIndex : List FragmentEntry :=
  fragments.insertionSort fun f g => f.fragmentIndex ≤ g.fragmentIndex

/-- `sort_by_key` on the absolute offset. -/
def sortByOffset : List FragmentEntry :=
  fragments.insertionSort fun f g => f.descriptor.absoluteOffset ≤ g.descriptor.absoluteOffset

/-! ### Validation -/

/-- The bounds loop of `validate_fragment_group`. -/
def checkFragmentBounds (logicalSize : ℕ) : List FragmentEntry → Except FragmentError Unit
  | [] => pure ()
  | f :: fs => do
    rejectIf (f.descriptor.stop > u64Max) (.overflow "fragment descriptor end overflow")
    rejectIf (f.descriptor.stop > logicalSize)
      (.bounds "fragment descriptor extends beyond logical file size")
    checkFragmentBounds logicalSize fs

/-- The overlap loop of `validate_fragment_group`, over the fragments sorted by offset. -/
def checkFragmentOverlap : ℕ → List FragmentEntry → Except FragmentError Unit
  | _, [] => pure ()
  | lastEnd, f :: fs => do
    rejectIf (f.descriptor.absoluteOffset.toNat < lastEnd)
      (.invalidMap "fragment descriptors overlap")
    rejectIf (f.descriptor.stop > u64Max) (.overflow "fragment end overflow")
    checkFragmentOverlap f.descriptor.stop fs

/-- `validate_fragment_group`. -/
def validateFragmentGroup (logicalSize : ℕ)
    (limits : FragmentLimits) : Except FragmentError Unit := do
  limits.checkFragmentCount fragments.length
  limits.checkFragmentGroupSpan logicalSize
  checkFragmentBounds logicalSize fragments
  checkFragmentOverlap 0 (sortByOffset fragments)

/-! ### Reassembly -/

/-- Two neighbours of the sorted list have the same index. -/
def hasDuplicateIndex : List FragmentEntry → Bool
  | f :: g :: fs => f.fragmentIndex == g.fragmentIndex || hasDuplicateIndex (g :: fs)
  | _ => false

/-- Two neighbours of the sorted list are not consecutive; the successor wraps around. -/
def hasIndexBreak : List FragmentEntry → Bool
  | f :: g :: fs => g.fragmentIndex != f.fragmentIndex + 1 || hasIndexBreak (g :: fs)
  | _ => false

/-- The byte-range loop: whether there is a gap, and the end of the last fragment. -/
def descriptorGaps (lossTolerant : Bool) (limits : FragmentLimits) :
    ℕ → Bool → List FragmentEntry → Except FragmentError (ℕ × Bool)
  | lastEnd, hasGap, [] => pure (lastEnd, hasGap)
  | lastEnd, hasGap, f :: fs => do
    let offset := f.descriptor.absoluteOffset.toNat
    let isGap := decide (offset > lastEnd)
    rejectIf (isGap && !gapDegradedOutputPermitted lossTolerant)
      (.fragmentGap "fragment descriptor byte-range gap")
    if isGap then limits.checkLossTolerantGap (offset - lastEnd)
    rejectIf (f.descriptor.stop > u64Max) (.overflow "fragment end overflow")
    descriptorGaps lossTolerant limits f.descriptor.stop (hasGap || isGap) fs

/-- The scatter loop. -/
def scatterFragments (bufSize : ℕ) : List FragmentEntry → Bytes → Except FragmentError Bytes
  | [], output => pure output
  | f :: fs, output => do
    let start := f.descriptor.absoluteOffset.toNat
    rejectIf (start + f.payload.length > u64Max) (.overflow "fragment end usize")
    rejectIf (start + f.payload.length > bufSize)
      (.bounds "fragment payload extends beyond logical file size")
    scatterFragments bufSize fs (overwrite output start f.payload)

/-- The part of `reconstruct_fragments` after the empty-group exit, over the fragments sorted
by index. -/
def reconstructSorted (logicalSize : ℕ)
    (limits : FragmentLimits) : Except FragmentError (Bytes × Bool) := do
  rejectIf (hasDuplicateIndex fragments) (.duplicateIndex "duplicate fragment_index detected")
  rejectIf (fragments.any fun f => f.payload.length != f.descriptor.fragmentSize.toNat)
    (.payloadSizeMismatch "fragment payload length does not match descriptor fragment_size")
  let isLossTolerant := fragments.any (·.isLossTolerant)
  let hasLast := fragments.any (·.isLastFragment)
  let hasIndexGap := !hasLast || hasIndexBreak fragments
  rejectIf (hasIndexGap && !gapDegradedOutputPermitted isLossTolerant)
    (.fragmentGap "fragment index gap or missing last-fragment marker")
  validateFragmentGroup fragments logicalSize limits
  let (lastEnd, hasGap) ← descriptorGaps isLossTolerant limits 0 false (sortByOffset fragments)
  let hasTailGap := decide (logicalSize > lastEnd)
  rejectIf (hasTailGap && !gapDegradedOutputPermitted isLossTolerant)
    (.fragmentGap "fragment descriptor byte-range gap")
  if hasTailGap then limits.checkLossTolerantGap (logicalSize - lastEnd)
  let bufSize ← limits.allocationLen logicalSize "logical size usize"
  let output ← scatterFragments bufSize fragments (List.replicate bufSize 0)
  pure (output, hasIndexGap || (hasGap || hasTailGap))

/-- `reconstruct_fragments`: the file and whether it is degraded. -/
def reconstructFragments (logicalSize : ℕ)
    (limits : FragmentLimits) : Except FragmentError (Bytes × Bool) := do
  limits.checkFragmentCount fragments.length
  limits.checkFragmentGroupSpan logicalSize
  limits.checkDecodedEntrySize logicalSize
  if fragments.isEmpty then do
    let bufSize ← limits.allocationLen logicalSize "logical size"
    pure (List.replicate bufSize 0, false)
  else reconstructSorted (sortByIndex fragments) logicalSize limits

end Sar
