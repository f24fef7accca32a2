import Sar.Delta.Patch
import Sar.ForMathlib.LittleEndian

/-!
# BSDIFF patches

The decoder of `SARBSD01` patches (uncompressed control, diff and extra blocks) and their
generator, which emits one control triple.
-/

namespace Sar

open LittleEndian List
open Except (rejectIf pure_eq_ok ok_bind rejectIf_of_not rejectIf_bind)

/-- `i64::MAX`. -/
def i64Max : ℕ := 2 ^ 63 - 1

/-- `BsdiffLimits`. -/
structure BsdiffLimits where
  maxPatchSize : ℕ
  maxControlBytes : ℕ
  maxDiffBytes : ℕ
  maxExtraBytes : ℕ
  maxControlTriples : ℕ
  maxTargetSize : ℕ

/-- `BsdiffLimits::default`. -/
def BsdiffLimits.default : BsdiffLimits where
  maxPatchSize := 512 * 1024 * 1024
  maxControlBytes := 64 * 1024 * 1024
  maxDiffBytes := 1024 * 1024 * 1024
  maxExtraBytes := 1024 * 1024 * 1024
  maxControlTriples := 4000000
  maxTargetSize := 1024 * 1024 * 1024

/-- `SAR_BSDIFF_MAGIC`, the text `SARBSD01`. -/
def bsdiffMagic : Bytes := [0x53, 0x41, 0x52, 0x42, 0x53, 0x44, 0x30, 0x31]

/-! ### Integers -/

/-- `decode_bsdiff_int`: sign and magnitude, the sign in the topmost bit. -/
def decodeBsdiffInt (bytes : Bytes) : Except PatchError ℤ := do
  rejectIf (bytes.length ≠ 8) (.patchFailed "BSDIFF: integer field is not 8 bytes")
  let magnitude := leNat bytes % 2 ^ 63
  rejectIf (magnitude > i64Max) (.patchFailed "BSDIFF: integer magnitude overflows i64")
  pure (if leNat bytes / 2 ^ 63 % 2 = 1 then -(magnitude : ℤ) else magnitude)

/-- `encode_bsdiff_int`. -/
def encodeBsdiffInt (v : ℤ) : Bytes :=
  leBytes 8 (v.natAbs % 2 ^ 63 + if v < 0 then 2 ^ 63 else 0)

/-- A decoded integer that must not be negative. -/
def natOfBsdiffInt (v : ℤ) (negative : String) : Except PatchError ℕ := do
  rejectIf (v < 0) (.patchFailed negative)
  pure v.toNat

/-! ### Application -/

/-- The positions of `apply_bsdiff`. The target is written from its start on, so the bytes
before `new_pos` are `written`. -/
structure BsdiffState where
  oldPos : ℤ
  written : Bytes
  diffPos : ℕ
  extraPos : ℕ

/-- One byte of a diff step; base bytes past the end count as zero. -/
def diffByte (base : Bytes) (oldPos : ℤ) (j : ℕ) (d : UInt8) : Except PatchError UInt8 := do
  let oldBytePos := oldPos + j
  rejectIf (oldBytePos > i64Max) (.patchFailed "BSDIFF: base index overflow")
  rejectIf (oldBytePos < 0) (.patchFailed "BSDIFF: base seek before offset 0")
  pure (d + base.getD oldBytePos.toNat 0)

/-- The byte loop of a diff step, over the diff bytes it uses. -/
def diffBytes (base : Bytes) (oldPos : ℤ) : ℕ → Bytes → Except PatchError Bytes
  | _, [] => pure []
  | j, d :: ds => do
    let b ← diffByte base oldPos j d
    let bs ← diffBytes base oldPos (j + 1) ds
    pure (b :: bs)

/-- One control triple. -/
def applyTriple (base diffData extraData : Bytes) (newSize : ℕ) (triple : Bytes)
    (st : BsdiffState) : Except PatchError BsdiffState := do
  let diffLenRaw ← decodeBsdiffInt (triple.take 8)
  let extraLenRaw ← decodeBsdiffInt ((triple.drop 8).take 8)
  let seekAdjust ← decodeBsdiffInt ((triple.drop 16).take 8)
  let diffLen ← natOfBsdiffInt diffLenRaw "BSDIFF: negative diff_len in control triple"
  let extraLen ← natOfBsdiffInt extraLenRaw "BSDIFF: negative extra_len in control triple"
  rejectIf (st.written.length + diffLen > u64Max) (.patchFailed "BSDIFF: output position overflow")
  rejectIf (st.written.length + diffLen > newSize)
    (.patchFailed "BSDIFF: output exceeds New_File_Size during diff step")
  rejectIf (st.diffPos + diffLen > u64Max) (.patchFailed "BSDIFF: diff block position overflow")
  rejectIf (st.diffPos + diffLen > diffData.length) (.patchFailed "BSDIFF: Diff Block overread")
  let diffed ← diffBytes base st.oldPos 0 ((diffData.drop st.diffPos).take diffLen)
  let oldPos := st.oldPos + diffLen
  rejectIf (oldPos > i64Max) (.patchFailed "BSDIFF: old_pos overflow in diff step")
  let newPos := st.written.length + diffLen
  rejectIf (newPos + extraLen > u64Max) (.patchFailed "BSDIFF: output position overflow")
  rejectIf (newPos + extraLen > newSize)
    (.patchFailed "BSDIFF: output exceeds New_File_Size during extra step")
  rejectIf (st.extraPos + extraLen > u64Max) (.patchFailed "BSDIFF: extra block position overflow")
  rejectIf (st.extraPos + extraLen > extraData.length)
    (.patchFailed "BSDIFF: Extra Block overread")
  rejectIf (oldPos + seekAdjust > i64Max ∨ oldPos + seekAdjust < -(i64Max : ℤ) - 1)
    (.patchFailed "BSDIFF: old_pos overflow in seek step")
  rejectIf (oldPos + seekAdjust < 0) (.patchFailed "BSDIFF: base seek before offset 0")
  pure
    { oldPos := oldPos + seekAdjust
      written := st.written ++ diffed ++ (extraData.drop st.extraPos).take extraLen
      diffPos := st.diffPos + diffLen
      extraPos := st.extraPos + extraLen }

/-- The control loop. -/
def applyTriples (base diffData extraData : Bytes) (newSize : ℕ) :
    ℕ → Bytes → BsdiffState → Except PatchError BsdiffState
  | 0, _, st => pure st
  | count + 1, ctrl, st => do
    rejectIf (ctrl.length < 24) (.patchFailed "BSDIFF: malformed or truncated control triple")
    let st ← applyTriple base diffData extraData newSize (ctrl.take 24) st
    applyTriples base diffData extraData newSize count (ctrl.drop 24) st

/-- The blocks of a patch whose header has been checked. -/
structure BsdiffBlocks where
  newSize : ℕ
  ctrl : Bytes
  diff : Bytes
  extra : Bytes

/-- The header checks of `apply_bsdiff`. -/
def splitBsdiff (patch : Bytes) (expectedTargetSize : ℕ) (limits : BsdiffLimits) :
    Except PatchError BsdiffBlocks := do
  rejectIf (patch.length > limits.maxPatchSize)
    (.limitExceeded "BSDIFF: patch payload exceeds max_patch_size limit")
  rejectIf (patch.length < 32) (.patchFailed "BSDIFF: patch too short for header")
  rejectIf (patch.take 8 ≠ bsdiffMagic) (.patchFailed "BSDIFF: invalid magic (expected SARBSD01)")
  let ctrlLenRaw ← decodeBsdiffInt ((patch.drop 8).take 8)
  let diffLenRaw ← decodeBsdiffInt ((patch.drop 16).take 8)
  let newSizeRaw ← decodeBsdiffInt ((patch.drop 24).take 8)
  let ctrlLen ← natOfBsdiffInt ctrlLenRaw "BSDIFF: negative Control_Block_Length"
  let diffLen ← natOfBsdiffInt diffLenRaw "BSDIFF: negative Diff_Block_Length"
  let newSize ← natOfBsdiffInt newSizeRaw "BSDIFF: negative New_File_Size"
  rejectIf (newSize ≠ expectedTargetSize)
    (.patchFailed "BSDIFF: New_File_Size does not match LFH Uncompressed Size")
  rejectIf (newSize > limits.maxTargetSize)
    (.limitExceeded "BSDIFF: target size exceeds max_target_size limit")
  rejectIf (ctrlLen > limits.maxControlBytes)
    (.limitExceeded "BSDIFF: Control Block exceeds max_control_bytes limit")
  rejectIf (diffLen > limits.maxDiffBytes)
    (.limitExceeded "BSDIFF: Diff Block exceeds max_diff_bytes limit")
  let diffStart := 32 + ctrlLen
  let extraStart := diffStart + diffLen
  rejectIf (extraStart > u64Max) (.patchFailed "BSDIFF: block offset overflow")
  rejectIf (extraStart > patch.length)
    (.patchFailed "BSDIFF: patch too short (diff/extra blocks truncated)")
  rejectIf (patch.length - extraStart > limits.maxExtraBytes)
    (.limitExceeded "BSDIFF: Extra Block exceeds max_extra_bytes limit")
  rejectIf (ctrlLen % 24 ≠ 0) (.patchFailed "BSDIFF: Control Block length not a multiple of 24")
  rejectIf (ctrlLen / 24 > limits.maxControlTriples)
    (.limitExceeded "BSDIFF: control triple count exceeds max_control_triples limit")
  pure ⟨newSize, (patch.drop 32).take ctrlLen, (patch.drop diffStart).take diffLen,
    patch.drop extraStart⟩

/-- `apply_bsdiff`. -/
def applyBsdiff (base patch : Bytes) (expectedTargetSize : ℕ) (limits : BsdiffLimits) :
    Except PatchError Bytes := do
  let blocks ← splitBsdiff patch expectedTargetSize limits
  let st ← applyTriples base blocks.diff blocks.extra blocks.newSize (blocks.ctrl.length / 24)
    blocks.ctrl ⟨0, [], 0, 0⟩
  rejectIf (st.written.length ≠ blocks.newSize)
    (.patchFailed "BSDIFF: output shorter than New_File_Size after all triples")
  rejectIf (st.diffPos ≠ blocks.diff.length)
    (.patchFailed "BSDIFF: trailing unused Diff Block bytes")
  rejectIf (st.extraPos ≠ blocks.extra.length)
    (.patchFailed "BSDIFF: trailing unused Extra Block bytes")
  pure st.written

/-! ### The generator -/

/-- `generate_bsdiff_patch`. -/
def generateBsdiffPatch (base target : Bytes) (limits : BsdiffLimits) :
    Except PatchError Bytes := do
  rejectIf (target.length > limits.maxTargetSize)
    (.limitExceeded "BSDIFF generate: target length exceeds max_target_size limit")
  let diffStep := min base.length target.length
  let extraStep := target.length - diffStep
  rejectIf (diffStep > limits.maxDiffBytes)
    (.limitExceeded "BSDIFF generate: diff block exceeds max_diff_bytes limit")
  rejectIf (extraStep > limits.maxExtraBytes)
    (.limitExceeded "BSDIFF generate: extra block exceeds max_extra_bytes limit")
  rejectIf (limits.maxControlTriples < 1)
    (.limitExceeded "BSDIFF generate: max_control_triples limit is too low (requires at least 1)")
  rejectIf (limits.maxControlBytes < 24)
    (.limitExceeded "BSDIFF generate: control block exceeds max_control_bytes limit")
  let patchSize := 32 + 24 + diffStep + extraStep
  rejectIf (patchSize > u64Max) (.limitExceeded "BSDIFF generate: total patch size overflow")
  rejectIf (patchSize > limits.maxPatchSize)
    (.limitExceeded "BSDIFF generate: total patch size exceeds max_patch_size limit")
  rejectIf (diffStep > i64Max) (.limitExceeded "BSDIFF generate: diff_step exceeds i64")
  rejectIf (extraStep > i64Max) (.limitExceeded "BSDIFF generate: extra_step exceeds i64")
  rejectIf (target.length > i64Max) (.limitExceeded "BSDIFF generate: target length exceeds i64")
  pure (bsdiffMagic ++ (encodeBsdiffInt 24 ++ (encodeBsdiffInt diffStep ++
    (encodeBsdiffInt target.length ++ (encodeBsdiffInt diffStep ++ (encodeBsdiffInt extraStep ++
    (encodeBsdiffInt 0 ++ (List.zipWith (· - ·) target base ++ target.drop diffStep))))))))

end Sar
