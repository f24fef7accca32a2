import Sar.Core.Error

/-!
# Patch algorithms

The registry of patch algorithms, the errors their decoders share, and `STORE_PATCH`, whose
patch is the target itself.
-/

namespace Sar

open Except (rejectIf)

/-- `sar_delta::PatchError`. -/
inductive PatchError where
  | unsupported (msg : String)
  | reservedValue (msg : String)
  | patchFailed (msg : String)
  | baseMissing (msg : String)
  | limitExceeded (msg : String)
  deriving DecidableEq

/-- `map_patch_error`. -/
def PatchError.toSarError : PatchError → SarError
  | .patchFailed m => .patchFailed m
  | .unsupported m => .unsupported m
  | .reservedValue m => .reservedValue m
  | .baseMissing m => .baseMissing m
  | .limitExceeded m => .limitExceeded m

/-- `PATCH_ALGO_STORE_PATCH`. -/
def patchAlgoStorePatch : UInt8 := 0x00

/-- `PATCH_ALGO_VCDIFF`. -/
def patchAlgoVcdiff : UInt8 := 0x01

/-- `PATCH_ALGO_BSDIFF`. -/
def patchAlgoBsdiff : UInt8 := 0x02

/-- `PATCH_ALGO_ZSTD_PATCH`. -/
def patchAlgoZstdPatch : UInt8 := 0x03

/-- `PATCH_ALGO_CUSTOM_MIN`. -/
def patchAlgoCustomMin : UInt8 := 0xF0

/-- `PatchAlgoId`. -/
inductive PatchAlgoId where
  | storePatch
  | vcdiff
  | bsdiff
  | zstdPatch
  | custom (id : UInt8)
  deriving DecidableEq

/-- `PatchAlgoId::as_u8`. -/
def PatchAlgoId.asU8 : PatchAlgoId → UInt8
  | .storePatch => patchAlgoStorePatch
  | .vcdiff => patchAlgoVcdiff
  | .bsdiff => patchAlgoBsdiff
  | .zstdPatch => patchAlgoZstdPatch
  | .custom id => id

/-- `generate_store_patch`. -/
def generateStorePatch (target : Bytes) (expectedLen : ℕ) : Except PatchError Bytes := do
  rejectIf (target.length ≠ expectedLen)
    (.patchFailed "STORE_PATCH generate: target length does not match expected_len")
  pure target

/-- `apply_store_patch`. -/
def applyStorePatch (patchPayload : Bytes) (expectedLen : ℕ) : Except PatchError Bytes := do
  rejectIf (patchPayload.length ≠ expectedLen)
    (.patchFailed "STORE_PATCH: decoded payload length does not match LFH Uncompressed Size")
  pure patchPayload

theorem applyStorePatch_eq_ok_iff {patchPayload out : Bytes} {expectedLen : ℕ} :
    applyStorePatch patchPayload expectedLen = .ok out ↔
      patchPayload.length = expectedLen ∧ out = patchPayload := by
  simp only [applyStorePatch, Except.bind_eq_ok_iff, Except.exists_unit, Except.rejectIf_eq_ok_iff,
    not_not, ne_eq, Except.pure_eq_ok, Except.ok.injEq, eq_comm (a := out)]

end Sar
