import Sar.Archive.Transform
import Sar.Core.LocalFileHeader
import Sar.Delta.Bsdiff
import Sar.Delta.Vcdiff

/-!
# What the entry decoders share

The reader options, the key-management context of an archive, and the limits handed on to the
patch decoders. Both the seekable reader and the stream parser call these.
-/

namespace Sar

open Except (rejectIf liftError okOr)

/-- `ArchiveReaderOptions`. -/
structure ArchiveReaderOptions where
  limits : ResourceLimits
  deltaBase : Option Bytes

/-- `ArchiveReaderOptions::max_decoded_entry_size`. -/
def ArchiveReaderOptions.maxDecodedEntrySize (options : ArchiveReaderOptions) : ℕ :=
  options.limits.maxDecodedEntrySize

/-- `ZERO_DELTA_BASE_HASH`. -/
def zeroDeltaBaseHash : Octets 32 := Octets.zero 32

/-- The parameters in the key-management extension; mode 4 has a parser of its own. -/
def kmsParamsOf (kms : KmsData) : Except SarCryptoError KmsParams :=
  if kms.modeId = kmsTlsExporter then
    KmsParams.tlsExporter <$> parseTlsExporterKmsPayload kms.payload
  else parseKmsPayload kms.modeId kms.payload

/-- `build_kms_context`. -/
def buildKmsContext (header : GlobalHeader) : Result KmsContext := do
  let kms ← okOr header.kms (.malformed "encrypted archive is missing KMS data")
  let params ← (kmsParamsOf kms).liftError SarCryptoError.toSarError
  pure ⟨kms.modeId, params⟩

/-- `validate_delta_pre_dispatch`. -/
def validateDeltaPreDispatch (patchPayloadLen expectedTargetSize : ℕ) (limits : ResourceLimits) :
    Result Unit := do
  rejectIf (expectedTargetSize > limits.maxDecodedEntrySize)
    (.limitExceeded "delta target size exceeds max_decoded_entry_size")
  rejectIf (patchPayloadLen > limits.maxInMemoryBuffer)
    (.limitExceeded "delta patch payload exceeds max_in_memory_buffer")

/-- `bsdiff_limits_from_resource_limits`. -/
def bsdiffLimitsFromResourceLimits (r : ResourceLimits) : BsdiffLimits where
  maxPatchSize := r.maxInMemoryBuffer
  maxControlBytes := r.maxBsdiffControlBytes
  maxDiffBytes := r.maxBsdiffDiffBytes
  maxExtraBytes := r.maxBsdiffExtraBytes
  maxControlTriples := r.maxBsdiffControlTriples
  maxTargetSize := r.maxDecodedEntrySize

/-- `vcdiff_limits_from_resource_limits`. -/
def vcdiffLimitsFromResourceLimits (r : ResourceLimits) : VcdiffLimits where
  maxPatchSize := r.maxInMemoryBuffer
  maxWindowCount := r.maxVcdiffWindowCount
  maxInstructionCount := r.maxVcdiffInstructionCount
  maxOutputSize :=
    if r.maxVcdiffOutputSize = 0 then r.maxDecodedEntrySize
    else min r.maxVcdiffOutputSize r.maxDecodedEntrySize

end Sar
