import Sar.ForMathlib.ExceptLemmas

/-!
# Errors of the SAR crates

`SarError` is the error type every public function of the archive, stream and transport
crates reports, with the static message the source attaches to it. The satellite crates have
error types of their own (`SarCryptoError`, `FragmentError`, `SparseError`, `FecError`,
`PatchError`) and are mapped into `SarError` at the boundary; the maps stand next to the types.
-/

namespace Sar

/-- A byte string (`Vec<u8>` or `&[u8]`). -/
abbrev Bytes := List UInt8

/-- A fixed-length byte array (`[u8; n]`). -/
abbrev Octets (n : ℕ) := {bs : Bytes // bs.length = n}

/-- `[0u8; n]`. -/
def Octets.zero (n : ℕ) : Octets n := ⟨List.replicate n 0, by simp⟩

@[simp] theorem Octets.length_val {n : ℕ} (bs : Octets n) : bs.val.length = n := bs.property

/-- `u64::MAX`, which is also `usize::MAX` on the 64-bit targets modelled here. -/
def u64Max : ℕ := 2 ^ 64 - 1

/-- `isize::MAX`: no Rust allocation is longer than this many bytes. -/
def isizeMax : ℕ := 2 ^ 63 - 1

theorem toNat_uint64_ofNat {n : ℕ} (h : n ≤ u64Max) : (UInt64.ofNat n).toNat = n := by
  apply UInt64.toNat_ofNat_of_lt'
  have hsize : UInt64.size = u64Max + 1 := by decide
  omega

/-- `sar_core::SarError`. -/
inductive SarError where
  | generic
  | notFound (msg : String)
  | invalidMagic
  | io (msg : String)
  | crcMismatch (msg : String)
  | authFailed (msg : String)
  | malloc (msg : String)
  | unsupported (msg : String)
  | flagConflict (msg : String)
  | patchFailed (msg : String)
  | baseMissing (msg : String)
  | invalidMap (msg : String)
  | noSpace (msg : String)
  | partitionMissing (msg : String)
  | fragmentGap (msg : String)
  | reassemblyBufferFull (msg : String)
  | partitionMismatch (msg : String)
  | fragmentTimeout (msg : String)
  | recipeUnresolvable (msg : String)
  | cdcMismatch (msg : String)
  | ecFailed (msg : String)
  | truncated (msg : String)
  | malformed (msg : String)
  | bounds (msg : String)
  | reservedValue (msg : String)
  | overflow (msg : String)
  | limitExceeded (msg : String)
  | invalidAlignment (msg : String)
  | invalidLength (msg : String)
  | checksumMismatch (msg : String)
  | hashMismatch (msg : String)
  | decryptFailed (msg : String)
  | signatureFailed (msg : String)
  | anchorHashFailed (msg : String)
  | invalidVersion (msg : String)
  | keyMissing (msg : String)
  | keyRejected (msg : String)
  | streamClosed (msg : String)
  | streamState (msg : String)
  | metadataMissing (msg : String)
  | metadataConflict (msg : String)
  | recoveryUnavailable (msg : String)
  | recoveryCorrupted (msg : String)
  | compressionFailed (msg : String)
  | decompressionFailed (msg : String)
  | writeProtected (msg : String)
  | alreadyExists (msg : String)
  | cancelled (msg : String)
  | timeout (msg : String)
  | internal (msg : String)
  | nonceReuse (msg : String)
  | tooManyStreams (msg : String)
  deriving DecidableEq

/-- `Result<T, SarError>`. -/
abbrev Result := Except SarError

/-- `SarStatus`. -/
inductive SarStatus where
  | ok
  | errGeneric
  | errNotFound
  | errInvalidMagic
  | errIo
  | errCrcMismatch
  | errAuthFailed
  | errMalloc
  | errUnsupported
  | errFlagConflict
  | errPatchFailed
  | errBaseMissing
  | errInvalidMap
  | errNoSpace
  | errPartitionMissing
  | errFragmentGap
  | errReassemblyBufferFull
  | errPartitionMismatch
  | errFragmentTimeout
  | warnIncomplete
  | errRecipeUnresolvable
  | errCdcMismatch
  | errEcFailed
  | errTruncated
  | errMalformed
  | errBounds
  | errReservedValue
  | errOverflow
  | errLimitExceeded
  | errInvalidAlignment
  | errInvalidLength
  | errChecksumMismatch
  | errHashMismatch
  | errDecryptFailed
  | errSignatureFailed
  | errAnchorHashFailed
  | errInvalidVersion
  | errKeyMissing
  | errKeyRejected
  | errStreamClosed
  | errStreamState
  | errMetadataMissing
  | errMetadataConflict
  | errRecoveryUnavailable
  | errRecoveryCorrupted
  | errCompressionFailed
  | errDecompressionFailed
  | errWriteProtected
  | errAlreadyExists
  | errCancelled
  | errTimeout
  | errInternal
  | errNonceReuse
  | errTooManyStreams
  deriving DecidableEq

/-- The registry: the status of code `n` stands at position `n`. -/
def SarStatus.registry : List SarStatus :=
  [.ok, .errNotFound, .errInvalidMagic, .errIo, .errCrcMismatch, .errAuthFailed, .errMalloc,
    .errUnsupported, .errFlagConflict, .errPatchFailed, .errBaseMissing, .errInvalidMap,
    .errNoSpace, .errPartitionMissing, .errFragmentGap, .errReassemblyBufferFull,
    .errPartitionMismatch, .errFragmentTimeout, .warnIncomplete, .errRecipeUnresolvable,
    .errCdcMismatch, .errEcFailed, .errTruncated, .errMalformed, .errBounds, .errReservedValue,
    .errOverflow, .errLimitExceeded, .errInvalidAlignment, .errInvalidLength, .errChecksumMismatch,
    .errHashMismatch, .errDecryptFailed, .errSignatureFailed, .errAnchorHashFailed,
    .errInvalidVersion, .errKeyMissing, .errKeyRejected, .errStreamClosed, .errStreamState,
    .errMetadataMissing, .errMetadataConflict, .errRecoveryUnavailable, .errRecoveryCorrupted,
    .errCompressionFailed, .errDecompressionFailed, .errWriteProtected, .errAlreadyExists,
    .errCancelled, .errTimeout, .errInternal, .errNonceReuse, .errTooManyStreams]

/-- `SarError::status`. -/
def SarError.status : SarError → SarStatus
  | .generic => .errGeneric
  | .notFound _ => .errNotFound
  | .invalidMagic => .errInvalidMagic
  | .io _ => .errIo
  | .crcMismatch _ => .errCrcMismatch
  | .authFailed _ => .errAuthFailed
  | .malloc _ => .errMalloc
  | .unsupported _ => .errUnsupported
  | .flagConflict _ => .errFlagConflict
  | .patchFailed _ => .errPatchFailed
  | .baseMissing _ => .errBaseMissing
  | .invalidMap _ => .errInvalidMap
  | .noSpace _ => .errNoSpace
  | .partitionMissing _ => .errPartitionMissing
  | .fragmentGap _ => .errFragmentGap
  | .reassemblyBufferFull _ => .errReassemblyBufferFull
  | .partitionMismatch _ => .errPartitionMismatch
  | .fragmentTimeout _ => .errFragmentTimeout
  | .recipeUnresolvable _ => .errRecipeUnresolvable
  | .cdcMismatch _ => .errCdcMismatch
  | .ecFailed _ => .errEcFailed
  | .truncated _ => .errTruncated
  | .malformed _ => .errMalformed
  | .bounds _ => .errBounds
  | .reservedValue _ => .errReservedValue
  | .overflow _ => .errOverflow
  | .limitExceeded _ => .errLimitExceeded
  | .invalidAlignment _ => .errInvalidAlignment
  | .invalidLength _ => .errInvalidLength
  | .checksumMismatch _ => .errChecksumMismatch
  | .hashMismatch _ => .errHashMismatch
  | .decryptFailed _ => .errDecryptFailed
  | .signatureFailed _ => .errSignatureFailed
  | .anchorHashFailed _ => .errAnchorHashFailed
  | .invalidVersion _ => .errInvalidVersion
  | .keyMissing _ => .errKeyMissing
  | .keyRejected _ => .errKeyRejected
  | .streamClosed _ => .errStreamClosed
  | .streamState _ => .errStreamState
  | .metadataMissing _ => .errMetadataMissing
  | .metadataConflict _ => .errMetadataConflict
  | .recoveryUnavailable _ => .errRecoveryUnavailable
  | .recoveryCorrupted _ => .errRecoveryCorrupted
  | .compressionFailed _ => .errCompressionFailed
  | .decompressionFailed _ => .errDecompressionFailed
  | .writeProtected _ => .errWriteProtected
  | .alreadyExists _ => .errAlreadyExists
  | .cancelled _ => .errCancelled
  | .timeout _ => .errTimeout
  | .internal _ => .errInternal
  | .nonceReuse _ => .errNonceReuse
  | .tooManyStreams _ => .errTooManyStreams

/-- `sar_crypto::SarCryptoError`. -/
inductive SarCryptoError where
  | authFailed (msg : String)
  | keyMissing (msg : String)
  | malformed (msg : String)
  | unsupported (msg : String)
  | reservedValue (msg : String)
  | invalidLength (msg : String)
  | internal (msg : String)
  | nonceReuse
  | flagConflict (msg : String)
  deriving DecidableEq

/-- `impl From<SarCryptoError> for SarError`. -/
def SarCryptoError.toSarError : SarCryptoError → SarError
  | .authFailed msg => .authFailed msg
  | .keyMissing msg => .keyMissing msg
  | .malformed msg => .malformed msg
  | .unsupported msg => .unsupported msg
  | .reservedValue msg => .reservedValue msg
  | .invalidLength msg => .invalidLength msg
  | .internal msg => .internal msg
  | .nonceReuse => .nonceReuse "nonce reuse detected"
  | .flagConflict msg => .flagConflict msg

/-- `sar_fragmentation::FragmentError`. -/
inductive FragmentError where
  | bounds (msg : String)
  | invalidMap (msg : String)
  | fragmentGap (msg : String)
  | overflow (msg : String)
  | limitExceeded (msg : String)
  | payloadSizeMismatch (msg : String)
  | duplicateIndex (msg : String)
  deriving DecidableEq

/-- `impl From<FragmentError> for SarError`. -/
def FragmentError.toSarError : FragmentError → SarError
  | .bounds msg => .bounds msg
  | .invalidMap msg => .invalidMap msg
  | .fragmentGap msg => .fragmentGap msg
  | .overflow msg => .overflow msg
  | .limitExceeded msg => .limitExceeded msg
  | .payloadSizeMismatch msg => .malformed msg
  | .duplicateIndex msg => .invalidMap msg

/-- `sar_sparse::SparseError`. -/
inductive SparseError where
  | invalidMap (msg : String)
  | overflow (msg : String)
  | truncated (msg : String)
  | limitExceeded (msg : String)
  deriving DecidableEq

/-- `impl From<SparseError> for SarError`. -/
def SparseError.toSarError : SparseError → SarError
  | .invalidMap msg => .invalidMap msg
  | .overflow msg => .overflow msg
  | .truncated msg => .truncated msg
  | .limitExceeded msg => .limitExceeded msg

end Sar
