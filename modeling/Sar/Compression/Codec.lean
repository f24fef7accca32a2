import Sar.Core.Error

/-!
# Compression

The registry of compression algorithms and the bounded decoder around the two third-party
coders. A coder is a parameter: `encode` may fail, and `decode` yields the bytes its reader
delivers together with whether the stream ended without an error.
-/

namespace Sar

open Except (rejectIf)

/-- `COMP_ALGO_STORE`. -/
def compAlgoStore : UInt8 := 0x00

/-- `COMP_ALGO_DEFLATE`. -/
def compAlgoDeflate : UInt8 := 0x01

/-- `COMP_ALGO_ZSTD`. -/
def compAlgoZstd : UInt8 := 0x02

/-- `CompressionAlgorithm`. -/
inductive CompressionAlgorithm where
  | store
  | deflate
  | zstd
  deriving DecidableEq

/-- `CompressionError`; the text a coder attaches to its failure is not modelled, since the
mapping into `SarError` drops it. -/
inductive CompressionError where
  | unsupported (id : UInt8)
  | reservedValue (id : UInt8)
  | compressionFailed
  | decompressionFailed
  | limitExceeded
  deriving DecidableEq

/-- `CompressionAlgorithm::from_id`. -/
def CompressionAlgorithm.fromId (id : UInt8) : Except CompressionError CompressionAlgorithm :=
  if id = compAlgoStore then .ok .store
  else if id = compAlgoDeflate then .ok .deflate
  else if id = compAlgoZstd then .ok .zstd
  else if (0x03 ≤ id ∧ id ≤ 0x05) ∨ 0xF0 ≤ id then .error (.unsupported id)
  else .error (.reservedValue id)

/-- A third-party stream coder. -/
structure Coder where
  /-- The encoded stream at a level, unless the encoder fails. -/
  encode : ℕ → Bytes → Option Bytes
  /-- The bytes the decoder delivers, and whether it then reported the end of the stream. -/
  decode : Bytes → Bytes × Bool

/-- The coders `sar-compression` links. -/
structure CompressionBackend where
  deflate : Coder
  zstd : Coder

variable (backend : CompressionBackend)

/-- `CompressionOptions` and `DecompressionOptions` are the extra arguments below. The encoder
behind `encode_stream`. -/
def CompressionBackend.encodeWith (level : Option UInt8)
    (input : Bytes) : CompressionAlgorithm → Option Bytes
  | .store => some input
  | .deflate => backend.deflate.encode (min (level.getD 6).toNat 9) input
  | .zstd => backend.zstd.encode (min (level.getD 3).toNat 9) input

/-- `encode_stream`. -/
def encodeStream (algoId : UInt8) (input : Bytes)
    (level : Option UInt8) : Except CompressionError Bytes := do
  let algorithm ← CompressionAlgorithm.fromId algoId
  match backend.encodeWith level input algorithm with
  | some output => pure output
  | none => throw .compressionFailed

/-- `copy_bounded`, whose loop gives up as soon as more than the limit was delivered, and so
before it sees a failure at the end. -/
def copyBounded (stream : Bytes × Bool) (maxOutputSize : ℕ) : Except CompressionError Bytes := do
  rejectIf (stream.1.length > maxOutputSize) .limitExceeded
  rejectIf (stream.2 = false) .decompressionFailed
  pure stream.1

/-- The reader behind `decode_stream`. -/
def CompressionBackend.decodeWith (input : Bytes) :
    CompressionAlgorithm → Bytes × Bool
  | .store => (input, true)
  | .deflate => backend.deflate.decode input
  | .zstd => backend.zstd.decode input

/-- `decode_stream`. -/
def decodeStream (algoId : UInt8) (input : Bytes)
    (maxOutputSize : ℕ) : Except CompressionError Bytes := do
  let algorithm ← CompressionAlgorithm.fromId algoId
  copyBounded (backend.decodeWith input algorithm) maxOutputSize

end Sar
