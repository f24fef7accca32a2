import Sar.Compression.Codec
import Sar.Crypto.Aead
import Sar.Crypto.Kms

/-!
# Payload transforms

Between the logical bytes of an entry and the bytes that are stored: compression, then
authenticated encryption.
-/

namespace Sar

open Except (rejectIf liftError)

/-- The third-party primitives the archive layer is linked against. -/
structure Backend where
  compression : CompressionBackend
  aead : AeadBackend
  kdf : KdfBackend

/-- A coder that stores what it is given. -/
def Coder.plain : Coder where
  encode _ input := if input.length ≤ isizeMax then some input else none
  decode input := (input, true)

/-- A cipher that changes nothing and checks nothing. -/
def Cipher.plain : Cipher where
  encryptDetached _ _ _ text :=
    if text.length + tagSize ≤ isizeMax then
      some (text, ⟨List.replicate 16 0, List.length_replicate⟩)
    else none
  decryptDetached _ _ _ text _ := some text

/-- Primitives that leave bytes as they are, with which runs can be evaluated. -/
def Backend.plain : Backend where
  compression := ⟨Coder.plain, Coder.plain⟩
  aead := ⟨Cipher.plain, Cipher.plain⟩
  kdf :=
    { pbkdf2 := fun _ _ _ => ⟨List.replicate 32 0, List.length_replicate⟩
      argon2Accepts := fun _ _ _ => false
      argon2 := fun _ _ => none }

/-- `EncodingPlan`. -/
structure EncodingPlan where
  isCompressed : Bool
  compAlgoId : UInt8
  compressionLevel : Option UInt8

/-- `DecodingPlan`. -/
structure DecodingPlan where
  isCompressed : Bool
  compAlgoId : UInt8
  expectedOutputSize : ℕ
  maxOutputSize : ℕ

/-- `EntryCryptoContext`. -/
structure EntryCryptoContext where
  algoId : UInt8
  ivNonce : Octets 24
  aad : Bytes
  key : Bytes

/-- `EncodingPlanV2`. -/
structure EncodingPlanV2 extends EncodingPlan where
  crypto : Option EntryCryptoContext

/-- `DecodingPlanV2`. -/
structure DecodingPlanV2 extends DecodingPlan where
  crypto : Option EntryCryptoContext

/-- `map_compression_error`. -/
def mapCompressionError : CompressionError → SarError
  | .unsupported _ => .unsupported "compression algorithm"
  | .reservedValue _ => .reservedValue "compression algorithm id is reserved"
  | .compressionFailed => .compressionFailed "compression failed"
  | .decompressionFailed => .decompressionFailed "decompression failed"
  | .limitExceeded => .limitExceeded "decompression output limit"

variable (backend : Backend)

/-- `encode_payload`. -/
def encodePayload (logicalPayload : Bytes) (plan : EncodingPlan) : Result Bytes :=
  let algoId := if plan.isCompressed then plan.compAlgoId else compAlgoStore
  (encodeStream backend.compression algoId logicalPayload plan.compressionLevel).liftError
    mapCompressionError

/-- `decode_payload`. -/
def decodePayload (encodedPayload : Bytes) (plan : DecodingPlan) : Result Bytes := do
  let algoId := if plan.isCompressed then plan.compAlgoId else compAlgoStore
  let maxOutput := min plan.expectedOutputSize plan.maxOutputSize
  rejectIf (plan.expectedOutputSize > plan.maxOutputSize)
    (.limitExceeded "entry uncompressed size exceeds configured decode limit")
  (decodeStream backend.compression algoId encodedPayload maxOutput).liftError mapCompressionError

/-- Compressed bytes, encrypted if the entry has a crypto context. -/
def sealPayload (crypto : Option EntryCryptoContext) (compressed : Bytes) : Result Bytes :=
  match crypto with
  | some context =>
    (aeadEncrypt backend.aead context.algoId context.key context.ivNonce context.aad
      compressed).liftError SarCryptoError.toSarError
  | none => .ok compressed

/-- Stored bytes, decrypted if the entry has a crypto context. -/
def openPayload (crypto : Option EntryCryptoContext) (encodedPayload : Bytes) : Result Bytes :=
  match crypto with
  | some context =>
    (aeadDecrypt backend.aead context.algoId context.key context.ivNonce context.aad
      encodedPayload).liftError SarCryptoError.toSarError
  | none => .ok encodedPayload

/-- `encode_payload_v2`: compress, then optionally encrypt. -/
def encodePayloadV2 (logicalPayload : Bytes) (plan : EncodingPlanV2) : Result Bytes := do
  let compressed ← encodePayload backend logicalPayload plan.toEncodingPlan
  sealPayload backend plan.crypto compressed

/-- `decode_payload_v2`: authenticate and decrypt first, then decompress. -/
def decodePayloadV2 (encodedPayload : Bytes) (plan : DecodingPlanV2) : Result Bytes := do
  let decrypted ← openPayload backend plan.crypto encodedPayload
  decodePayload backend decrypted plan.toDecodingPlan

end Sar
