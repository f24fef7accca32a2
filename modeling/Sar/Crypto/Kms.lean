import Sar.Core.Cursor
import Sar.Core.Utf8

/-!
# Key-management payloads

The parameters stored in the Global Header's key-management extension, their codec, and the
resolution of the content-encryption key from a key provider. The key-derivation functions and
the provider are parameters.
-/

namespace Sar

open LittleEndian
open Except (rejectIf)

/-- `KMS_PBKDF2`. -/
def kmsPbkdf2 : UInt8 := 0x01

/-- `KMS_ARGON2`. -/
def kmsArgon2 : UInt8 := 0x02

/-- `KMS_ASYMMETRIC_WRAP`. -/
def kmsAsymmetricWrap : UInt8 := 0x03

/-- `KMS_TLS_EXPORTER`. -/
def kmsTlsExporter : UInt8 := 0x04

/-- `Pbkdf2Params`. -/
structure Pbkdf2Params where
  prfAlgoId : UInt8
  salt : Bytes
  iterations : UInt32
  derivedKeyLength : UInt16
  deriving DecidableEq

/-- `Argon2Params`. -/
structure Argon2Params where
  variant : UInt8
  version : UInt8
  salt : Bytes
  memoryCostKib : UInt32
  timeCost : UInt32
  parallelism : UInt16
  derivedKeyLength : UInt16
  deriving DecidableEq

/-- `AsymmetricRecipient`. -/
structure AsymmetricRecipient where
  recipientId : Bytes
  wrappedKey : Bytes
  deriving DecidableEq

/-- `AsymmetricWrapParams`. -/
structure AsymmetricWrapParams where
  wrapAlgoId : UInt8
  recipients : List AsymmetricRecipient
  deriving DecidableEq

/-- `TlsExporterParams`. -/
structure TlsExporterParams where
  exporterLabel : Str
  contextVersion : UInt8
  aeadAlgoId : UInt8
  kdfAlgoId : UInt8
  globalHeaderHashAlgoId : UInt8
  salt : Bytes
  derivedKeyLength : UInt16
  flags : UInt16
  deriving DecidableEq

/-- `KmsParams`. -/
inductive KmsParams where
  | pbkdf2 (params : Pbkdf2Params)
  | argon2 (params : Argon2Params)
  | asymmetricWrap (params : AsymmetricWrapParams)
  | tlsExporter (params : TlsExporterParams)
  deriving DecidableEq

/-- `KmsContext`. -/
structure KmsContext where
  modeId : UInt8
  params : KmsParams
  deriving DecidableEq

/-- `kms_mode_id`. -/
def KmsParams.modeId : KmsParams → UInt8
  | .pbkdf2 _ => kmsPbkdf2
  | .argon2 _ => kmsArgon2
  | .asymmetricWrap _ => kmsAsymmetricWrap
  | .tlsExporter _ => kmsTlsExporter

/-! ### Serialisation -/

/-- `x.len() as u8`. -/
def lenAsU8 (bs : Bytes) : UInt8 := UInt8.ofNat bs.length

/-- One recipient, written. -/
def AsymmetricRecipient.toBytes (r : AsymmetricRecipient) : Bytes :=
  [lenAsU8 r.recipientId] ++ r.recipientId ++ u16Bytes (UInt16.ofNat r.wrappedKey.length) ++
    r.wrappedKey

/-- `serialize_tls_exporter_kms_payload`. -/
def serializeTlsExporterKmsPayload (p : TlsExporterParams) : Bytes :=
  [lenAsU8 p.exporterLabel.bytes] ++ p.exporterLabel.bytes ++
    [p.contextVersion, p.aeadAlgoId, p.kdfAlgoId, p.globalHeaderHashAlgoId, lenAsU8 p.salt] ++
    p.salt ++ u16Bytes p.derivedKeyLength ++ u16Bytes p.flags

/-- `serialize_kms_payload`; the lengths are truncated, not checked. -/
def serializeKmsPayload : KmsParams → Bytes
  | .pbkdf2 p =>
    [p.prfAlgoId, lenAsU8 p.salt] ++ p.salt ++ u32Bytes p.iterations ++
      u16Bytes p.derivedKeyLength
  | .argon2 p =>
    [p.variant, p.version, lenAsU8 p.salt] ++ p.salt ++ u32Bytes p.memoryCostKib ++
      u32Bytes p.timeCost ++ u16Bytes p.parallelism ++ u16Bytes p.derivedKeyLength
  | .asymmetricWrap p =>
    [p.wrapAlgoId, UInt8.ofNat p.recipients.length] ++
      p.recipients.flatMap AsymmetricRecipient.toBytes
  | .tlsExporter p => serializeTlsExporterKmsPayload p

/-! ### Parsing -/

/-- `payload[i]`, for an index the checks before it have bounded. -/
def byteAt (payload : Bytes) (i : ℕ) : UInt8 := payload.getD i 0

/-- `parse_pbkdf2`. -/
def parsePbkdf2 (payload : Bytes) : Except SarCryptoError KmsParams := do
  rejectIf (payload.length < 2) (.malformed "PBKDF2 payload too short")
  let prfAlgoId := byteAt payload 0
  rejectIf (prfAlgoId = 0x02 ∨ prfAlgoId = 0x03)
    (.unsupported "PBKDF2 PRF algorithm not implemented")
  rejectIf (prfAlgoId ≠ 0x01) (.reservedValue "unknown PBKDF2 PRF algorithm ID")
  let saltLen := (byteAt payload 1).toNat
  rejectIf (saltLen < 16) (.malformed "PBKDF2 salt length must be >= 16")
  let saltEnd := 2 + saltLen
  rejectIf (payload.length < saltEnd + 6) (.malformed "PBKDF2 payload truncated")
  let iterations := u32At payload saltEnd
  rejectIf (iterations.toNat < 100000) (.malformed "PBKDF2 iterations must be >= 100,000")
  rejectIf (iterations.toNat > 10000000) (.malformed "PBKDF2 iterations exceeds DoS limit")
  let derivedKeyLength := u16At payload (saltEnd + 4)
  rejectIf (derivedKeyLength ≠ 32) (.malformed "PBKDF2 derived_key_length must be 32")
  pure (.pbkdf2 ⟨prfAlgoId, sliceAt payload 2 saltLen, iterations, derivedKeyLength⟩)

/-- `parse_argon2`. -/
def parseArgon2 (payload : Bytes) : Except SarCryptoError KmsParams := do
  rejectIf (payload.length < 3) (.malformed "Argon2 payload too short")
  let variant := byteAt payload 0
  rejectIf (variant = 0x01 ∨ variant = 0x02) (.unsupported "only Argon2id (0x03) is supported")
  rejectIf (variant ≠ 0x03) (.reservedValue "unknown Argon2 variant")
  let version := byteAt payload 1
  rejectIf (version = 0) (.malformed "Argon2 version must be non-zero")
  let saltLen := (byteAt payload 2).toNat
  rejectIf (saltLen < 16) (.malformed "Argon2 salt length must be >= 16")
  let saltEnd := 3 + saltLen
  rejectIf (payload.length < saltEnd + 12) (.malformed "Argon2 payload truncated")
  let memoryCostKib := u32At payload saltEnd
  rejectIf (memoryCostKib.toNat < 65536)
    (.malformed "Argon2 memory_cost_kib must be >= 65536 (64 MiB)")
  rejectIf (memoryCostKib.toNat > 2097152)
    (.malformed "Argon2 memory_cost_kib exceeds DoS limit (2 GiB)")
  let timeCost := u32At payload (saltEnd + 4)
  rejectIf (timeCost.toNat < 1) (.malformed "Argon2 time_cost must be >= 1")
  rejectIf (timeCost.toNat > 100) (.malformed "Argon2 time_cost exceeds DoS limit")
  let parallelism := u16At payload (saltEnd + 8)
  rejectIf (parallelism.toNat < 1) (.malformed "Argon2 parallelism must be >= 1")
  rejectIf (parallelism.toNat > 256) (.malformed "Argon2 parallelism exceeds limit")
  let derivedKeyLength := u16At payload (saltEnd + 10)
  rejectIf (derivedKeyLength ≠ 32) (.malformed "Argon2 derived_key_length must be 32")
  pure (.argon2 ⟨variant, version, sliceAt payload 3 saltLen, memoryCostKib, timeCost,
    parallelism, derivedKeyLength⟩)

/-- The recipient loop of `parse_asymmetric_wrap`, from position `pos`. -/
def parseRecipients (payload : Bytes) : ℕ → ℕ → Except SarCryptoError (List AsymmetricRecipient)
  | 0, _ => pure []
  | count + 1, pos => do
    rejectIf (pos ≥ payload.length) (.malformed "ASYMMETRIC_WRAP recipient data truncated")
    let idLen := (byteAt payload pos).toNat
    let idStart := pos + 1
    rejectIf (idStart + idLen > payload.length)
      (.malformed "ASYMMETRIC_WRAP recipient_id truncated")
    let keyLenStart := idStart + idLen
    rejectIf (keyLenStart + 2 > payload.length)
      (.malformed "ASYMMETRIC_WRAP wrapped_key_len truncated")
    let keyLen := (u16At payload keyLenStart).toNat
    let keyStart := keyLenStart + 2
    rejectIf (keyLen = 0)
      (.malformed "ASYMMETRIC_WRAP wrapped_key must not be empty (would expose plaintext CEK)")
    rejectIf (keyStart + keyLen > payload.length)
      (.malformed "ASYMMETRIC_WRAP wrapped_key truncated")
    let recipients ← parseRecipients payload count (keyStart + keyLen)
    pure (⟨sliceAt payload idStart idLen, sliceAt payload keyStart keyLen⟩ :: recipients)

/-- `parse_asymmetric_wrap`. -/
def parseAsymmetricWrap (payload : Bytes) : Except SarCryptoError KmsParams := do
  rejectIf (payload.length < 2) (.malformed "ASYMMETRIC_WRAP payload too short")
  let recipientCount := (byteAt payload 1).toNat
  rejectIf (recipientCount < 1) (.malformed "ASYMMETRIC_WRAP must have at least 1 recipient")
  let recipients ← parseRecipients payload recipientCount 2
  pure (.asymmetricWrap ⟨byteAt payload 0, recipients⟩)

/-- `parse_kms_payload`. -/
def parseKmsPayload (modeId : UInt8) (payload : Bytes) : Except SarCryptoError KmsParams :=
  if modeId = kmsPbkdf2 then parsePbkdf2 payload
  else if modeId = kmsArgon2 then parseArgon2 payload
  else if modeId = kmsAsymmetricWrap then parseAsymmetricWrap payload
  else if modeId = kmsTlsExporter then
    .error (.unsupported ("KMS_TLS_EXPORTER requires an authenticated TLS session; " ++
      "unsupported on plaintext TCP"))
  else if 0xF0 ≤ modeId then .error (.unsupported "custom KMS mode")
  else .error (.reservedValue "unknown KMS mode ID")

/-- `parse_tls_exporter_kms_payload`. -/
def parseTlsExporterKmsPayload (payload : Bytes) : Except SarCryptoError TlsExporterParams := do
  rejectIf (payload = []) (.malformed "TLS_EXPORTER KMS payload too short: missing label length")
  let labelLen := (byteAt payload 0).toNat
  let labelEnd := 1 + labelLen
  rejectIf (payload.length < labelEnd + 7)
    (.malformed "TLS_EXPORTER KMS payload too short: truncated before fixed fields")
  let labelBytes := sliceAt payload 1 labelLen
  rejectIf (labelBytes.any (0x80 ≤ ·)) (.malformed "TLS_EXPORTER exporter label must be ASCII")
  rejectIf (labelBytes = []) (.malformed "TLS_EXPORTER exporter label must not be empty")
  let exporterLabel ← Str.ofUtf8 labelBytes
    (SarCryptoError.malformed "TLS_EXPORTER label is not valid UTF-8")
  let contextVersion := byteAt payload labelEnd
  rejectIf (contextVersion ≠ 0x01)
    (.unsupported "TLS_EXPORTER: only context version 0x01 is supported")
  let aeadAlgoId := byteAt payload (labelEnd + 1)
  let kdfAlgoId := byteAt payload (labelEnd + 2)
  rejectIf (kdfAlgoId ≠ 0x00) (.reservedValue "TLS_EXPORTER: nonzero KDF Algo ID is reserved")
  let globalHeaderHashAlgoId := byteAt payload (labelEnd + 3)
  rejectIf (labelEnd + 4 ≥ payload.length)
    (.malformed "TLS_EXPORTER KMS payload too short: missing salt length")
  let saltLen := (byteAt payload (labelEnd + 4)).toNat
  let saltStart := labelEnd + 5
  let saltEnd := saltStart + saltLen
  rejectIf (payload.length < saltEnd + 4)
    (.malformed "TLS_EXPORTER KMS payload too short: truncated in salt / derived key length")
  let derivedKeyLength := u16At payload saltEnd
  rejectIf (derivedKeyLength = 0) (.malformed "TLS_EXPORTER derived_key_length must be nonzero")
  let flags := u16At payload (saltEnd + 2)
  rejectIf (flags ≠ 0) (.reservedValue "TLS_EXPORTER flags: reserved bits must be zero")
  pure ⟨exporterLabel, contextVersion, aeadAlgoId, kdfAlgoId, globalHeaderHashAlgoId,
    sliceAt payload saltStart saltLen, derivedKeyLength, flags⟩

/-! ### Key resolution -/

/-- `KeyProvider`. -/
structure KeyProvider where
  passwordFor : KmsContext → Except SarCryptoError (Option Str)
  unwrapKey : KmsContext → Bytes → Except SarCryptoError (Option Bytes)
  externalKey : KmsContext → Except SarCryptoError (Option Bytes)

/-- The key-derivation functions `sar-crypto` links. -/
structure KdfBackend where
  /-- PBKDF2-HMAC-SHA256 of a password, a salt and an iteration count. -/
  pbkdf2 : Bytes → Bytes → UInt32 → Octets 32
  /-- Whether the Argon2 library accepts a memory cost, a time cost and a parallelism. -/
  argon2Accepts : UInt32 → UInt32 → UInt16 → Bool
  /-- Argon2id of a password under the given parameters, unless the library fails. -/
  argon2 : Argon2Params → Bytes → Option (Octets 32)

/-- `pbkdf2::derive_key`. -/
def derivePbkdf2 (kdf : KdfBackend) (params : Pbkdf2Params) (password : Bytes) :
    Except SarCryptoError Bytes := do
  rejectIf (params.salt.length < 16) (.malformed "PBKDF2 salt length must be >= 16")
  rejectIf (params.iterations.toNat < 100000) (.malformed "PBKDF2 iterations must be >= 100,000")
  rejectIf (params.derivedKeyLength ≠ 32) (.malformed "PBKDF2 derived_key_length must be 32")
  rejectIf (params.prfAlgoId ≠ 0x01) (.unsupported "PBKDF2 PRF not supported")
  pure (kdf.pbkdf2 password params.salt params.iterations).val

/-- `argon2::derive_key`. -/
def deriveArgon2 (kdf : KdfBackend) (params : Argon2Params) (password : Bytes) :
    Except SarCryptoError Bytes := do
  rejectIf (params.variant ≠ 0x03) (.unsupported "only Argon2id (variant 0x03) is implemented")
  rejectIf (params.version = 0) (.malformed "Argon2 version must be non-zero")
  rejectIf (params.salt.length < 16) (.malformed "Argon2 salt length must be >= 16")
  rejectIf (params.memoryCostKib.toNat < 65536)
    (.malformed "Argon2 memory_cost_kib must be >= 65536")
  rejectIf (params.timeCost.toNat < 1) (.malformed "Argon2 time_cost must be >= 1")
  rejectIf (params.parallelism.toNat < 1) (.malformed "Argon2 parallelism must be >= 1")
  rejectIf (params.derivedKeyLength ≠ 32) (.malformed "Argon2 derived_key_length must be 32")
  rejectIf (!kdf.argon2Accepts params.memoryCostKib params.timeCost params.parallelism)
    (.malformed "invalid Argon2 parameters")
  match kdf.argon2 params password with
  | some key => pure key.val
  | none => throw (.internal "Argon2 key derivation failed")

/-- The password, or the given error when the provider has none. -/
def requirePassword (provider : KeyProvider) (context : KmsContext) (missing : String) :
    Except SarCryptoError Str := do
  match ← provider.passwordFor context with
  | some password => pure password
  | none => throw (.keyMissing missing)

/-- The recipient loop of `resolve_cek`. -/
def unwrapFirst (provider : KeyProvider) (context : KmsContext) :
    List AsymmetricRecipient → Except SarCryptoError Bytes
  | [] => throw (.keyMissing "no recipient key available for ASYMMETRIC_WRAP")
  | recipient :: rest => do
    match ← provider.unwrapKey context recipient.wrappedKey with
    | some key => pure key
    | none => unwrapFirst provider context rest

/-- The mode-specific part of `resolve_cek`. -/
def resolveByParams (kdf : KdfBackend) (provider : KeyProvider) (context : KmsContext) :
    KmsParams → Except SarCryptoError Bytes
  | .pbkdf2 params => do
    let password ← requirePassword provider context "no password provided for PBKDF2"
    derivePbkdf2 kdf params password.bytes
  | .argon2 params => do
    let password ← requirePassword provider context "no password provided for Argon2"
    deriveArgon2 kdf params password.bytes
  | .asymmetricWrap params => unwrapFirst provider context params.recipients
  | .tlsExporter _ =>
    throw (.unsupported "KMS_TLS_EXPORTER requires a transport-provided TlsExporterKeyProvider")

/-- `resolve_cek`. -/
def resolveCek (kdf : KdfBackend) (provider : KeyProvider) (context : KmsContext) :
    Except SarCryptoError Bytes := do
  match ← provider.externalKey context with
  | some key => pure key
  | none => resolveByParams kdf provider context context.params

end Sar
