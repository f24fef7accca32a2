import Sar.Core.Error

/-!
# Authenticated encryption

The two ciphers the archive uses, behind one interface.
-/

namespace Sar

open Except (rejectIf bind_eq_ok_iff exists_unit)
open List

/-- `ENCR_AES256_GCM`. -/
def encrAes256Gcm : UInt8 := 0x01

/-- `ENCR_XCHACHA20_POLY`. -/
def encrXchacha20Poly : UInt8 := 0x04

/-- `AEAD_KEY_SIZE`. -/
def aeadKeySize : ℕ := 32

/-- `TAG_SIZE`. -/
def tagSize : ℕ := 16

/-- `validate_encr_algo_id`. -/
def validateEncrAlgoId (id : UInt8) : Except SarCryptoError Unit :=
  if id = 0x00 ∨ id = encrAes256Gcm ∨ id = encrXchacha20Poly then .ok ()
  else if id = 0x02 then .error (.unsupported "ENCR_CHACHA20 not implemented")
  else if id = 0x03 then .error (.unsupported "ENCR_AES256_CBC not implemented")
  else if id = 0x05 then .error (.unsupported "ENCR_CHACHA20_POLY1305 not implemented")
  else if id ≤ 0x1F then .error (.reservedValue "reserved encryption algorithm ID")
  else if id ≤ 0x3F then .error (.reservedValue "reserved encryption algorithm range 0x20-0x3F")
  else if id ≤ 0x5F then .error (.reservedValue "reserved encryption algorithm range 0x40-0x5F")
  else if id ≤ 0xEF then .error (.reservedValue "reserved encryption algorithm range 0x60-0xEF")
  else .error (.unsupported "custom encryption algorithm range 0xF0-0xFF")

/-- A third-party cipher with a detached tag; key, nonce, associated data and text are given. -/
structure Cipher where
  /-- The ciphertext and its tag, unless the library fails. -/
  encryptDetached : Bytes → Bytes → Bytes → Bytes → Option (Bytes × Octets 16)
  /-- The plaintext, if the tag matches. -/
  decryptDetached : Bytes → Bytes → Bytes → Bytes → Bytes → Option Bytes

/-- The ciphers `sar-crypto` links. -/
structure AeadBackend where
  aes256Gcm : Cipher
  xchacha20Poly1305 : Cipher

/-- `validate_nonce_field`. -/
def validateNonceField (algoId : UInt8) (field : Octets 24) (strict : Bool) :
    Except SarCryptoError Unit :=
  if algoId = encrAes256Gcm then
    rejectIf (strict && (field.val.drop 12).any (· != 0))
      (.malformed "AES-GCM nonce field: bytes [12..24] must be zero")
  else if algoId = encrXchacha20Poly then .ok ()
  else .error (.unsupported "unsupported AEAD algorithm for nonce validation")

/-- The cipher of an algorithm, the nonce it takes from the field, and its error texts. -/
structure CipherSuite where
  cipher : Cipher
  nonce : Octets 24 → Bytes
  encryptFailed : String
  tagMismatch : String

/-- The dispatch of `aead_encrypt` and `aead_decrypt`. -/
def AeadBackend.suite (backend : AeadBackend) (algoId : UInt8) :
    Except SarCryptoError CipherSuite :=
  if algoId = encrAes256Gcm then
    .ok ⟨backend.aes256Gcm, fun field => field.val.take 12, "AES-GCM encryption failed",
      "AES-GCM authentication tag mismatch"⟩
  else if algoId = encrXchacha20Poly then
    .ok ⟨backend.xchacha20Poly1305, fun field => field.val,
      "XChaCha20-Poly1305 encryption failed", "XChaCha20-Poly1305 authentication tag mismatch"⟩
  else .error (.unsupported "unsupported AEAD algorithm")

/-- `aead_encrypt`: ciphertext followed by tag. -/
def aeadEncrypt (backend : AeadBackend) (algoId : UInt8) (key : Bytes) (ivNonceField : Octets 24)
    (aad plaintext : Bytes) : Except SarCryptoError Bytes := do
  rejectIf (key.length ≠ aeadKeySize) (.invalidLength "key must be 32 bytes")
  validateNonceField algoId ivNonceField true
  let suite ← backend.suite algoId
  match suite.cipher.encryptDetached key (suite.nonce ivNonceField) aad plaintext with
  | some (ciphertext, tag) => pure (ciphertext ++ tag.val)
  | none => throw (.internal suite.encryptFailed)

/-- The ciphers work in place: a ciphertext is as long as its text. -/
def AeadBackend.InPlace (backend : AeadBackend) : Prop :=
  ∀ cipher ∈ [backend.aes256Gcm, backend.xchacha20Poly1305], ∀ key nonce aad text out tag,
    cipher.encryptDetached key nonce aad text = some (out, tag) → out.length = text.length

theorem length_aeadEncrypt {backend : AeadBackend} (h : backend.InPlace) {algoId : UInt8}
    {key aad text out : Bytes} {field : Octets 24}
    (hout : aeadEncrypt backend algoId key field aad text = .ok out) :
    out.length = text.length + tagSize := by
  simp only [aeadEncrypt, bind_eq_ok_iff, exists_unit] at hout
  obtain ⟨-, -, suite, hsuite, hout⟩ := hout
  have hmem : suite.cipher ∈ [backend.aes256Gcm, backend.xchacha20Poly1305] := by
    rw [AeadBackend.suite] at hsuite
    split_ifs at hsuite
    · cases hsuite
      exact mem_cons_self
    · cases hsuite
      exact mem_cons_of_mem _ mem_cons_self
  split at hout
  · rename_i ciphertext tag hcipher
    cases hout
    rw [length_append, h _ hmem _ _ _ _ _ _ hcipher, Octets.length_val, tagSize]
  · cases hout

/-- `aead_decrypt`. -/
def aeadDecrypt (backend : AeadBackend) (algoId : UInt8) (key : Bytes) (ivNonceField : Octets 24)
    (aad ciphertextWithTag : Bytes) : Except SarCryptoError Bytes := do
  rejectIf (key.length ≠ aeadKeySize) (.invalidLength "key must be 32 bytes")
  rejectIf (ciphertextWithTag.length < tagSize) (.invalidLength "ciphertext too short (< 16 bytes)")
  let ctLen := ciphertextWithTag.length - tagSize
  validateNonceField algoId ivNonceField true
  let suite ← backend.suite algoId
  match suite.cipher.decryptDetached key (suite.nonce ivNonceField) aad
      (ciphertextWithTag.take ctLen) (ciphertextWithTag.drop ctLen) with
  | some plaintext => pure plaintext
  | none => throw (.authFailed suite.tagMismatch)

/-- `generate_nonce`; `random` are the bytes the system generator delivers. -/
def generateNonce (algoId : UInt8) (random : Octets 24) : Except SarCryptoError (Octets 24) :=
  if algoId = encrAes256Gcm then
    .ok ⟨random.val.take 12 ++ List.replicate 12 0, by simp [random.property]⟩
  else if algoId = encrXchacha20Poly then .ok random
  else .error (.unsupported "unsupported AEAD algorithm for nonce generation")

/-- `build_aead_aad`. -/
def buildAeadAad (globalFlagsSection lfhBytes : Bytes) : Bytes := globalFlagsSection ++ lfhBytes

end Sar
