import Sar.Archive.Context
import Sar.Archive.FecSettings
import Sar.Archive.Metadata
import Sar.Archive.Transform
import Sar.Cdc.Map
import Sar.ForMathlib.Stateful
import Sar.Sparse.Reconstruct

/-!
# The archive writer

`ArchiveWriter` over a sink that takes every byte: the constructor, which turns the options
into global flags and resolves the content key; the two entry points `addEntry` and
`writeSparseEntry`; and `finish`, which adds the index. The methods are programs on the writer's
state, so what a failed call has already changed is part of the model.

`add_entry` and `write_sparse_entry` treat an entry alike once its header is prepared; the
common part is `writeEncoded`.
-/

namespace Sar

open Except (rejectIf liftError okOr)
open Stateful

/-! ### Options and inputs -/

/-- `CompressionSettings`. -/
structure CompressionSettings where
  algoId : UInt8
  level : Option UInt8
  deriving DecidableEq

/-- `CompressionSettings::store`. -/
def CompressionSettings.store : CompressionSettings := ⟨compAlgoStore, none⟩

/-- `EncryptionSettings`. -/
structure EncryptionSettings where
  algoId : UInt8
  kmsParams : KmsParams

/-- `LfhSizeFieldPolicy`. -/
inductive LfhSizeFieldPolicy where
  | auto
  | force32
  | force64
  deriving DecidableEq

/-- `ArchiveWriterOptions`, with its defaults. -/
structure ArchiveWriterOptions where
  noIndex : Bool := true
  encryption : Option EncryptionSettings := none
  fec : Option FecSettings := none
  archiveRecovery : Option FecSettings := none
  sparse : Bool := false
  withPath : Bool := false
  withPermissions : Bool := false
  withUidGid : Bool := false
  withTimestamps : Bool := false
  withPerFileCrc : Bool := false
  withContentHash : Bool := false
  withSymlinks : Bool := false
  withDelta : Bool := false
  lfhSizeFieldPolicy : LfhSizeFieldPolicy := .auto

/-- `DeltaWriteOptions`; the base is a vector, so it fits in memory. -/
structure DeltaWriteOptions where
  algorithm : PatchAlgoId
  base : Bytes
  base_le : base.length ≤ isizeMax := by decide
  deltaBaseHash : Octets 32

/-- `EntryInput`; the payload is a vector, so it fits in memory. -/
structure EntryInput where
  name : Str
  payload : Bytes
  payload_le : payload.length ≤ isizeMax := by decide
  kind : Option EntryKind := none
  path : Option Str := none
  permissions : Option UInt16 := none
  uidGid : Option UInt32 := none
  timestamps : Option Timestamps := none
  isHidden : Bool := false
  streamId : Option UInt16 := none
  sequenceNo : Option UInt16 := none
  fileCrc32 : Option UInt32 := none
  contentHash : Option (Octets 32) := none
  delta : Option DeltaWriteOptions := none

/-- `SparseWriteOptions`. -/
structure SparseWriteOptions where
  logicalSize : UInt64
  extents : List SparseExtent

/-- `EntryWritten`. -/
structure EntryWritten where
  lfhOffset : ℕ
  totalBytes : ℕ

/-- `ArchiveSummary`. -/
structure ArchiveSummary where
  entryCount : ℕ
  archiveSize : ℕ
  indexed : Bool
  deriving DecidableEq

/-- `StreamWriteState`. -/
inductive StreamWriteState where
  | needLocalFileHeader
  | needPayload
  | entryReady
  | needCentralDictionaryOrFooter
  | archiveComplete
  | error
  deriving DecidableEq

/-- `ArchiveRecoveryState`, without the three offsets that are stored and never read. -/
structure ArchiveRecoveryState where
  settings : FecSettings
  globalFlagsStartOffset : ℕ
  protectedRangeStart : ℕ
  protectedBytes : Bytes

/-- `ArchiveWriter`; the sink is what was written to it. -/
structure ArchiveWriter where
  writer : Bytes
  flags : GlobalFlags
  lfhSizeFieldPolicy : LfhSizeFieldPolicy
  compression : CompressionSettings
  position : ℕ
  offsets : List ℕ
  cdMetadata : List Tlv
  finished : Bool
  cek : Option Bytes
  encrAlgoId : Option UInt8
  usedNonces : List (Octets 24)
  globalFlagsSection : Bytes
  headerKms : Option KmsData
  headerWritten : Bool
  fec : Option FecSettings
  archiveRecovery : Option ArchiveRecoveryState
  streamState : StreamWriteState

/-- Methods of the writer. -/
abbrev WriterM := Prog ArchiveWriter SarError

namespace ArchiveWriter

variable (backend : Backend)

/-! ### Construction -/

/-- `RECOVERY_TLV_TYPE_MIN..=RECOVERY_TLV_TYPE_MAX`. -/
def isRecoveryTlv (tlv : Tlv) : Bool := decide (0x10 ≤ tlv.typeId) && decide (tlv.typeId ≤ 0x1F)

/-- The global flags that the options switch on. -/
def flagsOfOptions (options : ArchiveWriterOptions) (compression : CompressionSettings)
    (cdMetadata : List Tlv) : GlobalFlags where
  size64Bit := decide (options.lfhSizeFieldPolicy = .force64)
  noIndex := options.noIndex
  optPresent := !cdMetadata.isEmpty || options.archiveRecovery.isSome
  cdcSupport := cdMetadata.any fun tlv => isCdcMetadataTlvType tlv.typeId
  compressed := compression.algoId != compAlgoStore
  hasDelta := options.withDelta
  encrypted := options.encryption.isSome
  perFileCrc := options.withPerFileCrc
  hasGlobalEc := options.archiveRecovery.isSome || cdMetadata.any isRecoveryTlv
  selectiveFec := options.fec.isSome
  hasPath := options.withPath
  hasPerms := options.withPermissions
  hasSymlinks := options.withSymlinks
  extUidGid := options.withUidGid
  extTime := options.withTimestamps
  deduplication := options.withContentHash
  sparseFiles := options.sparse

/-- What the constructor keeps of the encryption settings. -/
structure ResolvedEncryption where
  cek : Bytes
  algoId : UInt8
  kms : KmsData

/-- The content key and the key-management extension. -/
def resolveEncryption (keyProvider : Option KeyProvider) (encryption : EncryptionSettings) :
    Result ResolvedEncryption := do
  (validateEncrAlgoId encryption.algoId).liftError SarCryptoError.toSarError
  rejectIf (encryption.algoId ≠ encrAes256Gcm ∧ encryption.algoId ≠ encrXchacha20Poly)
    (.unsupported "archive writer supports only AES-256-GCM and XChaCha20-Poly1305")
  let modeId := encryption.kmsParams.modeId
  let provider ← okOr keyProvider (.keyMissing "encryption requires a key provider")
  let cek ← (resolveCek backend.kdf provider ⟨modeId, encryption.kmsParams⟩).liftError
    SarCryptoError.toSarError
  pure ⟨cek, encryption.algoId, ⟨modeId, serializeKmsPayload encryption.kmsParams⟩⟩

/-- The settings of an optional part, resolved when they are there. -/
def resolveIf {α β : Type} (resolve : α → Result β) : Option α → Result (Option β)
  | none => pure none
  | some a => some <$> resolve a

/-- The check of one given metadata record. -/
def validateCdMetadataTlv (tlv : Tlv) : Result Unit :=
  if isCdcMetadataTlvType tlv.typeId then validateCdcMetadataTlv tlv .default
  else if isRecoveryTlv tlv then
    (fun _ => ()) <$> validateRecoveryTlv tlv.typeId tlv.value .default
  else pure ()

/-- The writer that the constructor returns. -/
def initial (options : ArchiveWriterOptions) (compression : CompressionSettings)
    (encryption : Option ResolvedEncryption) (cdMetadata : List Tlv) : ArchiveWriter where
  writer := []
  flags := flagsOfOptions options compression cdMetadata
  lfhSizeFieldPolicy := options.lfhSizeFieldPolicy
  compression
  position := 0
  offsets := []
  cdMetadata
  finished := false
  cek := encryption.map (·.cek)
  encrAlgoId := encryption.map (·.algoId)
  usedNonces := []
  globalFlagsSection := []
  headerKms := encryption.map (·.kms)
  headerWritten := false
  fec := options.fec
  archiveRecovery := options.archiveRecovery.map fun settings =>
    ⟨settings, globalHeaderFlagsOffset, globalHeaderFlagsOffset, []⟩
  streamState := .needLocalFileHeader

/-- `new_with_compression_key_provider_and_cd_metadata`. -/
def newWithCompressionKeyProviderAndCdMetadata (options : ArchiveWriterOptions)
    (compression : CompressionSettings) (keyProvider : Option KeyProvider)
    (cdMetadata : List Tlv) : Result ArchiveWriter := do
  rejectIf (options.noIndex && !cdMetadata.isEmpty)
    (.flagConflict "Central Dictionary metadata requires indexed archive output")
  rejectIf (options.noIndex && options.archiveRecovery.isSome)
    (.flagConflict "archive-level recovery requires indexed archive output")
  rejectIf (options.archiveRecovery.isSome && cdMetadata.any isRecoveryTlv)
    (.flagConflict
      "archive-level recovery option conflicts with pre-supplied RECOVERY TLV metadata")
  let encryption ← resolveIf (resolveEncryption backend keyProvider) options.encryption
  cdMetadata.forM validateCdMetadataTlv
  let _ ← resolveIf FecSettings.validateWriter options.archiveRecovery
  validateGlobalFlags (flagsOfOptions options compression cdMetadata)
  pure (initial options compression encryption cdMetadata)

/-! ### Recovery bytes, the Global Header and the size policy -/

/-- `track_archive_recovery_bytes`. -/
def trackArchiveRecoveryBytes (bytes : Bytes) : WriterM Unit := do
  let self ← current
  match self.archiveRecovery with
  | none => pure ()
  | some recovery => do
    let updatedLen := recovery.protectedBytes.length + bytes.length
    lift (rejectIf (updatedLen > u64Max) (.overflow "archive recovery protected bytes len"))
    lift (ResourceLimits.default.checkInMemoryBuffer updatedLen)
    lift (ResourceLimits.default.checkRecoveryProtectedRange updatedLen)
    update fun self =>
      { self with
        archiveRecovery :=
          some { recovery with protectedBytes := recovery.protectedBytes ++ bytes } }

/-- `write_all` on the sink. -/
def writeAll (bytes : Bytes) : WriterM Unit :=
  update fun self => { self with writer := self.writer ++ bytes }

/-- Move the position over `n` bytes. -/
def advancePosition (n : ℕ) (overflow : String) : WriterM Unit := do
  let self ← current
  lift (rejectIf (self.position + n > u64Max) (.overflow overflow))
  update fun self => { self with position := self.position + n }

/-- The Global Header of the archive. -/
def globalHeaderOf (self : ArchiveWriter) : GlobalHeader where
  version := 0x01
  flagsBytes := u32Bytes self.flags.bits
  flags := self.flags
  partitionDescriptor := none
  kms := self.headerKms

/-- The bytes of the Global Header that archive-level recovery protects. -/
def trackHeader (bytes : Bytes) : WriterM Unit := do
  let self ← current
  match self.archiveRecovery with
  | none => pure ()
  | some recovery => do
    lift (rejectIf (recovery.globalFlagsStartOffset > bytes.length)
      (.bounds "global header shorter than Global Flags offset"))
    trackArchiveRecoveryBytes (bytes.drop recovery.globalFlagsStartOffset)

/-- `emit_global_header_if_needed`. -/
def emitGlobalHeaderIfNeeded : WriterM Unit := do
  let self ← current
  if self.headerWritten then pure ()
  else do
    lift (validateGlobalFlags self.flags)
    let header := self.globalHeaderOf
    update fun self => { self with globalFlagsSection := globalHeaderFlagsBytes header }
    let bytes ← lift (writeGlobalHeader header)
    trackHeader bytes
    writeAll bytes
    advancePosition bytes.length "archive position after header"
    update fun self => { self with headerWritten := true }

/-- `SIZE_64BIT`, set or removed. -/
def withSize64Bit (b : Bool) (self : ArchiveWriter) : ArchiveWriter :=
  { self with flags := { self.flags with size64Bit := b } }

/-- `apply_size_policy`. -/
def applySizePolicy (uncompressedSize payloadSize : ℕ) : WriterM Unit := do
  let self ← current
  let exceedsU32 := decide (uncompressedSize ≥ 2 ^ 32) || decide (payloadSize ≥ 2 ^ 32)
  match self.lfhSizeFieldPolicy with
  | .force64 => update (withSize64Bit true)
  | .force32 =>
    if exceedsU32 then
      fail (.overflow "size does not fit 32-bit field under Force32 policy")
    else update (withSize64Bit false)
  | .auto =>
    if exceedsU32 then
      if self.headerWritten && !self.flags.size64Bit then
        fail (.overflow "Auto policy cannot promote to 64-bit size fields after header emission")
      else update (withSize64Bit true)
    else if !self.headerWritten then update (withSize64Bit false)
    else pure ()

/-! ### Entries -/

/-- `generate_entry_patch`. -/
def generateEntryPatch (deltaOpts : DeltaWriteOptions) (target : Bytes) : Result Bytes :=
  match deltaOpts.algorithm with
  | .storePatch => (generateStorePatch target target.length).liftError PatchError.toSarError
  | .vcdiff =>
    (generateVcdiffPatch deltaOpts.base target .default).liftError PatchError.toSarError
  | .bsdiff =>
    (generateBsdiffPatch deltaOpts.base target .default).liftError PatchError.toSarError
  | .zstdPatch => throw (.unsupported "ZSTD_PATCH: patch generation not implemented")
  | .custom _ => throw (.unsupported "CUSTOM patch algorithm: generation not supported")

/-- What is stored of an entry before compression: the patch, or the payload itself. -/
def wirePayload (entry : EntryInput) : Result Bytes :=
  match entry.delta with
  | some deltaOpts => generateEntryPatch deltaOpts entry.payload
  | none => pure entry.payload

/-- Metadata that the flag requires of every entry and forbids without it. -/
def checkRequired {α : Type} (flag : Bool) (value : Option α) (missing unwanted : String) :
    Result Unit := do
  rejectIf (flag && value.isNone) (.malformed missing)
  rejectIf (!flag && value.isSome) (.flagConflict unwanted)

/-- `validate_entry_input_metadata`. -/
def validateEntryInputMetadata (flags : GlobalFlags) (entry : EntryInput) : Result Unit := do
  rejectIf (entry.kind = some .symlink ∧ flags.hasSymlinks = false)
    (.flagConflict "Symlink entry requires ArchiveWriterOptions::with_symlinks = true")
  rejectIf (entry.kind = some .symlink ∧ validUtf8 entry.payload = false)
    (.malformed "Symlink entry payload must be valid UTF-8")
  rejectIf (entry.kind = some .directory ∧ entry.payload ≠ [])
    (.malformed "Directory entry must have zero-length payload")
  rejectIf (entry.path.isSome && !flags.hasPath)
    (.flagConflict "EntryInput::path requires ArchiveWriterOptions::with_path = true")
  rejectIf (entry.path.any fun path => decide (path.bytes.length ≥ 2 ^ 16))
    (.overflow "path length exceeds LFH u16 field capacity")
  rejectIf (entry.name.bytes.length ≥ 2 ^ 16)
    (.overflow "name length exceeds LFH u16 field capacity")
  checkRequired flags.hasPerms entry.permissions
    "ArchiveWriterOptions::with_permissions requires EntryInput::permissions"
    "EntryInput::permissions requires ArchiveWriterOptions::with_permissions = true"
  checkRequired flags.extUidGid entry.uidGid
    "ArchiveWriterOptions::with_uid_gid requires EntryInput::uid_gid"
    "EntryInput::uid_gid requires ArchiveWriterOptions::with_uid_gid = true"
  checkRequired flags.extTime entry.timestamps
    "ArchiveWriterOptions::with_timestamps requires EntryInput::timestamps"
    "EntryInput::timestamps requires ArchiveWriterOptions::with_timestamps = true"
  rejectIf (entry.fileCrc32.isSome && !flags.perFileCrc)
    (.flagConflict "EntryInput::file_crc32 requires ArchiveWriterOptions::with_per_file_crc = true")
  rejectIf (entry.contentHash.isSome && !flags.deduplication)
    (.flagConflict
      "EntryInput::content_hash requires ArchiveWriterOptions::with_content_hash = true")
  match entry.delta with
  | none => pure ()
  | some deltaOpts => do
    rejectIf (!flags.hasDelta)
      (.flagConflict "EntryInput::delta requires ArchiveWriterOptions::with_delta = true")
    rejectIf ((deltaOpts.algorithm = .vcdiff ∨ deltaOpts.algorithm = .bsdiff) ∧
        deltaOpts.deltaBaseHash = zeroDeltaBaseHash)
      (.baseMissing
        "VCDIFF/BSDIFF delta_base_hash must be non-zero (all-zero means missing identity)")

/-- `ZERO_CONTENT_HASH`. -/
def zeroContentHash : Octets 32 := Octets.zero 32

/-- The mode bits that an entry's kind and attributes ask for. -/
def entryModeBits (entry : EntryInput) : UInt16 :=
  let effectiveKind :=
    entry.kind.getD (if entry.name.isEmpty then .emptyArea else .regularFile)
  (match effectiveKind with
    | .directory => EntryMode.directoryBit
    | .symlink => EntryMode.symlinkBit
    | .regularFile | .emptyArea => 0) |||
  (if entry.isHidden then EntryMode.hiddenAttrBit else 0)

/-- A field that the flag makes part of every header. -/
def requiredField {α : Type} (flag : Bool) (value : Option α) (missing : String) :
    Result (Option α) :=
  if flag then some <$> okOr value (.malformed missing) else pure none

/-- `apply_entry_input_to_lfh`, on a header that has none of the optional fields yet. -/
def applyEntryInputToLfh (flags : GlobalFlags) (entry : EntryInput) (lfh : LocalFileHeader) :
    Result LocalFileHeader := do
  let permissions ← requiredField flags.hasPerms entry.permissions
    "HAS_PERMS requires EntryInput::permissions"
  let uidGid ← requiredField flags.extUidGid entry.uidGid
    "EXT_UID_GID requires EntryInput::uid_gid"
  let timestamps ← requiredField flags.extTime entry.timestamps
    "EXT_TIME requires EntryInput::timestamps"
  pure
    { lfh with
      streamId := entry.streamId.getD 0
      sequenceNo := entry.sequenceNo.getD 0
      entryMode := EntryMode.fromBits (lfh.entryMode.bits ||| entryModeBits entry)
      path := if flags.hasPath then (entry.path.map (·.bytes)).getD lfh.path else lfh.path
      permissions, uidGid, timestamps
      fileCrc32 := if flags.perFileCrc then some (entry.fileCrc32.getD 0) else lfh.fileCrc32
      contentHash :=
        if flags.deduplication then some (entry.contentHash.getD zeroContentHash)
        else lfh.contentHash
      patchAlgoId :=
        if flags.hasDelta then
          some ((entry.delta.map (·.algorithm.asU8)).getD patchAlgoStorePatch)
        else lfh.patchAlgoId
      deltaBaseHash :=
        if flags.hasDelta then some ((entry.delta.map (·.deltaBaseHash)).getD zeroDeltaBaseHash)
        else lfh.deltaBaseHash }

/-- The encoding plan of the writer. -/
def encodingPlan (self : ArchiveWriter) (crypto : Option EntryCryptoContext) : EncodingPlanV2 where
  isCompressed := self.compression.algoId != compAlgoStore
  compAlgoId := self.compression.algoId
  compressionLevel := self.compression.level
  crypto

/-- The size of the stored payload, announced before it is encrypted. -/
def announcedLen (self : ArchiveWriter) (encodedLen : ℕ) : Result ℕ :=
  if self.flags.encrypted then do
    rejectIf (encodedLen + 16 > u64Max) (.overflow "encrypted payload len")
    pure (encodedLen + 16)
  else pure encodedLen

/-- The fields that the writer's own settings decide. -/
def withWriterFields (self : ArchiveWriter) (lfh : LocalFileHeader) : LocalFileHeader :=
  { lfh with
    cdcAlgoId := if self.flags.cdcSupport then some cdcAlgoLiteral else lfh.cdcAlgoId
    compAlgoId := if self.flags.compressed then some self.compression.algoId else lfh.compAlgoId
    entryMode :=
      if self.compression.algoId != compAlgoStore then
        EntryMode.fromBits (lfh.entryMode.bits ||| EntryMode.compressedBit)
      else lfh.entryMode
    fecAlgoId := (self.fec.map (·.algoId)).or lfh.fecAlgoId }

/-- The error-correction value, reserved before the payload is encrypted. -/
def reservedFecValue (self : ArchiveWriter) (encodedLen : ℕ) : Result Bytes :=
  match self.fec with
  | none => pure []
  | some fec => (List.replicate · 0) <$> fec.computeFecValueLen encodedLen

/-- The nonce loop: the generator is asked until it delivers a nonce that was not used. -/
def drawNonce (algoId : UInt8) : List (Octets 24) → WriterM (Octets 24)
  | [] => fail (.nonceReuse "failed to generate a unique nonce")
  | random :: rest => do
    let nonce ← lift ((generateNonce algoId random).liftError SarCryptoError.toSarError)
    let self ← current
    if nonce ∈ self.usedNonces then drawNonce algoId rest
    else do
      update fun self => { self with usedNonces := nonce :: self.usedNonces }
      pure nonce

/-- `write_entry`. -/
def writeEntry (lfhBytes encodedPayload : Bytes) : WriterM EntryWritten := do
  let self ← current
  let lfhOffset := self.position
  update fun self => { self with streamState := .needPayload }
  trackArchiveRecoveryBytes lfhBytes
  trackArchiveRecoveryBytes encodedPayload
  writeAll lfhBytes
  writeAll encodedPayload
  let written := lfhBytes.length + encodedPayload.length
  lift (rejectIf (written > u64Max) (.overflow "entry write length"))
  advancePosition written "archive position"
  update fun self =>
    { self with offsets := self.offsets ++ [lfhOffset], streamState := .entryReady }
  pure ⟨lfhOffset, written⟩

/-- The error-correction value of the bytes it protects. -/
def fecValueOf (self : ArchiveWriter) (protectedBytes : Bytes) : Result Bytes :=
  match self.fec with
  | none => pure []
  | some fec => fec.computeFecValue protectedBytes

/-- The crypto context of an entry with the given header; its error-correction value is only
reserved yet, and not part of what is authenticated. -/
def writerCrypto (self : ArchiveWriter) (lfh : LocalFileHeader) (algoId : UInt8)
    (nonce : Octets 24) : Result EntryCryptoContext := do
  let provisionalLfhBytes ← writeLfh self.flags lfh
  let aadLfhBytes ← lfhBytesForAad self.flags provisionalLfhBytes (lfh.fecAlgoId.getD 0)
    lfh.fecValue.length
  let key ← okOr self.cek (.keyMissing "writer CEK is unavailable")
  pure ⟨algoId, nonce, buildAeadAad self.globalFlagsSection aadLfhBytes, key⟩

/-- The error-correction value of an encrypted entry covers the ciphertext without its tag, and
must have the length that was reserved for it. -/
def encryptedFecValue (self : ArchiveWriter) (reserved encodedPayload : Bytes)
    (lenChanged : String) : Result Bytes :=
  if self.fec.isSome then do
    rejectIf (encodedPayload.length < 16)
      (.invalidLength "encrypted payload shorter than AEAD tag")
    let fecValue ← self.fecValueOf (encodedPayload.take (encodedPayload.length - 16))
    rejectIf (fecValue.length ≠ reserved.length) (.invalidLength lenChanged)
    pure fecValue
  else pure reserved

/-- The header fields of an encrypted entry, with the given error-correction value. -/
def encryptedLfh (lfh : LocalFileHeader) (algoId : UInt8) (nonce : Octets 24) (fecValue : Bytes) :
    LocalFileHeader :=
  { lfh with
    fecValue
    encrAlgoId := some algoId
    ivNonce := some nonce
    entryMode := EntryMode.fromBits (lfh.entryMode.bits ||| EntryMode.encryptedBit) }

/-- The end of `add_entry` and `write_sparse_entry` for an encrypting writer. -/
def writeEncrypted (random : Fin 3 → Octets 24) (wire : Bytes) (encodedLen : ℕ)
    (lfh : LocalFileHeader) (lenChanged : String) : WriterM EntryWritten := do
  let self ← current
  let reserved ← lift (self.reservedFecValue encodedLen)
  let algoId ← lift (okOr self.encrAlgoId (.internal "missing writer encryption algorithm"))
  let nonce ← drawNonce algoId (List.ofFn random)
  let crypto ← lift (self.writerCrypto (encryptedLfh lfh algoId nonce reserved) algoId nonce)
  let encodedPayload ← lift (encodePayloadV2 backend wire (self.encodingPlan (some crypto)))
  let fecValue ← lift (self.encryptedFecValue reserved encodedPayload lenChanged)
  let finalLfhBytes ← lift (writeLfh self.flags (encryptedLfh lfh algoId nonce fecValue))
  writeEntry finalLfhBytes encodedPayload

/-- The end of `add_entry` and `write_sparse_entry` without encryption. -/
def writePlain (encodedPayload : Bytes) (lfh : LocalFileHeader) : WriterM EntryWritten := do
  let self ← current
  let fecValue ← lift (self.fecValueOf encodedPayload)
  let lfhBytes ← lift (writeLfh self.flags { lfh with fecValue })
  writeEntry lfhBytes encodedPayload

/-- The common part of `add_entry` and `write_sparse_entry`: encode the payload, settle the
width of the size fields, write the Global Header if it is still missing, prepare the Local
File Header, and write the entry. -/
def writeEncoded (random : Fin 3 → Octets 24) (wire : Bytes) (logicalSize : ℕ)
    (prepare : GlobalFlags → UInt64 → Result LocalFileHeader) (lenChanged : String) :
    WriterM EntryWritten := do
  let self ← current
  let encodedPayload ← lift (encodePayloadV2 backend wire (self.encodingPlan none))
  let payloadLen ← lift (self.announcedLen encodedPayload.length)
  applySizePolicy logicalSize payloadLen
  emitGlobalHeaderIfNeeded
  let self ← current
  let lfh ← lift (prepare self.flags (UInt64.ofNat payloadLen))
  let lfh := self.withWriterFields lfh
  if self.flags.encrypted then
    writeEncrypted backend random wire encodedPayload.length lfh lenChanged
  else writePlain encodedPayload lfh

/-- A finished writer takes nothing more. -/
def checkNotFinished : WriterM Unit := do
  let self ← current
  if self.finished then do
    update fun self => { self with streamState := .error }
    fail (.malformed "archive writer already finished")
  else pure ()

/-- The Local File Header that `add_entry` starts from. -/
def prepareEntry (entry : EntryInput) (flags : GlobalFlags) (payloadLen : UInt64) :
    Result LocalFileHeader :=
  applyEntryInputToLfh flags entry
    { LocalFileHeader.minimalStore entry.name.bytes payloadLen with
      uncompressedSize := UInt64.ofNat entry.payload.length }

/-- `add_entry`; `random` is what the system generator delivers, should the entry be encrypted. -/
def addEntry (random : Fin 3 → Octets 24) (entry : EntryInput) : WriterM EntryWritten := do
  checkNotFinished
  let self ← current
  lift (validateEntryInputMetadata self.flags entry)
  let wire ← lift (wirePayload entry)
  writeEncoded backend random wire entry.payload.length (prepareEntry entry)
    "computed FEC value length changed after AEAD"

/-- The sum of the extent lengths, checked. -/
def totalExtentBytes : List SparseExtent → ℕ → Result ℕ
  | [], total => pure total
  | extent :: extents, total => do
    rejectIf (total + extent.length.toNat > u64Max)
      (.overflow "sparse extent length sum overflow")
    totalExtentBytes extents (total + extent.length.toNat)

/-- The Local File Header that `write_sparse_entry` starts from. -/
def prepareSparseEntry (name : Str) (sparse : SparseWriteOptions) (flags : GlobalFlags)
    (payloadLen : UInt64) : Result LocalFileHeader := do
  let sparseMap ← writeSparseMap sparse.extents flags.size64Bit
  pure
    { LocalFileHeader.minimalStore name.bytes payloadLen with
      uncompressedSize := sparse.logicalSize, sparseMap }

/-- `write_sparse_entry`. -/
def writeSparseEntry (random : Fin 3 → Octets 24) (name : Str) (gatheredPayload : Bytes)
    (sparse : SparseWriteOptions) : WriterM EntryWritten := do
  checkNotFinished
  let self ← current
  lift (rejectIf (!self.flags.sparseFiles)
    (.malformed "write_sparse_entry requires ArchiveWriterOptions::sparse = true"))
  lift ((validateSparseExtents sparse.extents sparse.logicalSize.toNat
    ResourceLimits.unlimited.sparseLimits).liftError SparseError.toSarError)
  let total ← lift (totalExtentBytes sparse.extents 0)
  lift (rejectIf (gatheredPayload.length ≠ total)
    (.invalidMap "gathered_payload length does not equal sum of sparse extent lengths"))
  writeEncoded backend random gatheredPayload sparse.logicalSize.toNat
    (prepareSparseEntry name sparse) "computed FEC value length changed after AEAD (sparse)"

/-! ### The end of the archive -/

/-- The RECOVERY record over everything from the global flags on, if the archive has one. -/
def recoveryMetadata (self : ArchiveWriter) : Result (List Tlv) :=
  match self.archiveRecovery with
  | none => pure []
  | some recovery => do
    rejectIf (self.position < recovery.protectedRangeStart)
      (.overflow "archive recovery protected range len")
    rejectIf (recovery.protectedBytes.length ≠ self.position - recovery.protectedRangeStart)
      (.internal "archive recovery protected byte tracking length mismatch")
    let value ← recovery.settings.computeFecValue recovery.protectedBytes
    pure [⟨recovery.settings.algoId, value⟩]

/-- `finalize_archive_recovery_metadata`. -/
def finalizeArchiveRecoveryMetadata : WriterM Unit := do
  let self ← current
  let tlvs ← lift self.recoveryMetadata
  update fun self => { self with cdMetadata := self.cdMetadata ++ tlvs }

/-- The Central Dictionary of the archive. -/
def centralDictionaryOf (self : ArchiveWriter) : CentralDictionary where
  version := supportedCdVersion
  fileCount := UInt64.ofNat self.offsets.length
  partitionInfo := none
  globalCrc32 := none
  tlvs := self.cdMetadata
  offsets := self.offsets.map UInt64.ofNat

/-- The index: Central Dictionary, padding and footer. -/
def writeIndex : WriterM Unit := do
  finalizeArchiveRecoveryMetadata
  let self ← current
  let cdOffset := self.position
  let cdBytes ← lift (writeCentralDictionary self.centralDictionaryOf self.flags)
  writeAll cdBytes
  advancePosition cdBytes.length "archive position after CD"
  let self ← current
  let pad := (8 - self.position % 8) % 8
  writeAll (List.replicate pad 0)
  advancePosition pad "archive position after padding"
  writeAll (writeFooter ⟨UInt64.ofNat cdOffset⟩)
  advancePosition 8 "archive position after footer"

/-- The index, unless the archive has none. -/
def writeIndexIfIndexed : WriterM Unit := do
  let self ← current
  if self.flags.noIndex then pure () else writeIndex

/-- `finish`; the archive is what the sink then holds. -/
def finish : WriterM ArchiveSummary := do
  checkNotFinished
  emitGlobalHeaderIfNeeded
  update fun self => { self with streamState := .needCentralDictionaryOrFooter }
  writeIndexIfIndexed
  update fun self => { self with finished := true, streamState := .archiveComplete }
  let self ← current
  pure ⟨self.offsets.length, self.position, !self.flags.noIndex⟩

/-! ### Sequences of calls -/

/-- A call that adds an entry, with what the system generator would deliver to it. -/
inductive Call where
  | addEntry (random : Fin 3 → Octets 24) (entry : EntryInput)
  | writeSparseEntry (random : Fin 3 → Octets 24) (name : Str) (gatheredPayload : Bytes)
      (sparse : SparseWriteOptions)

/-- Make the call. -/
def Call.run : Call → WriterM EntryWritten
  | .addEntry random entry => ArchiveWriter.addEntry backend random entry
  | .writeSparseEntry random name gatheredPayload sparse =>
    ArchiveWriter.writeSparseEntry backend random name gatheredPayload sparse

/-- Make the calls one after the other, as long as they succeed. -/
def runCalls : List Call → WriterM Unit
  | [] => pure ()
  | call :: calls => do
    let _ ← call.run backend
    runCalls calls

/-- Make the calls one after the other, also after a failure: the result of each of them. -/
def runEach : List Call → ArchiveWriter → List (Result EntryWritten) × ArchiveWriter
  | [], self => ([], self)
  | call :: calls, self =>
    let (result, self) := call.run backend self
    let (results, self) := runEach calls self
    (result :: results, self)

end ArchiveWriter

end Sar
