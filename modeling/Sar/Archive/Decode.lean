import Sar.Archive.Context
import Sar.Archive.Metadata
import Sar.Cdc.Validate
import Sar.Core.CentralDictionary

/-!
# The entry decoders

From the Local File Header and the stored payload of an entry to its logical bytes and its
metadata record. The source has two decoders for this, `decode_ordinary_archive_entry_from_parts`
of the seekable reader and `decode_pending_entry` of the stream parser, which repeat each other
almost line by line. They are cut into stages here: what the entry is, its crypto context, the
patch, the size rules, its texts, and the record. A stage that both have is written once.

The two decoders differ in three places, and each keeps its own text there. The reader takes an
entry for encrypted when its mode says so, and refuses it if the Global Header does not announce
encryption; the parser asks for both and refuses nothing. The parser decodes the path twice, for
the record and for its presence. And the parser computes the offset of the header from the one of
the payload, which can underflow.
-/

namespace Sar

open Except (rejectIf liftError okOr)

/-- `ArchiveReader`; the underlying file is its contents. -/
structure ArchiveReader where
  reader : Bytes
  options : ArchiveReaderOptions
  globalHeader : Option GlobalHeader
  globalFlagsSection : Bytes
  headerLen : ℕ
  dataEnd : ℕ
  nextOffset : ℕ
  fileLen : ℕ
  cd : Option CentralDictionary
  keyProvider : Option KeyProvider

/-- What the flags and the header fields of an entry say about its payload. -/
structure EntryTraits where
  isEffectivelyCompressed : Bool
  isEncrypted : Bool
  isSparse : Bool
  isHasDelta : Bool
  patchRawId : UInt8
  effectiveCompAlgoId : UInt8

/-- The optional parts of an entry that have a codec of their own. -/
structure EntryParts where
  fec : Option FecSummary
  sparseExtents : Option (List SparseExtent)
  cdcAlgoId : Option UInt8

/-- The texts of an entry. -/
structure EntryTexts where
  name : Str
  entryKind : EntryKind
  symlinkTarget : Option Str
  path : Option Str

/-- A field that the flag announces, active when the entry uses it. -/
def presenceOf {α : Type} (announced active : Bool) (value : α) : FieldPresence α :=
  if announced then
    if active then .presentActive value else .presentInactive value
  else .absent

section Stages

variable (backend : Backend) (options : ArchiveReaderOptions) (keyProvider : Option KeyProvider)
  (header : GlobalHeader) (lfh : LocalFileHeader)

/-- The derived flags at the top of a decoder, for an entry that it takes for encrypted or not. -/
def traitsOf (isEncrypted : Bool) : EntryTraits :=
  let isEffectivelyCompressed := header.flags.compressed && lfh.entryMode.isCompressed
  { isEffectivelyCompressed
    isEncrypted
    isSparse := header.flags.sparseFiles && !lfh.sparseMap.isEmpty
    isHasDelta := header.flags.hasDelta
    patchRawId := lfh.patchAlgoId.getD 0
    effectiveCompAlgoId :=
      if isEffectivelyCompressed then lfh.compAlgoId.getD compAlgoStore else compAlgoStore }

/-- The checks made before anything is decoded. -/
def checkStorePatch (t : EntryTraits) : Result Unit := do
  if t.isHasDelta && t.patchRawId == patchAlgoStorePatch then
    options.limits.checkDecodedEntrySize lfh.uncompressedSize.toNat
  rejectIf (t.isHasDelta && t.patchRawId == patchAlgoStorePatch && !t.isEffectivelyCompressed &&
      !t.isEncrypted && !t.isSparse && lfh.payloadSize != lfh.uncompressedSize)
    (.patchFailed "STORE_PATCH: raw payload length does not match LFH Uncompressed Size")

/-- The bound on the decoded size. -/
def decodeExpected (t : EntryTraits) : ℕ :=
  if t.isSparse || (t.isHasDelta && t.patchRawId != patchAlgoStorePatch) then
    options.maxDecodedEntrySize
  else lfh.uncompressedSize.toNat

/-- The crypto context of an encrypted entry. -/
def cryptoContext (globalFlagsSection lfhBytes : Bytes) : Result EntryCryptoContext := do
  let algoId ← okOr lfh.encrAlgoId (.malformed "encrypted entry missing encryption algorithm ID")
  (validateEncrAlgoId algoId).liftError SarCryptoError.toSarError
  let provider ← okOr keyProvider
    (.keyMissing "no key provider configured for encrypted archive")
  let context ← buildKmsContext header
  let key ← (resolveCek backend.kdf provider context).liftError SarCryptoError.toSarError
  let ivNonce ← okOr lfh.ivNonce (.malformed "encrypted entry missing IV/nonce field")
  let fecAlgoId := lfh.fecAlgoId.getD 0
  let aadLfhBytes ← lfhBytesForAad header.flags lfhBytes fecAlgoId lfh.fecValue.length
  pure ⟨algoId, ivNonce, buildAeadAad globalFlagsSection aadLfhBytes, key⟩

/-- The crypto context, if the entry is encrypted. -/
def entryCrypto (t : EntryTraits) (globalFlagsSection lfhBytes : Bytes) :
    Result (Option EntryCryptoContext) :=
  if t.isEncrypted then
    some <$> cryptoContext backend keyProvider header lfh globalFlagsSection lfhBytes
  else pure none

/-- The base bytes for a patch algorithm that needs them, after the checks it starts with. -/
def deltaBase (decoded : Bytes) (zeroHash noBase : String) : Result Bytes := do
  validateDeltaPreDispatch decoded.length lfh.uncompressedSize.toNat options.limits
  let hash := lfh.deltaBaseHash.getD zeroDeltaBaseHash
  rejectIf (hash = zeroDeltaBaseHash) (.baseMissing zeroHash)
  okOr options.deltaBase (.baseMissing noBase)

/-- The patch dispatch. -/
def applyDelta (t : EntryTraits) (decoded : Bytes) : Result Bytes :=
  if !t.isHasDelta then pure decoded
  else if t.patchRawId = patchAlgoStorePatch then
    if !t.isSparse then
      (applyStorePatch decoded lfh.uncompressedSize.toNat).liftError PatchError.toSarError
    else pure decoded
  else if t.patchRawId = patchAlgoVcdiff then do
    let base ← deltaBase options lfh decoded
      "VCDIFF: all-zero Delta Base Hash indicates missing base"
      "VCDIFF: no base bytes supplied in reader options"
    let vcdiffLimits := vcdiffLimitsFromResourceLimits options.limits
    (applyVcdiff base decoded lfh.uncompressedSize.toNat vcdiffLimits).liftError
      PatchError.toSarError
  else if t.patchRawId = patchAlgoBsdiff then do
    let base ← deltaBase options lfh decoded
      "BSDIFF: all-zero Delta Base Hash indicates missing base"
      "BSDIFF: no base bytes supplied in reader options"
    let bsdiffLimits := bsdiffLimitsFromResourceLimits options.limits
    (applyBsdiff base decoded lfh.uncompressedSize.toNat bsdiffLimits).liftError
      PatchError.toSarError
  else if t.patchRawId = patchAlgoZstdPatch then
    throw (.unsupported "ZSTD_PATCH: dictionary protocol not specified; not implemented")
  else if t.patchRawId ≥ patchAlgoCustomMin then
    throw (.unsupported "CUSTOM patch algorithm not supported")
  else throw (.reservedValue "reserved patch algorithm ID")

/-- The size rules for an entry without a sparse map. -/
def checkDecodedSize (t : EntryTraits) (decoded : Bytes) : Result Unit := do
  rejectIf (!t.isSparse && decoded.length != lfh.uncompressedSize.toNat)
    (.invalidLength "decoded payload size does not match LFH Uncompressed Size")
  rejectIf (!t.isSparse && !t.isEffectivelyCompressed && !t.isEncrypted &&
      (!t.isHasDelta || t.patchRawId == patchAlgoStorePatch) &&
      lfh.payloadSize != lfh.uncompressedSize)
    (.invalidLength "STORE mode requires Payload Size == Uncompressed Size")

/-- The error-correction value, the sparse map and the chunking algorithm. -/
def entryParts : Result EntryParts := do
  let fec ←
    if header.flags.selectiveFec then
      parseLfhFecValue (lfh.fecAlgoId.getD 0) lfh.fecValue options.limits
    else pure none
  let sparseExtents ←
    if header.flags.sparseFiles && !lfh.sparseMap.isEmpty then
      some <$> parseSparseMap lfh.sparseMap header.flags.size64Bit options.limits
    else pure none
  let cdcAlgoId ←
    if header.flags.cdcSupport then do
      validateCdcAlgoId (lfh.cdcAlgoId.getD 0)
      pure (some (lfh.cdcAlgoId.getD 0))
    else pure none
  pure ⟨fec, sparseExtents, cdcAlgoId⟩

/-- The name and the kind it implies, with the symlink target. -/
def entryName (decoded : Bytes) : Result (Str × EntryKind × Option Str) := do
  let name ← Str.ofUtf8 lfh.name (.malformed "LFH Name String is not valid UTF-8")
  rejectIf (lfh.entryMode.isDirectory && lfh.payloadSize != 0)
    (.malformed "IS_DIRECTORY entry must have zero Payload Size")
  let entryKind := EntryKind.fromModeAndName lfh.entryMode name.isEmpty
  let symlinkTarget ←
    if entryKind = .symlink then
      some <$> Str.ofUtf8 decoded (.malformed "Symlink target payload is not valid UTF-8")
    else pure none
  pure (name, entryKind, symlinkTarget)

/-- The path. -/
def entryPath : Result (Option Str) :=
  if lfh.path.isEmpty then pure none
  else some <$> Str.ofUtf8 lfh.path (.malformed "LFH Path String is not valid UTF-8")

/-- The fragment placement of an entry. -/
def fragmentDescriptor : Option FragmentDescriptor :=
  lfh.fragmentDescriptor.map fun fd => ⟨fd.absoluteOffset, fd.fragmentSize⟩

/-- The metadata record. -/
def entryMetadata (lfhOffset : ℕ) (t : EntryTraits) (parts : EntryParts) (texts : EntryTexts)
    (pathPresence : FieldPresence Str) : EntryMetadata where
  lfhOffset
  name := texts.name
  path := texts.path
  symlinkTarget := texts.symlinkTarget
  payloadSize := lfh.payloadSize
  uncompressedSize := lfh.uncompressedSize
  compressionAlgoId := t.effectiveCompAlgoId
  compressionAlgorithm := compressionAlgorithmName t.effectiveCompAlgoId
  isCompressed := t.isEffectivelyCompressed
  fec := parts.fec
  fragmentId := lfh.fragmentId
  fragmentIndex := lfh.fragmentIndex
  fragmentDescriptor := fragmentDescriptor lfh
  isFragment := lfh.entryMode.isFragment
  isLastFragment := lfh.entryMode.isLastFragment
  isLossTolerant := lfh.entryMode.isLossTolerant
  sparseExtents := parts.sparseExtents
  fileCrc32 := lfh.fileCrc32
  contentHash := lfh.contentHash
  cdcAlgoId := parts.cdcAlgoId
  patchAlgoId := if t.isHasDelta then some t.patchRawId else none
  deltaBaseHash :=
    if t.isHasDelta then some (lfh.deltaBaseHash.getD zeroDeltaBaseHash) else none
  entryKind := texts.entryKind
  entryModeRaw := lfh.entryMode.bits
  streamId := lfh.streamId
  sequenceNo := lfh.sequenceNo
  isHidden := lfh.entryMode.isHiddenAttr
  permissions := lfh.permissions.map fun mode => ⟨mode⟩
  owner := lfh.uidGid.map fun uidGid => ⟨uidGid⟩
  timestamps := lfh.timestamps.map fun ts => ⟨ts.first, ts.second, ts.third⟩
  pathPresence
  permissionsPresence :=
    presenceOf header.flags.hasPerms true ⟨lfh.permissions.getD 0⟩
  ownerPresence := presenceOf header.flags.extUidGid true ⟨lfh.uidGid.getD 0⟩
  timestampsPresence :=
    let ts := lfh.timestamps.getD ⟨0, 0, 0⟩
    presenceOf header.flags.extTime true ⟨ts.first, ts.second, ts.third⟩
  compressionPresence :=
    let rawAlgoId := lfh.compAlgoId.getD compAlgoStore
    presenceOf header.flags.compressed t.isEffectivelyCompressed
      ⟨rawAlgoId, compressionAlgorithmName rawAlgoId⟩
  encryptionPresence :=
    presenceOf header.flags.encrypted t.isEncrypted
      ⟨lfh.encrAlgoId.getD 0, lfh.ivNonce.getD (Octets.zero 24)⟩
  fecPresence :=
    presenceOf header.flags.selectiveFec (lfh.fecAlgoId.getD 0 != 0)
      ⟨lfh.fecAlgoId.getD 0, parts.fec⟩
  fragmentPresence :=
    presenceOf header.flags.fileFragmentation lfh.entryMode.isFragment
      ⟨lfh.fragmentId.getD 0, lfh.fragmentIndex.getD 0, fragmentDescriptor lfh,
        lfh.entryMode.isLastFragment, lfh.entryMode.isLossTolerant⟩
  cdc := parts.cdcAlgoId.map fun algoId => ⟨algoId⟩
  delta :=
    if t.isHasDelta then some ⟨t.patchRawId, lfh.deltaBaseHash.getD zeroDeltaBaseHash⟩ else none
  sparse := parts.sparseExtents.map fun extents => ⟨extents⟩
  hash :=
    if header.flags.perFileCrc || header.flags.deduplication then
      some ⟨if header.flags.perFileCrc then lfh.fileCrc32 else none,
        if header.flags.deduplication then lfh.contentHash else none⟩
    else none

end Stages

namespace ArchiveReader

variable (backend : Backend) (self : ArchiveReader) (header : GlobalHeader) (lfh : LocalFileHeader)

/-- An entry is encrypted if its mode says so. -/
def entryTraits : EntryTraits :=
  traitsOf header lfh lfh.entryMode.isEncrypted

/-- The name, the kind it implies, the symlink target and the path. -/
def entryTexts (decoded : Bytes) : Result EntryTexts := do
  let (name, entryKind, symlinkTarget) ← entryName lfh decoded
  let path ← entryPath lfh
  pure ⟨name, entryKind, symlinkTarget, path⟩

/-- `decode_ordinary_archive_entry_from_parts`. -/
def decodeOrdinaryArchiveEntryFromParts (lfhOffset : ℕ) (lfhBytes encodedPayload : Bytes) :
    Result (Bytes × EntryMetadata) := do
  let t := entryTraits header lfh
  rejectIf (t.isEncrypted && !header.flags.encrypted)
    (.flagConflict "IS_ENCRYPTED requires global ENCRYPTED")
  checkStorePatch self.options lfh t
  let crypto ← entryCrypto backend self.keyProvider header lfh t self.globalFlagsSection lfhBytes
  let plan : DecodingPlanV2 :=
    { isCompressed := t.isEffectivelyCompressed
      compAlgoId := t.effectiveCompAlgoId
      expectedOutputSize := decodeExpected self.options lfh t
      maxOutputSize := self.options.maxDecodedEntrySize
      crypto }
  let patched ← decodePayloadV2 backend encodedPayload plan
  let decoded ← applyDelta self.options lfh t patched
  checkDecodedSize lfh t decoded
  let parts ← entryParts self.options header lfh
  let texts ← entryTexts lfh decoded
  let pathPresence :=
    presenceOf header.flags.hasPath texts.path.isSome (texts.path.getD Str.empty)
  pure (decoded, entryMetadata header lfh lfhOffset t parts texts pathPresence)

end ArchiveReader

end Sar
