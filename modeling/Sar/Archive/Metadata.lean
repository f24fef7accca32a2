import Sar.Core.LocalFileHeader
import Sar.Core.Utf8
import Sar.Fec.Codec
import Sar.Fragmentation.Group
import Sar.Sparse.Map

/-!
# Entry metadata

What a decoded entry reports about itself. Field presence has three states: the global flags
decide whether a field exists, the entry mode whether it is active.
-/

namespace Sar

/-- `FieldPresence<T>`. -/
inductive FieldPresence (α : Type) where
  /-- The global flag is clear. -/
  | absent
  /-- The field exists but the entry does not use it. -/
  | presentInactive (value : α)
  /-- The field exists and is used. -/
  | presentActive (value : α)
  deriving DecidableEq

/-- `EntryKind`. -/
inductive EntryKind where
  | regularFile
  | directory
  | symlink
  /-- Padding: no name and not a fragment. -/
  | emptyArea
  deriving DecidableEq

/-- `EntryKind::from_mode_and_name`. -/
def EntryKind.fromModeAndName (entryMode : EntryMode) (nameIsEmpty : Bool) : EntryKind :=
  if nameIsEmpty && !entryMode.isFragment then .emptyArea
  else if entryMode.isDirectory then .directory
  else if entryMode.isSymlink then .symlink
  else .regularFile

/-- `EntryPermissionMetadata`. -/
structure EntryPermissionMetadata where
  mode : UInt16
  deriving DecidableEq

/-- `EntryOwnerMetadata`. -/
structure EntryOwnerMetadata where
  uidGid : UInt32
  deriving DecidableEq

/-- `EntryTimestampMetadata`. -/
structure EntryTimestampMetadata where
  mtime : UInt64
  atime : UInt64
  ctime : UInt64
  deriving DecidableEq

/-- `EntryCompressionMetadata`. -/
structure EntryCompressionMetadata where
  algoId : UInt8
  algorithmName : String
  deriving DecidableEq

/-- `EntryEncryptionMetadata`. -/
structure EntryEncryptionMetadata where
  algoId : UInt8
  ivNonce : Octets 24
  deriving DecidableEq

/-- `EntryFecMetadata`. -/
structure EntryFecMetadata where
  algoId : UInt8
  summary : Option FecSummary
  deriving DecidableEq

/-- `EntryCdcMetadata`. -/
structure EntryCdcMetadata where
  algoId : UInt8
  deriving DecidableEq

/-- `EntryDeltaMetadata`. -/
structure EntryDeltaMetadata where
  patchAlgoId : UInt8
  baseHash : Octets 32
  deriving DecidableEq

/-- `EntryFragmentMetadata`. -/
structure EntryFragmentMetadata where
  fragmentId : UInt32
  fragmentIndex : UInt32
  descriptor : Option FragmentDescriptor
  isLast : Bool
  isLossTolerant : Bool
  deriving DecidableEq

/-- `EntrySparseMetadata`. -/
structure EntrySparseMetadata where
  extents : List SparseExtent
  deriving DecidableEq

/-- `EntryHashMetadata`. -/
structure EntryHashMetadata where
  crc32 : Option UInt32
  contentHash : Option (Octets 32)
  deriving DecidableEq

/-- `EntryMetadata`. -/
structure EntryMetadata where
  lfhOffset : ℕ
  name : Str
  path : Option Str
  symlinkTarget : Option Str
  payloadSize : UInt64
  uncompressedSize : UInt64
  compressionAlgoId : UInt8
  compressionAlgorithm : String
  isCompressed : Bool
  fec : Option FecSummary
  fragmentId : Option UInt32
  fragmentIndex : Option UInt32
  fragmentDescriptor : Option FragmentDescriptor
  isFragment : Bool
  isLastFragment : Bool
  isLossTolerant : Bool
  sparseExtents : Option (List SparseExtent)
  fileCrc32 : Option UInt32
  contentHash : Option (Octets 32)
  cdcAlgoId : Option UInt8
  patchAlgoId : Option UInt8
  deltaBaseHash : Option (Octets 32)
  entryKind : EntryKind
  entryModeRaw : UInt16
  streamId : UInt16
  sequenceNo : UInt16
  isHidden : Bool
  permissions : Option EntryPermissionMetadata
  owner : Option EntryOwnerMetadata
  timestamps : Option EntryTimestampMetadata
  pathPresence : FieldPresence Str
  permissionsPresence : FieldPresence EntryPermissionMetadata
  ownerPresence : FieldPresence EntryOwnerMetadata
  timestampsPresence : FieldPresence EntryTimestampMetadata
  compressionPresence : FieldPresence EntryCompressionMetadata
  encryptionPresence : FieldPresence EntryEncryptionMetadata
  fecPresence : FieldPresence EntryFecMetadata
  fragmentPresence : FieldPresence EntryFragmentMetadata
  cdc : Option EntryCdcMetadata
  delta : Option EntryDeltaMetadata
  sparse : Option EntrySparseMetadata
  hash : Option EntryHashMetadata
  deriving DecidableEq

/-- `EntryReader`: one decoded entry. -/
structure EntryReader where
  header : LocalFileHeader
  payload : Bytes
  entryMetadata : EntryMetadata
  deriving DecidableEq

/-- `compression_algorithm_name`. -/
def compressionAlgorithmName (algoId : UInt8) : String :=
  if algoId = 0x00 then "STORE"
  else if algoId = 0x01 then "DEFLATE"
  else if algoId = 0x02 then "ZSTD"
  else "UNKNOWN"

end Sar
