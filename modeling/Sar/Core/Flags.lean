import Sar.Core.Error
import Sar.ForMathlib.BitList

/-!
# Global flags and entry modes

`GlobalFlags` has one field per flag the source names; `bits` and `fromBitsTruncate` are the
wire encoding, the latter dropping the bits the source does not name, and
`fromBitsTruncate_bits` says that nothing else is lost. An `EntryMode` keeps its sixteen raw
bits, as the source does: bit 12 is carried so that the validation can reject it.
-/

namespace Sar

open Except (rejectIf)

/-- `sar_core::GlobalFlags`. -/
@[ext]
structure GlobalFlags where
  /-- Bit 0: 64-bit size and offset fields. -/
  size64Bit : Bool := false
  /-- Bit 1: no Central Dictionary and no Footer. -/
  noIndex : Bool := false
  /-- Bit 2: metadata records in the Central Dictionary. -/
  optPresent : Bool := false
  /-- Bit 3: partition descriptor in the Global Header. -/
  partitionedArchive : Bool := false
  /-- Bit 4: fragment fields in every Local File Header. -/
  fileFragmentation : Bool := false
  /-- Bit 5: chunking fields in every Local File Header. -/
  cdcSupport : Bool := false
  /-- Bit 8: compression algorithm in every Local File Header. -/
  compressed : Bool := false
  /-- Bit 9: patch algorithm and base hash in every Local File Header. -/
  hasDelta : Bool := false
  /-- Bit 10: key-management extension, encryption algorithm and nonce fields. -/
  encrypted : Bool := false
  /-- Bit 16: archive checksum in the Central Dictionary. -/
  hasGlobalCrc32 : Bool := false
  /-- Bit 17: checksum in every Local File Header. -/
  perFileCrc : Bool := false
  /-- Bit 18: signature metadata. -/
  signed : Bool := false
  /-- Bit 19: archive-level error-correction metadata. -/
  hasGlobalEc : Bool := false
  /-- Bit 20: per-entry error-correction fields. -/
  selectiveFec : Bool := false
  /-- Bit 24: path fields. -/
  hasPath : Bool := false
  /-- Bit 25: permission field. -/
  hasPerms : Bool := false
  /-- Bit 26: symbolic links allowed. -/
  hasSymlinks : Bool := false
  /-- Bit 27: owner field. -/
  extUidGid : Bool := false
  /-- Bit 28: timestamp fields. -/
  extTime : Bool := false
  /-- Bit 29: content-hash field. -/
  deduplication : Bool := false
  /-- Bit 30: sparse-map fields. -/
  sparseFiles : Bool := false
  deriving DecidableEq

namespace GlobalFlags

/-- The thirty-two flag bits, least significant first; unnamed bits are clear. -/
def toBitList (f : GlobalFlags) : List Bool :=
  [f.size64Bit, f.noIndex, f.optPresent, f.partitionedArchive, f.fileFragmentation, f.cdcSupport,
    false, false, f.compressed, f.hasDelta, f.encrypted, false, false, false, false, false,
    f.hasGlobalCrc32, f.perFileCrc, f.signed, f.hasGlobalEc, f.selectiveFec, false, false, false,
    f.hasPath, f.hasPerms, f.hasSymlinks, f.extUidGid, f.extTime, f.deduplication, f.sparseFiles,
    false]

/-- `GlobalFlags::bits`. -/
def bits (f : GlobalFlags) : UInt32 := UInt32.ofNat (BitList.natOfBits f.toBitList)

/-- `GlobalFlags::from_bits_truncate`. -/
def fromBitsTruncate (w : UInt32) : GlobalFlags where
  size64Bit := w.toNat.testBit 0
  noIndex := w.toNat.testBit 1
  optPresent := w.toNat.testBit 2
  partitionedArchive := w.toNat.testBit 3
  fileFragmentation := w.toNat.testBit 4
  cdcSupport := w.toNat.testBit 5
  compressed := w.toNat.testBit 8
  hasDelta := w.toNat.testBit 9
  encrypted := w.toNat.testBit 10
  hasGlobalCrc32 := w.toNat.testBit 16
  perFileCrc := w.toNat.testBit 17
  signed := w.toNat.testBit 18
  hasGlobalEc := w.toNat.testBit 19
  selectiveFec := w.toNat.testBit 20
  hasPath := w.toNat.testBit 24
  hasPerms := w.toNat.testBit 25
  hasSymlinks := w.toNat.testBit 26
  extUidGid := w.toNat.testBit 27
  extTime := w.toNat.testBit 28
  deduplication := w.toNat.testBit 29
  sparseFiles := w.toNat.testBit 30

theorem toNat_bits (f : GlobalFlags) : f.bits.toNat = BitList.natOfBits f.toBitList := by
  have h : BitList.natOfBits f.toBitList < 2 ^ 32 := BitList.natOfBits_lt f.toBitList
  rw [bits, UInt32.toNat_ofNat', Nat.mod_eq_of_lt h]

/-- The wire encoding loses no flag. -/
@[simp]
theorem fromBitsTruncate_bits (f : GlobalFlags) : fromBitsTruncate f.bits = f := by
  simp only [fromBitsTruncate, toNat_bits, BitList.testBit_natOfBits]
  rfl

end GlobalFlags

/-- `sar_core::EntryMode`: the raw mode bits of a Local File Header. -/
structure EntryMode where
  bits : UInt16
  deriving DecidableEq

namespace EntryMode

/-- `EntryMode::from_bits`. -/
def fromBits (bits : UInt16) : EntryMode := ⟨bits⟩

variable (m : EntryMode)

/-- Whether one of the bits of `mask` is set. -/
def has (mask : UInt16) : Bool := (m.bits &&& mask) != 0

/-- `IS_SYMLINK`. -/
def symlinkBit : UInt16 := 0x0001

/-- `IS_DIRECTORY`. -/
def directoryBit : UInt16 := 0x0002

/-- `ENCRYPTED`. -/
def encryptedBit : UInt16 := 0x0004

/-- `COMPRESSED`. -/
def compressedBit : UInt16 := 0x0008

/-- `HIDDEN_ATTR`. -/
def hiddenAttrBit : UInt16 := 0x0010

/-- `FRAGMENT`. -/
def fragmentBit : UInt16 := 0x0020

/-- `LAST_FRAGMENT`. -/
def lastFragmentBit : UInt16 := 0x0040

/-- `LOSS_TOLERANT`. -/
def lossTolerantBit : UInt16 := 0x0080

/-- `RESERVED`. -/
def reservedBit : UInt16 := 0x1000

/-- `SESSION_CONTROL`. -/
def sessionControlBit : UInt16 := 0x2000

/-- `ATOMIC_WRITE`. -/
def atomicWriteBit : UInt16 := 0x4000

/-- `FORCE_SYNC`. -/
def forceSyncBit : UInt16 := 0x8000

/-- `is_symlink`. -/
def isSymlink : Bool := m.has symlinkBit

/-- `is_directory`. -/
def isDirectory : Bool := m.has directoryBit

/-- `is_encrypted`. -/
def isEncrypted : Bool := m.has encryptedBit

/-- `is_compressed`. -/
def isCompressed : Bool := m.has compressedBit

/-- `is_hidden_attr`. -/
def isHiddenAttr : Bool := m.has hiddenAttrBit

/-- `is_fragment`. -/
def isFragment : Bool := m.has fragmentBit

/-- `is_last_fragment`. -/
def isLastFragment : Bool := m.has lastFragmentBit

/-- `is_loss_tolerant`. -/
def isLossTolerant : Bool := m.has lossTolerantBit

/-- `is_session_control`. -/
def isSessionControl : Bool := m.has sessionControlBit

/-- `is_atomic_write`. -/
def isAtomicWrite : Bool := m.has atomicWriteBit

/-- `is_force_sync`. -/
def isForceSync : Bool := m.has forceSyncBit

/-- `op_code`. -/
def opCode : UInt8 := ((m.bits >>> 8) &&& 0x0f).toUInt8

end EntryMode

/-- `validate_global_flags`. -/
def validateGlobalFlags (flags : GlobalFlags) : Result Unit := do
  rejectIf (flags.hasGlobalEc && !flags.optPresent)
    (.flagConflict "HAS_GLOBAL_EC requires OPT_PRESENT and RECOVERY TLV metadata")
  rejectIf (flags.signed && !flags.optPresent)
    (.flagConflict "SIGNED requires OPT_PRESENT and DATA_HASH metadata")
  rejectIf (flags.noIndex &&
      (flags.optPresent || flags.hasGlobalCrc32 || flags.hasGlobalEc || flags.signed))
    (.flagConflict "NO_INDEX conflicts with OPT_PRESENT/HAS_GLOBAL_CRC32/HAS_GLOBAL_EC/SIGNED")

/-- `validate_entry_mode_against_global`. -/
def validateEntryModeAgainstGlobal (globalFlags : GlobalFlags) (entryMode : EntryMode) :
    Result Unit := do
  rejectIf (entryMode.has EntryMode.reservedBit)
    (.reservedValue "entry mode reserved bit 12 must be zero")
  rejectIf (entryMode.isSymlink && !globalFlags.hasSymlinks)
    (.flagConflict "IS_SYMLINK requires global HAS_SYMLINKS")
  rejectIf (entryMode.isCompressed && !globalFlags.compressed)
    (.flagConflict "IS_COMPRESSED requires global COMPRESSED")
  rejectIf (entryMode.isEncrypted && !globalFlags.encrypted)
    (.flagConflict "IS_ENCRYPTED requires global ENCRYPTED")
  rejectIf (entryMode.isFragment && !globalFlags.fileFragmentation)
    (.flagConflict "IS_FRAGMENT requires global FILE_FRAGMENTATION")
  rejectIf (entryMode.isLastFragment && !entryMode.isFragment)
    (.flagConflict "LAST_FRAGMENT requires IS_FRAGMENT")
  rejectIf (entryMode.isLossTolerant && !entryMode.isFragment)
    (.flagConflict "LOSS_TOLERANT requires IS_FRAGMENT")

end Sar
