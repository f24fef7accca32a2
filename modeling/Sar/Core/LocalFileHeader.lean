import Sar.Core.GlobalHeader

/-!
# The Local File Header

The header in front of every entry: which of its fields exist is decided by the global flags,
and its size is stored twice over, in its first field and in the lengths of its trailing
fields.

* `parseLfh_writeLfh`: a header that was written is read back as `LocalFileHeader.onWire`, in
  which a field exists exactly when the flags announce it.
* `parseLfh_append`: once the declared number of bytes is there, later bytes change nothing.
-/

namespace Sar

open ByteParser LittleEndian List
open Except (rejectIf bind_eq_ok_iff pure_eq_ok ok_bind exists_unit rejectIf_of_not
  rejectIf_eq_ok_iff rejectIf_bind ok.injEq ok.inj)

/-- `LfhFragmentDescriptor`. -/
structure LfhFragmentDescriptor where
  absoluteOffset : UInt64
  fragmentSize : UInt32
  deriving DecidableEq

/-- The three timestamps of an entry, in seconds. -/
structure Timestamps where
  first : UInt64
  second : UInt64
  third : UInt64
  deriving DecidableEq

/-- `LocalFileHeader`. -/
structure LocalFileHeader where
  headerSize : UInt32
  entryMode : EntryMode
  streamId : UInt16
  sequenceNo : UInt16
  uncompressedSize : UInt64
  payloadSize : UInt64
  compAlgoId : Option UInt8
  patchAlgoId : Option UInt8
  encrAlgoId : Option UInt8
  cdcAlgoId : Option UInt8
  fecAlgoId : Option UInt8
  fragmentId : Option UInt32
  fragmentIndex : Option UInt32
  fragmentDescriptor : Option LfhFragmentDescriptor
  ivNonce : Option (Octets 24)
  deltaBaseHash : Option (Octets 32)
  fileCrc32 : Option UInt32
  contentHash : Option (Octets 32)
  uidGid : Option UInt32
  timestamps : Option Timestamps
  permissions : Option UInt16
  name : Bytes
  path : Bytes
  sparseMap : Bytes
  fecValue : Bytes
  deriving DecidableEq

/-- `LocalFileHeader::minimal_store`. -/
def LocalFileHeader.minimalStore (name : Bytes) (payloadSize : UInt64) : LocalFileHeader where
  headerSize := 0
  entryMode := EntryMode.fromBits 0
  streamId := 0
  sequenceNo := 0
  uncompressedSize := payloadSize
  payloadSize := payloadSize
  compAlgoId := none
  patchAlgoId := none
  encrAlgoId := none
  cdcAlgoId := none
  fecAlgoId := none
  fragmentId := none
  fragmentIndex := none
  fragmentDescriptor := none
  ivNonce := none
  deltaBaseHash := none
  fileCrc32 := none
  contentHash := none
  uidGid := none
  timestamps := none
  permissions := none
  name := name
  path := []
  sparseMap := []
  fecValue := []

/-! ### Size fields -/

section

variable (flags : GlobalFlags)

/-- `size_field_len`. -/
def sizeFieldLen : ℕ := if flags.size64Bit then 8 else 4

/-- `read_size`. -/
def readSize : Parser UInt64 :=
  if flags.size64Bit then readU64 else UInt32.toUInt64 <$> readU32

/-- `write_size`. -/
def writeSize (value : UInt64) : Result Bytes :=
  if flags.size64Bit then pure (u64Bytes value)
  else do
    rejectIf (value.toNat ≥ 2 ^ 32) (.overflow "size does not fit 32-bit field")
    pure (u32Bytes value.toUInt32)

/-- `n` bytes when `b` is set. -/
def lenIf (b : Bool) (n : ℕ) : ℕ := if b then n else 0

/-- The length of the fields of fixed size. -/
def lfhFixedLen : ℕ :=
  4 + 2 + 2 + 2 + sizeFieldLen flags + sizeFieldLen flags + lenIf flags.compressed 1 +
    lenIf flags.hasDelta 1 + lenIf flags.encrypted 1 + lenIf flags.cdcSupport 1 +
    lenIf flags.selectiveFec 1 + (lenIf flags.fileFragmentation 4 +
    lenIf flags.fileFragmentation 4 + lenIf flags.fileFragmentation 12) +
    lenIf flags.encrypted 24 + lenIf flags.hasDelta 32 + lenIf flags.perFileCrc 4 +
    lenIf flags.deduplication 32 + lenIf flags.extUidGid 4 + lenIf flags.extTime 24 +
    lenIf flags.hasPerms 2 + 2 + lenIf flags.hasPath 2 + lenIf flags.sparseFiles 4 +
    lenIf flags.selectiveFec 3

/-- The length of the trailing fields. -/
def lfhTrailingLen (lfh : LocalFileHeader) : ℕ :=
  lfh.name.length + lenIf flags.hasPath lfh.path.length +
    lenIf flags.sparseFiles lfh.sparseMap.length + lenIf flags.selectiveFec lfh.fecValue.length

/-- `compute_lfh_size`. The source checks every addition; the sums only grow, so the last check
is the one that counts. -/
def computeLfhSize (lfh : LocalFileHeader) : Result ℕ := do
  let size := lfhFixedLen flags + lfhTrailingLen flags lfh
  rejectIf (size > u64Max) (.overflow "LFH size computation")
  pure size

/-! ### Parsing -/

/-- Fragment offset and size. -/
def fragmentDescriptorField : Parser LfhFragmentDescriptor := do
  let absoluteOffset ← readU64
  let fragmentSize ← readU32
  pure ⟨absoluteOffset, fragmentSize⟩

/-- The three timestamps. -/
def timestampsField : Parser Timestamps := do
  let first ← readU64
  let second ← readU64
  let third ← readU64
  pure ⟨first, second, third⟩

/-- The header's fields, in wire order, from a cursor over exactly the declared header. An
absent length field counts as zero, and a trailing field of length zero is empty. -/
def lfhFields (limits : ResourceLimits) (headerSize : UInt32) :
    Parser LocalFileHeader := do
  let declaredHeaderSize ← readU32
  check (rejectIf (declaredHeaderSize ≠ headerSize) (.invalidLength "LFH header size mismatch"))
  let modeBits ← readU16
  check (validateEntryModeAgainstGlobal flags (EntryMode.fromBits modeBits))
  let streamId ← readU16
  let sequenceNo ← readU16
  let uncompressedSize ← readSize flags
  let payloadSize ← readSize flags
  let compAlgoId ← optional flags.compressed readU8
  let patchAlgoId ← optional flags.hasDelta readU8
  let encrAlgoId ← optional flags.encrypted readU8
  let cdcAlgoId ← optional flags.cdcSupport readU8
  let fecAlgoId ← optional flags.selectiveFec readU8
  let fragmentId ← optional flags.fileFragmentation readU32
  let fragmentIndex ← optional flags.fileFragmentation readU32
  let fragmentDescriptor ← optional flags.fileFragmentation fragmentDescriptorField
  let ivNonce ← optional flags.encrypted (readBytes 24)
  let deltaBaseHash ← optional flags.hasDelta (readBytes 32)
  let fileCrc32 ← optional flags.perFileCrc readU32
  let contentHash ← optional flags.deduplication (readBytes 32)
  let uidGid ← optional flags.extUidGid readU32
  let timestamps ← optional flags.extTime timestampsField
  let permissions ← optional flags.hasPerms readU16
  let nameLen ← UInt16.toNat <$> readU16
  let pathLen ← (·.getD 0) <$> optional flags.hasPath (UInt16.toNat <$> readU16)
  let sparseLen ← (·.getD 0) <$> optional flags.sparseFiles (UInt32.toNat <$> readU32)
  let fecLen ← (·.getD 0) <$> optional flags.selectiveFec (UInt32.toNat <$> readU24)
  check (limits.checkPathBytes (nameLen + pathLen))
  check (limits.checkSparseMapBytes sparseLen)
  check (limits.checkFecValueBytes fecLen)
  let trailingStart ← position
  check (rejectIf (trailingStart + (nameLen + pathLen + sparseLen + fecLen) ≠ headerSize.toNat)
    (.invalidLength "computed LFH trailing field size does not match Header Size"))
  let name ← readBytes nameLen
  let path ← readBytes pathLen
  let sparseMap ← readBytes sparseLen
  let fecValue ← readBytes fecLen
  let trailingEnd ← position
  check (rejectIf (trailingEnd ≠ headerSize.toNat)
    (.invalidLength "computed LFH size does not match Header Size"))
  let lfh : LocalFileHeader :=
    { headerSize, entryMode := EntryMode.fromBits modeBits, streamId, sequenceNo,
      uncompressedSize, payloadSize, compAlgoId, patchAlgoId, encrAlgoId, cdcAlgoId, fecAlgoId,
      fragmentId, fragmentIndex, fragmentDescriptor, ivNonce, deltaBaseHash, fileCrc32,
      contentHash, uidGid, timestamps, permissions, name := name.val, path := path.val,
      sparseMap := sparseMap.val, fecValue := fecValue.val }
  let computed ← check (computeLfhSize flags lfh)
  check (rejectIf (computed ≠ headerSize.toNat) (.invalidLength "computed LFH size mismatch"))
  pure lfh

/-- `parse_lfh`: the header and its size. -/
def parseLfh (input : Bytes) (flags : GlobalFlags) (limits : ResourceLimits) :
    Result (LocalFileHeader × ℕ) := do
  let (headerSize, _) ← runParser readU32 input
  limits.checkLfhHeaderBytes headerSize.toNat
  rejectIf (headerSize.toNat > input.length)
    (.truncated "LFH header exceeds available input")
  let (lfh, _) ← runParser (lfhFields flags limits headerSize) (input.take headerSize.toNat)
  pure (lfh, headerSize.toNat)

theorem ensures_lfhFields (limits : ResourceLimits) (headerSize : UInt32) :
    Ensures (lfhFields flags limits headerSize) fun lfh =>
      lfh.headerSize = headerSize ∧
        validateEntryModeAgainstGlobal flags lfh.entryMode = .ok () := by
  refine Ensures.bind fun _ => Ensures.check_bind fun _ _ => Ensures.bind fun modeBits =>
    Ensures.check_bind fun _ hmode => ?_
  -- the fields after the mode do not matter
  repeat refine Ensures.bind fun _ => ?_
  exact Ensures.pure ⟨rfl, hmode⟩

end

variable {input : Bytes} {flags : GlobalFlags} {limits : ResourceLimits} {lfh : LocalFileHeader}
  {n : ℕ}

/-- What an accepted header says about itself: its length is the one it declares, and its mode
agrees with the global flags. -/
theorem parseLfh_eq_ok (h : parseLfh input flags limits = .ok (lfh, n)) :
    lfh.headerSize.toNat = n ∧ n = leNat (input.take 4) ∧ n ≤ input.length ∧
      validateEntryModeAgainstGlobal flags lfh.entryMode = .ok () := by
  simp only [parseLfh, bind_eq_ok_iff, Prod.exists, exists_unit, rejectIf_eq_ok_iff, pure_eq_ok,
    ok.injEq, Prod.mk.injEq, not_lt, gt_iff_lt] at h
  obtain ⟨headerSize, _, hread, -, hlen, _, _, hfields, rfl, rfl⟩ := h
  have hdeclared : headerSize.toNat = leNat (input.take 4) := by
    obtain ⟨c, hc, -⟩ := runParser_eq_ok_iff.mp hread
    rw [← cursorAt_zero] at hc
    obtain ⟨-, rfl, -⟩ := readU32_at_eq_ok_iff.mp hc
    exact toNat_ofNat_leNat_take_four _
  obtain ⟨c, hc, -⟩ := runParser_eq_ok_iff.mp hfields
  obtain ⟨hsize, hmode⟩ := ensures_lfhFields flags limits headerSize hc
  exact ⟨congrArg UInt32.toNat hsize, hdeclared, hlen, hmode⟩

/-- A header that parses has its size field. -/
theorem four_le_of_parseLfh {r : LocalFileHeader × ℕ} (h : parseLfh input flags limits = .ok r) :
    4 ≤ input.length := by
  obtain ⟨⟨headerSize, n⟩, hread, -⟩ := bind_eq_ok_iff.mp h
  obtain ⟨c, hc, -⟩ := runParser_eq_ok_iff.mp hread
  rw [← cursorAt_zero] at hc
  obtain ⟨hle, -, -⟩ := readU32_at_eq_ok_iff.mp hc
  omega

/-! ### Writing -/

/-- The bytes of a field that is present when `b` is set. -/
def bytesIf (b : Bool) (bs : Bytes) : Bytes := if b then bs else []

/-- Fragment offset and size, written; an absent descriptor is zero. -/
def fragmentDescriptorBytes (d : Option LfhFragmentDescriptor) : Bytes :=
  let d := d.getD ⟨0, 0⟩
  u64Bytes d.absoluteOffset ++ u32Bytes d.fragmentSize

/-- The three timestamps, written; absent ones are zero. -/
def timestampsBytes (t : Option Timestamps) : Bytes :=
  let t := t.getD ⟨0, 0, 0⟩
  u64Bytes t.first ++ (u64Bytes t.second ++ u64Bytes t.third)

/-- `write_lfh`. -/
def writeLfh (flags : GlobalFlags) (lfh : LocalFileHeader) : Result Bytes := do
  validateEntryModeAgainstGlobal flags lfh.entryMode
  let computedSize ← computeLfhSize flags lfh
  let headerSize ← u32OfLen computedSize "LFH header size"
  let nameLen ← u16OfLen lfh.name.length "name len"
  let pathLen ← u16OfLen lfh.path.length "path len"
  let sparseLen ← u32OfLen lfh.sparseMap.length "sparse len"
  let fecLen ← u32OfLen lfh.fecValue.length "fec len"
  let uncompressedSize ← writeSize flags lfh.uncompressedSize
  let payloadSize ← writeSize flags lfh.payloadSize
  rejectIf (flags.selectiveFec && decide (fecLen.toNat > 0x00FFFFFF))
    (.invalidLength "u24 value too large")
  pure (u32Bytes headerSize ++ (u16Bytes lfh.entryMode.bits ++ (u16Bytes lfh.streamId ++
    (u16Bytes lfh.sequenceNo ++ (uncompressedSize ++ (payloadSize ++
    (bytesIf flags.compressed [lfh.compAlgoId.getD 0] ++
    (bytesIf flags.hasDelta [lfh.patchAlgoId.getD 0] ++
    (bytesIf flags.encrypted [lfh.encrAlgoId.getD 0] ++
    (bytesIf flags.cdcSupport [lfh.cdcAlgoId.getD 0] ++
    (bytesIf flags.selectiveFec [lfh.fecAlgoId.getD 0] ++
    (bytesIf flags.fileFragmentation (u32Bytes (lfh.fragmentId.getD 0)) ++
    (bytesIf flags.fileFragmentation (u32Bytes (lfh.fragmentIndex.getD 0)) ++
    (bytesIf flags.fileFragmentation (fragmentDescriptorBytes lfh.fragmentDescriptor) ++
    (bytesIf flags.encrypted (lfh.ivNonce.getD (Octets.zero 24)).val ++
    (bytesIf flags.hasDelta (lfh.deltaBaseHash.getD (Octets.zero 32)).val ++
    (bytesIf flags.perFileCrc (u32Bytes (lfh.fileCrc32.getD 0)) ++
    (bytesIf flags.deduplication (lfh.contentHash.getD (Octets.zero 32)).val ++
    (bytesIf flags.extUidGid (u32Bytes (lfh.uidGid.getD 0)) ++
    (bytesIf flags.extTime (timestampsBytes lfh.timestamps) ++
    (bytesIf flags.hasPerms (u16Bytes (lfh.permissions.getD 0)) ++
    (u16Bytes nameLen ++ (bytesIf flags.hasPath (u16Bytes pathLen) ++
    (bytesIf flags.sparseFiles (u32Bytes sparseLen) ++
    (bytesIf flags.selectiveFec (u24Bytes fecLen) ++
    (lfh.name ++ (bytesIf flags.hasPath lfh.path ++ (bytesIf flags.sparseFiles lfh.sparseMap ++
    bytesIf flags.selectiveFec lfh.fecValue))))))))))))))))))))))))))))

/-- The value of a field that is present when `b` is set. -/
def fieldIf {α : Type} (b : Bool) (value : α) : Option α := if b then some value else none

/-- The header as it reads back: a field exists exactly when the flags announce it. -/
def LocalFileHeader.onWire (flags : GlobalFlags) (lfh : LocalFileHeader) : LocalFileHeader where
  headerSize := UInt32.ofNat (lfhFixedLen flags + lfhTrailingLen flags lfh)
  entryMode := lfh.entryMode
  streamId := lfh.streamId
  sequenceNo := lfh.sequenceNo
  uncompressedSize := lfh.uncompressedSize
  payloadSize := lfh.payloadSize
  compAlgoId := fieldIf flags.compressed (lfh.compAlgoId.getD 0)
  patchAlgoId := fieldIf flags.hasDelta (lfh.patchAlgoId.getD 0)
  encrAlgoId := fieldIf flags.encrypted (lfh.encrAlgoId.getD 0)
  cdcAlgoId := fieldIf flags.cdcSupport (lfh.cdcAlgoId.getD 0)
  fecAlgoId := fieldIf flags.selectiveFec (lfh.fecAlgoId.getD 0)
  fragmentId := fieldIf flags.fileFragmentation (lfh.fragmentId.getD 0)
  fragmentIndex := fieldIf flags.fileFragmentation (lfh.fragmentIndex.getD 0)
  fragmentDescriptor := fieldIf flags.fileFragmentation (lfh.fragmentDescriptor.getD ⟨0, 0⟩)
  ivNonce := fieldIf flags.encrypted (lfh.ivNonce.getD (Octets.zero 24))
  deltaBaseHash := fieldIf flags.hasDelta (lfh.deltaBaseHash.getD (Octets.zero 32))
  fileCrc32 := fieldIf flags.perFileCrc (lfh.fileCrc32.getD 0)
  contentHash := fieldIf flags.deduplication (lfh.contentHash.getD (Octets.zero 32))
  uidGid := fieldIf flags.extUidGid (lfh.uidGid.getD 0)
  timestamps := fieldIf flags.extTime (lfh.timestamps.getD ⟨0, 0, 0⟩)
  permissions := fieldIf flags.hasPerms (lfh.permissions.getD 0)
  name := lfh.name
  path := bytesIf flags.hasPath lfh.path
  sparseMap := bytesIf flags.sparseFiles lfh.sparseMap
  fecValue := bytesIf flags.selectiveFec lfh.fecValue

/-! ### Lengths -/

@[simp]
theorem length_bytesIf (b : Bool) (bs : Bytes) : (bytesIf b bs).length = lenIf b bs.length := by
  cases b <;> rfl

@[simp]
theorem length_fragmentDescriptorBytes (d : Option LfhFragmentDescriptor) :
    (fragmentDescriptorBytes d).length = 12 := by
  simp [fragmentDescriptorBytes]

@[simp]
theorem length_timestampsBytes (t : Option Timestamps) : (timestampsBytes t).length = 24 := by
  simp [timestampsBytes]

variable {value : UInt64} {bs : Bytes}

theorem writeSize_eq_ok_iff :
    writeSize flags value = .ok bs ↔
      if flags.size64Bit then bs = u64Bytes value
      else value.toNat < 2 ^ 32 ∧ bs = u32Bytes value.toUInt32 := by
  unfold writeSize
  split
  · simp [eq_comm]
  · simp only [bind_eq_ok_iff, exists_unit, rejectIf_eq_ok_iff, not_le,
      ge_iff_le, pure_eq_ok, ok.injEq, eq_comm (a := bs)]

theorem length_of_writeSize (h : writeSize flags value = .ok bs) :
    bs.length = sizeFieldLen flags := by
  rw [writeSize_eq_ok_iff] at h
  unfold sizeFieldLen
  split at h
  · simp [*]
  · simp [h.2, *]

theorem computeLfhSize_eq_ok_iff :
    computeLfhSize flags lfh = .ok n ↔
      n = lfhFixedLen flags + lfhTrailingLen flags lfh ∧ n ≤ u64Max := by
  simp only [computeLfhSize, bind_eq_ok_iff, exists_unit, rejectIf_eq_ok_iff, pure_eq_ok, ok.injEq]
  constructor
  · rintro ⟨h, rfl⟩
    exact ⟨rfl, by omega⟩
  · rintro ⟨rfl, h⟩
    exact ⟨by omega, rfl⟩

variable {bytes : Bytes}

/-- A written header is as long as `compute_lfh_size` says, and its length fits its field. -/
theorem length_writeLfh (hw : writeLfh flags lfh = .ok bytes) :
    computeLfhSize flags lfh = .ok bytes.length ∧ bytes.length < 2 ^ 32 := by
  simp only [writeLfh, bind_eq_ok_iff, exists_unit, u32OfLen_eq_ok_iff,
    u16OfLen_eq_ok_iff, rejectIf_eq_ok_iff, pure_eq_ok, ok.injEq] at hw
  obtain ⟨-, size, hsize, headerSize, ⟨hlt, -⟩, nameLen, -, pathLen, -, sparseLen, -, fecLen, -,
    ubs, hu, pbs, hp, -, hbytes⟩ := hw
  have hlen : bytes.length = size := by
    rw [← hbytes, (computeLfhSize_eq_ok_iff.mp hsize).1]
    simp only [length_append, length_u32Bytes, length_u16Bytes, length_bytesIf,
      length_cons, length_nil, length_fragmentDescriptorBytes, length_timestampsBytes,
      length_u24Bytes, Octets.length_val, lfhFixedLen, lfhTrailingLen, length_of_writeSize hu,
      length_of_writeSize hp]
    ring
  rw [hlen]
  exact ⟨hsize, hlt⟩

/-! ### Reading back a written header -/

theorem reads_size (h : writeSize flags value = .ok bs) : Reads (readSize flags) bs value := by
  rw [writeSize_eq_ok_iff] at h
  unfold readSize
  split at h
  · simp only [*, if_true]
    exact reads_u64 value
  · obtain ⟨hlt, rfl⟩ := h
    simp only [*, if_false, Bool.false_eq_true]
    refine (reads_u32 value.toUInt32).map ?_
    apply UInt64.toNat_inj.mp
    simp only [UInt32.toNat_toUInt64, UInt64.toNat_toUInt32]
    omega

/-- A field written when its flag is set is read when its flag is set. -/
theorem reads_field {α : Type} {p : Parser α} {a : α} (b : Bool) (h : Reads p bs a) :
    Reads (optional b p) (bytesIf b bs) (fieldIf b a) :=
  Reads.optional b h

/-- A length field that counts as zero when its flag is clear. -/
theorem reads_lenField {p : Parser ℕ} {bs : Bytes} {n : ℕ} (b : Bool)
    (h : b = true → Reads p bs n) :
    Reads ((·.getD 0) <$> optional b p) (bytesIf b bs) (lenIf b n) := by
  cases b with
  | true => exact ((h rfl).map rfl).map rfl
  | false => exact (Reads.pure none).map rfl

theorem reads_fragmentDescriptor (d : Option LfhFragmentDescriptor) :
    Reads fragmentDescriptorField (fragmentDescriptorBytes d) (d.getD ⟨0, 0⟩) := by
  refine (reads_u64 _).bind ?_
  rw [← append_nil (u32Bytes _)]
  exact (reads_u32 _).bind (Reads.pure _)

theorem reads_timestamps (t : Option Timestamps) :
    Reads timestampsField (timestampsBytes t) (t.getD ⟨0, 0, 0⟩) := by
  refine (reads_u64 _).bind ?_
  refine (reads_u64 _).bind ?_
  rw [← append_nil (u64Bytes _)]
  exact (reads_u64 _).bind (Reads.pure _)

/-- A trailing field, whose length was read before. -/
theorem reads_trailing (h : bs.length = n) : Reads (readBytes n) bs ⟨bs, h⟩ := by
  subst h
  exact reads_bytes bs

theorem lfhTrailingLen_onWire (flags : GlobalFlags) (lfh : LocalFileHeader) :
    lfhTrailingLen flags (lfh.onWire flags) = lfhTrailingLen flags lfh := by
  have hidem : ∀ (b : Bool) (bs : Bytes), lenIf b (bytesIf b bs).length = lenIf b bs.length := by
    intro b bs
    cases b <;> rfl
  simp only [lfhTrailingLen, LocalFileHeader.onWire, hidem]

/-- What a successful `write_lfh` produced: the fields of a header whose lengths fit. -/
theorem reads_writeLfh (hw : writeLfh flags lfh = .ok bytes)
    (hpath : lfh.name.length + lenIf flags.hasPath lfh.path.length ≤ limits.maxPathBytes)
    (hsparse : lenIf flags.sparseFiles lfh.sparseMap.length ≤ limits.maxSparseMapBytes)
    (hfec : lenIf flags.selectiveFec lfh.fecValue.length ≤ limits.maxFecValueBytes) :
    bytes.length = lfhFixedLen flags + lfhTrailingLen flags lfh ∧ bytes.length < 2 ^ 32 ∧
      (∃ tail, bytes = u32Bytes (UInt32.ofNat bytes.length) ++ tail) ∧
      ReadsAt (lfhFields flags limits (UInt32.ofNat bytes.length)) 0 bytes (lfh.onWire flags) := by
  obtain ⟨hcomputed, -⟩ := length_writeLfh hw
  simp only [writeLfh, bind_eq_ok_iff, exists_unit, computeLfhSize_eq_ok_iff, u32OfLen_eq_ok_iff,
    u16OfLen_eq_ok_iff, rejectIf_eq_ok_iff, pure_eq_ok, ok.injEq] at hw
  obtain ⟨hmode, size, ⟨hsize, hmax⟩, headerSize, ⟨hlt, hhs⟩, nameLen, ⟨-, hname⟩, pathLen,
    ⟨-, hpathLen⟩, sparseLen, ⟨-, hsparseLen⟩, fecLen, ⟨-, hfecLen⟩, ubs, hu, pbs, hp, hfec24,
    hbytes⟩ := hw
  replace hfec24 : flags.selectiveFec = true → fecLen.toNat < 2 ^ 24 := by
    intro hf
    simp only [hf, Bool.true_and, decide_eq_true_eq] at hfec24
    omega
  have hul := length_of_writeSize hu
  have hpl := length_of_writeSize hp
  have hlen : bytes.length = size := by
    rw [(computeLfhSize_eq_ok_iff.mp hcomputed).1, hsize]
  have hheader : UInt32.ofNat bytes.length = headerSize := by
    rw [hlen, ← hhs, UInt32.ofNat_toNat]
  have honWire : UInt32.ofNat (lfhFixedLen flags + lfhTrailingLen flags lfh) = headerSize := by
    rw [← hsize, ← hlen, hheader]
  refine ⟨by rw [hlen, hsize], by omega, ⟨_, by rw [hheader]; exact hbytes.symm⟩, ?_⟩
  rw [hheader, ← hbytes]
  refine ReadsAt.bind (reads_u32 headerSize _) ?_
  refine ReadsAt.check_bind (rejectIf_of_not (by simp)) ?_
  refine ReadsAt.bind (reads_u16 lfh.entryMode.bits _) ?_
  refine ReadsAt.check_bind hmode ?_
  refine ReadsAt.bind (reads_u16 lfh.streamId _) ?_
  refine ReadsAt.bind (reads_u16 lfh.sequenceNo _) ?_
  refine ReadsAt.bind (reads_size hu _) ?_
  refine ReadsAt.bind (reads_size hp _) ?_
  refine ReadsAt.bind (reads_field _ (reads_u8 _) _) ?_
  refine ReadsAt.bind (reads_field _ (reads_u8 _) _) ?_
  refine ReadsAt.bind (reads_field _ (reads_u8 _) _) ?_
  refine ReadsAt.bind (reads_field _ (reads_u8 _) _) ?_
  refine ReadsAt.bind (reads_field _ (reads_u8 _) _) ?_
  refine ReadsAt.bind (reads_field _ (reads_u32 _) _) ?_
  refine ReadsAt.bind (reads_field _ (reads_u32 _) _) ?_
  refine ReadsAt.bind (reads_field _ (reads_fragmentDescriptor _) _) ?_
  refine ReadsAt.bind (reads_field _ (reads_octets _) _) ?_
  refine ReadsAt.bind (reads_field _ (reads_octets _) _) ?_
  refine ReadsAt.bind (reads_field _ (reads_u32 _) _) ?_
  refine ReadsAt.bind (reads_field _ (reads_octets _) _) ?_
  refine ReadsAt.bind (reads_field _ (reads_u32 _) _) ?_
  refine ReadsAt.bind (reads_field _ (reads_timestamps _) _) ?_
  refine ReadsAt.bind (reads_field _ (reads_u16 _) _) ?_
  refine ReadsAt.bind ((reads_u16 nameLen).map rfl _) ?_
  refine ReadsAt.bind (reads_lenField _ (fun _ => (reads_u16 pathLen).map rfl) _) ?_
  refine ReadsAt.bind (reads_lenField _ (fun _ => (reads_u32 sparseLen).map rfl) _) ?_
  refine ReadsAt.bind (reads_lenField _ (fun hf => (reads_u24 (hfec24 hf)).map rfl) _) ?_
  rw [hname, hpathLen, hsparseLen, hfecLen]
  refine ReadsAt.check_bind (ResourceLimits.atMost_of_le _ hpath) ?_
  refine ReadsAt.check_bind (ResourceLimits.atMost_of_le _ hsparse) ?_
  refine ReadsAt.check_bind (ResourceLimits.atMost_of_le _ hfec) ?_
  refine ReadsAt.position_bind ?_
  refine ReadsAt.check_bind (rejectIf_of_not (not_not.mpr ?_)) ?_
  · rw [hhs, hsize]
    simp only [length_u32Bytes, length_u16Bytes, length_bytesIf, length_cons,
      length_nil, length_fragmentDescriptorBytes, length_timestampsBytes, length_u24Bytes,
      Octets.length_val, lfhFixedLen, lfhTrailingLen, hul, hpl]
    ring
  refine ReadsAt.bind (reads_bytes lfh.name _) ?_
  refine ReadsAt.bind (reads_trailing (length_bytesIf _ _) _) ?_
  refine ReadsAt.bind (reads_trailing (length_bytesIf _ _) _) ?_
  rw [← append_nil (bytesIf flags.selectiveFec lfh.fecValue)]
  refine ReadsAt.bind (reads_trailing (length_bytesIf _ _) _) ?_
  refine ReadsAt.position_bind ?_
  refine ReadsAt.check_bind (rejectIf_of_not (not_not.mpr ?_)) ?_
  · rw [hhs, hsize]
    simp only [length_u32Bytes, length_u16Bytes, length_bytesIf, length_cons,
      length_nil, length_fragmentDescriptorBytes, length_timestampsBytes, length_u24Bytes,
      Octets.length_val, lfhFixedLen, lfhTrailingLen, hul, hpl]
    ring
  refine ReadsAt.check_bind
    (computeLfhSize_eq_ok_iff.mpr ⟨hsize.trans (lfhTrailingLen_onWire flags lfh ▸ rfl), hmax⟩) ?_
  refine ReadsAt.check_bind (rejectIf_of_not (by simp [hhs])) ?_
  rw [LocalFileHeader.onWire, honWire]
  exact Reads.pure _ _

/-- A written Local File Header is read back, whatever follows it. -/
theorem parseLfh_writeLfh (hw : writeLfh flags lfh = .ok bytes)
    (hheader : bytes.length ≤ limits.maxLfhHeaderBytes)
    (hpath : lfh.name.length + lenIf flags.hasPath lfh.path.length ≤ limits.maxPathBytes)
    (hsparse : lenIf flags.sparseFiles lfh.sparseMap.length ≤ limits.maxSparseMapBytes)
    (hfec : lenIf flags.selectiveFec lfh.fecValue.length ≤ limits.maxFecValueBytes) (r : Bytes) :
    parseLfh (bytes ++ r) flags limits = .ok (lfh.onWire flags, bytes.length) := by
  obtain ⟨-, hlt, ⟨tail, htail⟩, hreads⟩ := reads_writeLfh hw hpath hsparse hfec
  have hsize : (UInt32.ofNat bytes.length).toNat = bytes.length :=
    UInt32.toNat_ofNat_of_lt' hlt
  have hfirst : runParser readU32 (bytes ++ r) = .ok (UInt32.ofNat bytes.length, 4) := by
    have h := runParser_of_reads (reads_u32 (UInt32.ofNat bytes.length) 0) (tail ++ r)
    rwa [← append_assoc, ← htail, length_u32Bytes] at h
  have hfields := runParser_of_reads hreads []
  rw [append_nil] at hfields
  simp only [parseLfh, hfirst, ok_bind, hsize, ResourceLimits.checkLfhHeaderBytes,
    ResourceLimits.atMost_of_le _ hheader, length_append, take_left, hfields]
  rw [rejectIf_of_not (by omega)]
  rfl

/-- Once the declared header is complete, later bytes do not matter. -/
theorem parseLfh_append {headerSize : UInt32} (h : runParser readU32 input = .ok (headerSize, n))
    (hle : headerSize.toNat ≤ input.length) (z : Bytes) :
    parseLfh (input ++ z) flags limits = parseLfh input flags limits := by
  have hz := runParser_append_of_ok incremental_readU32 h z
  have hgt : ¬ headerSize.toNat > (input ++ z).length := by
    rw [length_append]
    omega
  simp only [parseLfh, h, hz, ok_bind, take_append_of_le_length hle,
    rejectIf_of_not hgt, rejectIf_of_not (Nat.not_lt.mpr hle)]

/-- A header that was accepted is accepted with more bytes behind it. -/
theorem parseLfh_append_of_ok (h : parseLfh input flags limits = .ok (lfh, n)) (z : Bytes) :
    parseLfh (input ++ z) flags limits = .ok (lfh, n) := by
  have hfull := h
  simp only [parseLfh, bind_eq_ok_iff, Prod.exists, exists_unit, rejectIf_eq_ok_iff, pure_eq_ok,
    ok.injEq, Prod.mk.injEq, not_lt, gt_iff_lt] at h
  obtain ⟨headerSize, _, hread, -, hlen, -⟩ := h
  rw [parseLfh_append hread hlen, hfull]

/-- The bytes of an accepted header are accepted without what follows them. -/
theorem parseLfh_take_of_ok (h : parseLfh input flags limits = .ok (lfh, n)) :
    parseLfh (input.take n) flags limits = .ok (lfh, n) := by
  have hfull := h
  simp only [parseLfh, bind_eq_ok_iff, Prod.exists, exists_unit, rejectIf_eq_ok_iff, pure_eq_ok,
    ok.injEq, Prod.mk.injEq, not_lt, gt_iff_lt] at h
  obtain ⟨headerSize, _, hread, -, hlen, _, _, hfields, rfl, rfl⟩ := h
  -- the size field is read again, as the first one
  obtain ⟨c, hc, -⟩ := runParser_eq_ok_iff.mp hfields
  obtain ⟨⟨declared, c'⟩, hc', -⟩ := bind_eq_ok_iff.mp hc
  have hagain : runParser readU32 (input.take headerSize.toNat) = .ok (declared, c'.pos) :=
    runParser_eq_ok_iff.mpr ⟨c', hc', rfl⟩
  have hwhole := runParser_append_of_ok incremental_readU32 hagain (input.drop headerSize.toNat)
  rw [take_append_drop, hread] at hwhole
  obtain rfl : headerSize = declared := (Prod.mk.inj (ok.inj hwhole)).1
  have hle : headerSize.toNat ≤ (input.take headerSize.toNat).length := by
    rw [length_take]
    omega
  rw [← parseLfh_append hagain hle (input.drop headerSize.toNat), take_append_drop, hfull]

/-! ### The part of the header that is authenticated -/

/-- `fec_size_field_offset`: where the length of the error-correction value is stored. -/
def fecSizeFieldOffset (flags : GlobalFlags) : ℕ :=
  let sizeLen := sizeFieldLen flags
  4 + 2 + 2 + 2 + sizeLen + sizeLen + lenIf flags.compressed 1 + lenIf flags.hasDelta 1 +
    lenIf flags.encrypted 1 + lenIf flags.cdcSupport 1 + lenIf flags.selectiveFec 1 +
    lenIf flags.fileFragmentation (4 + 4 + 12) + lenIf flags.encrypted 24 +
    lenIf flags.hasDelta 32 + lenIf flags.perFileCrc 4 + lenIf flags.deduplication 32 +
    lenIf flags.extUidGid 4 + lenIf flags.extTime 24 + lenIf flags.hasPerms 2 + 2 +
    lenIf flags.hasPath 2 + lenIf flags.sparseFiles 4

/-- `lfh_bytes_for_aad`: the header without its error-correction length and value. -/
def lfhBytesForAad (flags : GlobalFlags) (lfhBytes : Bytes) (fecAlgoId : UInt8)
    (fecValueLen : ℕ) : Result Bytes :=
  if !flags.selectiveFec || fecAlgoId == 0 then pure lfhBytes
  else do
    let fecSizeOff := fecSizeFieldOffset flags
    let fecSizeEnd := fecSizeOff + 3
    rejectIf (lfhBytes.length < fecValueLen) (.invalidLength "FEC value length exceeds LFH length")
    let fecValueStart := lfhBytes.length - fecValueLen
    rejectIf (fecSizeEnd > fecValueStart)
      (.invalidLength "LFH FEC fields exceed available LFH bytes")
    rejectIf (lfhBytes.length < 3 + fecValueLen)
      (.invalidLength "LFH AAD exclusion exceeds LFH length")
    pure (lfhBytes.take fecSizeOff ++ (lfhBytes.take fecValueStart).drop fecSizeEnd)

/-- A header whose error-correction value is exchanged for one of the same length changes in its
last bytes only. -/
theorem writeLfh_fecValue {value bytes' : Bytes} (hw : writeLfh flags lfh = .ok bytes)
    (hw' : writeLfh flags { lfh with fecValue := value } = .ok bytes')
    (hlen : value.length = lfh.fecValue.length) :
    ∃ body, bytes = body ++ bytesIf flags.selectiveFec lfh.fecValue ∧
      bytes' = body ++ bytesIf flags.selectiveFec value := by
  have htrailing :
      lfhTrailingLen flags { lfh with fecValue := value } = lfhTrailingLen flags lfh := by
    simp only [lfhTrailingLen, hlen]
  simp only [writeLfh, bind_eq_ok_iff, exists_unit, computeLfhSize_eq_ok_iff, u32OfLen_eq_ok_iff,
    u16OfLen_eq_ok_iff, rejectIf_eq_ok_iff, pure_eq_ok, ok.injEq] at hw hw'
  obtain ⟨-, _, ⟨rfl, -⟩, size, ⟨-, hsize⟩, name, ⟨-, hname⟩, path, ⟨-, hpath⟩, sparse,
    ⟨-, hsparse⟩, fec, ⟨-, hfec⟩, u, hu, p, hp, -, rfl⟩ := hw
  obtain ⟨-, _, ⟨rfl, -⟩, size', ⟨-, hsize'⟩, name', ⟨-, hname'⟩, path', ⟨-, hpath'⟩, sparse',
    ⟨-, hsparse'⟩, fec', ⟨-, hfec'⟩, u', hu', p', hp', -, rfl⟩ := hw'
  -- every field before the value is determined by the header and the length
  obtain rfl : size' = size :=
    UInt32.toNat_inj.mp (by rw [hsize', hsize, htrailing])
  obtain rfl : name' = name := UInt16.toNat_inj.mp (hname'.trans hname.symm)
  obtain rfl : path' = path := UInt16.toNat_inj.mp (hpath'.trans hpath.symm)
  obtain rfl : sparse' = sparse := UInt32.toNat_inj.mp (hsparse'.trans hsparse.symm)
  obtain rfl : fec' = fec := UInt32.toNat_inj.mp (by rw [hfec', hfec, hlen])
  obtain rfl : u' = u := ok.inj (hu'.symm.trans hu)
  obtain rfl : p' = p := ok.inj (hp'.symm.trans hp)
  simp only [← append_assoc]
  exact ⟨_, rfl, rfl⟩

/-- What is authenticated of a header with an error-correction value at its end. -/
theorem lfhBytesForAad_append {algoId : UInt8} (hflag : flags.selectiveFec = true)
    (halgo : algoId ≠ 0) (body value : Bytes) :
    lfhBytesForAad flags (body ++ value) algoId value.length = (do
      rejectIf (fecSizeFieldOffset flags + 3 > body.length)
        (.invalidLength "LFH FEC fields exceed available LFH bytes")
      pure (body.take (fecSizeFieldOffset flags) ++ body.drop (fecSizeFieldOffset flags + 3))) := by
  have hstart : (body ++ value).length - value.length = body.length := by
    rw [length_append, Nat.add_sub_cancel]
  have hcond : ¬ (!flags.selectiveFec || algoId == 0) = true := by
    simp [hflag, halgo]
  rw [lfhBytesForAad, if_neg hcond]
  dsimp only
  rw [hstart, take_left' rfl, length_append, rejectIf_bind (by omega)]
  by_cases hle : fecSizeFieldOffset flags + 3 > body.length
  · rw [Except.rejectIf_of hle]
    rfl
  · rw [rejectIf_bind hle, rejectIf_bind (by omega), rejectIf_bind hle,
      take_append_of_le_length (by omega)]

end Sar
