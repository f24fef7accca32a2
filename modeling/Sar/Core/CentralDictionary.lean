import Sar.Core.LocalFileHeader
import Sar.Fec.Codec

/-!
# Central Dictionary and footer

The trailer of an indexed archive: metadata records, the offsets of the entries and the footer
that points back at the dictionary.

* `parseTlvs_writeTlvs`: metadata records that were written are read back.
* `parseCentralDictionary_writeCentralDictionary`: so is a whole dictionary, with the fields
  the flags switch off cleared.
-/

namespace Sar

open ByteParser LittleEndian List
open Except (rejectIf bind_eq_ok_iff pure_eq_ok ok_bind exists_unit rejectIf_of_not
  rejectIf_eq_ok_iff ok.injEq)

/-! ### Metadata records -/

/-- `Tlv`. -/
structure Tlv where
  typeId : UInt8
  value : Bytes
  deriving DecidableEq

/-- `classify_type`. -/
def classifyType (typeId : UInt8) : Result Unit :=
  if typeId = 0x00 then .error (.reservedValue "TLV type 0x00 is reserved")
  else if typeId ≤ 0x0F then .ok ()
  else if typeId ≤ 0x1F then (validateFecAlgoId typeId).liftError FecError.toSarError
  else if typeId ≤ 0x2F then .error (.unsupported "SIGNATURE TLV not implemented in M1-M3")
  else if typeId ≤ 0x41 ∨ typeId = 0x4F then .ok ()
  else if typeId ≤ 0x4E then .error (.reservedValue "reserved CDC metadata TLV type")
  else .error (.reservedValue "reserved TLV type")

/-- The padding after `len` bytes up to a multiple of eight. -/
def tlvPadding (len : ℕ) : ℕ := (8 - len % 8) % 8

/-- One record of `parse_tlvs`. -/
def tlvBlock (limits : ResourceLimits) : Parser Tlv := do
  let start ← position
  let typeId ← readU8
  check (classifyType typeId)
  let length ← readU32
  check (rejectIf (length.toNat = 2 ^ 32 - 1) (.reservedValue "TLV length 0xFFFFFFFF is reserved"))
  check (limits.checkTlvBytes length.toNat)
  let value ← readBytes length.toNat
  let stop ← position
  let padding ← readBytes (tlvPadding (stop - start))
  check (rejectIf (padding.val.any (· != 0)) (.invalidAlignment "non-zero TLV padding"))
  pure ⟨typeId, value.val⟩

/-- The loop of `parse_tlvs`. Every record reads a byte, so `fuel` is the length of the input. -/
def tlvBlocks (limits : ResourceLimits) : ℕ → ℕ → Parser (List Tlv)
  | 0, _ => pure []
  | fuel + 1, count => do
    let left ← remaining
    if left = 0 then pure []
    else do
      check (limits.checkTlvCount (count + 1))
      let tlv ← tlvBlock limits
      let tlvs ← tlvBlocks limits fuel (count + 1)
      pure (tlv :: tlvs)

/-- `parse_tlvs`. -/
def parseTlvs (input : Bytes) (limits : ResourceLimits) : Result (List Tlv) :=
  Prod.fst <$> runParser (tlvBlocks limits input.length 0) input

/-- One record of `write_tlvs`. -/
def Tlv.toBytes (tlv : Tlv) : Result Bytes := do
  classifyType tlv.typeId
  let length ← u32OfLen tlv.value.length "TLV value too large for u32 length"
  rejectIf (length.toNat = 2 ^ 32 - 1) (.reservedValue "TLV length 0xFFFFFFFF is reserved")
  let pad := tlvPadding (1 + 4 + tlv.value.length)
  pure ([tlv.typeId] ++ (u32Bytes length ++ (tlv.value ++ List.replicate pad 0)))

/-- `write_tlvs`. -/
def writeTlvs : List Tlv → Result Bytes
  | [] => pure []
  | tlv :: tlvs => do
    let block ← tlv.toBytes
    let rest ← writeTlvs tlvs
    pure (block ++ rest)

/-! ### The dictionary -/

/-- `SUPPORTED_CD_VERSION`. -/
def supportedCdVersion : UInt8 := 0x01

/-- `CentralDictionary`. -/
structure CentralDictionary where
  version : UInt8
  fileCount : UInt64
  partitionInfo : Option (UInt16 × UInt16)
  globalCrc32 : Option UInt32
  tlvs : List Tlv
  offsets : List UInt64
  deriving DecidableEq

/-- `Footer`. -/
structure Footer where
  cdOffset : UInt64
  deriving DecidableEq

/-- The partition tuple. -/
def partitionInfoField : Parser (UInt16 × UInt16) := do
  let partitionId ← readU16
  let total ← readU16
  pure (partitionId, total)

/-- The metadata section: its size and its records. -/
def cdMetadataField (limits : ResourceLimits) : Parser (List Tlv) := do
  let metaSize ← readU32
  check (limits.checkAllocationBytes metaSize.toNat)
  let metaBytes ← readBytes metaSize.toNat
  check (parseTlvs metaBytes.val limits)

/-- The offset loop. -/
def readSizes (flags : GlobalFlags) : ℕ → Parser (List UInt64)
  | 0 => pure []
  | n + 1 => do
    let size ← readSize flags
    let sizes ← readSizes flags n
    pure (size :: sizes)

/-- The fields of `parse_central_dictionary`, in wire order. -/
def centralDictionary (flags : GlobalFlags) (limits : ResourceLimits) :
    Parser CentralDictionary := do
  let version ← readU8
  check (rejectIf (version ≠ supportedCdVersion)
    (.invalidVersion "unsupported central dictionary version"))
  let reserved ← readBytes 7
  check (rejectIf (reserved.val.any (· != 0)) (.reservedValue "CD reserved bytes must be zero"))
  let fileCount ← readSize flags
  let partitionInfo ← optional flags.partitionedArchive partitionInfoField
  let globalCrc32 ← optional flags.hasGlobalCrc32 readU32
  let tlvs ← (·.getD []) <$> optional flags.optPresent (cdMetadataField limits)
  check (limits.checkEntryCount fileCount.toNat)
  check (rejectIf (fileCount.toNat > isizeMax / 8) (.overflow "CD offsets allocation"))
  let offsets ← readSizes flags fileCount.toNat
  pure ⟨version, fileCount, partitionInfo, globalCrc32, tlvs, offsets⟩

/-- `parse_central_dictionary`: the dictionary and the number of bytes it took. -/
def parseCentralDictionary (input : Bytes) (flags : GlobalFlags) (limits : ResourceLimits) :
    Result (CentralDictionary × ℕ) := do
  limits.checkCdBytes input.length
  runParser (centralDictionary flags limits) input

/-- A required optional value, written when the flag is set. -/
def requiredIf {α : Type} (b : Bool) (x : Option α) (missing : String) (toBytes : α → Bytes) :
    Result Bytes :=
  if b then
    match x with
    | some a => .ok (toBytes a)
    | none => .error (.metadataMissing missing)
  else .ok []

/-- The metadata section, written when the flag is set. -/
def cdMetadataBytes (optPresent : Bool) (tlvs : List Tlv) : Result Bytes :=
  if optPresent then do
    let metaBytes ← writeTlvs tlvs
    let metaLen ← u32OfLen metaBytes.length "metadata size does not fit u32"
    pure (u32Bytes metaLen ++ metaBytes)
  else pure []

/-- The offsets, written. -/
def writeSizes (flags : GlobalFlags) : List UInt64 → Result Bytes
  | [] => pure []
  | offset :: offsets => do
    let bytes ← writeSize flags offset
    let rest ← writeSizes flags offsets
    pure (bytes ++ rest)

/-- `write_central_dictionary`. -/
def writeCentralDictionary (cd : CentralDictionary) (flags : GlobalFlags) : Result Bytes := do
  let fileCount ← writeSize flags cd.fileCount
  let partition ← requiredIf flags.partitionedArchive cd.partitionInfo
    "partition info required for PARTITIONED_ARCHIVE" fun p => u16Bytes p.1 ++ u16Bytes p.2
  let crc ← requiredIf flags.hasGlobalCrc32 cd.globalCrc32
    "global CRC32 required by HAS_GLOBAL_CRC32" u32Bytes
  let metaBytes ← cdMetadataBytes flags.optPresent cd.tlvs
  rejectIf (cd.fileCount.toNat ≠ cd.offsets.length)
    (.invalidLength "offset count does not match file count")
  let offsets ← writeSizes flags cd.offsets
  pure ([cd.version] ++ (List.replicate 7 0 ++ (fileCount ++ (partition ++ (crc ++
    (metaBytes ++ offsets))))))

/-- `parse_footer`. -/
def parseFooter (input : Bytes) : Result Footer := do
  rejectIf (input.length < 8) (.truncated "footer requires 8 bytes")
  pure ⟨UInt64.ofNat (leNat (input.take 8))⟩

/-- `write_footer`. -/
def writeFooter (footer : Footer) : Bytes := u64Bytes footer.cdOffset

@[simp]
theorem parseFooter_writeFooter (footer : Footer) :
    parseFooter (writeFooter footer) = .ok footer := by
  have htake : (writeFooter footer).take 8 = writeFooter footer :=
    take_of_length_le (by simp [writeFooter])
  rw [parseFooter, Except.rejectIf_bind (by simp [writeFooter]), htake, writeFooter, u64Bytes,
    ofNat_leNat_leBytes_uint64]
  rfl

/-! ### Records are read back -/

variable {bytes : Bytes}

theorem length_tlv_toBytes {tlv : Tlv} (h : tlv.toBytes = .ok bytes) :
    bytes.length = 5 + tlv.value.length + tlvPadding (1 + 4 + tlv.value.length) := by
  simp only [Tlv.toBytes, bind_eq_ok_iff, pure_eq_ok, ok.injEq] at h
  obtain ⟨-, -, length, -, -, -, rfl⟩ := h
  simp only [length_append, length_cons, length_nil, length_u32Bytes, length_replicate]
  omega

variable {limits : ResourceLimits}

theorem reads_tlvBlock {tlv : Tlv} (h : tlv.toBytes = .ok bytes)
    (hlen : tlv.value.length ≤ limits.maxTlvBytes) : Reads (tlvBlock limits) bytes tlv := by
  simp only [Tlv.toBytes, bind_eq_ok_iff, exists_unit, rejectIf_eq_ok_iff,
    pure_eq_ok, ok.injEq, u32OfLen_eq_ok_iff] at h
  obtain ⟨hclass, length, ⟨-, hval⟩, hreserved, rfl⟩ := h
  intro pos
  refine ReadsAt.position_bind ?_
  refine ReadsAt.bind (reads_u8 _ _) ?_
  refine ReadsAt.check_bind hclass ?_
  refine ReadsAt.bind (reads_u32 _ _) ?_
  refine ReadsAt.check_bind (rejectIf_of_not hreserved) ?_
  refine ReadsAt.check_bind (ResourceLimits.atMost_of_le _ (by omega)) ?_
  rw [hval]
  refine ReadsAt.bind (reads_bytes _ _) ?_
  refine ReadsAt.position_bind ?_
  have hpad : pos + [tlv.typeId].length + (u32Bytes length).length + tlv.value.length - pos =
      1 + 4 + tlv.value.length := by
    simp only [length_cons, length_nil, length_u32Bytes]
    omega
  rw [hpad]
  refine ReadsAt.bind_nil (reads_trailing (length_replicate ..) _) ?_
  refine ReadsAt.check_bind (rejectIf_of_not (by simp)) ?_
  exact Reads.pure _ _

variable {tlvs : List Tlv}

/-- The records, with nothing after them. -/
theorem tlvBlocks_writeTlvs (h : writeTlvs tlvs = .ok bytes)
    (hlen : ∀ tlv ∈ tlvs, tlv.value.length ≤ limits.maxTlvBytes) (fuel count pos : ℕ)
    (hcount : count + tlvs.length ≤ limits.maxTlvCount) (hfuel : tlvs.length ≤ fuel) :
    tlvBlocks limits fuel count ⟨pos, bytes⟩ = .ok (tlvs, ⟨pos + bytes.length, []⟩) := by
  induction tlvs generalizing bytes fuel count pos with
  | nil =>
    cases h
    cases fuel with
    | zero => rfl
    | succ fuel => simp [tlvBlocks, bind_apply]
  | cons tlv tlvs ih =>
    simp only [writeTlvs, bind_eq_ok_iff, pure_eq_ok, ok.injEq] at h
    obtain ⟨block, hblock, rest, hrest, rfl⟩ := h
    rw [length_cons] at hcount hfuel
    obtain ⟨fuel, rfl⟩ : ∃ n, fuel = n + 1 := ⟨fuel - 1, by omega⟩
    have hread := reads_tlvBlock hblock (hlen tlv mem_cons_self) pos rest
    have htail := ih hrest (fun t ht => hlen t (mem_cons_of_mem tlv ht)) fuel (count + 1)
      (pos + block.length) (by omega) (by omega)
    have hblockLen := length_tlv_toBytes hblock
    rw [tlvBlocks]
    simp only [bind_apply, remaining_apply, ok_bind]
    rw [if_neg (by rw [length_append]; omega)]
    simp only [bind_apply, check_apply, ResourceLimits.checkTlvCount,
      ResourceLimits.atMost_of_le _ (show count + 1 ≤ limits.maxTlvCount by omega),
      ok_bind, hread, htail, pure_apply, length_append, Nat.add_assoc]

theorem length_le_of_writeTlvs (h : writeTlvs tlvs = .ok bytes) : tlvs.length ≤ bytes.length := by
  induction tlvs generalizing bytes with
  | nil => simp
  | cons tlv tlvs ih =>
    simp only [writeTlvs, bind_eq_ok_iff, pure_eq_ok, ok.injEq] at h
    obtain ⟨block, hblock, rest, hrest, rfl⟩ := h
    have hblockLen := length_tlv_toBytes hblock
    have := ih hrest
    rw [length_append, length_cons]
    omega

/-- Metadata records that were written are read back. -/
theorem parseTlvs_writeTlvs (h : writeTlvs tlvs = .ok bytes)
    (hlen : ∀ tlv ∈ tlvs, tlv.value.length ≤ limits.maxTlvBytes)
    (hcount : tlvs.length ≤ limits.maxTlvCount) : parseTlvs bytes limits = .ok tlvs := by
  have hblocks := tlvBlocks_writeTlvs h hlen bytes.length 0 0 (by omega)
    (length_le_of_writeTlvs h)
  rw [parseTlvs, runParser, Cursor.ofBytes, hblocks]
  rfl

/-! ### The dictionary is read back -/

/-- The dictionary as it reads back: a field exists exactly when the flags announce it. -/
def CentralDictionary.onWire (flags : GlobalFlags) (cd : CentralDictionary) : CentralDictionary :=
  { cd with
    partitionInfo := if flags.partitionedArchive then cd.partitionInfo else none
    globalCrc32 := if flags.hasGlobalCrc32 then cd.globalCrc32 else none
    tlvs := if flags.optPresent then cd.tlvs else [] }

theorem reads_requiredIf {α : Type} {p : Parser α} {b : Bool} {x : Option α} {missing : String}
    {toBytes : α → Bytes} (hp : ∀ a, Reads p (toBytes a) a)
    (h : requiredIf b x missing toBytes = .ok bytes) :
    Reads (optional b p) bytes (if b then x else none) := by
  cases b with
  | false =>
    cases h
    exact Reads.pure none
  | true =>
    cases x with
    | none => cases h
    | some a =>
      cases h
      exact (hp a).map rfl

theorem reads_partitionInfo (p : UInt16 × UInt16) :
    Reads partitionInfoField (u16Bytes p.1 ++ u16Bytes p.2) p :=
  fun _ => ReadsAt.bind (reads_u16 _ _) (ReadsAt.bind_nil (reads_u16 _ _) (Reads.pure _ _))

theorem reads_cdMetadata {limits : ResourceLimits} {b : Bool} {tlvs : List Tlv} {bytes : Bytes}
    (h : cdMetadataBytes b tlvs = .ok bytes)
    (hlen : ∀ tlv ∈ tlvs, tlv.value.length ≤ limits.maxTlvBytes)
    (hcount : tlvs.length ≤ limits.maxTlvCount)
    (halloc : limits.checkAllocationBytes (bytes.length - 4) = .ok ()) :
    Reads ((·.getD []) <$> optional b (cdMetadataField limits)) bytes
      (if b then tlvs else []) := by
  cases b with
  | false =>
    cases h
    exact (Reads.pure none).map rfl
  | true =>
    simp only [cdMetadataBytes, if_true, bind_eq_ok_iff, pure_eq_ok,
      ok.injEq, u32OfLen_eq_ok_iff] at h
    obtain ⟨metaBytes, hmeta, metaLen, ⟨-, hval⟩, rfl⟩ := h
    have hsub : (u32Bytes metaLen ++ metaBytes).length - 4 = metaBytes.length := by simp
    rw [hsub] at halloc
    refine Reads.map (a := some tlvs) (Reads.map (a := tlvs) (fun pos => ?_) rfl) rfl
    refine ReadsAt.bind (reads_u32 _ _) ?_
    rw [hval]
    refine ReadsAt.check_bind halloc ?_
    refine ReadsAt.bind_nil (reads_bytes _ _) ?_
    exact Reads.check (parseTlvs_writeTlvs hmeta hlen hcount) _

variable {flags : GlobalFlags}

theorem reads_sizes {sizes : List UInt64} (h : writeSizes flags sizes = .ok bytes) :
    Reads (readSizes flags sizes.length) bytes sizes := by
  induction sizes generalizing bytes with
  | nil =>
    cases h
    exact Reads.pure []
  | cons size sizes ih =>
    simp only [writeSizes, bind_eq_ok_iff, pure_eq_ok, ok.injEq] at h
    obtain ⟨first, hfirst, rest, hrest, rfl⟩ := h
    exact fun _ => ReadsAt.bind (reads_size hfirst _)
      (ReadsAt.bind_nil (ih hrest _) (Reads.pure _ _))

/-- A Central Dictionary that was written is read back, whatever follows it. -/
theorem parseCentralDictionary_writeCentralDictionary {cd : CentralDictionary} (r : Bytes)
    (hw : writeCentralDictionary cd flags = .ok bytes) (hv : cd.version = supportedCdVersion)
    (hlen : (bytes ++ r).length ≤ limits.maxCdBytes)
    (htlv : ∀ tlv ∈ cd.tlvs, tlv.value.length ≤ limits.maxTlvBytes)
    (htlvs : cd.tlvs.length ≤ limits.maxTlvCount)
    (halloc : ∀ n ≤ bytes.length, limits.checkAllocationBytes n = .ok ())
    (hcount : cd.offsets.length ≤ limits.maxEntryCount)
    (hisize : cd.offsets.length ≤ isizeMax / 8) :
    parseCentralDictionary (bytes ++ r) flags limits = .ok (cd.onWire flags, bytes.length) := by
  simp only [writeCentralDictionary, bind_eq_ok_iff, exists_unit,
    rejectIf_eq_ok_iff, not_not, ne_eq, pure_eq_ok, ok.injEq] at hw
  obtain ⟨fileCount, hfc, partition, hpart, crc, hcrc, metaBytes, hmeta, hmatch, offsets, hoff,
    rfl⟩ := hw
  have hmetaLen : metaBytes.length - 4 ≤ ([cd.version] ++ (List.replicate 7 0 ++ (fileCount ++
      (partition ++ (crc ++ (metaBytes ++ offsets)))))).length := by
    simp only [length_append]
    omega
  rw [parseCentralDictionary, ResourceLimits.checkCdBytes, ResourceLimits.atMost_of_le _ hlen,
    ok_bind]
  refine runParser_of_reads (ReadsAt.bind (reads_u8 cd.version _) ?_) r
  refine ReadsAt.check_bind (rejectIf_of_not (by simp [hv])) ?_
  refine ReadsAt.bind (reads_trailing (by simp) _) ?_
  refine ReadsAt.check_bind (rejectIf_of_not (by simp)) ?_
  refine ReadsAt.bind (reads_size hfc _) ?_
  refine ReadsAt.bind (reads_requiredIf reads_partitionInfo hpart _) ?_
  refine ReadsAt.bind (reads_requiredIf reads_u32 hcrc _) ?_
  refine ReadsAt.bind (reads_cdMetadata hmeta htlv htlvs (halloc _ hmetaLen) _) ?_
  rw [hmatch]
  refine ReadsAt.check_bind (ResourceLimits.atMost_of_le _ hcount) ?_
  refine ReadsAt.check_bind (rejectIf_of_not (by omega)) ?_
  exact ReadsAt.bind_nil (reads_sizes hoff _) (Reads.pure _ _)

/-! ### Which dictionaries can be written -/

/-- A record with an assigned type and a length that is not reserved. -/
def Tlv.Writable (tlv : Tlv) : Prop :=
  classifyType tlv.typeId = .ok () ∧ tlv.value.length < 2 ^ 32 - 1

/-- The length of a record with that many bytes of value. -/
def tlvLen (valueLen : ℕ) : ℕ := 5 + valueLen + tlvPadding (1 + 4 + valueLen)

/-- The length of the records. -/
def tlvsLen (tlvs : List Tlv) : ℕ := (tlvs.map fun tlv => tlvLen tlv.value.length).sum

/-- The value can stand in a size field. -/
def FitsSizeField (flags : GlobalFlags) (value : UInt64) : Prop :=
  flags.size64Bit = true ∨ value.toNat < 2 ^ 32

theorem Tlv.exists_toBytes_iff (tlv : Tlv) : (∃ bytes, tlv.toBytes = .ok bytes) ↔ tlv.Writable := by
  simp only [Tlv.toBytes, bind_eq_ok_iff, exists_unit, rejectIf_eq_ok_iff,
    pure_eq_ok, ok.injEq, u32OfLen_eq_ok_iff, Tlv.Writable]
  constructor
  · rintro ⟨_, hclass, length, ⟨hlt, hval⟩, hreserved, -⟩
    exact ⟨hclass, by omega⟩
  · rintro ⟨hclass, hlt⟩
    have hval : (UInt32.ofNat tlv.value.length).toNat = tlv.value.length :=
      UInt32.toNat_ofNat_of_lt' (by simp only [UInt32.size]; omega)
    exact ⟨_, hclass, _, ⟨by omega, hval⟩, by omega, rfl⟩

/-- Records can be written when each of them can. -/
theorem exists_writeTlvs_iff (tlvs : List Tlv) (n : ℕ) :
    (∃ bytes, writeTlvs tlvs = .ok bytes ∧ bytes.length = n) ↔
      (∀ tlv ∈ tlvs, tlv.Writable) ∧ tlvsLen tlvs = n := by
  induction tlvs generalizing n with
  | nil => simp [writeTlvs, tlvsLen]
  | cons tlv tlvs ih =>
    simp only [writeTlvs, bind_eq_ok_iff, pure_eq_ok, ok.injEq,
      forall_mem_cons, ← tlv.exists_toBytes_iff, tlvsLen, map_cons, sum_cons]
    constructor
    · rintro ⟨_, ⟨block, hblock, rest, hrest, rfl⟩, rfl⟩
      obtain ⟨hall, hlen⟩ := (ih _).mp ⟨rest, hrest, rfl⟩
      rw [tlvsLen] at hlen
      exact ⟨⟨⟨block, hblock⟩, hall⟩, by rw [hlen, length_append, length_tlv_toBytes hblock,
        tlvLen]⟩
    · rintro ⟨⟨⟨block, hblock⟩, hall⟩, rfl⟩
      obtain ⟨rest, hrest, hlen⟩ := (ih _).mpr ⟨hall, rfl⟩
      rw [tlvsLen] at hlen
      exact ⟨_, ⟨block, hblock, rest, hrest, rfl⟩, by rw [length_append,
        length_tlv_toBytes hblock, hlen, tlvLen]⟩

theorem exists_writeSize_iff (flags : GlobalFlags) (value : UInt64) :
    (∃ bytes, writeSize flags value = .ok bytes) ↔ FitsSizeField flags value := by
  simp only [writeSize_eq_ok_iff, FitsSizeField]
  cases flags.size64Bit <;> simp

/-- Offsets can be written when each of them fits. -/
theorem exists_writeSizes_iff (flags : GlobalFlags) (sizes : List UInt64) (n : ℕ) :
    (∃ bytes, writeSizes flags sizes = .ok bytes ∧ bytes.length = n) ↔
      (∀ size ∈ sizes, FitsSizeField flags size) ∧ sizes.length * sizeFieldLen flags = n := by
  induction sizes generalizing n with
  | nil => simp [writeSizes]
  | cons size sizes ih =>
    simp only [writeSizes, bind_eq_ok_iff, pure_eq_ok, ok.injEq,
      forall_mem_cons, ← exists_writeSize_iff flags size, length_cons, Nat.succ_mul]
    constructor
    · rintro ⟨_, ⟨first, hfirst, rest, hrest, rfl⟩, rfl⟩
      obtain ⟨hall, hlen⟩ := (ih _).mp ⟨rest, hrest, rfl⟩
      exact ⟨⟨⟨first, hfirst⟩, hall⟩, by
        rw [hlen, length_append, length_of_writeSize hfirst, Nat.add_comm]⟩
    · rintro ⟨⟨⟨first, hfirst⟩, hall⟩, rfl⟩
      obtain ⟨rest, hrest, hlen⟩ := (ih _).mpr ⟨hall, rfl⟩
      exact ⟨_, ⟨first, hfirst, rest, hrest, rfl⟩, by
        rw [length_append, length_of_writeSize hfirst, hlen, Nat.add_comm]⟩

/-- The length of the metadata section. -/
def cdMetadataLen (optPresent : Bool) (tlvs : List Tlv) : ℕ :=
  if optPresent then 4 + tlvsLen tlvs else 0

theorem exists_cdMetadataBytes_iff (optPresent : Bool) (tlvs : List Tlv) (n : ℕ) :
    (∃ bytes, cdMetadataBytes optPresent tlvs = .ok bytes ∧ bytes.length = n) ↔
      (optPresent = true → (∀ tlv ∈ tlvs, tlv.Writable) ∧ tlvsLen tlvs < 2 ^ 32) ∧
        cdMetadataLen optPresent tlvs = n := by
  cases optPresent with
  | false => simp [cdMetadataBytes, cdMetadataLen]
  | true =>
    simp only [cdMetadataBytes, cdMetadataLen, if_true, bind_eq_ok_iff, pure_eq_ok,
      ok.injEq, u32OfLen_eq_ok_iff, forall_const]
    constructor
    · rintro ⟨_, ⟨metaBytes, hmeta, metaLen, ⟨hlt, -⟩, rfl⟩, rfl⟩
      obtain ⟨hall, hlen⟩ := (exists_writeTlvs_iff tlvs _).mp ⟨metaBytes, hmeta, rfl⟩
      exact ⟨⟨hall, hlen ▸ hlt⟩, by rw [hlen, length_append, length_u32Bytes]⟩
    · rintro ⟨⟨hall, hlt⟩, rfl⟩
      obtain ⟨metaBytes, hmeta, hlen⟩ := (exists_writeTlvs_iff tlvs _).mpr ⟨hall, rfl⟩
      rw [← hlen] at hlt
      have hval : (UInt32.ofNat metaBytes.length).toNat = metaBytes.length :=
        UInt32.toNat_ofNat_of_lt' hlt
      exact ⟨_, ⟨metaBytes, hmeta, _, ⟨hlt, hval⟩, rfl⟩, by
        rw [length_append, length_u32Bytes, hlen]⟩

/-- The length of a dictionary without partition and checksum fields. -/
def cdLen (flags : GlobalFlags) (tlvs : List Tlv) (count : ℕ) : ℕ :=
  8 + sizeFieldLen flags + cdMetadataLen flags.optPresent tlvs + count * sizeFieldLen flags

/-- A dictionary without partition and checksum fields can be written when its records can, and its
count and offsets fit. -/
theorem exists_writeCentralDictionary_iff (cd : CentralDictionary) (n : ℕ)
    (hpart : flags.partitionedArchive = false) (hcrc : flags.hasGlobalCrc32 = false) :
    (∃ bytes, writeCentralDictionary cd flags = .ok bytes ∧ bytes.length = n) ↔
      FitsSizeField flags cd.fileCount ∧
      (flags.optPresent = true → (∀ tlv ∈ cd.tlvs, tlv.Writable) ∧ tlvsLen cd.tlvs < 2 ^ 32) ∧
      cd.fileCount.toNat = cd.offsets.length ∧ (∀ offset ∈ cd.offsets, FitsSizeField flags offset) ∧
      cdLen flags cd.tlvs cd.offsets.length = n := by
  simp only [writeCentralDictionary, requiredIf, hpart, hcrc, Bool.false_eq_true, if_false,
    bind_eq_ok_iff, exists_unit, ok.injEq, exists_eq_left',
    rejectIf_eq_ok_iff, ne_eq, not_not, pure_eq_ok, nil_append]
  constructor
  · rintro ⟨_, ⟨fileCount, hfc, metaBytes, hmeta, hmatch, offsets, hoff, rfl⟩, rfl⟩
    obtain ⟨hrecords, hmetaLen⟩ := (exists_cdMetadataBytes_iff _ _ _).mp ⟨metaBytes, hmeta, rfl⟩
    obtain ⟨hall, hoffLen⟩ := (exists_writeSizes_iff _ _ _).mp ⟨offsets, hoff, rfl⟩
    refine ⟨(exists_writeSize_iff _ _).mp ⟨_, hfc⟩, hrecords, hmatch, hall, ?_⟩
    simp only [length_append, length_cons, length_nil, length_replicate,
      length_of_writeSize hfc, ← hmetaLen, ← hoffLen, cdLen]
    omega
  · rintro ⟨hcount, hrecords, hmatch, hall, rfl⟩
    obtain ⟨fileCount, hfc⟩ := (exists_writeSize_iff _ _).mpr hcount
    obtain ⟨metaBytes, hmeta, hmetaLen⟩ :=
      (exists_cdMetadataBytes_iff flags.optPresent cd.tlvs _).mpr ⟨hrecords, rfl⟩
    obtain ⟨offsets, hoff, hoffLen⟩ := (exists_writeSizes_iff flags cd.offsets _).mpr ⟨hall, rfl⟩
    refine ⟨_, ⟨fileCount, hfc, metaBytes, hmeta, hmatch, offsets, hoff, rfl⟩, ?_⟩
    simp only [length_append, length_cons, length_nil, length_replicate,
      length_of_writeSize hfc, hmetaLen, hoffLen, cdLen]
    omega

end Sar
