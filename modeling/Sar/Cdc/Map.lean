import Sar.Cdc.Validate
import Sar.Core.CentralDictionary
import Sar.Core.Utf8
import Sar.Sparse.Map

/-!
# Content-defined chunking: the metadata records

The records of the Central Dictionary that belong to chunking: the chunk map with its
fixed-size entries, the provider address and the custom block. `validateCdcMetadataTlv` is the
check the archive writer makes on the records it is given. `recordTables_exact` says that the
parsers of chunk maps and of sparse maps are the inverses of the writers.
-/

namespace Sar

open Except (rejectIf bind_eq_ok_iff pure_eq_ok ok.injEq exists_unit rejectIf_eq_ok_iff)
open LittleEndian ByteParser List

/-- `TLV_CDC_MAP`. -/
def tlvCdcMap : UInt8 := 0x40

/-- `TLV_CDC_EXT_PROVIDER`. -/
def tlvCdcExtProvider : UInt8 := 0x41

/-- `TLV_CDC_CUSTOM`. -/
def tlvCdcCustom : UInt8 := 0x4F

/-- `is_cdc_metadata_tlv_type`. -/
def isCdcMetadataTlvType (typeId : UInt8) : Bool :=
  decide (tlvCdcMap ≤ typeId) && decide (typeId ≤ tlvCdcCustom)

/-- `CdcMapRecord`. -/
structure CdcMapRecord where
  hash : Octets 32
  partitionId : UInt32
  absoluteOffset : UInt64
  compressedSize : UInt32
  deriving DecidableEq

/-- `CdcMap`. -/
structure CdcMap where
  hashAlgorithmId : UInt8
  records : List CdcMapRecord
  deriving DecidableEq

/-- `CDC_MAP_HEADER_SIZE`. -/
def cdcMapHeaderSize : ℕ := 16

/-- `CDC_MAP_RECORD_LEN`, which is also the only accepted `Record_Size`. -/
def cdcMapRecordLen : ℕ := 48

/-- `validate_cdc_map_hash_algo_id`. -/
def validateCdcMapHashAlgoId (id : UInt8) : Result Unit :=
  if id = 0x30 ∨ id = 0x31 then .ok ()
  else if id = 0x32 then
    .error (.unsupported "SHA3-256 hash algorithm not implemented for CDC_MAP")
  else .error (.reservedValue "reserved hash algorithm ID in CDC_MAP header")

/-- One record of the map. -/
def cdcMapRecord : Parser CdcMapRecord := do
  let hash ← readBytes 32
  let partitionId ← readU32
  let absoluteOffset ← readU64
  let compressedSize ← readU32
  pure ⟨hash, partitionId, absoluteOffset, compressedSize⟩

/-- The record loop of `parse_cdc_map`. -/
def cdcMapRecords : ℕ → Parser (List CdcMapRecord)
  | 0 => pure []
  | count + 1 => do
    let record ← cdcMapRecord
    let records ← cdcMapRecords count
    pure (record :: records)

/-- `parse_cdc_map`. The length is compared before the records are read, so that the loop finds
all of them; the products it is computed from fit, since the count has 32 bits. -/
def parseCdcMap (bytes : Bytes) (maxRecords : ℕ) : Result CdcMap := do
  rejectIf (bytes.length < cdcMapHeaderSize)
    (.malformed "CDC_MAP TLV too short to contain the v1 header (need ≥ 16 bytes)")
  rejectIf (bytes.getD 0 0 ≠ 0x01)
    (.unsupported "CDC_MAP Map_Version not supported (only v1 = 0x01 is defined)")
  let hashAlgorithmId := bytes.getD 1 0
  validateCdcMapHashAlgoId hashAlgorithmId
  rejectIf (leNat ((bytes.drop 2).take 2) ≠ 0)
    (.malformed "CDC_MAP Flags must be zero for v1; non-zero bits are reserved")
  let recordCount := leNat ((bytes.drop 4).take 4)
  rejectIf (leNat ((bytes.drop 8).take 2) ≠ cdcMapRecordLen)
    (.malformed "CDC_MAP Record_Size must be 48 for v1")
  rejectIf (((bytes.drop 10).take 6).any (· != 0))
    (.malformed "CDC_MAP Reserved bytes must be zero")
  rejectIf (bytes.length ≠ recordCount * cdcMapRecordLen + cdcMapHeaderSize)
    (.malformed "CDC_MAP TLV Length does not equal 16 + Record_Count × 48")
  rejectIf (recordCount > maxRecords)
    (.limitExceeded "CDC_MAP record count exceeds configured limit")
  let (records, _) ← runParser (cdcMapRecords recordCount) (bytes.drop cdcMapHeaderSize)
  pure ⟨hashAlgorithmId, records⟩

/-- One record, written. -/
def CdcMapRecord.toBytes (r : CdcMapRecord) : Bytes :=
  r.hash.val ++ (u32Bytes r.partitionId ++
    (u64Bytes r.absoluteOffset ++ u32Bytes r.compressedSize))

/-- The header that `write_cdc_map` puts in front of the records. -/
def cdcMapHeader (hashAlgorithmId : UInt8) (count : ℕ) : Bytes :=
  [0x01, hashAlgorithmId] ++ (leBytes 2 0 ++ (leBytes 4 count ++
    (leBytes 2 cdcMapRecordLen ++ replicate 6 0)))

/-- `write_cdc_map`; the lengths it adds up fit, since the count has 32 bits. -/
def writeCdcMap (map : CdcMap) : Result Bytes := do
  validateCdcMapHashAlgoId map.hashAlgorithmId
  rejectIf (map.records.length ≥ 2 ^ 32) (.overflow "CDC_MAP record count overflows u32")
  pure (cdcMapHeader map.hashAlgorithmId map.records.length ++
    map.records.flatMap CdcMapRecord.toBytes)

/-- `parse_cdc_ext_provider_tlv`: the address. -/
def parseCdcExtProviderTlv (tlv : Tlv) (limits : ResourceLimits) : Result Str := do
  rejectIf (tlv.typeId ≠ tlvCdcExtProvider)
    (.unsupported "TLV is not CDC_EXT_PROVIDER (expected type 0x41)")
  limits.checkCdcMetadataBytes tlv.value.length
  Str.ofUtf8 tlv.value (.malformed "CDC_EXT_PROVIDER value must be valid UTF-8")

/-- `validate_cdc_metadata_tlv`. -/
def validateCdcMetadataTlv (tlv : Tlv) (limits : ResourceLimits) : Result Unit :=
  if tlv.typeId = tlvCdcMap then do
    limits.checkCdcMetadataBytes tlv.value.length
    (fun _ => ()) <$> parseCdcMap tlv.value limits.maxCdcChunkCount
  else if tlv.typeId = tlvCdcExtProvider then
    (fun _ => ()) <$> parseCdcExtProviderTlv tlv limits
  else if 0x42 ≤ tlv.typeId ∧ tlv.typeId ≤ 0x4E then
    throw (.reservedValue "reserved CDC metadata TLV type")
  else if tlv.typeId = tlvCdcCustom then limits.checkCdcMetadataBytes tlv.value.length
  else throw (.unsupported "TLV is not in the CDC metadata registry")

/-! ### Reading is the inverse of writing -/

theorem reads_cdcMapRecord (r : CdcMapRecord) : Reads cdcMapRecord r.toBytes r :=
  fun _ => ReadsAt.bind (reads_octets _ _) (ReadsAt.bind (reads_u32 _ _)
    (ReadsAt.bind (reads_u64 _ _) (ReadsAt.bind_nil (reads_u32 _ _) (Reads.pure _ _))))

theorem accepts_cdcMapRecord : Accepts cdcMapRecord fun r u => u = r.toBytes := by
  refine (accepts_bytes 32).bind fun hash _ h => accepts_u32.bind fun partitionId _ h' => ?_
  refine accepts_u64.bind fun offset _ h'' => accepts_u32.bind fun size _ h''' => Accepts.pure ?_
  rw [h, h', h'', h''', append_nil]
  rfl

theorem reads_cdcMapRecords (records : List CdcMapRecord) :
    Reads (cdcMapRecords records.length) (records.flatMap CdcMapRecord.toBytes) records := by
  induction records with
  | nil => exact Reads.pure []
  | cons record records ih =>
    exact (reads_cdcMapRecord record).bind fun pos => ReadsAt.bind_nil (ih pos) (Reads.pure _ _)

theorem accepts_cdcMapRecords (count : ℕ) : Accepts (cdcMapRecords count) fun records u =>
    records.length = count ∧ u = records.flatMap CdcMapRecord.toBytes := by
  induction count with
  | zero => exact Accepts.pure ⟨rfl, rfl⟩
  | succ count ih =>
    refine accepts_cdcMapRecord.bind fun record _ h => ih.bind fun records _ hrest => ?_
    refine Accepts.pure ⟨congrArg (· + 1) hrest.1, ?_⟩
    rw [h, hrest.2, append_nil, flatMap_cons]

theorem length_cdcMapRecords (records : List CdcMapRecord) :
    (records.flatMap CdcMapRecord.toBytes).length = records.length * cdcMapRecordLen := by
  induction records with
  | nil => rfl
  | cons record records ih =>
    rw [flatMap_cons, length_append, ih, length_cons, Nat.succ_mul, Nat.add_comm]
    simp [CdcMapRecord.toBytes, cdcMapRecordLen, record.hash.property]

/-- The fields of a header that was written. -/
theorem cdcMapHeader_fields (algo : UInt8) {count : ℕ} (hcount : count < 2 ^ 32) (rest : Bytes) :
    let bytes := cdcMapHeader algo count ++ rest
    bytes.getD 0 0 = 0x01 ∧ bytes.getD 1 0 = algo ∧ leNat ((bytes.drop 2).take 2) = 0 ∧
      leNat ((bytes.drop 4).take 4) = count ∧ leNat ((bytes.drop 8).take 2) = cdcMapRecordLen ∧
      ((bytes.drop 10).take 6).any (· != 0) = false ∧ bytes.drop cdcMapHeaderSize = rest := by
  have hval : leNat (leBytes 4 count) = count := leNat_leBytes_of_lt hcount
  have hdrop : ∀ n, (leBytes 4 count).drop (n + 4) = [] := fun n =>
    drop_of_length_le (by simp)
  have hzero : leBytes 2 0 = [0, 0] := rfl
  have hsize : leBytes 2 48 = [48, 0] := rfl
  simp [cdcMapHeader, drop_append, take_append, hval, hzero, hsize, hdrop, leNat,
    cdcMapRecordLen, cdcMapHeaderSize]

/-- Only headers that are written have such fields. -/
theorem eq_cdcMapHeader_append {bytes : Bytes} (hlen : 16 ≤ bytes.length)
    (hversion : bytes.getD 0 0 = 0x01) (hflags : leNat ((bytes.drop 2).take 2) = 0)
    (hsize : leNat ((bytes.drop 8).take 2) = cdcMapRecordLen)
    (hreserved : ¬ ((bytes.drop 10).take 6).any (· != 0) = true) :
    leNat ((bytes.drop 4).take 4) < 2 ^ 32 ∧
      bytes = cdcMapHeader (bytes.getD 1 0) (leNat ((bytes.drop 4).take 4)) ++ bytes.drop 16 := by
  have hslice : ∀ {i n}, i + n ≤ 16 → ((bytes.drop i).take n).length = n := by
    intro i n h
    rw [length_take, length_drop]
    omega
  obtain ⟨hcount, hcounted⟩ := leNat_eq_iff.mp (rfl : leNat ((bytes.drop 4).take 4) = _)
  rw [hslice (by decide)] at hcount hcounted
  rw [leNat_eq_iff, hslice (by decide)] at hflags hsize
  have hzero : (bytes.drop 10).take 6 = replicate 6 0 := by
    refine eq_replicate_iff.mpr ⟨hslice (by decide), fun b hb => ?_⟩
    simpa using any_eq_false.mp (Bool.eq_false_iff.mpr hreserved) b hb
  have hfront : bytes.take 2 = [0x01, bytes.getD 1 0] := by
    rw [← hversion]
    rcases bytes with _ | ⟨b, _ | ⟨c, rest⟩⟩
    · exact nomatch hlen
    · exact nomatch hlen
    · rfl
  refine ⟨hcount, ?_⟩
  conv_lhs => rw [← take_append_drop 2 bytes, drop_eq_take_append bytes 2 2,
    drop_eq_take_append bytes 4 4, drop_eq_take_append bytes 8 2, drop_eq_take_append bytes 10 6,
    hfront, hflags.2, hcounted, hsize.2, hzero]
  simp only [cdcMapHeader, append_assoc]

theorem parseCdcMap_eq_ok_iff {bytes : Bytes} {maxRecords : ℕ} {map : CdcMap} :
    parseCdcMap bytes maxRecords = .ok map ↔
      writeCdcMap map = .ok bytes ∧ map.records.length ≤ maxRecords := by
  simp only [parseCdcMap, writeCdcMap, bind_eq_ok_iff, exists_unit, rejectIf_eq_ok_iff,
    pure_eq_ok, ok.injEq, not_not, Nat.not_lt, Nat.not_le]
  constructor
  · rintro ⟨hlen, hversion, halgo, hflags, hsize, hreserved, htotal, hmax, ⟨records, n⟩, hrun, rfl⟩
    obtain ⟨hcount, hbytes⟩ := eq_cdcMapHeader_append hlen hversion hflags hsize hreserved
    obtain ⟨c, hc, -⟩ := runParser_eq_ok_iff.mp hrun
    obtain ⟨used, hrest, -, hrecords, rfl⟩ := accepts_cdcMapRecords _ hc
    have hnil : c.rest = [] := by
      have h := congrArg length hrest
      rw [length_append, length_cdcMapRecords, hrecords] at h
      simp only [Cursor.ofBytes, length_drop] at h
      exact length_eq_zero_iff.mp (by omega)
    rw [hnil, append_nil] at hrest
    rw [hrecords, ← hrest]
    exact ⟨⟨halgo, hcount, hbytes.symm⟩, hmax⟩
  · rintro ⟨⟨halgo, hcount, rfl⟩, hmax⟩
    obtain ⟨hversion, halgo', hflags, hrecords, hsize, hreserved, hdrop⟩ :=
      cdcMapHeader_fields map.hashAlgorithmId hcount (map.records.flatMap CdcMapRecord.toBytes)
    have hlen : (cdcMapHeader map.hashAlgorithmId map.records.length).length = cdcMapHeaderSize :=
      by simp [cdcMapHeader, cdcMapHeaderSize]
    have hrun := runParser_of_reads (reads_cdcMapRecords map.records 0) []
    rw [append_nil] at hrun
    rw [halgo', hrecords, hreserved, hdrop]
    refine ⟨?_, hversion, halgo, hflags, hsize, Bool.false_ne_true, ?_, hmax, _, hrun, rfl⟩
    · rw [length_append, hlen]
      omega
    · rw [length_append, hlen, length_cdcMapRecords, Nat.add_comm]

/-- **Record tables are exact.** A chunk map is accepted, within the limit, if and only if it is
what
is written of the result, and so is a sparse map within its limits, of as many extents as a slice
can hold. Writing a sparse map fails only for values that are too wide. -/
theorem recordTables_exact :
    (∀ bytes maxRecords map, parseCdcMap bytes maxRecords = .ok map ↔
      writeCdcMap map = .ok bytes ∧ map.records.length ≤ maxRecords) ∧
    (∀ bytes is64Bit limits extents, parseSparseMap bytes is64Bit limits = .ok extents ↔
      writeSparseMap extents is64Bit = .ok bytes ∧ bytes.length ≤ limits.maxSparseMapBytes ∧
        extents.length ≤ limits.maxSparseDescriptors ∧ extents.length ≤ isizeMax / 16) ∧
    ∀ extents is64Bit, (∃ e, writeSparseMap extents is64Bit = .error e) ↔
      is64Bit = false ∧ ∃ x ∈ extents, 2 ^ 32 ≤ x.offset.toNat ∨ 2 ^ 32 ≤ x.length.toNat := by
  refine ⟨fun _ _ _ => parseCdcMap_eq_ok_iff, fun _ _ _ _ => parseSparseMap_eq_ok_iff,
    fun extents is64Bit => ?_⟩
  rw [Except.exists_error_iff, exists_writeSparseMap_iff]
  cases is64Bit <;> simp [imp_iff_or_not, or_comm]

end Sar
