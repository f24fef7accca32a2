import Sar.Core.Cursor
import Sar.Core.Flags
import Sar.Core.Limits

/-!
# The Global Header

Layout, parser and writer of the archive's first structure: magic, version, flag bytes, and
the optional partition descriptor and key-management extension the flags announce.

* `parseGlobalHeader_writeGlobalHeader`: a header that was written is read back, with its flag
  bytes normalised to the flags.
* `incremental_globalHeader`: the parser reacts to the arrival of further bytes as a resumable
  reader expects.
-/

namespace Sar

open ByteParser LittleEndian List
open Except (rejectIf bind_eq_ok_iff pure_eq_ok rejectIf_of_not rejectIf_eq_ok_iff ok.injEq)

/-- `KmsData`: the key-management extension as raw bytes. -/
structure KmsData where
  modeId : UInt8
  payload : Bytes
  deriving DecidableEq

/-- `PartitionDescriptor`. -/
structure PartitionDescriptor where
  partitionSetUuid : Octets 16
  partitionIndex : UInt32
  totalPartitions : UInt32
  previousPartitionHash : Octets 32
  partitionHash : Octets 32
  deriving DecidableEq

/-- `GlobalHeader`. -/
structure GlobalHeader where
  version : UInt8
  flagsBytes : Bytes
  flags : GlobalFlags
  partitionDescriptor : Option PartitionDescriptor
  kms : Option KmsData
  deriving DecidableEq

/-- `MAGIC`, the text `SAR!`. -/
def magic : Bytes := [0x53, 0x41, 0x52, 0x21]

/-- `SUPPORTED_GLOBAL_VERSION`. -/
def supportedGlobalVersion : UInt8 := 1

/-- `GLOBAL_HEADER_FLAGS_OFFSET`. -/
def globalHeaderFlagsOffset : ℕ := 8

/-- The flags named by the first four flag bytes. -/
def flagsOfBytes (flagsBytes : Bytes) : GlobalFlags :=
  GlobalFlags.fromBitsTruncate (UInt32.ofNat (leNat (flagsBytes.take 4)))

/-! ### Parsing -/

/-- `len` bytes of a longer array, from offset `off`. -/
def Octets.slice {n : ℕ} (bs : Octets n) (off len : ℕ) (h : off + len ≤ n) : Octets len :=
  ⟨(bs.val.drop off).take len, by
    have := bs.property
    simp only [length_take, length_drop]
    omega⟩

/-- The descriptor in its 96 bytes; the last eight are reserved. -/
def decodePartitionDescriptor (bytes : Octets 96) : Result PartitionDescriptor := do
  rejectIf ((bytes.slice 88 8 (by decide)).val.any (· != 0))
    (.reservedValue "partition descriptor reserved bytes must be zero")
  pure
    { partitionSetUuid := bytes.slice 0 16 (by decide)
      partitionIndex := UInt32.ofNat (leNat (bytes.slice 16 4 (by decide)).val)
      totalPartitions := UInt32.ofNat (leNat (bytes.slice 20 4 (by decide)).val)
      previousPartitionHash := bytes.slice 24 32 (by decide)
      partitionHash := bytes.slice 56 32 (by decide) }

/-- The key-management mode byte: 1 to 4 are assigned, `0xF0` to `0xFF` are custom. -/
def checkKmsModeId (modeId : UInt8) : Result Unit :=
  if 0x01 ≤ modeId ∧ modeId ≤ 0x04 then .ok ()
  else if 0xF0 ≤ modeId then .error (.unsupported "custom KMS mode")
  else .error (.reservedValue "unknown KMS mode")

/-- The key-management extension. -/
def kmsExtension (limits : ResourceLimits) : Parser KmsData := do
  let modeId ← readU8
  check (checkKmsModeId modeId)
  let payloadLen ← readU32
  check (limits.checkKmsPayloadBytes payloadLen.toNat)
  let payload ← readBytes payloadLen.toNat
  pure ⟨modeId, payload.val⟩

/-- The fields of `parse_global_header`, in wire order. -/
def globalHeader (limits : ResourceLimits) : Parser GlobalHeader := do
  let m ← readBytes 4
  check (rejectIf (m.val ≠ magic) .invalidMagic)
  let version ← readU8
  check (rejectIf (version ≠ supportedGlobalVersion)
    (.invalidVersion "unsupported global header version"))
  let reserved ← readU8
  check (rejectIf (reserved ≠ 0) (.reservedValue "global reserved byte must be zero"))
  let flagsSize ← readU16
  check (rejectIf (flagsSize.toNat < 4) (.invalidLength "global flags size must be >= 4"))
  check (limits.checkGlobalFlagsBytes flagsSize.toNat)
  let flagsBytes ← readBytes flagsSize.toNat
  let flags := flagsOfBytes flagsBytes.val
  check (validateGlobalFlags flags)
  let partitionDescriptor ← optional flags.partitionedArchive do
    let bytes ← readBytes 96
    check (decodePartitionDescriptor bytes)
  let kms ← optional flags.encrypted (kmsExtension limits)
  check (rejectIf (!flags.encrypted && kms.isSome)
    (.flagConflict "KMS extension must be omitted when ENCRYPTED is unset"))
  check (rejectIf (!flags.partitionedArchive && partitionDescriptor.isSome)
    (.flagConflict "partition descriptor must be omitted when PARTITIONED_ARCHIVE is unset"))
  pure ⟨version, flagsBytes.val, flags, partitionDescriptor, kms⟩

/-- `parse_global_header`: the header and the number of bytes it took. -/
def parseGlobalHeader (input : Bytes) (limits : ResourceLimits) : Result (GlobalHeader × ℕ) :=
  runParser (globalHeader limits) input

/-! ### Writing -/

/-- The descriptor's 96 bytes. -/
def PartitionDescriptor.toBytes (d : PartitionDescriptor) : Bytes :=
  d.partitionSetUuid.val ++ (u32Bytes d.partitionIndex ++ (u32Bytes d.totalPartitions ++
    (d.previousPartitionHash.val ++ (d.partitionHash.val ++ List.replicate 8 0))))

/-- `u32::try_from(len)`. -/
def u32OfLen (len : ℕ) (context : String) : Result UInt32 := do
  rejectIf (len ≥ 2 ^ 32) (.overflow context)
  pure (UInt32.ofNat len)

/-- `u16::try_from(len)`. -/
def u16OfLen (len : ℕ) (context : String) : Result UInt16 := do
  rejectIf (len ≥ 2 ^ 16) (.overflow context)
  pure (UInt16.ofNat len)

/-- The key-management extension, written. -/
def KmsData.toBytes (kms : KmsData) : Result Bytes := do
  let payloadLen ← u32OfLen kms.payload.length "KMS payload does not fit u32"
  pure ([kms.modeId] ++ (u32Bytes payloadLen ++ kms.payload))

/-- The extension when there is one. -/
def kmsBytes : Option KmsData → Result Bytes
  | some kms => kms.toBytes
  | none => pure []

/-- The flag bytes as written: the first four are the flags'. -/
def GlobalHeader.wireFlagsBytes (header : GlobalHeader) : Bytes :=
  u32Bytes header.flags.bits ++ header.flagsBytes.drop 4

/-- `write_global_header`. -/
def writeGlobalHeader (header : GlobalHeader) : Result Bytes := do
  validateGlobalFlags header.flags
  rejectIf (header.flags.encrypted && header.kms.isNone)
    (.flagConflict "ENCRYPTED requires KMS extension")
  rejectIf (!header.flags.encrypted && header.kms.isSome)
    (.flagConflict "KMS extension requires ENCRYPTED")
  rejectIf (header.flags.partitionedArchive && header.partitionDescriptor.isNone)
    (.flagConflict "PARTITIONED_ARCHIVE requires partition descriptor")
  rejectIf (!header.flags.partitionedArchive && header.partitionDescriptor.isSome)
    (.flagConflict "partition descriptor requires PARTITIONED_ARCHIVE")
  rejectIf (header.flagsBytes.length < 4) (.invalidLength "global flags bytes must be >= 4")
  let flagsLen ← u16OfLen header.wireFlagsBytes.length "global flags size does not fit u16"
  let descriptor := (header.partitionDescriptor.map (·.toBytes)).getD []
  let kms ← kmsBytes header.kms
  pure (magic ++ ([header.version] ++ ([0] ++ (u16Bytes flagsLen ++
    (header.wireFlagsBytes ++ (descriptor ++ kms))))))

/-- `global_header_flags_bytes`: the part of the Global Header that entries authenticate. -/
def globalHeaderFlagsBytes (header : GlobalHeader) : Bytes :=
  magic ++ [header.version] ++ [0] ++ u16Bytes (UInt16.ofNat header.flagsBytes.length) ++
    header.flagsBytes

/-! ### Arrival of more input -/

variable {e : SarError}

theorem validateGlobalFlags_not_short {flags : GlobalFlags}
    (h : validateGlobalFlags flags = .error e) : ¬ IsShortRead e := by
  simp only [validateGlobalFlags, Except.bind_eq_error_iff, Except.rejectIf_eq_error_iff] at h
  rcases h with ⟨-, rfl⟩ | ⟨-, -, ⟨-, rfl⟩ | ⟨-, -, -, rfl⟩⟩ <;> simp [IsShortRead]

theorem checkKmsModeId_not_short {modeId : UInt8} (h : checkKmsModeId modeId = .error e) :
    ¬ IsShortRead e := by
  unfold checkKmsModeId at h
  split at h
  · cases h
  · split at h <;> cases h <;> simp [IsShortRead]

theorem decodePartitionDescriptor_not_short {bytes : Octets 96}
    (h : decodePartitionDescriptor bytes = .error e) : ¬ IsShortRead e := by
  simp only [decodePartitionDescriptor, Except.bind_eq_error_iff, Except.rejectIf_eq_error_iff,
    pure_eq_ok, reduceCtorEq, and_false, exists_const, or_false] at h
  obtain ⟨-, rfl⟩ := h
  simp [IsShortRead]

theorem incremental_atMost (limit : ℕ) (msg : String) (value : ℕ) :
    Incremental IsShortRead (check (ResourceLimits.atMost limit msg value) : Parser Unit) :=
  incremental_rejectIf (by simp [IsShortRead])

theorem incremental_kmsExtension (limits : ResourceLimits) :
    Incremental IsShortRead (kmsExtension limits) := by
  refine incremental_readU8.bind fun modeId => ?_
  refine (Incremental.check fun _ => checkKmsModeId_not_short).bind fun _ => ?_
  refine incremental_readU32.bind fun len => ?_
  refine (incremental_atMost _ _ _).bind fun _ => ?_
  exact (incremental_readBytes _).bind fun payload => Incremental.pure _

/-- The header parser is unaffected by bytes beyond those it reads. -/
theorem incremental_globalHeader (limits : ResourceLimits) :
    Incremental IsShortRead (globalHeader limits) := by
  refine (incremental_readBytes 4).bind fun m => ?_
  refine (incremental_rejectIf (by simp [IsShortRead])).bind fun _ => ?_
  refine incremental_readU8.bind fun version => ?_
  refine (incremental_rejectIf (by simp [IsShortRead])).bind fun _ => ?_
  refine incremental_readU8.bind fun reserved => ?_
  refine (incremental_rejectIf (by simp [IsShortRead])).bind fun _ => ?_
  refine incremental_readU16.bind fun flagsSize => ?_
  refine (incremental_rejectIf (by simp [IsShortRead])).bind fun _ => ?_
  refine (incremental_atMost _ _ _).bind fun _ => ?_
  refine (incremental_readBytes _).bind fun flagsBytes => ?_
  refine (Incremental.check fun _ => validateGlobalFlags_not_short).bind fun _ => ?_
  refine (Incremental.optional _ ?_).bind fun descriptor => ?_
  · exact (incremental_readBytes 96).bind fun bytes =>
      Incremental.check fun _ => decodePartitionDescriptor_not_short
  refine (Incremental.optional _ (incremental_kmsExtension limits)).bind fun kms => ?_
  refine (incremental_rejectIf (by simp [IsShortRead])).bind fun _ => ?_
  exact (incremental_rejectIf (by simp [IsShortRead])).bind fun _ => Incremental.pure _

/-! ### Reading back a written header -/

@[simp]
theorem flagsOfBytes_wireFlagsBytes (header : GlobalHeader) :
    flagsOfBytes header.wireFlagsBytes = header.flags := by
  have htake : header.wireFlagsBytes.take 4 = u32Bytes header.flags.bits := by
    simp [GlobalHeader.wireFlagsBytes]
  rw [flagsOfBytes, htake, u32Bytes, ofNat_leNat_leBytes_uint32, GlobalFlags.fromBitsTruncate_bits]

theorem u32OfLen_eq_ok_iff {len : ℕ} {context : String} {x : UInt32} :
    u32OfLen len context = .ok x ↔ len < 2 ^ 32 ∧ x.toNat = len := by
  simp only [u32OfLen, bind_eq_ok_iff, rejectIf_eq_ok_iff, pure_eq_ok,
    ok.injEq, not_le, ge_iff_le, exists_const]
  refine and_congr_right fun h => ⟨?_, ?_⟩
  · rintro rfl
    simpa using h
  · rintro rfl
    simp

theorem u16OfLen_eq_ok_iff {len : ℕ} {context : String} {x : UInt16} :
    u16OfLen len context = .ok x ↔ len < 2 ^ 16 ∧ x.toNat = len := by
  simp only [u16OfLen, bind_eq_ok_iff, rejectIf_eq_ok_iff, pure_eq_ok,
    ok.injEq, not_le, ge_iff_le, exists_const]
  refine and_congr_right fun h => ⟨?_, ?_⟩
  · rintro rfl
    simpa using h
  · rintro rfl
    simp

@[simp]
theorem PartitionDescriptor.length_toBytes (d : PartitionDescriptor) : d.toBytes.length = 96 := by
  simp [PartitionDescriptor.toBytes, d.partitionSetUuid.property,
    d.previousPartitionHash.property, d.partitionHash.property]

theorem decodePartitionDescriptor_toBytes (d : PartitionDescriptor) :
    decodePartitionDescriptor ⟨d.toBytes, d.length_toBytes⟩ = .ok d := by
  obtain ⟨⟨uuid, huuid⟩, index, total, ⟨prev, hprev⟩, ⟨hash, hhash⟩⟩ := d
  simp [decodePartitionDescriptor, Octets.slice, PartitionDescriptor.toBytes, drop_append,
    drop_of_length_le, huuid, hprev, hhash, u32Bytes]

theorem reads_partitionDescriptor (d : PartitionDescriptor) :
    Reads (do let bytes ← readBytes 96; check (decodePartitionDescriptor bytes)) d.toBytes d := by
  have h := (reads_octets ⟨d.toBytes, d.length_toBytes⟩).bind
    (f := fun bytes => check (decodePartitionDescriptor bytes))
    (Reads.check (decodePartitionDescriptor_toBytes d))
  simpa using h

variable {bytes : Bytes} {limits : ResourceLimits}

theorem reads_kmsExtension {kms : KmsData} (hw : kms.toBytes = .ok bytes)
    (hmode : checkKmsModeId kms.modeId = .ok ())
    (hlen : kms.payload.length ≤ limits.maxKmsPayloadBytes) :
    Reads (kmsExtension limits) bytes kms := by
  simp only [KmsData.toBytes, bind_eq_ok_iff, u32OfLen_eq_ok_iff, pure_eq_ok, ok.injEq] at hw
  obtain ⟨len, ⟨-, hval⟩, rfl⟩ := hw
  refine (reads_u8 kms.modeId).bind ?_
  refine Reads.check_bind hmode ?_
  refine (reads_u32 len).bind ?_
  refine Reads.check_bind (ResourceLimits.atMost_of_le _ (by omega)) ?_
  rw [hval]
  have h := (reads_bytes kms.payload).bind
    (f := fun payload => Pure.pure (⟨kms.modeId, payload.val⟩ : KmsData)) (Reads.pure _)
  simpa using h

variable {header : GlobalHeader}

/-- A written Global Header is read back. The four low flag bytes are those of the flags,
whatever the writer was given; everything else is unchanged. -/
theorem parseGlobalHeader_writeGlobalHeader (hw : writeGlobalHeader header = .ok bytes)
    (hv : header.version = supportedGlobalVersion)
    (hfl : header.flagsBytes.length ≤ limits.maxGlobalFlagsBytes)
    (hkms : ∀ kms ∈ header.kms, checkKmsModeId kms.modeId = .ok () ∧
      kms.payload.length ≤ limits.maxKmsPayloadBytes) (r : Bytes) :
    parseGlobalHeader (bytes ++ r) limits =
      .ok ({ header with flagsBytes := header.wireFlagsBytes }, bytes.length) := by
  simp only [writeGlobalHeader, bind_eq_ok_iff, Except.exists_unit,
    rejectIf_eq_ok_iff, pure_eq_ok, ok.injEq, u16OfLen_eq_ok_iff] at hw
  obtain ⟨hvalid, he, he', hp, hp', h4, flagsLen, ⟨-, hlen⟩, kms, hk, rfl⟩ := hw
  have hsomeK : header.kms.isSome = header.flags.encrypted := by
    cases hke : header.kms <;> cases hfe : header.flags.encrypted <;> simp_all
  have hsomeP : header.partitionDescriptor.isSome = header.flags.partitionedArchive := by
    cases hpe : header.partitionDescriptor <;> cases hfp : header.flags.partitionedArchive <;>
      simp_all
  have hwire : header.wireFlagsBytes.length = header.flagsBytes.length := by
    simp only [GlobalHeader.wireFlagsBytes, length_append, length_u32Bytes, length_drop]
    omega
  refine runParser_of_reads (Reads.bind (reads_bytes magic) ?_ 0) r
  refine Reads.check_bind (rejectIf_of_not (by simp)) ?_
  refine (reads_u8 header.version).bind ?_
  refine Reads.check_bind (rejectIf_of_not (by simp [hv])) ?_
  refine (reads_u8 0).bind ?_
  refine Reads.check_bind (rejectIf_of_not (by simp)) ?_
  refine (reads_u16 flagsLen).bind ?_
  refine Reads.check_bind (rejectIf_of_not (by omega)) ?_
  refine Reads.check_bind (ResourceLimits.atMost_of_le _ (by omega)) ?_
  rw [hlen]
  refine (reads_bytes header.wireFlagsBytes).bind ?_
  simp only [flagsOfBytes_wireFlagsBytes]
  refine Reads.check_bind hvalid ?_
  refine Reads.bind (a := header.partitionDescriptor) ?_ ?_
  · rw [← hsomeP]
    cases header.partitionDescriptor with
    | none => exact Reads.pure none
    | some d => exact (reads_partitionDescriptor d).map rfl
  rw [← append_nil kms]
  refine Reads.bind (a := header.kms) ?_ ?_
  · rw [← hsomeK]
    cases hkey : header.kms with
    | none =>
      rw [hkey] at hk
      cases hk
      exact Reads.pure none
    | some kms =>
      rw [hkey] at hk
      obtain ⟨hmode, hlen⟩ := hkms kms hkey
      exact (reads_kmsExtension hk hmode hlen).map rfl
  refine Reads.check_bind (rejectIf_of_not (by simp [hsomeK])) ?_
  refine Reads.check_bind (rejectIf_of_not (by simp [hsomeP])) ?_
  exact Reads.pure _

/-! ### How long a header is -/

/-- The length of the flags announced in the first eight bytes. -/
def headerFlagsSize (input : Bytes) : ℕ := leNat ((input.drop 6).take 2)

/-- The flags themselves. -/
def headerFlags (input : Bytes) : GlobalFlags :=
  flagsOfBytes ((input.drop 8).take (headerFlagsSize input))

/-- Where the key-management extension starts, for flags of a given length. -/
def kmsPrefixStart (flagsSize : ℕ) (globalFlags : GlobalFlags) : ℕ :=
  if globalFlags.partitionedArchive then 8 + flagsSize + 96 else 8 + flagsSize

/-- The length of the key-management extension at a position. -/
def kmsLength (input : Bytes) (pos : ℕ) : ℕ := 5 + leNat ((input.drop (pos + 1)).take 4)

variable {input : Bytes} {pos : ℕ} {c : Cursor}

theorem kmsExtension_at {kms : KmsData}
    (h : kmsExtension limits (cursorAt input pos) = .ok (kms, c)) :
    pos + kmsLength input pos ≤ input.length ∧
      leNat ((input.drop (pos + 1)).take 4) ≤ limits.maxKmsPayloadBytes ∧
      c = cursorAt input (pos + kmsLength input pos) := by
  simp only [kmsExtension, bind_apply, bind_eq_ok_iff, Prod.exists, readU8_at_eq_ok_iff,
    check_eq_ok_iff, pure_apply, ok.injEq, Prod.mk.injEq,
    ResourceLimits.checkKmsPayloadBytes, ResourceLimits.atMost_eq_ok_iff] at h
  obtain ⟨modeId, _, ⟨-, -, rfl⟩, _, _, ⟨-, rfl⟩, h⟩ := h
  simp only [readU32_at_eq_ok_iff] at h
  obtain ⟨len, _, ⟨hfour, rfl, rfl⟩, _, _, ⟨hmax, rfl⟩, payload, _, hread, -, rfl⟩ := h
  obtain ⟨hlen, -, rfl⟩ := readBytes_at_eq_ok_iff.mp hread
  rw [toNat_ofNat_leNat_take_four] at hmax hlen ⊢
  refine ⟨?_, hmax, ?_⟩
  · unfold kmsLength
    omega
  · unfold kmsLength
    congr 1
    omega

/-- The descriptor, when the flags announce one. -/
theorem optional_descriptor_at {b : Bool} {d : Option PartitionDescriptor} (h : optional b (do
      let bytes ← readBytes 96
      check (decodePartitionDescriptor bytes) : Parser PartitionDescriptor) (cursorAt input pos) =
        .ok (d, c)) :
    (b = true → pos + 96 ≤ input.length) ∧ c = cursorAt input (pos + if b then 96 else 0) := by
  cases b with
  | false =>
    obtain ⟨-, rfl⟩ : none = d ∧ cursorAt input pos = c := by
      simpa [ByteParser.optional, pure_apply] using h
    exact ⟨by simp, rfl⟩
  | true =>
    simp only [ByteParser.optional, if_true, map_apply, bind_apply, bind_eq_ok_iff, Prod.exists,
      check_eq_ok_iff, ok.injEq, Prod.mk.injEq] at h
    obtain ⟨_, _, ⟨bytes, _, hread, -, rfl⟩, -, rfl⟩ := h
    obtain ⟨hlen, -, rfl⟩ := readBytes_at_eq_ok_iff.mp hread
    exact ⟨fun _ => by omega, rfl⟩

/-- The key-management extension, when the flags announce one. -/
theorem optional_kms_at {b : Bool} {kms : Option KmsData}
    (h : optional b (kmsExtension limits) (cursorAt input pos) = .ok (kms, c)) :
    (b = true → pos + kmsLength input pos ≤ input.length ∧
        leNat ((input.drop (pos + 1)).take 4) ≤ limits.maxKmsPayloadBytes) ∧
      kms.isSome = b ∧ c = cursorAt input (pos + if b then kmsLength input pos else 0) := by
  cases b with
  | false =>
    obtain ⟨rfl, rfl⟩ : none = kms ∧ cursorAt input pos = c := by
      simpa [ByteParser.optional, pure_apply] using h
    exact ⟨by simp, rfl, rfl⟩
  | true =>
    simp only [ByteParser.optional, if_true, map_apply, bind_eq_ok_iff, Prod.exists, ok.injEq,
      Prod.mk.injEq] at h
    obtain ⟨kms, _, hkms, rfl, rfl⟩ := h
    obtain ⟨hlen, hmax, rfl⟩ := kmsExtension_at hkms
    exact ⟨fun _ => ⟨hlen, hmax⟩, rfl, rfl⟩

/-- What the bytes of an accepted header look like: the flags are the ones they announce, and
the header ends where the key-management extension does. -/
structure HeaderShape (input : Bytes) (limits : ResourceLimits) (header : GlobalHeader) (n : ℕ) :
    Prop where
  magic_eq : input.take 4 = magic
  flagsSize_ge : 4 ≤ headerFlagsSize input
  flagsSize_le : headerFlagsSize input ≤ limits.maxGlobalFlagsBytes
  flags_there : 8 + headerFlagsSize input ≤ input.length
  flags_eq : header.flags = headerFlags input
  flags_valid : validateGlobalFlags header.flags = .ok ()
  kms_isSome : header.kms.isSome = header.flags.encrypted
  kms_le : header.flags.encrypted = true →
    leNat ((input.drop (kmsPrefixStart (headerFlagsSize input) header.flags + 1)).take 4) ≤
      limits.maxKmsPayloadBytes
  length_eq : n = kmsPrefixStart (headerFlagsSize input) header.flags +
    if header.flags.encrypted then
      kmsLength input (kmsPrefixStart (headerFlagsSize input) header.flags)
    else 0
  length_le : n ≤ input.length

theorem parseGlobalHeader_shape {n : ℕ} (h : parseGlobalHeader input limits = .ok (header, n)) :
    HeaderShape input limits header n := by
  have hle := runParser_le_length (incremental_globalHeader limits) h
  obtain ⟨c, hc, rfl⟩ := runParser_eq_ok_iff.mp h
  rw [← cursorAt_zero] at hc
  simp only [globalHeader, bind_apply, bind_eq_ok_iff, Prod.exists,
    readBytes_at_eq_ok_iff, check_eq_ok_iff] at hc
  -- the fixed part: magic, version, reserved byte, length of the flags
  obtain ⟨m, _, ⟨-, hm, rfl⟩, _, _, ⟨hmagic, rfl⟩, hc⟩ := hc
  simp only [readU8_at_eq_ok_iff] at hc
  obtain ⟨version, _, ⟨-, -, rfl⟩, _, _, ⟨-, rfl⟩, hc⟩ := hc
  simp only [readU8_at_eq_ok_iff] at hc
  obtain ⟨reserved, _, ⟨-, -, rfl⟩, _, _, ⟨-, rfl⟩, hc⟩ := hc
  simp only [readU16_at_eq_ok_iff] at hc
  obtain ⟨flagsSize, _, ⟨-, rfl, rfl⟩, _, _, ⟨hmin, rfl⟩, _, _, ⟨hmax, rfl⟩, hc⟩ := hc
  -- the flags and what they announce
  simp only [readBytes_at_eq_ok_iff] at hc
  obtain ⟨flagsBytes, _, ⟨hflags, hbytes, rfl⟩, _, _, ⟨hvalid, rfl⟩, hc⟩ := hc
  obtain ⟨descriptor, _, hdesc, kms, _, hkms, _, _, ⟨-, rfl⟩, _, _, ⟨-, rfl⟩, hpure⟩ := hc
  obtain ⟨-, rfl⟩ := optional_descriptor_at hdesc
  obtain ⟨hkmsLe, hsome, rfl⟩ := optional_kms_at hkms
  obtain ⟨rfl, rfl⟩ := Prod.mk.inj (Except.ok.inj hpure)
  rw [toNat_ofNat_leNat_take_two] at hflags hmin
  have hflagsBytes : flagsBytes.val = (input.drop 8).take (headerFlagsSize input) := by
    rw [hbytes, toNat_ofNat_leNat_take_two]
    rfl
  have hheader : flagsOfBytes flagsBytes.val = headerFlags input := by
    rw [hflagsBytes, headerFlags]
  simp only [hheader, cursorAt_pos, toNat_ofNat_leNat_take_two, rejectIf_eq_ok_iff,
    not_lt, not_not, ne_eq, ResourceLimits.checkGlobalFlagsBytes,
    ResourceLimits.atMost_eq_ok_iff] at hsome hle hmin hmax hmagic hkmsLe
  have hstart : 0 + 4 + 1 + 1 + 2 + leNat ((input.drop (0 + 4 + 1 + 1)).take 2) +
      (if (headerFlags input).partitionedArchive = true then 96 else 0) =
      kmsPrefixStart (headerFlagsSize input) (headerFlags input) := by
    rw [kmsPrefixStart, headerFlagsSize]
    split <;> simp
  rw [hstart] at hle hkmsLe
  have hthere : 8 + headerFlagsSize input ≤ input.length := by
    change 8 + leNat ((input.drop 6).take 2) ≤ input.length
    change leNat ((input.drop 6).take 2) ≤ input.length - 8 at hflags
    change 4 ≤ leNat ((input.drop 6).take 2) at hmin
    omega
  refine ⟨?_, hmin, hmax, hthere, hheader, hvalid, ?_, ?_, ?_, ?_⟩
  · exact hm.symm.trans hmagic
  · rw [hheader]
    exact hsome
  · intro henc
    rw [hheader]
    exact (hkmsLe (hheader ▸ henc)).2
  · simp only [hheader, cursorAt_pos, toNat_ofNat_leNat_take_two, hstart]
  · simp only [hheader, cursorAt_pos, toNat_ofNat_leNat_take_two, hstart]
    exact hle

end Sar
