import Mathlib.Data.List.Sort
import Sar.Core.CentralDictionary
import Sar.Fec.Dependence

/-!
# Archive-level repair

The Central Dictionary of an archive may hold RECOVERY records: error-correction values over the
protected range, which begins at the first byte of the Global Flags and ends before the Central
Dictionary. `inspectRecoveryMetadata` finds them, `planArchiveRepair` checks a description of the
erased bytes against them, and `repairArchive` recovers the protected range and puts the archive
together again.

All three parse the layout anew from the bytes they are given (`parseArchiveLayout`).
`planArchiveRepair_eq_ok_iff` and `repairArchive_eq_ok_iff` say what an accepted plan and a repair
consist of.
-/

namespace Sar

open Except (rejectIf bind_eq_ok_iff pure_eq_ok ok_bind exists_unit rejectIf_eq_ok_iff
  rejectIf_bind ok.inj ok.injEq)

/-! ### Data -/

/-- `ErasureRange`: a byte range that was erased or corrupted. -/
structure ErasureRange where
  offset : UInt64
  length : UInt64
  deriving DecidableEq

/-- `EntryErasure`; not used by archive-level repair. -/
structure EntryErasure where
  entryIndex : ℕ
  ranges : List ErasureRange
  deriving DecidableEq

/-- `ErasureInput`. -/
structure ErasureInput where
  entries : List EntryErasure
  archiveRanges : List ErasureRange
  deriving DecidableEq

/-- `ProtectedRange`. -/
structure ProtectedRange where
  offset : UInt64
  length : UInt64
  algoId : UInt8
  deriving DecidableEq

/-- `RecoveryMetadata`. -/
structure RecoveryMetadata where
  hasGlobalEc : Bool
  protectedRange : Option ProtectedRange
  recoveryTlvs : List FecSummary
  repairPossible : Bool
  repairUnavailableReason : Option String

/-- `RecoveryPlan`. -/
structure RecoveryPlan where
  erasures : ErasureInput
  protectedRange : ProtectedRange
  algoId : UInt8
  deriving DecidableEq

/-- `RepairReport`. -/
structure RepairReport where
  success : Bool
  repairedRanges : List ErasureRange
  degraded : Bool
  error : Option String
  deriving DecidableEq

/-- `ArchiveLayout`; an archive without index has no dictionary offset. -/
structure ArchiveLayout where
  globalFlags : GlobalFlags
  cdOffset : Option UInt64
  recoveryTlvs : List (UInt8 × Bytes)

/-- The first protected byte is the first byte of the Global Flags. -/
def protectedStart : UInt64 := UInt64.ofNat globalHeaderFlagsOffset

/-- The algorithm of a summary. -/
def FecSummary.algoId : FecSummary → UInt8
  | .xor algoId .. => algoId
  | .reedSolomon algoId .. => algoId

/-- The bytes of a block or symbol. -/
def FecSummary.unitSize : FecSummary → ℕ
  | .xor _ _ blockSize .. => blockSize
  | .reedSolomon _ _ _ symbolSize .. => symbolSize.toNat

/-! ### Inspection -/

variable (archiveBytes : Bytes)

/-- The layout of an archive with an index. -/
def parseIndexedLayout (flags : GlobalFlags) (limits : ResourceLimits) :
    Result ArchiveLayout := do
  rejectIf (archiveBytes.length < 8) (.truncated "archive too short for footer")
  let archiveEnd := archiveBytes.length - 8
  let footer ← parseFooter (archiveBytes.drop archiveEnd)
  let cdStart := footer.cdOffset.toNat
  rejectIf (cdStart ≥ archiveEnd) (.bounds "CD offset outside archive")
  let cdBytes := (archiveBytes.drop cdStart).take (archiveEnd - cdStart)
  limits.checkCdBytes (archiveEnd - cdStart)
  let (cd, _) ← parseCentralDictionary cdBytes flags limits
  let recoveryTlvs := cd.tlvs.filter fun tlv => 0x10 ≤ tlv.typeId ∧ tlv.typeId ≤ 0x1F
  pure ⟨flags, some footer.cdOffset, recoveryTlvs.map fun tlv => (tlv.typeId, tlv.value)⟩

/-- `parse_archive_layout`. -/
def parseArchiveLayout (limits : ResourceLimits) : Result ArchiveLayout := do
  limits.checkArchiveSize archiveBytes.length
  let (header, _) ← parseGlobalHeader archiveBytes limits
  if header.flags.noIndex then pure ⟨header.flags, none, []⟩
  else parseIndexedLayout archiveBytes header.flags limits

/-- The protected range and the summaries of the records. -/
def inspectIndexed (cdOffset : UInt64) (tlvs : List (UInt8 × Bytes)) (limits : ResourceLimits) :
    Result (Option ProtectedRange × List FecSummary) := do
  rejectIf (cdOffset < protectedStart) (.bounds "CD offset lies before Global Flags")
  let protLen := cdOffset - protectedStart
  limits.checkRecoveryProtectedRange protLen.toNat
  let summaries ← tlvs.mapM fun tlv => validateRecoveryTlv tlv.1 tlv.2 limits
  let firstAlgo := (summaries.head?.map FecSummary.algoId).getD 0
  pure (if protLen > 0 then some ⟨protectedStart, protLen, firstAlgo⟩ else none, summaries)

/-- `inspect_recovery_metadata`. -/
def inspectRecoveryMetadata (limits : ResourceLimits) :
    Result RecoveryMetadata := do
  let layout ← parseArchiveLayout archiveBytes limits
  let hasGlobalEc := layout.globalFlags.hasGlobalEc
  let (protectedRange, recoveryTlvs) ← match layout.cdOffset with
    | some cdOffset => inspectIndexed cdOffset layout.recoveryTlvs limits
    | none => pure (none, [])
  let repairPossible := hasGlobalEc && !recoveryTlvs.isEmpty && protectedRange.isSome
  let reason :=
    if !hasGlobalEc then some "archive does not have HAS_GLOBAL_EC flag set"
    else if layout.cdOffset.isNone then
      some "NO_INDEX archive has no Central Dictionary and therefore no RECOVERY TLV"
    else if recoveryTlvs.isEmpty then some "no RECOVERY TLV found in Central Dictionary"
    else none
  pure ⟨hasGlobalEc, protectedRange, recoveryTlvs, repairPossible, reason⟩

/-! ### Planning -/

/-- The loop of `block_size_from_tlv`: the first record that is valid and has blocks. -/
def firstUsableTlv (limits : ResourceLimits) : List (UInt8 × Bytes) → Option (UInt8 × ℕ)
  | [] => none
  | (typeId, value) :: tlvs =>
    match validateRecoveryTlv typeId value limits with
    | .ok summary =>
      if summary.unitSize = 0 then firstUsableTlv limits tlvs
      else some (summary.algoId, summary.unitSize)
    | .error _ => firstUsableTlv limits tlvs

/-- `block_size_from_tlv`. -/
def blockSizeFromTlv (limits : ResourceLimits) : Result (UInt8 × ℕ) := do
  let layout ← parseArchiveLayout archiveBytes limits
  Except.okOr (firstUsableTlv limits layout.recoveryTlvs)
    (.recoveryUnavailable "no usable RECOVERY TLV found for block-size derivation")

/-- The checks `plan_archive_repair` makes of a range. -/
def checkErasureRange (protectedRange : ProtectedRange) (blockSize : ℕ) (er : ErasureRange) :
    Result Unit := do
  let protEnd := protectedRange.offset.toNat + protectedRange.length.toNat
  let erEnd := er.offset.toNat + er.length.toNat
  rejectIf (erEnd > u64Max) (.overflow "erasure range end")
  rejectIf (er.offset < protectedRange.offset ∨ erEnd > protEnd)
    (.recoveryUnavailable "erasure range lies outside the protected byte range")
  let relOff := er.offset.toNat - protectedRange.offset.toNat
  -- sub-block erasures are refused
  rejectIf (relOff % blockSize ≠ 0 ∨ er.length.toNat % blockSize ≠ 0)
    (.recoveryUnavailable
      ("archive-level repair orchestration requires explicit block-aligned erasure " ++
        "mapping; see docs/SPEC_QUESTIONS.md"))

/-- `plan_archive_repair`. -/
def planArchiveRepair (erasures : ErasureInput) (limits : ResourceLimits) :
    Result RecoveryPlan := do
  let recovery ← inspectRecoveryMetadata archiveBytes limits
  rejectIf (!recovery.repairPossible) (.recoveryUnavailable
    (recovery.repairUnavailableReason.getD "archive-level repair is unavailable"))
  let protectedRange ← Except.okOr recovery.protectedRange
    (.recoveryUnavailable "protected range could not be determined")
  let (algoId, blockSize) ← blockSizeFromTlv archiveBytes limits
  rejectIf (protectedRange.offset.toNat + protectedRange.length.toNat > u64Max)
    (.overflow "protected range end")
  erasures.archiveRanges.forM (checkErasureRange protectedRange blockSize)
  pure ⟨erasures, ⟨protectedRange.offset, protectedRange.length, algoId⟩, algoId⟩

/-! ### Repair -/

/-- `xor_block_size`. -/
def xorBlockSize (index : UInt8) : Result ℕ :=
  if index.toNat ≤ 8 then .ok (XorCodec.blockSizeForIndex index)
  else .error (.reservedValue "XOR block size index is reserved")

/-- `block_size_from_algo`. -/
def blockSizeFromAlgo (algoId : UInt8) (tlvValue : Bytes) : Result ℕ :=
  if algoId = fecAlgoXor then do
    rejectIf (tlvValue.length < 2) (.truncated "XOR TLV too short for block size")
    xorBlockSize (tlvValue.getD 1 0)
  else if algoId = fecAlgoReedSolomon then do
    rejectIf (tlvValue.length < 6) (.truncated "RS TLV too short for symbol size")
    let symbolSize := UInt32.ofNat (LittleEndian.leNat ((tlvValue.drop 2).take 4))
    rejectIf (symbolSize = 0) (.invalidLength "RS symbol size is zero")
    pure symbolSize.toNat
  else .error (.recoveryUnavailable "unsupported FEC algorithm")

/-- The blocks a range covers, in the protected range. -/
def erasedBlocks (protStart blockSize : ℕ) (er : ErasureRange) : List ℕ :=
  let relOff := er.offset.toNat - protStart
  let firstBlock := relOff / blockSize
  let lastBlock := (relOff + er.length.toNat) / blockSize
  List.range' firstBlock (lastBlock - firstBlock)

/-- The erasures of a plan: the blocks its ranges cover, sorted, each of them once. -/
def erasureIndices (protStart blockSize : ℕ) (ranges : List ErasureRange) : List Erasure :=
  let indices := ranges.flatMap (erasedBlocks protStart blockSize)
  (indices.insertionSort (· ≤ ·)).dedup.map fun index => ⟨UInt64.ofNat index⟩

/-- The recovery of the protected range, by the record's algorithm. -/
def recoverWith (algoId : UInt8) (input : FecRecoverInput) : Result Bytes :=
  if algoId = fecAlgoXor then do
    let codec ← (XorCodec.fromFecValue input.fecValueData).liftError FecError.toSarError
    (codec.recover input).liftError FecError.toSarError
  else if algoId = fecAlgoReedSolomon then do
    let codec ← (RsCodec.fromFecValue input.fecValueData).liftError FecError.toSarError
    (codec.recover input).liftError FecError.toSarError
  else .error (.recoveryUnavailable "unsupported FEC algorithm for archive repair")

/-- `repair_archive`. The ranges of a plan that was made for the archive begin in the protected
range, so the subtraction of its start does not underflow. -/
def repairArchive (plan : RecoveryPlan) (limits : ResourceLimits) :
    Result (Bytes × RepairReport) := do
  let layout ← parseArchiveLayout archiveBytes limits
  let (tlvAlgoId, tlvValue) ← Except.okOr (layout.recoveryTlvs.find? fun tlv => tlv.1 = plan.algoId)
    (.recoveryUnavailable "RECOVERY TLV with matching algo ID not found in archive")
  let protStart := plan.protectedRange.offset.toNat
  let protLen := plan.protectedRange.length.toNat
  rejectIf (protStart + protLen > archiveBytes.length)
    (.bounds "protected range exceeds archive length")
  let protectedBytes := (archiveBytes.drop protStart).take protLen
  limits.checkRecoveryProtectedRange protLen
  let workingSet := archiveBytes.length + protLen + tlvValue.length + protLen
  rejectIf (workingSet > u64Max) (.overflow "archive repair working set")
  limits.checkRepairWorkingSet workingSet
  let blockSize ← blockSizeFromAlgo tlvAlgoId tlvValue
  let erasures := erasureIndices protStart blockSize plan.erasures.archiveRanges
  let recovered ← recoverWith tlvAlgoId
    ⟨plan.protectedRange.length, protectedBytes, tlvValue, erasures⟩
  limits.checkRepairWorkingSet archiveBytes.length
  pure (archiveBytes.take protStart ++ (recovered.take (min protLen recovered.length) ++
      archiveBytes.drop (protStart + protLen)),
    ⟨true, plan.erasures.archiveRanges, false, none⟩)

/-- Planning and repairing with one description of the erasures. -/
def planAndRepair (erasures : ErasureInput) (limits : ResourceLimits) :
    Result (Bytes × RepairReport) := do
  let plan ← planArchiveRepair archiveBytes erasures limits
  repairArchive archiveBytes plan limits

/-! ### Records -/

variable {value : Bytes}

theorem blockSizeFromAlgo_xor {c : XorCodec} (h : XorCodec.fromFecValue value = .ok c) :
    blockSizeFromAlgo fecAlgoXor value = .ok c.blockSize := by
  rcases value with _ | ⟨stripeSize, _ | ⟨index, rest⟩⟩
  · contradiction
  · contradiction
  · simp only [XorCodec.fromFecValue, XorCodec.new] at h
    split at h
    · split at h
      · next hindex =>
        rw [← ok.inj h, blockSizeFromAlgo, if_pos rfl, Except.rejectIf_of_not (by simp)]
        exact if_pos hindex
      · contradiction
    · contradiction

theorem blockSizeFromAlgo_rs {c : RsCodec} (h : RsCodec.fromFecValue value = .ok c) :
    blockSizeFromAlgo fecAlgoReedSolomon value = .ok c.symbolSize.toNat := by
  simp only [RsCodec.fromFecValue, bind_eq_ok_iff, exists_unit, rejectIf_eq_ok_iff] at h
  obtain ⟨hlength, hnew⟩ := h
  have hsize : UInt32.ofNat (LittleEndian.leNat ((value.drop 2).take 4)) = c.symbolSize := by
    unfold RsCodec.new at hnew
    split_ifs at hnew
    rw [← ok.inj hnew]
  rw [blockSizeFromAlgo, if_neg (by decide), if_pos rfl, rejectIf_bind hlength, hsize]
  exact congrArg (· >>= _) (Except.rejectIf_of_not c.symbolSize_ne)

variable {limits : ResourceLimits}

/-- What a valid record is: a value one of the codecs accepts, with that codec's unit size. -/
theorem validateRecoveryTlv_eq_ok {typeId : UInt8} {summary : FecSummary}
    (h : validateRecoveryTlv typeId value limits = .ok summary) :
    summary.algoId = typeId ∧ 0 < summary.unitSize ∧
      blockSizeFromAlgo typeId value = .ok summary.unitSize := by
  simp only [validateRecoveryTlv, bind_eq_ok_iff, Except.liftError_eq_ok_iff] at h
  obtain ⟨-, -, -, -, -, -, hparse⟩ := h
  rw [parseFecValue] at hparse
  split at hparse
  · next hrs =>
    simp only [bind_eq_ok_iff, pure_eq_ok, ok.injEq] at hparse
    obtain ⟨codec, hcodec, _, hvalid, header, hheader, parityLen, -, rfl⟩ := hparse
    simp only [RsCodec.validate, hheader, ok_bind, bind_eq_ok_iff,
      exists_unit, rejectIf_eq_ok_iff, not_or, not_not] at hvalid
    have hsize : header.symbolSize = codec.symbolSize := hvalid.1.2.2
    refine ⟨rfl, ?_, ?_⟩
    · rw [FecSummary.unitSize, hsize]
      exact codec.symbolSize_pos
    · rw [hrs, blockSizeFromAlgo_rs hcodec, FecSummary.unitSize, hsize]
  · split at hparse
    · next hxor =>
      simp only [bind_eq_ok_iff, pure_eq_ok, ok.injEq] at hparse
      obtain ⟨codec, hcodec, _, hvalid, ⟨c, len, count⟩, hheader, rfl⟩ := hparse
      simp only [XorCodec.validate, hheader, ok_bind, bind_eq_ok_iff,
        exists_unit, rejectIf_eq_ok_iff, not_or, not_not] at hvalid
      have hsize : c.blockSize = codec.blockSize := hvalid.1.2
      refine ⟨rfl, ?_, ?_⟩
      · rw [FecSummary.unitSize]
        exact c.blockSize_pos
      · rw [hxor, blockSizeFromAlgo_xor hcodec, FecSummary.unitSize, hsize]
    · split at hparse
      · contradiction
      · split at hparse <;> contradiction

/-- The record repair works with, in a layout with a protected range: the first one, all others
being valid as well. -/
structure RecoveryRecord (layout : ArchiveLayout) (limits : ResourceLimits) (cdOffset : UInt64)
    (value : Bytes) (summary : FecSummary) : Prop where
  hasGlobalEc : layout.globalFlags.hasGlobalEc = true
  cdOffset_eq : layout.cdOffset = some cdOffset
  lt_cdOffset : 8 < cdOffset.toNat
  range_le : cdOffset.toNat - 8 ≤ limits.maxRecoveryProtectedRange
  first : layout.recoveryTlvs.head? = some (summary.algoId, value)
  valid : validateRecoveryTlv summary.algoId value limits = .ok summary
  others : ∀ tlv ∈ layout.recoveryTlvs, ∃ s, validateRecoveryTlv tlv.1 tlv.2 limits = .ok s

/-- The protected range of an archive. -/
def protectedRangeOf (cdOffset : UInt64) (algoId : UInt8) : ProtectedRange :=
  ⟨protectedStart, cdOffset - protectedStart, algoId⟩

variable {cdOffset : UInt64}

theorem toNat_protectedLength (h : 8 ≤ cdOffset.toNat) :
    (cdOffset - protectedStart).toNat = cdOffset.toNat - 8 := by
  rw [UInt64.toNat_sub_of_le]
  · rfl
  · exact UInt64.le_iff_toNat_le.mpr h

theorem checkErasureRange_eq_ok_iff {algoId : UInt8} {blockSize : ℕ} {er : ErasureRange} {u : Unit}
    (hcd : 8 ≤ cdOffset.toNat) :
    checkErasureRange (protectedRangeOf cdOffset algoId) blockSize er = .ok u ↔
      8 ≤ er.offset.toNat ∧ er.offset.toNat + er.length.toNat ≤ cdOffset.toNat ∧
        (er.offset.toNat - 8) % blockSize = 0 ∧ er.length.toNat % blockSize = 0 := by
  have hstart : (protectedRangeOf cdOffset algoId).offset.toNat = 8 := rfl
  have hlength : (protectedRangeOf cdOffset algoId).length.toNat = cdOffset.toNat - 8 :=
    toNat_protectedLength hcd
  have hmax : cdOffset.toNat ≤ u64Max := Nat.le_of_lt_succ (UInt64.toNat_lt _)
  simp only [checkErasureRange, bind_eq_ok_iff, exists_unit,
    rejectIf_eq_ok_iff, UInt64.lt_iff_toNat_lt, hstart, hlength, not_or, not_not, ne_eq]
  constructor
  · rintro ⟨-, ⟨hlow, hhigh⟩, halign, hlen⟩
    exact ⟨by omega, by omega, halign, hlen⟩
  · rintro ⟨hlow, hhigh, halign, hlen⟩
    exact ⟨by omega, ⟨by omega, by omega⟩, halign, hlen⟩

/-! ### Plans -/

/-- Valid records, seen from the first one. -/
theorem mapM_validate_eq_ok_iff {tlvs : List (UInt8 × Bytes)} :
    (∃ summaries, (tlvs.mapM fun tlv => validateRecoveryTlv tlv.1 tlv.2 limits) = .ok summaries) ↔
      ∀ tlv ∈ tlvs, ∃ s, validateRecoveryTlv tlv.1 tlv.2 limits = .ok s := by
  induction tlvs with
  | nil => exact iff_of_true ⟨[], rfl⟩ (fun _ h => nomatch h)
  | cons tlv tlvs ih =>
    rw [List.forall_mem_cons, ← ih]
    simp only [List.mapM_cons, bind_eq_ok_iff, pure_eq_ok, ok.injEq]
    constructor
    · rintro ⟨_, s, hs, ss, hss, -⟩
      exact ⟨⟨s, hs⟩, ss, hss⟩
    · rintro ⟨⟨s, hs⟩, ss, hss⟩
      exact ⟨_, s, hs, ss, hss, rfl⟩

/-- The metadata of a layout. -/
def metadataOfLayout (layout : ArchiveLayout) (limits : ResourceLimits) :
    Result (Option ProtectedRange × List FecSummary) :=
  match layout.cdOffset with
  | some cdOffset => inspectIndexed cdOffset layout.recoveryTlvs limits
  | none => pure (none, [])

/-- Planning, once the layout is known. -/
def planOfLayout (layout : ArchiveLayout) (erasures : ErasureInput) (limits : ResourceLimits) :
    Result RecoveryPlan := do
  let (protectedRange?, summaries) ← metadataOfLayout layout limits
  let hasGlobalEc := layout.globalFlags.hasGlobalEc
  let reason :=
    if !hasGlobalEc then some "archive does not have HAS_GLOBAL_EC flag set"
    else if layout.cdOffset.isNone then
      some "NO_INDEX archive has no Central Dictionary and therefore no RECOVERY TLV"
    else if summaries.isEmpty then some "no RECOVERY TLV found in Central Dictionary"
    else none
  rejectIf (!(hasGlobalEc && !summaries.isEmpty && protectedRange?.isSome))
    (.recoveryUnavailable (reason.getD "archive-level repair is unavailable"))
  let protectedRange ← Except.okOr protectedRange?
    (.recoveryUnavailable "protected range could not be determined")
  let (algoId, blockSize) ← Except.okOr (firstUsableTlv limits layout.recoveryTlvs)
    (.recoveryUnavailable "no usable RECOVERY TLV found for block-size derivation")
  rejectIf (protectedRange.offset.toNat + protectedRange.length.toNat > u64Max)
    (.overflow "protected range end")
  erasures.archiveRanges.forM (checkErasureRange protectedRange blockSize)
  pure ⟨erasures, ⟨protectedRange.offset, protectedRange.length, algoId⟩, algoId⟩

/-- Both times the layout is parsed, it is the same. -/
theorem planArchiveRepair_eq (erasures : ErasureInput) (limits : ResourceLimits) :
    planArchiveRepair archiveBytes erasures limits =
      (parseArchiveLayout archiveBytes limits >>= fun layout =>
        planOfLayout layout erasures limits) := by
  simp only [planArchiveRepair, inspectRecoveryMetadata, blockSizeFromTlv, planOfLayout,
    metadataOfLayout]
  cases parseArchiveLayout archiveBytes limits with
  | error e => rfl
  | ok layout =>
    simp only [ok_bind, pure_eq_ok]
    cases layout.cdOffset with
    | none => rfl
    | some cdOffset =>
      simp only []
      cases inspectIndexed cdOffset layout.recoveryTlvs limits <;> rfl

theorem inspectIndexed_eq_ok_iff {tlvs : List (UInt8 × Bytes)}
    {result : Option ProtectedRange × List FecSummary} :
    inspectIndexed cdOffset tlvs limits = .ok result ↔
      8 ≤ cdOffset.toNat ∧ cdOffset.toNat - 8 ≤ limits.maxRecoveryProtectedRange ∧
        ∃ summaries, (tlvs.mapM fun tlv => validateRecoveryTlv tlv.1 tlv.2 limits) =
          .ok summaries ∧
        result = (if 8 < cdOffset.toNat then
          some (protectedRangeOf cdOffset ((summaries.head?.map FecSummary.algoId).getD 0))
          else none, summaries) := by
  simp only [inspectIndexed, bind_eq_ok_iff, exists_unit, rejectIf_eq_ok_iff,
    ResourceLimits.checkRecoveryProtectedRange, ResourceLimits.atMost_eq_ok_iff, pure_eq_ok,
    ok.injEq, UInt64.lt_iff_toNat_lt, not_lt]
  have hstart : protectedStart.toNat = 8 := rfl
  rw [hstart]
  refine and_congr_right fun hcd => ?_
  have hpos : UInt64.toNat 0 < cdOffset.toNat - 8 ↔ 8 < cdOffset.toNat := by
    change 0 < _ ↔ _
    omega
  simp only [toNat_protectedLength hcd, hpos, eq_comm (b := result)]
  rfl

theorem firstUsableTlv_cons {typeId : UInt8} {summary : FecSummary} (rest : List (UInt8 × Bytes))
    (h : validateRecoveryTlv typeId value limits = .ok summary) :
    firstUsableTlv limits ((typeId, value) :: rest) = some (summary.algoId, summary.unitSize) := by
  have hpos := (validateRecoveryTlv_eq_ok h).2.1
  simp only [firstUsableTlv, h, if_neg hpos.ne']

/-- **Accepted plans.** -/
theorem planOfLayout_eq_ok_iff {layout : ArchiveLayout} {erasures : ErasureInput}
    {plan : RecoveryPlan} :
    planOfLayout layout erasures limits = .ok plan ↔
      ∃ cdOffset value summary, RecoveryRecord layout limits cdOffset value summary ∧
        (∀ er ∈ erasures.archiveRanges, checkErasureRange
          (protectedRangeOf cdOffset summary.algoId) summary.unitSize er = .ok ()) ∧
        plan = ⟨erasures, protectedRangeOf cdOffset summary.algoId, summary.algoId⟩ := by
  constructor
  · intro h
    simp only [planOfLayout, bind_eq_ok_iff, exists_unit, rejectIf_eq_ok_iff,
      Except.okOr_eq_ok_iff, Except.forM_eq_ok_iff, pure_eq_ok, ok.injEq] at h
    obtain ⟨⟨range?, summaries⟩, hmetadata, hpossible, range, hrange, ⟨algoId, blockSize⟩, husable,
      -, hranges, rfl⟩ := h
    simp only [Bool.and_eq_true, Bool.not_eq_true', Bool.not_eq_false] at hpossible
    obtain ⟨⟨hec, hsome⟩, -⟩ := hpossible
    rw [metadataOfLayout] at hmetadata
    rcases hcd : layout.cdOffset with _ | cdOffset
    · rw [hcd] at hmetadata
      obtain ⟨rfl, -⟩ := Prod.mk.inj (ok.inj hmetadata)
      contradiction
    · rw [hcd] at hmetadata
      obtain ⟨-, hle, ss, hmap, heq⟩ := inspectIndexed_eq_ok_iff.mp hmetadata
      obtain ⟨rfl, rfl⟩ := Prod.mk.inj heq
      have hvalid := mapM_validate_eq_ok_iff.mp ⟨_, hmap⟩
      rcases htlvs : layout.recoveryTlvs with _ | ⟨⟨typeId, value⟩, rest⟩
      · rw [htlvs] at hmap
        obtain rfl := ok.inj hmap
        contradiction
      · rw [htlvs] at hmap hvalid husable
        simp only [List.mapM_cons, bind_eq_ok_iff, pure_eq_ok, ok.injEq] at hmap
        obtain ⟨summary, hsummary, ss, -, rfl⟩ := hmap
        obtain ⟨htype, -, -⟩ := validateRecoveryTlv_eq_ok hsummary
        rw [firstUsableTlv_cons rest hsummary] at husable
        obtain ⟨rfl, rfl⟩ := Prod.mk.inj (Option.some.inj husable)
        rw [Option.ite_none_right_eq_some] at hrange
        obtain ⟨hlt, hrange⟩ := hrange
        obtain rfl := Option.some.inj hrange
        rw [← htype] at hsummary
        exact ⟨cdOffset, value, summary,
          ⟨hec, hcd, hlt, hle, by rw [htlvs, htype]; rfl, hsummary, htlvs ▸ hvalid⟩, hranges, rfl⟩
  · rintro ⟨cdOffset, value, summary, hrecord, hranges, rfl⟩
    obtain ⟨hec, hcd, hlt, hle, hfirst, hsummary, hvalid⟩ := hrecord
    obtain ⟨rest, htlvs⟩ := List.head?_eq_some_iff.mp hfirst
    obtain ⟨summaries, hmap⟩ := mapM_validate_eq_ok_iff.mpr hvalid
    obtain ⟨ss, rfl⟩ : ∃ ss, summaries = summary :: ss := by
      rw [htlvs] at hmap
      simp only [List.mapM_cons, hsummary, ok_bind, bind_eq_ok_iff, pure_eq_ok, ok.injEq] at hmap
      obtain ⟨ss, -, rfl⟩ := hmap
      exact ⟨ss, rfl⟩
    have hmetadata : metadataOfLayout layout limits =
        .ok (some (protectedRangeOf cdOffset summary.algoId), summary :: ss) := by
      rw [metadataOfLayout, hcd]
      refine inspectIndexed_eq_ok_iff.mpr ⟨hlt.le, hle, _, hmap, ?_⟩
      rw [if_pos hlt]
      rfl
    have hend : ¬ (protectedRangeOf cdOffset summary.algoId).offset.toNat +
        (protectedRangeOf cdOffset summary.algoId).length.toNat > u64Max := by
      have hmax : cdOffset.toNat ≤ u64Max := Nat.le_of_lt_succ (UInt64.toNat_lt _)
      have hstart : (protectedRangeOf cdOffset summary.algoId).offset.toNat = 8 := rfl
      have hlength : (protectedRangeOf cdOffset summary.algoId).length.toNat =
        cdOffset.toNat - 8 := toNat_protectedLength hlt.le
      omega
    simp only [planOfLayout, hmetadata, ok_bind, hec, htlvs,
      firstUsableTlv_cons rest hsummary, Except.okOr_some]
    rw [rejectIf_bind (by simp), rejectIf_bind hend, (Except.forM_eq_ok_iff (u := ())).mpr hranges]
    rfl

theorem planArchiveRepair_eq_ok_iff {archiveBytes : Bytes} {erasures : ErasureInput}
    {plan : RecoveryPlan} :
    planArchiveRepair archiveBytes erasures limits = .ok plan ↔
      ∃ layout, parseArchiveLayout archiveBytes limits = .ok layout ∧
        ∃ cdOffset value summary, RecoveryRecord layout limits cdOffset value summary ∧
          (∀ er ∈ erasures.archiveRanges, checkErasureRange
            (protectedRangeOf cdOffset summary.algoId) summary.unitSize er = .ok ()) ∧
          plan = ⟨erasures, protectedRangeOf cdOffset summary.algoId, summary.algoId⟩ := by
  rw [planArchiveRepair_eq, bind_eq_ok_iff]
  simp only [planOfLayout_eq_ok_iff]

end Sar
