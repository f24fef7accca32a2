import Sar.Archive.Recovery

/-!
# What repair reads and what it writes

**`repairArchive_frame`**: a repair changes nothing outside the ranges it was asked to repair,
whatever the archive and its records are.

**`planAndRepair_erased`** is about the other direction: what stands in the ranges. The codecs
ignore it, and the index and the footer lie behind the protected range. But the Global Header is
parsed from the bytes at hand, and its flags are the first bytes of the protected range. So the
outcome ignores erased contents when the front of the archive does (`HeaderKept`): it is refused
with one error, or accepted with one value of the six flags that repair looks at. Header bytes that
are only skipped, such as partition ids, may well be erased. Where some contents can be repaired,
the condition is necessary as well; elsewhere two headers may lead to one later error.
-/

namespace Sar

open Except (rejectIf bind_eq_ok_iff pure_eq_ok ok_bind exists_unit rejectIf_of_not
  rejectIf_eq_ok_iff liftError_ok error_bind ok.inj ok.injEq)
open List
open ByteParser (Agree Cursor)

/-! ### Ranges and blocks -/

/-- The position lies in the range. -/
def ErasureRange.Covers (er : ErasureRange) (p : ℕ) : Prop :=
  er.offset.toNat ≤ p ∧ p < er.offset.toNat + er.length.toNat

/-- The position lies in none of the ranges. -/
def ErasureInput.Spares (erasures : ErasureInput) (p : ℕ) : Prop :=
  ∀ er ∈ erasures.archiveRanges, ¬ er.Covers p

variable {blockSize : ℕ}

theorem mem_erasureIndices {protStart : ℕ} {ranges : List ErasureRange} {e : Erasure} :
    e ∈ erasureIndices protStart blockSize ranges ↔
      ∃ er ∈ ranges, ∃ index ∈ erasedBlocks protStart blockSize er, ⟨UInt64.ofNat index⟩ = e := by
  simp only [erasureIndices, mem_map, mem_dedup, mem_insertionSort, mem_flatMap]
  constructor
  · rintro ⟨index, ⟨er, her, hindex⟩, rfl⟩
    exact ⟨er, her, index, hindex, rfl⟩
  · rintro ⟨er, her, index, hindex, rfl⟩
    exact ⟨index, ⟨er, her, hindex⟩, rfl⟩

/-- The blocks of an aligned range are those its bytes lie in. -/
theorem mem_erasedBlocks_iff {er : ErasureRange} {i : ℕ} (hsize : 0 < blockSize)
    (hstart : 8 ≤ er.offset.toNat) (halign : (er.offset.toNat - 8) % blockSize = 0)
    (hlength : er.length.toNat % blockSize = 0) :
    i / blockSize ∈ erasedBlocks 8 blockSize er ↔ er.Covers (i + 8) := by
  obtain ⟨first, hfirst⟩ := Nat.dvd_of_mod_eq_zero halign
  obtain ⟨count, hcount⟩ := Nat.dvd_of_mod_eq_zero hlength
  have hlow : (er.offset.toNat - 8) / blockSize = first := by
    rw [hfirst, Nat.mul_div_cancel_left _ hsize]
  have hhigh : (er.offset.toNat - 8 + er.length.toNat) / blockSize = first + count := by
    rw [hfirst, hcount, ← Nat.mul_add, Nat.mul_div_cancel_left _ hsize]
  simp only [erasedBlocks, hlow, hhigh, mem_range'_1, ErasureRange.Covers]
  rw [Nat.add_sub_cancel_left, Nat.le_div_iff_mul_le hsize, Nat.div_lt_iff_lt_mul hsize,
    Nat.mul_comm first, Nat.add_mul, Nat.mul_comm first, Nat.mul_comm count]
  omega

variable {algoId : UInt8}

/-- A byte of the protected range is in an erased block exactly if a range covers it. -/
theorem erasureIndices_spares_iff {erasures : ErasureInput} {cdOffset : UInt64} {i : ℕ}
    (hsize : 0 < blockSize) (hcd : 8 ≤ cdOffset.toNat) (hranges : ∀ er ∈ erasures.archiveRanges,
      checkErasureRange (protectedRangeOf cdOffset algoId) blockSize er = .ok ()) :
    (∀ e ∈ erasureIndices 8 blockSize erasures.archiveRanges, e.index.toNat ≠ i / blockSize) ↔
      erasures.Spares (i + 8) := by
  constructor
  · intro h er her hcovers
    obtain ⟨hstart, hend, halign, hlength⟩ :=
      (checkErasureRange_eq_ok_iff hcd).mp (hranges er her)
    have hmem := (mem_erasedBlocks_iff hsize hstart halign hlength).mpr hcovers
    refine h ⟨UInt64.ofNat (i / blockSize)⟩ (mem_erasureIndices.mpr ⟨er, her, _, hmem, rfl⟩) ?_
    have hsmall : i / blockSize ≤ i := Nat.div_le_self _ _
    have hmax : cdOffset.toNat < UInt64.size := UInt64.toNat_lt_size _
    obtain ⟨-, hlt⟩ := hcovers
    exact UInt64.toNat_ofNat_of_lt' (by omega)
  · intro h e he heq
    obtain ⟨er, her, index, hindex, rfl⟩ := mem_erasureIndices.mp he
    obtain ⟨hstart, hend, halign, hlength⟩ :=
      (checkErasureRange_eq_ok_iff hcd).mp (hranges er her)
    have hsmall : index < UInt64.size := by
      have hmax : cdOffset.toNat < UInt64.size := UInt64.toNat_lt_size _
      have hle := Nat.div_le_self (er.offset.toNat - 8 + er.length.toNat) blockSize
      rw [erasedBlocks, mem_range'_1] at hindex
      omega
    rw [UInt64.toNat_ofNat_of_lt' hsmall] at heq
    exact h er her ((mem_erasedBlocks_iff hsize hstart halign hlength).mp (heq ▸ hindex))

/-! ### Recovery of the protected range -/

/-- The recovery writes into erased blocks only, and reads nothing there. -/
theorem blockwise_recoverWith {value : Bytes} {len : UInt64} {erasures : List Erasure}
    (hsize : blockSizeFromAlgo algoId value = .ok blockSize) :
    Blockwise (fun available => recoverWith algoId ⟨len, available, value, erasures⟩) len.toNat
      blockSize erasures := by
  simp only [recoverWith]
  split
  · next halgo =>
    cases hcodec : XorCodec.fromFecValue value with
    | error e => exact blockwise_of_error ⟨_, fun _ => rfl⟩
    | ok codec =>
      rw [halgo, blockSizeFromAlgo_xor hcodec] at hsize
      obtain rfl := ok.inj hsize
      exact (codec.blockwise value len).liftError _
  · split
    · next halgo =>
      cases hcodec : RsCodec.fromFecValue value with
      | error e => exact blockwise_of_error ⟨_, fun _ => rfl⟩
      | ok codec =>
        rw [halgo, blockSizeFromAlgo_rs hcodec] at hsize
        obtain rfl := ok.inj hsize
        exact (codec.blockwise value len).liftError _
    · exact blockwise_of_error ⟨_, fun _ => rfl⟩

/-! ### The layout under different limits -/

theorem agree_kmsExtension (limits limits' : ResourceLimits) :
    Agree (kmsExtension limits) (kmsExtension limits') := by
  refine (Agree.refl _).bind fun modeId => (Agree.refl _).bind fun _ => ?_
  refine (Agree.refl _).bind fun payloadLen => ?_
  exact (Agree.check fun _ _ _ _ => rfl).bind fun _ => Agree.refl _

theorem agree_globalHeader (limits limits' : ResourceLimits) :
    Agree (globalHeader limits) (globalHeader limits') := by
  refine (Agree.refl _).bind fun m => (Agree.refl _).bind fun _ => ?_
  refine (Agree.refl _).bind fun version => (Agree.refl _).bind fun _ => ?_
  refine (Agree.refl _).bind fun reserved => (Agree.refl _).bind fun _ => ?_
  refine (Agree.refl _).bind fun flagsSize => (Agree.refl _).bind fun _ => ?_
  refine (Agree.check fun _ _ _ _ => rfl).bind fun _ => ?_
  refine (Agree.refl _).bind fun flagsBytes => (Agree.refl _).bind fun _ => ?_
  refine (Agree.refl _).bind fun descriptor => ?_
  exact ((agree_kmsExtension limits limits').optional _).bind fun kms => Agree.refl _

theorem agree_tlvBlocks (limits limits' : ResourceLimits) (fuel count : ℕ) :
    Agree (tlvBlocks limits fuel count) (tlvBlocks limits' fuel count) := by
  induction fuel generalizing count with
  | zero => exact Agree.refl _
  | succ fuel ih =>
    refine (Agree.refl _).bind fun left => ?_
    split
    · exact Agree.refl _
    · refine (Agree.check fun _ _ _ _ => rfl).bind fun _ => Agree.bind ?_ fun tlv => ?_
      · refine (Agree.refl _).bind fun start => (Agree.refl _).bind fun typeId => ?_
        refine (Agree.refl _).bind fun _ => (Agree.refl _).bind fun length => ?_
        refine (Agree.refl _).bind fun _ => (Agree.check fun _ _ _ _ => rfl).bind fun _ => ?_
        exact Agree.refl _
      · exact (ih (count + 1)).bind fun tlvs => Agree.refl _

theorem runParser_agree {α : Type} {p q : Parser α} (h : Agree p q) {input : Bytes} {r r' : α × ℕ}
    (hr : runParser p input = .ok r) (hr' : runParser q input = .ok r') : r = r' := by
  rw [runParser] at hr hr'
  cases hp : p (Cursor.ofBytes input) with
  | error e => rw [hp] at hr; contradiction
  | ok x =>
    cases hq : q (Cursor.ofBytes input) with
    | error e => rw [hq] at hr'; cases hr'
    | ok x' =>
      rw [hp] at hr
      rw [hq] at hr'
      obtain rfl := h hp hq
      exact ok.inj (hr.symm.trans hr')

theorem agree_centralDictionary (flags : GlobalFlags) (limits limits' : ResourceLimits) :
    Agree (centralDictionary flags limits) (centralDictionary flags limits') := by
  refine (Agree.refl _).bind fun version => (Agree.refl _).bind fun _ => ?_
  refine (Agree.refl _).bind fun reserved => (Agree.refl _).bind fun _ => ?_
  refine (Agree.refl _).bind fun fileCount => (Agree.refl _).bind fun partitionInfo => ?_
  refine (Agree.refl _).bind fun globalCrc32 => Agree.bind (Agree.map _ (Agree.optional _ ?_)) ?_
  · refine (Agree.refl _).bind fun metaSize => (Agree.check fun _ _ _ _ => rfl).bind fun _ => ?_
    refine (Agree.refl _).bind fun metaBytes => Agree.check fun tlvs tlvs' h h' => ?_
    rw [parseTlvs, Except.map_eq_ok_iff] at h h'
    obtain ⟨r, hr, rfl⟩ := h
    obtain ⟨r', hr', rfl⟩ := h'
    exact congrArg Prod.fst (runParser_agree (agree_tlvBlocks limits limits' _ _) hr hr')
  · intro tlvs
    exact (Agree.check fun _ _ _ _ => rfl).bind fun _ => Agree.refl _

variable {archiveBytes : Bytes}

/-- The limits decide whether a layout is found, not which one. -/
theorem parseArchiveLayout_unique {limits limits' : ResourceLimits} {layout layout' : ArchiveLayout}
    (h : parseArchiveLayout archiveBytes limits = .ok layout)
    (h' : parseArchiveLayout archiveBytes limits' = .ok layout') : layout = layout' := by
  simp only [parseArchiveLayout, bind_eq_ok_iff] at h h'
  obtain ⟨-, -, ⟨header, n⟩, hheader, h⟩ := h
  obtain ⟨-, -, ⟨header', n'⟩, hheader', h'⟩ := h'
  obtain ⟨rfl, -⟩ := Prod.mk.inj
    (runParser_agree (agree_globalHeader limits limits') hheader hheader')
  dsimp only at h h'
  by_cases hindex : header.flags.noIndex
  · rw [if_pos hindex] at h h'
    exact ok.inj (h.symm.trans h')
  · rw [if_neg hindex] at h h'
    simp only [parseIndexedLayout, parseCentralDictionary, bind_eq_ok_iff,
      pure_eq_ok, ok.injEq] at h h'
    obtain ⟨-, -, footer, hfooter, -, -, -, -, ⟨cd, m⟩, ⟨-, -, hcd⟩, rfl⟩ := h
    obtain ⟨-, -, footer', hfooter', -, -, -, -, ⟨cd', m'⟩, ⟨-, -, hcd'⟩, rfl⟩ := h'
    obtain rfl := ok.inj (hfooter.symm.trans hfooter')
    obtain ⟨rfl, -⟩ := Prod.mk.inj
      (runParser_agree (agree_centralDictionary header.flags limits limits') hcd hcd')
    rfl

/-! ### Repairs -/

/-- The dictionary of a layout begins where the footer says, between the protected range and the
footer. -/
theorem parseFooter_of_layout {limits : ResourceLimits} {layout : ArchiveLayout} {cdOffset : UInt64}
    (h : parseArchiveLayout archiveBytes limits = .ok layout)
    (hcd : layout.cdOffset = some cdOffset) :
    parseFooter (archiveBytes.drop (archiveBytes.length - 8)) = .ok ⟨cdOffset⟩ ∧
      cdOffset.toNat + 8 < archiveBytes.length := by
  simp only [parseArchiveLayout, bind_eq_ok_iff] at h
  obtain ⟨-, -, ⟨header, n⟩, -, h⟩ := h
  dsimp only at h
  split at h
  · rw [← ok.inj h] at hcd
    contradiction
  · simp only [parseIndexedLayout, bind_eq_ok_iff, exists_unit,
      rejectIf_eq_ok_iff, pure_eq_ok, ok.injEq] at h
    obtain ⟨_, footer, hfooter, hinside, _, _, _, rfl⟩ := h
    obtain rfl := Option.some.inj hcd
    exact ⟨hfooter, by omega⟩

/-- Accepted ranges lie in the protected range. -/
theorem spares_of_accepted {erasures : ErasureInput} {cdOffset : UInt64} {p : ℕ}
    (hcd : 8 ≤ cdOffset.toNat) (hranges : ∀ er ∈ erasures.archiveRanges,
      checkErasureRange (protectedRangeOf cdOffset algoId) blockSize er = .ok ())
    (hp : p < 8 ∨ cdOffset.toNat ≤ p) : erasures.Spares p := by
  intro er her hcovers
  obtain ⟨hlow, hhigh, -, -⟩ := (checkErasureRange_eq_ok_iff hcd).mp (hranges er her)
  obtain ⟨hle, hlt⟩ := hcovers
  omega

section Repair

variable {archiveBytes value : Bytes} {layout : ArchiveLayout} {limits limits' : ResourceLimits}
  {cdOffset : UInt64} {summary : FecSummary} {erasures : ErasureInput}

/-- The bytes of the protected range. -/
def protectedBytesOf (archiveBytes : Bytes) (cdOffset : UInt64) : Bytes :=
  (archiveBytes.drop 8).take (cdOffset.toNat - 8)

/-- The memory a repair is accounted for. -/
def repairWorkingSet (archiveBytes value : Bytes) (cdOffset : UInt64) : ℕ :=
  archiveBytes.length + (cdOffset.toNat - 8) + value.length + (cdOffset.toNat - 8)

/-- The record a plan was made for is the one the repair finds. -/
theorem RecoveryRecord.find?_eq (hrecord : RecoveryRecord layout limits cdOffset value summary) :
    layout.recoveryTlvs.find? (fun tlv => tlv.1 = summary.algoId) =
      some (summary.algoId, value) := by
  obtain ⟨rest, htlvs⟩ := List.head?_eq_some_iff.mp hrecord.first
  rw [htlvs, List.find?_cons_of_pos (by simp)]

/-- **Repairs.** With a plan made for the archive, a repair recovers the protected range and
leaves the rest as it is. -/
theorem repairArchive_eq_ok_iff (hlayout : parseArchiveLayout archiveBytes limits = .ok layout)
    (hrecord : RecoveryRecord layout limits cdOffset value summary) {r : Bytes × RepairReport} :
    repairArchive archiveBytes ⟨erasures, protectedRangeOf cdOffset summary.algoId,
        summary.algoId⟩ limits' = .ok r ↔
      parseArchiveLayout archiveBytes limits' = .ok layout ∧
        cdOffset.toNat - 8 ≤ limits'.maxRecoveryProtectedRange ∧
        repairWorkingSet archiveBytes value cdOffset ≤ u64Max ∧
        repairWorkingSet archiveBytes value cdOffset ≤ limits'.maxRepairWorkingSet ∧
        ∃ recovered, recoverWith summary.algoId ⟨cdOffset - protectedStart,
            protectedBytesOf archiveBytes cdOffset, value,
            erasureIndices 8 summary.unitSize erasures.archiveRanges⟩ = .ok recovered ∧
          r = (archiveBytes.take 8 ++ (recovered ++ archiveBytes.drop cdOffset.toNat),
            ⟨true, erasures.archiveRanges, false, none⟩) := by
  obtain ⟨-, hinside⟩ := parseFooter_of_layout hlayout hrecord.cdOffset_eq
  have hcd := hrecord.lt_cdOffset
  have hstart : (protectedRangeOf cdOffset summary.algoId).offset.toNat = 8 := rfl
  have hlength : (protectedRangeOf cdOffset summary.algoId).length.toNat = cdOffset.toNat - 8 :=
    toNat_protectedLength hcd.le
  obtain ⟨-, -, hsize⟩ := validateRecoveryTlv_eq_ok hrecord.valid
  have hfind := hrecord.find?_eq
  -- the recovered bytes fill the protected range
  have htake : ∀ recovered, recoverWith summary.algoId ⟨cdOffset - protectedStart,
      protectedBytesOf archiveBytes cdOffset, value,
      erasureIndices 8 summary.unitSize erasures.archiveRanges⟩ = .ok recovered →
      recovered.take (min (cdOffset.toNat - 8) recovered.length) = recovered := by
    intro recovered hrecover
    have hkept := ((blockwise_recoverWith hsize).kept hrecover).1
    rw [toNat_protectedLength hcd.le] at hkept
    exact take_of_length_le (by omega)
  have hdrop : 8 + (cdOffset.toNat - 8) = cdOffset.toNat := by omega
  simp only [repairArchive, bind_eq_ok_iff, exists_unit, rejectIf_eq_ok_iff, Except.okOr_eq_ok_iff,
    ResourceLimits.checkRecoveryProtectedRange, ResourceLimits.checkRepairWorkingSet,
    ResourceLimits.atMost_eq_ok_iff, pure_eq_ok, ok.injEq, hstart, hlength]
  constructor
  · rintro ⟨layout', hlayout', ⟨algoId, value'⟩, hfound, hbounds, hrange, hmax, hset, blockSize,
      hblock, recovered, hrecover, -, rfl⟩
    obtain rfl := parseArchiveLayout_unique hlayout hlayout'
    obtain ⟨rfl, rfl⟩ := Prod.mk.inj (Option.some.inj (hfind.symm.trans hfound))
    obtain rfl := ok.inj (hsize.symm.trans hblock)
    refine ⟨hlayout', hrange, not_lt.mp hmax, hset, recovered, hrecover, ?_⟩
    rw [htake recovered hrecover, hdrop]
  · rintro ⟨hlayout', hrange, hmax, hset, recovered, hrecover, rfl⟩
    refine ⟨layout, hlayout', _, hfind, by omega, hrange, not_lt.mpr hmax, hset, _, hsize,
      recovered, hrecover, ?_, ?_⟩
    · rw [repairWorkingSet] at hset
      omega
    · rw [htake recovered hrecover, hdrop]

end Repair

/-- **Nothing else is touched.** -/
theorem repairArchive_frame (archiveBytes : Bytes) (erasures : ErasureInput)
    (limits limits' : ResourceLimits) (plan : RecoveryPlan) (repaired : Bytes)
    (report : RepairReport) (hplan : planArchiveRepair archiveBytes erasures limits = .ok plan)
    (hrepair : repairArchive archiveBytes plan limits' = .ok (repaired, report)) :
    repaired.length = archiveBytes.length ∧
      ∀ p, plan.erasures.Spares p → repaired[p]? = archiveBytes[p]? := by
  obtain ⟨layout, hlayout, cdOffset, value, summary, hrecord, hranges, rfl⟩ :=
    planArchiveRepair_eq_ok_iff.mp hplan
  obtain ⟨-, -, -, -, recovered, hrecover, hr⟩ :=
    (repairArchive_eq_ok_iff hlayout hrecord).mp hrepair
  obtain ⟨rfl, -⟩ := Prod.mk.inj hr
  obtain ⟨-, hinside⟩ := parseFooter_of_layout hlayout hrecord.cdOffset_eq
  have hcd := hrecord.lt_cdOffset
  obtain ⟨-, hpos, hsize⟩ := validateRecoveryTlv_eq_ok hrecord.valid
  obtain ⟨hlength, hkept⟩ := (blockwise_recoverWith hsize).kept hrecover
  rw [toNat_protectedLength hcd.le] at hlength hkept
  refine ⟨?_, fun p hp => ?_⟩
  · simp only [length_append, length_take, length_drop, hlength]
    omega
  · by_cases hlow : p < 8
    · rw [List.getElem?_append_left (by rw [length_take]; omega), List.getElem?_take_of_lt hlow]
    · rw [List.getElem?_append_right (by rw [length_take]; omega), length_take,
        Nat.min_eq_left (by omega)]
      by_cases hhigh : p < cdOffset.toNat
      · -- a byte of the protected range, in a block that is not erased
        have hi : p - 8 < cdOffset.toNat - 8 := by omega
        have hspared := (erasureIndices_spares_iff hpos hcd.le hranges).mpr
          (show erasures.Spares (p - 8 + 8) by rwa [Nat.sub_add_cancel (not_lt.mp hlow)])
        have hbyte := congrArg Gf256.byte (hkept (p - 8) hi hspared)
        have hprotected : (protectedBytesOf archiveBytes cdOffset)[p - 8]? = archiveBytes[p]? := by
          rw [protectedBytesOf, List.getElem?_take_of_lt hi, List.getElem?_drop,
            Nat.add_sub_cancel' (not_lt.mp hlow)]
        have hin : p < archiveBytes.length := by omega
        simp only [elementAt, getD_eq_getElem?_getD, hprotected, List.getElem?_eq_getElem hin,
          List.getElem?_eq_getElem (hlength.symm ▸ hi), Option.getD_some] at hbyte
        rw [List.getElem?_append_left (hlength.symm ▸ hi),
          List.getElem?_eq_getElem (hlength.symm ▸ hi), List.getElem?_eq_getElem hin, hbyte]
      · rw [List.getElem?_append_right (by omega), hlength, List.getElem?_drop]
        congr 1
        omega

/-- A header, six protected bytes with their Reed–Solomon value, and an index. -/
def exampleRepairable : Bytes :=
  magic ++ [1, 0, 4, 0] ++ [4, 0, 8, 0, 5, 7] ++
    ([1, 0, 0, 0, 0, 0, 0, 0] ++ [0, 0, 0, 0] ++ [32, 0, 0, 0] ++ [17, 21, 0, 0, 0] ++
      [2, 1, 1, 0, 0, 0, 6, 0, 0, 0, 0, 0, 0, 0, 3, 0, 0, 0, 4, 8, 11] ++ [0, 0, 0, 0, 0, 0]) ++
    writeFooter ⟨14⟩

/-- The same archive with its fifth protected byte lost. -/
def exampleDamaged : Bytes := exampleRepairable.set 12 0

/-- The range of the lost byte. -/
def exampleErasures : ErasureInput := ⟨[], [⟨12, 1⟩]⟩

/-- The plan for it. -/
def examplePlan : RecoveryPlan := ⟨exampleErasures, ⟨8, 6, 17⟩, 17⟩

theorem planArchiveRepair_exampleDamaged :
    planArchiveRepair exampleDamaged exampleErasures .unlimited = .ok examplePlan := by
  decide +kernel

theorem repairArchive_exampleDamaged :
    repairArchive exampleDamaged examplePlan .unlimited =
      .ok (exampleRepairable, ⟨true, [⟨12, 1⟩], false, none⟩) := by
  decide +kernel

/-- The lost byte comes back, the others stay. -/
theorem repairArchive_frame_exampleDamaged :
    exampleRepairable.length = exampleDamaged.length ∧
      ∀ p, examplePlan.erasures.Spares p → exampleRepairable[p]? = exampleDamaged[p]? := by
  have hplan := planArchiveRepair_exampleDamaged
  have hrepair := repairArchive_exampleDamaged
  generalize exampleDamaged = damaged at *
  generalize exampleRepairable = repaired at *
  generalize examplePlan = plan at *
  exact repairArchive_frame damaged exampleErasures .unlimited .unlimited plan repaired _ hplan
    hrepair

/-! ### What the outcome depends on -/

/-- Two archives of one length that only differ inside the ranges. -/
structure DifferInside (erasures : ErasureInput) (archiveBytes archiveBytes' : Bytes) : Prop where
  length_eq : archiveBytes.length = archiveBytes'.length
  getElem?_eq : ∀ p, erasures.Spares p → archiveBytes[p]? = archiveBytes'[p]?

section

variable (archiveBytes : Bytes)

/-- The end of the protected range: the dictionary's offset in the footer, which comes last. -/
def protectedEnd : ℕ :=
  min (LittleEndian.leNat (archiveBytes.drop (archiveBytes.length - 8))) (archiveBytes.length - 8)

variable (limits : ResourceLimits)

/-- The end of the Global Header; all of an archive whose header cannot be read. -/
def globalHeaderEnd : ℕ :=
  match parseGlobalHeader archiveBytes limits with
  | .ok (_, headerLen) => headerLen
  | .error _ => archiveBytes.length

/-- The flags that the layout and the plan are made from. -/
def GlobalFlags.forRepair (flags : GlobalFlags) : GlobalFlags where
  size64Bit := flags.size64Bit
  noIndex := flags.noIndex
  optPresent := flags.optPresent
  partitionedArchive := flags.partitionedArchive
  hasGlobalCrc32 := flags.hasGlobalCrc32
  hasGlobalEc := flags.hasGlobalEc

/-- What is taken from the front of an archive: the error of the size check or of the Global
Header, or those flags. -/
def headerRead : Result GlobalFlags := do
  limits.checkArchiveSize archiveBytes.length
  let (header, _) ← parseGlobalHeader archiveBytes limits
  pure header.flags.forRepair

/-- The layout behind a header with the given flags. -/
def layoutBehind (flags : GlobalFlags) : Result ArchiveLayout :=
  if flags.noIndex then pure ⟨flags, none, []⟩ else parseIndexedLayout archiveBytes flags limits

/-- The layout as far as the plan and the repair look at it. -/
def layoutRead : Result ArchiveLayout :=
  (fun layout => { layout with globalFlags := layout.globalFlags.forRepair }) <$>
    parseArchiveLayout archiveBytes limits

/-- The Central Dictionary is read by these flags alone. -/
theorem parseCentralDictionary_forRepair (input : Bytes) (flags : GlobalFlags)
    (limits : ResourceLimits) :
    parseCentralDictionary input flags.forRepair limits =
      parseCentralDictionary input flags limits := by
  have hsizes : ∀ n, readSizes flags.forRepair n = readSizes flags n := by
    intro n
    induction n with
    | zero => rfl
    | succ n ih =>
      rw [readSizes, readSizes, ih]
      rfl
  simp only [parseCentralDictionary, centralDictionary, hsizes]
  rfl

theorem layoutRead_eq :
    layoutRead archiveBytes limits =
      headerRead archiveBytes limits >>= layoutBehind archiveBytes limits := by
  simp only [layoutRead, parseArchiveLayout, headerRead, map_bind, bind_assoc, pure_bind]
  refine bind_congr fun _ => bind_congr fun r => ?_
  change _ = if r.1.flags.noIndex = true then _ else _
  split
  · rfl
  · simp only [parseIndexedLayout, map_bind, map_pure, parseCentralDictionary_forRepair]

/-- A plan depends on nothing else of the archive. -/
theorem planArchiveRepair_eq_layoutRead (erasures : ErasureInput) (limits : ResourceLimits) :
    planArchiveRepair archiveBytes erasures limits =
      layoutRead archiveBytes limits >>= fun layout => planOfLayout layout erasures limits := by
  rw [planArchiveRepair_eq, layoutRead, map_eq_pure_bind, bind_assoc]
  rfl

end

/-- The offset in a footer. -/
theorem toNat_cdOffset_eq {footer : Footer}
    (h : parseFooter (archiveBytes.drop (archiveBytes.length - 8)) = .ok footer) :
    footer.cdOffset.toNat = LittleEndian.leNat (archiveBytes.drop (archiveBytes.length - 8)) := by
  simp only [parseFooter, bind_eq_ok_iff, exists_unit, rejectIf_eq_ok_iff,
    pure_eq_ok, ok.injEq] at h
  obtain ⟨-, rfl⟩ := h
  have hlength : (archiveBytes.drop (archiveBytes.length - 8)).length ≤ 8 := by
    rw [length_drop]
    omega
  have hlt := LittleEndian.leNat_lt (archiveBytes.drop (archiveBytes.length - 8))
  have hpow : 256 ^ (archiveBytes.drop (archiveBytes.length - 8)).length ≤ 256 ^ 8 :=
    Nat.pow_le_pow_right (by decide) hlength
  rw [take_of_length_le hlength]
  exact UInt64.toNat_ofNat_of_lt' (hlt.trans_le (hpow.trans (by decide)))

section Congr

variable {erasures : ErasureInput} {archiveBytes archiveBytes' : Bytes} {limits : ResourceLimits}
  (hdiffer : DifferInside erasures archiveBytes archiveBytes')

include hdiffer

theorem DifferInside.symm : DifferInside erasures archiveBytes' archiveBytes :=
  ⟨hdiffer.length_eq.symm, fun p hp => (hdiffer.getElem?_eq p hp).symm⟩

/-- Another byte at an erased position. -/
theorem DifferInside.set {p : ℕ} (hcovered : ¬ erasures.Spares p) (b : UInt8) :
    DifferInside erasures archiveBytes (archiveBytes'.set p b) where
  length_eq := hdiffer.length_eq.trans (length_set ..).symm
  getElem?_eq q hq := by
    have hne : p ≠ q := fun heq => hcovered (heq ▸ hq)
    rw [List.getElem?_set_ne hne, hdiffer.getElem?_eq q hq]

theorem DifferInside.getD_eq {p : ℕ} (hspared : erasures.Spares p) :
    archiveBytes.getD p 0 = archiveBytes'.getD p 0 := by
  rw [getD_eq_getElem?_getD, getD_eq_getElem?_getD, hdiffer.getElem?_eq p hspared]

/-- Parts of the archives that no range touches. -/
theorem DifferInside.slice_eq {start len : ℕ}
    (hspared : ∀ p, start ≤ p → p < start + len → erasures.Spares p) :
    (archiveBytes.drop start).take len = (archiveBytes'.drop start).take len := by
  refine ext_getElem? fun i => ?_
  by_cases hi : i < len
  · rw [List.getElem?_take_of_lt hi, List.getElem?_take_of_lt hi, List.getElem?_drop,
      List.getElem?_drop, hdiffer.getElem?_eq _ (hspared _ (by omega) (by omega))]
  · rw [List.getElem?_eq_none ((length_take_le _ _).trans (not_lt.mp hi)),
      List.getElem?_eq_none ((length_take_le _ _).trans (not_lt.mp hi))]

theorem DifferInside.drop_eq {start : ℕ} (hspared : ∀ p, start ≤ p → erasures.Spares p) :
    archiveBytes.drop start = archiveBytes'.drop start := by
  refine ext_getElem? fun i => ?_
  rw [List.getElem?_drop, List.getElem?_drop, hdiffer.getElem?_eq _ (hspared _ (by omega))]

/-- A header that no range touches is read alike. -/
theorem DifferInside.parseGlobalHeader_eq
    (hheader : ∀ p < globalHeaderEnd archiveBytes limits, erasures.Spares p) :
    parseGlobalHeader archiveBytes limits = parseGlobalHeader archiveBytes' limits := by
  rw [globalHeaderEnd] at hheader
  cases hparse : parseGlobalHeader archiveBytes limits with
  | error e =>
    rw [hparse] at hheader
    obtain rfl : archiveBytes = archiveBytes' := by
      refine ext_getElem? fun p => ?_
      by_cases hp : p < archiveBytes.length
      · exact hdiffer.getElem?_eq p (hheader p hp)
      · have hlen := hdiffer.length_eq
        rw [List.getElem?_eq_none (not_lt.mp hp), List.getElem?_eq_none (by omega)]
    exact hparse.symm
  | ok r =>
    obtain ⟨header, n⟩ := r
    rw [hparse] at hheader
    dsimp only at hheader
    have hincremental := incremental_globalHeader limits
    have hn := runParser_le_length hincremental hparse
    have hslice : (archiveBytes.drop 0).take n = (archiveBytes'.drop 0).take n :=
      hdiffer.slice_eq fun p _ hp => hheader p (by omega)
    have htake : archiveBytes.take n = archiveBytes'.take n := hslice
    rw [parseGlobalHeader, ← take_append_drop n archiveBytes] at hparse
    have hshort := runParser_of_append hincremental hparse (by rw [length_take]; omega)
    rw [htake] at hshort
    rw [parseGlobalHeader, ← take_append_drop n archiveBytes']
    exact (runParser_append_of_ok hincremental hshort _).symm

theorem DifferInside.headerRead_eq
    (hheader : ∀ p < globalHeaderEnd archiveBytes limits, erasures.Spares p) :
    headerRead archiveBytes limits = headerRead archiveBytes' limits := by
  rw [headerRead, headerRead, hdiffer.parseGlobalHeader_eq hheader, hdiffer.length_eq]

/-- The dictionary and the footer lie behind the protected range. -/
theorem DifferInside.layoutBehind_eq
    (hinside : ∀ p, protectedEnd archiveBytes ≤ p → erasures.Spares p) (flags : GlobalFlags) :
    layoutBehind archiveBytes limits flags = layoutBehind archiveBytes' limits flags := by
  have hfooter : archiveBytes.drop (archiveBytes.length - 8) =
      archiveBytes'.drop (archiveBytes.length - 8) :=
    hdiffer.drop_eq fun p hp => hinside p ((Nat.min_le_right _ _).trans hp)
  rw [layoutBehind, layoutBehind]
  split
  · rfl
  · rw [parseIndexedLayout, parseIndexedLayout, ← hdiffer.length_eq]
    dsimp only
    rw [← hfooter]
    refine congrArg _ (funext fun _ => ?_)
    cases hparse : parseFooter (archiveBytes.drop (archiveBytes.length - 8)) with
    | error e => simp only [error_bind]
    | ok footer =>
      -- the dictionary begins where the protected range ends
      have hcd : protectedEnd archiveBytes ≤ footer.cdOffset.toNat :=
        (Nat.min_le_left _ _).trans_eq (toNat_cdOffset_eq hparse).symm
      have hslice : (archiveBytes.drop footer.cdOffset.toNat).take
          (archiveBytes.length - 8 - footer.cdOffset.toNat) =
          (archiveBytes'.drop footer.cdOffset.toNat).take
            (archiveBytes.length - 8 - footer.cdOffset.toNat) :=
        hdiffer.slice_eq fun p hp _ => hinside p (hcd.trans hp)
      rw [ok_bind, ok_bind, hslice]

/-- So archives with headers that come to the same have layouts that come to the same. -/
theorem DifferInside.layoutRead_eq
    (hinside : ∀ p, protectedEnd archiveBytes ≤ p → erasures.Spares p)
    (hheader : headerRead archiveBytes limits = headerRead archiveBytes' limits) :
    layoutRead archiveBytes limits = layoutRead archiveBytes' limits := by
  rw [Sar.layoutRead_eq, Sar.layoutRead_eq, hheader, funext (hdiffer.layoutBehind_eq hinside)]

/-- The repair works on the same bytes, up to those of erased blocks. -/
theorem DifferInside.repairArchive_eq {plan : RecoveryPlan}
    (hlayout : layoutRead archiveBytes limits = layoutRead archiveBytes' limits)
    (hplan : planArchiveRepair archiveBytes erasures limits = .ok plan) :
    repairArchive archiveBytes plan limits = repairArchive archiveBytes' plan limits := by
  obtain ⟨layout, hparse, cdOffset, value, summary, hrecord, hranges, rfl⟩ :=
    planArchiveRepair_eq_ok_iff.mp hplan
  obtain ⟨layout', hparse', htlvs⟩ : ∃ layout', parseArchiveLayout archiveBytes' limits =
      .ok layout' ∧ layout'.recoveryTlvs = layout.recoveryTlvs := by
    have hread := hlayout.symm
    rw [layoutRead, layoutRead, hparse] at hread
    obtain ⟨layout', hparse', hsame⟩ := Except.map_eq_ok_iff.mp hread
    have htlvs := congrArg ArchiveLayout.recoveryTlvs hsame
    exact ⟨layout', hparse', htlvs⟩
  have hcd := hrecord.lt_cdOffset
  obtain ⟨-, hpos, hsize⟩ := validateRecoveryTlv_eq_ok hrecord.valid
  have hfind := hrecord.find?_eq
  have hstart : (protectedRangeOf cdOffset summary.algoId).offset.toNat = 8 := rfl
  have hlength : (protectedRangeOf cdOffset summary.algoId).length.toNat = cdOffset.toNat - 8 :=
    toNat_protectedLength hcd.le
  have htake : archiveBytes.take 8 = archiveBytes'.take 8 :=
    @DifferInside.slice_eq _ _ _ hdiffer 0 8 fun p _ hp =>
      spares_of_accepted hcd.le hranges (Or.inl (by omega))
  have hdrop : archiveBytes.drop (8 + (cdOffset.toNat - 8)) =
      archiveBytes'.drop (8 + (cdOffset.toNat - 8)) :=
    hdiffer.drop_eq fun p hp => spares_of_accepted hcd.le hranges (Or.inr (by omega))
  have hrecover : recoverWith summary.algoId ⟨(protectedRangeOf cdOffset summary.algoId).length,
      (archiveBytes.drop 8).take (cdOffset.toNat - 8), value,
      erasureIndices 8 summary.unitSize erasures.archiveRanges⟩ =
      recoverWith summary.algoId ⟨(protectedRangeOf cdOffset summary.algoId).length,
        (archiveBytes'.drop 8).take (cdOffset.toNat - 8), value,
        erasureIndices 8 summary.unitSize erasures.archiveRanges⟩ := by
    refine (blockwise_recoverWith hsize).congr fun i hi => ?_
    have hspared := (erasureIndices_spares_iff hpos hcd.le hranges).mp hi
    rw [elementAt, elementAt, getD_eq_getElem?_getD, getD_eq_getElem?_getD]
    by_cases hlt : i < cdOffset.toNat - 8
    · rw [List.getElem?_take_of_lt hlt, List.getElem?_take_of_lt hlt, List.getElem?_drop,
        List.getElem?_drop, Nat.add_comm 8, hdiffer.getElem?_eq _ hspared]
    · rw [List.getElem?_eq_none ((length_take_le _ _).trans (not_lt.mp hlt)),
        List.getElem?_eq_none ((length_take_le _ _).trans (not_lt.mp hlt))]
  simp only [repairArchive, hparse, hparse', htlvs, ok_bind, hfind, Except.okOr_some, hstart,
    hlength, hdiffer.length_eq, hsize, hrecover, htake, hdrop]

/-- Archives with layouts that come to the same have the same outcome. -/
theorem DifferInside.planAndRepair_eq
    (hlayout : layoutRead archiveBytes limits = layoutRead archiveBytes' limits) :
    planAndRepair archiveBytes erasures limits = planAndRepair archiveBytes' erasures limits := by
  have hplan : planArchiveRepair archiveBytes erasures limits =
      planArchiveRepair archiveBytes' erasures limits := by
    rw [planArchiveRepair_eq_layoutRead, planArchiveRepair_eq_layoutRead, hlayout]
  rw [planAndRepair, planAndRepair, ← hplan]
  cases hok : planArchiveRepair archiveBytes erasures limits with
  | error e => simp only [error_bind]
  | ok plan => simp only [ok_bind, hdiffer.repairArchive_eq hlayout hok]

end Congr

/-! ### Erased flags -/

section Flags

variable {erasures : ErasureInput} {archiveBytes : Bytes} {limits : ResourceLimits}

/-- The flags that repair looks at stand in the first and the third byte. -/
theorem forRepair_headerFlags (hfour : 4 ≤ headerFlagsSize archiveBytes) :
    (headerFlags archiveBytes).forRepair =
      { size64Bit := (archiveBytes.getD 8 0).toNat.testBit 0
        noIndex := (archiveBytes.getD 8 0).toNat.testBit 1
        optPresent := (archiveBytes.getD 8 0).toNat.testBit 2
        partitionedArchive := (archiveBytes.getD 8 0).toNat.testBit 3
        hasGlobalCrc32 := (archiveBytes.getD 10 0).toNat.testBit 0
        hasGlobalEc := (archiveBytes.getD 10 0).toNat.testBit 3 } := by
  have hbit : ∀ j i, j < 4 → i < 8 → (UInt32.ofNat (LittleEndian.leNat
      (((archiveBytes.drop 8).take (headerFlagsSize archiveBytes)).take 4))).toNat.testBit
        (8 * j + i) = (archiveBytes.getD (8 + j) 0).toNat.testBit i := by
    intro j i hj hi
    rw [toNat_ofNat_leNat_take_four, LittleEndian.testBit_leNat _ _ hi, take_take,
      min_eq_left hfour, getD_eq_getElem?_getD, getD_eq_getElem?_getD,
      List.getElem?_take_of_lt hj, List.getElem?_drop]
  simp only [GlobalFlags.forRepair, headerFlags, flagsOfBytes, GlobalFlags.fromBitsTruncate,
    GlobalFlags.mk.injEq, and_true, true_and]
  exact ⟨hbit 0 0 (by decide) (by decide), hbit 0 1 (by decide) (by decide),
    hbit 0 2 (by decide) (by decide), hbit 0 3 (by decide) (by decide),
    hbit 2 0 (by decide) (by decide), hbit 2 3 (by decide) (by decide)⟩

/-- What the front of a repaired archive looked like. -/
theorem headerRead_of_planAndRepair {r : Bytes × RepairReport}
    (h : planAndRepair archiveBytes erasures limits = .ok r) :
    4 ≤ headerFlagsSize archiveBytes ∧
      headerRead archiveBytes limits = .ok (headerFlags archiveBytes).forRepair ∧
      (headerFlags archiveBytes).noIndex = false ∧
      (headerFlags archiveBytes).hasGlobalEc = true := by
  obtain ⟨plan, hplan, -⟩ := bind_eq_ok_iff.mp h
  obtain ⟨layout, hlayout, cdOffset, value, summary, hrecord, -⟩ :=
    planArchiveRepair_eq_ok_iff.mp hplan
  simp only [parseArchiveLayout, bind_eq_ok_iff, exists_unit, Prod.exists] at hlayout
  obtain ⟨hsize, header, n, hparse, hlayout⟩ := hlayout
  have hshape := parseGlobalHeader_shape hparse
  have hread : headerRead archiveBytes limits = .ok header.flags.forRepair := by
    rw [headerRead, hsize, ok_bind, hparse]
    rfl
  rw [← hshape.flags_eq]
  split at hlayout
  · -- without an index there are no records
    rw [← ok.inj hlayout] at hrecord
    exact absurd hrecord.cdOffset_eq.symm (Option.some_ne_none _)
  · next hindex =>
    refine ⟨hshape.flagsSize_ge, hread, Bool.eq_false_iff.mpr hindex, ?_⟩
    simp only [parseIndexedLayout, bind_eq_ok_iff, exists_unit, Prod.exists, pure_eq_ok,
      ok.injEq] at hlayout
    obtain ⟨-, _, -, -, -, _, _, -, rfl⟩ := hlayout
    exact hrecord.hasGlobalEc

end Flags

/-! ### Dependence on erased contents -/

/-- The ranges lie in the protected range. -/
def ErasureInput.InProtectedRange (erasures : ErasureInput) (archiveBytes : Bytes) : Prop :=
  ∀ p, ¬ erasures.Spares p → 8 ≤ p ∧ p < protectedEnd archiveBytes

/-- Whatever stands in the erased bytes, the outcome is the same. -/
def ContentsIgnored (archiveBytes : Bytes) (erasures : ErasureInput) (limits : ResourceLimits) :
    Prop :=
  ∀ archiveBytes', DifferInside erasures archiveBytes archiveBytes' →
    planAndRepair archiveBytes erasures limits = planAndRepair archiveBytes' erasures limits

/-- Whatever stands in the erased bytes, the front of the archive is refused with the same error,
or accepted with the same flags as far as repair looks at them. -/
def HeaderKept (archiveBytes : Bytes) (erasures : ErasureInput) (limits : ResourceLimits) : Prop :=
  ∀ archiveBytes', DifferInside erasures archiveBytes archiveBytes' →
    headerRead archiveBytes limits = headerRead archiveBytes' limits

section Dependence

variable {archiveBytes : Bytes} {erasures : ErasureInput} {limits : ResourceLimits}

/-- The bytes of `OPT_PRESENT` and of `HAS_GLOBAL_EC` cannot be erased without consequences for an
archive that can be repaired, and nothing else is taken from its header. -/
theorem headerKept_of_contentsIgnored {r : Bytes × RepairReport}
    (h : planAndRepair archiveBytes erasures limits = .ok r)
    (hignored : ContentsIgnored archiveBytes erasures limits) :
    HeaderKept archiveBytes erasures limits := by
  have hrefl : DifferInside erasures archiveBytes archiveBytes := ⟨rfl, fun _ _ => rfl⟩
  have hfront := fun {b} (hb : DifferInside erasures archiveBytes b) =>
    headerRead_of_planAndRepair ((hignored b hb).symm.trans h)
  have hlength : 10 < archiveBytes.length := by
    by_contra hshort
    obtain ⟨hfour, -, -, hec⟩ := hfront hrefl
    have hflag := congrArg GlobalFlags.hasGlobalEc (forRepair_headerFlags hfour)
    rw [getD_eq_default _ _ (not_lt.mp hshort)] at hflag
    exact nomatch hec.symm.trans hflag
  have hspared : erasures.Spares 8 ∧ erasures.Spares 10 := by
    refine ⟨by_contra fun hcovered => ?_, by_contra fun hcovered => ?_⟩
    · -- `NO_INDEX`
      obtain ⟨hfour, -, hindex, -⟩ := hfront (hrefl.set hcovered 2)
      have hflag := congrArg GlobalFlags.noIndex (forRepair_headerFlags hfour)
      rw [getD_eq_getElem?_getD, List.getElem?_set_self (by omega)] at hflag
      exact nomatch hindex.symm.trans hflag
    · -- no `HAS_GLOBAL_EC`
      obtain ⟨hfour, -, -, hec⟩ := hfront (hrefl.set hcovered 0)
      have hflag := congrArg GlobalFlags.hasGlobalEc (forRepair_headerFlags hfour)
      dsimp only at hflag
      rw [getD_eq_getElem?_getD, List.getElem?_set_self hlength] at hflag
      exact nomatch hec.symm.trans hflag
  intro archiveBytes' hdiffer
  obtain ⟨hfour, hread, -⟩ := hfront hrefl
  obtain ⟨hfour', hread', -⟩ := hfront hdiffer
  rw [hread, hread', forRepair_headerFlags hfour, forRepair_headerFlags hfour',
    hdiffer.getD_eq hspared.1, hdiffer.getD_eq hspared.2]

end Dependence

/-- **What stands in erased bytes.** It has no influence on the outcome if, whatever stands there,
the front of the archive comes to the same. For the damaged copies of an archive that can be
repaired this condition is exact: if some contents of the erased bytes lead to a repair, the
outcome is independent of them only if the front is. -/
theorem planAndRepair_erased (archiveBytes : Bytes) (erasures : ErasureInput)
    (limits : ResourceLimits) (hinside : erasures.InProtectedRange archiveBytes) :
    (HeaderKept archiveBytes erasures limits → ContentsIgnored archiveBytes erasures limits) ∧
    ((∃ archiveBytes' r, DifferInside erasures archiveBytes archiveBytes' ∧
        planAndRepair archiveBytes' erasures limits = .ok r) →
      (ContentsIgnored archiveBytes erasures limits ↔
        HeaderKept archiveBytes erasures limits)) := by
  have hend : ∀ p, protectedEnd archiveBytes ≤ p → erasures.Spares p := fun p hp =>
    by_contra fun hcovered => absurd (hinside p hcovered).2 (not_lt.mpr hp)
  have henough : HeaderKept archiveBytes erasures limits →
      ContentsIgnored archiveBytes erasures limits := fun hkept archiveBytes' hdiffer =>
    hdiffer.planAndRepair_eq (hdiffer.layoutRead_eq hend (hkept _ hdiffer))
  refine ⟨henough, ?_⟩
  rintro ⟨archiveBytes', r, hdiffer, hrepaired⟩
  exact ⟨fun hignored =>
    headerKept_of_contentsIgnored ((hignored _ hdiffer).trans hrepaired) hignored, henough⟩

/-- Eight protected bytes, the first four of them the flags, with as many parity bytes. -/
def exampleFlagged : Bytes :=
  magic ++ [1, 0, 4, 0] ++ [4, 0, 8, 0, 1, 2, 3, 4] ++
    ([1, 0, 0, 0, 0, 0, 0, 0] ++ [0, 0, 0, 0] ++ [32, 0, 0, 0] ++ [17, 26, 0, 0, 0] ++
      [1, 1, 4, 0, 0, 0, 8, 0, 0, 0, 0, 0, 0, 0, 2, 0, 0, 0, 4, 0, 8, 0, 1, 2, 3, 4] ++ [0]) ++
    writeFooter ⟨16⟩

/-- The same archive with its flags lost. -/
def exampleUnflagged : Bytes := (exampleFlagged.set 8 0).set 10 0

/-- The range of the flags. -/
def flagsErasure : ErasureInput := ⟨[], [⟨8, 4⟩]⟩

theorem spares_flagsErasure {p : ℕ} : flagsErasure.Spares p ↔ p < 8 ∨ 12 ≤ p := by
  simp only [ErasureInput.Spares, flagsErasure, forall_mem_singleton, ErasureRange.Covers]
  change ¬ (8 ≤ p ∧ p < 8 + 4) ↔ _
  omega

/-- The flags can be recovered from the parity, but only if they are there to begin with. -/
theorem planAndRepair_flagsErasure :
    flagsErasure.InProtectedRange exampleFlagged ∧
    DifferInside flagsErasure exampleFlagged exampleUnflagged ∧
    (planAndRepair exampleFlagged flagsErasure .unlimited).map Prod.fst = .ok exampleFlagged ∧
    planAndRepair exampleUnflagged flagsErasure .unlimited =
      .error (.recoveryUnavailable "archive does not have HAS_GLOBAL_EC flag set") := by
  have hend : protectedEnd exampleFlagged = 16 := by decide +kernel
  refine ⟨fun p hp => ?_, ?_, by decide +kernel, by decide +kernel⟩
  · rw [spares_flagsErasure] at hp
    omega
  · have hrefl : DifferInside flagsErasure exampleFlagged exampleFlagged := ⟨rfl, fun _ _ => rfl⟩
    refine (hrefl.set ?_ 0).set ?_ 0 <;> rw [spares_flagsErasure] <;> decide

theorem spares_exampleErasures {p : ℕ} : exampleErasures.Spares p ↔ p ≠ 12 := by
  simp only [ErasureInput.Spares, exampleErasures, forall_mem_singleton, ErasureRange.Covers]
  change ¬ (12 ≤ p ∧ p < 12 + 1) ↔ _
  omega

/-- The lost byte behind the header plays no role for the outcome. -/
theorem planAndRepair_erased_exampleErasures :
    ContentsIgnored exampleRepairable exampleErasures .unlimited := by
  have hend : protectedEnd exampleRepairable = 14 := by decide +kernel
  have hheader : globalHeaderEnd exampleRepairable .unlimited = 12 := by decide +kernel
  refine (planAndRepair_erased exampleRepairable exampleErasures .unlimited fun p hp => ?_).1
    fun damaged hdiffer => hdiffer.headerRead_eq fun p hp => ?_
  · rw [spares_exampleErasures, not_not] at hp
    omega
  · rw [hheader] at hp
    exact spares_exampleErasures.mpr (by omega)

end Sar
