import Mathlib.Data.Finset.Sort
import Sar.Archive.FecSettings
import Sar.Archive.RepairFrame

/-!
# Repair is exact

An archive whose one RECOVERY record was computed of its own protected bytes (`Recoverable`) can be
repaired: with erasures that keep clear of the Global Header and are within the parity of each
group, a copy that differs from the archive only inside the erased ranges is turned into the
archive (`Recoverable.planAndRepair_eq`).

Which blocks can be described to the planner at all is a separate question. Ranges have to consist
of whole blocks inside the protected range, so the last block is out of reach when the protected
range ends inside it (`Recoverable.whole_of_covered`). Whole blocks are accepted, and repaired
(`Recoverable.repair_blocks`).
-/

namespace Sar

open Except (rejectIf ok_bind liftError_eq_ok_iff liftError_ok ok.inj)
open List

/-! ### The shape of a code -/

namespace FecSettings

variable {fec : FecSettings}

/-- The bytes of a block (XOR) or symbol (Reed–Solomon). -/
def unitSize (fec : FecSettings) : ℕ :=
  if fec.algoId = fecAlgoXor then XorCodec.blockSizeForIndex fec.config1 else fec.symbolSize.toNat

/-- The data blocks of a stripe, or data symbols of a group. -/
def groupSize (fec : FecSettings) : ℕ := fec.config0.toNat

/-- How many of them can be recovered. -/
def parityUnits (fec : FecSettings) : ℕ :=
  if fec.algoId = fecAlgoXor then 1 else fec.config1.toNat

/-- The block size that a repair finds in a computed value. -/
theorem blockSizeFromAlgo_computeFecValue {bs value : Bytes}
    (h : fec.computeFecValue bs = .ok value) :
    blockSizeFromAlgo fec.algoId value = .ok fec.unitSize := by
  rcases withCodec_eq_ok_iff.mp h with ⟨halgo, codec, hnew, henc⟩ | ⟨halgo, codec, hnew, henc⟩
  · rw [liftError_eq_ok_iff] at henc
    obtain ⟨_, _, -, -, -, -, rfl⟩ := codec.encodeRecovery_eq_ok henc
    rw [unitSize, if_pos halgo, halgo, blockSizeFromAlgo_xor (codec.fromFecValue_encoded _)]
    unfold XorCodec.new at hnew
    split_ifs at hnew
    rw [← ok.inj hnew]
    rfl
  · rw [liftError_eq_ok_iff] at henc
    obtain ⟨_, _, _, -, -, -, -, -, rfl⟩ := codec.encodeRecovery_eq_ok henc
    rw [unitSize, halgo, if_neg (by decide), blockSizeFromAlgo_rs (codec.fromFecValue_encoded _)]
    unfold RsCodec.new at hnew
    split_ifs at hnew
    rw [← ok.inj hnew]

/-- The protected bytes come back from the value that was computed of them. -/
theorem recoverWith_computeFecValue {bs value available : Bytes} {erasures : List Erasure}
    (h : fec.computeFecValue bs = .ok value) (hlen : available.length = bs.length)
    (hagree : ∀ i < bs.length, (∀ e ∈ erasures, e.index.toNat ≠ i / fec.unitSize) →
      available[i]? = bs[i]?) (hnodup : erasures.Nodup)
    (hcount : ∀ group, (erasures.filter fun e => e.index.toNat / fec.groupSize = group).length ≤
      fec.parityUnits) :
    recoverWith fec.algoId ⟨UInt64.ofNat bs.length, available, value, erasures⟩ = .ok bs := by
  rcases withCodec_eq_ok_iff.mp h with ⟨halgo, codec, hnew, henc⟩ | ⟨halgo, codec, hnew, henc⟩
  · rw [liftError_eq_ok_iff] at henc
    have hfrom : XorCodec.fromFecValue value = .ok codec := by
      obtain ⟨_, _, -, -, -, -, rfl⟩ := codec.encodeRecovery_eq_ok henc
      exact codec.fromFecValue_encoded _
    unfold XorCodec.new at hnew
    split_ifs at hnew
    rw [groupSize, parityUnits, if_pos halgo] at hcount
    rw [unitSize, if_pos halgo] at hagree
    obtain rfl := ok.inj hnew
    rw [recoverWith, if_pos halgo, hfrom, liftError_ok, ok_bind,
      XorCodec.recover_of_le_one henc hlen hagree hcount, liftError_ok]
  · rw [liftError_eq_ok_iff] at henc
    have hfrom : RsCodec.fromFecValue value = .ok codec := by
      obtain ⟨_, _, _, -, -, -, -, -, rfl⟩ := codec.encodeRecovery_eq_ok henc
      exact codec.fromFecValue_encoded _
    unfold RsCodec.new at hnew
    split_ifs at hnew
    have hxor : fec.algoId ≠ fecAlgoXor := by rw [halgo]; decide
    rw [groupSize, parityUnits, if_neg hxor] at hcount
    rw [unitSize, if_neg hxor] at hagree
    obtain rfl := ok.inj hnew
    rw [recoverWith, if_neg hxor, if_pos halgo, hfrom, liftError_ok, ok_bind,
      RsCodec.recover_of_le_parityCount henc hnodup hlen hagree hcount, liftError_ok]

end FecSettings

/-! ### Erased blocks -/

/-- A byte of the block lies in one of the ranges. -/
def ErasureInput.Erases (erasures : ErasureInput) (size b : ℕ) : Prop :=
  ∃ i, i / size = b ∧ ¬ erasures.Spares (i + 8)

/-- No group has more erased blocks than can be recovered. -/
def WithinParity (fec : FecSettings) (erasures : ErasureInput) : Prop :=
  ∀ (group : ℕ) (blocks : List ℕ), blocks.Nodup →
    (∀ b ∈ blocks, b / fec.groupSize = group ∧ erasures.Erases fec.unitSize b) →
      blocks.length ≤ fec.parityUnits

section Indices

variable {erasures : ErasureInput} {cdOffset : UInt64} {algoId : UInt8} {size : ℕ}
  (hsize : 0 < size) (hcd : 8 ≤ cdOffset.toNat)
  (hranges : ∀ er ∈ erasures.archiveRanges,
    checkErasureRange (protectedRangeOf cdOffset algoId) size er = .ok ())

include hsize hcd hranges

/-- The blocks of accepted ranges are erased, and their numbers have 64 bits. -/
theorem erases_of_mem_erasedBlocks {er : ErasureRange} (her : er ∈ erasures.archiveRanges) {b : ℕ}
    (hb : b ∈ erasedBlocks 8 size er) : erasures.Erases size b ∧ b < UInt64.size := by
  obtain ⟨hstart, hend, halign, hlength⟩ :=
    (checkErasureRange_eq_ok_iff hcd).mp (hranges er her)
  have hdiv : b * size / size = b := Nat.mul_div_cancel b hsize
  have hcovers : er.Covers (b * size + 8) :=
    (mem_erasedBlocks_iff hsize hstart halign hlength).mp (by rwa [hdiv])
  refine ⟨⟨b * size, hdiv, fun hspared => hspared er her hcovers⟩, ?_⟩
  have hmax : cdOffset.toNat < UInt64.size := UInt64.toNat_lt_size _
  have hle : b ≤ b * size := Nat.le_mul_of_pos_right b hsize
  obtain ⟨-, hlt⟩ := hcovers
  omega

/-- What the repair passes to the codec. -/
theorem erasureIndices_within {fec : FecSettings} (hunit : fec.unitSize = size)
    (hparity : WithinParity fec erasures) :
    (erasureIndices 8 size erasures.archiveRanges).Nodup ∧
      ∀ group, ((erasureIndices 8 size erasures.archiveRanges).filter fun e =>
        e.index.toNat / fec.groupSize = group).length ≤ fec.parityUnits := by
  set blocks := ((erasures.archiveRanges.flatMap (erasedBlocks 8 size)).insertionSort
    (· ≤ ·)).dedup with hblocks
  have hnodup : blocks.Nodup := nodup_dedup _
  have herased : ∀ b ∈ blocks, erasures.Erases size b ∧ b < UInt64.size := by
    intro b hb
    rw [hblocks, mem_dedup, mem_insertionSort, mem_flatMap] at hb
    obtain ⟨er, her, hb⟩ := hb
    exact erases_of_mem_erasedBlocks hsize hcd hranges her hb
  have hindices : erasureIndices 8 size erasures.archiveRanges =
      blocks.map fun index => ⟨UInt64.ofNat index⟩ := rfl
  have htoNat : ∀ b ∈ blocks, (UInt64.ofNat b).toNat = b := fun b hb =>
    UInt64.toNat_ofNat_of_lt' (herased b hb).2
  refine ⟨?_, fun group => ?_⟩
  · rw [hindices]
    refine hnodup.map_on fun a ha b hb heq => ?_
    rw [← htoNat a ha, ← htoNat b hb]
    exact congrArg (fun e : Erasure => e.index.toNat) heq
  · rw [hindices, filter_map, length_map]
    refine hparity group _ (hnodup.filter _) fun b hb => ?_
    obtain ⟨hmem, hgroup⟩ := mem_filter.mp hb
    rw [Function.comp_apply, decide_eq_true_eq, htoNat b hmem] at hgroup
    exact ⟨hgroup, hunit ▸ (herased b hmem).1⟩

end Indices

/-! ### The archive and its damaged copy -/

/-- The protected range ends where the dictionary begins. -/
theorem protectedEnd_eq {archiveBytes : Bytes} {limits : ResourceLimits} {layout : ArchiveLayout}
    {cdOffset : UInt64} (h : parseArchiveLayout archiveBytes limits = .ok layout)
    (hcd : layout.cdOffset = some cdOffset) : protectedEnd archiveBytes = cdOffset.toNat := by
  obtain ⟨hfooter, hlt⟩ := parseFooter_of_layout h hcd
  rw [protectedEnd, ← toNat_cdOffset_eq hfooter]
  dsimp only
  omega

section Plans

variable {erasures : ErasureInput} {a b : Bytes} {limits : ResourceLimits}

/-- Ranges that are accepted for one of two copies lie in its protected range, so that the copies
have the same layout. -/
theorem DifferInside.layout_eq_of_plan (hdiffer : DifferInside erasures a b)
    (hheader : ∀ p < globalHeaderEnd a limits, erasures.Spares p) {plan : RecoveryPlan}
    (hplan : planArchiveRepair a erasures limits = .ok plan) :
    layoutRead a limits = layoutRead b limits := by
  obtain ⟨layout, hlayout, cdOffset, value, summary, hrecord, hranges, rfl⟩ :=
    planArchiveRepair_eq_ok_iff.mp hplan
  refine hdiffer.layoutRead_eq (fun p hp => ?_) (hdiffer.headerRead_eq hheader)
  rw [protectedEnd_eq hlayout hrecord.cdOffset_eq] at hp
  exact spares_of_accepted hrecord.lt_cdOffset.le hranges (Or.inr hp)

theorem DifferInside.globalHeaderEnd_eq (hdiffer : DifferInside erasures a b)
    (hheader : ∀ p < globalHeaderEnd a limits, erasures.Spares p) :
    globalHeaderEnd a limits = globalHeaderEnd b limits := by
  rw [globalHeaderEnd, globalHeaderEnd, ← hdiffer.parseGlobalHeader_eq hheader, hdiffer.length_eq]

end Plans

/-! ### Archives that can be repaired -/

/-- The archive has one RECOVERY record, computed of its own protected bytes under the given
settings. -/
structure Recoverable (fec : FecSettings) (file : Bytes) (flags : GlobalFlags) (cdOffset : UInt64)
    (value : Bytes) : Prop where
  layout : parseArchiveLayout file .unlimited = .ok ⟨flags, some cdOffset, [(fec.algoId, value)]⟩
  hasGlobalEc : flags.hasGlobalEc = true
  lt_cdOffset : 8 < cdOffset.toNat
  value_eq : fec.computeFecValue (protectedBytesOf file cdOffset) = .ok value
  workingSet_le : repairWorkingSet file value cdOffset ≤ u64Max

/-- The memory that the repair is accounted for is within the limit. -/
def WorkingSetFits (limits : ResourceLimits) (file : Bytes) : Prop :=
  ∀ layout cdOffset value summary, parseArchiveLayout file limits = .ok layout →
    RecoveryRecord layout limits cdOffset value summary →
      repairWorkingSet file value cdOffset ≤ limits.maxRepairWorkingSet

section Recoverable

variable {fec : FecSettings} {file damaged : Bytes} {flags : GlobalFlags} {cdOffset : UInt64}
  {value : Bytes} {limits : ResourceLimits} {erasures : ErasureInput}
  (h : Recoverable fec file flags cdOffset value)

include h

theorem Recoverable.length_protectedBytes :
    (protectedBytesOf file cdOffset).length = cdOffset.toNat - 8 := by
  have := (parseFooter_of_layout h.layout rfl).2
  rw [protectedBytesOf, length_take, length_drop]
  omega

/-- What a plan for the archive was made for. -/
theorem Recoverable.plan_eq_ok_iff {plan : RecoveryPlan} :
    planArchiveRepair file erasures limits = .ok plan ↔
      parseArchiveLayout file limits = .ok ⟨flags, some cdOffset, [(fec.algoId, value)]⟩ ∧
        (∃ summary, RecoveryRecord ⟨flags, some cdOffset, [(fec.algoId, value)]⟩ limits cdOffset
          value summary ∧ summary.algoId = fec.algoId ∧ summary.unitSize = fec.unitSize) ∧
        (∀ er ∈ erasures.archiveRanges,
          checkErasureRange (protectedRangeOf cdOffset fec.algoId) fec.unitSize er = .ok ()) ∧
        plan = ⟨erasures, protectedRangeOf cdOffset fec.algoId, fec.algoId⟩ := by
  rw [planArchiveRepair_eq_ok_iff]
  constructor
  · rintro ⟨layout, hlayout, cdOffset', value', summary, hrecord, hranges, rfl⟩
    obtain rfl := parseArchiveLayout_unique h.layout hlayout
    obtain rfl : cdOffset = cdOffset' := Option.some.inj hrecord.cdOffset_eq
    obtain ⟨halgo, rfl⟩ := Prod.mk.inj (Option.some.inj hrecord.first)
    have hunit : summary.unitSize = fec.unitSize := by
      obtain ⟨-, -, hsize⟩ := validateRecoveryTlv_eq_ok hrecord.valid
      rw [← halgo, FecSettings.blockSizeFromAlgo_computeFecValue h.value_eq] at hsize
      exact (ok.inj hsize).symm
    refine ⟨hlayout, ⟨summary, hrecord, halgo.symm, hunit⟩, ?_, ?_⟩
    · rw [halgo, ← hunit]
      exact hranges
    · rw [halgo]
  · rintro ⟨hlayout, ⟨summary, hrecord, halgo, hunit⟩, hranges, rfl⟩
    refine ⟨_, hlayout, cdOffset, value, summary, hrecord, ?_, ?_⟩
    · rw [halgo, hunit]
      exact hranges
    · rw [halgo]

/-- **Repair is exact.** A copy of the archive that differs from it inside the erased ranges only
is turned into the archive, when the ranges are accepted, keep clear of the Global Header and are
within the parity of each group. -/
theorem Recoverable.planAndRepair_eq (hdiffer : DifferInside erasures file damaged)
    (hheader : ∀ p < globalHeaderEnd file limits, erasures.Spares p)
    (hparity : WithinParity fec erasures) (hset : WorkingSetFits limits file)
    {plan : RecoveryPlan} (hplan : planArchiveRepair file erasures limits = .ok plan ∨
      planArchiveRepair damaged erasures limits = .ok plan) :
    planArchiveRepair damaged erasures limits = .ok plan ∧
      repairArchive damaged plan limits =
        .ok (file, ⟨true, erasures.archiveRanges, false, none⟩) := by
  have hsame : layoutRead file limits = layoutRead damaged limits := by
    rcases hplan with hplan | hplan
    · exact hdiffer.layout_eq_of_plan hheader hplan
    · rw [hdiffer.globalHeaderEnd_eq hheader] at hheader
      exact (hdiffer.symm.layout_eq_of_plan hheader hplan).symm
  have hfile : planArchiveRepair file erasures limits = .ok plan := by
    rwa [planArchiveRepair_eq_layoutRead damaged, ← hsame, ← planArchiveRepair_eq_layoutRead,
      or_self] at hplan
  -- the codec does not look at the damage, so the archive may stand in for its copy
  refine ⟨by rwa [planArchiveRepair_eq_layoutRead, ← hsame, ← planArchiveRepair_eq_layoutRead],
    (hdiffer.repairArchive_eq hsame hfile).symm.trans ?_⟩
  obtain ⟨hlayout, ⟨summary, hrecord, halgo, hunit⟩, hranges, rfl⟩ := h.plan_eq_ok_iff.mp hfile
  have hcd := hrecord.lt_cdOffset
  obtain ⟨-, hpos, -⟩ := validateRecoveryTlv_eq_ok hrecord.valid
  rw [hunit] at hpos
  obtain ⟨hnodup, hcount⟩ := erasureIndices_within hpos hcd.le hranges rfl hparity
  have hrecover := FecSettings.recoverWith_computeFecValue h.value_eq rfl (fun _ _ _ => rfl)
    hnodup hcount
  have hlen : UInt64.ofNat (protectedBytesOf file cdOffset).length = cdOffset - protectedStart := by
    rw [h.length_protectedBytes, ← toNat_protectedLength hcd.le, UInt64.ofNat_toNat]
  rw [hlen] at hrecover
  rw [← halgo]
  refine (repairArchive_eq_ok_iff hlayout hrecord).mpr ⟨hlayout, hrecord.range_le, h.workingSet_le,
    hset _ _ _ _ hlayout hrecord, protectedBytesOf file cdOffset, ?_, ?_⟩
  · rw [halgo, hunit]
    exact hrecover
  · have hsplit : file.drop cdOffset.toNat = (file.drop 8).drop (cdOffset.toNat - 8) := by
      rw [drop_drop, Nat.add_sub_cancel' hcd.le]
    rw [protectedBytesOf, hsplit, take_append_drop, take_append_drop]

end Recoverable

/-! ### Which damage can be described -/

/-- Neither planning nor repairing is refused for the archive as such. -/
def NotBinding (limits : ResourceLimits) (file : Bytes) : Prop :=
  (∃ plan, planArchiveRepair file ⟨[], []⟩ limits = .ok plan) ∧ WorkingSetFits limits file

/-- The position lies in one of the blocks of the protected range. -/
def InBlocks (size protEnd : ℕ) (blocks : Finset ℕ) (p : ℕ) : Prop :=
  8 ≤ p ∧ p < protEnd ∧ (p - 8) / size ∈ blocks

/-- Two archives of one length that only differ inside the blocks. -/
structure DifferInBlocks (size protEnd : ℕ) (blocks : Finset ℕ)
    (archiveBytes archiveBytes' : Bytes) :
    Prop where
  length_eq : archiveBytes.length = archiveBytes'.length
  getElem?_eq : ∀ p, ¬ InBlocks size protEnd blocks p → archiveBytes[p]? = archiveBytes'[p]?

/-- The range of one block. -/
def blockRange (size b : ℕ) : ErasureRange := ⟨UInt64.ofNat (8 + b * size), UInt64.ofNat size⟩

/-- One range for each block. -/
def blockErasures (size : ℕ) (blocks : Finset ℕ) : ErasureInput :=
  ⟨[], (blocks.sort (· ≤ ·)).map (blockRange size)⟩

theorem mem_blockErasures {size : ℕ} {blocks : Finset ℕ} {er : ErasureRange} :
    er ∈ (blockErasures size blocks).archiveRanges ↔ ∃ b ∈ blocks, blockRange size b = er := by
  simp only [blockErasures, mem_map, Finset.mem_sort]

section Blocks

variable {size : ℕ} {cdOffset : UInt64}

/-- A whole block of the protected range. -/
theorem toNat_blockRange {b : ℕ} (h : 8 + (b + 1) * size ≤ cdOffset.toNat) :
    (blockRange size b).offset.toNat = 8 + b * size ∧ (blockRange size b).length.toNat = size ∧
      8 + b * size + size ≤ cdOffset.toNat := by
  have hmax : cdOffset.toNat < UInt64.size := UInt64.toNat_lt_size _
  rw [Nat.add_mul, Nat.one_mul] at h
  refine ⟨UInt64.toNat_ofNat_of_lt' ?_, UInt64.toNat_ofNat_of_lt' ?_, by omega⟩
  · omega
  · omega

variable {blocks : Finset ℕ} (hwhole : ∀ b ∈ blocks, 8 + (b + 1) * size ≤ cdOffset.toNat)

include hwhole

theorem checkErasureRange_blockErasures {algoId : UInt8} (hcd : 8 ≤ cdOffset.toNat)
    {er : ErasureRange} (her : er ∈ (blockErasures size blocks).archiveRanges) :
    checkErasureRange (protectedRangeOf cdOffset algoId) size er = .ok () := by
  obtain ⟨b, hb, rfl⟩ := mem_blockErasures.mp her
  obtain ⟨hoffset, hlength, hle⟩ := toNat_blockRange (hwhole b hb)
  refine (checkErasureRange_eq_ok_iff hcd).mpr ⟨by omega, by omega, ?_, ?_⟩
  · rw [hoffset, Nat.add_sub_cancel_left, Nat.mul_mod_left]
  · rw [hlength, Nat.mod_self]

/-- The ranges cover the bytes of the blocks and no others. -/
theorem not_spares_blockErasures_iff (hsize : 0 < size) {p : ℕ} :
    ¬ (blockErasures size blocks).Spares p ↔ InBlocks size cdOffset.toNat blocks p := by
  simp only [ErasureInput.Spares, not_forall, not_not]
  constructor
  · rintro ⟨er, her, hlow, hhigh⟩
    obtain ⟨b, hb, rfl⟩ := mem_blockErasures.mp her
    obtain ⟨hoffset, hlength, hle⟩ := toNat_blockRange (hwhole b hb)
    have hdiv : (p - 8) / size = b := by
      refine Nat.div_eq_of_lt_le ?_ ?_
      · omega
      · rw [Nat.add_mul, Nat.one_mul]
        omega
    exact ⟨by omega, by omega, by rwa [hdiv]⟩
  · rintro ⟨hlow, -, hmem⟩
    obtain ⟨hoffset, hlength, -⟩ := toNat_blockRange (hwhole _ hmem)
    refine ⟨_, mem_blockErasures.mpr ⟨_, hmem, rfl⟩, ?_, ?_⟩
    · have := Nat.div_mul_le_self (p - 8) size
      omega
    · have := Nat.lt_div_mul_add (a := p - 8) hsize
      omega

/-- If each group has few enough of the blocks, the ranges are within the parity. -/
theorem withinParity_blockErasures {fec : FecSettings} (hunit : fec.unitSize = size)
    (hsize : 0 < size)
    (hfew : ∀ group, (blocks.filter fun b => b / fec.groupSize = group).card ≤ fec.parityUnits) :
    WithinParity fec (blockErasures size blocks) := by
  intro group erased hnodup hall
  rw [← toFinset_card_of_nodup hnodup]
  refine (Finset.card_le_card fun b hb => ?_).trans (hfew group)
  obtain ⟨hgroup, i, hi, hcovered⟩ := hall b (mem_toFinset.mp hb)
  obtain ⟨-, -, hmem⟩ := (not_spares_blockErasures_iff hwhole hsize).mp hcovered
  rw [Nat.add_sub_cancel, ← hunit, hi] at hmem
  exact Finset.mem_filter.mpr ⟨hmem, hgroup⟩

end Blocks

section Recoverable

variable {fec : FecSettings} {file : Bytes} {flags : GlobalFlags} {cdOffset : UInt64}
  {value : Bytes} {limits : ResourceLimits} {blocks : Finset ℕ}
  (h : Recoverable fec file flags cdOffset value)

include h

/-- The limits of an unlimited configuration do not bind. -/
theorem Recoverable.notBinding_unlimited : NotBinding .unlimited file := by
  have hmax : cdOffset.toNat ≤ u64Max := Nat.le_of_lt_succ (UInt64.toNat_lt _)
  have hvalue : value.length ≤ u64Max := by
    have := h.workingSet_le
    rw [repairWorkingSet] at this
    omega
  have hbytes : (protectedBytesOf file cdOffset).length ≤ u64Max := by
    rw [h.length_protectedBytes]
    omega
  obtain ⟨summary, hsummary⟩ := @FecSettings.validateRecoveryTlv_computeFecValue fec _ value
    .unlimited hbytes hvalue h.value_eq
  obtain ⟨halgo, -, hunit⟩ := validateRecoveryTlv_eq_ok hsummary
  rw [FecSettings.blockSizeFromAlgo_computeFecValue h.value_eq] at hunit
  have hrecord : RecoveryRecord ⟨flags, some cdOffset, [(fec.algoId, value)]⟩ .unlimited cdOffset
      value summary := by
    refine ⟨h.hasGlobalEc, rfl, h.lt_cdOffset, ?_, ?_, ?_, fun tlv htlv => ?_⟩
    · exact (Nat.sub_le _ _).trans hmax
    · rw [halgo]
      rfl
    · rw [halgo]
      exact hsummary
    · obtain rfl := mem_singleton.mp htlv
      exact ⟨summary, hsummary⟩
  refine ⟨⟨_, h.plan_eq_ok_iff.mpr ⟨h.layout, ⟨summary, hrecord, halgo,
    (ok.inj hunit).symm⟩, by simp, rfl⟩⟩, ?_⟩
  intro layout cdOffset' value' summary' hlayout hrecord'
  obtain rfl := parseArchiveLayout_unique h.layout hlayout
  obtain rfl : cdOffset = cdOffset' := Option.some.inj hrecord'.cdOffset_eq
  obtain ⟨-, rfl⟩ := Prod.mk.inj (Option.some.inj hrecord'.first)
  exact h.workingSet_le

/-- Whole blocks of the protected range are accepted. -/
theorem Recoverable.plan_blockErasures (hbind : NotBinding limits file)
    (hwhole : ∀ b ∈ blocks, 8 + (b + 1) * fec.unitSize ≤ cdOffset.toNat) :
    0 < fec.unitSize ∧
      ∃ plan, planArchiveRepair file (blockErasures fec.unitSize blocks) limits = .ok plan := by
  obtain ⟨⟨plan, hplan⟩, -⟩ := hbind
  obtain ⟨hlayout, ⟨summary, hrecord, halgo, hunit⟩, -, -⟩ := h.plan_eq_ok_iff.mp hplan
  have hpos := (validateRecoveryTlv_eq_ok hrecord.valid).2.1
  rw [hunit] at hpos
  refine ⟨hpos, _, h.plan_eq_ok_iff.mpr ⟨hlayout, ⟨summary, hrecord, halgo, hunit⟩,
    fun er her => ?_, rfl⟩⟩
  exact checkErasureRange_blockErasures hwhole h.lt_cdOffset.le her

/-- Accepted ranges that cover a block cover it with its end: no partial block is covered. -/
theorem Recoverable.whole_of_covered {erasures : ErasureInput} {plan : RecoveryPlan}
    (hplan : planArchiveRepair file erasures limits = .ok plan)
    (hcovered : ∀ p, InBlocks fec.unitSize cdOffset.toNat blocks p → ¬ erasures.Spares p) {b : ℕ}
    (hb : b ∈ blocks) (hinside : 8 + b * fec.unitSize < cdOffset.toNat) :
    8 + (b + 1) * fec.unitSize ≤ cdOffset.toNat := by
  obtain ⟨-, ⟨summary, hrecord, -, hunit⟩, hranges, -⟩ := h.plan_eq_ok_iff.mp hplan
  have hpos := (validateRecoveryTlv_eq_ok hrecord.valid).2.1
  rw [hunit] at hpos
  have hdiv : (8 + b * fec.unitSize - 8) / fec.unitSize = b := by
    rw [Nat.add_sub_cancel_left, Nat.mul_div_cancel _ hpos]
  have hspared := hcovered (8 + b * fec.unitSize)
    ⟨Nat.le_add_right _ _, hinside, by rwa [hdiv]⟩
  simp only [ErasureInput.Spares, not_forall, not_not] at hspared
  obtain ⟨er, her, hlow, hhigh⟩ := hspared
  obtain ⟨hstart, hend, halign, hlength⟩ :=
    (checkErasureRange_eq_ok_iff h.lt_cdOffset.le).mp (hranges er her)
  -- the range ends on a multiple of the block size, behind the first byte of the block
  obtain ⟨first, hfirst⟩ := Nat.dvd_of_mod_eq_zero halign
  obtain ⟨count, hcount⟩ := Nat.dvd_of_mod_eq_zero hlength
  have hlt : fec.unitSize * b < fec.unitSize * (first + count) := by
    rw [Nat.mul_add, ← hfirst, ← hcount, Nat.mul_comm]
    omega
  have hle : fec.unitSize * (b + 1) ≤ fec.unitSize * (first + count) :=
    Nat.mul_le_mul_left _ (Nat.lt_of_mul_lt_mul_left hlt)
  rw [Nat.mul_add _ first, ← hfirst, ← hcount, Nat.mul_comm] at hle
  omega

/-- **Whole blocks are repaired**, as many of them in each group as there is parity for. -/
theorem Recoverable.repair_blocks (hbind : NotBinding limits file)
    (hheader : ∀ b ∈ blocks, globalHeaderEnd file limits ≤ 8 + b * fec.unitSize)
    (hwhole : ∀ b ∈ blocks, 8 + (b + 1) * fec.unitSize ≤ cdOffset.toNat)
    (hfew : ∀ group, (blocks.filter fun b => b / fec.groupSize = group).card ≤ fec.parityUnits) :
    ∃ erasures plan, planArchiveRepair file erasures limits = .ok plan ∧
      (∀ p, InBlocks fec.unitSize cdOffset.toNat blocks p → ¬ erasures.Spares p) ∧
      ∀ damaged, DifferInBlocks fec.unitSize cdOffset.toNat blocks file damaged →
        planArchiveRepair damaged erasures limits = .ok plan ∧
          repairArchive damaged plan limits =
            .ok (file, ⟨true, erasures.archiveRanges, false, none⟩) := by
  obtain ⟨hpos, plan, hplan⟩ := h.plan_blockErasures hbind hwhole
  have hspares := fun p => not_spares_blockErasures_iff hwhole hpos (p := p)
  refine ⟨_, plan, hplan, fun p hp => (hspares p).mpr hp, fun damaged hdamaged => ?_⟩
  have hdiffer : DifferInside (blockErasures fec.unitSize blocks) file damaged :=
    ⟨hdamaged.length_eq, fun p hp => hdamaged.getElem?_eq p fun hin => (hspares p).mpr hin hp⟩
  refine h.planAndRepair_eq hdiffer (fun p hp => ?_)
    (withinParity_blockErasures hwhole rfl hpos hfew) hbind.2 (.inl hplan)
  by_contra hcovered
  obtain ⟨hlow, -, hmem⟩ := (hspares p).mp hcovered
  have hfirst := hheader _ hmem
  have := Nat.div_mul_le_self (p - 8) fec.unitSize
  omega

end Recoverable

end Sar
