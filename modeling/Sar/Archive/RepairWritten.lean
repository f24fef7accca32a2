import Sar.Archive.FailedCalls
import Sar.Archive.RepairExact
import Sar.Archive.WrittenIndex

/-!
# Written archives can be repaired

An archive that was finished with archive-level recovery is `Recoverable`: its Central Dictionary
holds one RECOVERY record, computed of everything from the global flags up to the dictionary
(`Consistent.recoverable`). What follows for damaged copies was said in general.

## Main results

* `repair_of_written` — repair gives the archive back.
* `repair_blocks_of_written` — the blocks that can be repaired are the whole ones.
-/

namespace Sar

open Except (rejectIf ok_bind)
open Stateful List

/-- The layout of a file with an index behind the bytes `before`. -/
theorem parseIndexedLayout_written {before cdBytes : Bytes} {flags : GlobalFlags}
    {limits : ResourceLimits} {cd : CentralDictionary} (hbefore : before.length ≤ u64Max)
    (hcd : writeCentralDictionary cd flags = .ok cdBytes)
    (hversion : cd.version = supportedCdVersion)
    (hallowed : DictionaryAllowed limits cd
      (cdBytes.length + indexPadding before.length cdBytes.length)) :
    parseIndexedLayout (before ++ ArchiveWriter.indexBytes before.length cdBytes) flags limits =
      .ok ⟨flags, some (UInt64.ofNat before.length),
        ((cd.onWire flags).tlvs.filter fun tlv => 0x10 ≤ tlv.typeId ∧ tlv.typeId ≤ 0x1F).map
          fun tlv => (tlv.typeId, tlv.value)⟩ := by
  have hlength := length_written before cdBytes
  have hpos := length_pos_of_writeCentralDictionary hcd
  have hslice := dictionary_written before cdBytes
  have hfooter := footer_written before cdBytes
  have hregion : (before ++ ArchiveWriter.indexBytes before.length cdBytes).length - 8 -
      before.length = cdBytes.length + indexPadding before.length cdBytes.length := by
    omega
  generalize before ++ ArchiveWriter.indexBytes before.length cdBytes = file at *
  rw [parseIndexedLayout, Except.rejectIf_bind (by omega)]
  dsimp only
  rw [hfooter, parseFooter_writeFooter, ok_bind]
  dsimp only
  rw [toNat_uint64_ofNat hbefore, Except.rejectIf_bind (by omega), hslice, hregion,
    ResourceLimits.checkCdBytes, ResourceLimits.atMost_of_le _ hallowed.region, ok_bind,
    parseCentralDictionary_written hcd hversion _ hallowed]
  rfl

namespace ArchiveWriter

variable {backend : Backend} {options : ArchiveWriterOptions} {compression : CompressionSettings}
  {keyProvider : Option KeyProvider} {cdMetadata : List Tlv}
  {encryption : Option ResolvedEncryption} {w : ArchiveWriter} {stored : List Sealed}
  {fec : FecSettings}

/-- The records of a dictionary are not more than its bytes. -/
theorem length_le_tlvsLen (tlvs : List Tlv) :
    tlvs.length ≤ tlvsLen tlvs ∧ ∀ tlv ∈ tlvs, tlv.value.length ≤ tlvsLen tlvs := by
  induction tlvs with
  | nil => exact ⟨Nat.zero_le _, fun _ hmem => nomatch hmem⟩
  | cons tlv tlvs ih =>
    have hlen : tlvsLen (tlv :: tlvs) = tlvLen tlv.value.length + tlvsLen tlvs := by
      rw [tlvsLen, map_cons, sum_cons, tlvsLen]
    have htlv : tlv.value.length + 5 ≤ tlvLen tlv.value.length := by
      rw [tlvLen]
      omega
    rw [hlen]
    refine ⟨?_, fun tlv' htlv' => ?_⟩
    · rw [length_cons]
      omega
    · rcases mem_cons.mp htlv' with rfl | htlv'
      · omega
      · have := ih.2 tlv' htlv'
        omega

section Consistent

variable (h : Consistent backend options compression keyProvider cdMetadata encryption w stored)

include h

/-- There are no more offsets than bytes in the sink. -/
theorem Consistent.length_offsets_le :
    w.offsets.length ≤ w.writer.length := by
  rcases h.begun with ⟨hfresh, -⟩ | ⟨headerBytes, hholds⟩
  · rw [hfresh.offsets]
    exact Nat.zero_le _
  · obtain ⟨hpairwise, hbounds⟩ := offsetsFrom_pairwise headerBytes.length h.nonempty
    rw [← hholds.offsets] at hpairwise hbounds
    have hle := length_le_of_pairwise hpairwise hbounds
    rw [hholds.writer, length_append]
    omega

variable (hrecovery : options.archiveRecovery = some fec)

include hrecovery

/-- The RECOVERY record of a writer whose header is out. -/
theorem Consistent.recoveryMetadata_eq {tlvs : List Tlv} (htlvs : w.recoveryMetadata = .ok tlvs) :
    ∃ value, fec.computeFecValue (w.writer.drop 8) = .ok value ∧ tlvs = [⟨fec.algoId, value⟩] := by
  obtain ⟨hsome, hsettings⟩ := h.writtenUnder.archiveRecovery
  obtain ⟨r, hrec⟩ := Option.isSome_iff_exists.mp
    (hsome.trans (Option.isSome_iff_exists.mpr ⟨fec, hrecovery⟩))
  obtain rfl : r.settings = fec := Option.some.inj ((hsettings r hrec).1.symm.trans hrecovery)
  obtain ⟨-, -, hseen⟩ := h.tracks r hrec
  simp only [recoveryMetadata, hrec, Except.bind_eq_ok_iff, Except.exists_unit, Except.pure_eq_ok,
    Except.ok.injEq] at htlvs
  obtain ⟨-, -, value, hvalue, rfl⟩ := htlvs
  rw [hseen] at hvalue
  exact ⟨value, hvalue, rfl⟩

/-- Of all records only the computed one is a RECOVERY record. -/
theorem Consistent.filter_recoveryTlvs (value : Bytes) :
    ((w.cdMetadata ++ [(⟨fec.algoId, value⟩ : Tlv)]).filter
      fun tlv => 0x10 ≤ tlv.typeId ∧ tlv.typeId ≤ 0x1F) = [⟨fec.algoId, value⟩] := by
  have hsome : options.archiveRecovery.isSome = true := by rw [hrecovery]; rfl
  have hgiven : ∀ tlv ∈ w.cdMetadata, ¬ (0x10 ≤ tlv.typeId ∧ tlv.typeId ≤ 0x1F) := by
    intro tlv htlv hrange
    rw [h.writtenUnder.cdMetadata_eq] at htlv
    have hany := h.admitted.recoveryTlvs hsome
    rw [any_eq_false] at hany
    exact hany tlv htlv (by simpa [isRecoveryTlv] using hrange)
  have halgo : 0x10 ≤ fec.algoId ∧ fec.algoId ≤ 0x1F := by
    rcases FecSettings.algoId_of_withCodec
      (h.writtenUnder.configured.recovery_valid _ hrecovery) with hfec | hfec
    all_goals
      rw [hfec]
      decide
  rw [filter_append, filter_eq_nil_iff.mpr (by simpa using hgiven), nil_append,
    filter_cons_of_pos (by simpa using halgo), filter_nil]

/-- The sizes of an archive with archive-level recovery: the protected part is within what the
writer keeps in memory, and the dictionary has a record length of 32 bits. -/
theorem Consistent.sizes {value cdBytes : Bytes}
    (hcd : writeCentralDictionary { w.centralDictionaryOf with tlvs := w.cdMetadata ++
      [⟨fec.algoId, value⟩] } w.flags = .ok cdBytes) :
    w.writer.length ≤ 2 ^ 30 + 8 ∧ cdBytes.length ≤ 2 ^ 36 ∧
      (w.cdMetadata ++ [(⟨fec.algoId, value⟩ : Tlv)]).length ≤ 2 ^ 32 ∧
      ∀ tlv ∈ w.cdMetadata ++ [⟨fec.algoId, value⟩], tlv.value.length ≤ 2 ^ 32 := by
  have hsome : options.archiveRecovery.isSome = true := by rw [hrecovery]; rfl
  obtain ⟨hpart, hcrc, -, hopt⟩ := h.writtenUnder.flags_bits
  have hpresent : w.flags.optPresent = true := by rw [hopt, hsome, Bool.or_true]
  -- the protected part
  obtain ⟨r, hrec⟩ := Option.isSome_iff_exists.mp (h.writtenUnder.archiveRecovery.1.trans hsome)
  obtain ⟨-, -, hseen⟩ := h.tracks r hrec
  have hprotected := h.bounded r hrec
  rw [hseen, length_drop] at hprotected
  have hlimit : ResourceLimits.default.maxInMemoryBuffer = 2 ^ 30 := by decide
  have hstart : globalHeaderFlagsOffset = 8 := rfl
  have hwriter : w.writer.length ≤ 2 ^ 30 + 8 := by omega
  -- the dictionary
  obtain ⟨-, hrecords, -, -, hcdLen⟩ :=
    (exists_writeCentralDictionary_iff _ _ hpart hcrc).mp ⟨cdBytes, hcd, rfl⟩
  have hmeta : tlvsLen (w.cdMetadata ++ [⟨fec.algoId, value⟩]) < 2 ^ 32 := (hrecords hpresent).2
  obtain ⟨hcount, hvalues⟩ := length_le_tlvsLen (w.cdMetadata ++ [⟨fec.algoId, value⟩])
  have hfields : sizeFieldLen w.flags ≤ 8 := by
    rw [sizeFieldLen]
    split <;> decide
  have hoffsets : w.offsets.length * sizeFieldLen w.flags ≤ (2 ^ 30 + 8) * 8 :=
    Nat.mul_le_mul (h.length_offsets_le.trans hwriter) hfields
  refine ⟨hwriter, ?_, by omega, fun tlv htlv => (hvalues tlv htlv).trans (by omega)⟩
  rw [← hcdLen, cdLen, cdMetadataLen, hpresent, if_pos rfl]
  dsimp only [centralDictionaryOf]
  rw [length_map]
  omega

/-- **A finished archive with archive-level recovery can be repaired.** -/
theorem Consistent.recoverable {summary : ArchiveSummary} {finished : ArchiveWriter}
    (hfinish : finish w = (.ok summary, finished)) :
    ∃ flags cdOffset value, Recoverable fec finished.writer flags cdOffset value := by
  have hsome : options.archiveRecovery.isSome = true := by rw [hrecovery]; rfl
  obtain ⟨w₁, headerBytes, index, hemit, -, hholds, hindex, hwriter, -⟩ := h.begun.finish hfinish
  obtain ⟨-, -, rfl⟩ := h.emit_eq_ok_iff.mp hemit
  have hw := h.opened hemit
  generalize w.opened = w₁ at *
  obtain ⟨-, -, hno, hopt⟩ := hw.writtenUnder.flags_bits
  have hindexed : w₁.flags.noIndex = false := by
    rw [hno, ← Bool.not_eq_true]
    intro hno
    rw [(h.admitted.unindexed hno).2] at hsome
    cases hsome
  rcases hindex with ⟨hnoIndex, -⟩ | ⟨-, tlvs, cdBytes, htlvs, hcd, hle, rfl⟩
  · cases hindexed.symm.trans hnoIndex
  obtain ⟨value, hvalue, rfl⟩ := hw.recoveryMetadata_eq hrecovery htlvs
  obtain ⟨hwriterLen, hcdBytes, hcount, hvalues⟩ := hw.sizes hrecovery hcd
  rw [hholds.position] at hwriter
  obtain ⟨-, hlong⟩ := hholds.length_headerBytes
  have hmax : (2 : ℕ) ^ 40 ≤ u64Max ∧ (2 : ℕ) ^ 40 ≤ isizeMax / 8 := by decide
  have hpad : indexPadding w₁.writer.length cdBytes.length < 8 := Nat.mod_lt _ (by decide)
  have hfile : finished.writer.length = w₁.writer.length + cdBytes.length +
      indexPadding w₁.writer.length cdBytes.length + 8 := by
    rw [hwriter, length_written]
  have hoffset : (UInt64.ofNat w₁.writer.length).toNat = w₁.writer.length :=
    toNat_uint64_ofNat (by omega)
  have hheaderLen : headerBytes.length ≤ w₁.writer.length := by
    rw [hholds.writer, length_append]
    exact Nat.le_add_right _ _
  refine ⟨w₁.flags, UInt64.ofNat w₁.writer.length, value, ?_, ?_, ?_, ?_, ?_⟩
  · -- the layout
    have hkms : ∀ kms ∈ w₁.headerKms,
        kms.payload.length ≤ ResourceLimits.unlimited.maxKmsPayloadBytes := by
      intro kms hkms
      obtain ⟨-, -, -, hshort, -⟩ := writeGlobalHeader_globalHeaderOf.mp hholds.header
      exact (hshort kms hkms).le.trans (by decide)
    have hheader := parseGlobalHeader_written hw.writtenUnder hholds.header (by decide) hkms
      (stored.flatMap Sealed.bytes ++ indexBytes w₁.writer.length cdBytes)
    rw [← append_assoc, ← hholds.writer, ← hwriter] at hheader
    have hallowed : DictionaryAllowed .unlimited { w₁.centralDictionaryOf with
        tlvs := w₁.cdMetadata ++ [⟨fec.algoId, value⟩] }
        (cdBytes.length + indexPadding w₁.writer.length cdBytes.length) := by
      have hoffsets := hw.length_offsets_le
      have hsmall : (2 : ℕ) ^ 32 ≤ u64Max := by decide
      refine ⟨?_, fun tlv htlv => (hvalues tlv htlv).trans hsmall, hcount.trans hsmall, ⟨?_, ?_⟩,
        ?_, ?_⟩
      · change _ ≤ u64Max
        omega
      · change _ ≤ u64Max
        omega
      · change _ ≤ u64Max
        omega
      · change (List.map UInt64.ofNat w₁.offsets).length ≤ u64Max
        rw [length_map]
        omega
      · change (List.map UInt64.ofNat w₁.offsets).length ≤ _
        rw [length_map]
        omega
    have hlayout := parseIndexedLayout_written (by omega) hcd rfl hallowed
    have hpresent : w₁.flags.optPresent = true := by rw [hopt, hsome, Bool.or_true]
    rw [← hwriter] at hlayout
    have hsize : ¬ finished.writer.length > ResourceLimits.unlimited.maxArchiveSize := by
      change ¬ finished.writer.length > u64Max
      omega
    rw [parseArchiveLayout, ResourceLimits.checkArchiveSize,
      Except.rejectIf_bind fun hover => hsize hover.2, hheader, ok_bind]
    change (if w₁.flags.noIndex = true then _ else _) = _
    rw [if_neg (by rw [hindexed]; exact Bool.false_ne_true)]
    refine hlayout.trans ?_
    rw [CentralDictionary.onWire, hpresent, if_pos rfl, hw.filter_recoveryTlvs hrecovery]
    rfl
  · have hflag := congrArg GlobalFlags.hasGlobalEc hw.writtenUnder.flags_eq
    exact hflag.trans (by rw [flagsOfOptions, hsome, Bool.true_or])
  · rw [hoffset]
    omega
  · have hbytes : protectedBytesOf finished.writer (UInt64.ofNat w₁.writer.length) =
        w₁.writer.drop 8 := by
      rw [protectedBytesOf, hoffset, hwriter, drop_append_of_le_length (by omega),
        take_left' (by rw [length_drop])]
    rw [hbytes]
    exact hvalue
  · have hvalueLen : value.length ≤ 2 ^ 32 :=
      hvalues ⟨fec.algoId, value⟩ (mem_append_right _ mem_cons_self)
    rw [repairWorkingSet, hoffset]
    omega

end Consistent

/-- Whatever was called before, an archive that `finish` completes can be repaired. -/
theorem recoverable_of_finish {calls : List Call} {start finished : ArchiveWriter}
    {summary : ArchiveSummary}
    (hnew : newWithCompressionKeyProviderAndCdMetadata backend options compression keyProvider
      cdMetadata = .ok start)
    (hrecovery : options.archiveRecovery = some fec)
    (hfinish : finish (runEach backend calls start).2 = (.ok summary, finished)) :
    ∃ flags cdOffset value, Recoverable fec finished.writer flags cdOffset value := by
  have hsome : options.archiveRecovery.isSome = true := by rw [hrecovery]; rfl
  obtain ⟨encryption, hstart⟩ := consistent_initial hnew
  obtain ⟨stored, hconsistent⟩ := hstart.runEach_of_finish hsome hfinish
  exact hconsistent.recoverable hrecovery hfinish

/-! ### Damaged copies of written archives -/

/-- **Repair gives the archive back.** A copy of a finished archive that differs from it inside
the erased ranges only is turned into the archive, when the ranges are accepted, keep clear of the
Global Header and are within the parity of each group, and the limits do not bind. -/
theorem repair_of_written (options : ArchiveWriterOptions) (compression : CompressionSettings)
    (keyProvider : Option KeyProvider) (cdMetadata : List Tlv) (calls : List Call)
    (fec : FecSettings) (start finished : ArchiveWriter) (summary : ArchiveSummary)
    (limits : ResourceLimits) (erasures : ErasureInput) (damaged : Bytes) (plan : RecoveryPlan)
    (hnew : newWithCompressionKeyProviderAndCdMetadata backend options compression keyProvider
      cdMetadata = .ok start)
    (hrecovery : options.archiveRecovery = some fec)
    (hfinish : finish (runEach backend calls start).2 = (.ok summary, finished))
    (hheader : ∀ p < globalHeaderEnd finished.writer limits, erasures.Spares p)
    (hparity : WithinParity fec erasures) (hset : WorkingSetFits limits finished.writer)
    (hdiffer : DifferInside erasures finished.writer damaged)
    (hplan : planArchiveRepair finished.writer erasures limits = .ok plan ∨
      planArchiveRepair damaged erasures limits = .ok plan) :
    planArchiveRepair damaged erasures limits = .ok plan ∧
      repairArchive damaged plan limits =
        .ok (finished.writer, ⟨true, erasures.archiveRanges, false, none⟩) := by
  obtain ⟨flags, cdOffset, value, h⟩ := recoverable_of_finish hnew hrecovery hfinish
  exact h.planAndRepair_eq hdiffer hheader hparity hset hplan

/-- An indexed archive with archive-level recovery: one parity symbol for every two symbols of
four bytes. -/
def symbolOptions : ArchiveWriterOptions :=
  { noIndex := false, archiveRecovery := some ⟨fecAlgoReedSolomon, 2, 1, 4⟩ }

/-- An ordinary entry of two bytes. -/
def symbolCalls : List Call :=
  [.addEntry (fun _ => Octets.zero 24) (plainEntry [1, 2] (by decide))]

/-- An archive of one entry; its protected range ends within a symbol. -/
def symbolRun : Except SarError ArchiveSummary × ArchiveWriter :=
  finish (runEach Backend.plain symbolCalls (initial symbolOptions .store none [])).2

theorem symbolRun_fst : symbolRun.1 = .ok ⟨1, 104, true⟩ := by
  decide +kernel

theorem ends_symbolRun : protectedEnd symbolRun.2.writer = 35 ∧
    globalHeaderEnd symbolRun.2.writer .unlimited = 12 ∧
    globalHeaderEnd symbolRun.2.writer .default = 12 := by
  decide +kernel

/-- The archive without its bytes: what the proofs below need of it. -/
theorem recoverable_symbolRun :
    ∃ finished flags cdOffset value, symbolRun = (.ok ⟨1, 104, true⟩, finished) ∧
      finish (runEach Backend.plain symbolCalls (initial symbolOptions .store none [])).2 =
        (.ok ⟨1, 104, true⟩, finished) ∧
      Recoverable ⟨fecAlgoReedSolomon, 2, 1, 4⟩ finished.writer flags cdOffset value ∧
      protectedEnd finished.writer = 35 ∧ cdOffset.toNat = 35 ∧
      globalHeaderEnd finished.writer .unlimited = 12 ∧
      globalHeaderEnd finished.writer .default = 12 := by
  have hfst := symbolRun_fst
  obtain ⟨hend, hunlimited, hdefault⟩ := ends_symbolRun
  have hrun : finish (runEach Backend.plain symbolCalls (initial symbolOptions .store none [])).2 =
      symbolRun := by
    rw [symbolRun]
  generalize symbolRun = run at *
  obtain ⟨result, finished⟩ := run
  obtain rfl : result = .ok ⟨1, 104, true⟩ := hfst
  have hnew :
      newWithCompressionKeyProviderAndCdMetadata Backend.plain symbolOptions .store none [] =
      .ok (initial symbolOptions .store none []) := rfl
  obtain ⟨flags, cdOffset, value, h⟩ := recoverable_of_finish hnew rfl hrun
  exact ⟨finished, flags, cdOffset, value, rfl, hrun, h, hend,
    (protectedEnd_eq h.layout rfl).symm.trans hend, hunlimited, hdefault⟩

/-- The sixth symbol, with both bytes of the payload behind it. -/
def symbolErasures : ErasureInput := blockErasures 4 {5}

/-- The archive is given back when the last byte of the sixth symbol is lost. -/
theorem repair_of_written_symbolRun :
    ∃ finished plan, symbolRun = (.ok ⟨1, 104, true⟩, finished) ∧
      finished.writer.set 31 9 ≠ finished.writer ∧
      planArchiveRepair (finished.writer.set 31 9) symbolErasures .unlimited = .ok plan ∧
      repairArchive (finished.writer.set 31 9) plan .unlimited =
        .ok (finished.writer, ⟨true, symbolErasures.archiveRanges, false, none⟩) := by
  have hchanged : symbolRun.2.writer.set 31 9 ≠ symbolRun.2.writer := by decide +kernel
  obtain ⟨finished, flags, cdOffset, value, heq, hrun, h, -, hend, hheader, -⟩ :=
    recoverable_symbolRun
  rw [heq] at hchanged
  have hwhole : ∀ b ∈ ({5} : Finset ℕ), 8 + (b + 1) * 4 ≤ cdOffset.toNat := by
    intro b hb
    rw [Finset.mem_singleton.mp hb, hend]
    decide
  have hspares := fun p => not_spares_blockErasures_iff hwhole (by decide) (p := p)
  obtain ⟨-, plan, hplan⟩ := h.plan_blockErasures h.notBinding_unlimited hwhole
  refine ⟨finished, plan, heq, hchanged, repair_of_written symbolOptions .store none [] symbolCalls
    _ _ finished _ .unlimited symbolErasures _ plan rfl rfl hrun ?_ ?_ h.notBinding_unlimited.2 ?_
    (.inl hplan)⟩
  · intro p hp
    rw [hheader] at hp
    by_contra hcovered
    obtain ⟨-, -, hmem⟩ := (hspares p).mp hcovered
    have := Finset.mem_singleton.mp hmem
    omega
  · refine withinParity_blockErasures hwhole rfl (by decide) fun group => ?_
    exact (Finset.card_filter_le _ _).trans (by decide)
  · refine ⟨length_set.symm, fun p hp => (List.getElem?_set_ne fun h31 => ?_).symm⟩
    refine (hspares p).mpr ⟨by omega, by omega, ?_⟩ hp
    rw [← h31]
    decide

/-- **The blocks that can be repaired are the whole ones.** Of a finished archive take blocks of
the protected range behind the Global Header, in each group as many as there is parity for. There
are accepted ranges that cover the blocks, and with which every copy that is damaged inside the
blocks is repaired, exactly if none of them is cut off by the end of the protected range. -/
theorem repair_blocks_of_written (options : ArchiveWriterOptions)
    (compression : CompressionSettings) (keyProvider : Option KeyProvider) (cdMetadata : List Tlv)
    (calls : List Call) (fec : FecSettings) (start finished : ArchiveWriter)
    (summary : ArchiveSummary)
    (hnew : newWithCompressionKeyProviderAndCdMetadata backend options compression keyProvider
      cdMetadata = .ok start)
    (hrecovery : options.archiveRecovery = some fec)
    (hfinish : finish (runEach backend calls start).2 = (.ok summary, finished)) :
    NotBinding .unlimited finished.writer ∧
      ∀ limits, NotBinding limits finished.writer → ∀ blocks : Finset ℕ,
        (∀ b ∈ blocks, globalHeaderEnd finished.writer limits ≤ 8 + b * fec.unitSize ∧
          8 + b * fec.unitSize < protectedEnd finished.writer) →
        (∀ group, (blocks.filter fun b => b / fec.groupSize = group).card ≤ fec.parityUnits) →
        ((∃ erasures plan, planArchiveRepair finished.writer erasures limits = .ok plan ∧
          (∀ p, InBlocks fec.unitSize (protectedEnd finished.writer) blocks p →
            ¬ erasures.Spares p) ∧
          ∀ damaged, DifferInBlocks fec.unitSize (protectedEnd finished.writer) blocks
            finished.writer damaged →
              planArchiveRepair damaged erasures limits = .ok plan ∧
                repairArchive damaged plan limits =
                  .ok (finished.writer, ⟨true, erasures.archiveRanges, false, none⟩)) ↔
          ∀ b ∈ blocks, 8 + (b + 1) * fec.unitSize ≤ protectedEnd finished.writer) := by
  obtain ⟨flags, cdOffset, value, h⟩ := recoverable_of_finish hnew hrecovery hfinish
  rw [protectedEnd_eq h.layout rfl]
  refine ⟨h.notBinding_unlimited, fun limits hbind blocks hblocks hfew => ⟨?_, fun hwhole => ?_⟩⟩
  · rintro ⟨erasures, plan, hplan, hcovered, -⟩ b hb
    exact h.whole_of_covered hplan hcovered hb (hblocks b hb).2
  · exact h.repair_blocks hbind (fun b hb => (hblocks b hb).1) hwhole hfew

/-- The sixth and the third symbol of the archive, which lie in different groups, can be
repaired. -/
theorem repair_blocks_of_written_symbolRun :
    ∃ finished, symbolRun = (.ok ⟨1, 104, true⟩, finished) ∧
      ∃ erasures plan, planArchiveRepair finished.writer erasures .unlimited = .ok plan ∧
        ∀ damaged, DifferInBlocks 4 (protectedEnd finished.writer) {2, 5} finished.writer damaged →
          planArchiveRepair damaged erasures .unlimited = .ok plan ∧
            repairArchive damaged plan .unlimited =
              .ok (finished.writer, ⟨true, erasures.archiveRanges, false, none⟩) := by
  obtain ⟨finished, -, -, -, heq, hrun, -, hend, -, hheader, -⟩ := recoverable_symbolRun
  obtain ⟨hbind, hblocks⟩ := repair_blocks_of_written symbolOptions .store none [] symbolCalls _ _
    finished _ rfl rfl hrun
  have hfew : ∀ group, (({2, 5} : Finset ℕ).filter fun b => b / 2 = group).card ≤ 1 := by
    intro group
    rw [Finset.card_le_one]
    intro a ha b hb
    simp only [Finset.mem_filter, Finset.mem_insert, Finset.mem_singleton] at ha hb
    omega
  have hplace : ∀ b ∈ ({2, 5} : Finset ℕ), globalHeaderEnd finished.writer .unlimited ≤ 8 + b * 4 ∧
      8 + b * 4 < protectedEnd finished.writer ∧
        8 + (b + 1) * 4 ≤ protectedEnd finished.writer := by
    intro b hb
    rw [hheader, hend]
    simp only [Finset.mem_insert, Finset.mem_singleton] at hb
    omega
  obtain ⟨erasures, plan, hplan, -, hrepair⟩ := (hblocks .unlimited hbind {2, 5}
    (fun b hb => ⟨(hplace b hb).1, (hplace b hb).2.1⟩) hfew).mpr fun b hb => (hplace b hb).2.2
  exact ⟨finished, heq, erasures, plan, hplan, hrepair⟩

/-- The last three protected bytes of the archive are a block of their own, behind the Global
Header and alone in its group, and no accepted ranges cover them. -/
theorem not_coverable_symbolRun :
    ∃ finished, symbolRun = (.ok ⟨1, 104, true⟩, finished) ∧
      globalHeaderEnd finished.writer .default ≤ 8 + 6 * 4 ∧
      8 + 6 * 4 < protectedEnd finished.writer ∧
      (∀ group, (({6} : Finset ℕ).filter fun b => b / 2 = group).card ≤ 1) ∧
      ∀ limits erasures plan, planArchiveRepair finished.writer erasures limits = .ok plan →
        ¬ ∀ p, InBlocks 4 (protectedEnd finished.writer) {6} p → ¬ erasures.Spares p := by
  obtain ⟨finished, flags, cdOffset, value, heq, -, h, hprotected, hend, -, hheader⟩ :=
    recoverable_symbolRun
  rw [← hend] at hprotected
  refine ⟨finished, heq, ?_, ?_, fun group => ?_, fun limits erasures plan hplan hcovered => ?_⟩
  · rw [hheader]
    decide
  · rw [hprotected, hend]
    decide
  · exact (Finset.card_filter_le _ _).trans (by decide)
  · rw [hprotected] at hcovered
    have hwhole : 8 + (6 + 1) * 4 ≤ cdOffset.toNat :=
      h.whole_of_covered hplan hcovered (Finset.mem_singleton_self 6) (by rw [hend]; decide)
    rw [hend] at hwhole
    exact absurd hwhole (by decide)

end ArchiveWriter

end Sar
