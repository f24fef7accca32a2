import Sar.Archive.WrittenArchive

/-!
# The header and the index of a written archive are read back

What stands where in a written archive, seen from a reader: the Global Header at its beginning
(`Archived.parseGlobalHeader_eq`), and from the end the footer, and through it the Central
Dictionary with the padding behind it (`footer_written`, `dictionary_written`). Limits decide
whether the dictionary is accepted (`DictionaryAllowed`).
-/

namespace Sar

open Except (rejectIf)
open List

/-! ### The index -/

section Index

variable {before cdBytes : Bytes}

/-- The zeros between the dictionary and the footer. -/
def indexPadding (cdOffset cdLen : ℕ) : ℕ := (8 - (cdOffset + cdLen) % 8) % 8

theorem length_written (before cdBytes : Bytes) :
    (before ++ ArchiveWriter.indexBytes before.length cdBytes).length =
      before.length + cdBytes.length + indexPadding before.length cdBytes.length + 8 := by
  rw [ArchiveWriter.indexBytes, length_append, length_append, length_append,
    length_replicate, writeFooter, length_u64Bytes, indexPadding]
  omega

/-- The footer comes last. -/
theorem footer_written (before cdBytes : Bytes) :
    (before ++ ArchiveWriter.indexBytes before.length cdBytes).drop
      ((before ++ ArchiveWriter.indexBytes before.length cdBytes).length - 8) =
      writeFooter ⟨UInt64.ofNat before.length⟩ := by
  have hlength := length_written before cdBytes
  have hsplit : before ++ ArchiveWriter.indexBytes before.length cdBytes =
      (before ++ (cdBytes ++ List.replicate (indexPadding before.length cdBytes.length) 0)) ++
        writeFooter ⟨UInt64.ofNat before.length⟩ := by
    simp only [ArchiveWriter.indexBytes, indexPadding, append_assoc]
  have hfront : (before ++ (cdBytes ++
      List.replicate (indexPadding before.length cdBytes.length) (0 : UInt8))).length =
      (before ++ ArchiveWriter.indexBytes before.length cdBytes).length - 8 := by
    rw [hlength, length_append, length_append, length_replicate]
    omega
  rw [← hfront, hsplit, drop_left]

/-- The dictionary with the padding fills the space up to the footer. -/
theorem dictionary_written (before cdBytes : Bytes) :
    ((before ++ ArchiveWriter.indexBytes before.length cdBytes).drop before.length).take
      ((before ++ ArchiveWriter.indexBytes before.length cdBytes).length - 8 - before.length) =
      cdBytes ++ List.replicate (indexPadding before.length cdBytes.length) 0 := by
  have hlen : (cdBytes ++
      List.replicate (indexPadding before.length cdBytes.length) (0 : UInt8)).length =
      (before ++ ArchiveWriter.indexBytes before.length cdBytes).length - 8 - before.length := by
    rw [length_written, length_append, length_replicate]
    omega
  rw [← hlen, drop_left, ArchiveWriter.indexBytes, ← append_assoc]
  exact take_left

/-- A dictionary is never empty. -/
theorem length_pos_of_writeCentralDictionary {cd : CentralDictionary} {flags : GlobalFlags}
    (h : writeCentralDictionary cd flags = .ok cdBytes) : 0 < cdBytes.length := by
  simp only [writeCentralDictionary, Except.bind_eq_ok_iff, Except.exists_unit, Except.pure_eq_ok,
    Except.ok.injEq] at h
  obtain ⟨_, -, _, -, _, -, _, -, -, _, -, rfl⟩ := h
  exact Nat.zero_lt_succ _

/-- The limits that a parser of the dictionary has to observe. -/
structure DictionaryAllowed (limits : ResourceLimits) (cd : CentralDictionary) (regionLen : ℕ) :
    Prop where
  region : regionLen ≤ limits.maxCdBytes
  tlvBytes : ∀ tlv ∈ cd.tlvs, tlv.value.length ≤ limits.maxTlvBytes
  tlvCount : cd.tlvs.length ≤ limits.maxTlvCount
  memory : regionLen ≤ limits.maxInMemoryBuffer ∧ regionLen ≤ limits.maxTotalPipelineMemory
  entries : cd.offsets.length ≤ limits.maxEntryCount
  platform : cd.offsets.length ≤ isizeMax / 8

/-- The dictionary is read back from the space up to the footer. -/
theorem parseCentralDictionary_written {limits : ResourceLimits} {cd : CentralDictionary}
    {flags : GlobalFlags} (hcd : writeCentralDictionary cd flags = .ok cdBytes)
    (hversion : cd.version = supportedCdVersion) (padding : ℕ)
    (hallowed : DictionaryAllowed limits cd (cdBytes.length + padding)) :
    parseCentralDictionary (cdBytes ++ List.replicate padding 0) flags limits =
      .ok (cd.onWire flags, cdBytes.length) := by
  refine parseCentralDictionary_writeCentralDictionary _ hcd hversion ?_ hallowed.tlvBytes
    hallowed.tlvCount (fun n hn => ?_) hallowed.entries hallowed.platform
  · rw [length_append, length_replicate]
    exact hallowed.region
  · obtain ⟨hbuffer, hpipeline⟩ := hallowed.memory
    rw [ResourceLimits.checkAllocationBytes, ResourceLimits.checkInMemoryBuffer,
      ResourceLimits.atMost_of_le _ (by omega), Except.ok_bind,
      ResourceLimits.checkTotalPipelineMemory, ResourceLimits.atMost_of_le _ (by omega)]

end Index

/-! ### The Global Header -/

namespace ArchiveWriter

variable {backend : Backend} {options : ArchiveWriterOptions} {compression : CompressionSettings}
  {keyProvider : Option KeyProvider} {cdMetadata : List Tlv}
  {encryption : Option ResolvedEncryption} {w : ArchiveWriter}

variable (h : WrittenUnder backend options compression keyProvider cdMetadata encryption w)
include h

/-- The mode of the key management is one of the assigned ones. -/
theorem WrittenUnder.checkKmsModeId_eq :
    ∀ kms ∈ w.headerKms, checkKmsModeId kms.modeId = .ok () := by
  have hkms : w.headerKms = encryption.map (·.kms) :=
    (congrArg ArchiveWriter.headerKms h.settings_eq :)
  intro kms hmem
  rw [hkms] at hmem
  obtain ⟨resolved, hresolved, rfl⟩ := Option.mem_map.mp hmem
  have hresolve := h.configured.encryption_eq
  rw [Option.mem_def.mp hresolved] at hresolve
  rcases hgiven : options.encryption with _ | settings
  · rw [hgiven] at hresolve
    cases hresolve
  · rw [hgiven] at hresolve
    obtain ⟨resolved', hok, heq⟩ := Except.map_eq_ok_iff.mp hresolve
    obtain rfl := Option.some.inj heq
    simp only [resolveEncryption, Except.bind_eq_ok_iff, Except.exists_unit, Except.pure_eq_ok,
      Except.ok.injEq] at hok
    obtain ⟨-, -, _, -, _, -, rfl⟩ := hok
    rcases settings.kmsParams with _ | _ | _ | _
    all_goals rfl

/-- The Global Header is read back. -/
theorem parseGlobalHeader_written {headerBytes : Bytes}
    (hheader : writeGlobalHeader w.globalHeaderOf = .ok headerBytes)
    {limits : ResourceLimits} (hflags : 4 ≤ limits.maxGlobalFlagsBytes)
    (hkms : ∀ kms ∈ w.headerKms, kms.payload.length ≤ limits.maxKmsPayloadBytes) (rest : Bytes) :
    parseGlobalHeader (headerBytes ++ rest) limits =
      .ok (w.globalHeaderOf, headerBytes.length) := by
  have hwire : w.globalHeaderOf.wireFlagsBytes = w.globalHeaderOf.flagsBytes := by
    rw [GlobalHeader.wireFlagsBytes, globalHeaderOf,
      drop_of_length_le (by rw [length_u32Bytes]), append_nil]
  have hparse := parseGlobalHeader_writeGlobalHeader hheader rfl
    (hflags.trans' (by rw [globalHeaderOf, length_u32Bytes]))
    (fun kms hmem => ⟨h.checkKmsModeId_eq kms hmem, hkms kms hmem⟩) rest
  rw [hwire] at hparse
  exact hparse

end ArchiveWriter

end Sar
