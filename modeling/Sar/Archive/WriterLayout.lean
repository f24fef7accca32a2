import Sar.Archive.WrittenArchive

/-!
# The layout of a finished archive

Where everything stands in the bytes that a run of the writer leaves: the Global Header, each
entry's header and payload back to back, and for an indexed archive the Central Dictionary, the
padding and the footer. The flags in the Global Header are the ones under which every entry and
the dictionary were encoded, although the header is written late and the size policy changes the
flags until then.

* `Layout`: what is said about one archive.
* `layout_of_run`: every successful run leaves such an archive.
-/

namespace Sar

open Except (rejectIf liftError okOr)
open Stateful LittleEndian List

theorem length_pos_of_writeLfh {flags : GlobalFlags} {lfh : LocalFileHeader} {bytes : Bytes}
    (h : writeLfh flags lfh = .ok bytes) : 0 < bytes.length := by
  obtain ⟨hsize, -⟩ := length_writeLfh h
  obtain ⟨hlen, -⟩ := computeLfhSize_eq_ok_iff.mp hsize
  rw [hlen, lfhFixedLen]
  omega

namespace ArchiveWriter

variable {backend : Backend}

/-! ### Offsets -/

/-- The entry at its offset. -/
theorem drop_offsetsFrom {before after : Bytes} {stored : List Sealed} {i : ℕ} {s : Sealed}
    (h : stored[i]? = some s) :
    ∃ offset, (offsetsFrom before.length stored)[i]? = some offset ∧
      s.bytes <+: (before ++ (stored.flatMap Sealed.bytes ++ after)).drop offset := by
  induction stored generalizing before i with
  | nil => cases h
  | cons first stored ih =>
    rw [offsetsFrom, flatMap_cons]
    cases i with
    | zero =>
      obtain rfl : first = s := Option.some.inj h
      refine ⟨before.length, rfl, ?_⟩
      rw [drop_left, append_assoc]
      exact prefix_append _ _
    | succ i =>
      obtain ⟨offset, hoffset, hprefix⟩ := @ih (before ++ first.bytes) i h
      refine ⟨offset, ?_, ?_⟩
      · rwa [length_append] at hoffset
      · simpa only [append_assoc] using hprefix

/-- No entry is empty, so the offsets increase. -/
theorem offsetsFrom_pairwise (start : ℕ) {stored : List Sealed}
    (h : ∀ s ∈ stored, 0 < s.bytes.length) :
    (offsetsFrom start stored).Pairwise (· < ·) ∧
      ∀ offset ∈ offsetsFrom start stored,
        start ≤ offset ∧ offset < start + (stored.flatMap Sealed.bytes).length := by
  induction stored generalizing start with
  | nil => exact ⟨.nil, fun _ hmem => nomatch hmem⟩
  | cons s stored ih =>
    have hpos := h s mem_cons_self
    obtain ⟨hpairwise, hbounds⟩ :=
      ih (start + s.bytes.length) fun s hs => h s (mem_cons_of_mem _ hs)
    rw [flatMap_cons, length_append, offsetsFrom]
    refine ⟨.cons (fun offset hmem => ?_) hpairwise, fun offset hmem => ?_⟩
    · obtain ⟨hle, -⟩ := hbounds offset hmem
      omega
    · rcases mem_cons.mp hmem with rfl | hmem
      · omega
      · obtain ⟨hle, hlt⟩ := hbounds offset hmem
        omega

/-! ### The layout -/

theorem SealsCall.writeLfh_eq {w : ArchiveWriter} {call : Call} {s : Sealed}
    (h : SealsCall backend w call s) : writeLfh w.flags s.lfh = .ok s.lfhBytes := by
  have hseals : ∃ wire prepare, Seals backend w wire prepare s := by
    cases call with
    | addEntry random entry =>
      obtain ⟨-, wire, -, hseals⟩ := h
      exact ⟨wire, _, hseals⟩
    | writeSparseEntry random name payload sparse =>
      obtain ⟨-, -, -, hseals⟩ := h
      exact ⟨payload, _, hseals⟩
  obtain ⟨wire, prepare, hseals⟩ := hseals
  cases hseals with
  | plain hflag hencode hprepare hfec hwrite => exact hwrite
  | encrypted hflag hencode hprepare hreserve halgo hnonce hcrypto hseal hfec hwrite =>
    exact hwrite

/-- The index behind the bytes `before`, over the given entries: the Central Dictionary with
strictly increasing offsets, each the start of its entry's header, then zeros up to a multiple of
eight, then the footer with the dictionary's offset. -/
structure IndexLayout (flags : GlobalFlags) (stored : List Sealed) (before index : Bytes)
    (cd : CentralDictionary) (cdBytes : Bytes) (padding : ℕ) (footer : Footer) : Prop where
  dictionary : writeCentralDictionary cd flags = .ok cdBytes
  index_eq : index = cdBytes ++ (List.replicate padding 0 ++ writeFooter footer)
  padded : padding < 8 ∧ 8 ∣ before.length + cdBytes.length + padding
  cdOffset : footer.cdOffset.toNat = before.length
  count : cd.offsets.length = stored.length
  starts : ∀ (i : ℕ) (s : Sealed), stored[i]? = some s →
    ∃ offset : UInt64, cd.offsets[i]? = some offset ∧ s.bytes <+: before.drop offset.toNat
  increasing : cd.offsets.Pairwise (· < ·)

/-- The bytes of a finished archive and its summary; `w` is the writer that sealed the entries,
whose flags stand in the Global Header. -/
structure Layout (backend : Backend) (calls : List Call) (summary : ArchiveSummary) (file : Bytes)
    (w : ArchiveWriter) (headerBytes : Bytes) (stored : List Sealed) (index : Bytes) : Prop where
  summary_eq : summary = ⟨calls.length, file.length, !w.flags.noIndex⟩
  file_eq : file = headerBytes ++ stored.flatMap Sealed.bytes ++ index
  header : writeGlobalHeader w.globalHeaderOf = .ok headerBytes
  headerFlags : (file.drop globalHeaderFlagsOffset).take 4 = u32Bytes w.flags.bits
  entries : List.Forall₂ (SealsCall backend w) calls stored
  entryHeaders : ∀ s ∈ stored, writeLfh w.flags s.lfh = .ok s.lfhBytes
  unindexed : w.flags.noIndex = true → index = []
  indexed : w.flags.noIndex = false → ∃ cd cdBytes padding footer,
    IndexLayout w.flags stored (headerBytes ++ stored.flatMap Sealed.bytes) index cd cdBytes
      padding footer

variable {w : ArchiveWriter} {calls : List Call} {headerBytes : Bytes} {stored : List Sealed}
  {index file : Bytes}

section

variable (h : Archived backend w calls headerBytes stored index file)
include h

theorem Archived.writeLfh_eq : ∀ s ∈ stored, writeLfh w.flags s.lfh = .ok s.lfhBytes := by
  intro s hs
  have hboth := h.seals.flip.imp fun _ _ hseals => And.intro (SealsCall.writeLfh_eq hseals) hseals
  exact ((forall₂_and_left _ _).mp hboth).1 s hs

theorem Archived.length_pos : ∀ s ∈ stored, 0 < s.bytes.length := by
  intro s hs
  have := length_pos_of_writeLfh (h.writeLfh_eq s hs)
  rw [Sealed.bytes, length_append]
  omega

/-- The index of a finished archive. -/
theorem Archived.indexLayout (hidx : w.flags.noIndex = false) :
    ∃ cd cdBytes padding footer, IndexLayout w.flags stored w.writer index cd cdBytes padding
      footer := by
  rcases h.indexOf with ⟨hno, -⟩ | ⟨-, tlvs, cdBytes, -, hcd, -, rfl⟩
  · cases hidx.symm.trans hno
  obtain ⟨hpairwise, hbounds⟩ := offsetsFrom_pairwise headerBytes.length h.length_pos
  -- every offset lies in front of the index, and so in 64 bits
  have hfits : ∀ offset ∈ w.offsets, offset ≤ u64Max := by
    intro offset hoffset
    rw [h.holds.offsets] at hoffset
    have hlt := (hbounds offset hoffset).2
    have hlen := h.length_writer
    rw [h.holds.writer, length_append] at hlen
    omega
  refine ⟨_, cdBytes, _, _, hcd, rfl, ⟨by omega, ?_⟩, ?_, ?_, ?_, ?_⟩
  · rw [← h.holds.position]
    omega
  · rw [h.holds.position]
    exact toNat_uint64_ofNat h.length_writer
  · change (w.offsets.map UInt64.ofNat).length = _
    rw [length_map, h.holds.offsets, length_offsetsFrom]
  · intro i s hs
    obtain ⟨offset, hoffset, hprefix⟩ := @drop_offsetsFrom headerBytes [] stored i s hs
    rw [← h.holds.offsets] at hoffset
    refine ⟨UInt64.ofNat offset, ?_, ?_⟩
    · exact (List.getElem?_map ..).trans (congrArg _ hoffset)
    · rw [toNat_uint64_ofNat (hfits offset (mem_of_getElem? hoffset)), h.holds.writer]
      rwa [append_nil] at hprefix
  · refine pairwise_map.mpr ?_
    rw [h.holds.offsets] at hfits ⊢
    refine hpairwise.imp_of_mem fun {a b} ha hb hlt => ?_
    rw [UInt64.lt_iff_toNat_lt, toNat_uint64_ofNat (hfits a ha), toNat_uint64_ofNat (hfits b hb)]
    exact hlt

end

/-- A finished archive and the summary that counts it. -/
theorem Archived.layout {summary : ArchiveSummary}
    (h : Archived backend w calls headerBytes stored index file)
    (hsummary : summary = ⟨stored.length, file.length, !w.flags.noIndex⟩) :
    Layout backend calls summary file w headerBytes stored index := by
  refine ⟨?_, ?_, h.holds.header, ?_, h.seals, h.writeLfh_eq, ?_, ?_⟩
  · rw [hsummary, h.seals.length_eq]
  · rw [h.file_eq, h.holds.writer]
  · obtain ⟨-, -, -, -, rfl⟩ := writeGlobalHeader_globalHeaderOf.mp h.holds.header
    rw [h.file_eq, h.holds.writer, append_assoc, flags_headerBytesOf]
  · intro hno
    rcases h.indexOf with ⟨-, rfl⟩ | ⟨hidx, -⟩
    · rfl
    · cases hidx.symm.trans hno
  · intro hidx
    rw [← h.holds.writer]
    exact h.indexLayout hidx

/-- **The layout of a finished archive.** Calls that all succeed, with the final `finish`, leave
the Global Header, the entries and the index, encoded under the same flags, and a summary that
counts them. -/
theorem layout_of_run (options : ArchiveWriterOptions) (compression : CompressionSettings)
    (keyProvider : Option KeyProvider) (cdMetadata : List Tlv) (calls : List Call)
    (start finished : ArchiveWriter) (summary : ArchiveSummary)
    (hnew : newWithCompressionKeyProviderAndCdMetadata backend options compression keyProvider
      cdMetadata = .ok start)
    (hrun : (do runCalls backend calls; finish : WriterM ArchiveSummary) start =
      (.ok summary, finished)) :
    ∃ w headerBytes stored index,
      Layout backend calls summary finished.writer w headerBytes stored index := by
  obtain ⟨encryption, -, rfl⟩ := new_eq_ok hnew
  obtain ⟨w, headerBytes, stored, index, h, -, hsummary⟩ :=
    archived_of_run (fresh_initial options compression encryption cdMetadata) hrun
  exact ⟨w, headerBytes, stored, index, h.layout hsummary⟩

/-- An ordinary entry and a sparse one. -/
def twoEntries : List Call :=
  [.addEntry (fun _ => Octets.zero 24) { name := ⟨[97], validUtf8_letter⟩, payload := [1, 2, 3] },
   .writeSparseEntry (fun _ => Octets.zero 24) ⟨[98], by decide⟩ [4, 5] ⟨16, [⟨8, 2⟩]⟩]

/-- An indexed archive that may hold sparse entries. -/
def sparseIndexed : ArchiveWriterOptions := { noIndex := false, sparse := true }

/-- The run that writes the two entries. -/
def twoEntriesRun : Except SarError ArchiveSummary × ArchiveWriter :=
  (do runCalls Backend.plain twoEntries; finish : WriterM ArchiveSummary)
    (initial sparseIndexed .store none [])

theorem twoEntriesRun_fst : twoEntriesRun.1 = .ok ⟨2, 104, true⟩ := by
  decide +kernel

/-- The layout of a run with two entries. -/
theorem layout_of_run_twoEntries :
    ∃ w headerBytes stored index,
      Layout Backend.plain twoEntries ⟨2, 104, true⟩ twoEntriesRun.2.writer w headerBytes stored
        index := by
  have hrun : (do runCalls Backend.plain twoEntries; finish : WriterM ArchiveSummary)
      (initial sparseIndexed .store none []) = twoEntriesRun := by
    rw [twoEntriesRun]
  have hfst := twoEntriesRun_fst
  generalize twoEntriesRun = run at *
  obtain ⟨result, finished⟩ := run
  obtain rfl : result = .ok ⟨2, 104, true⟩ := hfst
  exact layout_of_run sparseIndexed .store none [] twoEntries _ finished ⟨2, 104, true⟩ rfl hrun

end ArchiveWriter

end Sar
