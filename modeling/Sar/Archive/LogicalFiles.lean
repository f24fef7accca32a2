import Sar.Archive.StreamRefinement
import Sar.ForMathlib.AssocTable
import Sar.Sparse.Reconstruct

/-!
# Logical files, and how large decoded data can get

`read_all_logical_files` puts the entries of an archive together to files: fragments are collected
by their id and reassembled, and sparse files are expanded.

Data grows in five ways on its way out of an archive: by decompression, by the two patch formats,
by reassembly and by sparse expansion. Each has a bound of its own, and **`decoded_sizedBy`** says
that none of their combinations exceeds `max_decoded_entry_size`. The stages that the seekable
reader and the stream parser share are bounded once (`length_of_stages`).
-/

namespace Sar

open Except (rejectIf okOr bind_eq_ok_iff pure_eq_ok exists_unit rejectIf_eq_ok_iff
  liftError_eq_ok_iff map_eq_ok_iff ok.inj ok.injEq)
open Stateful List

/-! ### The files of an archive -/

/-- `LogicalFile`. -/
structure LogicalFile where
  name : Str
  fragmentId : Option UInt32
  data : Bytes
  isDegraded : Bool

/-- `FragGroup`: the fragments of a file, and what the one with index 0 says about it. -/
structure FragGroup where
  name : Str
  entries : List EntryReader
  sparseExtents : Option (List SparseExtent)
  sparseUncompressedSize : UInt64
  fileCrc32 : Option UInt32

/-- What the loop over the entries has built: the groups with the order in which they were opened,
and the files that are not fragmented. -/
structure CollectedFiles where
  fragOrder : List UInt32
  fragGroups : Table UInt32 FragGroup
  result : List LogicalFile

/-- `ResourceLimits::check_fragment_count`. -/
def ResourceLimits.checkFragmentCount (limits : ResourceLimits) :=
  atMost limits.maxFragmentCount "fragment count exceeds configured limit"

namespace ArchiveReader

variable (backend : Backend) (crc32 : Bytes → UInt32) (self : ArchiveReader) (global : GlobalHeader)

/-- Sparse expansion with the checks before it. -/
def expandSparse (payload : Bytes) (extents : List SparseExtent) (logicalSize : ℕ) :
    Result Bytes := do
  let limits := self.options.limits.sparseLimits
  (validateSparseExtents extents logicalSize limits).liftError SparseError.toSarError
  (applySparseReconstruction payload extents logicalSize limits).liftError SparseError.toSarError

/-- `apply_sparse_if_needed`. -/
def applySparseIfNeeded (payload : Bytes) (sparseExtents : Option (List SparseExtent))
    (uncompressedSize : ℕ) : Result Bytes :=
  match sparseExtents with
  | none | some [] => pure payload
  | some extents => do
    self.options.limits.checkDecodedEntrySize uncompressedSize
    self.expandSparse payload extents uncompressedSize

/-- The comparison of a finished file with the CRC that its header has. -/
def checkFileCrc (expected : Option UInt32) (data : Bytes) (msg : String) : Result Unit :=
  rejectIf (global.flags.perFileCrc && expected.any fun crc => crc32 data != crc) (.crcMismatch msg)

/-- A fragment joins the group of its id, which it opens if it is the first. -/
def collectFragment (files : CollectedFiles) (entry : EntryReader) : Result CollectedFiles := do
  let metadata := entry.entryMetadata
  let fid ← okOr metadata.fragmentId (.malformed "IS_FRAGMENT set but fragment_id is absent")
  rejectIf (metadata.sparseExtents.isSome && metadata.fragmentIndex != some 0)
    (.invalidMap ("sparse map present on non-zero fragment index; Sparse Map MUST appear only " ++
      "in fragment with Fragment Index = 0"))
  let opened := files.fragGroups.lookup fid
  let group := opened.getD ⟨metadata.name, [], none, 0, none⟩
  self.options.limits.checkFragmentCount (group.entries.length + 1)
  let sparse : FragGroup :=
    if metadata.fragmentIndex = some 0 ∧ metadata.sparseExtents.isSome then
      { group with
        sparseExtents := metadata.sparseExtents
        sparseUncompressedSize := metadata.uncompressedSize }
    else group
  let fileCrc32 := if metadata.fragmentIndex = some 0 then metadata.fileCrc32 else group.fileCrc32
  pure
    { files with
      fragOrder := if opened.isSome then files.fragOrder else files.fragOrder ++ [fid]
      fragGroups :=
        files.fragGroups.insert fid
          { sparse with entries := group.entries ++ [entry], fileCrc32 } }

/-- One turn of the loop over the entries. -/
def collectEntry (files : CollectedFiles) (entry : EntryReader) : Result CollectedFiles :=
  let metadata := entry.entryMetadata
  if metadata.name.isEmpty && !metadata.isFragment then pure files
  else if metadata.isFragment then self.collectFragment files entry
  else do
    let data ← self.applySparseIfNeeded entry.payload metadata.sparseExtents
      metadata.uncompressedSize.toNat
    checkFileCrc crc32 global metadata.fileCrc32 data
      "file CRC32 mismatch on reconstructed logical file"
    pure { files with result := files.result ++ [⟨metadata.name, none, data, false⟩] }

/-- The end of the last fragment of a group. -/
def assembledSize (entries : List EntryReader) : Result ℕ :=
  entries.foldlM (fun size entry =>
    match entry.entryMetadata.fragmentDescriptor with
    | none => pure size
    | some desc => do
      rejectIf (desc.stop > u64Max) (.overflow "fragment descriptor end overflow")
      pure (max size desc.stop)) 0

/-- The fragment that an entry with a descriptor is. -/
def fragmentEntry (entry : EntryReader) : Option FragmentEntry :=
  entry.entryMetadata.fragmentDescriptor.map fun desc =>
    ⟨entry.entryMetadata.fragmentIndex.getD 0, entry.entryMetadata.isLastFragment,
      entry.entryMetadata.isLossTolerant, desc, entry.payload⟩

/-- The file of a group. -/
def reconstructGroup (allowLossy : Bool) (fid : UInt32) (group : FragGroup) :
    Result LogicalFile := do
  let size ← assembledSize group.entries
  let (raw, isDegraded) ←
    (reconstructFragments (group.entries.filterMap fragmentEntry) size
      self.options.limits.fragmentLimits).liftError FragmentError.toSarError
  rejectIf (isDegraded && !allowLossy)
    (.fragmentGap "fragment group has gaps; use allow_lossy to permit degraded output")
  let data ←
    match group.sparseExtents with
    | none => pure raw
    | some extents => do
      rejectIf (group.sparseUncompressedSize.toNat > self.options.maxDecodedEntrySize)
        (.limitExceeded "sparse logical file size exceeds configured limit")
      self.expandSparse raw extents group.sparseUncompressedSize.toNat
  checkFileCrc crc32 global group.fileCrc32 data
    "file CRC32 mismatch on reconstructed fragment-group logical file"
  pure ⟨group.name, some fid, data, isDegraded⟩

/-- The loop over the groups. -/
def reconstructGroups (allowLossy : Bool) :
    List UInt32 → Table UInt32 FragGroup → Result (List LogicalFile)
  | [], _ => pure []
  | fid :: order, groups => do
    let group ← okOr (groups.lookup fid)
      (.malformed "fragment group ID vanished during reconstruction")
    let file ← self.reconstructGroup crc32 global allowLossy fid group
    let files ← reconstructGroups allowLossy order (groups.erase fid)
    pure (file :: files)

/-- The files that the entries are put together to. -/
def logicalFiles (allowLossy : Bool) (entries : List EntryReader) : Result (List LogicalFile) := do
  let files ← entries.foldlM (self.collectEntry crc32 global) ⟨[], ∅, []⟩
  let groups ← self.reconstructGroups crc32 global allowLossy files.fragOrder files.fragGroups
  pure (files.result ++ groups)

/-- `read_all_logical_files`; `crc32` is the checksum of the third-party library. -/
def readAllLogicalFiles (allowLossy : Bool) (fuel : ℕ) : Option (Result (List LogicalFile)) :=
  let opened : Result (GlobalHeader × ArchiveReader) :=
    match self.globalHeader with
    | some header => .ok (header, self)
    | none => self.readGlobalHeader
  match opened with
  | .error e => some (.error e)
  | .ok (global, self) =>
    (readEntries backend fuel { self with nextOffset := self.headerLen }).map fun r =>
      r >>= self.logicalFiles crc32 global allowLossy

end ArchiveReader

/-! ### Reassembly and expansion -/

theorem length_of_scatterExtents {n : ℕ} {extents : List SparseExtent}
    {payload output rest out : Bytes} (hlen : output.length = n)
    (h : scatterExtents n extents payload output = .ok (rest, out)) : out.length = n := by
  induction extents generalizing payload output with
  | nil =>
    obtain ⟨-, rfl⟩ := Prod.mk.inj (ok.inj h)
    exact hlen
  | cons e es ih =>
    simp only [scatterExtents, bind_eq_ok_iff, exists_unit,
      rejectIf_eq_ok_iff, gt_iff_lt, not_lt] at h
    obtain ⟨-, hend, hpayload, h⟩ := h
    refine ih ?_ h
    rw [Scatter.length_overwrite, hlen]
    rw [length_take, hlen]
    omega

theorem length_of_scatterFragments {n : ℕ} {fragments : List FragmentEntry} {output out : Bytes}
    (hlen : output.length = n) (h : scatterFragments n fragments output = .ok out) :
    out.length = n := by
  induction fragments generalizing output with
  | nil =>
    obtain rfl := ok.inj h
    exact hlen
  | cons f fs ih =>
    simp only [scatterFragments, bind_eq_ok_iff, exists_unit,
      rejectIf_eq_ok_iff, gt_iff_lt, not_lt] at h
    obtain ⟨-, hend, h⟩ := h
    refine ih ?_ h
    rw [Scatter.length_overwrite (hend.trans_eq hlen.symm), hlen]

/-- A file that was put together from fragments has the length it was announced with. -/
theorem length_of_reconstructFragments {fragments : List FragmentEntry} {n : ℕ}
    {limits : FragmentLimits} {out : Bytes} {degraded : Bool}
    (h : reconstructFragments fragments n limits = .ok (out, degraded)) :
    out.length = n ∧ n ≤ limits.maxDecodedEntrySize := by
  have halloc : ∀ {context : String} {size : ℕ}, limits.allocationLen n context = .ok size →
      size = n := by
    intro context size halloc
    simp only [FragmentLimits.allocationLen, bind_eq_ok_iff, pure_eq_ok, ok.injEq] at halloc
    obtain ⟨-, -, -, -, rfl⟩ := halloc
    rfl
  simp only [reconstructFragments, FragmentLimits.checkDecodedEntrySize, FragmentLimits.atMost,
    bind_eq_ok_iff, exists_unit, rejectIf_eq_ok_iff, gt_iff_lt, not_lt] at h
  obtain ⟨-, -, hmax, h⟩ := h
  refine ⟨?_, hmax⟩
  split at h
  · simp only [bind_eq_ok_iff, pure_eq_ok, ok.injEq, Prod.mk.injEq] at h
    obtain ⟨size, hsize, rfl, -⟩ := h
    rw [length_replicate, halloc hsize]
  · simp only [reconstructSorted, bind_eq_ok_iff, Prod.exists, pure_eq_ok] at h
    obtain ⟨-, -, -, -, -, -, -, -, lastEnd, hasGap, -, -, -, h⟩ := h
    have hscattered : ∃ size, limits.allocationLen n "logical size usize" = .ok size ∧
        scatterFragments size (sortByIndex fragments) (List.replicate size 0) = .ok out := by
      split at h <;> simp only [bind_eq_ok_iff, ok.injEq, Prod.mk.injEq] at h
      · obtain ⟨-, -, size, hsize, _, hscatter, rfl, -⟩ := h
        exact ⟨size, hsize, hscatter⟩
      · obtain ⟨size, hsize, _, hscatter, rfl, -⟩ := h
        exact ⟨size, hsize, hscatter⟩
    obtain ⟨size, hsize, hscatter⟩ := hscattered
    rw [← halloc hsize]
    exact length_of_scatterFragments length_replicate hscatter

/-! ### Decoding -/

/-- At most the limit, and exactly the announced size unless the entry is sparse. -/
structure EntryReader.SizedBy (options : ArchiveReaderOptions) (entry : EntryReader) : Prop where
  length_le : entry.payload.length ≤ options.maxDecodedEntrySize
  length_eq : entry.entryMetadata.sparseExtents = none →
    entry.payload.length = entry.header.uncompressedSize.toNat

theorem length_of_decodePayload {backend : Backend} {encoded out : Bytes} {plan : DecodingPlan}
    (h : decodePayload backend encoded plan = .ok out) : out.length ≤ plan.maxOutputSize := by
  simp only [decodePayload, decodeStream, copyBounded, bind_eq_ok_iff, liftError_eq_ok_iff,
    exists_unit, rejectIf_eq_ok_iff, pure_eq_ok, ok.injEq, gt_iff_lt, not_lt] at h
  obtain ⟨-, _, -, hlen, -, rfl⟩ := h
  exact hlen.trans (Nat.min_le_right _ _)

theorem length_of_applyVcdiff {base patch out : Bytes} {n : ℕ} {limits : VcdiffLimits}
    (h : applyVcdiff base patch n limits = .ok out) : out.length = n := by
  simp only [applyVcdiff, bind_eq_ok_iff, rejectIf_eq_ok_iff, pure_eq_ok,
    ok.injEq, Prod.exists, not_not] at h
  obtain ⟨-, -, -, _, -, _, _, -, -, hlen, rfl⟩ := h
  exact hlen

theorem length_of_applyBsdiff {base patch out : Bytes} {n : ℕ} {limits : BsdiffLimits}
    (h : applyBsdiff base patch n limits = .ok out) : out.length = n := by
  simp only [applyBsdiff, splitBsdiff, bind_eq_ok_iff, rejectIf_eq_ok_iff,
    exists_unit, pure_eq_ok, ok.injEq, not_not] at h
  obtain ⟨_, ⟨-, -, -, _, -, _, -, _, -, _, -, _, -, _, -, hsize, -, -, -, -, -, -, -, -, rfl⟩, st,
    -, hlen, -, -, rfl⟩ := h
  exact hlen.trans hsize

section Stages

variable {backend : Backend} {options : ArchiveReaderOptions} {lfh : LocalFileHeader}
  {t : EntryTraits}

/-- A patch keeps the bound. -/
theorem length_of_applyDelta {patched decoded : Bytes}
    (hpatched : patched.length ≤ options.maxDecodedEntrySize)
    (h : applyDelta options lfh t patched = .ok decoded) :
    decoded.length ≤ options.maxDecodedEntrySize := by
  -- both patch formats write the announced size, which was checked before
  have hbase : ∀ {bytes base : Bytes} {zeroHash noBase : String},
      deltaBase options lfh bytes zeroHash noBase = .ok base →
      lfh.uncompressedSize.toNat ≤ options.maxDecodedEntrySize := by
    intro bytes base zeroHash noBase hbase
    simp only [deltaBase, validateDeltaPreDispatch, bind_eq_ok_iff, exists_unit,
      rejectIf_eq_ok_iff, gt_iff_lt, not_lt] at hbase
    exact hbase.1.1
  rw [applyDelta] at h
  split at h
  · rwa [← ok.inj h]
  · split at h
    · split at h
      · rw [liftError_eq_ok_iff, applyStorePatch_eq_ok_iff] at h
        rwa [h.2]
      · rwa [← ok.inj h]
    · split at h
      · simp only [bind_eq_ok_iff, liftError_eq_ok_iff] at h
        obtain ⟨base, hdelta, happly⟩ := h
        exact (length_of_applyVcdiff happly).trans_le (hbase hdelta)
      · split at h
        · simp only [bind_eq_ok_iff, liftError_eq_ok_iff] at h
          obtain ⟨base, hdelta, happly⟩ := h
          exact (length_of_applyBsdiff happly).trans_le (hbase hdelta)
        · split at h
          · cases h
          · split at h <;> cases h

/-- The stages that both decoders share. -/
theorem length_of_stages {payload patched decoded : Bytes} {crypto : Option EntryCryptoContext}
    (hpatched : decodePayloadV2 backend payload
      { isCompressed := t.isEffectivelyCompressed
        compAlgoId := t.effectiveCompAlgoId
        expectedOutputSize := decodeExpected options lfh t
        maxOutputSize := options.maxDecodedEntrySize
        crypto } = .ok patched)
    (hdecoded : applyDelta options lfh t patched = .ok decoded)
    (hsize : checkDecodedSize lfh t decoded = .ok ()) :
    decoded.length ≤ options.maxDecodedEntrySize ∧
      (t.isSparse = false → decoded.length = lfh.uncompressedSize.toNat) := by
  simp only [decodePayloadV2, bind_eq_ok_iff] at hpatched
  obtain ⟨decrypted, -, hplain⟩ := hpatched
  refine ⟨length_of_applyDelta (length_of_decodePayload hplain) hdecoded, fun hsparse => ?_⟩
  simp only [checkDecodedSize, bind_eq_ok_iff, exists_unit,
    rejectIf_eq_ok_iff, hsparse, Bool.not_false, Bool.true_and, bne_iff_ne, not_not] at hsize
  exact hsize.1

/-- A sparse entry reports its extents. -/
theorem isSparse_of_entryParts {header : GlobalHeader} {parts : EntryParts} (encrypted : Bool)
    (h : entryParts options header lfh = .ok parts) (hnone : parts.sparseExtents = none) :
    (traitsOf header lfh encrypted).isSparse = false := by
  by_contra hsparse
  have hmap : (header.flags.sparseFiles && !lfh.sparseMap.isEmpty) = true :=
    Bool.not_eq_false _ ▸ hsparse
  -- the stages before and after the sparse map have two ways each
  simp only [entryParts, hmap, if_true] at h
  split at h <;>
  · obtain ⟨fec, -, h⟩ := bind_eq_ok_iff.mp h
    obtain ⟨extents, hextents, h⟩ := bind_eq_ok_iff.mp h
    obtain ⟨parsed, -, rfl⟩ := map_eq_ok_iff.mp hextents
    split at h
    · obtain ⟨-, -, h⟩ := bind_eq_ok_iff.mp h
      rw [← ok.inj h] at hnone
      contradiction
    · rw [← ok.inj h] at hnone
      contradiction

end Stages

namespace ArchiveReader

variable {backend : Backend} {self : ArchiveReader}

/-- What the seekable reader hands out. -/
theorem sizedBy_nextEntry {entry : EntryReader} {r : ArchiveReader}
    (h : nextEntry backend self = .ok (some entry, r)) : entry.SizedBy self.options := by
  simp only [nextEntry, bind_eq_ok_iff] at h
  obtain ⟨header, -, h⟩ := h
  split at h
  · cases h
  · simp only [decodeOrdinaryArchiveEntryFromParts, bind_eq_ok_iff, Prod.exists,
      exists_unit, pure_eq_ok, ok.injEq, Prod.mk.injEq, Option.some.injEq] at h
    obtain ⟨lfh, _, -, -, _, _, -, _, _, ⟨-, -, crypto, -, patched, hpatched, decoded, hdecoded,
      hsize, parts, hparts, texts, -, rfl, rfl⟩, rfl, -⟩ := h
    obtain ⟨hle, heq⟩ := length_of_stages hpatched hdecoded hsize
    exact ⟨hle, fun hnone => heq (isSparse_of_entryParts _ hparts hnone)⟩

end ArchiveReader

/-- What the stream parser hands out. -/
theorem StreamArchiveParser.sizedBy_step {backend : Backend} {p q : StreamArchiveParser}
    {entry : EntryReader} (h : step backend p = (.ok (.ready (.entry entry)), q)) :
    entry.SizedBy p.options := by
  obtain ⟨archive, p', lfh, lfhBytes, payload, off, -, hoptions, h⟩ := decodes_of_step backend h
  simp only [decodeParts, hoptions, bind_eq_ok_iff, exists_unit, pure_eq_ok, ok.injEq] at h
  obtain ⟨-, crypto, -, patched, hpatched, decoded, hdecoded, hsize, parts, hparts, _, -, -, _, -,
    _, -, rfl⟩ := h
  obtain ⟨hle, heq⟩ := length_of_stages hpatched hdecoded hsize
  exact ⟨hle, fun hnone => heq (isSparse_of_entryParts _ hparts hnone)⟩

namespace ArchiveReader

variable {backend : Backend} {crc32 : Bytes → UInt32} {self : ArchiveReader} {global : GlobalHeader}

/-! ### Files -/

theorem sizedBy_readEntries {fuel : ℕ} {entries : List EntryReader}
    (h : readEntries backend fuel self = some (.ok entries)) :
    ∀ entry ∈ entries, entry.SizedBy self.options := by
  induction fuel generalizing self entries with
  | zero => contradiction
  | succ fuel ih =>
    rw [readEntries] at h
    rcases hnext : nextEntry backend self with e | ⟨_ | entry, r⟩ <;> rw [hnext] at h
    · cases h
    · obtain rfl := ok.inj (Option.some.inj h)
      simp
    · obtain ⟨result, hresult, h⟩ := Option.map_eq_some_iff.mp h
      obtain ⟨rest, rfl, rfl⟩ := map_eq_ok_iff.mp h
      obtain ⟨off, -, -, rfl⟩ := nextEntry_advances backend self hnext
      refine forall_mem_cons.mpr ⟨sizedBy_nextEntry hnext, ?_⟩
      exact @ih { self with nextOffset := off } rest hresult

theorem length_of_expandSparse {payload data : Bytes} {extents : List SparseExtent} {n : ℕ}
    (h : self.expandSparse payload extents n = .ok data) :
    data.length ≤ self.options.maxDecodedEntrySize := by
  simp only [expandSparse, applySparseReconstruction, bind_eq_ok_iff, liftError_eq_ok_iff,
    exists_unit, rejectIf_eq_ok_iff, Prod.exists, pure_eq_ok, ok.injEq, gt_iff_lt, not_lt] at h
  obtain ⟨-, hmax, -, -, -, rest, _, hscatter, -, rfl⟩ := h
  exact (length_of_scatterExtents length_replicate hscatter).trans_le hmax

/-- One turn of the loop over the entries. -/
theorem length_of_collectEntry {files files' : CollectedFiles} {entry : EntryReader}
    (hentry : entry.payload.length ≤ self.options.maxDecodedEntrySize)
    (hfiles : ∀ file ∈ files.result, file.data.length ≤ self.options.maxDecodedEntrySize)
    (h : self.collectEntry crc32 global files entry = .ok files') :
    ∀ file ∈ files'.result, file.data.length ≤ self.options.maxDecodedEntrySize := by
  rw [collectEntry] at h
  split at h
  · rwa [← ok.inj h]
  · split at h
    · simp only [collectFragment, bind_eq_ok_iff, pure_eq_ok, ok.injEq] at h
      obtain ⟨_, -, -, -, -, -, rfl⟩ := h
      exact hfiles
    · simp only [bind_eq_ok_iff, pure_eq_ok, ok.injEq] at h
      obtain ⟨data, hdata, -, -, rfl⟩ := h
      refine forall_mem_append.mpr ⟨hfiles, forall_mem_singleton.mpr ?_⟩
      unfold applySparseIfNeeded at hdata
      split at hdata
      · rwa [← ok.inj hdata]
      · rwa [← ok.inj hdata]
      · obtain ⟨-, -, hexpand⟩ := bind_eq_ok_iff.mp hdata
        exact length_of_expandSparse hexpand

theorem length_of_reconstructGroup {allowLossy : Bool} {fid : UInt32} {group : FragGroup}
    {file : LogicalFile} (h : self.reconstructGroup crc32 global allowLossy fid group = .ok file) :
    file.data.length ≤ self.options.maxDecodedEntrySize := by
  simp only [reconstructGroup, bind_eq_ok_iff, liftError_eq_ok_iff, Prod.exists, pure_eq_ok] at h
  obtain ⟨size, -, raw, degraded, hraw, -, -, h⟩ := h
  split at h <;>
    simp only [bind_eq_ok_iff, exists_unit, ok.injEq] at h
  · obtain ⟨_, rfl, -, rfl⟩ := h
    obtain ⟨hlen, hle⟩ := length_of_reconstructFragments hraw
    exact hlen.trans_le hle
  · obtain ⟨-, data, hdata, -, rfl⟩ := h
    exact length_of_expandSparse hdata

theorem length_of_reconstructGroups {allowLossy : Bool} {order : List UInt32}
    {groups : Table UInt32 FragGroup} {files : List LogicalFile}
    (h : self.reconstructGroups crc32 global allowLossy order groups = .ok files) :
    ∀ file ∈ files, file.data.length ≤ self.options.maxDecodedEntrySize := by
  induction order generalizing groups files with
  | nil =>
    obtain rfl := ok.inj h
    exact fun _ hmem => nomatch hmem
  | cons fid order ih =>
    simp only [reconstructGroups, bind_eq_ok_iff, pure_eq_ok, ok.injEq] at h
    obtain ⟨group, -, file, hfile, rest, hrest, rfl⟩ := h
    exact forall_mem_cons.mpr ⟨length_of_reconstructGroup hfile, ih hrest⟩

/-- The loop over the entries. -/
theorem length_of_foldlM_collectEntry {entries : List EntryReader} {files files' : CollectedFiles}
    (hentries : ∀ entry ∈ entries, entry.SizedBy self.options)
    (hfiles : ∀ file ∈ files.result, file.data.length ≤ self.options.maxDecodedEntrySize)
    (h : entries.foldlM (self.collectEntry crc32 global) files = .ok files') :
    ∀ file ∈ files'.result, file.data.length ≤ self.options.maxDecodedEntrySize := by
  induction entries generalizing files with
  | nil => rwa [← ok.inj h]
  | cons entry entries ih =>
    obtain ⟨hentry, hentries⟩ := forall_mem_cons.mp hentries
    rw [foldlM_cons, bind_eq_ok_iff] at h
    obtain ⟨middle, hmiddle, h⟩ := h
    exact ih hentries (length_of_collectEntry hentry.length_le hfiles hmiddle) h

/-- What `read_all_logical_files` returns. -/
theorem length_of_readAllLogicalFiles {allowLossy : Bool} {fuel : ℕ} {files : List LogicalFile}
    (h : self.readAllLogicalFiles backend crc32 allowLossy fuel = some (.ok files)) :
    ∀ file ∈ files, file.data.length ≤ self.options.maxDecodedEntrySize := by
  have hentries : ∀ {global : GlobalHeader} {r : ArchiveReader}, r.options = self.options →
      (readEntries backend fuel { r with nextOffset := r.headerLen }).map
        (· >>= r.logicalFiles crc32 global allowLossy) = some (.ok files) →
      ∀ file ∈ files, file.data.length ≤ self.options.maxDecodedEntrySize := by
    intro global r hoptions hfiles
    obtain ⟨result, hresult, hfiles⟩ := Option.map_eq_some_iff.mp hfiles
    simp only [logicalFiles, bind_eq_ok_iff, pure_eq_ok, ok.injEq] at hfiles
    obtain ⟨entries, rfl, collected, hcollect, groups, hgroups, rfl⟩ := hfiles
    rw [← hoptions]
    refine forall_mem_append.mpr ⟨?_, length_of_reconstructGroups hgroups⟩
    have hsized := @sizedBy_readEntries backend { r with nextOffset := r.headerLen } fuel entries
      hresult
    exact length_of_foldlM_collectEntry hsized (forall_mem_nil _) hcollect
  rw [readAllLogicalFiles] at h
  split at h
  · cases h
  · next global r hopened =>
    refine hentries ?_ h
    split at hopened
    · obtain ⟨-, rfl⟩ := Prod.mk.inj (ok.inj hopened)
      rfl
    · simp only [readGlobalHeader, bind_eq_ok_iff, Prod.exists, pure_eq_ok,
        ok.injEq, Prod.mk.injEq] at hopened
      obtain ⟨_, -, _, _, -, -, -, _, _, -, -, rfl⟩ := hopened
      rfl

end ArchiveReader

/-- **Decoded output is bounded.** Whatever the bytes, the limits, the key provider, the base and
the third-party code are: what the reader, the stream parser and `read_all_logical_files` hand out
is within `max_decoded_entry_size`, and an entry that is not sparse has the announced size. -/
theorem decoded_sizedBy (backend : Backend) (crc32 : Bytes → UInt32) :
    (∀ r entry r', ArchiveReader.nextEntry backend r = .ok (some entry, r') →
      entry.SizedBy r.options) ∧
    (∀ p entry p', StreamArchiveParser.step backend p = (.ok (.ready (.entry entry)), p') →
      entry.SizedBy p.options) ∧
    ∀ r allowLossy fuel files,
      ArchiveReader.readAllLogicalFiles backend crc32 r allowLossy fuel = some (.ok files) →
      ∀ file ∈ files, file.data.length ≤ r.options.maxDecodedEntrySize :=
  ⟨fun _ _ _ => ArchiveReader.sizedBy_nextEntry, fun _ _ _ => StreamArchiveParser.sizedBy_step,
    fun _ _ _ _ => ArchiveReader.length_of_readAllLogicalFiles⟩

/-- An archive of one file `b` that holds two bytes. -/
def twoByteFile : Bytes :=
  [0x53, 0x41, 0x52, 0x21, 1, 0, 4, 0, 2, 0, 0, 0,
    21, 0, 0, 0, 0, 0, 0, 0, 0, 0, 2, 0, 0, 0, 2, 0, 0, 0, 1, 0, 98, 104, 105]

/-- The entry that an event of the stream parser carries. -/
def StreamStep.entry? : StreamStep → Option EntryReader
  | .ready (.entry entry) => some entry
  | _ => none

/-- A file of two bytes, read by the reader and by the parser. -/
theorem decoded_sizedBy_twoByteFile :
    (∃ r : ArchiveReader, ∃ entry r' files,
      ArchiveReader.nextEntry .plain r = .ok (some entry, r') ∧ entry.SizedBy r.options ∧
      ArchiveReader.readAllLogicalFiles .plain (fun _ => 0) r false 40 = some (.ok files) ∧
      files.map (·.data) = [[104, 105]] ∧
      ∀ file ∈ files, file.data.length ≤ r.options.maxDecodedEntrySize) ∧
    ∃ p entry p', StreamArchiveParser.step .plain p = (.ok (.ready (.entry entry)), p') ∧
      entry.SizedBy p.options := by
  obtain ⟨hnext, hstep, hall⟩ := decoded_sizedBy .plain fun _ => 0
  constructor
  · have hread : (ArchiveReader.withOptions twoByteFile ⟨.default, none⟩ none >>=
        ArchiveReader.readGlobalHeader).map (fun r =>
          ((ArchiveReader.nextEntry .plain r.2).map fun e => e.1.isSome,
            (r.2.readAllLogicalFiles .plain (fun _ => 0) false 40).map fun files =>
              files.map fun files => files.map (·.data))) =
        .ok (.ok true, some (.ok [[104, 105]])) := by decide +kernel
    obtain ⟨⟨header, r⟩, -, h⟩ := map_eq_ok_iff.mp hread
    obtain ⟨hentry, hfiles⟩ := Prod.mk.inj h
    obtain ⟨⟨entry, r'⟩, hentry, hsome⟩ := map_eq_ok_iff.mp hentry
    obtain ⟨entry, rfl⟩ := Option.isSome_iff_exists.mp hsome
    obtain ⟨files, hfiles, hdata⟩ := Option.map_eq_some_iff.mp hfiles
    obtain ⟨files, rfl, hdata⟩ := map_eq_ok_iff.mp hdata
    exact ⟨r, entry, r', files, hentry, hnext _ _ _ hentry, hfiles,
      ok.inj hdata, hall _ _ _ _ hfiles⟩
  · -- the parser behind the Global Header
    let p := (StreamArchiveParser.step .plain
      ((StreamArchiveParser.withOptions ⟨.default, none⟩ none).append twoByteFile)).2
    have hentry : (StreamArchiveParser.step .plain p).1.toOption.any
        (fun r => (r.entry?.map (·.payload)) == some [104, 105]) = true := by decide +kernel
    rcases hrun : StreamArchiveParser.step .plain p with ⟨_ | (_ | (_ | entry | _) | _), p'⟩ <;>
      rw [hrun] at hentry
    case ok.ready.entry => exact ⟨p, entry, p', hrun, hstep _ _ _ hrun⟩
    all_goals exact nomatch hentry

end Sar
