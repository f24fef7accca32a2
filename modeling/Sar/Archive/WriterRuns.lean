import Sar.Archive.WriterSteps

/-!
# Runs of the archive writer

What successful calls of the writer leave behind: behind a Global Header that is written once they
append one entry each. The settings never change, and once the Global Header is written neither do
the flags (`Holds`).

## Main results

* `Begun.runCalls` — the run: a sealed entry for each call, in order.
* `Begun.finish` — the archive: header, entries, and the index of an indexed archive.
-/

namespace Sar

open Except (rejectIf liftError okOr)
open Stateful LittleEndian List

namespace ArchiveWriter

variable {backend : Backend} {w w' : ArchiveWriter} {stored : List Sealed}

/-! ### The whole run -/

/-- Nothing was written yet. -/
structure Fresh (w : ArchiveWriter) : Prop where
  headerWritten : w.headerWritten = false
  finished : w.finished = false
  sizeForced : w.SizeForced
  writer : w.writer = []
  position : w.position = 0
  offsets : w.offsets = []

/-- The offsets of entries that follow each other. -/
def offsetsFrom : ℕ → List Sealed → List ℕ
  | _, [] => []
  | start, s :: rest => start :: offsetsFrom (start + s.bytes.length) rest

theorem offsetsFrom_append (start : ℕ) (stored : List Sealed) (s : Sealed) :
    offsetsFrom start (stored ++ [s]) =
      offsetsFrom start stored ++ [start + (stored.flatMap Sealed.bytes).length] := by
  induction stored generalizing start with
  | nil => rfl
  | cons first stored ih =>
    rw [cons_append, offsetsFrom, ih, offsetsFrom, flatMap_cons, length_append, Nat.add_assoc]
    rfl

theorem length_offsetsFrom (start : ℕ) (stored : List Sealed) :
    (offsetsFrom start stored).length = stored.length := by
  induction stored generalizing start with
  | nil => rfl
  | cons s stored ih => rw [offsetsFrom, length_cons, length_cons, ih]

/-- The sink holds the Global Header and the given entries. -/
structure Holds (w : ArchiveWriter) (headerBytes : Bytes) (stored : List Sealed) : Prop where
  headerWritten : w.headerWritten = true
  finished : w.finished = false
  sizeForced : w.SizeForced
  header : writeGlobalHeader w.globalHeaderOf = .ok headerBytes
  flagsSection : w.globalFlagsSection = globalHeaderFlagsBytes w.globalHeaderOf
  writer : w.writer = headerBytes ++ stored.flatMap Sealed.bytes
  position : w.position = w.writer.length
  position_le : w.position ≤ u64Max
  offsets : w.offsets = offsetsFrom headerBytes.length stored

/-- What a run leaves: nothing at all, or the header and the entries. -/
def Begun (w : ArchiveWriter) (stored : List Sealed) : Prop :=
  (w.Fresh ∧ stored = []) ∨ ∃ headerBytes, w.Holds headerBytes stored

theorem Begun.sizeForced (h : w.Begun stored) : w.SizeForced := by
  rcases h with ⟨h, -⟩ | ⟨_, h⟩
  · exact h.sizeForced
  · exact h.sizeForced

theorem Begun.finished (h : w.Begun stored) : w.finished = false := by
  rcases h with ⟨h, -⟩ | ⟨_, h⟩
  · exact h.finished
  · exact h.finished

/-- The Global Header comes first. -/
theorem Begun.position_eq_zero (h : w.Begun stored) (hwritten : w.headerWritten = false) :
    w.position = 0 := by
  rcases h with ⟨h, -⟩ | ⟨_, h⟩
  · exact h.position
  · cases hwritten.symm.trans h.headerWritten

/-- Opening the archive puts the Global Header into the sink, and nothing else changes. -/
theorem Begun.holds_of_opened (h : w.Begun stored) (hopened : Opened w w') :
    ∃ headerBytes, w'.Holds headerBytes stored := by
  rcases hopened with ⟨hwritten, rfl⟩ | ⟨hwritten, b, bytes, hforced, hbytes, hle, rfl⟩
  · rcases h with ⟨h, -⟩ | h
    · cases h.headerWritten.symm.trans hwritten
    · exact h
  · rcases h with ⟨h, rfl⟩ | ⟨_, h⟩
    · refine ⟨bytes, rfl, h.finished, hforced, hbytes, rfl, ?_, ?_, hle, h.offsets⟩
      · change w.writer ++ bytes = bytes ++ []
        rw [h.writer, nil_append, append_nil]
      · change w.position + bytes.length = (w.writer ++ bytes).length
        rw [h.writer, h.position, Nat.zero_add, nil_append]
    · cases hwritten.symm.trans h.headerWritten

/-- One more entry in the sink. -/
theorem Holds.appended {headerBytes : Bytes} (h : w.Holds headerBytes stored)
    (nonces : List (Octets 24)) (s : Sealed)
    (hle : (({ w with usedNonces := nonces }).appended s.lfhBytes s.payload).position ≤ u64Max) :
    (({ w with usedNonces := nonces }).appended s.lfhBytes s.payload).Holds headerBytes
      (stored ++ [s]) where
  headerWritten := h.headerWritten
  finished := h.finished
  sizeForced := h.sizeForced
  header := h.header
  flagsSection := h.flagsSection
  writer := by
    change w.writer ++ s.lfhBytes ++ s.payload = _
    rw [h.writer, flatMap_append, append_assoc, append_assoc, flatMap_cons,
      flatMap_nil, append_nil, Sealed.bytes]
  position := by
    change w.position + (s.lfhBytes.length + s.payload.length) =
      (w.writer ++ s.lfhBytes ++ s.payload).length
    rw [h.position, length_append, length_append, Nat.add_assoc]
  position_le := hle
  offsets := by
    change w.offsets ++ [w.position] = _
    rw [offsetsFrom_append, h.offsets, h.position, h.writer, length_append]

/-- What a successful call says about its arguments and about the entry it wrote. -/
def SealsCall (backend : Backend) (w : ArchiveWriter) : Call → Sealed → Prop
  | .addEntry _ entry, s =>
    validateEntryInputMetadata w.flags entry = .ok () ∧
      ∃ wire, wirePayload entry = .ok wire ∧ Seals backend w wire (prepareEntry entry) s
  | .writeSparseEntry _ name gatheredPayload sparse, s =>
    w.flags.sparseFiles = true ∧
      validateSparseExtents sparse.extents sparse.logicalSize.toNat
        ResourceLimits.unlimited.sparseLimits = .ok () ∧
      totalExtentBytes sparse.extents 0 = .ok gatheredPayload.length ∧
      Seals backend w gatheredPayload (prepareSparseEntry name sparse) s

theorem SealsCall.of_frame_eq {call : Call} {s : Sealed} (hframe : w'.frame = w.frame)
    (h : SealsCall backend w call s) : SealsCall backend w' call s := by
  have hflags : w'.flags = w.flags := (congrArg flags hframe :)
  cases call with
  | addEntry random entry =>
    obtain ⟨hvalid, wire, hwire, hseals⟩ := h
    refine ⟨?_, wire, hwire, hseals.of_frame_eq hframe⟩
    rw [hflags]
    exact hvalid
  | writeSparseEntry random name payload sparse =>
    obtain ⟨hsparse, hvalid, htotal, hseals⟩ := h
    refine ⟨?_, hvalid, htotal, hseals.of_frame_eq hframe⟩
    rw [hflags]
    exact hsparse

theorem checkNotFinished_of_not (h : w.finished = false) : checkNotFinished w = (.ok (), w) := by
  rw [checkNotFinished, current_bind, h]
  rfl

theorem flags_eq_of_settings_eq (h : w'.settings = w.settings) :
    { w'.flags with size64Bit := false } = { w.flags with size64Bit := false } :=
  (congrArg flags h :)

/-- A call fails before its entry is written, or comes down to writing an entry that is sealed as
the call asks. -/
theorem Call.run_cases (call : Call) (hfinished : w.finished = false) (hforced : w.SizeForced)
    (hposition : w.headerWritten = false → w.position = 0) :
    (∃ e w', call.run backend w = (.error e, w') ∧ FailsTo w w') ∨
    ∃ w₁ nonces s, Opened w w₁ ∧ (w.Bounded → w₁.Bounded) ∧ SealsCall backend w₁ call s ∧
      call.run backend w = writeEntry s.lfhBytes s.payload { w₁ with usedNonces := nonces } := by
  cases call with
  | addEntry random entry =>
    rw [run, ArchiveWriter.addEntry, bind_apply, checkNotFinished_of_not hfinished, andThen_ok,
      current_bind, bind_apply, lift_apply]
    rcases hvalid : validateEntryInputMetadata w.flags entry with e | _
    · exact .inl ⟨e, w, andThen_error .., .inl rfl⟩
    rw [andThen_ok, bind_apply, lift_apply]
    rcases hwire : wirePayload entry with e | wire
    · exact .inl ⟨e, w, andThen_error .., .inl rfl⟩
    rw [andThen_ok]
    rcases writeEncoded_cases hforced hposition with
      hfails | ⟨w₁, nonces, s, hopened, hbounded, hseals, hrun⟩
    · exact .inl hfails
    refine .inr ⟨w₁, nonces, s, hopened, hbounded, ⟨?_, wire, hwire, hseals⟩, hrun⟩
    -- the check does not look at the width of the size fields
    change validateEntryInputMetadata { w₁.flags with size64Bit := false } entry = .ok ()
    rw [flags_eq_of_settings_eq hopened.settings_eq]
    exact hvalid
  | writeSparseEntry random name payload sparse =>
    rw [run, ArchiveWriter.writeSparseEntry, bind_apply, checkNotFinished_of_not hfinished,
      andThen_ok, current_bind, bind_apply, lift_apply]
    rcases hsparse : rejectIf (!w.flags.sparseFiles) (SarError.malformed
      "write_sparse_entry requires ArchiveWriterOptions::sparse = true") with e | _
    · exact .inl ⟨e, w, andThen_error .., .inl rfl⟩
    rw [andThen_ok, bind_apply, lift_apply]
    rcases hvalid : (validateSparseExtents sparse.extents sparse.logicalSize.toNat
      ResourceLimits.unlimited.sparseLimits).liftError SparseError.toSarError with e | _
    · exact .inl ⟨e, w, andThen_error .., .inl rfl⟩
    rw [andThen_ok, bind_apply, lift_apply]
    rcases htotal : totalExtentBytes sparse.extents 0 with e | total
    · exact .inl ⟨e, w, andThen_error .., .inl rfl⟩
    rw [andThen_ok, bind_apply, lift_apply]
    rcases hlen : rejectIf (payload.length ≠ total) (SarError.invalidMap
      "gathered_payload length does not equal sum of sparse extent lengths") with e | _
    · exact .inl ⟨e, w, andThen_error .., .inl rfl⟩
    rw [andThen_ok]
    rw [Except.rejectIf_eq_ok_iff, not_not] at hlen
    rw [Except.rejectIf_eq_ok_iff, Bool.not_eq_true', Bool.not_eq_false] at hsparse
    subst hlen
    rcases writeEncoded_cases hforced hposition with
      hfails | ⟨w₁, nonces, s, hopened, hbounded, hseals, hrun⟩
    · exact .inl hfails
    refine .inr ⟨w₁, nonces, s, hopened, hbounded,
      ⟨?_, Except.liftError_eq_ok_iff.mp hvalid, htotal, hseals⟩, hrun⟩
    exact (congrArg (fun w => w.flags.sparseFiles) hopened.settings_eq :).trans hsparse

/-- What a successful call does: it opens the archive and appends an entry that is sealed as the
call asks. The settings stay, and so does the frame once the Global Header is written. -/
structure Appends (backend : Backend) (w : ArchiveWriter) (call : Call) (w' : ArchiveWriter)
    (s : Sealed) : Prop where
  opened : ∃ w₁ nonces, Opened w w₁ ∧
    w' = ({ w₁ with usedNonces := nonces }).appended s.lfhBytes s.payload
  position_le : w'.position ≤ u64Max
  bounded : w'.Bounded
  seals : SealsCall backend w' call s
  settings_eq : w'.settings = w.settings
  frame_eq : w.headerWritten = true → w'.frame = w.frame

theorem Call.run_eq_ok {call : Call} {r : EntryWritten} (hw : w.Begun stored)
    (h : call.run backend w = (.ok r, w')) : ∃ s, Appends backend w call w' s := by
  rcases @Call.run_cases backend w call hw.finished hw.sizeForced hw.position_eq_zero with
    ⟨e, w₁, herror, -⟩ | ⟨w₁, nonces, s, hopened, -, hseals, hentry⟩
  · cases herror.symm.trans h
  obtain ⟨rfl, hle, hbounded⟩ := writeEntry_eq_ok (hentry.symm.trans h)
  have hframe : (({ w₁ with usedNonces := nonces }).appended s.lfhBytes s.payload).frame =
      w₁.frame := frame_appended _ _ _
  refine ⟨s, ⟨w₁, nonces, hopened, rfl⟩, hle, hbounded, hseals.of_frame_eq hframe,
    (settings_eq_of_frame_eq hframe).trans hopened.settings_eq, fun hwritten => ?_⟩
  rcases hopened with ⟨-, rfl⟩ | ⟨hnot, -⟩
  · exact hframe
  · cases hwritten.symm.trans hnot

/-- The step: a call that succeeds adds one entry. -/
theorem Begun.call {call : Call} {s : Sealed} (hw : w.Begun stored)
    (h : Appends backend w call w' s) : ∃ headerBytes, w'.Holds headerBytes (stored ++ [s]) := by
  obtain ⟨w₁, nonces, hopened, rfl⟩ := h.opened
  obtain ⟨headerBytes, hholds⟩ := hw.holds_of_opened hopened
  exact ⟨headerBytes, hholds.appended nonces s h.position_le⟩

/-- The run: one sealed entry for each call, in order. -/
theorem Begun.runCalls {calls : List Call} {u : Unit} (hw : w.Begun stored)
    (h : runCalls backend calls w = (.ok u, w')) :
    ∃ new, w'.Begun (stored ++ new) ∧ List.Forall₂ (SealsCall backend w') calls new ∧
      w'.settings = w.settings ∧ (w.headerWritten = true → w'.frame = w.frame) := by
  induction calls generalizing w stored with
  | nil =>
    obtain ⟨-, rfl⟩ := Prod.mk.inj h
    refine ⟨[], ?_, .nil, rfl, fun _ => rfl⟩
    rwa [append_nil]
  | cons call calls ih =>
    obtain ⟨_, w₁, hcall, hrest⟩ := andThen_eq_ok_iff.mp h
    obtain ⟨s, hs⟩ := Call.run_eq_ok hw hcall
    obtain ⟨headerBytes, hholds⟩ := hw.call hs
    obtain ⟨new, hbegun, hall, hsettings, hframe⟩ := ih (.inr ⟨headerBytes, hholds⟩) hrest
    have hframe₁ := hframe hholds.headerWritten
    refine ⟨s :: new, ?_, .cons (hs.seals.of_frame_eq hframe₁) hall, hsettings.trans hs.settings_eq,
      fun hwritten => hframe₁.trans (hs.frame_eq hwritten)⟩
    rwa [append_assoc] at hbegun

/-! ### Construction and the end of the archive -/

/-- What an accepted configuration has passed. -/
structure Configured (backend : Backend) (options : ArchiveWriterOptions)
    (keyProvider : Option KeyProvider) (cdMetadata : List Tlv)
    (encryption : Option ResolvedEncryption) : Prop where
  encryption_eq :
    resolveIf (resolveEncryption backend keyProvider) options.encryption = .ok encryption
  metadata_valid : ∀ tlv ∈ cdMetadata, validateCdMetadataTlv tlv = .ok ()
  recovery_valid : ∀ settings ∈ options.archiveRecovery, settings.validateWriter = .ok ()

theorem new_eq_ok {options : ArchiveWriterOptions} {compression : CompressionSettings}
    {keyProvider : Option KeyProvider} {cdMetadata : List Tlv}
    (h : newWithCompressionKeyProviderAndCdMetadata backend options compression keyProvider
      cdMetadata = .ok w) :
    ∃ encryption, Configured backend options keyProvider cdMetadata encryption ∧
      w = initial options compression encryption cdMetadata := by
  simp only [newWithCompressionKeyProviderAndCdMetadata, Except.bind_eq_ok_iff, Except.exists_unit,
    Except.forM_eq_ok_iff, Except.pure_eq_ok, Except.ok.injEq] at h
  obtain ⟨-, -, -, encryption, hencryption, htlvs, _, hrecovery, -, rfl⟩ := h
  refine ⟨encryption, ⟨hencryption, htlvs, ?_⟩, rfl⟩
  intro settings hsettings
  rw [Option.mem_def] at hsettings
  rw [hsettings] at hrecovery
  obtain ⟨_, hvalid, -⟩ := Except.map_eq_ok_iff.mp hrecovery
  exact hvalid

theorem fresh_initial (options : ArchiveWriterOptions) (compression : CompressionSettings)
    (encryption : Option ResolvedEncryption) (cdMetadata : List Tlv) :
    (initial options compression encryption cdMetadata).Fresh := by
  refine ⟨rfl, rfl, ⟨fun hpolicy => ?_, fun hpolicy => ?_⟩, rfl, rfl, rfl⟩
  · exact decide_eq_true hpolicy
  · refine decide_eq_false fun h => ?_
    cases h.symm.trans hpolicy

/-- The index behind `cdOffset` bytes: dictionary, padding to a multiple of eight, footer. -/
def indexBytes (cdOffset : ℕ) (cdBytes : Bytes) : Bytes :=
  cdBytes ++ (List.replicate ((8 - (cdOffset + cdBytes.length) % 8) % 8) 0 ++
    writeFooter ⟨UInt64.ofNat cdOffset⟩)

/-- The index that an archive has: none, or one for the entries in the sink. -/
def IndexOf (w : ArchiveWriter) (index : Bytes) : Prop :=
  (w.flags.noIndex = true ∧ index = []) ∨
    (w.flags.noIndex = false ∧ ∃ tlvs cdBytes, w.recoveryMetadata = .ok tlvs ∧
      writeCentralDictionary { w.centralDictionaryOf with tlvs := w.cdMetadata ++ tlvs } w.flags =
        .ok cdBytes ∧
      w.position + (indexBytes w.position cdBytes).length ≤ u64Max ∧
      index = indexBytes w.position cdBytes)

/-- The writer with the index in the sink, and with the metadata records that went into it. -/
def indexed (tlvs : List Tlv) (cdBytes : Bytes) (w : ArchiveWriter) : ArchiveWriter :=
  { w with
    cdMetadata := w.cdMetadata ++ tlvs
    writer := w.writer ++ indexBytes w.position cdBytes
    position := w.position + (indexBytes w.position cdBytes).length }

theorem writeIndex_eq_ok_iff {u : Unit} :
    writeIndex w = (.ok u, w') ↔
      ∃ tlvs cdBytes, w.recoveryMetadata = .ok tlvs ∧
        writeCentralDictionary { w.centralDictionaryOf with tlvs := w.cdMetadata ++ tlvs } w.flags =
          .ok cdBytes ∧
        w.position + (indexBytes w.position cdBytes).length ≤ u64Max ∧
        w' = w.indexed tlvs cdBytes := by
  have hlength : ∀ cdBytes, (indexBytes w.position cdBytes).length = cdBytes.length +
      (8 - (w.position + cdBytes.length) % 8) % 8 + 8 := by
    intro cdBytes
    rw [indexBytes, length_append, length_append, length_replicate, writeFooter,
      length_u64Bytes, Nat.add_assoc]
  simp only [writeIndex, finalizeArchiveRecoveryMetadata, writeAll, bind_apply, current_apply,
    andThen_ok, andThen_eq_ok_iff, lift_eq_ok_iff, update_apply, advancePosition_eq_ok_iff,
    Prod.mk.injEq]
  constructor
  · rintro ⟨_, _, ⟨tlvs, _, ⟨htlvs, rfl⟩, -, rfl⟩, cdBytes, _, ⟨hcd, rfl⟩, _, _, ⟨-, rfl⟩, _, _,
      ⟨-, rfl⟩, hle, rfl⟩
    refine ⟨tlvs, cdBytes, htlvs, hcd, ?_, ?_⟩
    · dsimp only at hle
      rw [hlength]
      omega
    · rw [indexed, hlength, indexBytes]
      simp only [append_assoc, Nat.add_assoc]
  · rintro ⟨tlvs, cdBytes, htlvs, hcd, hle, rfl⟩
    rw [hlength] at hle
    refine ⟨(), _, ⟨tlvs, w, ⟨htlvs, rfl⟩, trivial, rfl⟩, cdBytes, _, ⟨hcd, rfl⟩, (), _,
      ⟨?_, rfl⟩, (), _, ⟨?_, rfl⟩, ?_, ?_⟩
    · dsimp only
      omega
    · dsimp only
      omega
    · dsimp only
      omega
    · rw [indexed, hlength, indexBytes]
      simp only [append_assoc, Nat.add_assoc]

/-- The archive that `finish` leaves: the Global Header, the entries, and the index. -/
theorem Begun.finish {r : ArchiveSummary} (hw : w.Begun stored) (h : finish w = (.ok r, w')) :
    ∃ w₁ headerBytes index, emitGlobalHeaderIfNeeded w = (.ok (), w₁) ∧ Opened w w₁ ∧
      w₁.Holds headerBytes stored ∧ w₁.IndexOf index ∧ w'.writer = w₁.writer ++ index ∧
      r = ⟨stored.length, w'.writer.length, !w₁.flags.noIndex⟩ := by
  simp only [ArchiveWriter.finish, writeIndexIfIndexed, bind_apply,
    checkNotFinished_of_not hw.finished, andThen_ok, andThen_eq_ok_iff, update_apply,
    current_apply, pure_apply, Prod.mk.injEq, Except.ok.injEq] at h
  obtain ⟨_, w₁, hemit, _, w₂, hindex, rfl, rfl⟩ := h
  obtain ⟨hopened, -⟩ := Opened.of_emit hw.sizeForced ⟨w.flags.size64Bit, rfl⟩ (fun _ => rfl) hemit
  obtain ⟨headerBytes, hholds⟩ := hw.holds_of_opened hopened
  have hcount : w₁.offsets.length = stored.length := by
    rw [hholds.offsets, length_offsetsFrom]
  split at hindex
  · rename_i hidx
    obtain ⟨-, rfl⟩ := Prod.mk.inj hindex
    refine ⟨w₁, headerBytes, [], hemit, hopened, hholds, .inl ⟨hidx, rfl⟩,
      (append_nil _).symm, ?_⟩
    rw [← hcount, ← hholds.position]
  · rename_i hidx
    obtain ⟨tlvs, cdBytes, htlvs, hcd, hle, rfl⟩ := writeIndex_eq_ok_iff.mp hindex
    refine ⟨w₁, headerBytes, _, hemit, hopened, hholds,
      .inr ⟨by simpa using hidx, tlvs, cdBytes, htlvs, hcd, hle, rfl⟩, rfl, ?_⟩
    simp only [indexed, length_append, ← hcount, ← hholds.position]

end ArchiveWriter

end Sar
