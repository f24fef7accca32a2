import Sar.Archive.WriterFinish

/-!
# Stored entries

The forward direction for the simplest kind of entry: without compression, encryption and error
correction `addEntry` is `writeEntry`, with a Local File Header that does not depend on the bytes
of the payload (`addEntry_stored`). What the writer does with entries of many gigabytes can be
told from that without looking at their bytes.
-/

namespace Sar

open Except (rejectIf liftError okOr)
open Stateful LittleEndian

namespace ArchiveWriter

variable {backend : Backend} {w : ArchiveWriter}

/-- Flags that ask nothing of an entry but its name and its payload. -/
def bareFlags (hasRecovery : Bool) : GlobalFlags :=
  { optPresent := hasRecovery, hasGlobalEc := hasRecovery }

/-- The writer stores entries as they are, with 32-bit size fields. -/
structure Stores (w : ArchiveWriter) : Prop where
  finished : w.finished = false
  compression : w.compression = .store
  flags : ∃ hasRecovery, w.flags = bareFlags hasRecovery
  fec : w.fec = none

/-- An entry named `a` with nothing but a payload. -/
def plainEntry (payload : Bytes) (h : payload.length ≤ isizeMax) : EntryInput :=
  { name := ⟨[97], validUtf8_letter⟩, payload, payload_le := h }

/-- The bytes of its Local File Header. -/
def plainLfhBytes (payloadLen : ℕ) : Result Bytes :=
  writeLfh {} (LocalFileHeader.minimalStore [97] (UInt64.ofNat payloadLen))

/-- A plain entry is stored as it is given, behind a header that only its length decides. -/
theorem addEntry_plainEntry {random : Fin 3 → Octets 24} {payload lfhBytes : Bytes}
    {w₀ w₁ : ArchiveWriter} (hlen : payload.length ≤ isizeMax) (hw : w.Stores) (hw₁ : w₁.Stores)
    (hsize : applySizePolicy payload.length payload.length w = (.ok (), w₀))
    (hemit : emitGlobalHeaderIfNeeded w₀ = (.ok (), w₁))
    (hlfh : plainLfhBytes payload.length = .ok lfhBytes) :
    addEntry backend random (plainEntry payload hlen) w = writeEntry lfhBytes payload w₁ := by
  obtain ⟨hasRecovery, hflags⟩ := hw.flags
  obtain ⟨hasRecovery₁, hflags₁⟩ := hw₁.flags
  have hvalid : validateEntryInputMetadata w.flags (plainEntry payload hlen) = .ok () := by
    rw [hflags]
    rfl
  have hencode : encodePayloadV2 backend payload (w.encodingPlan none) = .ok payload := by
    rw [encodingPlan, hw.compression]
    rfl
  have hannounced : w.announcedLen payload.length = .ok payload.length := by
    rw [announcedLen, hflags]
    rfl
  have hprepare : prepareEntry (plainEntry payload hlen) w₁.flags (UInt64.ofNat payload.length) =
      .ok (LocalFileHeader.minimalStore [97] (UInt64.ofNat payload.length)) := by
    have hbits : entryModeBits (plainEntry payload hlen) = 0 := by
      simp [entryModeBits, plainEntry, Str.isEmpty]
    rw [hflags₁, prepareEntry, applyEntryInputToLfh, hbits, UInt16.or_zero]
    rfl
  have hfields : w₁.withWriterFields (LocalFileHeader.minimalStore [97]
      (UInt64.ofNat payload.length)) =
      LocalFileHeader.minimalStore [97] (UInt64.ofNat payload.length) := by
    rw [withWriterFields, hflags₁, hw₁.compression, hw₁.fec]
    rfl
  have hfec : w₁.fecValueOf payload = .ok [] := by
    rw [fecValueOf, hw₁.fec]
    rfl
  have hencrypted : w₁.flags.encrypted = false := by rw [hflags₁]; rfl
  have hwrite : writeLfh w₁.flags { LocalFileHeader.minimalStore [97]
      (UInt64.ofNat payload.length) with fecValue := [] } = .ok lfhBytes := by
    rw [hflags₁]
    exact hlfh
  rw [addEntry, bind_apply, checkNotFinished_of_not hw.finished, andThen_ok, current_bind,
    bind_apply, hvalid, lift_apply, andThen_ok, bind_apply]
  change andThen (lift (.ok payload) w) _ = _
  rw [lift_apply, andThen_ok, writeEncoded, current_bind, bind_apply, hencode, lift_apply,
    andThen_ok, bind_apply, hannounced, lift_apply, andThen_ok]
  change andThen (applySizePolicy payload.length payload.length w) _ = _
  rw [hsize, andThen_ok, bind_apply, hemit, andThen_ok, current_bind, bind_apply, hprepare,
    lift_apply, andThen_ok, hfields, hencrypted, if_neg Bool.false_ne_true, writePlain,
    current_bind, bind_apply, hfec, lift_apply, andThen_ok, bind_apply, hwrite, lift_apply,
    andThen_ok]

/-- What the size policy does with entries below four gigabytes. -/
theorem applySizePolicy_small {n : ℕ} (hpolicy : w.lfhSizeFieldPolicy = .auto)
    (hflags : w.flags.size64Bit = false) (hn : n < 2 ^ 32) :
    applySizePolicy n n w = (.ok (), w) := by
  have hexceeds : (decide (n ≥ 2 ^ 32) || decide (n ≥ 2 ^ 32)) = false := by
    rw [Bool.or_self]
    exact decide_eq_false (not_le.mpr hn)
  have hsame : w.withSize64Bit false = w := by
    rw [withSize64Bit, ← hflags]
  rw [applySizePolicy, current_bind]
  simp only [hpolicy, hexceeds, Bool.false_eq_true, if_false]
  split
  · rw [update_apply, hsame]
  · rfl

/-- A plain entry that is added to the sink. -/
theorem addEntry_plainEntry_eq_ok {random : Fin 3 → Octets 24} {payload lfhBytes : Bytes}
    {w₁ : ArchiveWriter} (hlen : payload.length ≤ isizeMax) (hw : w.Stores) (hw₁ : w₁.Stores)
    (hpolicy : w.lfhSizeFieldPolicy = .auto) (hemit : emitGlobalHeaderIfNeeded w = (.ok (), w₁))
    (hsmall : payload.length < 2 ^ 32) (hlfh : plainLfhBytes payload.length = .ok lfhBytes)
    (hroom : w₁.HasRoom (lfhBytes.length + payload.length))
    (hle : w₁.position + (lfhBytes.length + payload.length) ≤ u64Max) :
    addEntry backend random (plainEntry payload hlen) w =
      (.ok ⟨w₁.position, lfhBytes.length + payload.length⟩, w₁.appended lfhBytes payload) := by
  have hflag : w.flags.size64Bit = false := by
    obtain ⟨hasRecovery, hflags⟩ := hw.flags
    rw [hflags]
    rfl
  rw [addEntry_plainEntry hlen hw hw₁ (applySizePolicy_small hpolicy hflag hsmall) hemit hlfh]
  have houtcome := writeEntry_outcome w₁ lfhBytes payload
  generalize writeEntry lfhBytes payload w₁ = r at houtcome ⊢
  cases houtcome with
  | written => rfl
  | refused e hfull => exact absurd (fun r hr => by have := hroom r hr; omega) hfull
  | halved e _ hfull => exact absurd hroom hfull
  | overflowed e _ hover => exact absurd hle (not_le.mpr hover)

theorem emitGlobalHeaderIfNeeded_of_written (h : w.headerWritten = true) :
    emitGlobalHeaderIfNeeded w = (.ok (), w) := by
  rw [emitGlobalHeaderIfNeeded, current_bind, h]
  rfl

/-! ### Archives that outgrow their size fields -/

/-- **When an archive can be finished.** After calls that all succeeded, with a parity within the
limit of the recovery codec, `finish` succeeds exactly when the state it finds is `Finishable`. -/
theorem finish_succeeds_iff (options : ArchiveWriterOptions) (compression : CompressionSettings)
    (keyProvider : Option KeyProvider) (cdMetadata : List Tlv) (calls : List Call)
    (start w : ArchiveWriter)
    (hnew : newWithCompressionKeyProviderAndCdMetadata backend options compression keyProvider
      cdMetadata = .ok start)
    (hcalls : runCalls backend calls start = (.ok (), w)) (hparity : w.ParityWithinLimit) :
    (∃ summary finished, finish w = (.ok summary, finished)) ↔ w.Finishable := by
  obtain ⟨encryption, hstart⟩ := consistent_initial hnew
  obtain ⟨stored, hw⟩ := hstart.runCalls hcalls
  exact hw.finish_eq_ok_iff hparity

/-- An indexed archive with nothing else asked for. -/
def indexedOnly : ArchiveWriter := initial { noIndex := false } .store none []

/-- Two plain entries. -/
def plainCalls (payload payload' : Bytes) (h : payload.length ≤ isizeMax)
    (h' : payload'.length ≤ isizeMax) : List Call :=
  [.addEntry (fun _ => Octets.zero 24) (plainEntry payload h),
    .addEntry (fun _ => Octets.zero 24) (plainEntry payload' h')]

/-- An entry one byte below four gigabytes and a short one behind it are both accepted. -/
theorem runCalls_large {payload payload' : Bytes} (h : payload.length ≤ isizeMax)
    (h' : payload'.length ≤ isizeMax) (hlarge : payload.length = 2 ^ 32 - 1)
    (hshort : payload'.length = 1) :
    ∃ w offset, runCalls Backend.plain (plainCalls payload payload' h h') indexedOnly =
      (.ok (), w) ∧
      w.Stores ∧ w.headerWritten = true ∧ w.flags = bareFlags false ∧ w.archiveRecovery = none ∧
      w.offsets = [12, offset] ∧ 2 ^ 32 ≤ offset ∧ offset ≤ u64Max := by
  have hmax : (2 : ℕ) ^ 40 ≤ u64Max := by decide
  obtain ⟨first, hfirst⟩ : ∃ bytes, plainLfhBytes payload.length = .ok bytes := by
    rw [hlarge]
    exact Except.isOk_iff_exists.mp (by decide +kernel)
  obtain ⟨second, hsecond⟩ : ∃ bytes, plainLfhBytes payload'.length = .ok bytes := by
    rw [hshort]
    exact Except.isOk_iff_exists.mp (by decide +kernel)
  have hfirstLen : first.length < 2 ^ 32 := (length_writeLfh hfirst).2
  have hsecondLen : second.length < 2 ^ 32 := (length_writeLfh hsecond).2
  -- the Global Header comes with the first entry
  set w₁ := indexedOnly.headered indexedOnly.headerBytesOf with hw₁
  have hposition : w₁.position = 12 := rfl
  have hadd : addEntry Backend.plain (fun _ => Octets.zero 24) (plainEntry payload h) indexedOnly =
      (.ok ⟨w₁.position, first.length + payload.length⟩, w₁.appended first payload) :=
    addEntry_plainEntry_eq_ok h ⟨rfl, rfl, ⟨false, rfl⟩, rfl⟩ ⟨rfl, rfl, ⟨false, rfl⟩, rfl⟩ rfl rfl
      (by omega) hfirst (fun r hr => nomatch hr) (by omega)
  set w₂ := w₁.appended first payload with hw₂
  have hposition₂ : w₂.position = 12 + (first.length + payload.length) := rfl
  have hadd' : addEntry Backend.plain (fun _ => Octets.zero 24) (plainEntry payload' h') w₂ =
      (.ok ⟨w₂.position, second.length + payload'.length⟩, w₂.appended second payload') :=
    addEntry_plainEntry_eq_ok h' ⟨rfl, rfl, ⟨false, rfl⟩, rfl⟩ ⟨rfl, rfl, ⟨false, rfl⟩, rfl⟩ rfl
      (emitGlobalHeaderIfNeeded_of_written rfl) (by omega) hsecond (fun r hr => nomatch hr)
      (by omega)
  refine ⟨w₂.appended second payload', w₂.position, ?_, ⟨rfl, rfl, ⟨false, rfl⟩, rfl⟩, rfl, rfl,
    rfl,
    rfl, ?_, by omega⟩
  · rw [plainCalls, runCalls, bind_apply, Call.run, hadd, andThen_ok, runCalls, bind_apply,
      Call.run, hadd', andThen_ok]
    rfl
  · rw [hposition₂, hlarge]
    have := length_pos_of_writeLfh hfirst
    omega

/-- An indexed archive whose index cannot be written is not finished. -/
theorem finish_of_writeIndex_error {e : SarError} {w' : ArchiveWriter}
    (hfinished : w.finished = false)
    (hwritten : w.headerWritten = true) (hidx : w.flags.noIndex = false)
    (hindex : writeIndex { w with streamState := .needCentralDictionaryOrFooter } =
      (.error e, w')) : finish w = (.error e, w') := by
  rw [finish, bind_apply, checkNotFinished_of_not hfinished, andThen_ok, bind_apply,
    emitGlobalHeaderIfNeeded_of_written hwritten, andThen_ok, update_bind, bind_apply,
    writeIndexIfIndexed, current_bind, hidx, if_neg Bool.false_ne_true, hindex, andThen_error]

/-- An offset beyond four gigabytes does not fit a dictionary with 32-bit fields. -/
theorem finish_of_large_offset {offset : ℕ} (hw : w.Stores) (hwritten : w.headerWritten = true)
    (hflags : w.flags = bareFlags false) (hrec : w.archiveRecovery = none)
    (hoffsets : w.offsets = [12, offset]) (hlarge : 2 ^ 32 ≤ offset) (hmax : offset ≤ u64Max) :
    finish w = (.error (.overflow "size does not fit 32-bit field"),
      { w with
        streamState := .needCentralDictionaryOrFooter, cdMetadata := w.cdMetadata ++ [] }) := by
  have hsize : writeSize (bareFlags false) (UInt64.ofNat offset) =
      .error (.overflow "size does not fit 32-bit field") := by
    rw [writeSize, if_neg (by decide), toNat_uint64_ofNat hmax, Except.rejectIf_of hlarge]
    rfl
  have hcd : writeCentralDictionary { w.centralDictionaryOf with tlvs := w.cdMetadata ++ [] }
      w.flags = .error (.overflow "size does not fit 32-bit field") := by
    have hfirst : writeSize (bareFlags false) (UInt64.ofNat 12) = .ok (u32Bytes 12) := rfl
    have hsizes : writeSizes (bareFlags false) [UInt64.ofNat 12, UInt64.ofNat offset] =
        .error (.overflow "size does not fit 32-bit field") := by
      rw [writeSizes, hfirst, Except.ok_bind, writeSizes, hsize]
      rfl
    rw [hflags]
    simp only [writeCentralDictionary, centralDictionaryOf, hoffsets, List.map_cons, List.map_nil,
      hsizes]
    rfl
  have hmeta : w.recoveryMetadata = .ok [] := by
    rw [recoveryMetadata, hrec]
    rfl
  refine finish_of_writeIndex_error hw.finished hwritten (by rw [hflags]; rfl) ?_
  rw [writeIndex, bind_apply, finalizeArchiveRecoveryMetadata, current_bind, bind_apply]
  change andThen (andThen (lift w.recoveryMetadata _) _) _ = _
  rw [hmeta, lift_apply, andThen_ok, update_apply, andThen_ok, current_bind, bind_apply]
  change andThen (lift (writeCentralDictionary
    { w.centralDictionaryOf with tlvs := w.cdMetadata ++ [] } w.flags) _) _ = _
  rw [hcd]
  rfl

/-- The size of every entry fits its fields, but the offset of the second entry does not: all
calls succeed and `finish` fails. -/
theorem not_finish_large :
    ∃ w w',
      newWithCompressionKeyProviderAndCdMetadata Backend.plain { noIndex := false } .store none
        [] = .ok indexedOnly ∧
      runCalls Backend.plain (plainCalls (List.replicate (2 ^ 32 - 1) 0) [1]
        (by rw [List.length_replicate]; decide) (by decide)) indexedOnly = (.ok (), w) ∧
      w.ParityWithinLimit ∧
      finish w = (.error (.overflow "size does not fit 32-bit field"), w') := by
  obtain ⟨w, offset, hcalls, hstores, hwritten, hflags, hrec, hoffsets, hlarge, hmax⟩ :=
    @runCalls_large (List.replicate (2 ^ 32 - 1) 0) [1] (by rw [List.length_replicate]; decide)
      (by decide) List.length_replicate rfl
  refine ⟨w, _, rfl, hcalls, fun r hr => ?_,
    finish_of_large_offset hstores hwritten hflags hrec hoffsets hlarge hmax⟩
  rw [hrec] at hr
  cases hr

theorem length_one_le : [(1 : UInt8)].length ≤ isizeMax := by decide

/-- Two short entries. -/
def shortCalls : List Call := plainCalls [1] [2] length_one_le (by decide)

/-- The archive that holds them. -/
def shortRun : Except SarError ArchiveSummary × ArchiveWriter :=
  (do runCalls Backend.plain shortCalls; finish : WriterM ArchiveSummary) indexedOnly

theorem shortRun_fst : shortRun.1 = .ok ⟨2, 88, true⟩ := by
  decide +kernel

/-- They can be finished. -/
theorem finish_succeeds_iff_short :
    ∃ w, runCalls Backend.plain shortCalls indexedOnly = (.ok (), w) ∧ w.Finishable := by
  have hrun : (do runCalls Backend.plain shortCalls; finish : WriterM ArchiveSummary) indexedOnly =
      shortRun := by
    rw [shortRun]
  have hfst := shortRun_fst
  generalize shortRun = run at *
  obtain ⟨result, finished⟩ := run
  obtain rfl : result = .ok _ := hfst
  obtain ⟨_, w, hcalls, hfinish⟩ := andThen_eq_ok_iff.mp hrun
  have hnew : newWithCompressionKeyProviderAndCdMetadata Backend.plain { noIndex := false } .store
      none [] = .ok indexedOnly := rfl
  obtain ⟨encryption, hstart⟩ := consistent_initial hnew
  obtain ⟨stored, hw⟩ := hstart.runCalls hcalls
  have hparity : w.ParityWithinLimit := by
    intro r hr
    have hsome := hw.writtenUnder.archiveRecovery.1
    rw [Option.mem_def.mp hr] at hsome
    cases hsome
  exact ⟨w, hcalls, (finish_succeeds_iff { noIndex := false } .store none [] shortCalls indexedOnly
    w hnew hcalls hparity).mp ⟨_, finished, hfinish⟩⟩

end ArchiveWriter

end Sar
