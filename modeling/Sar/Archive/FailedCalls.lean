import Sar.Archive.StoredEntries

/-!
# Calls that fail

A caller may go on after a call that failed. `runEach` makes such a run, and `CallFits` is what a
call needs in order to be harmless if it fails: once the bytes of the Local File Header are under
archive-level recovery, the payload must not be refused any more, since nothing takes the header's
bytes back; and the position must not overflow once the entry is in the sink.

* `Call.failsTo`: what such a call leaves when it fails.
* `Consistent.runEach`: the run keeps the writer consistent, with the entries of the calls that
  succeeded.
* `runEach_harmless`: what that says about the sink, the offsets, the bytes under recovery and
  `finish`.
-/

namespace Sar

open Except (rejectIf liftError okOr ok.inj)
open Stateful LittleEndian List

namespace ArchiveWriter

variable {backend : Backend} {w w' : ArchiveWriter} {stored : List Sealed}

/-! ### One call -/

/-- The writer takes the entry as a whole, or refuses it before it has taken note of its header. -/
def EntryFits (w : ArchiveWriter) (s : Sealed) : Prop :=
  (w.HasRoom s.lfhBytes.length → w.HasRoom (s.lfhBytes.length + s.payload.length)) ∧
    w.position + (s.lfhBytes.length + s.payload.length) ≤ u64Max

/-- The same for every entry that the call may seal. -/
def CallFits (backend : Backend) (w : ArchiveWriter) (call : Call) : Prop :=
  ∀ w₁ s, Opened w w₁ → SealsCall backend w₁ call s → w₁.EntryFits s

theorem writeEntry_eq_error {s : Sealed} {e : SarError} (hfits : w.EntryFits s)
    (h : writeEntry s.lfhBytes s.payload w = (.error e, w')) :
    w' = { w with streamState := .needPayload } := by
  have houtcome := writeEntry_outcome w s.lfhBytes s.payload
  rw [h] at houtcome
  cases houtcome with
  | refused => rfl
  | halved _ hroom hfull => exact absurd (hfits.1 hroom) hfull
  | overflowed _ _ hover => exact absurd hfits.2 (not_le.mpr hover)

/-- A call that fits and fails. -/
theorem Call.failsTo {call : Call} {e : SarError} (hw : w.Begun stored)
    (hfits : CallFits backend w call) (h : call.run backend w = (.error e, w')) : FailsTo w w' := by
  rcases @Call.run_cases backend w call hw.finished hw.sizeForced hw.position_eq_zero with
    ⟨e', w₁, herror, hfails⟩ | ⟨w₁, nonces, s, hopened, hbounded, hseals, hentry⟩
  · obtain ⟨-, rfl⟩ := Prod.mk.inj (herror.symm.trans h)
    exact hfails
  · have hfits₁ : ({ w₁ with usedNonces := nonces } : ArchiveWriter).EntryFits s :=
      hfits w₁ s hopened hseals
    obtain rfl := writeEntry_eq_error hfits₁ (hentry.symm.trans h)
    exact .inr (.inr ⟨w₁, nonces, .needPayload, hopened, hbounded, rfl⟩)

/-- What a failed call may add to the sink: nothing, or the Global Header in an empty one. -/
def AddsAtMostHeader (w w' : ArchiveWriter) : Prop :=
  w'.writer = w.writer ∨
    (w.writer = [] ∧ writeGlobalHeader w'.globalHeaderOf = .ok w'.writer)

theorem FailsTo.addsAtMostHeader (hw : w.Begun stored) (h : FailsTo w w') :
    w'.offsets = w.offsets ∧ AddsAtMostHeader w w' := by
  rcases h with rfl | ⟨-, b, flagsSection, -, rfl⟩ | ⟨w₁, nonces, state, hopened, -, rfl⟩
  · exact ⟨rfl, .inl rfl⟩
  · exact ⟨rfl, .inl rfl⟩
  · rcases hopened with ⟨-, rfl⟩ | ⟨hwritten, b, bytes, -, hbytes, -, rfl⟩
    · exact ⟨rfl, .inl rfl⟩
    · rcases hw with ⟨hfresh, -⟩ | ⟨_, hholds⟩
      · refine ⟨rfl, .inr ⟨hfresh.writer, ?_⟩⟩
        change writeGlobalHeader (w.withSize64Bit b).globalHeaderOf = .ok (w.writer ++ bytes)
        rw [hfresh.writer, nil_append, hbytes]
      · cases hwritten.symm.trans hholds.headerWritten

theorem FailsTo.settings_eq (h : FailsTo w w') :
    w'.settings = w.settings ∧ (w.headerWritten = true → w'.frame = w.frame) := by
  rcases h with rfl | ⟨hwritten, b, flagsSection, -, rfl⟩ | ⟨w₁, nonces, state, hopened, -, rfl⟩
  · exact ⟨rfl, fun _ => rfl⟩
  · exact ⟨rfl, fun h => nomatch hwritten.symm.trans h⟩
  · refine ⟨hopened.settings_eq, fun hwritten => ?_⟩
    rcases hopened with ⟨-, rfl⟩ | ⟨hnot, -⟩
    · rfl
    · cases hwritten.symm.trans hnot

/-- The nonces and the state of the stream are no part of what the sink holds. -/
theorem Holds.of_nonces {headerBytes : Bytes} (h : w.Holds headerBytes stored)
    (nonces : List (Octets 24)) (state : StreamWriteState) :
    ({ w with usedNonces := nonces, streamState := state } : ArchiveWriter).Holds headerBytes
      stored :=
  ⟨h.headerWritten, h.finished, h.sizeForced, h.header, h.flagsSection, h.writer, h.position,
    h.position_le, h.offsets⟩

theorem FailsTo.begun (hw : w.Begun stored) (h : FailsTo w w') : w'.Begun stored := by
  rcases h with rfl | ⟨hwritten, b, flagsSection, hforced, rfl⟩ |
    ⟨w₁, nonces, state, hopened, -, rfl⟩
  · exact hw
  · rcases hw with ⟨hfresh, rfl⟩ | ⟨_, hholds⟩
    · exact .inl ⟨⟨hwritten, hfresh.finished, hforced, hfresh.writer, hfresh.position,
        hfresh.offsets⟩, rfl⟩
    · cases hwritten.symm.trans hholds.headerWritten
  · obtain ⟨headerBytes, hholds⟩ := hw.holds_of_opened hopened
    exact .inr ⟨headerBytes, hholds.of_nonces nonces state⟩

theorem FailsTo.tracks (hw : w.Begun stored) (htracks : w.Tracks) (h : FailsTo w w') :
    w'.Tracks := by
  rcases h with rfl | ⟨-, b, flagsSection, -, rfl⟩ | ⟨w₁, nonces, state, hopened, -, rfl⟩
  · exact htracks
  · exact htracks
  · exact (htracks.opened hw hopened : w₁.Tracks)

/-! ### Runs with failures -/

variable {options : ArchiveWriterOptions} {compression : CompressionSettings}
  {keyProvider : Option KeyProvider} {cdMetadata : List Tlv}
  {encryption : Option ResolvedEncryption}

section Consistent

variable (h : Consistent backend options compression keyProvider cdMetadata encryption w stored)

include h

theorem Consistent.of_failsTo (hfails : FailsTo w w') :
    Consistent backend options compression keyProvider cdMetadata encryption w' stored := by
  refine ⟨⟨h.writtenUnder.configured, ?_⟩, h.admitted, hfails.begun h.begun, h.nonempty,
    hfails.tracks h.begun h.tracks, hfails.bounded h.bounded⟩
  exact hfails.settings_eq.1.trans h.writtenUnder.settings_eq

/-- The step: a call that fails. -/
theorem Consistent.failed {call : Call} {e : SarError} (hfits : CallFits backend w call)
    (hcall : call.run backend w = (.error e, w')) :
    Consistent backend options compression keyProvider cdMetadata encryption w' stored ∧
      FailsTo w w' := by
  have hfails := Call.failsTo h.begun hfits hcall
  exact ⟨h.of_failsTo hfails, hfails⟩

end Consistent

/-- Each of the calls fits the writer it finds. -/
def FitsAll (backend : Backend) : List Call → ArchiveWriter → Prop
  | [], _ => True
  | call :: calls, w => CallFits backend w call ∧ FitsAll backend calls (call.run backend w).2

/-- The calls that succeeded. -/
def succeeded : List Call → List (Result EntryWritten) → List Call
  | [], _ => []
  | _, [] => []
  | call :: calls, .ok _ :: results => call :: succeeded calls results
  | _ :: calls, .error _ :: results => succeeded calls results

/-- The run: the calls that succeed add one entry each, and the others none. -/
theorem Consistent.runEach {calls done : List Call}
    (h : Consistent backend options compression keyProvider cdMetadata encryption w stored)
    (hseals : List.Forall₂ (SealsCall backend w) done stored) (hfits : FitsAll backend calls w) :
    ∃ new, Consistent backend options compression keyProvider cdMetadata encryption
        (ArchiveWriter.runEach backend calls w).2 new ∧
      List.Forall₂ (SealsCall backend (ArchiveWriter.runEach backend calls w).2)
        (done ++ succeeded calls (ArchiveWriter.runEach backend calls w).1) new := by
  induction calls generalizing w stored done with
  | nil => exact ⟨stored, h, by rwa [succeeded, append_nil]⟩
  | cons call calls ih =>
    obtain ⟨hcall, hrest⟩ := hfits
    rw [ArchiveWriter.runEach]
    rcases hrun : call.run backend w with ⟨e | r, w₁⟩
    · rw [hrun] at hrest
      obtain ⟨hnext, hfails⟩ := h.failed hcall hrun
      refine ih hnext ?_ hrest
      -- entries are in the sink only if the frame was fixed before
      rcases h.begun with ⟨-, rfl⟩ | ⟨_, hholds⟩
      · rw [forall₂_nil_right_iff] at hseals ⊢
        exact hseals
      · have hframe := hfails.settings_eq.2 hholds.headerWritten
        exact hseals.imp fun _ _ hseals => hseals.of_frame_eq hframe
    · rw [hrun] at hrest
      obtain ⟨s, hs, hnext⟩ := h.call hrun
      have hseals₁ : List.Forall₂ (SealsCall backend w₁) (done ++ [call]) (stored ++ [s]) := by
        refine rel_append ?_ (.cons hs.seals .nil)
        rcases h.begun with ⟨-, rfl⟩ | ⟨_, hholds⟩
        · rw [forall₂_nil_right_iff] at hseals ⊢
          exact hseals
        · exact hseals.imp fun _ _ hseals => hseals.of_frame_eq (hs.frame_eq hholds.headerWritten)
      obtain ⟨new, hlast, hall⟩ := ih hnext hseals₁ hrest
      refine ⟨new, hlast, ?_⟩
      rwa [append_assoc] at hall

/-- **Failed calls are harmless.** In a run of calls that fit, whether they succeed or fail,
archive-level recovery has seen what the sink holds; a further call that fails adds no offset, and
nothing but the Global Header to the sink; and `finish` succeeds on a state that can be finished
and leaves an archive with the entries of the calls that succeeded. -/
theorem runEach_harmless (options : ArchiveWriterOptions) (compression : CompressionSettings)
    (keyProvider : Option KeyProvider) (cdMetadata : List Tlv) (calls : List Call)
    (start w : ArchiveWriter) (results : List (Result EntryWritten))
    (hnew : newWithCompressionKeyProviderAndCdMetadata backend options compression keyProvider
      cdMetadata = .ok start)
    (hfits : FitsAll backend calls start) (hrun : runEach backend calls start = (results, w)) :
    w.Tracks ∧
      (∀ call e w', CallFits backend w call → call.run backend w = (.error e, w') →
        w'.offsets = w.offsets ∧ AddsAtMostHeader w w' ∧ w'.Tracks) ∧
      (w.ParityWithinLimit → w.Finishable →
        ∃ summary finished, finish w = (.ok summary, finished)) ∧
      ∀ summary finished, finish w = (.ok summary, finished) →
        ∃ w₁ headerBytes stored index, Layout backend (succeeded calls results) summary
          finished.writer w₁ headerBytes stored index := by
  obtain ⟨encryption, hstart⟩ := consistent_initial hnew
  obtain ⟨stored, hw, hseals⟩ := hstart.runEach .nil hfits
  rw [hrun] at hw hseals
  refine ⟨hw.tracks, ?_, ?_, ?_⟩
  · intro call e w' hcall herror
    obtain ⟨hnext, hfails⟩ := hw.failed hcall herror
    obtain ⟨hoffsets, hadds⟩ := hfails.addsAtMostHeader hw.begun
    exact ⟨hoffsets, hadds, hnext.tracks⟩
  · intro hparity hfin
    exact (hw.finish_eq_ok_iff hparity).mpr hfin
  · intro summary finished hfinish
    obtain ⟨w₁, headerBytes, index, harchived, -, hsummary⟩ := hw.begun.archived hseals hfinish
    exact ⟨w₁, headerBytes, stored, index, harchived.layout hsummary⟩

/-! ### An entry that is too large for the recovery buffer -/

/-- `finish` notices that recovery has seen other bytes than the sink. -/
theorem finish_of_length_mismatch {r : ArchiveRecoveryState} (hfinished : w.finished = false)
    (hwritten : w.headerWritten = true) (hidx : w.flags.noIndex = false)
    (hrec : w.archiveRecovery = some r) (hstart : r.protectedRangeStart ≤ w.position)
    (hlen : r.protectedBytes.length ≠ w.position - r.protectedRangeStart) :
    finish w = (.error (.internal "archive recovery protected byte tracking length mismatch"),
      { w with streamState := .needCentralDictionaryOrFooter }) := by
  have hmeta : w.recoveryMetadata =
      .error (.internal "archive recovery protected byte tracking length mismatch") := by
    rw [recoveryMetadata, hrec]
    dsimp only
    rw [Except.rejectIf_bind (not_lt.mpr hstart), Except.rejectIf_of hlen]
    rfl
  refine finish_of_writeIndex_error hfinished hwritten hidx ?_
  rw [writeIndex, bind_apply, finalizeArchiveRecoveryMetadata, current_bind, bind_apply]
  change andThen (andThen (lift w.recoveryMetadata _) _) _ = _
  rw [hmeta]
  rfl

/-- An indexed archive with archive-level recovery: one parity block for every two blocks of 256
bytes. -/
def recoveringOptions : ArchiveWriterOptions :=
  { noIndex := false, archiveRecovery := some ⟨fecAlgoXor, 2, 0, 0⟩ }

/-- The writer of such an archive. -/
def recovering : ArchiveWriter := initial recoveringOptions .store none []

/-- A payload that fills the recovery buffer by itself. -/
theorem addEntry_oversized {payload : Bytes} (h : payload.length ≤ isizeMax)
    (hlarge : payload.length = 2 ^ 30) :
    ∃ e lfhBytes, plainLfhBytes payload.length = .ok lfhBytes ∧
      addEntry Backend.plain (fun _ => Octets.zero 24) (plainEntry payload h) recovering =
        (.error e, ({ recovering.headered recovering.headerBytesOf with
          streamState := .needPayload } : ArchiveWriter).tracked lfhBytes) := by
  obtain ⟨lfhBytes, hlfh⟩ : ∃ bytes, plainLfhBytes payload.length = .ok bytes := by
    rw [hlarge]
    exact Except.isOk_iff_exists.mp (by decide +kernel)
  have hsmall : lfhBytes.length ≤ 2 ^ 20 := by
    rw [hlarge] at hlfh
    have hsize : computeLfhSize {} (LocalFileHeader.minimalStore [97] (UInt64.ofNat (2 ^ 30))) =
        .ok lfhBytes.length := (length_writeLfh hlfh).1
    obtain ⟨hlen, -⟩ := computeLfhSize_eq_ok_iff.mp hsize
    rw [hlen]
    decide +kernel
  set w₁ := recovering.headered recovering.headerBytesOf with hw₁
  have hlimit : ResourceLimits.default.maxInMemoryBuffer = 2 ^ 30 := by decide
  have hseen : ∀ r ∈ w₁.archiveRecovery, r.protectedBytes.length = 4 := by
    intro r hr
    obtain rfl := Option.some.inj hr
    rfl
  have hroom : w₁.HasRoom lfhBytes.length := by
    intro r hr
    rw [hseen r hr, hlimit]
    omega
  have hfull : ¬ w₁.HasRoom (lfhBytes.length + payload.length) := by
    intro hall
    have := hall _ rfl
    rw [hlimit, hlarge] at this
    have := hseen _ rfl
    omega
  have hemit : emitGlobalHeaderIfNeeded recovering = (.ok (), w₁) := rfl
  rw [addEntry_plainEntry h ⟨rfl, rfl, ⟨true, rfl⟩, rfl⟩ ⟨rfl, rfl, ⟨true, rfl⟩, rfl⟩
    (applySizePolicy_small rfl rfl (by omega)) hemit hlfh]
  have houtcome := writeEntry_outcome w₁ lfhBytes payload
  generalize writeEntry lfhBytes payload w₁ = r at houtcome ⊢
  cases houtcome with
  | written hall | overflowed _ hall => exact absurd hall hfull
  | refused _ hnone => exact absurd hroom hnone
  | halved e => exact ⟨e, lfhBytes, hlfh, rfl⟩

/-- The header of an entry whose payload does not fit the recovery buffer stays under recovery:
the call fails, the sink holds the Global Header alone, and `finish` fails. -/
theorem not_harmless_oversized :
    ∃ e w w', newWithCompressionKeyProviderAndCdMetadata Backend.plain recoveringOptions .store none
        [] = .ok recovering ∧
      runEach Backend.plain [.addEntry (fun _ => Octets.zero 24)
        (plainEntry (List.replicate (2 ^ 30) 0) (by rw [length_replicate]; decide))]
        recovering = ([.error e], w) ∧
      w.writer.length = 12 ∧ w.offsets = [] ∧ ¬ w.Tracks ∧
      finish w = (.error (.internal "archive recovery protected byte tracking length mismatch"),
        w') := by
  obtain ⟨e, lfhBytes, hlfh, hadd⟩ := @addEntry_oversized (List.replicate (2 ^ 30) 0)
    (by rw [length_replicate]; decide) length_replicate
  have hpos := length_pos_of_writeLfh hlfh
  set w : ArchiveWriter := ({ recovering.headered recovering.headerBytesOf with
    streamState := .needPayload } : ArchiveWriter).tracked lfhBytes with hw
  have hheader : recovering.headerBytesOf.length = 12 := rfl
  obtain ⟨r, hrec, hstart, hseen⟩ : ∃ r, w.archiveRecovery = some r ∧ r.protectedRangeStart = 8 ∧
      r.protectedBytes.length = 4 + lfhBytes.length :=
    ⟨_, rfl, rfl, length_append⟩
  have hposition : w.position = 12 := rfl
  refine ⟨e, w, _, rfl, ?_, rfl, rfl, ?_, finish_of_length_mismatch rfl rfl rfl hrec ?_ ?_⟩
  · rw [runEach, Call.run, hadd]
    rfl
  · intro htracks
    obtain ⟨-, -, hbytes⟩ := htracks r hrec
    have hlen := congrArg List.length hbytes
    have hdrop : (w.writer.drop globalHeaderFlagsOffset).length = 4 := rfl
    omega
  · omega
  · omega

/-- A symbolic link, which the options do not allow, and an ordinary entry behind it. -/
def linkThenPlain : List Call :=
  [.addEntry (fun _ => Octets.zero 24)
      { name := ⟨[97], validUtf8_letter⟩, payload := [98], kind := some .symlink },
    .addEntry (fun _ => Octets.zero 24) (plainEntry [1] length_one_le)]

theorem fitsAll_linkThenPlain : FitsAll Backend.plain linkThenPlain recovering := by
  have hfirst : (Call.run Backend.plain (.addEntry (fun _ => Octets.zero 24)
      { name := ⟨[97], validUtf8_letter⟩, payload := [98], kind := some .symlink }) recovering).2 =
      recovering := rfl
  refine ⟨?_, ?_, trivial⟩
  · rintro w₁ s hopened ⟨hvalid, -⟩
    have hflags := flags_eq_of_settings_eq hopened.settings_eq
    change validateEntryInputMetadata { w₁.flags with size64Bit := false } _ = _ at hvalid
    rw [hflags] at hvalid
    cases hvalid
  · rw [hfirst]
    rintro w₁ s (⟨hwritten, -⟩ | ⟨-, b, bytes, -, hbytes, -, rfl⟩) ⟨-, wire, hwire, hseals⟩
    · cases hwritten
    obtain rfl : [1] = wire := ok.inj hwire
    obtain ⟨-, -, -, -, rfl⟩ := writeGlobalHeader_globalHeaderOf.mp hbytes
    cases hseals with
    | encrypted hflag => cases hflag
    | @plain encoded fecValue lfhBytes lfh hflag hencode hprepare hfec hwrite =>
      obtain rfl : [1] = encoded := ok.inj hencode
      obtain rfl := ok.inj hprepare
      obtain rfl : [] = fecValue := ok.inj hfec
      obtain ⟨hlen, -⟩ := computeLfhSize_eq_ok_iff.mp (length_writeLfh hwrite).1
      have hsmall : lfhBytes.length ≤ 100 := by
        rw [hlen]
        cases b
        · decide +kernel
        · decide +kernel
      refine ⟨fun _ r hr => ?_, ?_⟩
      · obtain rfl := Option.some.inj hr
        have hseen : ((recovering.withSize64Bit b).headerBytesOf.drop
            globalHeaderFlagsOffset).length = 4 := rfl
        have hlimit : 200 ≤ ResourceLimits.default.maxInMemoryBuffer := by decide
        change ([] ++ (recovering.withSize64Bit b).headerBytesOf.drop _).length +
          (lfhBytes.length + 1) ≤ _
        rw [nil_append, hseen]
        omega
      · have hmax : 200 ≤ u64Max := by decide
        change 12 + (lfhBytes.length + 1) ≤ u64Max
        omega

/-- The archive that holds the ordinary entry alone. -/
def linkThenPlainRun : List (Result EntryWritten) × ArchiveWriter :=
  runEach Backend.plain linkThenPlain recovering

theorem linkThenPlainRun_fst : linkThenPlainRun.1.map Except.isOk = [false, true] := by
  decide +kernel

/-- Its end. -/
def linkThenPlainFinished : Except SarError ArchiveSummary × ArchiveWriter :=
  finish linkThenPlainRun.2

theorem linkThenPlainFinished_fst : linkThenPlainFinished.1 = .ok ⟨1, 344, true⟩ := by
  decide +kernel

/-- The failed call does no harm to the entry behind it. -/
theorem runEach_harmless_linkThenPlain :
    linkThenPlainRun.2.Tracks ∧ linkThenPlainRun.1.map Except.isOk = [false, true] ∧
      ∃ finished w₁ headerBytes stored index,
        finish linkThenPlainRun.2 = (.ok ⟨1, 344, true⟩, finished) ∧
        Layout Backend.plain (succeeded linkThenPlain linkThenPlainRun.1) ⟨1, 344, true⟩
          finished.writer w₁ headerBytes stored index := by
  obtain ⟨htracks, -, -, hfinish⟩ := runEach_harmless recoveringOptions .store none [] linkThenPlain
    recovering linkThenPlainRun.2 linkThenPlainRun.1 rfl fitsAll_linkThenPlain rfl
  have hrun : finish linkThenPlainRun.2 = linkThenPlainFinished := by
    rw [linkThenPlainFinished]
  have hfst := linkThenPlainFinished_fst
  generalize linkThenPlainFinished = run at *
  obtain ⟨result, finished⟩ := run
  obtain rfl : result = .ok ⟨1, 344, true⟩ := hfst
  obtain ⟨w₁, headerBytes, stored, index, hlayout⟩ := hfinish _ finished hrun
  exact ⟨htracks, linkThenPlainRun_fst, finished, w₁, headerBytes, stored, index, hrun, hlayout⟩

/-! ### Runs that go out of step -/

/-- Archive-level recovery has seen that many bytes more than the position accounts for. -/
structure Ahead (w : ArchiveWriter) (n : ℕ) : Prop where
  finished : w.finished = false
  sizeForced : w.SizeForced
  headerWritten : w.headerWritten = true
  noIndex : w.flags.noIndex = false
  recovery : ∃ r, w.archiveRecovery = some r ∧ r.protectedRangeStart ≤ w.position ∧
    r.protectedRangeStart + r.protectedBytes.length = w.position + n

/-- The two are out of step. -/
def OutOfStep (w : ArchiveWriter) : Prop := ∃ n, 0 < n ∧ w.Ahead n

/-- The nonces and the state of the stream play no part in this. -/
theorem Ahead.of_nonces {n : ℕ} (h : w.Ahead n) (nonces : List (Octets 24))
    (state : StreamWriteState) :
    ({ w with usedNonces := nonces, streamState := state } : ArchiveWriter).Ahead n :=
  ⟨h.finished, h.sizeForced, h.headerWritten, h.noIndex, h.recovery⟩

theorem Ahead.tracked {n : ℕ} (h : w.Ahead n) (bytes : Bytes) :
    (w.tracked bytes).Ahead (n + bytes.length) := by
  obtain ⟨r, hrec, hstart, hahead⟩ := h.recovery
  refine ⟨h.finished, h.sizeForced, h.headerWritten, h.noIndex, _, congrArg (Option.map _) hrec,
    hstart, ?_⟩
  change r.protectedRangeStart + (r.protectedBytes ++ bytes).length =
    w.position + (n + bytes.length)
  rw [length_append]
  omega

/-- Writing an entry keeps the distance, or makes it larger when the entry fails halfway. -/
theorem Ahead.writeEntry {n : ℕ} (h : w.Ahead n) (lfhBytes payload : Bytes)
    {result : Result EntryWritten}
    (hrun : ArchiveWriter.writeEntry lfhBytes payload w = (result, w')) :
    (w'.Ahead n ∧ ((∃ r, result = .ok r) ∨ w' = { w with streamState := .needPayload })) ∨
      w'.Ahead (n + lfhBytes.length) ∨ w'.Ahead (n + lfhBytes.length + payload.length) := by
  have hsame := h.of_nonces w.usedNonces .needPayload
  have houtcome := writeEntry_outcome w lfhBytes payload
  rw [hrun] at houtcome
  cases houtcome with
  | written =>
    have hboth := (h.tracked lfhBytes).tracked payload
    obtain ⟨r, hrec, hstart, hahead⟩ := hboth.recovery
    refine .inl ⟨⟨h.finished, h.sizeForced, h.headerWritten, h.noIndex, r, hrec, ?_, ?_⟩,
      .inl ⟨_, rfl⟩⟩
    · exact hstart.trans (Nat.le_add_right _ _)
    · change _ = w.position + (lfhBytes.length + payload.length) + n
      change _ = w.position + _ at hahead
      omega
  | refused => exact .inl ⟨hsame, .inr rfl⟩
  | halved => exact .inr (.inl (hsame.tracked lfhBytes))
  | overflowed =>
    obtain ⟨hfinished, hforced, hwritten, hidx, hrecovery⟩ :=
      (hsame.tracked lfhBytes).tracked payload
    exact .inr (.inr ⟨hfinished, hforced, hwritten, hidx, hrecovery⟩)

/-- A call does not bring the two together again. -/
theorem OutOfStep.call (h : w.OutOfStep) (call : Call) : (call.run backend w).2.OutOfStep := by
  obtain ⟨n, hn, h⟩ := h
  have hopened : ∀ {w₁}, Opened w w₁ → w₁ = w := by
    rintro w₁ (⟨-, rfl⟩ | ⟨hnot, -⟩)
    · rfl
    · cases hnot.symm.trans h.headerWritten
  rcases @Call.run_cases backend w call h.finished h.sizeForced
    (fun hnot => nomatch hnot.symm.trans h.headerWritten) with
    ⟨e, w', herror, hfails⟩ | ⟨w₁, nonces, s, hw₁, -, -, hentry⟩
  · rw [herror]
    rcases hfails with rfl | ⟨hnot, -⟩ | ⟨w₁, nonces, state, hw₁, -, rfl⟩
    · exact ⟨n, hn, h⟩
    · cases hnot.symm.trans h.headerWritten
    · rw [hopened hw₁]
      exact ⟨n, hn, h.of_nonces nonces state⟩
  · rw [hentry, hopened hw₁]
    rcases (h.of_nonces nonces w.streamState).writeEntry s.lfhBytes s.payload rfl with
      ⟨hnext, -⟩ | hnext | hnext
    · exact ⟨n, hn, hnext⟩
    · exact ⟨_, Nat.add_pos_left hn _, hnext⟩
    · exact ⟨_, Nat.add_pos_left (Nat.add_pos_left hn _) _, hnext⟩

/-- `finish` fails on such a writer. -/
theorem OutOfStep.finish (h : w.OutOfStep) : ∃ e w', ArchiveWriter.finish w = (.error e, w') := by
  obtain ⟨n, hn, h⟩ := h
  obtain ⟨r, hrec, hstart, hahead⟩ := h.recovery
  exact ⟨_, _, finish_of_length_mismatch h.finished h.headerWritten h.noIndex hrec hstart
    (by omega)⟩

/-- A writer whose sink recovery has seen is in step. -/
theorem Holds.ahead {headerBytes : Bytes} {r : ArchiveRecoveryState}
    (h : w.Holds headerBytes stored) (htracks : w.Tracks) (hidx : w.flags.noIndex = false)
    (hrec : w.archiveRecovery = some r) : w.Ahead 0 := by
  obtain ⟨-, hstart, hseen⟩ := htracks r hrec
  have hlong : globalHeaderFlagsOffset ≤ w.position := by
    rw [h.position]
    exact le_trans (by decide) h.length_headerBytes.2
  refine ⟨h.finished, h.sizeForced, h.headerWritten, hidx, r, hrec, hstart.trans_le hlong, ?_⟩
  rw [hseen, length_drop, hstart, ← h.position]
  omega

section Finish

variable (h : Consistent backend options compression keyProvider cdMetadata encryption w stored)

include h

/-- A call leaves the writer consistent or puts it out of step. -/
theorem Consistent.call_cases (hsome : options.archiveRecovery.isSome = true) (call : Call) :
    (∃ stored', Consistent backend options compression keyProvider cdMetadata encryption
      (call.run backend w).2 stored') ∨ (call.run backend w).2.OutOfStep := by
  rcases @Call.run_cases backend w call h.begun.finished h.begun.sizeForced
    h.begun.position_eq_zero with
    ⟨e, w', herror, hfails⟩ | ⟨w₁, nonces, s, hopened, hbounded, hseals, hentry⟩
  · rw [herror]
    exact .inl ⟨stored, h.of_failsTo hfails⟩
  obtain ⟨headerBytes, hholds⟩ := h.begun.holds_of_opened hopened
  have hunder : WrittenUnder backend options compression keyProvider cdMetadata encryption w₁ :=
    ⟨h.writtenUnder.configured, hopened.settings_eq.trans h.writtenUnder.settings_eq⟩
  have hidx : w₁.flags.noIndex = false := by
    rw [hunder.flags_bits.2.2.1, ← Bool.not_eq_true]
    intro hno
    rw [(h.admitted.unindexed hno).2] at hsome
    cases hsome
  obtain ⟨r, hrec⟩ : ∃ r, w₁.archiveRecovery = some r :=
    Option.isSome_iff_exists.mp (hunder.archiveRecovery.1.trans hsome)
  have hahead := (hholds.ahead (h.tracks.opened h.begun hopened) hidx hrec).of_nonces nonces
    w₁.streamState
  have hpos := length_pos_of_writeLfh hseals.writeLfh_eq
  rcases hrun : call.run backend w with ⟨result, w'⟩
  rcases hahead.writeEntry s.lfhBytes s.payload (hentry.symm.trans hrun) with
    ⟨-, ⟨written, rfl⟩ | rfl⟩ | hnext | hnext
  · obtain ⟨s', -, hnext⟩ := h.call hrun
    exact .inl ⟨_, hnext⟩
  · exact .inl ⟨stored, h.of_failsTo
      (.inr (.inr ⟨w₁, nonces, .needPayload, hopened, hbounded, rfl⟩))⟩
  · exact .inr ⟨_, Nat.add_pos_right _ hpos, hnext⟩
  · exact .inr ⟨_, Nat.add_pos_left (Nat.add_pos_right _ hpos) _, hnext⟩

/-- The run: a writer with archive-level recovery that can be finished has been consistent all
along, whatever calls have failed. -/
theorem Consistent.runEach_of_finish {calls : List Call}
    (hsome : options.archiveRecovery.isSome = true) {summary : ArchiveSummary}
    {finished : ArchiveWriter}
    (hfinish : ArchiveWriter.finish (ArchiveWriter.runEach backend calls w).2 = (.ok summary,
      finished)) :
    ∃ stored', Consistent backend options compression keyProvider cdMetadata encryption
      (ArchiveWriter.runEach backend calls w).2 stored' := by
  have hout : ∀ (calls : List Call) (w : ArchiveWriter), w.OutOfStep →
      (ArchiveWriter.runEach backend calls w).2.OutOfStep := by
    intro calls
    induction calls with
    | nil => exact fun w hw => hw
    | cons call calls ih => exact fun w hw => ih _ (hw.call call)
  induction calls generalizing w stored with
  | nil => exact ⟨stored, h⟩
  | cons call calls ih =>
    rcases h.call_cases hsome call with ⟨stored', hnext⟩ | hw'
    · exact ih hnext hfinish
    · obtain ⟨e, w', herror⟩ := (hout calls _ hw').finish
      cases herror.symm.trans hfinish

end Finish

end ArchiveWriter

end Sar
