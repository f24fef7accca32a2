import Mathlib.Algebra.BigOperators.Group.List.Basic
import Sar.Stream.SessionLanguage

/-!
# Validation of stream transcripts

`validateStreamTranscriptInternal` reads a byte string as a Global Header and entries behind each
other, and follows the sessions of the entries with a manager of its own. The strings that it
accepts are described without the loop and without the manager: a `Transcript` is a header without
index and a list of complete entries, and it is legal if the ids of the entries are not zero, each
entry is valid by itself, and on each id the entries are a row of sessions.

* `transcriptLoop_eq_ok_iff` — the loop accepts the rest of the string exactly if it consists of
  complete entries that all go through the manager.
* `Transcript.ext_bytes` — a string is a transcript in one way at most.
* `validateStreamTranscriptInternal_spec` — the accepted strings are the legal transcripts.
-/

namespace Sar

open Except (rejectIf rejectIf_of_not rejectIf_of ok.inj ok.injEq)
open Stateful SessionManager List

/-! ### The validation -/

/-- `StreamTranscriptValidationReport`. -/
structure StreamTranscriptValidationReport where
  entryCount : ℕ
  deriving DecidableEq

/-- The loop of `validate_stream_transcript_internal`. The fuel is the number of bytes that are
left: an entry takes four of them at least. -/
def transcriptLoop (bytes : Bytes) (flags : GlobalFlags) : ℕ → ℕ → ℕ → SessionM ℕ
  | 0, _, entryCount => pure entryCount
  | fuel + 1, pos, entryCount =>
    if pos < bytes.length then do
      let (lfh, lfhLen) ← lift (parseLfh (bytes.drop pos) flags .default)
      lift (rejectIf (pos + lfhLen > u64Max) (.overflow "transcript offset"))
      let pos := pos + lfhLen
      lift (rejectIf (lfh.streamId = 0)
        (.streamState "strict stream transcript validation requires nonzero Stream ID"))
      let payloadEnd := pos + lfh.payloadSize.toNat
      lift (rejectIf (payloadEnd > u64Max) (.overflow "payload span"))
      lift (rejectIf (payloadEnd > bytes.length)
        (.truncated "stream transcript payload truncated"))
      let payload := (bytes.drop pos).take lfh.payloadSize.toNat
      let result ← processEntry ⟨lfh, payload, false⟩
      lift (rejectIf (result.events.any SessionEvent.isStatefulInactive = true)
        (.streamState "strict stream transcript validation requires active stateful mode"))
      lift (rejectIf (entryCount + 1 > u64Max) (.overflow "entry count"))
      transcriptLoop bytes flags fuel payloadEnd (entryCount + 1)
    else pure entryCount

/-- `validate_stream_transcript_internal`. -/
def validateStreamTranscriptInternal (bytes : Bytes) :
    Result StreamTranscriptValidationReport := do
  let (header, headerLen) ← parseGlobalHeader bytes .default
  rejectIf (!header.flags.noIndex)
    (.flagConflict "strict stream transcript validation requires NO_INDEX")
  let entries : SessionM ℕ := do
    observeGlobalHeader header
    transcriptLoop bytes header.flags (bytes.length - headerLen) headerLen 0
  let entryCount ← (entries (SessionManager.new .default)).1
  pure ⟨entryCount⟩

/-! ### Transcripts -/

/-- A complete entry. -/
@[ext]
structure TranscriptEntry (flags : GlobalFlags) where
  lfhBytes : Bytes
  lfh : LocalFileHeader
  payload : Bytes
  parses : parseLfh lfhBytes flags .default = .ok (lfh, lfhBytes.length)
  length_payload : payload.length = lfh.payloadSize.toNat

namespace TranscriptEntry

variable {flags : GlobalFlags}

variable (e : TranscriptEntry flags)

/-- The bytes of the entry. -/
def bytes : Bytes := e.lfhBytes ++ e.payload

/-- The entry, as the manager is given it. -/
def entry : SessionEntry := ⟨e.lfh, e.payload, false⟩

theorem four_le : 4 ≤ e.lfhBytes.length :=
  four_le_of_parseLfh e.parses

theorem length_bytes : e.bytes.length = e.lfhBytes.length + e.lfh.payloadSize.toNat := by
  rw [bytes, length_append, e.length_payload]

theorem bytes_append_ne (z : Bytes) : e.bytes ++ z ≠ [] := by
  intro hnil
  have hlength := congrArg List.length hnil
  rw [length_append, length_bytes, length_nil] at hlength
  have := e.four_le
  omega

theorem parseLfh_append (z : Bytes) :
    parseLfh (e.bytes ++ z) flags .default = .ok (e.lfh, e.lfhBytes.length) := by
  rw [bytes, append_assoc]
  exact parseLfh_append_of_ok e.parses _

/-- Two entries at the beginning of the same bytes are the same. -/
theorem eq_of_append_eq {e e' : TranscriptEntry flags} {z z' : Bytes}
    (h : e.bytes ++ z = e'.bytes ++ z') : e = e' ∧ z = z' := by
  have hparse := e.parseLfh_append z
  rw [h, e'.parseLfh_append z'] at hparse
  obtain ⟨hlfh, hlength⟩ := Prod.mk.inj (ok.inj hparse)
  have hbytes : e.bytes.length = e'.bytes.length := by
    rw [length_bytes, length_bytes, hlfh, hlength]
  obtain ⟨heq, hz⟩ := append_inj h hbytes
  obtain ⟨hlfhBytes, hpayload⟩ := append_inj heq hlength.symm
  exact ⟨TranscriptEntry.ext hlfhBytes hlfh.symm hpayload, hz⟩

end TranscriptEntry

/-- A Global Header without index, and complete entries behind it. -/
structure Transcript where
  headerBytes : Bytes
  header : GlobalHeader
  entries : List (TranscriptEntry header.flags)
  parses : parseGlobalHeader headerBytes .default = .ok (header, headerBytes.length)
  noIndex : header.flags.noIndex = true

namespace Transcript

/-- The bytes of the transcript. -/
def bytes (t : Transcript) : Bytes := t.headerBytes ++ t.entries.flatMap TranscriptEntry.bytes

/-- The entries, as the manager is given them. -/
def sessionEntries (t : Transcript) : List SessionEntry := t.entries.map TranscriptEntry.entry

/-- The transcript up to an entry. -/
def cut (t : Transcript) (n : ℕ) : Transcript := { t with entries := t.entries.take n }

/-- The transcript is legal: no id is zero, each entry is valid by itself, and on each id the
entries are a row of sessions. -/
structure Legal (t : Transcript) : Prop where
  streamId_ne : ∀ entry ∈ t.sessionEntries, entry.header.streamId ≠ 0
  valid : ∀ entry ∈ t.sessionEntries,
    IsValid SessionManagerConfig.default.limits t.header.flags entry
  sessions : ∀ k, FormSessions .default (entriesOn k t.sessionEntries)

/-- The limits on the number and the memory of the sessions do not bind. -/
def WithinLimits (t : Transcript) : Prop :=
  NeverBinds t.sessionEntries (observed .default t.header)

theorem entries_ext {flags : GlobalFlags} {es es' : List (TranscriptEntry flags)}
    (h : es.flatMap TranscriptEntry.bytes = es'.flatMap TranscriptEntry.bytes) : es = es' := by
  induction es generalizing es' with
  | nil =>
    cases es' with
    | nil => rfl
    | cons e' es' => exact absurd h.symm (e'.bytes_append_ne _)
  | cons e es ih =>
    cases es' with
    | nil => exact absurd h (e.bytes_append_ne _)
    | cons e' es' =>
      rw [flatMap_cons, flatMap_cons] at h
      obtain ⟨rfl, hrest⟩ := TranscriptEntry.eq_of_append_eq h
      rw [ih hrest]

theorem parseGlobalHeader_bytes (t : Transcript) :
    parseGlobalHeader t.bytes .default = .ok (t.header, t.headerBytes.length) :=
  runParser_append_of_ok (incremental_globalHeader _) t.parses _

/-- **A string is a transcript in one way at most.** -/
theorem ext_bytes {t t' : Transcript} (h : t.bytes = t'.bytes) : t = t' := by
  have hparse := t.parseGlobalHeader_bytes
  rw [h, t'.parseGlobalHeader_bytes] at hparse
  obtain ⟨hheader, hlength⟩ := Prod.mk.inj (ok.inj hparse)
  obtain ⟨hheaderBytes, hentries⟩ := append_inj h hlength.symm
  obtain ⟨headerBytes, header, entries, parses, noIndex⟩ := t
  obtain ⟨headerBytes', header', entries', parses', noIndex'⟩ := t'
  dsimp only at hheader hheaderBytes hentries
  subst hheader hheaderBytes
  obtain rfl := entries_ext hentries
  rfl

end Transcript

/-! ### The loop -/

section Loop

variable {bytes : Bytes} {flags : GlobalFlags} {fuel pos entryCount total : ℕ}
  {m : SessionManager}

/-- An entry of the string at the given place. -/
theorem transcriptLoop_of_entry {lfh : LocalFileHeader} {lfhLen : ℕ} (hpos : pos < bytes.length)
    (hbytes : bytes.length ≤ isizeMax)
    (hparse : parseLfh (bytes.drop pos) flags .default = .ok (lfh, lfhLen)) :
    (transcriptLoop bytes flags (fuel + 1) pos entryCount m).1 = .ok total ↔
      lfh.streamId ≠ 0 ∧ pos + lfhLen + lfh.payloadSize.toNat ≤ bytes.length ∧
      ∃ entry, entry = SessionEntry.mk lfh
          ((bytes.drop (pos + lfhLen)).take lfh.payloadSize.toNat) false ∧
        IsApplied (processEntry entry m).1 ∧ entryCount + 1 ≤ u64Max ∧
        (transcriptLoop bytes flags fuel (pos + lfhLen + lfh.payloadSize.toNat) (entryCount + 1)
          (processEntry entry m).2).1 = .ok total := by
  have hlfhLen : lfhLen ≤ (bytes.drop pos).length := (parseLfh_eq_ok hparse).2.2.1
  have hoffset : ¬ pos + lfhLen > u64Max := by
    rw [length_drop] at hlfhLen
    rw [isizeMax] at hbytes
    rw [u64Max]
    omega
  rw [transcriptLoop, if_pos hpos, hparse, bind_apply, lift_apply, andThen_ok]
  dsimp only
  rw [rejectIf_of_not hoffset, bind_apply, lift_apply, andThen_ok, bind_apply, lift_apply]
  by_cases hid : lfh.streamId = 0
  · rw [rejectIf_of hid, andThen_error]
    exact iff_of_false (by simp) fun h => h.1 hid
  rw [rejectIf_of_not hid, andThen_ok, bind_apply, lift_apply]
  by_cases hfits : pos + lfhLen + lfh.payloadSize.toNat ≤ bytes.length
  swap
  · -- the payload is cut off, whether its end can be computed or not
    refine iff_of_false ?_ fun h => hfits h.2.1
    by_cases hspan : pos + lfhLen + lfh.payloadSize.toNat > u64Max
    · rw [rejectIf_of hspan, andThen_error]
      simp
    · rw [rejectIf_of_not hspan, andThen_ok, bind_apply, lift_apply,
        rejectIf_of (not_le.mp hfits), andThen_error]
      simp
  have hspan : ¬ pos + lfhLen + lfh.payloadSize.toNat > u64Max := by
    rw [isizeMax] at hbytes
    rw [u64Max]
    omega
  rw [rejectIf_of_not hspan, andThen_ok, lift_rejectIf_bind (not_lt.mpr hfits), bind_apply]
  simp only [exists_eq_left]
  rcases processEntry ⟨lfh, (bytes.drop (pos + lfhLen)).take lfh.payloadSize.toNat, false⟩ m with
    ⟨e | result, m'⟩
  · rw [andThen_error]
    exact iff_of_false (by simp) fun h => not_isApplied_error e h.2.2.1
  rw [andThen_ok, bind_apply, lift_apply]
  by_cases hinactive : result.events.any SessionEvent.isStatefulInactive = true
  · rw [rejectIf_of hinactive, andThen_error]
    refine iff_of_false (by simp) ?_
    rintro ⟨-, -, ⟨result', hok, hnone⟩, -⟩
    obtain rfl := ok.inj hok
    rw [hinactive] at hnone
    cases hnone
  rw [rejectIf_of_not hinactive, andThen_ok, bind_apply, lift_apply]
  by_cases hcount : entryCount + 1 > u64Max
  · rw [rejectIf_of hcount, andThen_error]
    exact iff_of_false (by simp) fun h => absurd h.2.2.2.1 (not_le.mpr hcount)
  rw [rejectIf_of_not hcount, andThen_ok]
  have happlied : IsApplied (.ok result) := ⟨result, rfl, Bool.eq_false_iff.mpr hinactive⟩
  exact ⟨fun h => ⟨hid, hfits, happlied, not_lt.mp hcount, h⟩, fun h => h.2.2.2.2⟩

/-- At the end of the string there are no entries. -/
theorem transcriptLoop_at_end (hpos : bytes.length ≤ pos) :
    (transcriptLoop bytes flags fuel pos entryCount m).1 = .ok entryCount := by
  cases fuel with
  | zero => rfl
  | succ fuel =>
    rw [transcriptLoop, if_neg (not_lt.mpr hpos)]
    rfl

theorem exists_entries_at_end (hpos : bytes.length ≤ pos) :
    (∃ es : List (TranscriptEntry flags), es.flatMap TranscriptEntry.bytes = bytes.drop pos ∧
      (∀ e ∈ es, e.lfh.streamId ≠ 0) ∧ AllApplied (es.map TranscriptEntry.entry) m ∧
      entryCount + es.length = total) ↔ entryCount = total := by
  rw [drop_eq_nil_iff.mpr hpos]
  refine ⟨?_, fun h => ⟨[], rfl, fun _ he => (nomatch he), trivial, h⟩⟩
  rintro ⟨es, hes, -, -, rfl⟩
  obtain rfl : es = [] := Transcript.entries_ext hes
  rfl

/-- The places in a string that has a complete entry at the given one. -/
structure TranscriptEntryAt (bytes : Bytes) (pos : ℕ) (e : TranscriptEntry flags)
    (rest : Bytes) : Prop where
  parse_eq : parseLfh (bytes.drop pos) flags .default = .ok (e.lfh, e.lfhBytes.length)
  payload_eq : (bytes.drop (pos + e.lfhBytes.length)).take e.lfh.payloadSize.toNat = e.payload
  rest_eq : bytes.drop (pos + e.lfhBytes.length + e.lfh.payloadSize.toNat) = rest
  end_le : pos + e.lfhBytes.length + e.lfh.payloadSize.toNat ≤ bytes.length

theorem TranscriptEntryAt.of_eq {e : TranscriptEntry flags} {rest : Bytes}
    (hpos : pos ≤ bytes.length) (h : e.bytes ++ rest = bytes.drop pos) :
    TranscriptEntryAt bytes pos e rest := by
  have hpayload : bytes.drop (pos + e.lfhBytes.length) = e.payload ++ rest := by
    rw [← drop_drop, ← h, TranscriptEntry.bytes, append_assoc, drop_left]
  refine ⟨?_, ?_, ?_, ?_⟩
  · rw [← h]
    exact e.parseLfh_append rest
  · rw [hpayload, ← e.length_payload, take_left]
  · rw [← drop_drop, hpayload, ← e.length_payload, drop_left]
  · have hlength := congrArg List.length h
    rw [length_append, e.length_bytes, length_drop] at hlength
    omega

/-- An entry that the loop finds. -/
theorem exists_transcriptEntryAt {lfh : LocalFileHeader} {lfhLen : ℕ}
    (hparse : parseLfh (bytes.drop pos) flags .default = .ok (lfh, lfhLen))
    (hend : pos + lfhLen + lfh.payloadSize.toNat ≤ bytes.length) :
    ∃ e : TranscriptEntry flags, e.lfh = lfh ∧ e.lfhBytes.length = lfhLen ∧
      e.bytes ++ bytes.drop (pos + lfhLen + lfh.payloadSize.toNat) = bytes.drop pos := by
  have hlfhBytes : ((bytes.drop pos).take lfhLen).length = lfhLen := by
    rw [length_take, length_drop]
    omega
  have hpayload : ((bytes.drop (pos + lfhLen)).take lfh.payloadSize.toNat).length =
      lfh.payloadSize.toNat := by
    rw [length_take, length_drop]
    omega
  have hparses : parseLfh ((bytes.drop pos).take lfhLen) flags .default =
      .ok (lfh, ((bytes.drop pos).take lfhLen).length) := by
    rw [hlfhBytes]
    exact parseLfh_take_of_ok hparse
  refine ⟨⟨_, lfh, _, hparses, hpayload⟩, rfl, hlfhBytes, ?_⟩
  have hrest : bytes.drop (pos + lfhLen + lfh.payloadSize.toNat) =
      (bytes.drop (pos + lfhLen)).drop lfh.payloadSize.toNat := drop_drop.symm
  rw [TranscriptEntry.bytes, append_assoc]
  dsimp only
  rw [hrest, take_append_drop, ← drop_drop, take_append_drop]

/-- **The loop.** It accepts the rest of the string exactly if the rest consists of complete
entries on ids other than zero that all go through the manager, and counts them. -/
theorem transcriptLoop_eq_ok_iff (hbytes : bytes.length ≤ isizeMax) (hpos : pos ≤ bytes.length)
    (hfuel : bytes.length - pos ≤ fuel) (hcount : entryCount + (bytes.length - pos) ≤ u64Max) :
    (transcriptLoop bytes flags fuel pos entryCount m).1 = .ok total ↔
      ∃ es : List (TranscriptEntry flags), es.flatMap TranscriptEntry.bytes = bytes.drop pos ∧
        (∀ e ∈ es, e.lfh.streamId ≠ 0) ∧ AllApplied (es.map TranscriptEntry.entry) m ∧
        entryCount + es.length = total := by
  -- on the fuel: each entry that is taken leaves fewer bytes than fuel
  induction fuel generalizing pos entryCount m with
  | zero =>
    have hend : bytes.length ≤ pos := by omega
    rw [transcriptLoop_at_end hend, ok.injEq]
    exact (exists_entries_at_end hend).symm
  | succ fuel ih =>
    by_cases hlt : pos < bytes.length
    swap
    · rw [transcriptLoop_at_end (not_lt.mp hlt), ok.injEq]
      exact (exists_entries_at_end (not_lt.mp hlt)).symm
    have hsome : ∀ es : List (TranscriptEntry flags),
        es.flatMap TranscriptEntry.bytes = bytes.drop pos → ∃ e es', es = e :: es' ∧
          TranscriptEntryAt bytes pos e (es'.flatMap TranscriptEntry.bytes) := by
      intro es hes
      cases es with
      | nil => exact absurd (drop_eq_nil_iff.mp hes.symm) (not_le.mpr hlt)
      | cons e es' => exact ⟨e, es', rfl, .of_eq hpos hes⟩
    rcases hparse : parseLfh (bytes.drop pos) flags .default with error | ⟨lfh, lfhLen⟩
    · rw [transcriptLoop, if_pos hlt, hparse]
      refine iff_of_false (fun h => (nomatch h)) ?_
      rintro ⟨es, hes, -⟩
      obtain ⟨e, _, -, hat⟩ := hsome es hes
      cases hparse.symm.trans hat.parse_eq
    have hfour : 4 ≤ lfhLen := (four_le_of_parseLfh (parseLfh_take_of_ok hparse)).trans
      (length_take_le _ _)
    rw [transcriptLoop_of_entry hlt hbytes hparse]
    constructor
    · rintro ⟨hid, hend, _, rfl, happlied, -, hloop⟩
      obtain ⟨e, rfl, rfl, heq⟩ := exists_transcriptEntryAt hparse hend
      have hat := TranscriptEntryAt.of_eq hpos heq
      rw [hat.payload_eq] at happlied hloop
      obtain ⟨es, hes, hids, hall, rfl⟩ := (ih hend (by omega) (by omega)).mp hloop
      refine ⟨e :: es, ?_, forall_mem_cons.mpr ⟨hid, hids⟩, ⟨happlied, hall⟩, ?_⟩
      · rw [flatMap_cons, hes, heq]
      · rw [length_cons]
        omega
    · rintro ⟨es, hes, hids, hall, rfl⟩
      obtain ⟨e, es, rfl, hat⟩ := hsome es hes
      obtain ⟨rfl, rfl⟩ := Prod.mk.inj (ok.inj (hat.parse_eq.symm.trans hparse))
      obtain ⟨hid, hids⟩ := forall_mem_cons.mp hids
      have hend := hat.end_le
      refine ⟨hid, hend, e.entry, ?_, hall.1, by omega, ?_⟩
      · rw [hat.payload_eq]
        rfl
      · refine (ih hend (by omega) (by omega)).mpr ⟨es, hat.rest_eq.symm, hids, hall.2, ?_⟩
        rw [length_cons]
        omega

end Loop

/-! ### The accepted strings -/

section Accepted

variable {bytes : Bytes} {t : Transcript}

theorem observed_eq (header : GlobalHeader)
    (hflags : validateGlobalFlags header.flags = .ok ()) (config : SessionManagerConfig) :
    observeGlobalHeader header (SessionManager.new config) =
      (.ok (), observed config header) ∧
    (observed config header).config = config ∧
    (observed config header).currentGlobalFlags = some header.flags := by
  rw [observed, observeGlobalHeader, bind_apply, hflags]
  exact ⟨rfl, rfl, rfl⟩

theorem Transcript.flags_valid (t : Transcript) : validateGlobalFlags t.header.flags = .ok () :=
  (parseGlobalHeader_shape t.parses).flags_valid

/-- The stages of the validation. -/
theorem validate_eq_ok_iff {report : StreamTranscriptValidationReport} :
    validateStreamTranscriptInternal bytes = .ok report ↔
      ∃ header headerLen, parseGlobalHeader bytes .default = .ok (header, headerLen) ∧
        header.flags.noIndex = true ∧
        (transcriptLoop bytes header.flags (bytes.length - headerLen) headerLen 0
          (observed .default header)).1 = .ok report.entryCount := by
  rw [validateStreamTranscriptInternal, Except.bind_eq_ok_iff, Prod.exists]
  refine exists_congr fun header => exists_congr fun headerLen => and_congr_right fun hparse => ?_
  have hobserved := (observed_eq header (parseGlobalHeader_shape hparse).flags_valid .default).1
  dsimp only
  simp only [Except.bind_eq_ok_iff, Except.exists_unit, Except.rejectIf_eq_ok_iff, Bool.not_eq_true,
    Bool.not_eq_false', bind_apply, hobserved, andThen_ok, Except.pure_eq_ok, ok.injEq]
  refine and_congr_right fun _ => ⟨?_, fun h => ⟨_, h, rfl⟩⟩
  rintro ⟨entryCount, hloop, rfl⟩
  exact hloop

/-- What is accepted is a transcript. -/
theorem exists_transcript (hbytes : bytes.length ≤ isizeMax)
    {report : StreamTranscriptValidationReport}
    (h : validateStreamTranscriptInternal bytes = .ok report) :
    ∃ t : Transcript, t.bytes = bytes := by
  obtain ⟨header, headerLen, hparse, hindex, hloop⟩ := validate_eq_ok_iff.mp h
  have hle : headerLen ≤ bytes.length := runParser_le_length (incremental_globalHeader _) hparse
  have hcount : 0 + (bytes.length - headerLen) ≤ u64Max := by
    rw [isizeMax] at hbytes
    rw [u64Max]
    omega
  obtain ⟨es, hes, -⟩ := (transcriptLoop_eq_ok_iff hbytes hle le_rfl hcount).mp hloop
  have hlength : (bytes.take headerLen).length = headerLen := length_take_of_le hle
  have hparses : parseGlobalHeader (bytes.take headerLen) .default =
      .ok (header, (bytes.take headerLen).length) := by
    rw [← take_append_drop headerLen bytes] at hparse
    rw [hlength]
    exact runParser_of_append (incremental_globalHeader _) hparse hlength.ge
  refine ⟨⟨bytes.take headerLen, header, es, hparses, hindex⟩, ?_⟩
  rw [Transcript.bytes, hes, take_append_drop]

/-- What the validation says of a transcript. -/
theorem validate_transcript (t : Transcript) (hbytes : t.bytes.length ≤ isizeMax)
    {report : StreamTranscriptValidationReport} :
    validateStreamTranscriptInternal t.bytes = .ok report ↔
      (∀ entry ∈ t.sessionEntries, entry.header.streamId ≠ 0) ∧
        AllApplied t.sessionEntries (observed .default t.header) ∧
        report.entryCount = t.entries.length := by
  have hle : t.headerBytes.length ≤ t.bytes.length := by
    rw [Transcript.bytes, length_append]
    omega
  have hcount : 0 + (t.bytes.length - t.headerBytes.length) ≤ u64Max := by
    rw [isizeMax] at hbytes
    rw [u64Max]
    omega
  have hdrop : t.bytes.drop t.headerBytes.length = t.entries.flatMap TranscriptEntry.bytes :=
    drop_left
  have hids : (∀ entry ∈ t.sessionEntries, entry.header.streamId ≠ 0) ↔
      ∀ e ∈ t.entries, e.lfh.streamId ≠ 0 := forall_mem_map
  rw [validate_eq_ok_iff, hids]
  constructor
  · rintro ⟨header, headerLen, hparse, -, hloop⟩
    obtain ⟨rfl, rfl⟩ :=
      Prod.mk.inj (ok.inj (t.parseGlobalHeader_bytes.symm.trans hparse))
    obtain ⟨es, hes, hids, hall, hlength⟩ :=
      (transcriptLoop_eq_ok_iff hbytes hle le_rfl hcount).mp hloop
    obtain rfl : es = t.entries := Transcript.entries_ext (hes.trans hdrop)
    rw [Nat.zero_add] at hlength
    exact ⟨hids, hall, hlength.symm⟩
  · rintro ⟨hids, hall, hlength⟩
    refine ⟨t.header, _, t.parseGlobalHeader_bytes, t.noIndex,
      (transcriptLoop_eq_ok_iff hbytes hle le_rfl hcount).mpr
        ⟨t.entries, hdrop.symm, hids, hall, ?_⟩⟩
    rw [hlength, Nat.zero_add]

/-- Cutting a transcript shortens its bytes. -/
theorem Transcript.length_cut_le (t : Transcript) (n : ℕ) :
    (t.cut n).bytes.length ≤ t.bytes.length := by
  have hsplit : (t.cut n).bytes ++ (t.entries.drop n).flatMap TranscriptEntry.bytes = t.bytes := by
    rw [Transcript.bytes, Transcript.bytes, Transcript.cut, append_assoc,
      ← flatMap_append, take_append_drop]
  rw [← hsplit, length_append]
  omega

theorem Transcript.length_entries_le (t : Transcript) :
    t.sessionEntries.length ≤ t.bytes.length := by
  rw [Transcript.sessionEntries, length_map, Transcript.bytes, length_append, length_flatMap]
  have hcard := length_le_sum_of_one_le (t.entries.map fun e => e.bytes.length) fun n hn => by
    obtain ⟨e, -, rfl⟩ := mem_map.mp hn
    rw [e.length_bytes]
    have := e.four_le
    omega
  rw [length_map] at hcard
  omega

/-- The entries of a transcript go through exactly if it is legal. -/
theorem Transcript.legal_iff (t : Transcript) (hbytes : t.bytes.length ≤ isizeMax)
    (hlimits : t.WithinLimits) :
    (∀ entry ∈ t.sessionEntries, entry.header.streamId ≠ 0) ∧
      AllApplied t.sessionEntries (observed .default t.header) ↔ t.Legal := by
  obtain ⟨-, hconfig, hflags⟩ := observed_eq t.header t.flags_valid .default
  obtain ⟨hsessions, htick⟩ := observed_activeSessions .default t.header
  have hnone : ∀ k, (observed .default t.header).activeSessions.lookup k = none := by
    intro k
    rw [hsessions]
    rfl
  have hticks : TicksLe 0 (observed .default t.header) :=
    ⟨htick.le, fun k session hsome => (nomatch (hnone k).symm.trans hsome)⟩
  have hn : 0 + t.sessionEntries.length ≤ u64Max := by
    have := t.length_entries_le
    rw [isizeMax] at hbytes
    rw [u64Max]
    omega
  have hstanding : ∀ k, standing (observed .default t.header) k = none := by
    intro k
    rw [standing, hnone]
    rfl
  constructor
  · rintro ⟨hids, hall⟩
    obtain ⟨hvalid, hthreads⟩ :=
      (allApplied_iff hflags t.noIndex hids hlimits hticks hn).mp hall
    rw [hconfig] at hvalid
    refine ⟨hids, hvalid, fun k => threads_none_iff.mp ?_⟩
    have hown := hthreads k
    rwa [hstanding, hconfig] at hown
  · rintro ⟨hids, hvalid, hrows⟩
    refine ⟨hids, (allApplied_iff hflags t.noIndex hids hlimits hticks hn).mpr ⟨?_, fun k => ?_⟩⟩
    · rwa [hconfig]
    · rw [hstanding, hconfig]
      exact threads_none_iff.mpr (hrows k)

/-- **The validation accepts exactly the legal transcripts.** For a string that stays within the
limits on sessions: it is accepted exactly if it is a legal transcript; the report counts the
entries; and an accepted string cut behind any entry is accepted. -/
theorem validateStreamTranscriptInternal_spec (bytes : Bytes) (hbytes : bytes.length ≤ isizeMax)
    (hlimits : ∀ t : Transcript, t.bytes = bytes → t.WithinLimits) :
    ((∃ report, validateStreamTranscriptInternal bytes = .ok report) ↔
        ∃ t : Transcript, t.bytes = bytes ∧ t.Legal) ∧
      ∀ t : Transcript, t.bytes = bytes → ∀ report,
        validateStreamTranscriptInternal bytes = .ok report →
          report.entryCount = t.entries.length ∧
            ∀ n, validateStreamTranscriptInternal (t.cut n).bytes =
              .ok ⟨(t.entries.take n).length⟩ := by
  refine ⟨⟨?_, ?_⟩, ?_⟩
  · rintro ⟨report, hok⟩
    obtain ⟨t, rfl⟩ := exists_transcript hbytes hok
    obtain ⟨hids, hall, -⟩ := (validate_transcript t hbytes).mp hok
    exact ⟨t, rfl, (t.legal_iff hbytes (hlimits t rfl)).mp ⟨hids, hall⟩⟩
  · rintro ⟨t, rfl, hlegal⟩
    obtain ⟨hids, hall⟩ := (t.legal_iff hbytes (hlimits t rfl)).mpr hlegal
    exact ⟨⟨t.entries.length⟩, (validate_transcript t hbytes).mpr ⟨hids, hall, rfl⟩⟩
  · rintro t rfl report hok
    obtain ⟨hids, hall, hcount⟩ := (validate_transcript t hbytes).mp hok
    refine ⟨hcount, fun n => ?_⟩
    have hsplit : t.sessionEntries = (t.cut n).sessionEntries ++
        (t.entries.drop n).map TranscriptEntry.entry := by
      rw [Transcript.sessionEntries, Transcript.sessionEntries, Transcript.cut, ← map_append,
        take_append_drop]
    refine (validate_transcript (t.cut n) ((t.length_cut_le n).trans hbytes)).mpr
      ⟨fun entry hentry => hids entry ?_, ?_, rfl⟩
    · rw [hsplit]
      exact mem_append_left _ hentry
    · rw [hsplit] at hall
      exact hall.of_append

end Accepted

/-- A session-control entry on the id 1, with a name of one byte. -/
def sampleEntry (opCode sequenceNo : UInt8) (size : ℕ)
    (hparses : parseLfh
        [21, 0, 0, 0, 0, 0x20 + opCode, 1, 0, sequenceNo, 0, UInt8.ofNat size, 0, 0, 0,
          UInt8.ofNat size, 0, 0, 0, 1, 0, 0x61] { noIndex := true } .default =
      .ok ({ LocalFileHeader.minimalStore [0x61] (UInt64.ofNat size) with
        headerSize := 21
        entryMode := ⟨(0x20 + opCode).toUInt16 <<< 8⟩
        streamId := 1
        sequenceNo := sequenceNo.toUInt16 }, 21))
    (hsize : size = (UInt64.ofNat size).toNat) : TranscriptEntry { noIndex := true } where
  lfhBytes := _
  lfh := _
  payload := List.replicate size 0
  parses := hparses
  length_payload := length_replicate.trans hsize

/-- A session that is opened and closed. -/
def sampleTranscript : Transcript where
  headerBytes := [0x53, 0x41, 0x52, 0x21, 1, 0, 4, 0, 2, 0, 0, 0]
  header := { plainHeader true with flagsBytes := [2, 0, 0, 0] }
  entries :=
    [sampleEntry 0 0 18 (by decide +kernel) (by decide),
      sampleEntry 1 1 0 (by decide +kernel) (by decide)]
  parses := by decide +kernel
  noIndex := rfl

/-- The theorem at a session that is opened and closed, which is accepted. -/
theorem validateStreamTranscriptInternal_spec_sample :
    validateStreamTranscriptInternal sampleTranscript.bytes = .ok ⟨2⟩ ∧
      ((∃ report, validateStreamTranscriptInternal sampleTranscript.bytes = .ok report) ↔
        ∃ t : Transcript, t.bytes = sampleTranscript.bytes ∧ t.Legal) := by
  have hwithin : sampleTranscript.WithinLimits :=
    (by decide +kernel : NeverBinds sampleTranscript.sessionEntries
      (observed .default sampleTranscript.header))
  refine ⟨by decide +kernel, (validateStreamTranscriptInternal_spec sampleTranscript.bytes
    (by decide +kernel) fun t ht => ?_).1⟩
  rw [Transcript.ext_bytes ht]
  exact hwithin

end Sar
