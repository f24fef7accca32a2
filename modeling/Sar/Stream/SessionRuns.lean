import Mathlib.Data.List.Chain
import Sar.Stream.SessionFrames

/-!
# Runs of the session manager

A run is any sequence of calls: Global Headers that are observed, archives that end, and entries.
What one entry can do was said in general (`Turn`); here it is followed through a run.

* `sessionLogs` collects the sequence numbers that the sessions of one stream id have accepted,
  one list for each session.
* `Logged` relates the lists to the manager: they are consecutive, and the session that is active
  goes on where the last list ends.
* `run_continuous`: the sessions of every run, one by one.
-/

namespace Sar

open Except (rejectIf okOr)
open Stateful List

/-! ### Runs -/

/-- A call of the manager. -/
inductive SessionCall where
  | observeGlobalHeader (header : GlobalHeader)
  | archiveComplete
  | processEntry (entry : SessionEntry)

/-- Make the call; the answer to the first two is empty. -/
def SessionCall.run : SessionCall → SessionM ProcessResult
  | observeGlobalHeader header => do
    SessionManager.observeGlobalHeader header
    pure ⟨[], []⟩
  | archiveComplete => do
    update SessionManager.archiveComplete
    pure ⟨[], []⟩
  | processEntry entry => SessionManager.processEntry entry

namespace SessionManager

/-- Make the calls one after the other, whether they succeed or fail: all answers, and the manager
that is left. -/
def runCalls : List SessionCall → SessionManager → List (Result ProcessResult) × SessionManager
  | [], self => ([], self)
  | call :: calls, self =>
    let (result, self) := call.run self
    let (results, self) := runCalls calls self
    (result :: results, self)

/-- The calls leave the property. -/
theorem runCalls_induction {P : SessionManager → Prop}
    (hstep : ∀ call : SessionCall, Preserves P call.run) (calls : List SessionCall)
    {m : SessionManager} (hm : P m) : P (runCalls calls m).2 := by
  induction calls generalizing m with
  | nil => exact hm
  | cons call calls ih => exact ih (hstep call hm)

/-- The calls that are not about an entry leave the sessions. -/
theorem run_sessions_eq {call : SessionCall} (h : ∀ entry, call ≠ .processEntry entry)
    (m : SessionManager) :
    (call.run m).2.activeSessions = m.activeSessions ∧ (call.run m).2.config = m.config ∧
      (call.run m).2.activityTick = m.activityTick := by
  cases call with
  | observeGlobalHeader header =>
    rw [SessionCall.run, bind_apply, SessionManager.observeGlobalHeader, bind_apply, lift_apply]
    rcases validateGlobalFlags header.flags with e | _
    · exact ⟨rfl, rfl, rfl⟩
    · exact ⟨rfl, rfl, rfl⟩
  | archiveComplete => exact ⟨rfl, rfl, rfl⟩
  | processEntry entry => exact absurd rfl (h entry)

/-! ### What an entry does to the sessions -/

section Sessions

variable {m : SessionManager} {entry : SessionEntry} {k : UInt16} {session : ActiveSession}
  {frame : SessionFrame} {r : Except SarError ProcessResult × SessionManager}

/-- An entry that starts a session: an accepted `SESSION_INIT` under a header without index, on
an id other than zero. -/
structure Starts (m : SessionManager) (entry : SessionEntry)
    (result : Except SarError ProcessResult) (session : ActiveSession) : Prop where
  accepted : result.isOk = true
  carries : entry.carries .init
  noIndex : m.currentGlobalFlags.any (·.noIndex) = true
  streamId_ne : entry.header.streamId ≠ 0
  streamId_eq : session.streamId = entry.header.streamId
  last_eq : session.lastSequenceNo = entry.header.sequenceNo

/-- An entry that ends a session: an accepted `SESSION_CLOSE`. -/
structure Ends (entry : SessionEntry) (result : Except SarError ProcessResult) : Prop where
  accepted : result.isOk = true
  carries : entry.carries .close

/-- The session is still the same one. -/
structure Continues (session session' : ActiveSession) : Prop where
  streamId_eq : session'.streamId = session.streamId
  sessionUuid_eq : session'.sessionUuid = session.sessionUuid

/-- What an entry can do to the session of its id: nothing, start it, end it, or go on with it. -/
def Changes (m : SessionManager) (entry : SessionEntry)
    (result : Except SarError ProcessResult) : Option ActiveSession → Option ActiveSession → Prop
  | none, none => True
  | none, some session => Starts m entry result session
  | some _, none => Ends entry result
  | some session, some session' => Continues session session'

theorem Changes.refl (result : Except SarError ProcessResult) (before : Option ActiveSession) :
    Changes m entry result before before := by
  cases before with
  | none => trivial
  | some session => exact ⟨rfl, rfl⟩

/-- **One entry and the session of its id.** -/
theorem Turn.changes (h : Turn m entry r) :
    Changes m entry r.1 (m.activeSessions.lookup entry.header.streamId)
      (r.2.activeSessions.lookup entry.header.streamId) := by
  cases h with
  | rejected | inactive => exact Changes.refl _ _
  | activated hreads hnone _ =>
    obtain ⟨hindex, hid⟩ := shouldApplyStateful_eq_true hreads.applies
    rw [hnone, SessionManager.activated, lookup_setSession, if_pos rfl]
    refine ⟨rfl, hreads.carries.1 ⟨_, rfl⟩, ?_, hid, rfl, rfl⟩
    rw [hreads.flags_eq]
    exact hindex
  | discontinuous hsome _ =>
    rw [hsome, lookup_setSession, if_pos rfl]
    exact ⟨rfl, rfl⟩
  | overflowed _ hnext _ | refused _ hnext _ =>
    rw [hnext.lookup_eq, lookup_setSession, if_pos rfl]
    exact ⟨rfl, rfl⟩
  | @accepted _ frame session hreads hnext _ _ =>
    rw [hnext.lookup_eq, lookup_setSession, if_pos rfl]
    by_cases hclose : frame = .close
    · subst hclose
      exact ⟨rfl, hreads.carries.2 rfl⟩
    · obtain ⟨hid, huuid, -⟩ := applied_eqs session.advanced frame
      rw [afterFrame_of_ne _ hclose]
      exact ⟨hid, huuid⟩

/-- An entry that is accepted under a header without index takes the next number of the session
on its id. -/
theorem Turn.advances (h : Turn m entry r) (hok : r.1.isOk = true)
    (hflags : m.currentGlobalFlags.any (·.noIndex) = true) (hid : entry.header.streamId ≠ 0)
    (hsome : m.activeSessions.lookup entry.header.streamId = some session) :
    entry.header.sequenceNo = session.lastSequenceNo + 1 ∧
      ∀ session', r.2.activeSessions.lookup entry.header.streamId = some session' →
        session'.lastSequenceNo = entry.header.sequenceNo := by
  cases h with
  | rejected | discontinuous | overflowed | refused => cases hok
  | inactive hinactive =>
    rcases hinactive with ⟨globalFlags, hsomeFlags, happly⟩ | ⟨hnone, -⟩
    · rw [hsomeFlags] at hflags
      rw [shouldApplyStateful, show globalFlags.noIndex = true from hflags, Bool.true_and,
        bne_eq_false_iff_eq] at happly
      exact absurd happly hid
    · rw [hsome] at hnone
      cases hnone
  | activated _ hnone _ =>
    rw [hsome] at hnone
    cases hnone
  | @accepted _ frame session₀ _ hnext _ _ =>
    obtain rfl : session₀ = session := Option.some.inj (hnext.lookup_eq.symm.trans hsome)
    refine ⟨hnext.sequence_eq, fun session' hafter => ?_⟩
    rw [lookup_setSession, if_pos rfl] at hafter
    by_cases hclose : frame = .close
    · subst hclose
      cases hafter
    · rw [afterFrame_of_ne _ hclose] at hafter
      obtain rfl := Option.some.inj hafter
      rw [(applied_eqs session₀.advanced frame).2.2, hnext.sequence_eq]
      rfl

/-- An entry that is accepted under a header with an index leaves all sessions. -/
theorem Turn.inert (h : Turn m entry r) (hok : r.1.isOk = true)
    (hflags : m.currentGlobalFlags.any (·.noIndex) = false) : r.2 = m := by
  have hnot : ∀ {globalFlags frame}, ¬ Reads m entry globalFlags frame := by
    intro globalFlags frame hreads
    rw [hreads.flags_eq] at hflags
    exact absurd (shouldApplyStateful_eq_true hreads.applies).1 (Bool.eq_false_iff.mp hflags)
  cases h with
  | rejected | inactive => rfl
  | discontinuous => cases hok
  | activated hreads | overflowed hreads | refused hreads | accepted hreads =>
    exact absurd hreads hnot

end Sessions

/-! ### The logs of a stream id -/

/-- Numbers that follow each other, modulo `2 ^ 16`. -/
def Consecutive (log : List UInt16) : Prop :=
  log.IsChain fun a b => b = a + 1

instance : DecidablePred Consecutive := fun log =>
  inferInstanceAs (Decidable (log.IsChain fun a b => b = a + 1))

theorem Consecutive.append {log : List UInt16} {last : UInt16} (h : Consecutive log)
    (hlast : log.getLast? = some last) : Consecutive (log ++ [last + 1]) := by
  refine isChain_append.mpr ⟨h, isChain_singleton _, fun a ha b hb => ?_⟩
  rw [hlast, Option.mem_some_iff] at ha
  rw [List.head?_cons, Option.mem_some_iff] at hb
  rw [← hb, ha]

/-- Add a number to the log of the session that was opened last. -/
def extendLog (sequenceNo : UInt16) : List (List UInt16) → List (List UInt16)
  | [] => [[sequenceNo]]
  | log :: logs => (log ++ [sequenceNo]) :: logs

/-- The logs of the sessions of an id, the latest first, after one more call: an accepted entry
that finds no session and leaves one opens a log, and an accepted entry that finds a session is
added to the log of this session, if the header in force counts. -/
def logCall (counts : GlobalFlags → Bool) (k : UInt16) (m : SessionManager)
    (logs : List (List UInt16)) : SessionCall → List (List UInt16)
  | .processEntry entry =>
    if entry.header.streamId = k ∧ (processEntry entry m).1.isOk = true then
      match m.activeSessions.lookup k with
      | some _ =>
        if m.currentGlobalFlags.any counts then extendLog entry.header.sequenceNo logs else logs
      | none =>
        if ((processEntry entry m).2.activeSessions.lookup k).isSome then
          [entry.header.sequenceNo] :: logs
        else logs
    else logs
  | _ => logs

/-- The logs after a whole run. -/
def sessionLogs (counts : GlobalFlags → Bool) (k : UInt16) :
    List SessionCall → SessionManager → List (List UInt16) → List (List UInt16)
  | [], _, logs => logs
  | call :: calls, m, logs =>
    sessionLogs counts k calls (call.run m).2 (logCall counts k m logs call)

/-- The call is not an entry on the id that is rejected. -/
def Tolerated (k : UInt16) (m : SessionManager) : SessionCall → Prop
  | .processEntry entry =>
    entry.header.streamId = k → (processEntry entry m).1.isOk = true
  | _ => True

instance (k : UInt16) (m : SessionManager) : DecidablePred (Tolerated k m)
  | .processEntry entry =>
    inferInstanceAs (Decidable (entry.header.streamId = k → (processEntry entry m).1.isOk = true))
  | .observeGlobalHeader _ => inferInstanceAs (Decidable True)
  | .archiveComplete => inferInstanceAs (Decidable True)

/-- No entry on the id is rejected. -/
def Unrejected (k : UInt16) : List SessionCall → SessionManager → Prop
  | [], _ => True
  | call :: calls, m => Tolerated k m call ∧ Unrejected k calls (call.run m).2

instance (k : UInt16) : ∀ calls m, Decidable (Unrejected k calls m)
  | [], _ => inferInstanceAs (Decidable True)
  | call :: calls, m =>
    have := instDecidableUnrejected k calls (call.run m).2
    inferInstanceAs (Decidable (Tolerated k m call ∧ Unrejected k calls (call.run m).2))

/-- The keys of the map are the ids of the sessions, and the id zero has none. -/
def Keyed (m : SessionManager) : Prop :=
  ∀ k session, m.activeSessions.lookup k = some session → session.streamId = k ∧ k ≠ 0

/-- The logs are consecutive, and the session that is active goes on where the latest ends. -/
structure Logged (k : UInt16) (m : SessionManager) (logs : List (List UInt16)) : Prop where
  consecutive : ∀ log ∈ logs, Consecutive log
  active : ∀ session, m.activeSessions.lookup k = some session →
    ∃ log older, logs = log :: older ∧ log.getLast? = some session.lastSequenceNo

section Logs

variable {m : SessionManager} {k : UInt16} {logs : List (List UInt16)}

theorem keyed_run (call : SessionCall) : Preserves Keyed call.run := by
  intro m hm k session hsome
  by_cases hcall : ∃ entry, call = .processEntry entry
  · obtain ⟨entry, rfl⟩ := hcall
    have hturn := processEntry_turn m entry
    change (processEntry entry m).2.activeSessions.lookup k = some session at hsome
    by_cases hk : k = entry.header.streamId
    · have hchanges := hturn.changes
      rw [← hk, hsome] at hchanges
      rcases hbefore : m.activeSessions.lookup k with _ | before
      · rw [hbefore] at hchanges
        have hstarts : Starts m entry _ session := hchanges
        exact ⟨hstarts.streamId_eq.trans hk.symm, hk ▸ hstarts.streamId_ne⟩
      · rw [hbefore] at hchanges
        have hcontinues : Continues before session := hchanges
        obtain ⟨hid, hne⟩ := hm k before hbefore
        exact ⟨hcontinues.streamId_eq.trans hid, hne⟩
    · rw [hturn.lookup_ne hk] at hsome
      exact hm k session hsome
  · rw [(run_sessions_eq (not_exists.mp hcall) m).1] at hsome
    exact hm k session hsome

/-- Calls that leave the session of the id leave what its logs say. -/
theorem Logged.of_lookup_eq {m' : SessionManager} (h : Logged k m logs)
    (heq : m'.activeSessions.lookup k = m.activeSessions.lookup k) : Logged k m' logs :=
  ⟨h.consecutive, fun session hsome => h.active session (heq ▸ hsome)⟩

/-- The logs follow an accepted entry on the id. -/
theorem Logged.entry {entry : SessionEntry} (h : Logged k m logs) (hkeyed : Keyed m)
    (hk : entry.header.streamId = k) (hok : (processEntry entry m).1.isOk = true) :
    Logged k (processEntry entry m).2 (logCall (·.noIndex) k m logs (.processEntry entry)) := by
  have hturn := processEntry_turn m entry
  rw [logCall, if_pos ⟨hk, hok⟩]
  subst hk
  rcases hbefore : m.activeSessions.lookup entry.header.streamId with _ | before
  · -- without a session before, a log is opened exactly if there is one afterwards
    have hchanges := hturn.changes
    rw [hbefore] at hchanges
    dsimp only
    rcases hafter : (processEntry entry m).2.activeSessions.lookup entry.header.streamId with
      _ | after
    · refine ⟨h.consecutive, fun session hsome => ?_⟩
      rw [hafter] at hsome
      cases hsome
    · rw [hafter] at hchanges
      have hstarts : Starts m entry _ after := hchanges
      refine ⟨fun log hlog => ?_, fun session hsome => ⟨_, logs, rfl, ?_⟩⟩
      · rcases mem_cons.mp hlog with rfl | hold
        · exact isChain_singleton _
        · exact h.consecutive log hold
      · obtain rfl := Option.some.inj (hafter.symm.trans hsome)
        rw [hstarts.last_eq]
        rfl
  · dsimp only
    by_cases hflags : m.currentGlobalFlags.any (·.noIndex) = true
    · obtain ⟨hsequence, hlast⟩ :=
        hturn.advances hok hflags (hkeyed _ _ hbefore).2 hbefore
      obtain ⟨log, older, rfl, hend⟩ := h.active before hbefore
      rw [if_pos hflags, extendLog]
      refine ⟨fun log' hlog => ?_, fun session hsome => ⟨_, older, rfl, ?_⟩⟩
      · rcases mem_cons.mp hlog with rfl | hold
        · rw [hsequence]
          exact (h.consecutive log mem_cons_self).append hend
        · exact h.consecutive log' (mem_cons_of_mem _ hold)
      · rw [List.getLast?_append, hlast session hsome]
        rfl
    · rw [if_neg hflags, hturn.inert hok (Bool.eq_false_iff.mpr hflags)]
      exact h

theorem Logged.call {call : SessionCall} (h : Logged k m logs) (hkeyed : Keyed m)
    (htolerated : Tolerated k m call) :
    Logged k (call.run m).2 (logCall (·.noIndex) k m logs call) := by
  by_cases hcall : ∃ entry, call = .processEntry entry
  · obtain ⟨entry, rfl⟩ := hcall
    by_cases hk : entry.header.streamId = k
    · exact h.entry hkeyed hk (htolerated hk)
    · rw [logCall, if_neg fun hand => hk hand.1]
      exact h.of_lookup_eq ((processEntry_turn m entry).lookup_ne (Ne.symm hk))
  · have hlogs : logCall (·.noIndex) k m logs call = logs := by
      cases call with
      | processEntry entry => exact absurd ⟨entry, rfl⟩ hcall
      | _ => rfl
    rw [hlogs]
    refine h.of_lookup_eq ?_
    rw [(run_sessions_eq (not_exists.mp hcall) m).1]

theorem Logged.run {calls : List SessionCall} (h : Logged k m logs) (hkeyed : Keyed m)
    (hunrejected : Unrejected k calls m) :
    Logged k (runCalls calls m).2 (sessionLogs (·.noIndex) k calls m logs) := by
  induction calls generalizing m logs with
  | nil => exact h
  | cons call calls ih =>
    exact ih (h.call hkeyed hunrejected.1) (keyed_run call hkeyed) hunrejected.2

end Logs

theorem keyed_new (config : SessionManagerConfig) : Keyed (new config) := by
  intro k session hsome
  cases hsome

theorem logged_new (config : SessionManagerConfig) (k : UInt16) : Logged k (new config) [] :=
  ⟨fun _ hlog => (nomatch hlog), fun _ hsome => (nomatch hsome)⟩

/-- **The sessions of every run.** On an id on which no entry was rejected, what was accepted for
one session under headers without index is consecutive from its `SESSION_INIT` on, and an active
session stands where the latest log ends. The next entry starts a session only as an accepted
`SESSION_INIT`, ends one only as an accepted `SESSION_CLOSE`, and otherwise leaves the session the
same; calls that are not about an entry leave all sessions, entries those of all other ids. Every
key is the id of its session. -/
theorem run_continuous (config : SessionManagerConfig) (calls : List SessionCall) :
    let m := (runCalls calls (new config)).2
    (∀ k, Unrejected k calls (new config) →
      Logged k m (sessionLogs (·.noIndex) k calls (new config) [])) ∧
    (∀ entry, Changes m entry (processEntry entry m).1
      (m.activeSessions.lookup entry.header.streamId)
      ((processEntry entry m).2.activeSessions.lookup entry.header.streamId)) ∧
    (∀ call : SessionCall, (∀ entry, call ≠ .processEntry entry) →
      (call.run m).2.activeSessions = m.activeSessions) ∧
    (∀ entry k, k ≠ entry.header.streamId →
      (processEntry entry m).2.activeSessions.lookup k = m.activeSessions.lookup k) ∧
    ∀ k session, m.activeSessions.lookup k = some session → session.streamId = k := by
  intro m
  refine ⟨fun k hk => ?_, fun entry => ?_, fun call hcall => ?_, fun entry k hk => ?_,
    fun k session hsome => ?_⟩
  · exact (logged_new config k).run (keyed_new config) hk
  · exact (processEntry_turn m entry).changes
  · exact (run_sessions_eq hcall m).1
  · exact (processEntry_turn m entry).lookup_ne hk
  · exact (runCalls_induction keyed_run calls (keyed_new config) k session hsome).1

/-- An entry that stores its payload. -/
def plainEntry (mode streamId sequenceNo : UInt16) (payload : Bytes) : SessionEntry where
  header := { LocalFileHeader.minimalStore [] (UInt64.ofNat payload.length) with
    entryMode := ⟨mode⟩, streamId := streamId, sequenceNo := sequenceNo }
  payload := payload
  degraded := false

/-- `SESSION_INIT` with the given octet as UUID. -/
def initEntry (uuid : UInt8) (streamId sequenceNo : UInt16) : SessionEntry :=
  plainEntry 0x2000 streamId sequenceNo (List.replicate 16 uuid ++ [0, 0])

/-- A Global Header with or without index. -/
def plainHeader (noIndex : Bool) : GlobalHeader where
  version := 1
  flagsBytes := []
  flags := { noIndex := noIndex }
  partitionDescriptor := none
  kms := none

/-- A session whose archive is followed by one with an index, and goes on behind it. -/
def indexedBetween : List SessionCall :=
  [.observeGlobalHeader (plainHeader true), .processEntry (initEntry 1 5 0),
    .observeGlobalHeader (plainHeader false), .processEntry (plainEntry 0 5 100 []),
    .observeGlobalHeader (plainHeader true), .processEntry (plainEntry 0 5 1 [])]

/-- Under a header with an index, entries on the id of an active session are accepted with any
number. -/
theorem indexedBetween_not_consecutive :
    Unrejected 5 indexedBetween (new ⟨.default, .none, true⟩) ∧
      sessionLogs (fun _ => true) 5 indexedBetween (new ⟨.default, .none, true⟩) [] =
        [[0, 100, 1]] ∧ ¬ Consecutive [0, 100, 1] := by
  refine ⟨?_, ?_, ?_⟩ <;> decide +kernel

end SessionManager

end Sar
