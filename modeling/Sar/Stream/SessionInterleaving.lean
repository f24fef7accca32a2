import Sar.Stream.SessionLimits

/-!
# Streams in one manager do not interfere

The entries of several stream ids share a manager, and with it two counters: the activity tick,
and the number and memory of the sessions. Where neither counter reaches its bound, the entries of
one id are answered as if they were alone.

* `AlikeAt` — two managers that agree on one id, up to the tick of its session.
* `AlikeAt.own` — an entry on this id is answered alike.
* `processEntries_independent` — a whole run against the run of one id alone.
* `late_tick_interferes` — without a bound on the length of the run the ticks can be told apart.
-/

namespace Sar

open Except (rejectIf okOr)
open Stateful List

/-- A session without its tick. -/
def ActiveSession.untimed (session : ActiveSession) : ActiveSession :=
  { session with lastActivityTick := 0 }

theorem ActiveSession.eqs_of_untimed {session session' : ActiveSession}
    (h : session'.untimed = session.untimed) :
    session'.sessionUuid = session.sessionUuid ∧
      session'.lastSequenceNo = session.lastSequenceNo ∧
      session'.memoryUsage = session.memoryUsage := by
  have huuid : session'.untimed.sessionUuid = session.untimed.sessionUuid := by rw [h]
  have hlast : session'.untimed.lastSequenceNo = session.untimed.lastSequenceNo := by rw [h]
  have husage : session'.untimed.memoryUsage = session.untimed.memoryUsage := by rw [h]
  exact ⟨huuid, hlast, husage⟩

theorem ActiveSession.advanced_untimed {session session' : ActiveSession}
    (h : session'.untimed = session.untimed) :
    session'.advanced.untimed = session.advanced.untimed := by
  have hfields : ∀ s : ActiveSession, s.advanced.untimed =
      { s.untimed with lastSequenceNo := s.untimed.lastSequenceNo + 1 } := fun _ => rfl
  rw [hfields, hfields, h]

namespace SessionManager

/-! ### Limits and ticks that do not bind -/

instance (m : SessionManager) : Decidable (HasRoom m) :=
  decidable_of_iff
    (m.activeSessions.size + 1 ≤ m.config.limits.maxActiveStreams ∧
      m.totalSessionMemory + activeSessionBaseMemoryBytes ≤ u64Max ∧
      m.totalSessionMemory + activeSessionBaseMemoryBytes ≤
        m.config.limits.maxSessionMemoryBytes)
    ⟨fun h => ⟨h.1, h.2.1, h.2.2⟩, fun h => ⟨h.1, h.2, h.3⟩⟩

/-- The limits on the number and the memory of the sessions do not refuse the frame: there is room
for the session that it opens, or for the metadata that it brings. -/
def FrameFits (m : SessionManager) (streamId : UInt16) : SessionFrame → Prop
  | .init _ => m.activeSessions.lookup streamId = none → HasRoom m
  | .metadata frame => ∀ session ∈ m.activeSessions.lookup streamId,
    ¬ (SessionFrame.metadata frame).RefusedLate m.config m.totalSessionMemory session
  | _ => True

/-- The limits on the number and the memory of the sessions do not refuse the entry. -/
def Fits (m : SessionManager) (entry : SessionEntry) : Prop :=
  ∀ frame, SessionFrame.parse m.config.limits entry = .ok frame →
    FrameFits m entry.header.streamId frame

instance (m : SessionManager) (streamId : UInt16) : DecidablePred (FrameFits m streamId)
  | .init _ => inferInstanceAs (Decidable (m.activeSessions.lookup streamId = none → HasRoom m))
  | .metadata frame =>
    inferInstanceAs (Decidable (∀ session ∈ m.activeSessions.lookup streamId,
      ¬ (m.totalSessionMemory < session.memoryUsage ∨
        u64Max < m.totalSessionMemory - session.memoryUsage + { session with
          metadata := some ⟨frame.contentType, frame.metadata⟩ }.memoryUsage ∨
        m.config.limits.maxSessionMemoryBytes < m.totalSessionMemory - session.memoryUsage +
          { session with
            metadata := some ⟨frame.contentType, frame.metadata⟩ }.memoryUsage)))
  | .close | .resume _ | .heartbeat | .status _ | .ack _ | .capabilities _ | .filesystem _ =>
    inferInstanceAs (Decidable True)

instance (m : SessionManager) (entry : SessionEntry) : Decidable (Fits m entry) :=
  match h : SessionFrame.parse m.config.limits entry with
  | .ok frame =>
    decidable_of_iff (FrameFits m entry.header.streamId frame)
      ⟨fun hfits _ h' => Except.ok.inj (h.symm.trans h') ▸ hfits, fun hfits => hfits frame h⟩
  | .error _ => isTrue fun _ h' => (nomatch h.symm.trans h')

/-- The answers to the entries, and the manager that is left. -/
def processEntries (entries : List SessionEntry) (m : SessionManager) :
    List (Result ProcessResult) × SessionManager :=
  runCalls (entries.map .processEntry) m

/-- The limits on the number and the memory of the sessions never bind in the run. -/
def NeverBinds : List SessionEntry → SessionManager → Prop
  | [], _ => True
  | entry :: entries, m => Fits m entry ∧ NeverBinds entries (processEntry entry m).2

instance : ∀ entries m, Decidable (NeverBinds entries m)
  | [], _ => inferInstanceAs (Decidable True)
  | entry :: entries, m =>
    have := instDecidableNeverBinds entries (processEntry entry m).2
    inferInstanceAs (Decidable (Fits m entry ∧ NeverBinds entries (processEntry entry m).2))

/-- No tick has gone beyond the number of entries. -/
structure TicksLe (n : ℕ) (m : SessionManager) : Prop where
  manager : m.activityTick ≤ n
  sessions : ∀ k session, m.activeSessions.lookup k = some session → session.lastActivityTick ≤ n

/-! ### Two managers that agree on an id -/

/-- The managers agree on the id up to the tick of its session, and the second has only this
session. -/
structure AlikeAt (k : UInt16) (m alone : SessionManager) : Prop where
  config_eq : alone.config = m.config
  flags_eq : alone.currentGlobalFlags = m.currentGlobalFlags
  session_eq : (alone.activeSessions.lookup k).map ActiveSession.untimed =
    (m.activeSessions.lookup k).map ActiveSession.untimed
  lookup_ne : ∀ k', k' ≠ k → alone.activeSessions.lookup k' = none

section Alone

variable {k : UInt16} {m alone : SessionManager} {entry : SessionEntry} {frame : SessionFrame}
  {session session' : ActiveSession} {n : ℕ}

section

variable (h : AlikeAt k m alone)
include h

theorem AlikeAt.cases :
    (m.activeSessions.lookup k = none ∧ alone.activeSessions.lookup k = none) ∨
      ∃ session session', m.activeSessions.lookup k = some session ∧
        alone.activeSessions.lookup k = some session' ∧ session'.untimed = session.untimed := by
  have hsession := h.session_eq
  rcases hm : m.activeSessions.lookup k with _ | session
  · rw [hm, Option.map_none, Option.map_eq_none_iff] at hsession
    exact .inl ⟨rfl, hsession⟩
  · rw [hm, Option.map_some, Option.map_eq_some_iff] at hsession
    obtain ⟨session', halone, heq⟩ := hsession
    exact .inr ⟨session, session', rfl, halone, heq⟩

/-- Alone a session takes no more than among others. -/
theorem AlikeAt.sumValues_le {f : ActiveSession → ℕ}
    (hf : ∀ session, f session.untimed = f session) :
    Table.sumValues f alone.activeSessions ≤ Table.sumValues f m.activeSessions := by
  rw [Table.sumValues_of_single h.lookup_ne]
  rcases h.cases with ⟨-, hnone⟩ | ⟨session, session', hsome, hsome', heq⟩
  · rw [hnone]
    exact Nat.zero_le _
  · rw [hsome', Option.map_some, Option.getD_some, ← hf, heq, hf]
    exact Table.le_sumValues hsome

theorem AlikeAt.totalSessionMemory_le : alone.totalSessionMemory ≤ m.totalSessionMemory := by
  rw [totalSessionMemory_eq, totalSessionMemory_eq]
  exact min_le_min_right _ (h.sumValues_le fun _ => rfl)

theorem AlikeAt.hasRoom (hroom : HasRoom m) : HasRoom alone := by
  have hsize : alone.activeSessions.size ≤ m.activeSessions.size := by
    rw [Table.size_eq_sumValues, Table.size_eq_sumValues]
    exact h.sumValues_le fun _ => rfl
  have hmemory := Nat.add_le_add_right h.totalSessionMemory_le activeSessionBaseMemoryBytes
  refine ⟨?_, hmemory.trans hroom.memory_le, ?_⟩
  · rw [h.config_eq]
    exact (Nat.add_le_add_right hsize 1).trans hroom.streams
  · rw [h.config_eq]
    exact hmemory.trans hroom.memory

/-- A frame that fits is refused alone exactly if it is refused among others. -/
theorem AlikeAt.refusedLate_iff (hfits : FrameFits m k frame)
    (hsome : m.activeSessions.lookup k = some session)
    (hsome' : alone.activeSessions.lookup k = some session')
    (heq : session'.untimed = session.untimed) :
    frame.RefusedLate alone.config alone.totalSessionMemory session' ↔
      frame.RefusedLate m.config m.totalSessionMemory session := by
  cases frame with
  | resume frame =>
    rw [SessionFrame.RefusedLate, SessionFrame.RefusedLate,
      (ActiveSession.eqs_of_untimed heq).1, h.config_eq]
  | metadata frame =>
    have hnot := hfits session hsome
    refine iff_of_false ?_ hnot
    -- alone, the session that is replaced is all there is
    have husage := (ActiveSession.eqs_of_untimed heq).2.2
    have htotal : alone.totalSessionMemory = min session'.memoryUsage u64Max := by
      rw [totalSessionMemory_eq, sessionMemory, Table.sumValues_of_single h.lookup_ne, hsome']
      rfl
    have hle : m.totalSessionMemory ≤ u64Max := by
      rw [totalSessionMemory_eq]
      exact min_le_right _ _
    have hnew : { session' with
        metadata := some ⟨frame.contentType, frame.metadata⟩ }.memoryUsage =
      { session with metadata := some ⟨frame.contentType, frame.metadata⟩ }.memoryUsage := rfl
    rw [SessionFrame.RefusedLate] at hnot ⊢
    rw [h.config_eq, htotal, husage, hnew]
    omega
  | _ => exact Iff.rfl

/-- The same change on both sides. -/
theorem AlikeAt.setSession {after after' : Option ActiveSession}
    (heq : after'.map ActiveSession.untimed = after.map ActiveSession.untimed) :
    AlikeAt k (m.setSession k after) (alone.setSession k after') where
  config_eq := h.config_eq
  flags_eq := h.flags_eq
  session_eq := by
    rw [lookup_setSession, lookup_setSession, if_pos rfl, if_pos rfl]
    exact heq
  lookup_ne k' hk := by
    rw [lookup_setSession, if_neg hk]
    exact h.lookup_ne k' hk

end

theorem answer_untimed (config : SessionManagerConfig) (session : ActiveSession)
    (frame : SessionFrame) :
    frame.answer config entry session = frame.answer config entry session.untimed := by
  cases frame <;> rfl

theorem afterFrame_untimed (session : ActiveSession) (frame : SessionFrame) :
    (afterFrame session frame).map ActiveSession.untimed = afterFrame session.untimed frame := by
  cases frame <;> rfl

/-- Equal answers, and managers that agree on the id. -/
structure Agree (k : UInt16) (x y : Except SarError ProcessResult × SessionManager) : Prop where
  result_eq : y.1 = x.1
  alike : AlikeAt k x.2 y.2

theorem AlikeAt.agree (h : AlikeAt k m alone) {r r' : Except SarError ProcessResult}
    {after after' : Option ActiveSession} (hr : r' = r)
    (heq : after'.map ActiveSession.untimed = after.map ActiveSession.untimed) :
    Agree k (r, m.setSession k after) (r', alone.setSession k after') :=
  ⟨hr, h.setSession heq⟩

/-- A frame of the id is answered alike. -/
theorem AlikeAt.processFrame (h : AlikeAt k m alone) (globalFlags : GlobalFlags)
    (hk : entry.header.streamId = k) (hfits : FrameFits m k frame) (hm : TicksLe n m)
    (halone : TicksLe n alone) (hn : n + 1 ≤ u64Max) :
    Agree k (SessionManager.processFrame globalFlags entry frame m)
      (SessionManager.processFrame globalFlags entry frame alone) := by
  subst hk
  by_cases hinit : ∃ f, frame = .init f
  · obtain ⟨f, rfl⟩ := hinit
    change Agree _ (activate globalFlags entry f m) (activate globalFlags entry f alone)
    rcases h.cases with ⟨hnone, hnone'⟩ | ⟨session, session', hsome, hsome', -⟩
    · have hroom := hfits hnone
      have hroom' := h.hasRoom hroom
      have hadmits : m.Admits :=
        ⟨hroom, (Nat.succ_le_succ hm.manager).trans hn⟩
      have hadmits' : alone.Admits :=
        ⟨hroom', (Nat.succ_le_succ halone.manager).trans hn⟩
      rcases activate_cases globalFlags entry m f with ⟨-, -, hrun⟩ | ⟨hnot, -⟩
      · rcases activate_cases globalFlags entry alone f with ⟨-, -, hrun'⟩ | ⟨hnot, -⟩
        · rw [hrun, hrun']
          have hticked : AlikeAt entry.header.streamId
              { m with activityTick := m.activityTick + 1 }
              { alone with activityTick := alone.activityTick + 1 } :=
            ⟨h.config_eq, h.flags_eq, h.session_eq, h.lookup_ne⟩
          exact hticked.agree rfl rfl
        · exact absurd ⟨hnone', hadmits'⟩ hnot
      · exact absurd ⟨hnone, hadmits⟩ hnot
    · rw [activate_of_some _ _ hsome, activate_of_some _ _ hsome']
      exact ⟨rfl, h⟩
  have hinit' : ∀ f, frame ≠ .init f := not_exists.mp hinit
  rcases h.cases with ⟨hnone, hnone'⟩ | ⟨session, session', hsome, hsome', heq⟩
  · rw [processFrame_of_none hinit' hnone, processFrame_of_none hinit' hnone']
    exact ⟨rfl, h⟩
  obtain ⟨huuid, hlast, -⟩ := ActiveSession.eqs_of_untimed heq
  by_cases hsequence : entry.header.sequenceNo = session.lastSequenceNo + 1
  · have hsequence' : entry.header.sequenceNo = session'.lastSequenceNo + 1 := by
      rw [hlast]
      exact hsequence
    have htick : session.lastActivityTick + 1 ≤ u64Max :=
      (Nat.succ_le_succ (hm.sessions _ _ hsome)).trans hn
    have htick' : session'.lastActivityTick + 1 ≤ u64Max :=
      (Nat.succ_le_succ (halone.sessions _ _ hsome')).trans hn
    have hadvanced := ActiveSession.advanced_untimed heq
    have hiff := h.refusedLate_iff hfits hsome hsome' heq
    by_cases hlate : frame.RefusedLate m.config m.totalSessionMemory session
    · -- what fits is refused late only as a resumption
      have hresume : ∃ f, frame = .resume f := by
        cases frame with
        | resume f => exact ⟨f, rfl⟩
        | metadata f => exact absurd hlate (hfits session hsome)
        | _ => exact hlate.elim
      obtain ⟨f, rfl⟩ := hresume
      rw [processFrame_of_act_error _ hinit' hsome hsequence htick
          (@SessionFrame.act_of_resume_refused _ _ session.advanced entry f hlate),
        processFrame_of_act_error _ hinit' hsome' hsequence' htick'
          (@SessionFrame.act_of_resume_refused _ _ session'.advanced entry f (hiff.mpr hlate))]
      refine h.agree ?_ ?_
      · have herror : ∀ s : ActiveSession, SessionFrame.resumeError s.advanced f =
            SessionFrame.resumeError s f := fun _ => rfl
        rw [herror, herror, SessionFrame.resumeError, SessionFrame.resumeError, huuid]
      · rw [Option.map_some, Option.map_some, hadvanced]
    · rw [processFrame_of_accepted _ hinit' hsome hsequence htick hlate,
        processFrame_of_accepted _ hinit' hsome' hsequence' htick' fun hlate' =>
          hlate (hiff.mp hlate')]
      refine h.agree ?_ ?_
      · rw [answer_untimed, heq, ← answer_untimed, h.config_eq]
      · rw [afterFrame_untimed, hadvanced, ← afterFrame_untimed]
  · rw [processFrame_of_ne _ hinit' hsome hsequence,
      processFrame_of_ne _ hinit' hsome' (hlast ▸ hsequence)]
    refine h.agree rfl ?_
    rw [Option.map_some, Option.map_some, heq]

/-- An entry of the id is answered alike. -/
theorem AlikeAt.own (h : AlikeAt k m alone) (hk : entry.header.streamId = k)
    (hfits : Fits m entry) (hm : TicksLe n m) (halone : TicksLe n alone) (hn : n + 1 ≤ u64Max) :
    Agree k (processEntry entry m) (processEntry entry alone) := by
  rcases hflags : m.currentGlobalFlags with _ | globalFlags
  · rw [processEntry_of_missing hflags, processEntry_of_missing (h.flags_eq.trans hflags)]
    exact ⟨rfl, h⟩
  have hflags' : alone.currentGlobalFlags = some globalFlags := h.flags_eq.trans hflags
  cases happly : shouldApplyStateful globalFlags entry.header.streamId with
  | false =>
    rw [processEntry_of_not_applies hflags happly, processEntry_of_not_applies hflags' happly,
      h.config_eq]
    exact ⟨rfl, h⟩
  | true =>
    rw [processEntry_of_applies hflags happly, processEntry_of_applies hflags' happly,
      h.config_eq, bind_apply, bind_apply, lift_apply, lift_apply]
    rcases checkEntry m.config.limits globalFlags entry with e | _
    · exact ⟨rfl, h⟩
    rw [andThen_ok, andThen_ok, bind_apply, bind_apply, lift_apply, lift_apply]
    rcases hparse : SessionFrame.parse m.config.limits entry with e | frame
    · exact ⟨rfl, h⟩
    rw [andThen_ok, andThen_ok]
    exact h.processFrame globalFlags hk (hk ▸ hfits frame hparse) hm halone hn

/-- An entry of another id leaves the agreement. -/
theorem AlikeAt.other (h : AlikeAt k m alone) (hk : entry.header.streamId ≠ k) :
    AlikeAt k (processEntry entry m).2 alone := by
  have hprocessed := processEntry_processed m entry
  refine ⟨h.config_eq.trans hprocessed.config_eq.symm,
    h.flags_eq.trans hprocessed.currentGlobalFlags_eq.symm, ?_, h.lookup_ne⟩
  rw [hprocessed.lookup_ne k (Ne.symm hk)]
  exact h.session_eq

/-! ### Ticks -/

theorem TicksLe.mono {n' : ℕ} (h : TicksLe n m) (hn : n ≤ n') : TicksLe n' m :=
  ⟨h.manager.trans hn, fun k session hsome => (h.sessions k session hsome).trans hn⟩

theorem TicksLe.setSession (h : TicksLe n m) {after : Option ActiveSession}
    (hafter : ∀ session ∈ after, session.lastActivityTick ≤ n) :
    TicksLe n (m.setSession k after) := by
  refine ⟨h.manager, fun k' session hsome => ?_⟩
  rw [lookup_setSession] at hsome
  split at hsome
  · exact hafter session hsome
  · exact h.sessions k' session hsome

theorem TicksLe.setSome (h : TicksLe n m) (hsession : session.lastActivityTick ≤ n) :
    TicksLe n (m.setSession k (some session)) :=
  h.setSession fun _ hmem => Option.some.inj hmem ▸ hsession

/-- Each entry moves the ticks on by one at most. -/
theorem TicksLe.turn (h : TicksLe n m) : TicksLe (n + 1) (processEntry entry m).2 := by
  have hturn := processEntry_turn m entry
  have hlater := h.mono (Nat.le_succ n)
  generalize processEntry entry m = r at hturn
  cases hturn with
  | rejected | inactive => exact hlater
  | activated _ _ _ =>
    have hticked : TicksLe (n + 1) { m with activityTick := m.activityTick + 1 } :=
      ⟨Nat.succ_le_succ h.manager, hlater.sessions⟩
    dsimp only [SessionManager.activated]
    exact hticked.setSome (Nat.succ_le_succ h.manager)
  | discontinuous hsome _ =>
    dsimp only
    exact hlater.setSome (hlater.sessions _ _ hsome)
  | @overflowed _ _ session _ hnext _ =>
    dsimp only
    have hkept : session.lastActivityTick ≤ n + 1 := hlater.sessions _ _ hnext.lookup_eq
    exact hlater.setSome hkept
  | refused _ hnext _ =>
    dsimp only
    exact hlater.setSome (Nat.succ_le_succ (h.sessions _ _ hnext.lookup_eq))
  | @accepted _ frame session _ hnext _ _ =>
    dsimp only
    have hadvanced : session.advanced.lastActivityTick ≤ n + 1 :=
      Nat.succ_le_succ (h.sessions _ _ hnext.lookup_eq)
    cases frame with
    | close => exact hlater.setSession fun _ hmem => (nomatch hmem)
    | _ => exact hlater.setSome hadvanced

end Alone

/-! ### Whole runs -/

/-- The entries of an id. -/
def entriesOn (k : UInt16) (entries : List SessionEntry) : List SessionEntry :=
  entries.filter fun entry => entry.header.streamId = k

/-- The answers to the entries of an id. -/
def answersOn (k : UInt16) (entries : List SessionEntry) (results : List (Result ProcessResult)) :
    List (Result ProcessResult) :=
  ((entries.zip results).filter fun p => p.1.header.streamId = k).map Prod.snd

section Runs

variable {k : UInt16} {m alone : SessionManager} {n : ℕ}

theorem processEntries_cons (entry : SessionEntry) (entries : List SessionEntry)
    (m : SessionManager) :
    processEntries (entry :: entries) m =
      ((processEntry entry m).1 :: (processEntries entries (processEntry entry m).2).1,
        (processEntries entries (processEntry entry m).2).2) := rfl

theorem AlikeAt.run (entries : List SessionEntry) (h : AlikeAt k m alone)
    (hbinds : NeverBinds entries m) (hm : TicksLe n m) (halone : TicksLe n alone)
    (hn : n + entries.length ≤ u64Max) :
    answersOn k entries (processEntries entries m).1 =
        (processEntries (entriesOn k entries) alone).1 ∧
      AlikeAt k (processEntries entries m).2 (processEntries (entriesOn k entries) alone).2 := by
  induction entries generalizing m alone n with
  | nil => exact ⟨rfl, h⟩
  | cons entry entries ih =>
    obtain ⟨hfits, hrest⟩ := hbinds
    have hlength : n + 1 + entries.length ≤ u64Max := by
      rw [length_cons] at hn
      omega
    rw [processEntries_cons, answersOn, zip_cons_cons, entriesOn]
    by_cases hk : entry.header.streamId = k
    · have hagree := h.own hk hfits hm halone (by omega)
      obtain ⟨hanswers, halike⟩ := ih hagree.alike hrest hm.turn halone.turn hlength
      rw [filter_cons_of_pos (by simpa using hk),
        filter_cons_of_pos (by simpa using hk), processEntries_cons, map_cons]
      refine ⟨?_, halike⟩
      change _ :: answersOn k entries _ = _
      rw [hanswers, hagree.result_eq]
      rfl
    · rw [filter_cons_of_neg (by simpa using hk), filter_cons_of_neg (by simpa using hk)]
      exact ih (h.other hk) hrest hm.turn (halone.mono (Nat.le_succ n)) hlength

/-- The manager that has observed one header. -/
def observed (config : SessionManagerConfig) (header : GlobalHeader) : SessionManager :=
  (observeGlobalHeader header (new config)).2

theorem observed_activeSessions (config : SessionManagerConfig) (header : GlobalHeader) :
    (observed config header).activeSessions = ∅ ∧ (observed config header).activityTick = 0 := by
  rw [observed, SessionManager.observeGlobalHeader, bind_apply, lift_apply]
  rcases validateGlobalFlags header.flags with e | _
  · exact ⟨rfl, rfl⟩
  · exact ⟨rfl, rfl⟩

/-- **Streams do not interfere.** In a run of fewer than `2 ^ 64` entries in which the limits on
the number and the memory of the sessions do not bind, the entries of each id are answered as if
they were alone, and leave the same session up to its tick. -/
theorem processEntries_independent (config : SessionManagerConfig) (header : GlobalHeader)
    (entries : List SessionEntry) (hlength : entries.length < 2 ^ 64)
    (hbinds : NeverBinds entries (observed config header)) (k : UInt16) :
    let together := processEntries entries (observed config header)
    let alone := processEntries (entriesOn k entries) (observed config header)
    answersOn k entries together.1 = alone.1 ∧
      (together.2.activeSessions.lookup k).map ActiveSession.untimed =
        (alone.2.activeSessions.lookup k).map ActiveSession.untimed := by
  obtain ⟨hsessions, htick⟩ := observed_activeSessions config header
  have hnone : ∀ k', (observed config header).activeSessions.lookup k' = none := by
    intro k'
    rw [hsessions]
    rfl
  have hticks : TicksLe 0 (observed config header) := by
    refine ⟨htick.le, fun k' session hsome => ?_⟩
    rw [hnone] at hsome
    cases hsome
  have halike : AlikeAt k (observed config header) (observed config header) :=
    ⟨rfl, rfl, rfl, fun k' _ => hnone k'⟩
  have hn : 0 + entries.length ≤ u64Max := by
    rw [u64Max]
    omega
  obtain ⟨hanswers, hrun⟩ := halike.run entries hbinds hticks hticks hn
  exact ⟨hanswers, hrun.session_eq.symm⟩

/-- `SESSION_HEARTBEAT`. -/
def heartbeatEntry (streamId sequenceNo : UInt16) : SessionEntry :=
  plainEntry 0x2300 streamId sequenceNo []

/-- A manager with the default limits. -/
def defaultConfig : SessionManagerConfig := ⟨.default, .none, true⟩

/-- Two streams, one of which has a gap. -/
theorem processEntries_independent_gap :
    let entries := [initEntry 2 2 0, initEntry 1 1 0, heartbeatEntry 2 1, heartbeatEntry 1 7,
      heartbeatEntry 1 1]
    let together := processEntries entries (observed defaultConfig (plainHeader true))
    let alone := processEntries (entriesOn 1 entries) (observed defaultConfig (plainHeader true))
    answersOn 1 entries together.1 = alone.1 ∧
      (together.2.activeSessions.lookup 1).map ActiveSession.untimed =
        (alone.2.activeSessions.lookup 1).map ActiveSession.untimed :=
  processEntries_independent defaultConfig (plainHeader true) _ (by decide) (by decide +kernel) 1

/-! ### Ticks that run out -/

/-- Heartbeats with the numbers from one on. -/
def heartbeats (streamId : UInt16) (count : ℕ) : List SessionEntry :=
  (List.range count).map fun j => heartbeatEntry streamId (UInt16.ofNat (j + 1))

theorem heartbeats_succ (streamId : UInt16) (count : ℕ) :
    heartbeats streamId (count + 1) =
      heartbeats streamId count ++ [heartbeatEntry streamId (UInt16.ofNat (count + 1))] := by
  rw [heartbeats, range_succ, map_append, map_singleton]
  rfl

theorem processEntries_append (xs ys : List SessionEntry) (m : SessionManager) :
    processEntries (xs ++ ys) m =
      ((processEntries xs m).1 ++ (processEntries ys (processEntries xs m).2).1,
        (processEntries ys (processEntries xs m).2).2) := by
  induction xs generalizing m with
  | nil => rfl
  | cons x xs ih =>
    rw [cons_append, processEntries_cons, processEntries_cons, ih]
    rfl

/-- There is one answer to each entry. -/
theorem length_processEntries (xs : List SessionEntry) (m : SessionManager) :
    (processEntries xs m).1.length = xs.length := by
  induction xs generalizing m with
  | nil => rfl
  | cons x xs ih => rw [processEntries_cons, length_cons, length_cons, ih]

theorem neverBinds_append {xs ys : List SessionEntry} :
    NeverBinds (xs ++ ys) m ↔ NeverBinds xs m ∧ NeverBinds ys (processEntries xs m).2 := by
  induction xs generalizing m with
  | nil => exact ⟨fun h => ⟨trivial, h⟩, And.right⟩
  | cons x xs ih =>
    rw [cons_append, NeverBinds, NeverBinds, ih, and_assoc]
    rfl

theorem parse_heartbeatEntry (limits : ResourceLimits) (streamId sequenceNo : UInt16) :
    SessionFrame.parse limits (heartbeatEntry streamId sequenceNo) = .ok .heartbeat := by
  have hcontrol :
      (heartbeatEntry streamId sequenceNo).header.entryMode.isSessionControl = true := by
    change EntryMode.isSessionControl ⟨0x2300⟩ = true
    decide
  have hop : SessionOpCode.tryFrom (heartbeatEntry streamId sequenceNo).header.entryMode.opCode =
      .ok .heartbeat := by
    change SessionOpCode.tryFrom (EntryMode.opCode ⟨0x2300⟩) = _
    decide
  rw [SessionFrame.parse, if_pos hcontrol, hop]
  rfl

theorem neverBinds_heartbeats (streamId : UInt16) (count : ℕ) :
    NeverBinds (heartbeats streamId count) m := by
  induction count with
  | zero => trivial
  | succ count ih =>
    rw [heartbeats_succ, neverBinds_append]
    refine ⟨ih, fun frame hframe => ?_, trivial⟩
    rw [parse_heartbeatEntry] at hframe
    obtain rfl := Except.ok.inj hframe
    trivial

/-- The id has a session with the number and the tick. -/
structure Beating (m : SessionManager) (last : UInt16) (tick : ℕ) : Prop where
  flags_eq : m.currentGlobalFlags = some (plainHeader true).flags
  session : ∃ session, m.activeSessions.lookup 1 = some session ∧
    session.lastSequenceNo = last ∧ session.lastActivityTick = tick

theorem checkEntry_heartbeatEntry (limits : ResourceLimits) (streamId sequenceNo : UInt16) :
    checkEntry limits (plainHeader true).flags (heartbeatEntry streamId sequenceNo) = .ok () := by
  have hmode : validateEntryModeAgainstGlobal (plainHeader true).flags
      (heartbeatEntry streamId sequenceNo).header.entryMode = .ok () := by
    change validateEntryModeAgainstGlobal (plainHeader true).flags ⟨0x2300⟩ = _
    decide
  have hfragment : (heartbeatEntry streamId sequenceNo).header.entryMode.isFragment = false := by
    change EntryMode.isFragment ⟨0x2300⟩ = false
    decide
  rw [checkEntry, hmode, hfragment]
  rfl

theorem reads_heartbeat (hflags : m.currentGlobalFlags = some (plainHeader true).flags)
    (sequenceNo : UInt16) :
    Reads m (heartbeatEntry 1 sequenceNo) (plainHeader true).flags .heartbeat :=
  ⟨hflags, rfl, checkEntry_heartbeatEntry _ _ _, parse_heartbeatEntry _ _ _⟩

theorem heartbeat_ne_init (f : SessionInitFrame) : SessionFrame.heartbeat ≠ .init f := nofun

theorem Beating.beat {last : UInt16} {tick : ℕ} (h : Beating m last tick)
    (htick : tick + 1 ≤ u64Max) :
    (processEntry (heartbeatEntry 1 (last + 1)) m).1.isOk = true ∧
      Beating (processEntry (heartbeatEntry 1 (last + 1)) m).2 (last + 1) (tick + 1) := by
  obtain ⟨session, hsome, rfl, rfl⟩ := h.session
  rw [(reads_heartbeat h.flags_eq _).processEntry_eq,
    processFrame_of_accepted _ heartbeat_ne_init hsome rfl htick not_false]
  refine ⟨rfl, h.flags_eq, session.advanced, ?_, rfl, rfl⟩
  exact (lookup_setSession _ _ _ _).trans (if_pos rfl)

/-- When the tick runs out, the next heartbeat is refused. -/
theorem Beating.exhausted {last : UInt16} (h : Beating m last u64Max) :
    (processEntry (heartbeatEntry 1 (last + 1)) m).1 = .error (.overflow "activity tick") := by
  obtain ⟨session, hsome, rfl, htick⟩ := h.session
  have hover : u64Max < session.lastActivityTick + 1 := by
    rw [htick]
    exact Nat.lt_succ_self _
  rw [(reads_heartbeat h.flags_eq _).processEntry_eq,
    processFrame_of_overflow _ heartbeat_ne_init hsome rfl hover]

theorem Beating.run {tick : ℕ} (h : Beating m 0 tick) (count : ℕ) (htick : tick + count ≤ u64Max) :
    (∀ result ∈ (processEntries (heartbeats 1 count) m).1, result.isOk = true) ∧
      Beating (processEntries (heartbeats 1 count) m).2 (UInt16.ofNat count) (tick + count) := by
  induction count with
  | zero => exact ⟨fun _ hmem => (nomatch hmem), h⟩
  | succ count ih =>
    obtain ⟨hanswers, hbeating⟩ := ih (by omega)
    obtain ⟨hok, hnext⟩ := hbeating.beat (by omega)
    have hnumber : UInt16.ofNat count + 1 = UInt16.ofNat (count + 1) := by
      rw [UInt16.ofNat_add]
      rfl
    rw [hnumber] at hok hnext
    rw [heartbeats_succ, processEntries_append]
    refine ⟨fun result hmem => ?_, hnext⟩
    rcases mem_append.mp hmem with hmem | hmem
    · exact hanswers result hmem
    · obtain rfl := mem_singleton.mp hmem
      exact hok

theorem entriesOn_heartbeats (count : ℕ) :
    entriesOn 1 (heartbeats 1 count) = heartbeats 1 count := by
  refine filter_eq_self.mpr fun entry hentry => ?_
  obtain ⟨j, -, rfl⟩ := mem_map.mp hentry
  rfl

/-- The answer to the last entry is among those of its id. -/
theorem mem_answersOn_last (xs : List SessionEntry) (entry : SessionEntry) (m : SessionManager) :
    (processEntry entry (processEntries xs m).2).1 ∈
      answersOn entry.header.streamId (xs ++ [entry]) (processEntries (xs ++ [entry]) m).1 := by
  rw [processEntries_append, answersOn, zip_append (length_processEntries xs m).symm,
    filter_append, map_append]
  refine mem_append_right _ ?_
  rw [processEntries_cons, zip_cons_cons, filter_cons_of_pos (by simp)]
  exact mem_cons_self

/-- Behind another `SESSION_INIT` a session has one tick less. -/
theorem interferes_of_length {count : ℕ} (hcount : count + 2 = u64Max) :
    let entries := [initEntry 2 2 0, initEntry 1 1 0] ++ heartbeats 1 (count + 1)
    let m := observed defaultConfig (plainHeader true)
    NeverBinds entries m ∧
      answersOn 1 entries (processEntries entries m).1 ≠
        (processEntries (entriesOn 1 entries) m).1 := by
  intro entries m
  have hopen : NeverBinds [initEntry 2 2 0, initEntry 1 1 0] m := by decide +kernel
  refine ⟨neverBinds_append.mpr ⟨hopen, neverBinds_heartbeats _ _⟩, fun heq => ?_⟩
  -- together, the last heartbeat is refused
  have hbeating : Beating (processEntries [initEntry 2 2 0, initEntry 1 1 0] m).2 0 2 :=
    ⟨rfl, _, rfl, rfl, rfl⟩
  have hbefore := (hbeating.run count (by omega)).2
  rw [show 2 + count = u64Max by omega] at hbefore
  have hlast := hbefore.exhausted
  have hnumber : UInt16.ofNat count + 1 = UInt16.ofNat (count + 1) := by
    rw [UInt16.ofNat_add]
    rfl
  rw [hnumber] at hlast
  have hmem : (.error (.overflow "activity tick") : Result ProcessResult) ∈
      answersOn 1 entries (processEntries entries m).1 := by
    have hsplit : entries = ([initEntry 2 2 0, initEntry 1 1 0] ++ heartbeats 1 count) ++
        [heartbeatEntry 1 (UInt16.ofNat (count + 1))] := by
      rw [append_assoc, ← heartbeats_succ]
    have hanswer := mem_answersOn_last ([initEntry 2 2 0, initEntry 1 1 0] ++ heartbeats 1 count)
      (heartbeatEntry 1 (UInt16.ofNat (count + 1))) m
    have hstate : (processEntries ([initEntry 2 2 0, initEntry 1 1 0] ++ heartbeats 1 count) m).2 =
        (processEntries (heartbeats 1 count)
          (processEntries [initEntry 2 2 0, initEntry 1 1 0] m).2).2 := by
      rw [processEntries_append]
    rw [← hsplit, hstate, hlast] at hanswer
    exact hanswer
  -- alone, all entries are accepted
  have halone : Beating (processEntries [initEntry 1 1 0] m).2 0 1 := ⟨rfl, _, rfl, rfl, rfl⟩
  have hown : entriesOn 1 entries = [initEntry 1 1 0] ++ heartbeats 1 (count + 1) := by
    rw [entriesOn, filter_append]
    change _ ++ entriesOn 1 (heartbeats 1 (count + 1)) = _
    rw [entriesOn_heartbeats]
    rfl
  rw [heq, hown, processEntries_append] at hmem
  rcases mem_append.mp hmem with hmem | hmem
  · have hok : ∀ result ∈ (processEntries [initEntry 1 1 0] m).1, result.isOk = true := by
      decide +kernel
    cases hok _ hmem
  · cases (halone.run (count + 1) (by omega)).1 _ hmem

/-- In a run of `2 ^ 64` entries the tick of a session that is opened second runs out, and its
last heartbeat is refused; alone, the session has one tick more. -/
theorem late_tick_interferes :
    ∃ entries : List SessionEntry, entries.length = 2 ^ 64 ∧
      NeverBinds entries (observed defaultConfig (plainHeader true)) ∧
      answersOn 1 entries (processEntries entries (observed defaultConfig (plainHeader true))).1 ≠
        (processEntries (entriesOn 1 entries) (observed defaultConfig (plainHeader true))).1 := by
  obtain ⟨count, hcount⟩ : ∃ count, count + 2 = u64Max := ⟨u64Max - 2, by decide⟩
  refine ⟨_, ?_, interferes_of_length hcount⟩
  rw [length_append, heartbeats, length_map, length_range, length_cons, length_singleton]
  rw [u64Max] at hcount
  omega

end Runs

end SessionManager

end Sar
