import Sar.Stream.SessionInterleaving

/-!
# The entries that form sessions

Which sequences of entries go through with session semantics at every entry? Declaratively: on
each stream id the entries are a row of sessions, each of which starts with `SESSION_INIT`, counts
on from there and ends with `SESSION_CLOSE`, where the last one may still be open
(`FormSessions`). This is compared with the manager in two stages. What the manager remembers of
an id is where its session stands (`Standing`), and this makes it an automaton on the entries of
each id (`Threads`). The automaton in turn accepts exactly the rows of sessions.

* `threads_none_iff` — the automaton and the rows of sessions.
* `isApplied_iff`, `follows_of_isApplied` — one entry and one step of the automaton.
* `allApplied_iff` — the manager, over a whole run with any number of ids.
-/

namespace Sar

open Stateful List

/-- Whether an event says that an entry had no session semantics. -/
def SessionEvent.isStatefulInactive : SessionEvent → Bool
  | .statefulInactive _ _ _ => true
  | _ => false

namespace SessionManager

/-! ### Rows of sessions -/

/-- A frame between the first and the last one of a session: a resumption needs the UUID of the
session, and a manager that supports it. -/
structure Inner (config : SessionManagerConfig) (uuid : Octets 16) (frame : SessionFrame) :
    Prop where
  not_init : ∀ f, frame ≠ .init f
  not_close : frame ≠ .close
  resume : ∀ f, frame = .resume f → f.sessionUuid = uuid ∧ config.supportResume = true

/-- The sequence numbers of the entries. -/
def numbers (entries : List SessionEntry) : List UInt16 :=
  entries.map fun entry => entry.header.sequenceNo

/-- A session that is still open. -/
def IsOpenSession (config : SessionManagerConfig) (session : List SessionEntry) : Prop :=
  ∃ first body frame, session = first :: body ∧
    SessionFrame.parse config.limits first = .ok (.init frame) ∧
    (∀ entry ∈ body, ∃ f, SessionFrame.parse config.limits entry = .ok f ∧
      Inner config frame.sessionUuid f) ∧
    Consecutive (numbers session)

/-- A session that was closed. -/
def IsClosedSession (config : SessionManagerConfig) (session : List SessionEntry) : Prop :=
  ∃ before last, session = before ++ [last] ∧ IsOpenSession config before ∧
    SessionFrame.parse config.limits last = .ok .close ∧ Consecutive (numbers session)

/-- The entries are a row of sessions, of which the last one may be open. -/
def FormSessions (config : SessionManagerConfig) (entries : List SessionEntry) : Prop :=
  ∃ closed opened, entries = List.flatten closed ++ opened ∧
    (∀ session ∈ closed, IsClosedSession config session) ∧
    (opened = [] ∨ IsOpenSession config opened)

/-! ### The automaton of an id -/

/-- Where an id stands: without session, or with the UUID and the last number of its session. -/
abbrev Standing := Option (Octets 16 × UInt16)

/-- The steps of the automaton. -/
inductive Follows (config : SessionManagerConfig) (sequenceNo : UInt16) :
    SessionFrame → Standing → Standing → Prop where
  | opens (f : SessionInitFrame) :
      Follows config sequenceNo (.init f) none (some (f.sessionUuid, sequenceNo))
  | goesOn {frame : SessionFrame} {uuid : Octets 16} {last : UInt16}
      (hinner : Inner config uuid frame) (hnext : sequenceNo = last + 1) :
      Follows config sequenceNo frame (some (uuid, last)) (some (uuid, sequenceNo))
  | closes {uuid : Octets 16} {last : UInt16} (hnext : sequenceNo = last + 1) :
      Follows config sequenceNo .close (some (uuid, last)) none

/-- The automaton goes through the entries. -/
def Threads (config : SessionManagerConfig) : Standing → List SessionEntry → Prop
  | _, [] => True
  | s, entry :: entries => ∃ frame s', SessionFrame.parse config.limits entry = .ok frame ∧
      Follows config entry.header.sequenceNo frame s s' ∧ Threads config s' entries

section Automaton

variable {config : SessionManagerConfig} {uuid : Octets 16} {last sequenceNo : UInt16}
  {frame : SessionFrame} {entry : SessionEntry} {entries body : List SessionEntry}

/-- A frame leads from each standing to one standing at most. -/
theorem Follows.unique {s t t' : Standing} (h : Follows config sequenceNo frame s t)
    (h' : Follows config sequenceNo frame s t') : t = t' := by
  cases h with
  | opens f =>
    cases h'
    rfl
  | goesOn hinner _ =>
    cases h' with
    | goesOn => rfl
    | closes => exact absurd rfl hinner.not_close
  | closes _ =>
    cases h' with
    | goesOn hinner _ => exact absurd rfl hinner.not_close
    | closes => rfl

variable (config uuid last body) in
/-- Entries that go on with a session. -/
structure IsBody : Prop where
  inner : ∀ entry ∈ body, ∃ f, SessionFrame.parse config.limits entry = .ok f ∧
    Inner config uuid f
  consecutive : Consecutive (last :: numbers body)

theorem consecutive_cons_cons {a b : UInt16} {log : List UInt16} :
    Consecutive (a :: b :: log) ↔ b = a + 1 ∧ Consecutive (b :: log) :=
  isChain_cons_cons

/-- Entries that go on with a session, and then whatever the automaton accepts behind them. -/
theorem IsBody.threads {rest : List SessionEntry} (h : IsBody config uuid last body)
    (hrest : ∀ last', Consecutive (last :: numbers body) →
      (last :: numbers body).getLast? = some last' → Threads config (some (uuid, last')) rest) :
    Threads config (some (uuid, last)) (body ++ rest) := by
  induction body generalizing last with
  | nil => exact hrest last h.consecutive rfl
  | cons entry body ih =>
    obtain ⟨f, hparse, hinner⟩ := h.inner entry mem_cons_self
    obtain ⟨hnext, hconsecutive⟩ := consecutive_cons_cons.mp h.consecutive
    refine ⟨f, _, hparse, .goesOn hinner hnext, ih ⟨fun e he => ?_, hconsecutive⟩ ?_⟩
    · exact h.inner e (mem_cons_of_mem _ he)
    · intro last' _ hlast
      refine hrest last' h.consecutive ?_
      rw [numbers, map_cons, List.getLast?_cons_cons]
      exact hlast

/-- From inside a session the automaton goes on to the end, or to the close of the session. -/
theorem exists_body_of_threads (h : Threads config (some (uuid, last)) entries) :
    IsBody config uuid last entries ∨
      ∃ body closing rest, entries = body ++ closing :: rest ∧ IsBody config uuid last body ∧
        SessionFrame.parse config.limits closing = .ok .close ∧
        Consecutive (last :: numbers (body ++ [closing])) ∧ Threads config none rest := by
  induction entries generalizing last with
  | nil => exact .inl ⟨fun _ he => (nomatch he), isChain_singleton _⟩
  | cons entry entries ih =>
    obtain ⟨frame, s', hparse, hfollows, hrest⟩ := h
    cases hfollows with
    | closes hnext =>
      refine .inr ⟨[], entry, entries, rfl, ⟨fun _ he => (nomatch he), isChain_singleton _⟩,
        hparse, ?_, hrest⟩
      exact consecutive_cons_cons.mpr ⟨hnext, isChain_singleton _⟩
    | goesOn hinner hnext =>
      have hlonger : ∀ {body}, IsBody config uuid entry.header.sequenceNo body →
          IsBody config uuid last (entry :: body) := by
        intro body hbody
        refine ⟨fun e he => ?_, consecutive_cons_cons.mpr ⟨hnext, hbody.consecutive⟩⟩
        rcases mem_cons.mp he with rfl | he
        · exact ⟨frame, hparse, hinner⟩
        · exact hbody.inner e he
      rcases ih hrest with hbody | ⟨body, closing, rest, rfl, hbody, hclose, hconsecutive, hthreads⟩
      · exact .inl (hlonger hbody)
      · exact .inr ⟨entry :: body, closing, rest, rfl, hlonger hbody, hclose,
          consecutive_cons_cons.mpr ⟨hnext, hconsecutive⟩, hthreads⟩

theorem FormSessions.cons {session : List SessionEntry} (hsession : IsClosedSession config session)
    (h : FormSessions config entries) : FormSessions config (session ++ entries) := by
  obtain ⟨closed, opened, rfl, hclosed, hopened⟩ := h
  refine ⟨session :: closed, opened, ?_, fun s hs => ?_, hopened⟩
  · rw [flatten_cons, append_assoc]
  · rcases mem_cons.mp hs with rfl | hs
    · exact hsession
    · exact hclosed s hs

/-- What the automaton accepts is a row of sessions. -/
theorem formSessions_of_threads {n : ℕ} (hlength : entries.length ≤ n)
    (h : Threads config none entries) : FormSessions config entries := by
  -- on the length, since a whole session is taken off at a time
  induction n generalizing entries with
  | zero =>
    obtain rfl := length_eq_zero_iff.mp (Nat.le_zero.mp hlength)
    exact ⟨[], [], rfl, fun _ hs => (nomatch hs), .inl rfl⟩
  | succ n ih =>
    cases entries with
    | nil => exact ⟨[], [], rfl, fun _ hs => (nomatch hs), .inl rfl⟩
    | cons first entries =>
      obtain ⟨frame, s', hparse, hfollows, hrest⟩ := h
      cases hfollows with
      | opens f =>
        have hopen : ∀ {body}, IsBody config f.sessionUuid first.header.sequenceNo body →
            IsOpenSession config (first :: body) := fun hbody =>
          ⟨first, _, f, rfl, hparse, hbody.inner, hbody.consecutive⟩
        rcases exists_body_of_threads hrest with
          hbody | ⟨body, closing, rest, rfl, hbody, hclose, hconsecutive, hthreads⟩
        · exact ⟨[], first :: entries, rfl, fun _ hs => (nomatch hs), .inr (hopen hbody)⟩
        · have hshorter : rest.length ≤ n := by
            rw [length_cons, length_append, length_cons] at hlength
            omega
          have hclosed : IsClosedSession config (first :: body ++ [closing]) :=
            ⟨first :: body, closing, rfl, hopen hbody, hclose, hconsecutive⟩
          have hrow := (ih hshorter hthreads).cons hclosed
          rwa [append_assoc, singleton_append] at hrow

/-- The automaton goes through a session, and on from where the session ends. -/
theorem IsOpenSession.threads {session rest : List SessionEntry}
    (h : IsOpenSession config session)
    (hrest : ∀ uuid last, (numbers session).getLast? = some last →
      Threads config (some (uuid, last)) rest) : Threads config none (session ++ rest) := by
  obtain ⟨first, body, frame, rfl, hparse, hbody, hconsecutive⟩ := h
  refine ⟨.init frame, _, hparse, .opens frame, ?_⟩
  exact IsBody.threads ⟨hbody, hconsecutive⟩ fun last _ hlast => hrest _ last hlast

/-- The automaton goes through a closed session and is free again. -/
theorem IsClosedSession.threads {session rest : List SessionEntry}
    (h : IsClosedSession config session) (hrest : Threads config none rest) :
    Threads config none (session ++ rest) := by
  obtain ⟨before, closing, rfl, hopen, hclose, hconsecutive⟩ := h
  rw [append_assoc, singleton_append]
  refine hopen.threads fun uuid last hlast => ⟨.close, none, hclose, .closes ?_, hrest⟩
  rw [numbers, map_append, Consecutive, isChain_append] at hconsecutive
  exact hconsecutive.2.2 last hlast _ rfl

/-- **The automaton of an id accepts exactly the rows of sessions.** -/
theorem threads_none_iff : Threads config none entries ↔ FormSessions config entries := by
  refine ⟨formSessions_of_threads le_rfl, ?_⟩
  rintro ⟨closed, opened, rfl, hclosed, hopened⟩
  induction closed with
  | nil =>
    rw [flatten_nil, nil_append]
    rcases hopened with rfl | hopen
    · exact trivial
    · have hthreads := hopen.threads fun _ _ _ => show Threads config _ [] from trivial
      rwa [append_nil] at hthreads
  | cons session closed ih =>
    rw [flatten_cons, append_assoc]
    refine (hclosed session mem_cons_self).threads (ih fun s hs => ?_)
    exact hclosed s (mem_cons_of_mem _ hs)

end Automaton

/-! ### The manager as an automaton -/

/-- The answer of an entry that went through with session semantics. -/
def IsApplied (r : Result ProcessResult) : Prop :=
  ∃ result, r = .ok result ∧ result.events.any SessionEvent.isStatefulInactive = false

/-- Every entry goes through with session semantics. -/
def AllApplied : List SessionEntry → SessionManager → Prop
  | [], _ => True
  | entry :: entries, m =>
    IsApplied (processEntry entry m).1 ∧ AllApplied entries (processEntry entry m).2

/-- An entry that is valid by itself: its mode agrees with the header, its operation exists, and
its payload can be read. -/
def IsValid (limits : ResourceLimits) (globalFlags : GlobalFlags) (entry : SessionEntry) : Prop :=
  checkEntry limits globalFlags entry = .ok () ∧
    ∃ frame, SessionFrame.parse limits entry = .ok frame

/-- Where an id stands in the manager. -/
def standing (m : SessionManager) (k : UInt16) : Standing :=
  (m.activeSessions.lookup k).map fun session => (session.sessionUuid, session.lastSequenceNo)

section Step

variable {m : SessionManager} {entry : SessionEntry} {frame : SessionFrame}
  {globalFlags : GlobalFlags} {n : ℕ} {k : UInt16}

theorem standing_setSession (m : SessionManager) (session : Option ActiveSession) :
    standing (m.setSession k session) k =
      session.map fun session => (session.sessionUuid, session.lastSequenceNo) := by
  rw [standing, lookup_setSession, if_pos rfl]

theorem not_isApplied_error (e : SarError) : ¬ IsApplied (.error e) := fun ⟨_, h, _⟩ => nomatch h

/-- An answer of a session has session semantics. -/
theorem isApplied_answer (config : SessionManagerConfig) (entry : SessionEntry)
    (session : ActiveSession) (frame : SessionFrame) :
    IsApplied (.ok (frame.answer config entry session)) := by
  refine ⟨_, rfl, ?_⟩
  cases frame with
  | filesystem op =>
    rw [SessionFrame.answer]
    cases entry.degraded <;> rfl
  | _ => rfl

/-- An entry that goes through takes a step of the automaton. -/
theorem follows_of_isApplied (hflags : m.currentGlobalFlags = some globalFlags)
    (happly : shouldApplyStateful globalFlags entry.header.streamId = true)
    (h : IsApplied (processEntry entry m).1) :
    checkEntry m.config.limits globalFlags entry = .ok () ∧
      ∃ frame, SessionFrame.parse m.config.limits entry = .ok frame ∧
        Follows m.config entry.header.sequenceNo frame (standing m entry.header.streamId)
          (standing (processEntry entry m).2 entry.header.streamId) := by
  have hsame : ∀ {globalFlags' frame}, Reads m entry globalFlags' frame →
      globalFlags' = globalFlags := fun hreads =>
    Option.some.inj (hreads.flags_eq.symm.trans hflags)
  have hturn := processEntry_turn m entry
  generalize processEntry entry m = r at h hturn
  cases hturn with
  | rejected | discontinuous | overflowed | refused => exact absurd h (not_isApplied_error _)
  | inactive =>
    obtain ⟨result, hok, hevents⟩ := h
    obtain rfl := Except.ok.inj hok
    cases hevents
  | activated hreads hnone _ =>
    obtain rfl := hsame hreads
    refine ⟨hreads.checked, _, hreads.parsed, ?_⟩
    rw [SessionManager.activated, standing_setSession, standing, hnone]
    exact .opens _
  | @accepted _ frame session hreads hnext _ hlate =>
    obtain rfl := hsame hreads
    refine ⟨hreads.checked, frame, hreads.parsed, ?_⟩
    rw [show standing m entry.header.streamId = some (session.sessionUuid, session.lastSequenceNo)
      from congrArg _ hnext.lookup_eq]
    by_cases hclose : frame = .close
    · subst hclose
      dsimp only
      rw [standing_setSession]
      exact .closes hnext.sequence_eq
    · dsimp only
      obtain ⟨-, huuid, hlast⟩ := applied_eqs session.advanced frame
      rw [standing_setSession, afterFrame_of_ne _ hclose, Option.map_some, huuid,
        hlast.trans hnext.sequence_eq.symm]
      refine .goesOn ⟨hnext.not_init, hclose, ?_⟩ hnext.sequence_eq
      rintro f rfl
      obtain ⟨huuid, hsupport⟩ := not_or.mp hlate
      exact ⟨(not_not.mp huuid).symm, Bool.not_eq_false _ |>.mp hsupport⟩

/-- A step of the automaton is taken by the manager, where its limits and ticks do not bind. -/
theorem isApplied_of_follows {s : Standing} (hreads : Reads m entry globalFlags frame)
    (hfits : Fits m entry) (hticks : TicksLe n m) (hn : n + 1 ≤ u64Max)
    (h : Follows m.config entry.header.sequenceNo frame (standing m entry.header.streamId) s) :
    IsApplied (processEntry entry m).1 := by
  have hframe : FrameFits m entry.header.streamId frame := hfits frame hreads.parsed
  rw [hreads.processEntry_eq]
  rcases hlookup : m.activeSessions.lookup entry.header.streamId with _ | session
  · rw [standing, hlookup] at h
    cases h with
    | opens f =>
      have hroom := hframe hlookup
      have hadmits : m.Admits :=
        ⟨hroom, (Nat.succ_le_succ hticks.manager).trans hn⟩
      rcases activate_cases globalFlags entry m f with ⟨-, -, hrun⟩ | ⟨hnot, -⟩
      · rw [processFrame, hrun]
        exact ⟨_, rfl, rfl⟩
      · exact absurd ⟨hlookup, hadmits⟩ hnot
  · have htick : session.lastActivityTick + 1 ≤ u64Max :=
      (Nat.succ_le_succ (hticks.sessions _ _ hlookup)).trans hn
    rw [standing, hlookup] at h
    cases h with
    | goesOn hinner hnext =>
      -- a frame that fits and belongs into the session is not refused for its content
      have hlate : ¬ frame.RefusedLate m.config m.totalSessionMemory session := by
        cases frame with
        | resume f =>
          obtain ⟨huuid, hsupport⟩ := hinner.resume f rfl
          rintro (hne | hfalse)
          · exact hne huuid.symm
          · cases hsupport.symm.trans hfalse
        | metadata f => exact hframe session hlookup
        | _ => exact not_false
      rw [processFrame_of_accepted globalFlags hinner.not_init hlookup hnext htick hlate]
      exact isApplied_answer _ _ _ _
    | closes hnext =>
      have hinit : ∀ f, SessionFrame.close ≠ .init f := by simp
      have hlate : ¬ SessionFrame.close.RefusedLate m.config m.totalSessionMemory session :=
        not_false
      rw [processFrame_of_accepted globalFlags hinit hlookup hnext htick hlate]
      exact isApplied_answer _ _ _ _

/-- Other ids stand where they stood. -/
theorem standing_of_ne (m : SessionManager) (hk : k ≠ entry.header.streamId) :
    standing (processEntry entry m).2 k = standing m k := by
  rw [standing, standing, (processEntry_turn m entry).lookup_ne hk]

end Step

section Runs

variable {globalFlags : GlobalFlags} {entry : SessionEntry} {entries : List SessionEntry}
  {k : UInt16} {m : SessionManager} {n : ℕ}

theorem entriesOn_cons_self (entry : SessionEntry) (entries : List SessionEntry) :
    entriesOn entry.header.streamId (entry :: entries) =
      entry :: entriesOn entry.header.streamId entries :=
  filter_cons_of_pos (by simp)

theorem entriesOn_cons_of_ne (h : entry.header.streamId ≠ k) (entries : List SessionEntry) :
    entriesOn k (entry :: entries) = entriesOn k entries :=
  filter_cons_of_neg (by simpa using h)

/-- **The manager accepts exactly the rows of sessions**, on all ids at once: where limits and
ticks do not bind, every entry of a run goes through with session semantics exactly if each is
valid by itself and the automaton of each id goes through its entries. -/
theorem allApplied_iff (hflags : m.currentGlobalFlags = some globalFlags)
    (hindex : globalFlags.noIndex = true) (hids : ∀ entry ∈ entries, entry.header.streamId ≠ 0)
    (hbinds : NeverBinds entries m) (hticks : TicksLe n m) (hn : n + entries.length ≤ u64Max) :
    AllApplied entries m ↔
      (∀ entry ∈ entries, IsValid m.config.limits globalFlags entry) ∧
        ∀ k, Threads m.config (standing m k) (entriesOn k entries) := by
  induction entries generalizing m n with
  | nil => exact ⟨fun _ => ⟨by simp, fun _ => trivial⟩, fun _ => trivial⟩
  | cons entry entries ih =>
    have happly : shouldApplyStateful globalFlags entry.header.streamId = true := by
      rw [shouldApplyStateful, hindex, Bool.true_and, bne_iff_ne]
      exact hids entry mem_cons_self
    have hprocessed := processEntry_processed m entry
    have hlength : n + 1 + entries.length ≤ u64Max := by
      rw [length_cons] at hn
      omega
    have hrest := ih (hprocessed.currentGlobalFlags_eq.trans hflags)
      (fun e he => hids e (mem_cons_of_mem _ he)) hbinds.2 hticks.turn hlength
    rw [hprocessed.config_eq] at hrest
    constructor
    · rintro ⟨happlied, hall⟩
      obtain ⟨hvalid, hthreads⟩ := hrest.mp hall
      obtain ⟨hchecked, frame, hparsed, hfollows⟩ := follows_of_isApplied hflags happly happlied
      refine ⟨forall_mem_cons.mpr ⟨⟨hchecked, frame, hparsed⟩, hvalid⟩, fun k => ?_⟩
      by_cases hk : entry.header.streamId = k
      · subst hk
        rw [entriesOn_cons_self]
        exact ⟨frame, _, hparsed, hfollows, hthreads _⟩
      · rw [entriesOn_cons_of_ne hk, ← standing_of_ne m (Ne.symm hk)]
        exact hthreads k
    · rintro ⟨hvalid, hthreads⟩
      obtain ⟨⟨hchecked, -⟩, hvalid⟩ := forall_mem_cons.mp hvalid
      have hown := hthreads entry.header.streamId
      rw [entriesOn_cons_self] at hown
      obtain ⟨frame, s, hparsed, hfollows, hown⟩ := hown
      have happlied := isApplied_of_follows ⟨hflags, happly, hchecked, hparsed⟩ hbinds.1 hticks
        (by omega) hfollows
      refine ⟨happlied, hrest.mpr ⟨hvalid, fun k => ?_⟩⟩
      by_cases hk : entry.header.streamId = k
      · subst hk
        -- the manager stands where the automaton went
        obtain ⟨-, frame', hparsed', hfollows'⟩ := follows_of_isApplied hflags happly happlied
        obtain rfl := Except.ok.inj (hparsed'.symm.trans hparsed)
        rw [hfollows'.unique hfollows]
        exact hown
      · rw [standing_of_ne m (Ne.symm hk), ← entriesOn_cons_of_ne hk]
        exact hthreads k

/-- What goes through, goes through up to any entry. -/
theorem AllApplied.of_append {later : List SessionEntry} (h : AllApplied (entries ++ later) m) :
    AllApplied entries m := by
  induction entries generalizing m with
  | nil => trivial
  | cons entry entries ih => exact ⟨h.1, ih h.2⟩

end Runs

end SessionManager

end Sar
