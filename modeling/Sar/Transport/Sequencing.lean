import Sar.Transport.Isolation
import Sar.Transport.Rejection
import Sar.Transport.Terminal

/-!
# Sequence numbers of a session

A session lives in the session manager of its primary transport stream, which checks that every
entry carries the next sequence number. An attached control stream has a manager of its own that
knows nothing of the session: it takes any entry, whatever its number is, and what the entry says
has no effect on the session. So the numbers accepted for a session are consecutive as long as
nothing is handed to the managers of its control streams.

On the primary stream two more things can happen. Under a Global Header with an index the manager
takes entries without a look at the session, and an entry that is refused after its number was
taken leaves a gap; the transport then rejects the stream, so nothing follows, unless the
rejection itself is stopped by a limit.
-/

namespace Sar

open Stateful List

namespace InMemoryTransport

variable {id : TransportStreamId} {before after : Call} {context : TransportStreamContext}

/-! ### The sessions of a stream's manager -/

/-- Handling an event does not touch the manager. -/
theorem Handled.manager_eq {event : LoopEvent} (h : Handled id before after event)
    (hlookup : before.transport.streams.lookup id = some context) :
    ∃ context', after.transport.streams.lookup id = some context' ∧
      context'.manager = context.manager := by
  have hmodify : ∀ {f : TransportStreamContext → TransportStreamContext}
      {streams : Table TransportStreamId TransportStreamContext},
      (∀ context, (f context).manager = context.manager) → streams.lookup id = some context →
      ∃ context', (streams.modify id f).lookup id = some context' ∧
        context'.manager = context.manager := by
    intro f streams hf hstreams
    refine ⟨f context, ?_, hf context⟩
    rw [Table.lookup_modify_eq, if_pos rfl, hstreams]
    rfl
  cases h with
  | quiet hquiet =>
    have hself := hquiet.lookup_self
    rw [hlookup, Option.map_some] at hself
    obtain ⟨context', hcontext', heq⟩ := Option.map_eq_some_iff.mp hself
    have hmanager := congrArg TransportStreamContext.manager heq
    exact ⟨context', hcontext', hmanager⟩
  | rejected _ htransport _ =>
    rw [htransport]
    exact ⟨_, lookup_markRejected hlookup _, rfl⟩
  | @activated seq sar uuid flags _ htransport _ =>
    rw [htransport]
    refine hmodify (fun _ => rfl) ?_
    rw [bindSarStream_streams]
    exact hlookup
  | closed _ htransport _ =>
    rw [htransport]
    exact hmodify (fun _ => rfl) hlookup

/-- What happened to the sessions of a stream: nothing, or an entry was handed to its manager. -/
def SessionsMoved (id : TransportStreamId) (context context' : TransportStreamContext)
    (old new : List Delivery) : Prop :=
  new = old ∧ context'.manager.activeSessions = context.manager.activeSessions ∨
  ∃ entry, new = old ++ [⟨id, entry, (SessionManager.processEntry entry context.manager).1⟩] ∧
    context'.manager = (SessionManager.processEntry entry context.manager).2

/-- What a turn does to the sessions of its stream. -/
theorem Turned.sessions_cases {find : CallM LoopEvent}
    {kept : TransportStreamContext → TransportStreamContext → Prop}
    {accepts : TransportStreamContext → SessionEntry → Prop}
    (h : Turned find id kept accepts before after)
    (hlookup : before.transport.streams.lookup id = some context) :
    ∃ context', after.transport.streams.lookup id = some context' ∧
      SessionsMoved id context context' before.deliveries after.deliveries := by
  cases h with
  | missing hafter =>
    rw [hafter]
    exact ⟨context, hlookup, Or.inl ⟨rfl, rfl⟩⟩
  | @found event found old middle _ hold htouched _ hobserved hhandled =>
    obtain rfl := Option.some.inj (hlookup.symm.trans hold)
    obtain ⟨context', hcontext', hmanager⟩ := hhandled.manager_eq htouched.lookup_self
    refine ⟨context', hcontext', ?_⟩
    rw [SessionsMoved, hhandled.deliveries_eq, hmanager]
    cases hobserved with
    | silent _ hsame hsessions => exact Or.inl ⟨hsame, hsessions⟩
    | delivered _ hdelivered =>
      exact Or.inr ⟨_, hdelivered.deliveries_eq, hdelivered.manager_eq⟩

/-- The start of a feed leaves the sessions alone. -/
theorem Routed.sessions_eq {bytes : Bytes} {r : Result Route × Call}
    (h : Routed id bytes before r) (hlookup : before.transport.streams.lookup id = some context) :
    ∃ context', r.2.transport.streams.lookup id = some context' ∧
      context'.manager.activeSessions = context.manager.activeSessions := by
  cases h with
  | failed => exact ⟨context, hlookup, rfl⟩
  | pushed hold =>
    obtain rfl := Option.some.inj (hlookup.symm.trans hold)
    exact ⟨_, lookup_setContext _, rfl⟩
  | control hold =>
    obtain rfl := Option.some.inj (hlookup.symm.trans hold)
    exact ⟨_, lookup_setContext _, rfl⟩
  | buffered hfresh =>
    obtain rfl := Option.some.inj (hlookup.symm.trans hfresh.lookup_eq)
    exact ⟨_, lookup_setContext _, rfl⟩
  | started hfresh =>
    obtain rfl := Option.some.inj (hlookup.symm.trans hfresh.lookup_eq)
    exact ⟨_, lookup_setContext _, rfl⟩
  | @refused old context' r hfresh _ _ hmanager hreject =>
    obtain rfl := Option.some.inj (hlookup.symm.trans hfresh.lookup_eq)
    have hset : (setContext id context' before).transport.streams.lookup id = some context' :=
      lookup_setContext _
    cases hreject.maybeRejected with
    | noted hnotes =>
      obtain ⟨⟨rejected, htransport⟩, -⟩ := hnotes
      refine ⟨context', ?_, congrArg _ hmanager⟩
      rw [htransport]
      exact hset
    | rejected htransport _ =>
      rw [htransport]
      exact ⟨_, lookup_markRejected hset _, congrArg SessionManager.activeSessions hmanager⟩
  | attached hfresh _ _ _ hsessions htouched _ =>
    obtain rfl := Option.some.inj (hlookup.symm.trans hfresh.lookup_eq)
    exact ⟨_, htouched.lookup_self, hsessions⟩

/-- Closing or resetting a stream leaves its sessions alone. -/
theorem Detached.sessions_eq {state : TransportStreamState} (h : Detached id state before after)
    (hlookup : before.transport.streams.lookup id = some context) :
    ∃ context', after.transport.streams.lookup id = some context' ∧
      context'.manager.activeSessions = context.manager.activeSessions := by
  cases h with
  | failed hafter =>
    rw [hafter]
    exact ⟨context, hlookup, rfl⟩
  | detached hold htouched _ =>
    obtain rfl := Option.some.inj (hlookup.symm.trans hold)
    exact ⟨_, htouched.lookup_self, rfl⟩

end InMemoryTransport

namespace Connection

open InMemoryTransport

variable {backend : Backend} {c c' : Connection} {s : Step} {id : TransportStreamId} {k : UInt16}
  {last : UInt16}

/-- What a step does to the sessions of the stream it works on. -/
theorem Stepped.sessions_cases (h : Stepped backend c id s c') {context : TransportStreamContext}
    (hlookup : c.transport.streams.lookup id = some context) :
    ∃ context', c'.transport.streams.lookup id = some context' ∧
      SessionsMoved id context context' c.deliveries c'.deliveries := by
  have hsilent : ∀ {call : Call}, call.deliveries = [] →
      (∃ context', call.transport.streams.lookup id = some context' ∧
        context'.manager.activeSessions = context.manager.activeSessions) →
      ∃ context', call.transport.streams.lookup id = some context' ∧
        SessionsMoved id context context' c.deliveries (c.deliveries ++ call.deliveries) := by
    rintro call hnone ⟨context', hcontext', hsessions⟩
    refine ⟨context', hcontext', Or.inl ⟨?_, hsessions⟩⟩
    rw [hnone, append_nil]
  have hturn : ∀ {call : Call}, (∃ context', call.transport.streams.lookup id = some context' ∧
        SessionsMoved id context context' c.call.deliveries call.deliveries) →
      ∃ context', call.transport.streams.lookup id = some context' ∧
        SessionsMoved id context context' c.deliveries (c.history ++ call.deliveries) := by
    rintro call ⟨context', hcontext', ⟨hsame, hsessions⟩ | ⟨entry, hone, hmanager⟩⟩
    · exact ⟨context', hcontext', Or.inl ⟨congrArg (c.history ++ ·) hsame, hsessions⟩⟩
    · refine ⟨context', hcontext', Or.inr ⟨entry, ?_, hmanager⟩⟩
      exact (congrArg (c.history ++ ·) hone).trans (append_assoc ..).symm
  cases h with
  | opened h =>
    cases h with
    | failed hafter =>
      rw [hafter]
      exact hsilent rfl ⟨context, hlookup, rfl⟩
    | entered hnew => exact nomatch hnew.symm.trans hlookup
  | routed h => exact hsilent h.deliveries_eq (h.sessions_eq hlookup)
  | closed h => exact hsilent h.deliveries_eq (h.sessions_eq hlookup)
  | reset h => exact hsilent h.deliveries_eq (h.sessions_eq hlookup)
  | fed _ _ h => exact hturn (h.sessions_cases hlookup)
  | controlled _ _ h => exact hturn (h.sessions_cases hlookup)

/-- **What a step does to the sessions of a stream**: nothing, or it is a turn that handed an entry
to the stream's manager. -/
theorem step_sessions_cases (henabled : c.Enabled s) {context : TransportStreamContext}
    (hlookup : c.transport.streams.lookup id = some context) :
    ∃ context', (c.step backend s).transport.streams.lookup id = some context' ∧
      ((∀ d, (c.step backend s).deliveries = c.deliveries ++ [d] → d.transportStreamId ≠ id) ∧
        context'.manager.activeSessions = context.manager.activeSessions ∨
      ∃ entry, (c.step backend s).deliveries = c.deliveries ++
          [⟨id, entry, (SessionManager.processEntry entry context.manager).1⟩] ∧
        context'.manager = (SessionManager.processEntry entry context.manager).2) := by
  obtain ⟨i, -, hstep⟩ := step_stepped backend henabled
  by_cases hi : id = i
  · subst hi
    obtain ⟨context', hcontext', hmoved⟩ := hstep.sessions_cases hlookup
    refine ⟨context', hcontext', hmoved.imp_left fun ⟨hsame, hsessions⟩ =>
      ⟨fun d hd => ?_, hsessions⟩⟩
    exact nomatch append_right_eq_self.mp (hd.symm.trans hsame)
  · refine ⟨context, (hstep.framed.lookup_ne id hi).trans hlookup, Or.inl ⟨fun d hd heq => ?_, rfl⟩⟩
    exact hi (heq.symm.trans (hstep.deliveries_own hd))

/-! ### Streams that take nothing more -/

/-- The stream has ended, and no feed loop works on it. -/
structure Ended (c : Connection) (id : TransportStreamId) : Prop where
  terminal : Terminal c.transport id
  resting : ∀ nowMs, c.phase ≠ .feeding id nowMs

/-- A feed loop works on the stream of the step that entered it. -/
theorem Stepped.feeding_eq {i : TransportStreamId} (h : Stepped backend c i s c')
    {nowMs : Option UInt64} (hphase : c'.phase = .feeding id nowMs) : id = i := by
  have hbusy : Phase.feeding id nowMs ≠ .idle := fun heq => nomatch heq
  cases h with
  | opened | closed | reset => exact nomatch hphase
  | routed => exact (phaseOf_eq_feeding hphase).2
  | fed hbefore =>
    have hsame := (afterTurn_phase_eq hphase hbusy).1
    exact (Phase.feeding.inj (hbefore.symm.trans hsame)).1.symm
  | controlled hbefore =>
    exact nomatch hbefore.symm.trans (afterTurn_phase_eq hphase hbusy).1

/-- Such a stream stays so, whatever happens. -/
theorem Ended.step (henabled : c.Enabled s) (h : c.Ended id) : (c.step backend s).Ended id := by
  have hstart : Terminal (Call.mk c.transport [] []).transport id := h.terminal
  obtain ⟨i, -, hstep⟩ := step_stepped backend henabled
  generalize c.step backend s = c' at hstep ⊢
  by_cases hi : id = i
  · subst hi
    cases hstep with
    | opened h' =>
      obtain rfl := hstart.opened h'
      exact ⟨h.terminal, fun _ heq => nomatch heq⟩
    | closed h' => exact ⟨hstart.detached h' rfl, fun _ heq => nomatch heq⟩
    | reset h' => exact ⟨hstart.detached h' rfl, fun _ heq => nomatch heq⟩
    | routed h' =>
      -- bytes reach the parser of a stream that is alive only
      rcases hstart.routed_cases h' with ⟨e, rfl⟩ | ⟨context, sar, hlookup, -, rfl⟩
      · exact ⟨h.terminal, fun _ heq => nomatch heq⟩
      · refine ⟨?_, fun _ heq => nomatch heq⟩
        exact (terminal_iff (lookup_setContext _)).mpr ((terminal_iff hlookup).mp h.terminal)
    | fed hphase => exact absurd hphase (h.resting _)
    | controlled hphase _ h' =>
      refine ⟨Terminal.controlled h.terminal h', fun _ hafter => ?_⟩
      exact nomatch hphase.symm.trans (afterTurn_phase_eq hafter fun heq => nomatch heq).1
  · refine ⟨(terminal_congr (hstep.framed.lookup_ne id hi)).mpr h.terminal, fun nowMs hphase => ?_⟩
    exact hi (hstep.feeding_eq hphase)

/-! ### The session's number -/

/-- The stream's manager has a session for the id, whose last number is the given one. -/
def Counts (c : Connection) (id : TransportStreamId) (k last : UInt16) : Prop :=
  ∃ context session, c.transport.streams.lookup id = some context ∧
    context.manager.activeSessions.lookup k = some session ∧ session.lastSequenceNo = last

/-- The sequence numbers that a step adds to a session: of an entry for the id that is accepted on
the session's stream or on a control stream attached to it. -/
def newlyAccepted (backend : Backend) (id : TransportStreamId) (k : UInt16) (c : Connection)
    (s : Step) : List UInt16 :=
  (((c.step backend s).deliveries.drop c.deliveries.length).filter fun d =>
    d.entry.header.streamId == k && d.result.toBool && (d.transportStreamId == id ||
      c.transport.controlStreamAttachments.lookup d.transportStreamId == some k)).map
    (·.entry.header.sequenceNo)

/-- The sequence numbers accepted for a session over some steps. -/
def acceptedNumbers (backend : Backend) (id : TransportStreamId) (k : UInt16) :
    Connection → List Step → List UInt16
  | _, [] => []
  | c, s :: steps =>
    newlyAccepted backend id k c s ++ acceptedNumbers backend id k (c.step backend s) steps

/-- The step hands no entry to a control stream of the session. When it reads an entry for the id
on the session's stream, session semantics applies to it, and if the entry is refused after its
number was taken, the rejection has room for its actions. -/
def KeepsSequence (backend : Backend) (c : Connection) (id : TransportStreamId) (k : UInt16) :
    Step → Prop
  | .start _ => True
  | .turn =>
    (∀ i nowMs seq result found, c.phase = .controlling i nowMs →
      c.transport.controlStreamAttachments.lookup i = some k →
      controlEvent backend i nowMs c.call ≠ (.ok (.sessionResult seq result), found)) ∧
    ∀ nowMs context reader parser, c.phase = .feeding id nowMs →
      c.transport.streams.lookup id = some context →
      StreamArchiveParser.step backend context.parser = (.ok (.ready (.entry reader)), parser) →
      reader.header.streamId = k →
      SessionManager.shouldApplyStateful (context.manager.currentGlobalFlags.getD {}) k = true ∧
      ∀ error manager,
        SessionManager.processEntry ⟨reader.header, reader.payload, false⟩ context.manager =
          (.error error, manager) →
        (manager.activeSessions.lookup k).map (·.lastSequenceNo) =
          (context.manager.activeSessions.lookup k).map (·.lastSequenceNo) ∨ RoomToReject c.call

/-- No control stream of the session is given anything. -/
theorem KeepsSequence.not_attached (h : c.KeepsSequence backend id k s) (hregular : c.Regular)
    {d : Delivery} (hnew : (c.step backend s).deliveries = c.deliveries ++ [d]) :
    c.transport.controlStreamAttachments.lookup d.transportStreamId ≠ some k := by
  intro hattached
  cases delivers_of_step hnew with
  | fed hphase => exact nomatch (hregular.feeding _ _ hphase).symm.trans hattached
  | controlled hphase _ _ _ hfind => exact h.1 _ _ _ _ _ hphase hattached hfind

/-- Nothing is added for a step that accepts nothing for the id on its stream. -/
theorem KeepsSequence.newlyAccepted_eq_nil (h : c.KeepsSequence backend id k s)
    (hregular : c.Regular)
    (hnone : ∀ d, (c.step backend s).deliveries = c.deliveries ++ [d] →
      d.transportStreamId = id → d.entry.header.streamId = k → d.result.toBool = false) :
    newlyAccepted backend id k c s = [] := by
  rcases step_deliveries_cases backend c s with hsame | ⟨d, hone, -⟩
  · rw [newlyAccepted, hsame, drop_length]
    rfl
  · have hnot := h.not_attached hregular hone
    rw [newlyAccepted, hone, drop_left, map_eq_nil_iff, filter_eq_nil_iff]
    intro d' hd' hcounted
    rw [mem_singleton.mp hd'] at hcounted
    simp only [Bool.and_eq_true, Bool.or_eq_true, beq_iff_eq] at hcounted
    obtain ⟨⟨hstream, hok⟩, hplace⟩ := hcounted
    rw [hnone _ hone (hplace.resolve_right hnot) hstream] at hok
    exact Bool.false_ne_true hok

/-- An entry that the session's manager accepts is added. -/
theorem newlyAccepted_of_accepted {d : Delivery}
    (hnew : (c.step backend s).deliveries = c.deliveries ++ [d]) (hplace : d.transportStreamId = id)
    (hstream : d.entry.header.streamId = k) (hok : d.result.toBool = true) :
    newlyAccepted backend id k c s = [d.entry.header.sequenceNo] := by
  rw [newlyAccepted, hnew, drop_left, filter_singleton, hplace, hstream, hok]
  simp

/-- An entry for the id on the session's stream comes from the feed loop. -/
theorem KeepsSequence.fed (h : c.KeepsSequence backend id k s) (hregular : c.Regular)
    {context : TransportStreamContext} {entry : SessionEntry}
    {result : Except SarError ProcessResult}
    (hlookup : c.transport.streams.lookup id = some context)
    (hnew : (c.step backend s).deliveries = c.deliveries ++ [⟨id, entry, result⟩])
    (hstream : entry.header.streamId = k) :
    ∃ nowMs found, s = .turn ∧ c.phase = .feeding id nowMs ∧
      FeedDelivers backend c.transport context entry ∧
      feedEvent backend id nowMs c.call = (.ok (.sessionResult entry.header.sequenceNo
        (SessionManager.processEntry entry context.manager).1), found) := by
  have hnot := h.not_attached hregular hnew
  cases delivers_of_step hnew with
  | fed hphase hold hresult hdelivers hfind =>
    obtain rfl := Option.some.inj (hlookup.symm.trans hold)
    rw [hresult] at hfind
    exact ⟨_, _, rfl, hphase, hdelivers, hfind⟩
  | controlled _ _ _ haccepts =>
    have hattached := haccepts.attached
    rw [hstream] at hattached
    exact absurd hattached hnot

/-- A refusal that has room for its rejection ends the stream. -/
theorem ended_of_refused {nowMs : Option UInt64} {seq : UInt16} {error : SarError} {found : Call}
    (hphase : c.phase = .feeding id nowMs) (hroom : RoomToReject c.call)
    (hlookup : ∃ context, c.transport.streams.lookup id = some context)
    (hfind : feedEvent backend id nowMs c.call = (.ok (.sessionResult seq (.error error)), found)) :
    (c.step backend .turn).Ended id := by
  obtain ⟨context, hlookup⟩ := hlookup
  have hfound : RoomToReject found := by
    have hkept := @preserves_roomToReject_feedEvent id backend nowMs c.call hroom
    rwa [hfind] at hkept
  obtain ⟨event, found', context', hfind', htouched, -⟩ :=
    feedEvent_observed backend hlookup nowMs
  obtain ⟨-, rfl⟩ := Prod.mk.inj (hfind.symm.trans hfind')
  obtain ⟨after, rejected, hreject, htransport⟩ := @policyErrorActions_of_room id found hfound error
  have hturn : feedTurn backend id nowMs c.call = (.ok false, after) := by
    rw [feedTurn, bind_apply, hfind, andThen_ok, handleLoopEvent, bind_apply, hreject, andThen_ok,
      pure_apply]
  rw [Connection.step, turn_feeding hphase, hturn]
  refine ⟨?_, fun _ h => by cases h⟩
  change Terminal after.transport id
  rw [htransport, terminal_iff (lookup_markRejected htouched.lookup_self _)]
  exact isTerminal_rejectedState _

/-- **One step of a session**: nothing is added and the number stays, or the stream has ended, or
the next number is added and is the session's last one now, unless the session was closed. -/
theorem Counts.step (henabled : c.Enabled s) (hregular : c.Regular)
    (hkeeps : c.KeepsSequence backend id k s) (h : c.Counts id k last) :
    newlyAccepted backend id k c s = [] ∧
      ((c.step backend s).Counts id k last ∨ (c.step backend s).Ended id) ∨
    newlyAccepted backend id k c s = [last + 1] ∧
      ((c.step backend s).Counts id k (last + 1) ∨ c.Releases backend id k s) := by
  obtain ⟨context, session, hlookup, hsession, rfl⟩ := h
  obtain ⟨context', hlookup', hcases⟩ :=
    @step_sessions_cases backend c s id henabled context hlookup
  rcases hcases with ⟨hnot, hsessions⟩ | ⟨entry, hnew, hmanager⟩
  · refine Or.inl ⟨hkeeps.newlyAccepted_eq_nil hregular fun d hd hplace => ?_, Or.inl ?_⟩
    · exact absurd hplace (hnot d hd)
    · exact ⟨context', session, hlookup', hsessions ▸ hsession, rfl⟩
  · -- an entry was handed to the manager of the session's stream
    have hprocessed := SessionManager.processEntry_processed context.manager entry
    by_cases hstream : entry.header.streamId = k
    · obtain ⟨nowMs, found, rfl, hphase, hdelivers, hfind⟩ :=
        hkeeps.fed hregular hlookup hnew hstream
      obtain ⟨reader, parser, hstep, rfl⟩ := hdelivers.read
      obtain ⟨happly, hrefused⟩ := hkeeps.2 nowMs context reader parser hphase hlookup hstep hstream
      -- what the manager made of the entry decides
      rcases hprocess : SessionManager.processEntry ⟨reader.header, reader.payload, false⟩
        context.manager with ⟨result, manager⟩
      rw [hprocess] at hprocessed hnew hmanager hfind
      have houtcome := hprocessed.outcome
      rw [← hstream] at hsession happly
      have hcounts : ∀ {after : ActiveSession},
          manager.activeSessions.lookup reader.header.streamId = some after →
          (c.step backend .turn).Counts id k after.lastSequenceNo := by
        intro after hafter
        rw [hstream] at hafter
        exact ⟨context', after, hlookup', hmanager ▸ hafter, rfl⟩
      generalize hafter : AList.lookup reader.header.streamId _ = after at houtcome
      cases houtcome with
      | activated _ hnone => exact nomatch hnone.symm.trans hsession
      | inactive _ hinactive =>
        rcases hinactive with hno | hnone
        · exact absurd (happly.symm.trans hno) (Ne.symm Bool.false_ne_true)
        · exact nomatch hnone.symm.trans hsession
      | closed _ hsome hsequence =>
        obtain rfl := Option.some.inj (hsome.symm.trans hsession)
        refine Or.inr ⟨?_, Or.inr ⟨nowMs, _, found, hphase, hfind, _, _, _, by rw [hstream]⟩⟩
        rw [newlyAccepted_of_accepted hnew rfl hstream rfl, ← hsequence]
      | accepted hsome hsequence hadvanced =>
        obtain rfl := Option.some.inj (hsome.symm.trans hsession)
        refine Or.inr ⟨?_, Or.inl ?_⟩
        · rw [newlyAccepted_of_accepted hnew rfl hstream rfl, ← hsequence]
        · rw [← hsequence, ← hadvanced]
          exact hcounts hafter
      | refused _ =>
        refine Or.inl ⟨hkeeps.newlyAccepted_eq_nil hregular fun d hd _ _ => ?_, ?_⟩
        · obtain ⟨rfl, -⟩ := List.cons.inj ((append_right_inj _).mp (hd.symm.trans hnew))
          rfl
        · rcases hrefused _ manager hprocess with hsame | hroom
          · left
            rw [← hstream, hsession] at hsame
            obtain ⟨after, hsome, hlast⟩ := Option.map_eq_some_iff.mp hsame
            have hkept : after.lastSequenceNo = session.lastSequenceNo := hlast
            rw [← hkept]
            exact hcounts hsome
          · exact Or.inr (ended_of_refused hphase hroom ⟨context, hlookup⟩ hfind)
    · refine Or.inl ⟨hkeeps.newlyAccepted_eq_nil hregular fun d hd _ hk => ?_, Or.inl ?_⟩
      · obtain ⟨rfl, -⟩ := List.cons.inj ((append_right_inj _).mp (hd.symm.trans hnew))
        exact absurd hk hstream
      · refine ⟨context', session, hlookup', ?_, rfl⟩
        rw [hmanager, hprocessed.lookup_ne k (Ne.symm hstream), hsession]

/-- A stream that has ended adds nothing to its session. -/
theorem Ended.newlyAccepted_eq_nil (hregular : c.Regular) (hkeeps : c.KeepsSequence backend id k s)
    (h : c.Ended id) : newlyAccepted backend id k c s = [] := by
  refine hkeeps.newlyAccepted_eq_nil hregular fun d hd hplace hstream => ?_
  obtain ⟨i, entry, result⟩ := d
  obtain rfl : i = id := hplace
  obtain ⟨context, hlookup, -⟩ := h.terminal
  obtain ⟨nowMs, -, -, hphase, -⟩ := hkeeps.fed hregular hlookup hd hstream
  exact absurd hphase (h.resting nowMs)

/-- **The numbers of a whole run**, up to and including the step that ends the session. -/
theorem isChain_acceptedNumbers {steps : List Step}
    (hfollows : Follows backend (fun c s => c.KeepsSequence backend id k s ∧
      ¬ c.Releases backend id k s) c steps)
    (henabled : (c.after backend steps).Enabled s)
    (hkeeps : (c.after backend steps).KeepsSequence backend id k s) (hregular : c.Regular)
    (h : c.Counts id k last ∨ c.Ended id) :
    List.IsChain (fun a b => b = a + 1)
      (last :: acceptedNumbers backend id k c (steps ++ [s])) := by
  -- on the steps; each of them adds nothing or the next number
  induction steps generalizing c last with
  | nil =>
    change c.Enabled s at henabled
    change c.KeepsSequence backend id k s at hkeeps
    rw [nil_append, acceptedNumbers, acceptedNumbers, append_nil]
    rcases h with hcounts | hended
    · rcases hcounts.step henabled hregular hkeeps with ⟨hnone, -⟩ | ⟨hone, -⟩
      · rw [hnone]
        exact List.IsChain.singleton _
      · rw [hone]
        exact isChain_cons_cons.mpr ⟨rfl, List.IsChain.singleton _⟩
    · rw [hended.newlyAccepted_eq_nil hregular hkeeps]
      exact List.IsChain.singleton _
  | cons s' steps ih =>
    obtain ⟨henabled', ⟨hkeeps', hholds⟩, hrest⟩ := hfollows
    have hregular' : (c.step backend s').Regular := hregular.step c s' henabled'
    rw [cons_append, acceptedNumbers]
    rcases h with hcounts | hended
    · rcases hcounts.step henabled' hregular hkeeps' with ⟨hnone, hnext⟩ | ⟨hone, hnext⟩
      · rw [hnone, nil_append]
        exact ih hrest henabled hkeeps hregular' hnext
      · rw [hone, singleton_append]
        refine isChain_cons_cons.mpr ⟨rfl, ?_⟩
        exact ih hrest henabled hkeeps hregular' (Or.inl (hnext.resolve_right hholds))
    · rw [hended.newlyAccepted_eq_nil hregular hkeeps', nil_append]
      exact ih hrest henabled hkeeps hregular' (Or.inr (hended.step henabled'))

/-- The manager's session after an accepted `SESSION_INIT`. -/
theorem counts_of_init (henabled : c.Enabled s) {entry : SessionEntry} {result : ProcessResult}
    (hnew : (c.step backend s).deliveries = c.deliveries ++ [⟨id, entry, .ok result⟩])
    (hinit : entry.carries .init) (hactive : result ≠ SessionManager.inactiveResult entry true) :
    (c.step backend s).Counts id entry.header.streamId entry.header.sequenceNo := by
  obtain ⟨context, hlookup, hresult⟩ := (delivers_of_step hnew).answer
  obtain ⟨context', hlookup', ⟨hnot, -⟩ | ⟨entry', hone', hmanager⟩⟩ :=
    @step_sessions_cases backend c s id henabled context hlookup
  · exact absurd rfl (hnot _ hnew)
  · have hsame := (List.cons.inj ((append_right_inj _).mp (hnew.symm.trans hone'))).1
    obtain ⟨-, rfl, -⟩ := Delivery.mk.inj hsame
    have hanswer := @SessionManager.processEntry_of_init context.manager entry hinit
    rw [← hresult] at hanswer
    rcases hanswer with ⟨uuid, flags, heq⟩ | ⟨heq, -⟩ | ⟨e, heq⟩
    · obtain ⟨-, -, -, hnumber⟩ := SessionManager.processEntry_eq_activated (hresult.symm.trans heq)
      obtain ⟨session, hsession, hlast⟩ := Option.map_eq_some_iff.mp hnumber
      exact ⟨context', session, hlookup', hmanager ▸ hsession, hlast⟩
    · exact absurd (Except.ok.inj heq) hactive
    · exact nomatch heq

/-- **The entries accepted for a session carry consecutive numbers**, from its `SESSION_INIT` up to
the step that ends it, in every run that keeps to `KeepsSequence`. What a control stream accepts
takes effect on the session then, because a control stream is given nothing. -/
theorem sequenced_of_run {config : TransportConfig} {keyProvider : Option KeyProvider}
    (hreach : Run backend (fun _ _ => True)
      (initial (InMemoryTransport.new .quic config keyProvider)) c)
    (henabled : c.Enabled s) {entry : SessionEntry} {result : ProcessResult}
    (hnew : (c.step backend s).deliveries = c.deliveries ++ [⟨id, entry, .ok result⟩])
    (hinit : entry.carries .init) (hactive : result ≠ SessionManager.inactiveResult entry true)
    (steps : List Step) (s' : Step)
    (hfollows : Follows backend (fun c s => c.KeepsSequence backend id entry.header.streamId s ∧
      ¬ c.Releases backend id entry.header.streamId s) (c.step backend s) steps)
    (henabled' : ((c.step backend s).after backend steps).Enabled s')
    (hkeeps : ((c.step backend s).after backend steps).KeepsSequence backend id
      entry.header.streamId s') :
    List.IsChain (fun a b => b = a + 1) (entry.header.sequenceNo ::
      acceptedNumbers backend id entry.header.streamId (c.step backend s) (steps ++ [s'])) ∧
    let c' := (c.step backend s).after backend steps
    ∀ d, (c'.step backend s').deliveries = c'.deliveries ++ [d] →
      c'.transport.controlStreamAttachments.lookup d.transportStreamId =
        some entry.header.streamId →
      d.entry.carries .capabilities → d.result.toBool = true →
      ∃ frame, SessionCapabilitiesFrame.parse d.entry.payload = .ok frame ∧
        ((c'.step backend s').transport.streams.lookup id).map (·.peerCapabilities) =
          some frame.flags := by
  have hregular : c.Regular := hreach.invariant (P := Connection.Regular)
    (fun d s henabled _ h => h.step d s henabled) (regular_initial .quic config keyProvider)
  have hstart : (c.step backend s).Regular := hregular.step c s henabled
  have hcounts := counts_of_init henabled hnew hinit hactive
  refine ⟨isChain_acceptedNumbers hfollows henabled' hkeeps hstart (Or.inl hcounts), ?_⟩
  intro c' d hd hattached
  have hafter : c'.Regular := (run_after steps hfollows).invariant (P := Connection.Regular)
    (fun d s henabled _ h => h.step d s henabled) hstart
  exact absurd hattached (hkeeps.not_attached hafter hd)

/-! ### Example traffic -/

/-- The start of a call with a `SESSION_INIT`, a heartbeat and a `SESSION_CLOSE`. -/
def exampleSessionSteps : List Step :=
  [.start (.openStream 1), .start (.feed 1 (exampleHeader ++ exampleInit 1 ++
    exampleEntry 3 1 1 [] ++ exampleEntry 1 1 2 []) none), .turn]

/-- The connection before the `SESSION_INIT`. -/
def exampleSession : Connection :=
  (initial (InMemoryTransport.new .quic .default none)).after .plain exampleSessionSteps

/-- A turn of the feed loop on a stream under a Global Header without index, with room for a
rejection. -/
theorem keepsSequence_of_feeding (nowMs : Option UInt64) (hphase : c.phase = .feeding id nowMs)
    (happly : (c.transport.streams.lookup id).all (fun context =>
      SessionManager.shouldApplyStateful (context.manager.currentGlobalFlags.getD {}) k) = true)
    (hroom : RoomToReject c.call) : c.KeepsSequence backend id k .turn := by
  refine ⟨fun i now _ _ _ hcontrol => ?_, fun now context reader parser _ hlookup _ _ => ?_⟩
  · exact nomatch hphase.symm.trans hcontrol
  · rw [hlookup] at happly
    exact ⟨happly, fun _ _ _ => Or.inr hroom⟩

/-- The answer to an accepted `SESSION_INIT`. -/
def isActivation : Except SarError ProcessResult → Bool
  | .ok ⟨[.sessionActivated _ _ _], _⟩ => true
  | _ => false

/-- The heartbeat and the close are accepted with the numbers 1 and 2. -/
theorem sequenced_exampleSession :
    List.IsChain (fun a b => b = a + 1)
        (0 :: acceptedNumbers .plain 1 1 (exampleSession.step .plain .turn) [.turn, .turn]) ∧
      acceptedNumbers .plain 1 1 (exampleSession.step .plain .turn) [.turn, .turn] = [1, 2] := by
  obtain ⟨⟨i, entry, result⟩, hnew, hfacts⟩ := @exists_delivery .plain exampleSession .turn
    (fun d => d.transportStreamId == 1 && d.entry.header.entryMode.isSessionControl &&
      d.entry.header.entryMode.opCode == 0 && d.entry.header.streamId == 1 &&
      d.entry.header.sequenceNo == 0 && isActivation d.result)
    (by decide +kernel) (by decide +kernel)
  simp only [Bool.and_eq_true, beq_iff_eq] at hfacts
  obtain ⟨⟨⟨⟨⟨rfl, hcontrol⟩, hop⟩, hid⟩, hseq⟩, hresult⟩ := hfacts
  rcases result with e | result
  · exact absurd hresult Bool.false_ne_true
  have hactive : result ≠ SessionManager.inactiveResult entry true := by
    rintro rfl
    exact Bool.false_ne_true hresult
  have hreach : Run .plain (fun _ _ => True)
      (initial (InMemoryTransport.new .quic .default none)) exampleSession :=
    run_after exampleSessionSteps (by decide +kernel)
  have hkeeps : (exampleSession.step .plain .turn).KeepsSequence .plain 1 1 .turn :=
    keepsSequence_of_feeding none (by decide +kernel) (by decide +kernel)
      ⟨by decide +kernel, by decide +kernel, by decide +kernel⟩
  have hholds : ¬ (exampleSession.step .plain .turn).Releases .plain 1 1 .turn := by
    rintro ⟨nowMs, event, found, hphase, hfind, seq, uuid, actions, rfl⟩
    have hnone : (exampleSession.step .plain .turn).phase = .feeding 1 none := by decide +kernel
    obtain ⟨-, rfl⟩ := Phase.feeding.inj (hphase.symm.trans hnone)
    have hopen : closedId (feedEvent .plain 1 none (exampleSession.step .plain .turn).call).1 =
        none := by decide +kernel
    rw [hfind] at hopen
    exact nomatch hopen
  have hnext : ((exampleSession.step .plain .turn).after .plain [.turn]).KeepsSequence .plain 1 1
      .turn :=
    keepsSequence_of_feeding none (by decide +kernel) (by decide +kernel)
      ⟨by decide +kernel, by decide +kernel, by decide +kernel⟩
  have hchain := sequenced_of_run hreach (by decide +kernel) hnew ⟨hcontrol, by rw [hop]; rfl⟩
    hactive [.turn] .turn
    ⟨by decide +kernel, by rw [hid]; exact ⟨hkeeps, hholds⟩, trivial⟩ (by decide +kernel)
    (by rw [hid]; exact hnext)
  rw [hid, hseq] at hchain
  exact ⟨hchain.1, by decide +kernel⟩

/-- The start of a call with a `SESSION_INIT`, beside a second stream. -/
def exampleControlledSteps : List Step :=
  [.start (.openStream 1), .start (.openStream 2),
    .start (.feed 1 (exampleHeader ++ exampleInit 1) none), .turn]

/-- The connection before that `SESSION_INIT`. -/
def exampleControlled : Connection :=
  (initial (InMemoryTransport.new .quic .default none)).after .plain exampleControlledSteps

/-- The end of the call, and an acknowledgement with the number 77 on the second stream. -/
def exampleControlSteps : List Step :=
  [.turn, .start (.feed 2 (exampleEntry 5 1 77 [0, 0, 1]) none), .turn]

/-- The first number that is accepted after the `SESSION_INIT` with the number 0 is 77. -/
theorem not_sequenced_after_control :
    Run .plain (fun _ _ => True) (initial (InMemoryTransport.new .quic .default none))
        exampleControlled ∧
      ((exampleControlled.step .plain .turn).deliveries.getLast?.any fun d =>
        d.transportStreamId == 1 && d.entry.header.streamId == 1 &&
          d.entry.header.sequenceNo == 0 && d.result.toBool) = true ∧
      Follows .plain (fun _ _ => True) (exampleControlled.step .plain .turn) exampleControlSteps ∧
      acceptedNumbers .plain 1 1 (exampleControlled.step .plain .turn) exampleControlSteps = [77] ∧
      ¬ List.IsChain (fun a b => b = a + 1) (0 :: acceptedNumbers .plain 1 1
        (exampleControlled.step .plain .turn) exampleControlSteps) := by
  have hnumbers : acceptedNumbers .plain 1 1 (exampleControlled.step .plain .turn)
      exampleControlSteps = [77] := by decide +kernel
  refine ⟨run_after exampleControlledSteps (by decide +kernel), by decide +kernel,
    by decide +kernel, hnumbers, ?_⟩
  rw [hnumbers, isChain_cons_cons]
  exact fun hchain => absurd hchain.1 (by decide)

end Connection

end Sar
