import Sar.Transport.Regular

/-!
# Streams that have ended

`Closed`, `Reset` and `Rejected` are meant to be final. The loops do not always look at the state:
a rejection inside `process_session_result` returns to a loop that goes on stepping the parser,
and a control stream is served whatever its state is. `LetsRest` says when neither happens, and in
runs that meet it a stream that has ended stays so and delivers nothing.
-/

namespace Sar

open Stateful List

namespace InMemoryTransport

variable {id : TransportStreamId} {t t' : InMemoryTransport}

/-- The stream has ended. -/
def Terminal (t : InMemoryTransport) (id : TransportStreamId) : Prop :=
  ∃ context, t.streams.lookup id = some context ∧ context.state.isTerminal = true

theorem terminal_iff {context : TransportStreamContext}
    (h : t.streams.lookup id = some context) : Terminal t id ↔ context.state.isTerminal = true := by
  rw [Terminal, h]
  simp

theorem terminal_congr (h : t'.streams.lookup id = t.streams.lookup id) :
    Terminal t' id ↔ Terminal t id := by
  rw [Terminal, h, Terminal]

/-- A stream that has ended takes bytes as a control stream only. -/
theorem Terminal.routed_cases {bytes : Bytes} {before : Call} {r : Result Route × Call}
    (h : Terminal before.transport id) (hrouted : Routed id bytes before r) :
    (∃ e, r = (.error e, before)) ∨
    ∃ context sar, before.transport.streams.lookup id = some context ∧
      before.transport.controlStreamAttachments.lookup id = some sar ∧
      r = (.ok .control, setContext id
        { context with quicPendingBytes := context.quicPendingBytes ++ bytes } before) := by
  have hfresh : ∀ {context}, ¬ Fresh id before.transport context := by
    intro context hfresh
    rw [terminal_iff hfresh.lookup_eq, hfresh.state_eq] at h
    exact Bool.false_ne_true h
  cases hrouted with
  | failed error => exact Or.inl ⟨error, rfl⟩
  | pushed hlookup _ halive _ =>
    rw [terminal_iff hlookup, halive] at h
    exact absurd h Bool.false_ne_true
  | control hlookup hattached => exact Or.inr ⟨_, _, hlookup, hattached, rfl⟩
  | buffered h => exact absurd h hfresh
  | started h => exact absurd h hfresh
  | refused h => exact absurd h hfresh
  | attached h => exact absurd h hfresh

/-- A stream that has ended is not opened again. -/
theorem Terminal.opened {before after : Call} (h : Terminal before.transport id)
    (hopened : Opened id before after) : after = before := by
  cases hopened with
  | failed hafter => exact hafter
  | entered hnew =>
    obtain ⟨context, hcontext, -⟩ := h
    exact nomatch hnew.symm.trans hcontext

theorem Terminal.detached {before after : Call} {state : TransportStreamState}
    (h : Terminal before.transport id) (hdetached : Detached id state before after)
    (hstate : state.isTerminal = true) : Terminal after.transport id := by
  cases hdetached with
  | failed hafter => rwa [hafter]
  | detached _ htouched _ => exact (terminal_iff htouched.lookup_self).mpr hstate

/-- A turn of the control loop does not wake a stream that has ended. -/
theorem Terminal.controlled {backend : Backend} {nowMs : Option UInt64} {before after : Call}
    (h : Terminal before.transport id) (hturned : ControlTurned backend id nowMs before after) :
    Terminal after.transport id := by
  cases hturned with
  | missing hafter => rwa [hafter]
  | found _ hlookup htouched hkept hobserved hhandled =>
    have hstate := (terminal_iff hlookup).mp h
    rcases hobserved.handled_control hhandled with hquiet | ⟨rejected, -, htransport, -⟩
    · obtain ⟨peer, hpeer⟩ := hquiet.touched htouched.lookup_self
      rw [terminal_iff hpeer.lookup_self]
      rwa [← hkept.state_eq] at hstate
    · rw [htransport, terminal_iff (lookup_markRejected htouched.lookup_self _)]
      exact isTerminal_rejectedState _

/-- A turn of the feed loop on a stream that has ended, when the parser has nothing to report. -/
theorem feedTurn_terminal {backend : Backend} {nowMs : Option UInt64} {call : Call}
    {context : TransportStreamContext} (hlookup : call.transport.streams.lookup id = some context)
    (hterminal : context.state.isTerminal = true)
    (hrest : ∀ event, (StreamArchiveParser.step backend context.parser).1 ≠ .ok (.ready event)) :
    Terminal (feedTurn backend id nowMs call).2.transport id ∧
      (feedTurn backend id nowMs call).2.deliveries = call.deliveries := by
  rcases hstep : StreamArchiveParser.step backend context.parser with ⟨result, parser⟩
  have hset : Terminal (setContext id { context with parser := parser } call).transport id :=
    (terminal_iff (lookup_setContext _)).mpr hterminal
  rw [hstep] at hrest
  rw [feedTurn, bind_apply, feedEvent_of_some hlookup hstep]
  rcases result with error | (needed | event | _)
  · -- the parser fails, and the stream is rejected once more
    have hreject := (@policyErrorActions_outcome id
      (setContext id { context with parser := parser } call) error).maybeRejected
    change Terminal (andThen (policyErrorActions id error _) _).2.transport id ∧
      (andThen (policyErrorActions id error _) _).2.deliveries = _
    rw [andThen_pure_snd]
    cases hreject with
    | noted hnotes =>
      obtain ⟨⟨rejected, htransport⟩, hdeliveries⟩ := hnotes
      refine ⟨(terminal_congr ?_).mpr hset, hdeliveries⟩
      rw [htransport]
    | rejected htransport hdeliveries =>
      refine ⟨?_, hdeliveries⟩
      rw [htransport]
      exact (terminal_iff (lookup_markRejected (lookup_setContext _) _)).mpr
        (isTerminal_rejectedState call.transport.policy)
  · exact ⟨hset, rfl⟩
  · exact absurd rfl (hrest event)
  · exact ⟨hset, rfl⟩

/-- An event that keeps the binding rejects nothing. -/
theorem rejectsEvent_of_keepsBinding {event : SessionEvent} (h : event.keepsBinding) :
    t.rejectsEvent id event = false := by
  cases event with
  | sessionActivated | sessionClosed | statefulInactive => exact absurd h Bool.false_ne_true
  | sessionResumed | heartbeat | status | ack | metadataUpdated | filesystemAction
  | capabilitiesUpdated | warning => rfl

/-- A control stream is rejected for an error only. -/
theorem Observed.not_rejects_control {before after : Call}
    {context context' : TransportStreamContext} {seq : UInt16} {result : ProcessResult}
    (h : Observed id before after context context' (ControlAccepts t id)
      (.sessionResult seq (.ok result)))
    (hlookup : t'.streams.lookup id = some context')
    (hawaiting : context'.awaitingSessionInit = false) :
    t'.rejects id (.sessionResult seq (.ok result)) = false := by
  obtain ⟨entry, haccepts, -, -, hresult⟩ := h.exists_delivered rfl
  have hanswer := h.answer rfl
  rw [rejects]
  generalize hr : (Except.ok result : Except SarError ProcessResult) = r at hanswer
  cases hanswer with
  | activated =>
    rw [hr] at hresult
    obtain ⟨hinit, -⟩ := SessionManager.processEntry_eq_activated hresult.symm
    exact absurd hinit (haccepts.not_carries (Or.inl rfl))
  | closed =>
    obtain rfl := Except.ok.inj hr
    rfl
  | inactive =>
    obtain rfl := Except.ok.inj hr
    rw [ProcessResult.single, any_cons, rejectsEvent, hlookup, Option.any_some, hawaiting]
    rfl
  | accepted hevents =>
    obtain rfl := Except.ok.inj hr
    refine any_eq_false.mpr fun event hevent => ?_
    rw [rejectsEvent_of_keepsBinding (hevents event hevent)]
    exact Bool.false_ne_true
  | refused => contradiction

/-- A turn of the control loop that asks for another one leaves the stream alive. -/
theorem controlTurn_alive {backend : Backend} {nowMs : Option UInt64} {call after : Call}
    (hregular : Regular call.transport) (halive : ¬ Terminal call.transport id)
    (hturn : controlTurn backend id nowMs call = (.ok true, after)) :
    ¬ Terminal after.transport id := by
  obtain ⟨event, found, hevent, hhandle⟩ := andThen_eq_ok_iff.mp hturn
  rcases controlEvent_observed backend id call nowMs with ⟨e, hfailed⟩ |
    ⟨context, event', found', context', hlookup, hfind, htouched, hkept, hobserved⟩
  · exact nomatch hevent.symm.trans hfailed
  · obtain ⟨hev, rfl⟩ := Prod.mk.inj (hfind.symm.trans hevent)
    obtain rfl := Except.ok.inj hev
    have hawaiting : context'.awaitingSessionInit = false := by
      obtain ⟨sar, hattached⟩ := hkept.attached
      rw [hkept.awaiting_eq]
      exact hregular.waiting id sar context hattached hlookup
    have hfound : ¬ Terminal found'.transport id := by
      rw [terminal_iff htouched.lookup_self, hkept.state_eq, ← terminal_iff hlookup]
      exact halive
    have hhandled := handleLoopEvent_handled id found' fun _ _ h => hobserved.answer h
    rw [hhandle] at hhandled
    rcases hobserved.handled_control hhandled with hquiet | ⟨rejected, hrejects, -, -⟩
    · obtain ⟨peer, hpeer⟩ := hquiet.touched htouched.lookup_self
      rw [terminal_iff hpeer.lookup_self]
      rwa [terminal_iff htouched.lookup_self] at hfound
    · -- the loop goes on, so the event was an answer, and no answer rejects a control stream
      rcases handleLoopEvent_eq_true hhandle with rfl | ⟨seq, result, rfl⟩
      · exact nomatch hrejects
      · rw [hobserved.not_rejects_control htouched.lookup_self hawaiting] at hrejects
        exact absurd hrejects Bool.false_ne_true

end InMemoryTransport

/-! ### Runs -/

namespace Connection

open InMemoryTransport

variable {backend : Backend} {c c' : Connection} {s : Step}

/-- The step does not wake a stream that has ended: a turn of the feed loop on it finds nothing
to report in the parser's buffer, and it gets no bytes as a control stream. -/
def LetsRest (backend : Backend) (c : Connection) : Step → Prop
  | .start (.feed id _ _) => Terminal c.transport id →
    c.transport.controlStreamAttachments.lookup id = none
  | .start _ => True
  | .turn => ∀ id nowMs context, c.phase = .feeding id nowMs →
    c.transport.streams.lookup id = some context → context.state.isTerminal = true →
    ∀ event, (StreamArchiveParser.step backend context.parser).1 ≠ .ok (.ready event)

/-- A control loop works on a stream that has not ended. -/
def ControlsAlive (c : Connection) : Prop :=
  ∀ id nowMs, c.phase = .controlling id nowMs → ¬ Terminal c.transport id

theorem ControlsAlive.step (henabled : c.Enabled s) (hrest : c.LetsRest backend s)
    (hregular : c.Regular) (h : c.ControlsAlive) : (c.step backend s).ControlsAlive := by
  intro id nowMs hphase
  have hbusy : Phase.controlling id nowMs ≠ .idle := fun heq => nomatch heq
  obtain ⟨k, -, hstep⟩ := step_stepped backend henabled
  generalize c.step backend s = c' at hstep hphase ⊢
  cases hstep with
  | opened | closed | reset => exact nomatch hphase
  | @routed bytes now r hrouted =>
    obtain ⟨hroute, rfl⟩ := phaseOf_eq_controlling hphase
    change ¬ Terminal r.2.transport id
    cases hrouted with
    | failed | buffered | started => exact nomatch hroute
    | @pushed _ _ r =>
      rcases r with e | ⟨⟩ <;> exact nomatch hroute
    | @refused _ _ r =>
      rcases r with ⟨e | ⟨⟩, after⟩ <;> exact nomatch hroute
    | control hlookup hattached =>
      rw [terminal_iff (lookup_setContext _)]
      intro hterminal
      exact nomatch (hrest ((terminal_iff hlookup).mpr hterminal)).symm.trans hattached
    | attached _ _ _ _ _ htouched =>
      rw [terminal_iff htouched.lookup_self]
      exact Bool.false_ne_true
  | fed hbefore => exact nomatch hbefore.symm.trans (afterTurn_phase_eq hphase hbusy).1
  | controlled hbefore hrun =>
    obtain ⟨hsame, hturn⟩ := afterTurn_phase_eq hphase hbusy
    obtain ⟨rfl, rfl⟩ := Phase.controlling.inj (hbefore.symm.trans hsame)
    exact controlTurn_alive hregular.transport (h _ _ hbefore) (hrun.trans hturn)

/-- The step that works on a stream that has ended. -/
theorem Stepped.terminal {id : TransportStreamId} (h : Stepped backend c id s c')
    (hrest : c.LetsRest backend s) (hcontrol : c.ControlsAlive)
    (hterminal : Terminal c.transport id) :
    Terminal c'.transport id ∧ c'.deliveries = c.deliveries := by
  have hstart : Terminal (Call.mk c.transport [] []).transport id := hterminal
  have hnone : ∀ {call : Call}, call.deliveries = [] → c.deliveries ++ call.deliveries =
      c.deliveries := fun h => by rw [h, append_nil]
  cases h with
  | opened h =>
    obtain rfl := hstart.opened h
    exact ⟨hterminal, hnone rfl⟩
  | closed h => exact ⟨hstart.detached h rfl, hnone h.deliveries_eq⟩
  | reset h => exact ⟨hstart.detached h rfl, hnone h.deliveries_eq⟩
  | routed h =>
    rcases hstart.routed_cases h with ⟨e, rfl⟩ | ⟨_, _, -, hattached, -⟩
    · exact ⟨hterminal, hnone rfl⟩
    · exact nomatch (hrest hterminal).symm.trans hattached
  | @fed nowMs _ hphase hrun =>
    obtain ⟨context, hlookup, hstate⟩ := hterminal
    obtain ⟨hcall, hsame⟩ := @feedTurn_terminal id backend nowMs c.call context hlookup hstate
      (hrest id nowMs context hphase hlookup hstate)
    rw [hrun] at hcall hsame
    exact ⟨hcall, congrArg (c.history ++ ·) hsame⟩
  | controlled hphase => exact absurd hterminal (hcontrol id _ hphase)

/-- Nothing more is delivered on a stream. -/
def QuietSince (id : TransportStreamId) (before after : List Delivery) : Prop :=
  ∃ new, after = before ++ new ∧ ∀ d ∈ new, d.transportStreamId ≠ id

theorem QuietSince.trans {id : TransportStreamId} {a b d : List Delivery}
    (h : QuietSince id a b) (h' : QuietSince id b d) : QuietSince id a d := by
  obtain ⟨new, rfl, hnew⟩ := h
  obtain ⟨new', rfl, hnew'⟩ := h'
  refine ⟨new ++ new', append_assoc _ _ _, fun x hx => ?_⟩
  exact (mem_append.mp hx).elim (hnew x) (hnew' x)

theorem terminal_step {id : TransportStreamId} (henabled : c.Enabled s)
    (hrest : c.LetsRest backend s) (hcontrol : c.ControlsAlive)
    (hterminal : Terminal c.transport id) :
    Terminal (c.step backend s).transport id ∧
      QuietSince id c.deliveries (c.step backend s).deliveries := by
  obtain ⟨k, -, hstep⟩ := step_stepped backend henabled
  by_cases hk : id = k
  · subst hk
    obtain ⟨hstill, hsame⟩ := hstep.terminal hrest hcontrol hterminal
    exact ⟨hstill, [], hsame.trans (append_nil _).symm, fun _ hd => nomatch hd⟩
  · refine ⟨(terminal_congr (hstep.framed.lookup_ne id hk)).mpr hterminal, ?_⟩
    rcases hstep.deliveries_cases with hsame | ⟨d, hnew, hown, -⟩
    · exact ⟨[], hsame.trans (append_nil _).symm, fun _ hd => nomatch hd⟩
    · refine ⟨[d], hnew, fun d' hd' hid => hk ?_⟩
      rw [← hid, mem_singleton.mp hd', hown]

/-- **Streams that have ended stay so**, in every run whose steps let them rest: the state stays
terminal, no entry of the stream is handed to a manager, and feeding it fails without effect. -/
theorem terminal_of_run (backend : Backend) (policy : PolicyMode) (config : TransportConfig)
    (keyProvider : Option KeyProvider) {id : TransportStreamId}
    (hreach : Run backend (LetsRest backend)
      (initial (InMemoryTransport.new policy config keyProvider)) c)
    (hterminal : Terminal c.transport id) (hrun : Run backend (LetsRest backend) c c') :
    Terminal c'.transport id ∧ QuietSince id c.deliveries c'.deliveries ∧
      ∀ bytes nowMs, c'.LetsRest backend (.start (.feed id bytes nowMs)) →
        ∃ e, feedBytes backend id bytes nowMs c'.transport = (.error e, c'.transport) := by
  obtain ⟨hregular, hcontrol⟩ := hreach.invariant (P := fun c => c.Regular ∧ c.ControlsAlive)
    (fun c s henabled hrest h => ⟨h.1.step c s henabled, h.2.step henabled hrest h.1⟩)
    ⟨regular_initial policy config keyProvider, fun _ _ hphase => nomatch hphase⟩
  have hkept : (c'.Regular ∧ c'.ControlsAlive) ∧ Terminal c'.transport id ∧
      QuietSince id c.deliveries c'.deliveries := by
    refine hrun.invariant (P := fun c' => (c'.Regular ∧ c'.ControlsAlive) ∧
      Terminal c'.transport id ∧ QuietSince id c.deliveries c'.deliveries) ?_
      ⟨⟨hregular, hcontrol⟩, hterminal, [], (append_nil _).symm, fun _ hd => nomatch hd⟩
    rintro d s henabled hrest ⟨⟨hregular, hcontrol⟩, hterminal, hquiet⟩
    obtain ⟨hstill, hnew⟩ := terminal_step henabled hrest hcontrol hterminal
    exact ⟨⟨hregular.step d s henabled, hcontrol.step henabled hrest hregular⟩, hstill,
      hquiet.trans hnew⟩
  obtain ⟨-, hstill, hquiet⟩ := hkept
  refine ⟨hstill, hquiet, fun bytes nowMs hrest => ?_⟩
  have hcall : Terminal (Call.transport ⟨c'.transport, [], []⟩) id := hstill
  rcases hcall.routed_cases (route_routed id bytes _) with
    ⟨e, hroute⟩ | ⟨_, _, -, hattached, -⟩
  · refine ⟨e, ?_⟩
    rw [feedBytes, runCall, feedBody, bind_apply, hroute]
    rfl
  · cases (hrest hstill).symm.trans hattached

/-- A stream that is closed and fed again. -/
theorem terminal_after_close :
    let start := initial (InMemoryTransport.new .tcp .default none)
    let c := start.after .plain [.start (.openStream 1), .start (.close 1)]
    let c' := c.after .plain [.start (.feed 1 exampleHeader none)]
    Terminal c.transport 1 ∧ Terminal c'.transport 1 ∧ QuietSince 1 c.deliveries c'.deliveries := by
  have hterminal : Terminal ((initial (InMemoryTransport.new .tcp .default none)).after .plain
      [.start (.openStream 1), .start (.close 1)]).transport 1 := ⟨_, rfl, rfl⟩
  obtain ⟨hstill, hquiet, -⟩ := terminal_of_run .plain .tcp .default none
    (run_after [.start (.openStream 1), .start (.close 1)]
      ⟨rfl, trivial, rfl, trivial, trivial⟩) hterminal
    (run_after [.start (.feed 1 exampleHeader none)] ⟨rfl, fun _ => rfl, trivial⟩)
  exact ⟨hterminal, hstill, hquiet⟩

/-- The start of a stream whose first entry is not a `SESSION_INIT`. -/
def exampleRejection : List Step :=
  [.start (.openStream 1),
    .start (.feed 1 (exampleHeader ++ exampleEntry 3 1 0 [] ++ exampleInit 1) none), .turn, .turn]

/-- The stream is rejected for the first entry, and in the same call the next entry is handed to
the manager and makes the stream active again. -/
theorem not_terminal_after_rejection :
    ∃ c c', Run .plain (fun _ _ => True)
        (initial (InMemoryTransport.new .tcp .default none)) c ∧
      Terminal c.transport 1 ∧ Run .plain (fun _ _ => True) c c' ∧ ¬ Terminal c'.transport 1 := by
  let start := initial (InMemoryTransport.new .tcp .default none)
  have hstate : ∀ (c : Connection) (state : TransportStreamState),
      (c.transport.streams.lookup 1).map (·.state) = some state →
      (Terminal c.transport 1 ↔ state.isTerminal = true) := by
    intro c state h
    obtain ⟨context, hcontext, rfl⟩ := Option.map_eq_some_iff.mp h
    exact terminal_iff hcontext
  have hrejected := hstate (start.after .plain exampleRejection) .rejected (by decide +kernel)
  have hactive := hstate ((start.after .plain exampleRejection).after .plain [.turn]) .active
    (by decide +kernel)
  refine ⟨start.after .plain exampleRejection,
    (start.after .plain exampleRejection).after .plain [.turn], run_after _ (by decide +kernel),
    hrejected.mpr rfl, run_after _ (by decide +kernel), ?_⟩
  rw [hactive]
  exact Bool.false_ne_true

end Connection

end Sar
