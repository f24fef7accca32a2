import Sar.Stream.SessionFrames
import Sar.Transport.InMemory

/-!
# What the transport's methods can do

One lemma for each method says what it can change, when it succeeds and when it fails. A rejection
touches the state of one transport stream and the set of rejected ids; an activation and a close
touch the tables of one SAR stream id. The invariants are derived from these lemmas.
-/

namespace Sar

open Except (rejectIf okOr ok.inj)
open Stateful

namespace InMemoryTransport

variable {id : TransportStreamId} {call : Call}

/-! ### Reading and writing the state -/

@[simp] theorem transport_apply : transport call = (.ok call.transport, call) := rfl

theorem transport_bind {α : Type} (f : InMemoryTransport → CallM α) :
    (transport >>= f) call = f call.transport call := rfl

@[simp] theorem modifyTransport_apply (f : InMemoryTransport → InMemoryTransport) :
    modifyTransport f call = (.ok (), { call with transport := f call.transport }) := rfl

@[simp] theorem modifyContext_apply (f : TransportStreamContext → TransportStreamContext) :
    modifyContext id f call =
      (.ok (), { call with
        transport := { call.transport with streams := call.transport.streams.modify id f } }) :=
  rfl

theorem context_of_some {context : TransportStreamContext}
    (h : call.transport.streams.lookup id = some context) :
    InMemoryTransport.context id call = (.ok context, call) := by
  simp only [InMemoryTransport.context, bind_apply, transport_apply, andThen_ok, lift_apply, h,
    Except.okOr_some]

theorem context_of_none (h : call.transport.streams.lookup id = none) :
    InMemoryTransport.context id call = (.error (.notFound "unknown transport stream"), call) := by
  simp only [InMemoryTransport.context, bind_apply, transport_apply, andThen_ok, lift_apply, h,
    Except.okOr_none]

/-! ### Rejections -/

/-- The state a rejected stream is left in. -/
def rejectedState : PolicyMode → TransportStreamState
  | .tcp => .rejected
  | .quic => .reset

theorem isTerminal_rejectedState (policy : PolicyMode) : (rejectedState policy).isTerminal := by
  cases policy <;> rfl

/-- The transport after a rejection: the stream's state and the rejected ids. -/
def markRejected (id : TransportStreamId) (rejected : Finset UInt16) (self : InMemoryTransport) :
    InMemoryTransport :=
  { self with
    rejectedSarStreamIds := rejected
    streams := self.streams.modify id fun context =>
      { context with state := rejectedState self.policy } }

/-- A part of a rejection that only adds actions and remembers ids. -/
structure Notes (before after : Call) : Prop where
  transport_eq : ∃ rejected,
    after.transport = { before.transport with rejectedSarStreamIds := rejected }
  deliveries_eq : after.deliveries = before.deliveries

theorem Notes.refl (call : Call) : Notes call call := ⟨⟨_, rfl⟩, rfl⟩

theorem Notes.trans {a b c : Call} (h : Notes a b) (h' : Notes b c) : Notes a c := by
  obtain ⟨⟨r, hr⟩, hd⟩ := h
  obtain ⟨⟨r', hr'⟩, hd'⟩ := h'
  refine ⟨⟨r', ?_⟩, hd'.trans hd⟩
  rw [hr', hr]

theorem preserves_notes_pushAction (before : Call) (action : TransportAction) :
    Preserves (Notes before) (pushAction action) := by
  refine Preserves.current_bind fun c _ => Preserves.bind (Preserves.lift _) fun _ =>
    Preserves.update fun c' hc' => ?_
  exact hc'.trans ⟨⟨_, rfl⟩, rfl⟩

theorem preserves_notes_checkStatusAckActions (before : Call) :
    Preserves (Notes before) checkStatusAckActions :=
  Preserves.current_bind fun _ _ => Preserves.lift _

theorem preserves_notes_maybeEmitStatusAction (before : Call) (sar : UInt16) (status : SarStatus)
    (seq : UInt16) (message : String) :
    Preserves (Notes before) (maybeEmitStatusAction sar status seq message) := by
  intro c hc
  rw [maybeEmitStatusAction, transport_bind]
  split
  · exact hc
  · exact (preserves_notes_checkStatusAckActions before).bind
      (fun _ => preserves_notes_pushAction before _) hc

theorem preserves_notes_rememberRejected (before : Call) (sar : Option UInt16) :
    Preserves (Notes before) (rememberRejected sar) := by
  cases sar with
  | none => exact Preserves.pure ()
  | some sar =>
    intro c hc
    rw [rememberRejected, transport_bind]
    refine Preserves.bind (Preserves.lift _) (fun _ => ?_) hc
    exact Preserves.update fun c' hc' => hc'.trans ⟨⟨_, rfl⟩, rfl⟩

theorem preserves_notes_announceRejected (before : Call) (sar : Option UInt16) (status : SarStatus)
    (seq : UInt16) : Preserves (Notes before) (announceRejected sar status seq) := by
  cases sar with
  | none => exact Preserves.pure ()
  | some sar => exact preserves_notes_maybeEmitStatusAction before sar status seq _

/-- The outcome of a rejection: the stream is terminal, or the rejection itself failed. -/
inductive RejectOutcome (id : TransportStreamId) (before : Call) : Result Unit × Call → Prop where
  | done {after : Call} {rejected : Finset UInt16}
      (htransport : after.transport = markRejected id rejected before.transport)
      (hdeliveries : after.deliveries = before.deliveries) :
      RejectOutcome id before (.ok (), after)
  | failed {error : SarError} {after : Call} (hnotes : Notes before after) :
      RejectOutcome id before (.error error, after)

/-- Notes come first; the state changes when none of them fails. -/
theorem RejectOutcome.of_bind {before c : Call} {x : CallM Unit} {f : Unit → CallM Unit}
    (hx : Preserves (Notes before) x) (hc : Notes before c)
    (h : ∀ c', Notes before c' → RejectOutcome id before (f () c')) :
    RejectOutcome id before ((x >>= f : CallM Unit) c) := by
  have hleft := hx hc
  rw [bind_apply]
  rcases hrun : x c with ⟨e | ⟨⟩, c'⟩ <;> rw [hrun] at hleft
  · exact .failed hleft
  · exact h c' hleft

theorem Notes.policy_eq {before after : Call} (h : Notes before after) :
    after.transport.policy = before.transport.policy := by
  obtain ⟨⟨rejected, htransport⟩, -⟩ := h
  rw [htransport]

/-- The last part of a rejection, after some notes were made. -/
theorem endRejected_outcome {before c : Call} (hc : Notes before c) (status : SarStatus) :
    RejectOutcome id before (endRejected id status before.transport.policy c) := by
  have hmark : ∀ c', Notes before c' → RejectOutcome id before
      (modifyContext id (fun context =>
        { context with state := rejectedState before.transport.policy }) c') := by
    rintro c' ⟨⟨rejected, htransport⟩, hdeliveries⟩
    rw [modifyContext_apply]
    refine @RejectOutcome.done id before _ rejected ?_ hdeliveries
    rw [htransport]
    rfl
  have hpush := preserves_notes_pushAction before
  cases hpolicy : before.transport.policy with
  | tcp =>
    rw [hpolicy] at hmark
    exact .of_bind (hpush _) hc fun c₁ h₁ => .of_bind (hpush _) h₁ fun c₂ h₂ => hmark c₂ h₂
  | quic =>
    rw [hpolicy] at hmark
    exact .of_bind (hpush _) hc fun c₁ h₁ => hmark c₁ h₁

/-- `reject_stream_with_policy`. -/
theorem rejectStreamWithPolicy_outcome (sar : Option UInt16) (error : SarError) (seq : UInt16) :
    RejectOutcome id call (rejectStreamWithPolicy id sar error seq call) := by
  refine .of_bind (preserves_notes_rememberRejected call sar) (Notes.refl call) fun c₁ h₁ => ?_
  refine .of_bind (preserves_notes_pushAction call _) h₁ fun c₂ h₂ => ?_
  -- the status is read off the actions, and the policy is still the one of the start
  refine .of_bind (preserves_notes_announceRejected call sar _ seq) h₂ fun c₃ h₃ => ?_
  have hend := @endRejected_outcome id call c₃ h₃ (lastRejectStatus c₂.actions)
  rwa [← h₂.policy_eq] at hend

/-- `policy_error_actions`. -/
theorem policyErrorActions_outcome (error : SarError) :
    RejectOutcome id call (policyErrorActions id error call) :=
  rejectStreamWithPolicy_outcome _ error 0

/-! ### Session results -/

theorem preserves_notes_processAction (before : Call) (action : SessionAction) :
    Preserves (Notes before) (processAction id action) := by
  obtain ⟨streamId, frame⟩ := action
  intro c hc
  rw [processAction, transport_bind]
  split
  · exact (preserves_notes_checkStatusAckActions before).bind
      (fun _ => preserves_notes_pushAction before _) hc
  · exact hc

/-- The transport after an accepted activation. -/
def activated (id : TransportStreamId) (streamId : UInt16) (sessionUuid : Octets 16)
    (self : InMemoryTransport) : InMemoryTransport :=
  let self := bindSarStream id streamId sessionUuid self
  { self with
    streams := self.streams.modify id fun context =>
      { context with
        state := .active, boundSarStreamId := some streamId, awaitingSessionInit := false } }

/-- The transport after an accepted `SESSION_CLOSE`, with the state the stream is left in. -/
def deactivated (id : TransportStreamId) (streamId : UInt16) (state : TransportStreamState)
    (self : InMemoryTransport) : InMemoryTransport :=
  let self := unbindSarStream streamId self
  { self with
    streams := self.streams.modify id fun context =>
      { context with boundSarStreamId := none, state := state } }

/-- What an activation does: it is refused, or the tables get the id. -/
inductive ActivationOutcome (id : TransportStreamId) (streamId : UInt16) (sessionUuid : Octets 16)
    (flags : SessionFlags) (before : Call) : Result Unit × Call → Prop where
  | refused {error : SarError} {r : Result Unit × Call}
      (hrefusal : before.transport.activationRefusal streamId flags = some error)
      (hreject : RejectOutcome id before r) :
      ActivationOutcome id streamId sessionUuid flags before r
  | bound {r : Result Unit} {after : Call}
      (haccept : before.transport.activationRefusal streamId flags = none)
      (htransport : after.transport = activated id streamId sessionUuid before.transport)
      (hdeliveries : after.deliveries = before.deliveries) :
      ActivationOutcome id streamId sessionUuid flags before (r, after)

/-- `pushAction` leaves the transport alone. -/
theorem pushAction_snd (action : TransportAction) :
    (pushAction action call).2.transport = call.transport ∧
      (pushAction action call).2.deliveries = call.deliveries := by
  rw [pushAction, current_bind, bind_apply, lift_apply]
  rcases rejectIf (call.actions.length ≥ call.transport.config.maxPendingActions)
    (SarError.limitExceeded "transport pending action limit exceeded") with e | ⟨⟩
  · exact ⟨rfl, rfl⟩
  · exact ⟨rfl, rfl⟩

/-- A result that is one event. -/
theorem processSessionResult_single (event : SessionEvent) (seq : UInt16) :
    processSessionResult id (.single event) seq call =
      andThen (processEvent id seq none event call) (finishClosing id) := by
  change andThen (andThen (processEvent id seq none event call) fun closing => pure closing)
    (finishClosing id) = _
  rcases processEvent id seq none event call with ⟨e | closing, c⟩ <;> rfl

/-- Nothing is left to do after an event that was rejected. -/
theorem RejectOutcome.closing {r : Result Unit × Call} (h : RejectOutcome id call r) :
    RejectOutcome id call (andThen (andThen r fun _ => pure none) (finishClosing id)) := by
  obtain ⟨e | ⟨⟩, c⟩ := r <;> exact h

/-- A result that is one activation. -/
theorem processSessionResult_activated (streamId : UInt16) (sessionUuid : Octets 16)
    (flags : SessionFlags) (seq : UInt16) :
    ActivationOutcome id streamId sessionUuid flags call
      (processSessionResult id (.single (.sessionActivated streamId sessionUuid flags)) seq
        call) := by
  rw [processSessionResult_single]
  cases hrefusal : call.transport.activationRefusal streamId flags with
  | some error =>
    have hevent : processEvent id seq none (.sessionActivated streamId sessionUuid flags) call =
        andThen (rejectStreamWithPolicy id (some streamId) error seq call)
          (fun _ => pure none) := by
      rw [processEvent, transport_bind, hrefusal]
      rfl
    rw [hevent]
    exact .refused hrefusal (rejectStreamWithPolicy_outcome (some streamId) error seq).closing
  | none =>
    have hevent : processEvent id seq none (.sessionActivated streamId sessionUuid flags) call =
        andThen (pushAction (.bindSarStream id streamId sessionUuid)
          { call with transport := activated id streamId sessionUuid call.transport })
          (fun _ => pure none) := by
      rw [processEvent, transport_bind, hrefusal]
      rfl
    rw [hevent]
    have hpush := @pushAction_snd
      { call with transport := activated id streamId sessionUuid call.transport }
      (.bindSarStream id streamId sessionUuid)
    rcases hrun : pushAction (.bindSarStream id streamId sessionUuid)
        { call with transport := activated id streamId sessionUuid call.transport } with
      ⟨e | ⟨⟩, c⟩ <;> rw [hrun] at hpush
    · exact .bound hrefusal hpush.1 hpush.2
    · exact .bound hrefusal hpush.1 hpush.2

/-- What an accepted `SESSION_CLOSE` does. Its acknowledgement comes first, so a full action list
can end the call before the tables are touched. -/
inductive CloseOutcome (id : TransportStreamId) (streamId : UInt16) (before : Call) :
    Result Unit × Call → Prop where
  | unacknowledged {error : SarError} {after : Call} (hnotes : Notes before after) :
      CloseOutcome id streamId before (.error error, after)
  | unannounced {error : SarError} {after : Call}
      (htransport : ∃ rejected, after.transport =
        deactivated id streamId .closing
          { before.transport with rejectedSarStreamIds := rejected })
      (hdeliveries : after.deliveries = before.deliveries) :
      CloseOutcome id streamId before (.error error, after)
  | done {after : Call}
      (htransport : ∃ rejected, after.transport =
        deactivated id streamId .awaitingGlobalHeader
          { before.transport with rejectedSarStreamIds := rejected })
      (hdeliveries : after.deliveries = before.deliveries) :
      CloseOutcome id streamId before (.ok (), after)

theorem processSessionResult_closed (streamId : UInt16) (sessionUuid : Octets 16)
    (actions : List SessionAction) (seq : UInt16) :
    CloseOutcome id streamId call
      (processSessionResult id ⟨[.sessionClosed streamId sessionUuid], actions⟩ seq call) := by
  have hacks := Preserves.forM (@preserves_notes_processAction id call) actions (Notes.refl call)
  rw [processSessionResult, bind_apply]
  rcases hrun : (actions.forM (processAction id) : CallM Unit) call with ⟨e | ⟨⟩, c⟩ <;>
    rw [hrun] at hacks
  · exact .unacknowledged hacks
  · obtain ⟨⟨rejected, htransport⟩, hdeliveries⟩ := hacks
    -- the tables are cleared, the close is announced, and the stream waits for a header again
    have hcleared : ∃ d : Call,
        d.transport = deactivated id streamId .closing c.transport ∧
        d.deliveries = c.deliveries ∧
        andThen ((Except.ok (), c) : Result Unit × Call)
          (fun _ => ([SessionEvent.sessionClosed streamId sessionUuid].foldlM
            (processEvent id seq) none >>= finishClosing id : CallM Unit)) =
          andThen (pushAction (.streamClosed id (some streamId)) d) fun _ =>
            modifyContext id fun context => { context with state := .awaitingGlobalHeader } :=
      ⟨{ c with transport := deactivated id streamId .closing c.transport }, rfl, rfl, rfl⟩
    obtain ⟨d, hd, hdd, heq⟩ := hcleared
    rw [heq]
    have hpush := @pushAction_snd d (.streamClosed id (some streamId))
    rcases hrun' : pushAction (.streamClosed id (some streamId)) d with ⟨e | ⟨⟩, c'⟩ <;>
      rw [hrun'] at hpush
    · refine .unannounced ⟨rejected, ?_⟩ ?_
      · rw [hpush.1, hd, htransport]
      · rw [hpush.2, hdd, hdeliveries]
    · have hclosing : c'.transport = deactivated id streamId .closing
          { call.transport with rejectedSarStreamIds := rejected } := by
        rw [← show c.transport = _ from htransport, ← hd]
        exact hpush.1
      refine .done ⟨rejected, ?_⟩ ((hpush.2.trans hdd).trans hdeliveries)
      dsimp only
      rw [hclosing]
      simp only [deactivated, Table.modify_modify, Function.comp_def]

/-- A result that says the session semantics is inactive: the stream is rejected when it still
owes its `SESSION_INIT`, and nothing happens otherwise. -/
theorem processSessionResult_inactive (streamId : UInt16) (opCode : UInt8) (sessionControl : Bool)
    (seq : UInt16) :
    (∃ context, call.transport.streams.lookup id = some context ∧ context.awaitingSessionInit ∧
      RejectOutcome id call
        (processSessionResult id (.single (.statefulInactive streamId opCode sessionControl)) seq
          call)) ∨
    processSessionResult id (.single (.statefulInactive streamId opCode sessionControl)) seq call =
      (.ok (), call) := by
  by_cases hawait : (call.transport.streams.lookup id).any (·.awaitingSessionInit) = true
  · left
    obtain ⟨context, hcontext, hflag⟩ : ∃ context,
        call.transport.streams.lookup id = some context ∧ context.awaitingSessionInit := by
      cases hlookup : call.transport.streams.lookup id with
      | none => simp [hlookup] at hawait
      | some context => exact ⟨context, rfl, by simpa [hlookup] using hawait⟩
    refine ⟨context, hcontext, hflag, ?_⟩
    have hevent : processEvent id seq none (.statefulInactive streamId opCode sessionControl) call =
        andThen (rejectStreamWithPolicy id (some streamId)
          (.streamState "global header not followed by valid SESSION_INIT") seq call)
          (fun _ => pure none) := by
      rw [processEvent, transport_bind, if_pos hawait]
      rfl
    rw [processSessionResult_single, hevent]
    exact (rejectStreamWithPolicy_outcome (some streamId) _ seq).closing
  · right
    have hevent : processEvent id seq none (.statefulInactive streamId opCode sessionControl) call =
        (.ok none, call) := by
      rw [processEvent, transport_bind, if_neg hawait]
      rfl
    rw [processSessionResult_single, hevent]
    rfl

/-- A context without what the peer announced. -/
def TransportStreamContext.unannounced (context : TransportStreamContext) :
    TransportStreamContext :=
  { context with peerCapabilities := .none }

/-- A change that touches no table and, of the contexts, only what one peer announced. -/
structure Quietly (id : TransportStreamId) (before after : Call) : Prop where
  transport_eq : ∃ rejected streams, after.transport =
    { before.transport with rejectedSarStreamIds := rejected, streams := streams }
  lookup_ne : ∀ k, k ≠ id →
    after.transport.streams.lookup k = before.transport.streams.lookup k
  lookup_self : (after.transport.streams.lookup id).map TransportStreamContext.unannounced =
    (before.transport.streams.lookup id).map TransportStreamContext.unannounced
  deliveries_eq : after.deliveries = before.deliveries

theorem Quietly.refl (call : Call) : Quietly id call call :=
  ⟨⟨_, _, rfl⟩, fun _ _ => rfl, rfl, rfl⟩

theorem Quietly.trans {a b c : Call} (h : Quietly id a b) (h' : Quietly id b c) :
    Quietly id a c := by
  obtain ⟨r, streams, hr⟩ := h.transport_eq
  obtain ⟨r', streams', hr'⟩ := h'.transport_eq
  refine ⟨⟨r', streams', by rw [hr', hr]⟩, fun k hk => ?_, ?_, ?_⟩
  · exact (h'.lookup_ne k hk).trans (h.lookup_ne k hk)
  · exact h'.lookup_self.trans h.lookup_self
  · exact h'.deliveries_eq.trans h.deliveries_eq

theorem Notes.quietly {before after : Call} (h : Notes before after) : Quietly id before after := by
  obtain ⟨⟨rejected, htransport⟩, hdeliveries⟩ := h
  have hstreams : after.transport.streams = before.transport.streams := by rw [htransport]
  refine ⟨⟨rejected, _, htransport⟩, fun _ _ => by rw [hstreams], by rw [hstreams], hdeliveries⟩

/-- One event that keeps the binding. -/
theorem processEvent_quietly (id : TransportStreamId) (call : Call) {event : SessionEvent}
    (hevent : event.keepsBinding) (seq : UInt16) (closing : Option UInt16) :
    Quietly id call (processEvent id seq closing event call).2 ∧
      ∀ closing', (processEvent id seq closing event call).1 = .ok closing' →
        closing' = closing := by
  have hpure : Quietly id call ((pure closing : CallM (Option UInt16)) call).2 ∧
      ∀ closing', ((pure closing : CallM (Option UInt16)) call).1 = .ok closing' →
        closing' = closing :=
    ⟨Quietly.refl call, fun closing' h => (ok.inj h).symm⟩
  cases event with
  | sessionActivated | sessionClosed | statefulInactive => exact absurd hevent Bool.false_ne_true
  | sessionResumed | heartbeat | status | ack | metadataUpdated | filesystemAction => exact hpure
  | capabilitiesUpdated streamId frame =>
    refine ⟨⟨⟨_, _, rfl⟩, fun k hk => ?_, ?_, rfl⟩, fun closing' h => (ok.inj h).symm⟩
    · exact (Table.lookup_modify_eq id k _ _).trans (if_neg hk)
    · have hlookup := Table.lookup_modify_eq id id
        (fun context : TransportStreamContext =>
          { context with peerCapabilities := frame.flags }) call.transport.streams
      rw [if_pos rfl] at hlookup
      refine (congrArg (Option.map TransportStreamContext.unannounced) hlookup).trans ?_
      rw [Option.map_map]
      rfl
  | warning streamId status message =>
    have hpush := preserves_notes_pushAction call (.warning status) (Notes.refl call)
    change Quietly id call (andThen (pushAction (.warning status) call) _).2 ∧ _
    rcases hrun : pushAction (.warning status) call with ⟨e | ⟨⟩, c⟩ <;> rw [hrun] at hpush
    · refine ⟨hpush.quietly, fun closing' h => ?_⟩
      change (andThen (pushAction (.warning status) call) _).1 = _ at h
      rw [hrun] at h
      exact nomatch h
    · refine ⟨hpush.quietly, fun closing' h => ?_⟩
      change (andThen (pushAction (.warning status) call) _).1 = _ at h
      rw [hrun] at h
      exact (ok.inj h).symm

/-- Any number of events that keep the binding. -/
theorem processEvents_quietly (id : TransportStreamId) {events : List SessionEvent}
    (hevents : ∀ event ∈ events, event.keepsBinding) (seq : UInt16) (closing : Option UInt16)
    (call : Call) :
    Quietly id call ((events.foldlM (processEvent id seq) closing : CallM _) call).2 ∧
      ∀ closing', ((events.foldlM (processEvent id seq) closing : CallM _) call).1 = .ok closing' →
        closing' = closing := by
  -- on the events, each of which hands the pending close on unchanged
  induction events generalizing closing call with
  | nil => exact ⟨Quietly.refl call, fun closing' h => (ok.inj h).symm⟩
  | cons event events ih =>
    have hhead := processEvent_quietly id call (hevents event List.mem_cons_self) seq closing
    have htail : ∀ e ∈ events, e.keepsBinding := fun e he =>
      hevents e (List.mem_cons_of_mem _ he)
    rw [List.foldlM_cons, bind_apply]
    rcases hrun : processEvent id seq closing event call with ⟨e | closing₁, c⟩ <;>
      rw [hrun] at hhead
    · exact ⟨hhead.1, fun closing' h => nomatch h⟩
    · obtain rfl := hhead.2 closing₁ rfl
      obtain ⟨hquiet, hclosing⟩ := ih htail closing₁ c
      exact ⟨hhead.1.trans hquiet, hclosing⟩

/-- A result whose events keep the binding. -/
theorem processSessionResult_quietly {events : List SessionEvent}
    (hevents : ∀ event ∈ events, event.keepsBinding) (seq : UInt16) :
    Quietly id call (processSessionResult id ⟨events, []⟩ seq call).2 := by
  obtain ⟨hquiet, hclosing⟩ := processEvents_quietly id hevents seq none call
  change Quietly id call
    (andThen ((events.foldlM (processEvent id seq) none : CallM _) call) (finishClosing id)).2
  rcases hrun : (events.foldlM (processEvent id seq) none : CallM _) call with ⟨e | closing, c⟩ <;>
    rw [hrun] at hquiet hclosing
  · exact hquiet
  · obtain rfl := hclosing closing rfl
    exact hquiet

/-! ### Turns of the loops -/

/-- The call with the context of one stream replaced. -/
def setContext (id : TransportStreamId) (context : TransportStreamContext) (call : Call) : Call :=
  { call with
    transport := { call.transport with streams := call.transport.streams.insert id context } }

theorem modifyContext_of_some {context : TransportStreamContext}
    (h : call.transport.streams.lookup id = some context)
    (f : TransportStreamContext → TransportStreamContext) :
    modifyContext id f call = (.ok (), setContext id (f context) call) := by
  rw [modifyContext_apply, setContext, Table.modify, h]

@[simp] theorem lookup_setContext (context : TransportStreamContext) :
    (setContext id context call).transport.streams.lookup id = some context :=
  AList.lookup_insert _

theorem lookup_setContext_ne {k : TransportStreamId} (hk : k ≠ id)
    (context : TransportStreamContext) :
    (setContext id context call).transport.streams.lookup k =
      call.transport.streams.lookup k :=
  AList.lookup_insert_ne hk

@[simp] theorem setContext_setContext (context context' : TransportStreamContext) :
    setContext id context' (setContext id context call) = setContext id context' call := by
  simp only [setContext, AList.insert_insert]

/-- The time of a valid entry, recorded in the context and for the connection. -/
def withActivity (nowMs : Option UInt64) (context : TransportStreamContext) :
    TransportStreamContext :=
  { context with lastValidActivityMs := nowMs.or context.lastValidActivityMs }

/-- The connection's side of it. -/
def noteActivity (nowMs : Option UInt64) (call : Call) : Call :=
  { call with
    transport := { call.transport with
      connectionLastActivityMs := nowMs.or call.transport.connectionLastActivityMs } }

/-- The parser takes its step, and the context gets the parser back. -/
theorem feedEvent_of_some {backend : Backend} {nowMs : Option UInt64}
    {context : TransportStreamContext} (h : call.transport.streams.lookup id = some context)
    {result : Result StreamStep} {parser : StreamArchiveParser}
    (hstep : StreamArchiveParser.step backend context.parser = (result, parser)) :
    feedEvent backend id nowMs call =
      observeStep id nowMs result (setContext id { context with parser := parser } call) := by
  rw [feedEvent, bind_apply, context_of_some h, andThen_ok, hstep]
  dsimp only
  rw [bind_apply, modifyContext_of_some h, andThen_ok]

/-! ### What the handling of an event leaves alone -/

/-- A context without what the handling of events changes: parser, manager, limits, Global Header,
pending bytes and activity are left. -/
def coreOf (context : TransportStreamContext) : TransportStreamContext :=
  { context with
    state := .idle, boundSarStreamId := none, awaitingSessionInit := false
    peerCapabilities := .none }

theorem bindSarStream_streams (streamId : UInt16) (uuid : Octets 16) (self : InMemoryTransport) :
    (bindSarStream id streamId uuid self).streams = self.streams := by
  rw [bindSarStream]
  dsimp only
  split <;> rfl

/-- Another turn is asked for only after a header, an entry or the end of an archive. -/
theorem handleLoopEvent_eq_true {event : LoopEvent} {call' : Call}
    (h : handleLoopEvent id event call = (.ok true, call')) :
    event = .continue ∨ ∃ seq result, event = .sessionResult seq (.ok result) := by
  have herror : ∀ error, (do policyErrorActions id error; pure false : CallM Bool) call ≠
      (.ok true, call') := by
    intro error herr
    obtain ⟨⟨⟩, c, -, hpure⟩ := andThen_eq_ok_iff.mp herr
    exact nomatch (Prod.mk.inj hpure).1
  cases event with
  | needMore | complete => exact nomatch (Prod.mk.inj h).1
  | «continue» => exact Or.inl rfl
  | parserError error => exact absurd h (herror error)
  | sessionResult seq result =>
    cases result with
    | error error => exact absurd h (herror error)
    | ok result => exact Or.inr ⟨seq, result, rfl⟩

end InMemoryTransport

end Sar
