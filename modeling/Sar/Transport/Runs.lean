import Mathlib.Logic.Relation
import Sar.Transport.Effects

/-!
# Runs of the in-memory transport

The statements about the transport speak of moments inside a call as well as between calls, so a
run is cut finer than into calls: a step starts a call, or takes one turn of the loop that a call
of `feed_bytes` is in. `Connection` is the transport with the call in progress, and `Run` relates
the connections before and after any number of steps that all meet a condition.

## Main definitions and results

* `Connection.Next`, `Connection.Run` — one step, and a run.
* `decreases_feedTurn`, `decreases_controlTurn` — a loop's turns come to an end.
* `Connection.run_perform` — the steps of a request end where the call ends.
-/

namespace Sar

open Relation (ReflTransGen)
open Stateful InMemoryTransport

/-! ### The loops come to an end -/

namespace InMemoryTransport

variable {backend : Backend} {id : TransportStreamId} {nowMs : Option UInt64}

/-- What a function of the context is at one stream. -/
def atStream {γ : Type} (id : TransportStreamId) (g : TransportStreamContext → γ) (call : Call) :
    Option γ :=
  (call.transport.streams.lookup id).map g

variable {γ : Type}

variable {g : TransportStreamContext → γ}

theorem preserves_atStream_modifyContext {y : Option γ}
    {f : TransportStreamContext → TransportStreamContext}
    (hf : ∀ context, g (f context) = g context) :
    Preserves (fun call => atStream id g call = y) (modifyContext id f) := by
  intro call hcall
  rw [← hcall, atStream, modifyContext_apply]
  dsimp only
  rw [Table.lookup_modify_eq, if_pos rfl, Option.map_map]
  exact congrArg (fun h => (call.transport.streams.lookup id).map h) (funext hf)

theorem preserves_context {P : Call → Prop} : Preserves P (context id) := by
  intro call hcall
  cases h : call.transport.streams.lookup id with
  | none => rwa [context_of_none h]
  | some context => rwa [context_of_some h]

variable {P : Call → Prop}

theorem preserves_transport_bind {α : Type} {f : InMemoryTransport → CallM α}
    (hf : ∀ t, Preserves P (f t)) : Preserves P (InMemoryTransport.transport >>= f) :=
  fun call hcall => hf call.transport hcall

/-- A property that finding an event keeps: changes of the stream's context beside its parser and
its pending bytes, the time of the last activity, and deliveries. -/
structure Untouched (id : TransportStreamId) (P : Call → Prop) : Prop where
  context : ∀ f : TransportStreamContext → TransportStreamContext,
    (∀ context, (f context).parser = context.parser ∧
      (f context).quicPendingBytes = context.quicPendingBytes) → Preserves P (modifyContext id f)
  activity : ∀ now call, P call → P (noteActivity (some now) call)
  delivery : ∀ call d, P call → P { call with deliveries := call.deliveries ++ [d] }

theorem Untouched.recordActivity (h : Untouched id P) (nowMs : Option UInt64) :
    Preserves P (recordActivity id nowMs) := by
  cases nowMs with
  | none => exact Preserves.pure ()
  | some now =>
    refine Preserves.bind (h.context _ fun _ => ?_) fun _ => Preserves.update (h.activity now)
    exact ⟨rfl, rfl⟩

theorem Untouched.deliver (h : Untouched id P) (entry : SessionEntry) :
    Preserves P (deliver id entry) := by
  refine Preserves.bind preserves_context fun context => ?_
  refine Preserves.bind (h.context _ fun _ => ?_) fun _ =>
    Preserves.bind (Preserves.update fun call hcall => h.delivery call _ hcall) fun _ =>
      Preserves.pure _
  exact ⟨rfl, rfl⟩

theorem Untouched.observeHeader (h : Untouched id P) (header : GlobalHeader) :
    Preserves P (observeHeader id header) := by
  refine preserves_transport_bind fun t => Preserves.bind (h.context _ fun _ => ?_) fun _ =>
    Preserves.bind preserves_context fun context => ?_
  · exact ⟨rfl, rfl⟩
  · split
    · exact Preserves.pure _
    · refine Preserves.bind (h.context _ fun _ => ?_) fun _ => ?_
      · exact ⟨rfl, rfl⟩
      · split
        · exact Preserves.pure _
        · refine Preserves.bind (h.context _ fun _ => ?_) fun _ => Preserves.pure _
          exact ⟨rfl, rfl⟩

theorem Untouched.observeEntry (h : Untouched id P) (nowMs : Option UInt64) (entry : EntryReader) :
    Preserves P (observeEntry id nowMs entry) := by
  refine (h.recordActivity nowMs).bind fun _ => preserves_transport_bind fun t => ?_
  refine Preserves.bind preserves_context fun context => ?_
  split
  · exact Preserves.pure _
  · exact h.deliver _

/-- **What the feed loop makes of a parser's step** leaves such a property alone. -/
theorem Untouched.observeStep (h : Untouched id P) (nowMs : Option UInt64)
    (result : Result StreamStep) : Preserves P (observeStep id nowMs result) := by
  rcases result with error | (_ | (header | entry | summary) | _)
  · exact Preserves.pure _
  · exact Preserves.pure _
  · exact h.observeHeader header
  · exact h.observeEntry nowMs entry
  · refine Preserves.bind (h.context _ fun _ => ?_) fun _ => Preserves.pure _
    exact ⟨rfl, rfl⟩
  · exact Preserves.pure _

/-- What depends on the parser and the pending bytes of the stream. -/
theorem untouched_atStream (hg : ∀ c c' : TransportStreamContext, c'.parser = c.parser →
      c'.quicPendingBytes = c.quicPendingBytes → g c' = g c) (y : Option γ) :
    Untouched id fun call => atStream id g call = y where
  context := fun _ hf => preserves_atStream_modifyContext fun context =>
    hg _ _ (hf context).1 (hf context).2
  activity := fun _ _ hcall => hcall
  delivery := fun _ _ hcall => hcall

/-! ### What the handling of an event leaves alone -/

/-- A property that the handling of an event keeps, since its primitive operations do. -/
structure Kept (id : TransportStreamId) (P : Call → Prop) : Prop where
  context : ∀ f : TransportStreamContext → TransportStreamContext,
    (∀ context, coreOf (f context) = coreOf context) → Preserves P (modifyContext id f)
  push : ∀ action, isStatusAck action = false → Preserves P (pushAction action)
  pushStatusAck : ∀ action,
    Preserves P (do checkStatusAckActions; pushAction action : CallM Unit)
  remember : ∀ sar, Preserves P (rememberRejected sar)
  bind : ∀ sar uuid flags call, call.transport.activationRefusal sar flags = none → P call →
    P { call with transport := bindSarStream id sar uuid call.transport }
  unbind : ∀ sar call, P call → P { call with transport := unbindSarStream sar call.transport }

section

variable (h : Kept id P)
include h

theorem Kept.maybeEmitStatusAction (sar : UInt16) (status : SarStatus) (refSequence : UInt16)
    (message : String) : Preserves P (maybeEmitStatusAction sar status refSequence message) := by
  refine preserves_transport_bind fun t => ?_
  split
  · exact Preserves.pure ()
  · exact h.pushStatusAck _

theorem Kept.endRejected (status : SarStatus) (policy : PolicyMode) :
    Preserves P (endRejected id status policy) := by
  cases policy with
  | tcp =>
    refine (h.push _ rfl).bind fun _ => (h.push _ rfl).bind fun _ => h.context _ fun _ => ?_
    rfl
  | quic =>
    refine (h.push _ rfl).bind fun _ => h.context _ fun _ => ?_
    rfl

theorem Kept.rejectStreamWithPolicy (sar : Option UInt16) (error : SarError)
    (refSequence : UInt16) : Preserves P (rejectStreamWithPolicy id sar error refSequence) := by
  refine (h.remember sar).bind fun _ => (h.push _ rfl).bind fun _ =>
    Preserves.current_bind fun call _ => Preserves.bind ?_ fun _ => h.endRejected _ _
  cases sar with
  | none => exact Preserves.pure ()
  | some sar => exact h.maybeEmitStatusAction _ _ _ _

theorem Kept.policyErrorActions (error : SarError) : Preserves P (policyErrorActions id error) :=
  preserves_transport_bind fun _ => h.rejectStreamWithPolicy _ _ _

theorem Kept.processAction (action : SessionAction) : Preserves P (processAction id action) := by
  cases action with
  | emitAck streamId frame =>
    refine preserves_transport_bind fun t => ?_
    split
    · exact h.pushStatusAck _
    · exact Preserves.pure ()

theorem Kept.processEvent (headerSequence : UInt16) (closing : Option UInt16)
    (event : SessionEvent) : Preserves P (processEvent id headerSequence closing event) := by
  cases event with
  | sessionActivated sar uuid flags =>
    intro call hcall
    rw [InMemoryTransport.processEvent, transport_bind]
    rcases haccept : call.transport.activationRefusal sar flags with _ | error
    · dsimp only
      rw [bind_apply, modifyTransport_apply, andThen_ok]
      refine Preserves.bind (h.context _ fun _ => ?_) (fun _ =>
        (h.push _ rfl).bind fun _ => Preserves.pure _) (h.bind sar uuid flags call haccept hcall)
      rfl
    · exact (h.rejectStreamWithPolicy _ _ _).bind (fun _ => Preserves.pure _) hcall
  | sessionClosed sar uuid =>
    refine Preserves.bind (Preserves.update (h.unbind sar)) fun _ =>
      Preserves.bind (h.context _ fun _ => ?_) fun _ => Preserves.pure _
    rfl
  | capabilitiesUpdated _ frame =>
    refine Preserves.bind (h.context _ fun _ => ?_) fun _ => Preserves.pure _
    rfl
  | warning _ status _ => exact (h.push _ rfl).bind fun _ => Preserves.pure _
  | statefulInactive sar _ _ =>
    refine preserves_transport_bind fun t => ?_
    split
    · exact (h.rejectStreamWithPolicy _ _ _).bind fun _ => Preserves.pure _
    · exact Preserves.pure _
  | status | ack | metadataUpdated | sessionResumed | heartbeat | filesystemAction =>
    exact Preserves.pure _

theorem Kept.processSessionResult (result : ProcessResult)
    (headerSequence : UInt16) : Preserves P (processSessionResult id result headerSequence) := by
  refine Preserves.bind (Preserves.forM h.processAction _) fun _ =>
    Preserves.bind (Preserves.foldlM (h.processEvent headerSequence) _ _) fun closing => ?_
  cases closing with
  | none => exact Preserves.pure ()
  | some sar =>
    refine (h.push _ rfl).bind fun _ => h.context _ fun _ => ?_
    rfl

theorem Kept.handleLoopEvent (event : LoopEvent) : Preserves P (handleLoopEvent id event) := by
  rcases event with _ | _ | _ | ⟨seq, e | result⟩ | error
  · exact Preserves.pure _
  · exact Preserves.pure _
  · exact Preserves.pure _
  · exact (h.policyErrorActions e).bind fun _ => Preserves.pure _
  · exact (h.processSessionResult result seq).bind fun _ => Preserves.pure _
  · exact (h.policyErrorActions error).bind fun _ => Preserves.pure _

end

theorem preserves_atStream_of_notes {y : Option γ} {f : CallM Unit}
    (h : ∀ before, Preserves (Notes before) f) :
    Preserves (fun call => atStream id g call = y) f := by
  intro call hcall
  obtain ⟨⟨rejected, htransport⟩, -⟩ := h call (Notes.refl call)
  rw [← hcall, atStream, htransport]
  rfl

/-- The handling of an event touches no parser, manager or pending bytes. -/
theorem kept_atStream (hg : ∀ c, g (coreOf c) = g c)
    (y : Option γ) : Kept id fun call => atStream id g call = y where
  context f hf := preserves_atStream_modifyContext fun c => by rw [← hg, hf, hg]
  push action _ := preserves_atStream_of_notes fun before =>
    preserves_notes_pushAction before action
  pushStatusAck action := preserves_atStream_of_notes fun before =>
    (preserves_notes_checkStatusAckActions before).bind fun _ =>
      preserves_notes_pushAction before action
  remember sar := preserves_atStream_of_notes fun before =>
    preserves_notes_rememberRejected before sar
  bind sar uuid flags call _ hcall := by
    rw [← hcall, atStream, bindSarStream_streams]
    rfl
  unbind _ _ hcall := hcall

theorem event_eq_of_pure {event event' : LoopEvent} {call call' : Call}
    (h : (pure event : CallM LoopEvent) call = (.ok event', call')) : event = event' :=
  Except.ok.inj (Prod.mk.inj h).1

section Feed

/-- The rank of a stream's parser. -/
def feedRank (backend : Backend) (id : TransportStreamId) (call : Call) : ℕ :=
  (atStream id (fun context => (StreamArchiveParser.machine backend).rank context.parser)
    call).getD 0

theorem feedRank_eq {call : Call} {parser : StreamArchiveParser}
    (h : atStream id (·.parser) call = some parser) :
    feedRank backend id call = (StreamArchiveParser.machine backend).rank parser := by
  obtain ⟨context, hcontext, rfl⟩ := Option.map_eq_some_iff.mp h
  rw [feedRank, atStream, hcontext]
  rfl

/-- A turn of the feed loop that asks for another one had an event, which the parser paid for. -/
theorem decreases_feedTurn : Decreases (feedRank backend id) (feedTurn backend id nowMs) := by
  intro call call' hturn
  obtain ⟨event, c, hevent, hhandle⟩ := andThen_eq_ok_iff.mp hturn
  have hcores : atStream id (·.parser) call' = atStream id (·.parser) c := by
    have hkeep := (@kept_atStream id _ (·.parser) (fun _ => rfl) _).handleLoopEvent event
      (rfl : atStream id (·.parser) c = _)
    rwa [hhandle] at hkeep
  cases hlookup : call.transport.streams.lookup id with
  | none =>
    rw [feedEvent, bind_apply, context_of_none hlookup] at hevent
    cases (Prod.mk.inj hevent).1
  | some context =>
    rcases hstep : StreamArchiveParser.step backend context.parser with ⟨result, parser⟩
    rw [feedEvent_of_some hlookup hstep] at hevent
    have hset : atStream id (·.parser)
        (setContext id { context with parser := parser } call) = some parser := by
      rw [atStream, lookup_setContext]
      rfl
    have hbefore : atStream id (·.parser) call = some context.parser := by
      rw [atStream, hlookup]
      rfl
    -- what is left to show: the step was an event, and the rest of the turn kept the parser
    have hend : (∃ e, result = .ok (.ready e)) → atStream id (·.parser) c = some parser →
        feedRank backend id call' < feedRank backend id call := by
      rintro ⟨e, rfl⟩ hparser
      rw [feedRank_eq (hcores.trans hparser), feedRank_eq hbefore]
      exact StreamArchiveParser.progress_machine backend
        ((StreamArchiveParser.machine_step_ready_iff backend).mpr hstep)
    have hkeep := (untouched_atStream (fun _ _ h _ => h) (some parser)).observeStep
      nowMs result hset
    rw [hevent] at hkeep
    have hgoes := handleLoopEvent_eq_true hhandle
    rcases result with error | (_ | ready | _)
    · obtain rfl := event_eq_of_pure hevent
      simp at hgoes
    · obtain rfl := event_eq_of_pure hevent
      simp at hgoes
    · exact hend ⟨ready, rfl⟩ hkeep
    · obtain rfl := event_eq_of_pure hevent
      simp at hgoes

end Feed

section Control

/-- The number of a stream's pending bytes. -/
def controlRank (id : TransportStreamId) (call : Call) : ℕ :=
  (atStream id (fun context => context.quicPendingBytes.length) call).getD 0

/-- An entry that was found has a header with at least its size field, and all its bytes are
pending. -/
theorem nextControlEntry_eq_some {limits : ResourceLimits} {flags : GlobalFlags} {pending : Bytes}
    {lfh : LocalFileHeader} {lfhBytes payload : Bytes}
    (h : nextControlEntry limits flags pending = .ok (some (lfh, lfhBytes, payload))) :
    0 < lfhBytes.length ∧ lfhBytes ++ payload = pending.take (lfhBytes.length + payload.length) ∧
      lfhBytes.length + payload.length ≤ pending.length ∧
      (∃ n, parseLfh lfhBytes flags limits = .ok (lfh, n)) ∧
      payload.length = lfh.payloadSize.toNat := by
  rw [nextControlEntry] at h
  split at h
  · cases Except.ok.inj h
  · simp only [Except.bind_eq_ok_iff, Except.exists_unit] at h
    obtain ⟨-, h⟩ := h
    split at h
    · cases Except.ok.inj h
    · next hheader =>
      simp only [Except.bind_eq_ok_iff, Prod.exists, Except.exists_unit,
        Except.rejectIf_eq_ok_iff] at h
      obtain ⟨lfh', n, hparse, -, h⟩ := h
      split at h
      · cases Except.ok.inj h
      · next htotal =>
        obtain ⟨rfl, rfl, rfl⟩ : lfh' = lfh ∧
            pending.take (additionalControlHeaderSize pending) = lfhBytes ∧
            (pending.drop (additionalControlHeaderSize pending)).take lfh'.payloadSize.toNat =
              payload := by
          simpa using h
        have hfour := four_le_of_parseLfh hparse
        have hlen : (pending.take (additionalControlHeaderSize pending)).length =
            additionalControlHeaderSize pending := by
          rw [List.length_take]
          omega
        have hpay : ((pending.drop (additionalControlHeaderSize pending)).take
            lfh'.payloadSize.toNat).length = lfh'.payloadSize.toNat := by
          rw [List.length_take, List.length_drop]
          omega
        refine ⟨by omega, ?_, by omega, ⟨n, hparse⟩, hpay⟩
        rw [hlen, hpay, List.take_add]

/-- A turn of the control loop that asks for another one has read pending bytes. -/
theorem decreases_controlTurn : Decreases (controlRank id) (controlTurn backend id nowMs) := by
  intro call call' hturn
  obtain ⟨event, c, hevent, hhandle⟩ := andThen_eq_ok_iff.mp hturn
  have hcores : controlRank id call' = controlRank id c := by
    have hkeep := (@kept_atStream id _ (·.quicPendingBytes.length) (fun _ => rfl) _).handleLoopEvent
      event (rfl : atStream id (·.quicPendingBytes.length) c = _)
    rw [hhandle] at hkeep
    exact congrArg (·.getD 0) hkeep
  have hgoes := handleLoopEvent_eq_true hhandle
  rw [controlEvent, transport_bind] at hevent
  simp only [bind_apply, andThen_eq_ok_iff, lift_eq_ok_iff] at hevent
  obtain ⟨sar, _, ⟨-, rfl⟩, header, _, ⟨-, rfl⟩, context, d, hcontext, hevent⟩ := hevent
  cases hlookup : call.transport.streams.lookup id with
  | none =>
    rw [context_of_none hlookup] at hcontext
    exact nomatch (Prod.mk.inj hcontext).1
  | some context' =>
    rw [context_of_some hlookup] at hcontext
    obtain ⟨hctx, rfl⟩ := Prod.mk.inj hcontext
    obtain rfl := Except.ok.inj hctx
    rcases hnext : nextControlEntry context'.limits header.flags context'.quicPendingBytes with
      error | (_ | ⟨lfh, lfhBytes, payload⟩) <;> rw [hnext] at hevent
    · obtain rfl := event_eq_of_pure hevent
      simp at hgoes
    · obtain rfl := event_eq_of_pure hevent
      simp at hgoes
    · obtain ⟨hpos, -, hle, -, -⟩ := nextControlEntry_eq_some hnext
      rcases hplain : controlPlaintext backend call.transport sar header lfh lfhBytes payload with
        error | plaintext <;> (dsimp only at hevent; rw [hplain] at hevent)
      · obtain rfl := event_eq_of_pure hevent
        simp at hgoes
      · dsimp only at hevent
        -- the entry's bytes leave the buffer, and nothing puts bytes back
        have hkept := @untouched_atStream id _ (·.quicPendingBytes.length)
          (fun _ _ _ h => congrArg List.length h)
          (some (context'.quicPendingBytes.length - (lfhBytes.length + payload.length)))
        rw [bind_apply, modifyContext_of_some hlookup, andThen_ok] at hevent
        have hset : atStream id (fun context => context.quicPendingBytes.length)
            (setContext id
              { context' with
                quicPendingBytes :=
                  context'.quicPendingBytes.drop (lfhBytes.length + payload.length) } call) =
            some (context'.quicPendingBytes.length - (lfhBytes.length + payload.length)) := by
          rw [atStream, lookup_setContext, Option.map_some, List.length_drop]
        have hafter := (hkept.recordActivity nowMs).bind
          (fun _ => hkept.deliver ⟨lfh, plaintext, false⟩) hset
        rw [hevent] at hafter
        have hrank : controlRank id c =
            context'.quicPendingBytes.length - (lfhBytes.length + payload.length) := by
          rw [controlRank, hafter, Option.getD_some]
        have hrank' : controlRank id call = context'.quicPendingBytes.length := by
          rw [controlRank, atStream, hlookup]
          rfl
        omega

end Control

end InMemoryTransport

/-- A call that a client makes. -/
inductive Request where
  | openStream (id : TransportStreamId)
  | feed (id : TransportStreamId) (bytes : Bytes) (nowMs : Option UInt64)
  | close (id : TransportStreamId)
  | reset (id : TransportStreamId) (reason : SarError)

/-- Where a connection is: between calls, or in one of the loops. -/
inductive Phase where
  | idle
  | feeding (id : TransportStreamId) (nowMs : Option UInt64)
  | controlling (id : TransportStreamId) (nowMs : Option UInt64)
  deriving DecidableEq

/-- The transport with the call that is in progress, and what earlier calls delivered. -/
structure Connection where
  call : Call
  phase : Phase
  history : List Delivery

/-- A step of a run. -/
inductive Step where
  | start (request : Request)
  | turn

namespace Connection

/-- The connection before its first call. -/
def initial (transport : InMemoryTransport) : Connection := ⟨⟨transport, [], []⟩, .idle, []⟩

/-- The transport. -/
def transport (c : Connection) : InMemoryTransport := c.call.transport

/-- All that was handed to a session manager so far. -/
def deliveries (c : Connection) : List Delivery := c.history ++ c.call.deliveries

/-- The phase a call of `feed_bytes` goes on in. -/
def phaseOf (id : TransportStreamId) (nowMs : Option UInt64) : Result Route → Phase
  | .ok .feed => .feeding id nowMs
  | .ok .control => .controlling id nowMs
  | .ok .done | .error _ => .idle

/-- Start a call, with no actions and no deliveries yet. -/
def start (c : Connection) (request : Request) : Connection :=
  let call : Call := ⟨c.transport, [], []⟩
  match request with
  | .openStream id => ⟨(openBody id call).2, .idle, c.deliveries⟩
  | .feed id bytes nowMs =>
    let r := route id bytes call
    ⟨r.2, phaseOf id nowMs r.1, c.deliveries⟩
  | .close id => ⟨(closeBody id call).2, .idle, c.deliveries⟩
  | .reset id reason => ⟨(resetBody id reason call).2, .idle, c.deliveries⟩

/-- The connection after a turn: the loop goes on when the turn asks for it. -/
def afterTurn (c : Connection) (r : Result Bool × Call) : Connection :=
  ⟨r.2, match r.1 with
    | .ok true => c.phase
    | .ok false | .error _ => .idle, c.history⟩

/-- Take a turn of the loop the connection is in. -/
def turn (backend : Backend) (c : Connection) : Connection :=
  match c.phase with
  | .idle => c
  | .feeding id nowMs => c.afterTurn (feedTurn backend id nowMs c.call)
  | .controlling id nowMs => c.afterTurn (controlTurn backend id nowMs c.call)

/-- Take a step. -/
def step (backend : Backend) (c : Connection) : Step → Connection
  | .start request => c.start request
  | .turn => c.turn backend

/-- A call is started between calls, and a turn is taken inside one. -/
def Enabled (c : Connection) : Step → Prop
  | .start _ => c.phase = .idle
  | .turn => c.phase ≠ .idle

/-- One step that meets the condition. -/
def Next (backend : Backend) (ok : Connection → Step → Prop) (c c' : Connection) : Prop :=
  ∃ s, c.Enabled s ∧ ok c s ∧ c' = c.step backend s

/-- Any number of steps that all meet the condition. -/
def Run (backend : Backend) (ok : Connection → Step → Prop) : Connection → Connection → Prop :=
  ReflTransGen (Next backend ok)

variable {backend : Backend} {ok : Connection → Step → Prop}

variable {c : Connection} {id : TransportStreamId} {nowMs : Option UInt64}

theorem turn_feeding (h : c.phase = .feeding id nowMs) :
    c.turn backend = c.afterTurn (feedTurn backend id nowMs c.call) := by
  rw [turn, h]

theorem turn_controlling (h : c.phase = .controlling id nowMs) :
    c.turn backend = c.afterTurn (controlTurn backend id nowMs c.call) := by
  rw [turn, h]

variable {phase : Phase}

/-- A loop that goes on was asked to. -/
theorem afterTurn_phase_eq {r : Result Bool × Call} (h : (c.afterTurn r).phase = phase)
    (hphase : phase ≠ .idle) : c.phase = phase ∧ r = (.ok true, (c.afterTurn r).call) := by
  rcases r with ⟨e | (_ | _), call⟩
  · exact absurd h.symm hphase
  · exact absurd h.symm hphase
  · exact ⟨h, rfl⟩

theorem phaseOf_eq_feeding {id' : TransportStreamId} {nowMs' : Option UInt64} {r : Result Route}
    (h : phaseOf id nowMs r = .feeding id' nowMs') : r = .ok .feed ∧ id' = id := by
  rcases r with e | (_ | _ | _)
  · exact nomatch h
  · exact ⟨rfl, (Phase.feeding.inj h).1.symm⟩
  · exact nomatch h
  · exact nomatch h

theorem phaseOf_eq_controlling {id' : TransportStreamId} {nowMs' : Option UInt64} {r : Result Route}
    (h : phaseOf id nowMs r = .controlling id' nowMs') : r = .ok .control ∧ id' = id := by
  rcases r with e | (_ | _ | _)
  · exact nomatch h
  · exact nomatch h
  · exact ⟨rfl, (Phase.controlling.inj h).1.symm⟩
  · exact nomatch h

/-- What every step that meets the condition preserves, a run preserves. -/
theorem Run.invariant {P : Connection → Prop}
    (hstep : ∀ c s, c.Enabled s → ok c s → P c → P (c.step backend s)) {c' : Connection}
    (hrun : Run backend ok c c') (h : P c) : P c' := by
  -- on the run, from its start
  induction hrun with
  | refl => exact h
  | tail _ hnext ih =>
    obtain ⟨s, henabled, hok, rfl⟩ := hnext
    exact hstep _ s henabled hok ih

/-- The given steps can be taken one after the other, and all meet the condition. -/
def Follows (backend : Backend) (ok : Connection → Step → Prop) : Connection → List Step → Prop
  | _, [] => True
  | c, s :: steps => c.Enabled s ∧ ok c s ∧ Follows backend ok (c.step backend s) steps

instance (c : Connection) : (s : Step) → Decidable (c.Enabled s)
  | .start _ => inferInstanceAs (Decidable (c.phase = .idle))
  | .turn => inferInstanceAs (Decidable (c.phase ≠ .idle))

instance decidableFollows [∀ c s, Decidable (ok c s)] : (c : Connection) → (steps : List Step) →
    Decidable (Follows backend ok c steps)
  | _, [] => inferInstanceAs (Decidable True)
  | c, s :: steps =>
    have := decidableFollows (c.step backend s) steps
    inferInstanceAs (Decidable (c.Enabled s ∧ ok c s ∧ Follows backend ok (c.step backend s) steps))

/-- Steps that meet a condition meet a weaker one. -/
theorem Follows.imp {ok' : Connection → Step → Prop} (himp : ∀ c s, ok c s → ok' c s)
    {steps : List Step} (h : Follows backend ok c steps) : Follows backend ok' c steps := by
  induction steps generalizing c with
  | nil => exact h
  | cons s steps ih => exact ⟨h.1, himp c s h.2.1, ih h.2.2⟩

/-- The connection after some steps. -/
def after (backend : Backend) (c : Connection) (steps : List Step) : Connection :=
  steps.foldl (step backend) c

theorem run_after (steps : List Step) (h : Follows backend ok c steps) :
    Run backend ok c (c.after backend steps) := by
  induction steps generalizing c with
  | nil => exact ReflTransGen.refl
  | cons s steps ih =>
    obtain ⟨henabled, hok, hrest⟩ := h
    exact ReflTransGen.head ⟨s, henabled, hok, rfl⟩ (ih hrest)

/-! ### A run goes through the calls -/

/-- The functional reading of a request. -/
def perform (backend : Backend) : Request → Prog InMemoryTransport SarError (List TransportAction)
  | .openStream id => openTransportStream id
  | .feed id bytes nowMs => feedBytes backend id bytes nowMs
  | .close id => closeTransportStream id
  | .reset id reason => resetTransportStream id reason

/-- The turns of a loop lead to where the loop ends. -/
theorem run_iterate (hphase : phase ≠ .idle) {turnOf : CallM Bool}
    (hturn : ∀ c : Connection, c.phase = phase → c.turn backend = c.afterTurn (turnOf c.call))
    {rank : Call → ℕ} (hrank : Decreases rank turnOf) {fuel : ℕ} {call : Call}
    (hfuel : rank call < fuel) (history : List Delivery) :
    Run backend (fun _ _ => True) ⟨call, phase, history⟩
      ⟨(iterate turnOf fuel call).2, .idle, history⟩ := by
  -- on the fuel, which stays above the rank, so that it never runs out
  induction fuel generalizing call with
  | zero => exact absurd hfuel (Nat.not_lt_zero _)
  | succ fuel ih =>
    have hstep : Next backend (fun _ _ => True) ⟨call, phase, history⟩
        (afterTurn ⟨call, phase, history⟩ (turnOf call)) :=
      ⟨.turn, hphase, trivial, (hturn _ rfl).symm⟩
    rw [iterate, bind_apply]
    rcases hrun : turnOf call with ⟨e | more, call'⟩ <;> rw [hrun] at hstep
    · exact ReflTransGen.single hstep
    · cases more with
      | false => exact ReflTransGen.single hstep
      | true =>
        have hlt : rank call' < fuel := by
          have := hrank hrun
          omega
        exact ReflTransGen.head hstep (ih hlt)

/-- A loop with enough fuel leads to where its turns lead; on a stream that does not exist, it ends
at once. -/
theorem run_loop (hphase : phase ≠ .idle) {turnOf : CallM Bool}
    (hturn : ∀ c : Connection, c.phase = phase → c.turn backend = c.afterTurn (turnOf c.call))
    {rank : Call → ℕ} (hrank : Decreases rank turnOf) {fuel : TransportStreamContext → ℕ}
    {id : TransportStreamId} {call : Call}
    (hmissing : call.transport.streams.lookup id = none → ∃ e, turnOf call = (.error e, call))
    (hfuel : ∀ context, call.transport.streams.lookup id = some context → rank call < fuel context)
    (history : List Delivery) :
    Run backend (fun _ _ => True) ⟨call, phase, history⟩
      ⟨((context id >>= fun context => iterate turnOf (fuel context) : CallM Unit) call).2, .idle,
        history⟩ := by
  rw [bind_apply]
  cases hlookup : call.transport.streams.lookup id with
  | none =>
    obtain ⟨e, herror⟩ := hmissing hlookup
    rw [context_of_none hlookup]
    refine ReflTransGen.single ⟨.turn, hphase, trivial, ?_⟩
    have hnext := hturn ⟨call, phase, history⟩ rfl
    rw [herror] at hnext
    exact hnext.symm
  | some context =>
    rw [context_of_some hlookup, andThen_ok]
    exact run_iterate hphase hturn hrank (hfuel context hlookup) history

theorem run_feedLoop (id : TransportStreamId) (nowMs : Option UInt64) (call : Call)
    (history : List Delivery) :
    Run backend (fun _ _ => True) ⟨call, .feeding id nowMs, history⟩
      ⟨(runFeedLoop backend id nowMs call).2, .idle, history⟩ := by
  have hbusy : Phase.feeding id nowMs ≠ .idle := fun h => nomatch h
  refine run_loop hbusy (fun _ hc => turn_feeding hc) decreases_feedTurn
    (fun hlookup => ?_) (fun context hlookup => ?_) history
  · rw [feedTurn, bind_apply, feedEvent, bind_apply, context_of_none hlookup]
    exact ⟨_, rfl⟩
  · have hparser : atStream id (·.parser) call = some context.parser := by
      rw [atStream, hlookup]
      rfl
    rw [feedRank_eq hparser]
    exact Nat.lt_succ_self _

theorem run_controlLoop (id : TransportStreamId) (nowMs : Option UInt64) (call : Call)
    (history : List Delivery) :
    Run backend (fun _ _ => True) ⟨call, .controlling id nowMs, history⟩
      ⟨(runAdditionalControlStreamLoop backend id nowMs call).2, .idle, history⟩ := by
  have hbusy : Phase.controlling id nowMs ≠ .idle := fun h => nomatch h
  refine run_loop hbusy (fun _ hc => turn_controlling hc) decreases_controlTurn
    (fun hlookup => ?_) (fun context hlookup => ?_) history
  · -- whichever of the three lookups of the turn fails, the call is left alone
    rw [controlTurn, bind_apply, controlEvent, transport_bind, bind_apply, lift_apply]
    cases call.transport.controlStreamAttachments.lookup id with
    | none => exact ⟨_, rfl⟩
    | some sar =>
      rw [Except.okOr_some, andThen_ok, bind_apply, lift_apply]
      cases call.transport.activeGlobalHeaders.lookup sar with
      | none => exact ⟨_, rfl⟩
      | some header =>
        rw [Except.okOr_some, andThen_ok, bind_apply, context_of_none hlookup]
        exact ⟨_, rfl⟩
  · rw [controlRank, atStream, hlookup]
    exact Nat.lt_succ_self _

/-- **A run goes through every call**: from a connection between calls, the steps of a request
lead to a connection between calls whose transport is the one the call leaves. -/
theorem run_perform (c : Connection) (hidle : c.phase = .idle) (request : Request) :
    ∃ c', Run backend (fun _ _ => True) c c' ∧ c'.phase = .idle ∧
      c'.transport = (perform backend request c.transport).2 := by
  have hstart : Next backend (fun _ _ => True) c (c.start request) :=
    ⟨.start request, hidle, trivial, rfl⟩
  cases request with
  | openStream id => exact ⟨_, ReflTransGen.single hstart, rfl, rfl⟩
  | close id => exact ⟨_, ReflTransGen.single hstart, rfl, rfl⟩
  | reset id reason => exact ⟨_, ReflTransGen.single hstart, rfl, rfl⟩
  | feed id bytes nowMs =>
    have hnext : c.start (.feed id bytes nowMs) =
        ⟨(route id bytes ⟨c.transport, [], []⟩).2,
          phaseOf id nowMs (route id bytes ⟨c.transport, [], []⟩).1, c.deliveries⟩ := rfl
    have hperform : (perform backend (.feed id bytes nowMs) c.transport).2 =
        (feedBody backend id bytes nowMs ⟨c.transport, [], []⟩).2.transport := rfl
    rw [hnext] at hstart
    rw [hperform, feedBody, bind_apply]
    rcases hroute : route id bytes ⟨c.transport, [], []⟩ with ⟨e | r, call⟩ <;>
      rw [hroute] at hstart
    · exact ⟨_, ReflTransGen.single hstart, rfl, rfl⟩
    · cases r with
      | done => exact ⟨_, ReflTransGen.single hstart, rfl, rfl⟩
      | feed =>
        refine ⟨_, ReflTransGen.head hstart (run_feedLoop id nowMs call c.deliveries),
          rfl, rfl⟩
      | control =>
        refine ⟨_, ReflTransGen.head hstart (run_controlLoop id nowMs call c.deliveries),
          rfl, rfl⟩

end Connection

/-! ### Example traffic -/

/-- The Global Header of an archive without index. -/
def exampleHeader : Bytes := [0x53, 0x41, 0x52, 0x21, 1, 0, 4, 0, 2, 0, 0, 0]

/-- A session-control entry with a name of one byte. -/
def exampleEntry (opCode streamId sequenceNo : UInt8) (payload : Bytes) : Bytes :=
  let size := UInt8.ofNat payload.length
  [21, 0, 0, 0, 0, 0x20 + opCode, streamId, 0, sequenceNo, 0, size, 0, 0, 0, size, 0, 0, 0, 1, 0,
    0x61] ++ payload

/-- A `SESSION_INIT` with sequence number 0. -/
def exampleInit (streamId : UInt8) : Bytes := exampleEntry 0 streamId 0 (List.replicate 18 0)

end Sar
