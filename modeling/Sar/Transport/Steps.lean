import Sar.Transport.Runs

/-!
# The steps of the transport, read off their events

A step of a run starts a call or takes a turn of a loop. This module says once what each kind of
step can do, failures included, so that the invariants of the transport are case analyses over it.

A turn has two halves. The first finds an event and touches only the context of its own stream
(`feedEvent_observed`, `controlEvent_observed`); an entry that was read is handed to the manager
of that stream. The second handles the event (`handleLoopEvent_handled`) and is the only place
where ids are bound and unbound. Calls start with `route_routed`, `openBody_opened`,
`closeBody_detached` and `resetBody_detached`.
-/

namespace Sar

open Except (rejectIf okOr okOr_some)
open Stateful List

namespace InMemoryTransport

variable {id : TransportStreamId} {t t' t'' : InMemoryTransport}

/-! ### Changes of one context -/

/-- The tables other than the streams are the same. -/
structure SameTables (t t' : InMemoryTransport) : Prop where
  active : t'.activeSarStreams = t.activeSarStreams
  uuids : t'.activeSessionUuids = t.activeSessionUuids
  headers : t'.activeGlobalHeaders = t.activeGlobalHeaders
  attachments : t'.controlStreamAttachments = t.controlStreamAttachments
  tls : t'.tlsExporterBound = t.tlsExporterBound
  config : t'.config = t.config
  policy : t'.policy = t.policy

theorem SameTables.refl (t : InMemoryTransport) : SameTables t t :=
  ⟨rfl, rfl, rfl, rfl, rfl, rfl, rfl⟩

theorem sameTables_markRejected (id : TransportStreamId) (rejected : Finset UInt16)
    (t : InMemoryTransport) : SameTables t (markRejected id rejected t) :=
  ⟨rfl, rfl, rfl, rfl, rfl, rfl, rfl⟩

theorem SameTables.trans (h : SameTables t t') (h' : SameTables t' t'') : SameTables t t'' :=
  ⟨h'.active.trans h.active, h'.uuids.trans h.uuids, h'.headers.trans h.headers,
    h'.attachments.trans h.attachments, h'.tls.trans h.tls, h'.config.trans h.config,
    h'.policy.trans h.policy⟩

/-- Only the context of one stream was touched, and it is now the given one. -/
structure Touched (id : TransportStreamId) (t t' : InMemoryTransport)
    (context : TransportStreamContext) : Prop where
  tables : SameTables t t'
  lookup_ne : ∀ k, k ≠ id → t'.streams.lookup k = t.streams.lookup k
  lookup_self : t'.streams.lookup id = some context

theorem Quietly.sameTables {before after : Call} (h : Quietly id before after) :
    SameTables before.transport after.transport := by
  obtain ⟨rejected, streams, htransport⟩ := h.transport_eq
  rw [htransport]
  exact ⟨rfl, rfl, rfl, rfl, rfl, rfl, rfl⟩

theorem Touched.refl {context : TransportStreamContext} (h : t.streams.lookup id = some context) :
    Touched id t t context :=
  ⟨SameTables.refl t, fun _ _ => rfl, h⟩

theorem Touched.trans {context context' : TransportStreamContext} (h : Touched id t t' context)
    (h' : Touched id t' t'' context') : Touched id t t'' context' :=
  ⟨h.tables.trans h'.tables, fun k hk => (h'.lookup_ne k hk).trans (h.lookup_ne k hk),
    h'.lookup_self⟩

theorem touched_setContext (call : Call) (context : TransportStreamContext) :
    Touched id call.transport (setContext id context call).transport context :=
  ⟨⟨rfl, rfl, rfl, rfl, rfl, rfl, rfl⟩, fun _ hk => lookup_setContext_ne hk context,
    lookup_setContext context⟩

/-- The context after a change that the tables do not notice. -/
theorem Quietly.touched {before after : Call} {context : TransportStreamContext}
    (h : Quietly id before after) (hlookup : before.transport.streams.lookup id = some context) :
    ∃ peer, Touched id before.transport after.transport
      { context with peerCapabilities := peer } := by
  have hself := h.lookup_self
  rw [hlookup, Option.map_some, Option.map_eq_some_iff] at hself
  obtain ⟨context', hcontext', hsame⟩ := hself
  refine ⟨context'.peerCapabilities, h.sameTables, h.lookup_ne, ?_⟩
  · rw [hcontext']
    exact congrArg (fun c : TransportStreamContext =>
      some { c with peerCapabilities := context'.peerCapabilities }) hsame

/-- A stream inside an archive knows that archive's Global Header. -/
def Headed (context : TransportStreamContext) : Prop :=
  context.parser.Outside ∨ ∃ header, context.currentGlobalHeader = some header

/-- New bytes do not move a parser into an archive. -/
theorem headed_pushBytes {context : TransportStreamContext} {bytes pending : Bytes}
    {r : Result Unit} {parser : StreamArchiveParser}
    (h : StreamArchiveParser.pushBytes bytes context.parser = (r, parser)) (hc : Headed context) :
    Headed { context with parser := parser, quicPendingBytes := pending } := by
  rcases hc with hout | hheader
  · left
    have hkeeps := StreamArchiveParser.preserves_outside_pushBytes bytes hout
    rwa [h] at hkeeps
  · exact Or.inr hheader

/-- What finding an event leaves of a context. -/
structure Continues (context context' : TransportStreamContext) : Prop where
  alive : context.state.isTerminal = false → context'.state.isTerminal = false
  bound_eq : context'.boundSarStreamId = context.boundSarStreamId
  peer_eq : context'.peerCapabilities = context.peerCapabilities
  headed : Headed context → Headed context'

/-- A context that only got a new manager, time and buffer. -/
structure Unmoved (context context' : TransportStreamContext) : Prop where
  state_eq : context'.state = context.state
  bound_eq : context'.boundSarStreamId = context.boundSarStreamId
  awaiting_eq : context'.awaitingSessionInit = context.awaitingSessionInit
  peer_eq : context'.peerCapabilities = context.peerCapabilities
  parser_eq : context'.parser = context.parser
  header_eq : context'.currentGlobalHeader = context.currentGlobalHeader

theorem headed_congr {context context' : TransportStreamContext}
    (hparser : context'.parser = context.parser)
    (hheader : context'.currentGlobalHeader = context.currentGlobalHeader) :
    Headed context' ↔ Headed context := by
  rw [Headed, hparser, hheader, Headed]

theorem Unmoved.continues {context context' : TransportStreamContext}
    (h : Unmoved context context') : Continues context context' := by
  refine ⟨fun halive => ?_, h.bound_eq, h.peer_eq, (headed_congr h.parser_eq h.header_eq).mpr⟩
  rw [h.state_eq]
  exact halive

theorem Continues.trans {a b c : TransportStreamContext} (h : Continues a b)
    (h' : Continues b c) : Continues a c :=
  ⟨fun hstate => h'.alive (h.alive hstate), h'.bound_eq.trans h.bound_eq,
    h'.peer_eq.trans h.peer_eq, fun hheaded => h'.headed (h.headed hheaded)⟩

/-! ### Finding an event -/

/-- The event carries no answer of a session manager. -/
def LoopEvent.isSilent : LoopEvent → Bool
  | .sessionResult _ _ => false
  | _ => true

/-- An entry was handed to the manager of its stream. -/
structure Delivered (id : TransportStreamId) (before after : Call)
    (context context' : TransportStreamContext) (entry : SessionEntry) : Prop where
  deliveries_eq : after.deliveries =
    before.deliveries ++ [⟨id, entry, (SessionManager.processEntry entry context.manager).1⟩]
  manager_eq : context'.manager = (SessionManager.processEntry entry context.manager).2
  header_eq : context'.currentGlobalHeader = context.currentGlobalHeader
  awaiting_eq : context'.awaitingSessionInit = context.awaitingSessionInit
  state_eq : context'.state = context.state

/-- What was found: an entry that meets `accepts` and the manager's answer to it, or something
that no session knows of. -/
inductive Observed (id : TransportStreamId) (before after : Call)
    (context context' : TransportStreamContext) (accepts : SessionEntry → Prop) :
    LoopEvent → Prop where
  | silent {event : LoopEvent} (hevent : event.isSilent)
      (hdeliveries : after.deliveries = before.deliveries)
      (hsessions : context'.manager.activeSessions = context.manager.activeSessions) :
      Observed id before after context context' accepts event
  | delivered {entry : SessionEntry} (haccepts : accepts entry)
      (hdelivered : Delivered id before after context context' entry) :
      Observed id before after context context' accepts
        (.sessionResult entry.header.sequenceNo
          (SessionManager.processEntry entry context.manager).1)

section Events

variable {call : Call} {context : TransportStreamContext}

theorem observeGlobalHeader_activeSessions (header : GlobalHeader) (m : SessionManager) :
    (SessionManager.observeGlobalHeader header m).2.activeSessions = m.activeSessions := by
  rw [SessionManager.observeGlobalHeader, bind_apply, lift_apply]
  rcases validateGlobalFlags header.flags with e | ⟨⟩ <;> rfl

section

variable (hlookup : call.transport.streams.lookup id = some context)
include hlookup

/-- A Global Header: it is remembered, and the stream waits for its session unless the header is
refused. -/
theorem observeHeader_eq (header : GlobalHeader) :
    ∃ event context', observeHeader id header call = (.ok event, setContext id context' call) ∧
      event.isSilent ∧ Continues context context' ∧
      context'.currentGlobalHeader = some header ∧
      context'.manager.activeSessions = context.manager.activeSessions := by
  have hheaded : ∀ context' : TransportStreamContext,
      context'.currentGlobalHeader = some header → Headed context → Headed context' :=
    fun context' h _ => Or.inr ⟨header, h⟩
  rw [observeHeader, transport_bind, bind_apply, modifyContext_of_some hlookup, andThen_ok,
    bind_apply, context_of_some (lookup_setContext _), andThen_ok]
  by_cases htls : call.transport.policy = .tcp ∧ usesTlsExporter header
  · rw [if_pos htls]
    exact ⟨_, _, rfl, rfl, ⟨fun h => h, rfl, rfl, hheaded _ rfl⟩, rfl, rfl⟩
  · rw [if_neg htls]
    dsimp only
    rw [bind_apply, modifyContext_of_some (lookup_setContext _), andThen_ok, setContext_setContext]
    have hsessions := observeGlobalHeader_activeSessions header context.manager
    rcases hobserve : SessionManager.observeGlobalHeader header context.manager with
      ⟨e | ⟨⟩, manager⟩ <;> rw [hobserve] at hsessions
    · exact ⟨_, _, rfl, rfl, ⟨fun h => h, rfl, rfl, hheaded _ rfl⟩, rfl, hsessions⟩
    · dsimp only
      rw [bind_apply, modifyContext_of_some (lookup_setContext _), andThen_ok,
        setContext_setContext]
      exact ⟨_, _, rfl, rfl, ⟨fun _ => rfl, rfl, rfl, hheaded _ rfl⟩, rfl, hsessions⟩

/-- The time of an entry touches nothing else. -/
theorem recordActivity_eq (nowMs : Option UInt64) :
    ∃ after, recordActivity id nowMs call = (.ok (), after) ∧
      Touched id call.transport after.transport (withActivity nowMs context) ∧
      after.deliveries = call.deliveries := by
  cases nowMs with
  | none => exact ⟨call, rfl, Touched.refl hlookup, rfl⟩
  | some now =>
    refine ⟨noteActivity (some now) (setContext id (withActivity (some now) context) call), ?_, ?_,
      rfl⟩
    · rw [recordActivity, bind_apply, modifyContext_of_some hlookup]
      rfl
    · obtain ⟨tables, hne, hself⟩ :=
        @touched_setContext id call (withActivity (some now) context)
      exact ⟨⟨tables.active, tables.uuids, tables.headers, tables.attachments, tables.tls,
        tables.config, tables.policy⟩, hne, hself⟩

/-- An entry is given its time and handed to the manager. -/
theorem recordActivity_deliver (nowMs : Option UInt64) (entry : SessionEntry) :
    ∃ after context',
      (do recordActivity id nowMs; deliver id entry : CallM LoopEvent) call =
        (.ok (.sessionResult entry.header.sequenceNo
          (SessionManager.processEntry entry context.manager).1), after) ∧
      Touched id call.transport after.transport context' ∧ Unmoved context context' ∧
      Delivered id call after context context' entry := by
  obtain ⟨noted, hrun, hnoted, hdeliveries⟩ := recordActivity_eq hlookup nowMs
  rw [bind_apply, hrun, andThen_ok, deliver, bind_apply, context_of_some hnoted.lookup_self,
    andThen_ok]
  dsimp only
  rw [bind_apply, modifyContext_of_some hnoted.lookup_self]
  refine ⟨_, _, rfl, hnoted.trans (touched_setContext noted _), ?_, ?_⟩
  · exact ⟨rfl, rfl, rfl, rfl, rfl, rfl⟩
  · exact ⟨congrArg (· ++ _) hdeliveries, rfl, rfl, rfl, rfl⟩

end

/-- What `run_feed_loop` hands to a manager: an entry that is encrypted where the stream's binding
asks for it. -/
def FeedAccepts (t : InMemoryTransport) (context : TransportStreamContext)
    (entry : SessionEntry) : Prop :=
  t.plaintextAfterBinding context.boundSarStreamId entry.header = false

theorem observeEntry_eq (hlookup : call.transport.streams.lookup id = some context)
    (nowMs : Option UInt64) (entry : EntryReader) :
    ∃ event after context', observeEntry id nowMs entry call = (.ok event, after) ∧
      Touched id call.transport after.transport context' ∧ Continues context context' ∧
      Observed id call after context context'
        (fun delivered => FeedAccepts call.transport context delivered ∧
          delivered = ⟨entry.header, entry.payload, false⟩) event := by
  obtain ⟨noted, hrun, hnoted, hdeliveries⟩ := recordActivity_eq hlookup nowMs
  rw [observeEntry, bind_apply, hrun, andThen_ok, transport_bind, bind_apply,
    context_of_some hnoted.lookup_self, andThen_ok]
  have hguard : noted.transport.plaintextAfterBinding
      (withActivity nowMs context).boundSarStreamId entry.header =
      call.transport.plaintextAfterBinding context.boundSarStreamId entry.header := by
    rw [plaintextAfterBinding, hnoted.tables.tls]
    rfl
  rw [hguard]
  by_cases hplain : call.transport.plaintextAfterBinding context.boundSarStreamId entry.header =
      true
  · rw [if_pos hplain]
    exact ⟨_, noted, _, rfl, hnoted, ⟨fun h => h, rfl, rfl, fun h => h⟩,
      .silent rfl hdeliveries rfl⟩
  · rw [if_neg hplain]
    obtain ⟨after, context', hboth, htouched, hunmoved, hdelivered⟩ :=
      recordActivity_deliver hlookup nowMs ⟨entry.header, entry.payload, false⟩
    rw [bind_apply, hrun, andThen_ok] at hboth
    rw [hboth]
    exact ⟨_, after, context', rfl, htouched, hunmoved.continues,
      .delivered ⟨Bool.eq_false_iff.mpr hplain, rfl⟩ hdelivered⟩

/-- An entry that the feed loop delivers: it is accepted, the parser has just read it, and the
stream has a Global Header. -/
structure FeedDelivers (backend : Backend) (t : InMemoryTransport)
    (context : TransportStreamContext) (entry : SessionEntry) : Prop where
  accepts : FeedAccepts t context entry
  headed : Headed context → ∃ header, context.currentGlobalHeader = some header
  read : ∃ reader parser,
    StreamArchiveParser.step backend context.parser = (.ok (.ready (.entry reader)), parser) ∧
      entry = ⟨reader.header, reader.payload, false⟩

/-- **One event of the feed loop.** Only the stream's own context changes, and an entry reaches
the manager only when the stream has a Global Header. -/
theorem feedEvent_observed (backend : Backend)
    (hlookup : call.transport.streams.lookup id = some context) (nowMs : Option UInt64) :
    ∃ event after context', feedEvent backend id nowMs call = (.ok event, after) ∧
      Touched id call.transport after.transport context' ∧ Continues context context' ∧
      Observed id call after context context' (FeedDelivers backend call.transport context)
        event := by
  rcases hstep : StreamArchiveParser.step backend context.parser with ⟨result, parser⟩
  -- the context with the parser that took its step
  have hparsed : (setContext id { context with parser := parser } call).transport.streams.lookup
      id = some { context with parser := parser } := lookup_setContext _
  have htouched := @touched_setContext id call { context with parser := parser }
  have hheaded : (∀ header, result ≠ .ok (.ready (.globalHeader header))) → Headed context →
      Headed { context with parser := parser } := by
    intro hno hheaded
    rcases hheaded with hout | hheader
    · rcases StreamArchiveParser.outside_step backend hout hstep with hstill | ⟨header, heq⟩
      · exact Or.inl hstill
      · exact absurd heq (hno header)
    · exact Or.inr hheader
  have hcontinues : (∀ header, result ≠ .ok (.ready (.globalHeader header))) →
      Continues context { context with parser := parser } := fun hno =>
    ⟨fun h => h, rfl, rfl, hheaded hno⟩
  rw [feedEvent_of_some hlookup hstep]
  rcases result with error | (needed | (header | entry | summary) | _)
  · exact ⟨_, _, _, rfl, htouched, hcontinues (fun _ h => nomatch h), .silent rfl rfl rfl⟩
  · exact ⟨_, _, _, rfl, htouched, hcontinues (fun _ h => nomatch h), .silent rfl rfl rfl⟩
  · obtain ⟨event, context', hrun, hsilent, hcont, hheader, hsessions⟩ :=
      observeHeader_eq hparsed header
    refine ⟨event, _, context', hrun, htouched.trans (touched_setContext _ _), ?_, ?_⟩
    · exact ⟨hcont.alive, hcont.bound_eq, hcont.peer_eq, fun _ => Or.inr ⟨header, hheader⟩⟩
    · exact .silent hsilent rfl hsessions
  · obtain ⟨event, after, context', hrun, hobserved, hcont, hkind⟩ :=
      observeEntry_eq hparsed nowMs entry
    refine ⟨event, after, context', hrun, htouched.trans hobserved, ?_, ?_⟩
    · exact (hcontinues fun _ h => nomatch h).trans hcont
    · cases hkind with
      | silent hevent hdeliveries hsessions => exact .silent hevent hdeliveries hsessions
      | delivered haccepts hdelivered =>
        obtain ⟨hguard, heq⟩ := haccepts
        refine .delivered ⟨hguard, fun h => ?_, ⟨entry, parser, hstep, heq⟩⟩ ?_
        · -- the parser reported an entry, so it was inside an archive
          rcases h with hout | hheader
          · exact absurd hout (StreamArchiveParser.not_outside_of_step_entry backend hstep)
          · exact hheader
        · exact ⟨hdelivered.deliveries_eq, hdelivered.manager_eq, hdelivered.header_eq,
            hdelivered.awaiting_eq, hdelivered.state_eq⟩
  · rw [show observeStep id nowMs (.ok (.ready (.archiveComplete summary))) =
      observeArchiveComplete id from rfl, observeArchiveComplete, bind_apply,
      modifyContext_of_some hparsed]
    refine ⟨_, _, _, rfl, htouched.trans (touched_setContext _ _), ?_, .silent rfl rfl rfl⟩
    exact ⟨fun _ => rfl, rfl, rfl, hheaded fun _ h => nomatch h⟩
  · exact ⟨_, _, _, rfl, htouched, hcontinues (fun _ h => nomatch h), .silent rfl rfl rfl⟩

/-- What `run_additional_control_stream_loop` hands to a manager: entries of the session that the
stream is attached to. -/
structure ControlAccepts (t : InMemoryTransport) (id : TransportStreamId) (entry : SessionEntry) :
    Prop where
  attached : t.controlStreamAttachments.lookup id = some entry.header.streamId
  carries : entry.carries .ack ∨ entry.carries .status ∨ entry.carries .capabilities
  encrypted : entry.header.streamId ∈ t.tlsExporterBound → entry.header.entryMode.isEncrypted

/-- What a control loop keeps of the context, which is the one of a control stream. -/
structure ControlKept (t : InMemoryTransport) (id : TransportStreamId)
    (context context' : TransportStreamContext) : Prop extends Unmoved context context' where
  attached : ∃ sar, t.controlStreamAttachments.lookup id = some sar

theorem controlPlaintext_accepts {backend : Backend} {sar : UInt16} {header : GlobalHeader}
    {lfh : LocalFileHeader} {lfhBytes payload plaintext : Bytes}
    (hattached : t.controlStreamAttachments.lookup id = some sar)
    (h : controlPlaintext backend t sar header lfh lfhBytes payload = .ok plaintext) :
    ControlAccepts t id ⟨lfh, plaintext, false⟩ := by
  obtain ⟨⟨⟩, hvalid, h⟩ := Except.bind_eq_ok_iff.mp h
  simp only [validateAdditionalControlEntry, Except.bind_eq_ok_iff, Except.exists_unit,
    Except.rejectIf_eq_ok_iff, not_not] at hvalid
  obtain ⟨rfl, hcontrol, op, hop, hvalid⟩ := hvalid
  rw [Bool.not_eq_true', Bool.not_eq_false] at hcontrol
  refine ⟨hattached, ?_, fun hbound => ?_⟩
  · cases op with
    | ack => exact Or.inl ⟨hcontrol, hop⟩
    | status => exact Or.inr (Or.inl ⟨hcontrol, hop⟩)
    | capabilities => exact Or.inr (Or.inr ⟨hcontrol, hop⟩)
    | init | close | resume | heartbeat | metadata => contradiction
  · rw [if_pos hbound] at h
    split at h
    · cases h
    · next hencrypted => simpa using hencrypted

/-- **One event of the control loop.** Only the stream's own context changes, and an entry that
reaches the manager belongs to the session that the stream is attached to. -/
theorem controlEvent_observed (backend : Backend) (id : TransportStreamId) (call : Call)
    (nowMs : Option UInt64) :
    (∃ e, controlEvent backend id nowMs call = (.error e, call)) ∨
    ∃ context event after context', call.transport.streams.lookup id = some context ∧
      controlEvent backend id nowMs call = (.ok event, after) ∧
      Touched id call.transport after.transport context' ∧
      ControlKept call.transport id context context' ∧
      Observed id call after context context' (ControlAccepts call.transport id) event := by
  rw [controlEvent, transport_bind, bind_apply, lift_apply]
  cases hattached : call.transport.controlStreamAttachments.lookup id with
  | none => exact Or.inl ⟨_, rfl⟩
  | some sar =>
    rw [okOr_some, andThen_ok, bind_apply, lift_apply]
    cases call.transport.activeGlobalHeaders.lookup sar with
    | none => exact Or.inl ⟨_, rfl⟩
    | some header =>
      rw [okOr_some, andThen_ok, bind_apply]
      cases hlookup : call.transport.streams.lookup id with
      | none =>
        rw [context_of_none hlookup]
        exact Or.inl ⟨_, rfl⟩
      | some context =>
        rw [context_of_some hlookup, andThen_ok]
        refine Or.inr ⟨context, ?_⟩
        have hsilent : ∀ ev : LoopEvent, ev.isSilent →
            ∃ event after context', some context = some context ∧
              (pure ev : CallM LoopEvent) call = (.ok event, after) ∧
              Touched id call.transport after.transport context' ∧
              ControlKept call.transport id context context' ∧
              Observed id call after context context' (ControlAccepts call.transport id)
                event := by
          intro ev hev
          refine ⟨ev, call, context, rfl, rfl, Touched.refl hlookup, ?_, ?_⟩
          · exact ⟨⟨rfl, rfl, rfl, rfl, rfl, rfl⟩, sar, hattached⟩
          · exact .silent hev rfl rfl
        rcases hnext : nextControlEntry context.limits header.flags context.quicPendingBytes with
          error | (_ | ⟨lfh, lfhBytes, payload⟩)
        · exact hsilent _ rfl
        · exact hsilent _ rfl
        · dsimp only
          rcases hplain : controlPlaintext backend call.transport sar header lfh lfhBytes payload
            with error | plaintext
          · exact hsilent _ rfl
          · -- the entry's bytes leave the buffer, and the entry goes to the manager
            dsimp only
            rw [bind_apply, modifyContext_of_some hlookup, andThen_ok]
            have hset := @touched_setContext id call
              { context with
                quicPendingBytes :=
                  context.quicPendingBytes.drop (lfhBytes.length + payload.length) }
            obtain ⟨after, context', hrun, htouched, hunmoved, hdelivered⟩ :=
              recordActivity_deliver hset.lookup_self nowMs ⟨lfh, plaintext, false⟩
            refine ⟨_, after, context', rfl, hrun, hset.trans htouched, ?_, ?_⟩
            · exact ⟨⟨hunmoved.state_eq, hunmoved.bound_eq, hunmoved.awaiting_eq, hunmoved.peer_eq,
                hunmoved.parser_eq, hunmoved.header_eq⟩, sar, hattached⟩
            · refine .delivered (controlPlaintext_accepts hattached hplain) ?_
              exact ⟨hdelivered.deliveries_eq, hdelivered.manager_eq, hdelivered.header_eq,
                hdelivered.awaiting_eq, hdelivered.state_eq⟩

end Events

/-! ### Handling an event -/

/-- The shapes of a manager's answer. -/
inductive Answer : Except SarError ProcessResult → Prop where
  | activated (sar : UInt16) (uuid : Octets 16) (flags : SessionFlags) :
      Answer (.ok (.single (.sessionActivated sar uuid flags)))
  | closed (sar : UInt16) (uuid : Octets 16) (actions : List SessionAction) :
      Answer (.ok ⟨[.sessionClosed sar uuid], actions⟩)
  | inactive (sar : UInt16) (opCode : UInt8) (control : Bool) :
      Answer (.ok (.single (.statefulInactive sar opCode control)))
  | accepted {events : List SessionEvent} (hevents : ∀ event ∈ events, event.keepsBinding) :
      Answer (.ok ⟨events, []⟩)
  | refused (error : SarError) : Answer (.error error)

theorem answer_of_outcome {m : SessionManager} {entry : SessionEntry}
    {result : Except SarError ProcessResult} {session : Option ActiveSession}
    (h : SessionManager.Outcome m entry result session) : Answer result := by
  cases h with
  | activated => exact .activated _ _ _
  | closed => exact .closed _ _ _
  | inactive => exact .inactive _ _ _
  | accepted _ _ _ _ hevents => exact .accepted hevents
  | refused => exact .refused _

theorem answer_processEntry (m : SessionManager) (entry : SessionEntry) :
    Answer (SessionManager.processEntry entry m).1 :=
  answer_of_outcome (SessionManager.processEntry_processed m entry).outcome

/-- What an accepted activation needs. -/
theorem activationRefusal_eq_none {sar : UInt16} {flags : SessionFlags}
    (h : t.activationRefusal sar flags = none) :
    sar ≠ 0 ∧ t.activeSarStreams.lookup sar = none ∧
      t.activeSarStreams.size < t.config.maxActiveSarStreams := by
  rw [activationRefusal] at h
  split at h
  · exact nomatch h
  · next hzero =>
    split at h
    · exact nomatch h
    · next hfree =>
      split at h
      · exact nomatch h
      · next hroom =>
        exact ⟨hzero, Option.not_isSome_iff_eq_none.mp hfree, Nat.not_le.mp hroom⟩

/-- Whether a session event makes the transport reject the stream. -/
def rejectsEvent (t : InMemoryTransport) (id : TransportStreamId) : SessionEvent → Bool
  | .sessionActivated sar _ flags => (t.activationRefusal sar flags).isSome
  | .statefulInactive _ _ _ => (t.streams.lookup id).any (·.awaitingSessionInit)
  | _ => false

/-- Whether an event of a loop makes the transport reject the stream. -/
def rejects (t : InMemoryTransport) (id : TransportStreamId) : LoopEvent → Bool
  | .parserError _ | .sessionResult _ (.error _) => true
  | .sessionResult _ (.ok result) => result.events.any (t.rejectsEvent id)
  | .needMore | .complete | .continue => false

/-- All that the handling of an event can do. -/
inductive Handled (id : TransportStreamId) (before after : Call) : LoopEvent → Prop where
  /-- Nothing but actions, rejected ids and the peer's capabilities. This is also what a rejection
  or an acknowledgement that fails leaves behind. -/
  | quiet {event : LoopEvent} (hquiet : Quietly id before after) : Handled id before after event
  | rejected {event : LoopEvent} {rejected : Finset UInt16}
      (hrejects : before.transport.rejects id event)
      (htransport : after.transport = markRejected id rejected before.transport)
      (hdeliveries : after.deliveries = before.deliveries) : Handled id before after event
  | activated {seq sar : UInt16} {uuid : Octets 16} {flags : SessionFlags}
      (haccept : before.transport.activationRefusal sar flags = none)
      (htransport : after.transport = activated id sar uuid before.transport)
      (hdeliveries : after.deliveries = before.deliveries) :
      Handled id before after
        (.sessionResult seq (.ok (.single (.sessionActivated sar uuid flags))))
  | closed {seq sar : UInt16} {uuid : Octets 16} {actions : List SessionAction}
      {rejected : Finset UInt16} {state : TransportStreamState}
      (hstate : state.isTerminal = false)
      (htransport : after.transport =
        deactivated id sar state { before.transport with rejectedSarStreamIds := rejected })
      (hdeliveries : after.deliveries = before.deliveries) :
      Handled id before after (.sessionResult seq (.ok ⟨[.sessionClosed sar uuid], actions⟩))

section Handle

variable {call : Call}

/-- Notes that were made before a rejection are notes of the rejection. -/
theorem RejectOutcome.of_notes {before : Call} {r : Result Unit × Call}
    (h : RejectOutcome id call r) (hnotes : Notes before call) : RejectOutcome id before r := by
  cases h with
  | @done _ rejected htransport hdeliveries =>
    obtain ⟨⟨_, heq⟩, hsame⟩ := hnotes
    refine @RejectOutcome.done id before _ rejected ?_ (hdeliveries.trans hsame)
    rw [htransport, heq]
    rfl
  | failed hafter => exact .failed (hnotes.trans hafter)

/-- A rejection that the event asks for. -/
theorem RejectOutcome.handled {event : LoopEvent} {r : Result Unit × Call}
    (h : RejectOutcome id call r) (hrejects : call.transport.rejects id event) :
    Handled id call r.2 event := by
  cases h with
  | done htransport hdeliveries => exact .rejected hrejects htransport hdeliveries
  | failed hnotes => exact .quiet hnotes.quietly

/-- What follows a program in a turn does not touch the state. -/
theorem andThen_pure_snd {α β : Type} (r : Result α × Call) (b : β) :
    (andThen r fun _ => (pure b : CallM β)).2 = r.2 := by
  obtain ⟨e | a, c⟩ := r <;> rfl

/-- **Handling an event**, for the answers that managers give. -/
theorem handleLoopEvent_handled (id : TransportStreamId) (call : Call) {event : LoopEvent}
    (hanswer : ∀ seq result, event = .sessionResult seq result → Answer result) :
    Handled id call (handleLoopEvent id event call).2 event := by
  have herror : ∀ error, call.transport.rejects id event →
      Handled id call (andThen (policyErrorActions id error call) fun _ =>
        (pure false : CallM Bool)).2 event := by
    intro error hrejects
    rw [andThen_pure_snd]
    exact (policyErrorActions_outcome error).handled hrejects
  cases event with
  | needMore | complete | «continue» => exact .quiet (Quietly.refl call)
  | parserError error => exact herror error rfl
  | sessionResult seq result =>
    cases hanswer seq result rfl with
    | refused error => exact herror error rfl
    | activated sar uuid flags =>
      rw [handleLoopEvent, bind_apply, andThen_pure_snd]
      have hactivated := @processSessionResult_activated id call sar uuid flags seq
      rcases hrun : processSessionResult id (.single (.sessionActivated sar uuid flags)) seq call
        with ⟨r, after⟩
      rw [hrun] at hactivated
      cases hactivated with
      | refused hrefusal hreject =>
        refine hreject.handled ?_
        rw [rejects, ProcessResult.single, any_cons, rejectsEvent, hrefusal]
        rfl
      | bound haccept htransport hdeliveries => exact .activated haccept htransport hdeliveries
    | closed sar uuid actions =>
      rw [handleLoopEvent, bind_apply, andThen_pure_snd]
      have hclose := @processSessionResult_closed id call sar uuid actions seq
      rcases hrun : processSessionResult id ⟨[.sessionClosed sar uuid], actions⟩ seq call
        with ⟨r, after⟩
      rw [hrun] at hclose
      cases hclose with
      | unacknowledged hnotes => exact .quiet hnotes.quietly
      | unannounced htransport hdeliveries =>
        obtain ⟨rejected, htransport⟩ := htransport
        exact .closed rfl htransport hdeliveries
      | done htransport hdeliveries =>
        obtain ⟨rejected, htransport⟩ := htransport
        exact .closed rfl htransport hdeliveries
    | inactive sar opCode control =>
      rw [handleLoopEvent, bind_apply, andThen_pure_snd]
      rcases @processSessionResult_inactive id call sar opCode control seq with
        ⟨context, hcontext, hawait, hreject⟩ | hsame
      · refine hreject.handled ?_
        rw [rejects, ProcessResult.single, any_cons, rejectsEvent, hcontext, Option.any_some,
          hawait]
        rfl
      · rw [hsame]
        exact .quiet (Quietly.refl call)
    | accepted hevents =>
      rw [handleLoopEvent, bind_apply, andThen_pure_snd]
      exact .quiet (processSessionResult_quietly hevents seq)

/-- Handling an event hands nothing to a manager. -/
theorem Handled.deliveries_eq {before after : Call} {event : LoopEvent}
    (h : Handled id before after event) : after.deliveries = before.deliveries := by
  cases h with
  | quiet hquiet => exact hquiet.deliveries_eq
  | rejected _ _ hdeliveries => exact hdeliveries
  | activated _ _ hdeliveries => exact hdeliveries
  | closed _ _ hdeliveries => exact hdeliveries

end Handle

/-! ### Turns -/

/-- What a turn can do: an event is found and then handled, unless the stream does not exist.
Finding the event keeps what `kept` says of the context. -/
inductive Turned (find : CallM LoopEvent) (id : TransportStreamId)
    (kept : TransportStreamContext → TransportStreamContext → Prop)
    (accepts : TransportStreamContext → SessionEntry → Prop) (before after : Call) : Prop where
  | missing (hafter : after = before)
  | found {event : LoopEvent} {found : Call} {context context' : TransportStreamContext}
      (hfind : find before = (.ok event, found))
      (hlookup : before.transport.streams.lookup id = some context)
      (htouched : Touched id before.transport found.transport context')
      (hkept : kept context context')
      (hobserved : Observed id before found context context' (accepts context) event)
      (hhandled : Handled id found after event)

section Answers

variable {before after : Call} {context context' : TransportStreamContext}
  {accepts : SessionEntry → Prop} {event : LoopEvent}

/-- An answer belongs to an entry that was delivered. -/
theorem Observed.exists_delivered (h : Observed id before after context context' accepts event)
    {seq : UInt16} {result : Except SarError ProcessResult}
    (hevent : event = .sessionResult seq result) :
    ∃ entry, accepts entry ∧ Delivered id before after context context' entry ∧
      seq = entry.header.sequenceNo ∧
      result = (SessionManager.processEntry entry context.manager).1 := by
  cases h with
  | silent hsilent =>
    rw [hevent] at hsilent
    exact nomatch hsilent
  | delivered haccepts hdelivered =>
    obtain ⟨hseq, hresult⟩ := LoopEvent.sessionResult.inj hevent
    exact ⟨_, haccepts, hdelivered, hseq.symm, hresult.symm⟩

/-- Every answer in an observed event comes from a manager. -/
theorem Observed.answer (h : Observed id before after context context' accepts event) {seq : UInt16}
    {result : Except SarError ProcessResult} (hevent : event = .sessionResult seq result) :
    Answer result := by
  obtain ⟨entry, -, -, -, rfl⟩ := h.exists_delivered hevent
  exact answer_processEntry _ entry

/-- Control streams neither start nor end a session. -/
theorem ControlAccepts.not_carries {entry : SessionEntry} {op : SessionOpCode}
    (h : ControlAccepts t id entry) (hop : op = .init ∨ op = .close) : ¬ entry.carries op := by
  intro hcarries
  have hne : ∀ op', entry.carries op' → op' = op := fun op' h' =>
    Except.ok.inj (h'.2.symm.trans hcarries.2)
  rcases h.carries with hack | hstatus | hcapabilities
  · rcases hop with rfl | rfl <;> exact nomatch hne _ hack
  · rcases hop with rfl | rfl <;> exact nomatch hne _ hstatus
  · rcases hop with rfl | rfl <;> exact nomatch hne _ hcapabilities

/-- Handling an event of a control stream changes no binding. -/
theorem Observed.handled_control {handled : Call}
    (h : Observed id before after context context' (ControlAccepts t id) event)
    (hhandled : Handled id after handled event) :
    Quietly id after handled ∨ ∃ rejected, after.transport.rejects id event ∧
      handled.transport = markRejected id rejected after.transport ∧
      handled.deliveries = after.deliveries := by
  cases hhandled with
  | quiet hquiet => exact Or.inl hquiet
  | rejected hrejects htransport hdeliveries =>
    exact Or.inr ⟨_, hrejects, htransport, hdeliveries⟩
  | activated =>
    obtain ⟨entry, haccepts, -, -, hresult⟩ := h.exists_delivered rfl
    obtain ⟨hinit, -⟩ := SessionManager.processEntry_eq_activated hresult.symm
    exact absurd hinit (haccepts.not_carries (Or.inl rfl))
  | closed =>
    obtain ⟨entry, haccepts, -, -, hresult⟩ := h.exists_delivered rfl
    obtain ⟨hclose, -⟩ := SessionManager.processEntry_eq_closed hresult.symm
    exact absurd hclose (haccepts.not_carries (Or.inr rfl))

end Answers

/-- All that a turn of the feed loop can do. -/
abbrev FeedTurned (backend : Backend) (id : TransportStreamId) (nowMs : Option UInt64)
    (before after : Call) : Prop :=
  Turned (feedEvent backend id nowMs) id Continues (FeedDelivers backend before.transport) before
    after

/-- All that a turn of the control loop can do. -/
abbrev ControlTurned (backend : Backend) (id : TransportStreamId) (nowMs : Option UInt64)
    (before after : Call) : Prop :=
  Turned (controlEvent backend id nowMs) id (ControlKept before.transport id)
    (fun _ => ControlAccepts before.transport id) before after

theorem feedTurn_turned (backend : Backend) (id : TransportStreamId) (nowMs : Option UInt64)
    (call : Call) : FeedTurned backend id nowMs call (feedTurn backend id nowMs call).2 := by
  rw [feedTurn, bind_apply]
  cases hlookup : call.transport.streams.lookup id with
  | none =>
    refine .missing ?_
    rw [feedEvent, bind_apply, context_of_none hlookup]
    rfl
  | some context =>
    obtain ⟨event, found, context', hfind, htouched, hcontinues, hobserved⟩ :=
      feedEvent_observed backend hlookup nowMs
    rw [hfind, andThen_ok]
    exact .found hfind hlookup htouched hcontinues hobserved
      (handleLoopEvent_handled id found fun _ _ h => hobserved.answer h)

theorem controlTurn_turned (backend : Backend) (id : TransportStreamId) (nowMs : Option UInt64)
    (call : Call) : ControlTurned backend id nowMs call (controlTurn backend id nowMs call).2 := by
  rw [controlTurn, bind_apply]
  rcases controlEvent_observed backend id call nowMs with ⟨e, hfailed⟩ |
    ⟨context, event, found, context', hlookup, hfind, htouched, hkept, hobserved⟩
  · rw [hfailed]
    exact .missing rfl
  · rw [hfind, andThen_ok]
    exact .found hfind hlookup htouched hkept hobserved
      (handleLoopEvent_handled id found fun _ _ h => hobserved.answer h)

/-- A control loop binds and clears nothing. -/
theorem Turned.sameTables {backend : Backend} {nowMs : Option UInt64} {before after : Call}
    (h : ControlTurned backend id nowMs before after) :
    SameTables before.transport after.transport := by
  cases h with
  | missing hafter =>
    rw [hafter]
    exact SameTables.refl _
  | found _ _ htouched _ hobserved hhandled =>
    refine htouched.tables.trans ?_
    rcases hobserved.handled_control hhandled with hquiet | ⟨rejected, -, htransport, -⟩
    · exact hquiet.sameTables
    · rw [htransport]
      exact sameTables_markRejected id _ _

/-! ### The start of a feed -/

/-- A QUIC stream that awaits a Global Header. -/
structure Fresh (id : TransportStreamId) (t : InMemoryTransport)
    (context : TransportStreamContext) : Prop where
  policy_eq : t.policy = .quic
  lookup_eq : t.streams.lookup id = some context
  unattached : t.controlStreamAttachments.lookup id = none
  state_eq : context.state = .awaitingGlobalHeader

/-- Bytes that leave a fresh QUIC stream waiting or start an archive on it. -/
def startsQuietly (parser : StreamArchiveParser) (pending : Bytes) : Bool :=
  if pending.length < 4 then true
  else if pending.take 4 = magic then (StreamArchiveParser.pushBytes pending parser).1.toBool
  else pending.take 4 != controlMagic && pending.length < 8

/-- The context of a control stream that was just attached. -/
def attachedContext (sar : UInt16) (context : TransportStreamContext) (manager : SessionManager) :
    TransportStreamContext :=
  { context with
    state := .active, boundSarStreamId := some sar, awaitingSessionInit := false
    manager := manager }

/-- All that `feed_bytes` can do before its loop. -/
inductive Routed (id : TransportStreamId) (bytes : Bytes) (before : Call) :
    Result Route × Call → Prop where
  | failed (error : SarError) : Routed id bytes before (.error error, before)
  | pushed {context : TransportStreamContext} {parser : StreamArchiveParser} {r : Result Unit}
      (hlookup : before.transport.streams.lookup id = some context)
      (hfree : before.transport.policy = .quic →
        before.transport.controlStreamAttachments.lookup id = none)
      (halive : context.state.isTerminal = false)
      (hpush : StreamArchiveParser.pushBytes bytes context.parser = (r, parser)) :
      Routed id bytes before
        (r.map fun _ => .feed, setContext id { context with parser := parser } before)
  | control {context : TransportStreamContext} {sar : UInt16}
      (hlookup : before.transport.streams.lookup id = some context)
      (hattached : before.transport.controlStreamAttachments.lookup id = some sar) :
      Routed id bytes before
        (.ok .control, setContext id
          { context with quicPendingBytes := context.quicPendingBytes ++ bytes } before)
  | buffered {context : TransportStreamContext} (hfresh : Fresh id before.transport context) :
      Routed id bytes before
        (.ok .done, setContext id
          { context with quicPendingBytes := context.quicPendingBytes ++ bytes } before)
  | started {context : TransportStreamContext} {parser : StreamArchiveParser}
      (hfresh : Fresh id before.transport context)
      (hpush : StreamArchiveParser.pushBytes (context.quicPendingBytes ++ bytes) context.parser =
        (.ok (), parser)) :
      Routed id bytes before
        (.ok .feed, setContext id { context with parser := parser, quicPendingBytes := [] } before)
  | refused {context context' : TransportStreamContext} {r : Result Unit × Call}
      (hfresh : Fresh id before.transport context)
      (hloud : startsQuietly context.parser (context.quicPendingBytes ++ bytes) = false)
      (hcontinues : Continues context context')
      (hmanager : context'.manager = context.manager)
      (hreject : RejectOutcome id (setContext id context' before) r) :
      Routed id bytes before (r.1.map fun _ => .done, r.2)
  | attached {context : TransportStreamContext} {sar : UInt16} {manager : SessionManager}
      {r : Result Route} {after : Call} (hfresh : Fresh id before.transport context)
      (hloud : startsQuietly context.parser (context.quicPendingBytes ++ bytes) = false)
      (hactive : sar ∈ before.transport.activeSarStreams)
      (hroute : ∀ goal, r = .ok goal → goal = .control)
      (hsessions : manager.activeSessions = context.manager.activeSessions)
      (htouched : Touched id
        { before.transport with
          controlStreamAttachments := before.transport.controlStreamAttachments.insert id sar }
        after.transport
        (attachedContext sar
          { context with quicPendingBytes := context.quicPendingBytes ++ bytes } manager))
      (hdeliveries : after.deliveries = before.deliveries) :
      Routed id bytes before (r, after)

section Route

variable {call : Call} {context : TransportStreamContext} {bytes : Bytes}

theorem routeParser_routed (hlookup : call.transport.streams.lookup id = some context)
    (hfree : call.transport.policy = .quic →
      call.transport.controlStreamAttachments.lookup id = none) :
    Routed id bytes call (routeParser id bytes call) := by
  rw [routeParser, bind_apply, context_of_some hlookup, andThen_ok, bind_apply, lift_apply]
  by_cases hterminal : context.state.isTerminal = true
  · rw [rejectIf, if_pos hterminal]
    exact .failed _
  · rw [rejectIf, if_neg hterminal, andThen_ok]
    rcases hpush : StreamArchiveParser.pushBytes bytes context.parser with ⟨r, parser⟩
    dsimp only
    rw [bind_apply, modifyContext_of_some hlookup, andThen_ok]
    have hrouted := @Routed.pushed id bytes call context parser r hlookup hfree
      (Bool.eq_false_iff.mpr hterminal) hpush
    rcases r with e | ⟨⟩
    · exact hrouted
    · exact hrouted

theorem refuse_routed {context' : TransportStreamContext} (hfresh : Fresh id call.transport context)
    (hloud : startsQuietly context.parser (context.quicPendingBytes ++ bytes) = false)
    (hcontinues : Continues context context') (hmanager : context'.manager = context.manager)
    (error : SarError) : Routed id bytes call (refuse id error (setContext id context' call)) := by
  have hreject := @policyErrorActions_outcome id (setContext id context' call) error
  rw [refuse, bind_apply]
  have hrouted := Routed.refused hfresh hloud hcontinues hmanager hreject
  rcases hrun : policyErrorActions id error (setContext id context' call) with ⟨e | ⟨⟩, after⟩ <;>
    rw [hrun] at hrouted
  · exact hrouted
  · exact hrouted

theorem joinSession_touched (hlookup : call.transport.streams.lookup id = some context)
    (sar : UInt16) :
    ∃ manager : SessionManager, manager.activeSessions = context.manager.activeSessions ∧
      Touched id call.transport (joinSession id sar call).2.transport
        { context with manager := manager } ∧
      (joinSession id sar call).2.deliveries = call.deliveries ∧
      ∀ goal, (joinSession id sar call).1 = .ok goal → goal = .control := by
  rw [joinSession, transport_bind, bind_apply, lift_apply]
  cases call.transport.activeGlobalHeaders.lookup sar with
  | none => exact ⟨context.manager, rfl, Touched.refl hlookup, rfl, fun _ h => nomatch h⟩
  | some header =>
    rw [okOr_some, andThen_ok, bind_apply, context_of_some hlookup, andThen_ok]
    have hsessions := observeGlobalHeader_activeSessions header context.manager
    rcases hobserve : SessionManager.observeGlobalHeader header context.manager with
      ⟨e | ⟨⟩, manager⟩ <;> rw [hobserve] at hsessions
    · refine ⟨manager, hsessions, ?_⟩
      dsimp only
      rw [bind_apply, modifyContext_of_some hlookup]
      exact ⟨touched_setContext call _, rfl, fun _ h => nomatch h⟩
    · refine ⟨manager, hsessions, ?_⟩
      dsimp only
      rw [bind_apply, modifyContext_of_some hlookup, andThen_ok, bind_apply, lift_apply, andThen_ok,
        bind_apply, andThen_pure_snd]
      obtain ⟨htransport, hdeliveries⟩ := @pushAction_snd
        (setContext id { context with manager := manager } call) (.attachControlStream id sar)
      rw [htransport, hdeliveries]
      refine ⟨touched_setContext call _, rfl, fun goal h => ?_⟩
      rcases hrun : pushAction (.attachControlStream id sar)
        (setContext id { context with manager := manager } call) with ⟨e | ⟨⟩, after⟩ <;>
        rw [hrun] at h
      · exact nomatch h
      · exact (Except.ok.inj h).symm

/-- The transport after a control stream was entered into the table. -/
theorem attachControlStream_routed {sar : UInt16} (hfresh : Fresh id call.transport context)
    (hloud : startsQuietly context.parser (context.quicPendingBytes ++ bytes) = false)
    (hactive : sar ∈ call.transport.activeSarStreams) :
    Routed id bytes call (attachControlStream id sar
      (setContext id
        { context with quicPendingBytes := context.quicPendingBytes ++ bytes } call)) := by
  let pending := { context with quicPendingBytes := context.quicPendingBytes ++ bytes }
  -- the call with the attachment
  let entered : Call := setContext id pending
    { call with transport := { call.transport with
        controlStreamAttachments := call.transport.controlStreamAttachments.insert id sar } }
  have hjoin : attachControlStream id sar (setContext id pending call) =
      joinSession id sar (setContext id (attachedContext sar pending pending.manager) entered) := by
    change andThen (modifyContext id (fun context =>
        { context with
          state := .active, boundSarStreamId := some sar, awaitingSessionInit := false }) entered)
        (fun _ => joinSession id sar) = _
    rw [modifyContext_of_some (lookup_setContext pending), andThen_ok]
    rfl
  obtain ⟨manager, hsessions, htouched, hdeliveries, hroute⟩ :=
    joinSession_touched (@lookup_setContext id entered
      (attachedContext sar pending pending.manager))
      sar
  rw [hjoin]
  rcases hrun : joinSession id sar
      (setContext id (attachedContext sar pending pending.manager) entered) with ⟨r, after⟩
  rw [hrun] at htouched hdeliveries hroute
  refine Routed.attached hfresh hloud hactive hroute hsessions ?_ hdeliveries
  exact ((touched_setContext _ pending).trans (touched_setContext entered _)).trans htouched

theorem routeLfh_routed (hfresh : Fresh id call.transport context)
    (hloud : startsQuietly context.parser (context.quicPendingBytes ++ bytes) = false) :
    Routed id bytes call (routeLfh id (context.quicPendingBytes ++ bytes)
      (setContext id
        { context with quicPendingBytes := context.quicPendingBytes ++ bytes } call)) := by
  have hrefuse : ∀ error, Routed id bytes call (refuse id error (setContext id
      { context with quicPendingBytes := context.quicPendingBytes ++ bytes } call)) := by
    intro error
    refine refuse_routed hfresh hloud ?_ ?_ error
    · exact ⟨fun h => h, rfl, rfl, fun h => h⟩
    · rfl
  rw [routeLfh, transport_bind]
  split
  · exact hrefuse _
  · split
    · exact hrefuse _
    · next hknown =>
      split
      · exact hrefuse _
      · refine attachControlStream_routed hfresh hloud ?_
        rw [← AList.lookup_isSome, ← Option.not_isNone, Bool.not_eq_true']
        exact Bool.eq_false_iff.mpr hknown

theorem routePending_routed (hfresh : Fresh id call.transport context) :
    Routed id bytes call (routePending id bytes call) := by
  rw [routePending, bind_apply, modifyContext_of_some hfresh.lookup_eq, andThen_ok, bind_apply,
    context_of_some (lookup_setContext _), andThen_ok]
  dsimp only
  have hquietly := startsQuietly.eq_def context.parser (context.quicPendingBytes ++ bytes)
  by_cases hshort : (context.quicPendingBytes ++ bytes).length < 4
  · rw [if_pos hshort]
    exact .buffered hfresh
  · rw [if_neg hshort] at hquietly ⊢
    by_cases hmagic : (context.quicPendingBytes ++ bytes).take 4 = magic
    · rw [if_pos hmagic] at hquietly ⊢
      rcases hpush : StreamArchiveParser.pushBytes (context.quicPendingBytes ++ bytes)
        context.parser with ⟨e | ⟨⟩, parser⟩ <;> rw [hpush] at hquietly
      · dsimp only
        rw [bind_apply, modifyContext_of_some (lookup_setContext _), andThen_ok,
          setContext_setContext]
        refine refuse_routed hfresh hquietly ?_ ?_ e
        · exact ⟨fun h => h, rfl, rfl, headed_pushBytes hpush⟩
        · rfl
      · dsimp only
        rw [bind_apply, modifyContext_of_some (lookup_setContext _), andThen_ok,
          setContext_setContext, bind_apply, modifyContext_of_some (lookup_setContext _),
          andThen_ok, setContext_setContext]
        exact @Routed.started id bytes call context parser hfresh hpush
    · rw [if_neg hmagic] at hquietly ⊢
      by_cases hcontrol : (context.quicPendingBytes ++ bytes).take 4 = controlMagic
      · rw [if_pos hcontrol]
        refine refuse_routed hfresh ?_ ?_ ?_ _
        · rw [hquietly, hcontrol]
          rfl
        · exact ⟨fun h => h, rfl, rfl, fun h => h⟩
        · rfl
      · rw [if_neg hcontrol]
        split
        · exact .buffered hfresh
        · next hlong =>
          refine routeLfh_routed hfresh ?_
          rw [hquietly, decide_eq_false hlong, Bool.and_false]

/-- **The start of a feed.** -/
theorem route_routed (id : TransportStreamId) (bytes : Bytes) (call : Call) :
    Routed id bytes call (route id bytes call) := by
  rw [route, transport_bind, bind_apply, lift_apply]
  rcases rejectIf (bytes.length > call.transport.config.maxBufferedBytesPerTransportStream)
    (SarError.limitExceeded "feed bytes exceed configured per-stream buffer bound") with e | ⟨⟩
  · exact .failed e
  · rw [andThen_ok]
    cases hlookup : call.transport.streams.lookup id with
    | none =>
      -- both policies look the stream up first
      cases hpolicy : call.transport.policy with
      | tcp =>
        dsimp only
        rw [routeParser, bind_apply, context_of_none hlookup]
        exact .failed _
      | quic =>
        dsimp only
        rw [bind_apply, context_of_none hlookup]
        exact .failed _
    | some context =>
      cases hpolicy : call.transport.policy with
      | tcp => exact routeParser_routed hlookup fun h => nomatch hpolicy.symm.trans h
      | quic =>
        dsimp only
        rw [bind_apply, context_of_some hlookup, andThen_ok]
        cases hattached : call.transport.controlStreamAttachments.lookup id with
        | some sar =>
          rw [Option.isSome_some, if_pos rfl, bind_apply, modifyContext_of_some hlookup, andThen_ok]
          exact .control hlookup hattached
        | none =>
          rw [Option.isSome_none, if_neg Bool.false_ne_true]
          by_cases hstate : context.state = .awaitingGlobalHeader
          · rw [if_pos hstate]
            exact routePending_routed ⟨hpolicy, hlookup, hattached, hstate⟩
          · rw [if_neg hstate]
            exact routeParser_routed hlookup fun _ => hattached

end Route

/-! ### The other calls -/

/-- A stream was left alone but for notes, or it was rejected. -/
inductive MaybeRejected (id : TransportStreamId) (before after : Call) : Prop where
  | noted (hnotes : Notes before after)
  | rejected {rejected : Finset UInt16}
      (htransport : after.transport = markRejected id rejected before.transport)
      (hdeliveries : after.deliveries = before.deliveries)

theorem RejectOutcome.maybeRejected {call : Call} {r : Result Unit × Call}
    (h : RejectOutcome id call r) : MaybeRejected id call r.2 := by
  cases h with
  | done htransport hdeliveries => exact .rejected htransport hdeliveries
  | failed hnotes => exact .noted hnotes

/-- All that `open_transport_stream` can do. A second stream on a TCP connection is rejected after
it was entered. -/
inductive Opened (id : TransportStreamId) (before after : Call) : Prop where
  | failed (hafter : after = before)
  | entered {context : TransportStreamContext} {opened : Call}
      (hnew : before.transport.streams.lookup id = none)
      (hcontext : context = { TransportStreamContext.new before.transport.config
        before.transport.keyProvider with state := .awaitingGlobalHeader })
      (htouched : Touched id before.transport opened.transport context)
      (hdeliveries : opened.deliveries = before.deliveries)
      (hend : MaybeRejected id opened after)
      (hroom : before.transport.activeTransportStreamCount <
        before.transport.config.maxActiveTransportStreams)

theorem acceptTransportStream_maybeRejected (id : TransportStreamId) (call : Call) :
    MaybeRejected id call (acceptTransportStream id call).2 := by
  have hpush := preserves_notes_pushAction call (.acceptTransportStream id) (Notes.refl call)
  rw [acceptTransportStream, bind_apply]
  rcases hrun : pushAction (.acceptTransportStream id) call with ⟨e | ⟨⟩, pushed⟩ <;>
    rw [hrun] at hpush
  · exact .noted hpush
  · rw [andThen_ok, transport_bind]
    rcases pushed.transport.ensureTcpNotInterleaved with error | ⟨⟩
    · exact ((policyErrorActions_outcome error).of_notes hpush).maybeRejected
    · exact .noted hpush

theorem openBody_opened (id : TransportStreamId) (call : Call) :
    Opened id call (openBody id call).2 := by
  rw [openBody, transport_bind, bind_apply, lift_apply]
  by_cases hexists : (call.transport.streams.lookup id).isSome
  · rw [rejectIf, if_pos hexists]
    exact .failed rfl
  · have hnew := Option.not_isSome_iff_eq_none.mp hexists
    rw [rejectIf, if_neg hexists, andThen_ok, bind_apply, lift_apply]
    by_cases hfull : call.transport.activeTransportStreamCount ≥
        call.transport.config.maxActiveTransportStreams
    · rw [rejectIf, if_pos hfull]
      exact .failed rfl
    · let fresh := TransportStreamContext.new call.transport.config call.transport.keyProvider
      rw [rejectIf, if_neg hfull, andThen_ok, bind_apply, modifyTransport_apply, andThen_ok,
        bind_apply]
      change Opened id call (andThen (modifyContext id _ (setContext id fresh call)) _).2
      rw [modifyContext_of_some (lookup_setContext fresh), andThen_ok, setContext_setContext]
      exact .entered hnew rfl (touched_setContext call _) rfl
        (acceptTransportStream_maybeRejected id _) (Nat.not_le.mp hfull)

/-- All that `close_transport_stream` and `reset_transport_stream` can do. -/
inductive Detached (id : TransportStreamId) (state : TransportStreamState) (before after : Call) :
    Prop where
  | failed (hafter : after = before)
  | detached {context : TransportStreamContext}
      (hlookup : before.transport.streams.lookup id = some context)
      (htouched : Touched id (detach id context.boundSarStreamId before.transport) after.transport
        { context with state := state })
      (hdeliveries : after.deliveries = before.deliveries)

theorem detach_streams (bound : Option UInt16) (t : InMemoryTransport) :
    (detach id bound t).streams = t.streams := by
  cases bound with
  | none => rfl
  | some sar =>
    rw [detach]
    dsimp only
    split <;> rfl

/-- The two ways `detach` goes: a control stream and a stream without a binding only leave the
attachments, and any other stream takes the id it remembers out of the tables first. -/
theorem detach_cases (id : TransportStreamId) (bound : Option UInt16) (t : InMemoryTransport) :
    detach id bound t =
        { t with controlStreamAttachments := t.controlStreamAttachments.erase id } ∨
    ∃ sar, bound = some sar ∧ t.controlStreamAttachments.lookup id = none ∧
      detach id bound t =
        { t with
          activeSarStreams := t.activeSarStreams.erase sar
          activeSessionUuids := t.activeSessionUuids.erase sar
          tlsExporterBound := t.tlsExporterBound.erase sar
          controlStreamAttachments :=
            (t.controlStreamAttachments.retain fun sid => sid != sar).erase id } := by
  cases bound with
  | none => exact Or.inl rfl
  | some sar =>
    cases hattached : t.controlStreamAttachments.lookup id with
    | some other =>
      left
      simp only [detach, hattached, Option.isSome_some, if_true]
    | none =>
      refine Or.inr ⟨sar, rfl, rfl, ?_⟩
      simp only [detach, hattached, Option.isSome_none, Bool.false_eq_true, if_false]

theorem detach_policy (bound : Option UInt16) (t : InMemoryTransport) :
    (detach id bound t).policy = t.policy := by
  rcases detach_cases id bound t with heq | ⟨sar, -, -, heq⟩
  · rw [heq]
  · rw [heq]

/-- The attachments that are left were there before, and the stream has none. -/
theorem lookup_attachments_detach {bound : Option UInt16} {k : TransportStreamId} {sar : UInt16}
    (h : (detach id bound t).controlStreamAttachments.lookup k = some sar) :
    t.controlStreamAttachments.lookup k = some sar ∧ k ≠ id := by
  have hleft : ∀ {table : Table TransportStreamId UInt16},
      (table.erase id).lookup k = some sar → table.lookup k = some sar ∧ k ≠ id := by
    intro table hk
    rw [Table.lookup_erase_eq] at hk
    split at hk
    · exact nomatch hk
    · next hne => exact ⟨hk, hne⟩
  rcases detach_cases id bound t with heq | ⟨sid, -, -, heq⟩
  · rw [heq] at h
    exact hleft h
  · rw [heq] at h
    obtain ⟨hk, hne⟩ := hleft h
    exact ⟨Table.lookup_of_retain hk, hne⟩

section Detach

variable {call : Call} {context : TransportStreamContext}

/-- The stream after its tables were cleared. -/
theorem detached_of_notes {state : TransportStreamState} {after : Call}
    (hlookup : call.transport.streams.lookup id = some context)
    (hnotes : Notes (setContext id { context with state := state }
      { call with transport := detach id context.boundSarStreamId call.transport }) after) :
    Detached id state call after := by
  obtain ⟨⟨rejected, htransport⟩, hdeliveries⟩ := hnotes
  refine .detached hlookup ?_ hdeliveries
  rw [htransport]
  exact ⟨⟨rfl, rfl, rfl, rfl, rfl, rfl, rfl⟩, fun k hk => lookup_setContext_ne hk _,
    lookup_setContext _⟩

/-- What closing and resetting have in common. -/
theorem detached_body (state : TransportStreamState) {rest : TransportStreamContext → CallM Unit}
    (hrest : ∀ context before, Preserves (Notes before) (rest context)) :
    Detached id state call
      ((do
        let context ← InMemoryTransport.context id
        modifyTransport (detach id context.boundSarStreamId)
        modifyContext id fun context => { context with state := state }
        rest context : CallM Unit) call).2 := by
  rw [bind_apply]
  cases hlookup : call.transport.streams.lookup id with
  | none =>
    rw [context_of_none hlookup]
    exact .failed rfl
  | some context =>
    rw [context_of_some hlookup, andThen_ok, bind_apply, modifyTransport_apply, andThen_ok,
      bind_apply, modifyContext_of_some, andThen_ok]
    · exact detached_of_notes hlookup (hrest context _ (Notes.refl _))
    · rw [detach_streams]
      exact hlookup

theorem closeBody_detached (id : TransportStreamId) (call : Call) :
    Detached id .closed call (closeBody id call).2 :=
  detached_body .closed fun _ before => preserves_notes_pushAction before _

theorem resetBody_detached (id : TransportStreamId) (reason : SarError) (call : Call) :
    Detached id .reset call (resetBody id reason call).2 :=
  detached_body .reset fun _ before =>
    (preserves_notes_pushAction before _).bind fun _ => preserves_notes_pushAction before _

end Detach

/-! ### Deliveries -/

section Deliveries

variable {before after : Call}

/-- A turn delivers nothing, or one entry that was accepted. -/
theorem Turned.deliveries_cases {find : CallM LoopEvent}
    {kept : TransportStreamContext → TransportStreamContext → Prop}
    {accepts : TransportStreamContext → SessionEntry → Prop}
    (h : Turned find id kept accepts before after) :
    after.deliveries = before.deliveries ∨
    ∃ context entry found, before.transport.streams.lookup id = some context ∧
      accepts context entry ∧
      after.deliveries = before.deliveries ++
        [⟨id, entry, (SessionManager.processEntry entry context.manager).1⟩] ∧
      find before = (.ok (.sessionResult entry.header.sequenceNo
        (SessionManager.processEntry entry context.manager).1), found) := by
  cases h with
  | missing hafter => exact Or.inl (congrArg Call.deliveries hafter)
  | @found event found context context' hfind hlookup _ _ hobserved hhandled =>
    rw [hhandled.deliveries_eq]
    cases hobserved with
    | silent _ hsame => exact Or.inl hsame
    | @delivered entry haccepts hdelivered =>
      exact Or.inr ⟨context, entry, found, hlookup, haccepts, hdelivered.deliveries_eq, hfind⟩

theorem MaybeRejected.deliveries_eq (h : MaybeRejected id before after) :
    after.deliveries = before.deliveries := by
  cases h with
  | noted hnotes => exact hnotes.deliveries_eq
  | rejected _ hdeliveries => exact hdeliveries

/-- The start of a call delivers nothing. -/
theorem Routed.deliveries_eq {bytes : Bytes} {r : Result Route × Call}
    (h : Routed id bytes before r) : r.2.deliveries = before.deliveries := by
  cases h with
  | failed => rfl
  | pushed => rfl
  | control => rfl
  | buffered => rfl
  | started => rfl
  | refused _ _ _ _ hreject => exact hreject.maybeRejected.deliveries_eq
  | attached _ _ _ _ _ _ hdeliveries => exact hdeliveries

theorem Opened.deliveries_eq (h : Opened id before after) :
    after.deliveries = before.deliveries := by
  cases h with
  | failed hafter => exact congrArg Call.deliveries hafter
  | entered _ _ _ hdeliveries hend => exact hend.deliveries_eq.trans hdeliveries

theorem Detached.deliveries_eq {state : TransportStreamState} (h : Detached id state before after) :
    after.deliveries = before.deliveries := by
  cases h with
  | failed hafter => exact congrArg Call.deliveries hafter
  | detached _ _ hdeliveries => exact hdeliveries

end Deliveries

/-! ### Frames -/

/-- A part of a call that works on one stream: the settings and the other contexts stay. -/
structure Framed (k : TransportStreamId) (t t' : InMemoryTransport) : Prop where
  config : t'.config = t.config
  policy : t'.policy = t.policy
  lookup_ne : ∀ id, id ≠ k → t'.streams.lookup id = t.streams.lookup id

theorem Framed.refl (t : InMemoryTransport) : Framed id t t := ⟨rfl, rfl, fun _ _ => rfl⟩

theorem Framed.trans (h : Framed id t t') (h' : Framed id t' t'') : Framed id t t'' :=
  ⟨h'.config.trans h.config, h'.policy.trans h.policy,
    fun k hk => (h'.lookup_ne k hk).trans (h.lookup_ne k hk)⟩

theorem Touched.framed {context : TransportStreamContext} (h : Touched id t t' context) :
    Framed id t t' :=
  ⟨h.tables.config, h.tables.policy, h.lookup_ne⟩

theorem lookup_markRejected_ne {k : TransportStreamId} (hk : k ≠ id) (rejected : Finset UInt16)
    (t : InMemoryTransport) : (markRejected id rejected t).streams.lookup k = t.streams.lookup k :=
  (Table.lookup_modify_eq id k _ _).trans (if_neg hk)

theorem lookup_markRejected {context : TransportStreamContext}
    (h : t.streams.lookup id = some context) (rejected : Finset UInt16) :
    (markRejected id rejected t).streams.lookup id =
      some { context with state := rejectedState t.policy } := by
  refine (Table.lookup_modify_eq id id _ _).trans ((if_pos rfl).trans ?_)
  rw [h]
  rfl

theorem framed_markRejected (rejected : Finset UInt16) (t : InMemoryTransport) :
    Framed id t (markRejected id rejected t) :=
  ⟨rfl, rfl, fun _ hk => lookup_markRejected_ne hk _ _⟩

theorem framed_activated (sar : UInt16) (uuid : Octets 16) (t : InMemoryTransport) :
    Framed id t (activated id sar uuid t) := by
  have hlookup : ∀ k, k ≠ id → (activated id sar uuid t).streams.lookup k = t.streams.lookup k := by
    intro k hk
    refine (Table.lookup_modify_eq id k _ _).trans ((if_neg hk).trans ?_)
    rw [bindSarStream_streams]
  refine ⟨?_, ?_, hlookup⟩ <;> rw [activated, bindSarStream] <;> dsimp only <;> split <;> rfl

theorem framed_detach (bound : Option UInt16) (t : InMemoryTransport) :
    Framed id t (detach id bound t) := by
  rcases detach_cases id bound t with heq | ⟨sar, -, -, heq⟩
  · rw [heq]
    exact ⟨rfl, rfl, fun _ _ => rfl⟩
  · rw [heq]
    exact ⟨rfl, rfl, fun _ _ => rfl⟩

section Frames

variable {before after : Call}

theorem MaybeRejected.sameTables (h : MaybeRejected id before after) :
    SameTables before.transport after.transport := by
  cases h with
  | noted hnotes =>
    obtain ⟨⟨rejected, htransport⟩, -⟩ := hnotes
    rw [htransport]
    exact ⟨rfl, rfl, rfl, rfl, rfl, rfl, rfl⟩
  | rejected htransport _ =>
    rw [htransport]
    exact sameTables_markRejected id _ _

theorem MaybeRejected.framed (h : MaybeRejected id before after) :
    Framed id before.transport after.transport := by
  cases h with
  | noted hnotes =>
    obtain ⟨⟨rejected, htransport⟩, -⟩ := hnotes
    rw [htransport]
    exact ⟨rfl, rfl, fun _ _ => rfl⟩
  | rejected htransport _ =>
    rw [htransport]
    exact framed_markRejected _ _

theorem Handled.framed {event : LoopEvent} (h : Handled id before after event) :
    Framed id before.transport after.transport := by
  cases h with
  | quiet hquiet => exact ⟨hquiet.sameTables.config, hquiet.sameTables.policy, hquiet.lookup_ne⟩
  | rejected _ htransport _ =>
    rw [htransport]
    exact framed_markRejected _ _
  | activated _ htransport _ =>
    rw [htransport]
    exact framed_activated _ _ _
  | closed _ htransport _ =>
    rw [htransport]
    exact ⟨rfl, rfl, fun k hk => (Table.lookup_modify_eq id k _ _).trans (if_neg hk)⟩

theorem Turned.framed {find : CallM LoopEvent}
    {kept : TransportStreamContext → TransportStreamContext → Prop}
    {accepts : TransportStreamContext → SessionEntry → Prop}
    (h : Turned find id kept accepts before after) :
    Framed id before.transport after.transport := by
  cases h with
  | missing hafter =>
    rw [hafter]
    exact .refl _
  | found _ _ htouched _ _ hhandled => exact htouched.framed.trans hhandled.framed

theorem Routed.framed {bytes : Bytes} {r : Result Route × Call} (h : Routed id bytes before r) :
    Framed id before.transport r.2.transport := by
  have hset : ∀ context, Framed id before.transport (setContext id context before).transport :=
    fun context => (touched_setContext before context).framed
  cases h with
  | failed error => exact .refl _
  | pushed => exact hset _
  | control => exact hset _
  | buffered => exact hset _
  | started => exact hset _
  | refused _ _ _ _ hreject => exact (hset _).trans hreject.maybeRejected.framed
  | attached _ _ _ _ _ htouched =>
    exact ⟨htouched.tables.config, htouched.tables.policy, htouched.lookup_ne⟩

theorem Opened.framed (h : Opened id before after) :
    Framed id before.transport after.transport := by
  cases h with
  | failed hafter =>
    rw [hafter]
    exact .refl _
  | entered _ _ htouched _ hend => exact htouched.framed.trans hend.framed

theorem Detached.framed {state : TransportStreamState} (h : Detached id state before after) :
    Framed id before.transport after.transport := by
  cases h with
  | failed hafter =>
    rw [hafter]
    exact .refl _
  | detached _ htouched _ => exact (framed_detach _ _).trans htouched.framed

end Frames

end InMemoryTransport

namespace Connection

open InMemoryTransport

/-- The stream that a step works on. -/
def streamOf (c : Connection) : Step → Option TransportStreamId
  | .start (.openStream id) | .start (.feed id _ _) | .start (.close id) | .start (.reset id _) =>
    some id
  | .turn =>
    match c.phase with
    | .idle => none
    | .feeding id _ | .controlling id _ => some id

variable {backend : Backend} {c c' : Connection} {s : Step} {id : TransportStreamId}

/-- **All that a step can do**, on the stream that it works on. -/
inductive Stepped (backend : Backend) (c : Connection) (id : TransportStreamId) :
    Step → Connection → Prop where
  | opened {after : Call} (h : Opened id ⟨c.transport, [], []⟩ after) :
      Stepped backend c id (.start (.openStream id)) ⟨after, .idle, c.deliveries⟩
  | routed {bytes : Bytes} {nowMs : Option UInt64} {r : Result Route × Call}
      (h : Routed id bytes ⟨c.transport, [], []⟩ r) :
      Stepped backend c id (.start (.feed id bytes nowMs))
        ⟨r.2, phaseOf id nowMs r.1, c.deliveries⟩
  | closed {after : Call} (h : Detached id .closed ⟨c.transport, [], []⟩ after) :
      Stepped backend c id (.start (.close id)) ⟨after, .idle, c.deliveries⟩
  | reset {reason : SarError} {after : Call} (h : Detached id .reset ⟨c.transport, [], []⟩ after) :
      Stepped backend c id (.start (.reset id reason)) ⟨after, .idle, c.deliveries⟩
  | fed {nowMs : Option UInt64} {r : Result Bool × Call} (hphase : c.phase = .feeding id nowMs)
      (hrun : feedTurn backend id nowMs c.call = r) (h : FeedTurned backend id nowMs c.call r.2) :
      Stepped backend c id .turn (c.afterTurn r)
  | controlled {nowMs : Option UInt64} {r : Result Bool × Call}
      (hphase : c.phase = .controlling id nowMs) (hrun : controlTurn backend id nowMs c.call = r)
      (h : ControlTurned backend id nowMs c.call r.2) : Stepped backend c id .turn (c.afterTurn r)

theorem step_cases (backend : Backend) (c : Connection) (s : Step) :
    (¬ c.Enabled s ∧ c.step backend s = c) ∨
      ∃ id, c.streamOf s = some id ∧ Stepped backend c id s (c.step backend s) := by
  cases s with
  | start request =>
    cases request with
    | openStream id => exact Or.inr ⟨id, rfl, .opened (openBody_opened id _)⟩
    | feed id bytes nowMs => exact Or.inr ⟨id, rfl, .routed (route_routed id bytes _)⟩
    | close id => exact Or.inr ⟨id, rfl, .closed (closeBody_detached id _)⟩
    | reset id reason => exact Or.inr ⟨id, rfl, .reset (resetBody_detached id reason _)⟩
  | turn =>
    rw [Connection.step]
    cases hphase : c.phase with
    | idle =>
      rw [turn, hphase]
      exact Or.inl ⟨absurd hphase, rfl⟩
    | feeding id nowMs =>
      rw [turn_feeding hphase, streamOf, hphase]
      exact Or.inr ⟨id, rfl, .fed hphase rfl (feedTurn_turned backend id nowMs c.call)⟩
    | controlling id nowMs =>
      rw [turn_controlling hphase, streamOf, hphase]
      exact Or.inr ⟨id, rfl, .controlled hphase rfl (controlTurn_turned backend id nowMs c.call)⟩

/-- Every step that is enabled is one of these, on one stream. -/
theorem step_stepped (backend : Backend) (henabled : c.Enabled s) :
    ∃ id, c.streamOf s = some id ∧ Stepped backend c id s (c.step backend s) :=
  (step_cases backend c s).resolve_left fun h => h.1 henabled

/-- **A step works on one stream.** -/
theorem Stepped.framed (h : Stepped backend c id s c') : Framed id c.transport c'.transport := by
  cases h with
  | opened h => exact h.framed
  | routed h => exact h.framed
  | closed h => exact h.framed
  | reset h => exact h.framed
  | fed _ _ h => exact h.framed
  | controlled _ _ h => exact h.framed

/-- No step changes the configuration or the policy. -/
theorem step_settings (henabled : c.Enabled s) :
    (c.step backend s).transport.config = c.transport.config ∧
      (c.step backend s).transport.policy = c.transport.policy := by
  obtain ⟨id, -, hstep⟩ := step_stepped backend henabled
  exact ⟨hstep.framed.config, hstep.framed.policy⟩

/-- The step is a turn of a loop that hands the entry to the manager of its stream. -/
inductive Delivers (backend : Backend) (c : Connection) (d : Delivery) : Step → Prop where
  | fed {nowMs : Option UInt64} {context : TransportStreamContext} {found : Call}
      (hphase : c.phase = .feeding d.transportStreamId nowMs)
      (hlookup : c.transport.streams.lookup d.transportStreamId = some context)
      (hresult : d.result = (SessionManager.processEntry d.entry context.manager).1)
      (hdelivers : FeedDelivers backend c.transport context d.entry)
      (hfind : feedEvent backend d.transportStreamId nowMs c.call =
        (.ok (.sessionResult d.entry.header.sequenceNo d.result), found)) :
      Delivers backend c d .turn
  | controlled {nowMs : Option UInt64} {context : TransportStreamContext} {found : Call}
      (hphase : c.phase = .controlling d.transportStreamId nowMs)
      (hlookup : c.transport.streams.lookup d.transportStreamId = some context)
      (hresult : d.result = (SessionManager.processEntry d.entry context.manager).1)
      (haccepts : ControlAccepts c.transport d.transportStreamId d.entry)
      (hfind : controlEvent backend d.transportStreamId nowMs c.call =
        (.ok (.sessionResult d.entry.header.sequenceNo d.result), found)) :
      Delivers backend c d .turn

/-- **A step delivers at most one entry**, on the stream it works on. -/
theorem Stepped.deliveries_cases (h : Stepped backend c id s c') :
    c'.deliveries = c.deliveries ∨ ∃ d, c'.deliveries = c.deliveries ++ [d] ∧
      d.transportStreamId = id ∧ Delivers backend c d s := by
  have hnone : ∀ {call : Call}, call.deliveries = [] → c.deliveries ++ call.deliveries =
      c.deliveries := fun h => by rw [h, append_nil]
  have hone : ∀ {call : Call} {d : Delivery}, call.deliveries = c.call.deliveries ++ [d] →
      c.history ++ call.deliveries = c.deliveries ++ [d] := fun h =>
    (congrArg (c.history ++ ·) h).trans (append_assoc ..).symm
  cases h with
  | opened h => exact Or.inl (hnone h.deliveries_eq)
  | routed h => exact Or.inl (hnone h.deliveries_eq)
  | closed h => exact Or.inl (hnone h.deliveries_eq)
  | reset h => exact Or.inl (hnone h.deliveries_eq)
  | fed hphase _ h =>
    rcases h.deliveries_cases with hsame | ⟨context, entry, found, hlookup, haccepts, hnew, hfind⟩
    · exact Or.inl (congrArg (c.history ++ ·) hsame)
    · exact Or.inr ⟨_, hone hnew, rfl, .fed hphase hlookup rfl haccepts hfind⟩
  | controlled hphase _ h =>
    rcases h.deliveries_cases with hsame | ⟨context, entry, found, hlookup, haccepts, hnew, hfind⟩
    · exact Or.inl (congrArg (c.history ++ ·) hsame)
    · exact Or.inr ⟨_, hone hnew, rfl, .controlled hphase hlookup rfl haccepts hfind⟩

theorem step_deliveries_cases (backend : Backend) (c : Connection) (s : Step) :
    (c.step backend s).deliveries = c.deliveries ∨
      ∃ d, (c.step backend s).deliveries = c.deliveries ++ [d] ∧ Delivers backend c d s := by
  rcases step_cases backend c s with ⟨-, hsame⟩ | ⟨id, -, hstep⟩
  · exact Or.inl (congrArg deliveries hsame)
  · exact hstep.deliveries_cases.imp_right fun ⟨d, hnew, _, hdelivers⟩ => ⟨d, hnew, hdelivers⟩

variable {d : Delivery}

/-- What a step delivers, it delivers on its own stream. -/
theorem Stepped.deliveries_own (h : Stepped backend c id s c')
    (hnew : c'.deliveries = c.deliveries ++ [d]) : d.transportStreamId = id := by
  rcases h.deliveries_cases with hsame | ⟨d', hone, hown, -⟩
  · exact nomatch append_right_eq_self.mp (hnew.symm.trans hsame)
  · rwa [(List.cons.inj ((append_right_inj _).mp (hnew.symm.trans hone))).1]

/-- What was delivered has the answer of the stream's manager. -/
theorem Delivers.answer (h : Delivers backend c d s) :
    ∃ context, c.transport.streams.lookup d.transportStreamId = some context ∧
      d.result = (SessionManager.processEntry d.entry context.manager).1 := by
  cases h with
  | fed _ hlookup hresult => exact ⟨_, hlookup, hresult⟩
  | controlled _ hlookup hresult => exact ⟨_, hlookup, hresult⟩

/-- Where an entry that was delivered comes from. -/
theorem delivers_of_step (hnew : (c.step backend s).deliveries = c.deliveries ++ [d]) :
    Delivers backend c d s := by
  rcases step_deliveries_cases backend c s with hsame | ⟨d', hone, hdelivers⟩
  · exact nomatch append_right_eq_self.mp (hnew.symm.trans hsame)
  · rwa [(List.cons.inj ((append_right_inj _).mp (hnew.symm.trans hone))).1]

/-- A step that delivers something delivers one entry, whose properties can be read off the end of
the list. -/
theorem exists_delivery {p : Delivery → Bool}
    (hlength : (c.step backend s).deliveries.length ≠ c.deliveries.length)
    (hlast : (c.step backend s).deliveries.getLast?.any p = true) :
    ∃ d, (c.step backend s).deliveries = c.deliveries ++ [d] ∧ p d = true := by
  rcases step_deliveries_cases backend c s with hsame | ⟨d, hnew, -⟩
  · exact absurd (congrArg List.length hsame) hlength
  · refine ⟨d, hnew, ?_⟩
    rwa [hnew, List.getLast?_concat, Option.any_some] at hlast

end Connection

end Sar
