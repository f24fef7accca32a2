import Sar.Stream.SessionLimits
import Sar.Transport.Terminal

/-!
# What a connection takes

The configuration bounds the tables of the transport and the actions of one call. Each bound is
checked where the table or the list grows, so it is an invariant of all methods (`Bounded`); for
the streams that have not ended it is an invariant between calls, since a feed may wake the stream
that it works on (`Connection.LiveBounded`).

Heartbeats are the exception: `maybe_emit_heartbeat` returns its action without the check of
`push_action`.

* `TransportCall.runs_bounded` — the bounds after every sequence of calls in which no heartbeat
  is asked for while the configuration allows no action at all.
* `heartbeat_unbounded` — one that is.
-/

namespace Sar

open Except (rejectIf okOr rejectIf_of_not rejectIf_of)
open Stateful List

namespace InMemoryTransport

variable {id : TransportStreamId} {t : InMemoryTransport}

/-! ### The bounds -/

/-- The tables are within the limits of the configuration. -/
structure TablesBounded (t : InMemoryTransport) : Prop where
  active : t.activeSarStreams.size ≤ t.config.maxActiveSarStreams
  attachments : ∀ sar, t.controlStreamAttachments.countValues (· == sar) ≤
    t.config.maxControlStreamsPerSarSession
  rejected : t.rejectedSarStreamIds.card ≤ t.config.maxRejectedStreamIds

/-- The actions are within the limits of the configuration. -/
structure ActionsBounded (config : TransportConfig) (actions : List TransportAction) : Prop where
  length : actions.length ≤ config.maxPendingActions
  statusAck : countStatusAckActions actions ≤ config.maxStatusAckActions

/-- A call in progress is within the limits. -/
structure Bounded (call : Call) : Prop where
  tables : TablesBounded call.transport
  actions : ActionsBounded call.transport.config call.actions

/-! ### Methods that keep the bounds -/

/-- A change of the tables. -/
theorem preserves_bounded_modifyTransport {f : InMemoryTransport → InMemoryTransport}
    (hconfig : ∀ t, (f t).config = t.config) (hf : ∀ t, TablesBounded t → TablesBounded (f t)) :
    Preserves Bounded (modifyTransport f) := by
  refine Preserves.update fun call hcall => ⟨hf _ hcall.tables, ?_⟩
  dsimp only
  rw [hconfig]
  exact hcall.actions

theorem preserves_bounded_modifyContext (f : TransportStreamContext → TransportStreamContext) :
    Preserves Bounded (modifyContext id f) :=
  preserves_bounded_modifyTransport (fun _ => rfl) fun _ ht =>
    ⟨ht.active, ht.attachments, ht.rejected⟩

/-- An action, where there is room for it among the statuses and acknowledgements. -/
theorem Bounded.pushAction {call : Call} (hcall : Bounded call) {action : TransportAction}
    (hroom : countStatusAckActions (call.actions ++ [action]) ≤
      call.transport.config.maxStatusAckActions) : Bounded (pushAction action call).2 := by
  rw [InMemoryTransport.pushAction, current_bind, bind_apply, lift_apply]
  by_cases hfull : call.actions.length ≥ call.transport.config.maxPendingActions
  · rw [rejectIf_of hfull]
    exact hcall
  · rw [rejectIf_of_not hfull, andThen_ok]
    refine ⟨hcall.tables, ?_, hroom⟩
    rw [update_apply, length_append, length_singleton]
    exact Nat.not_le.mp hfull

/-- An action that is no status and no acknowledgement. -/
theorem preserves_bounded_pushAction {action : TransportAction} (h : isStatusAck action = false) :
    Preserves Bounded (pushAction action) := by
  intro call hcall
  refine hcall.pushAction ?_
  rw [countStatusAckActions, countP_append, countP_singleton, h]
  exact hcall.actions.statusAck

/-- A status or an acknowledgement behind its own check. -/
theorem preserves_bounded_pushStatusAck (action : TransportAction) :
    Preserves Bounded (do checkStatusAckActions; pushAction action : CallM Unit) := by
  intro call hcall
  rw [bind_apply, checkStatusAckActions, current_bind, lift_apply]
  by_cases hmany : countStatusAckActions call.actions ≥
      call.transport.config.maxStatusAckActions
  · rw [rejectIf_of hmany]
    exact hcall
  · rw [rejectIf_of_not hmany, andThen_ok]
    refine hcall.pushAction ?_
    rw [countStatusAckActions, countP_append]
    have hone : List.countP isStatusAck [action] ≤ 1 := countP_le_length
    exact (Nat.add_le_add_left hone _).trans (Nat.not_le.mp hmany)

theorem preserves_bounded_rememberRejected (sar : Option UInt16) :
    Preserves Bounded (rememberRejected sar) := by
  cases sar with
  | none => exact Preserves.pure ()
  | some sar =>
    intro call hcall
    rw [rememberRejected, transport_bind, bind_apply, lift_apply]
    by_cases hfull : call.transport.rejectedSarStreamIds.card ≥
        call.transport.config.maxRejectedStreamIds ∧
          sar ∉ call.transport.rejectedSarStreamIds
    · rw [rejectIf_of hfull]
      exact hcall
    rw [rejectIf_of_not hfull, andThen_ok, modifyTransport_apply]
    refine ⟨⟨hcall.tables.active, hcall.tables.attachments, ?_⟩, hcall.actions⟩
    dsimp only
    by_cases hmem : sar ∈ call.transport.rejectedSarStreamIds
    · rw [Finset.insert_eq_of_mem hmem]
      exact hcall.tables.rejected
    · rw [Finset.card_insert_of_notMem hmem]
      exact Nat.not_le.mp fun hge => hfull ⟨hge, hmem⟩

/-- An activation was checked to have room. -/
theorem TablesBounded.bindSarStream (h : TablesBounded t) {sar : UInt16} {uuid : Octets 16}
    {flags : SessionFlags} (haccept : t.activationRefusal sar flags = none) :
    TablesBounded (bindSarStream id sar uuid t) ∧
      (InMemoryTransport.bindSarStream id sar uuid t).config = t.config := by
  obtain ⟨-, hfree, hroom⟩ := activationRefusal_eq_none haccept
  have hsize : Table.size (t.activeSarStreams.insert sar id) ≤ t.config.maxActiveSarStreams := by
    rw [Table.size_eq_sumValues, Table.sumValues_insert_of_none hfree, ← Table.size_eq_sumValues]
    exact hroom
  rw [InMemoryTransport.bindSarStream]
  dsimp only
  split <;> exact ⟨⟨hsize, h.attachments, h.rejected⟩, rfl⟩

/-- Attachments that are erased. -/
theorem countValues_erase_le (p : UInt16 → Bool) (id : TransportStreamId)
    (table : Table TransportStreamId UInt16) :
    Table.countValues p (table.erase id) ≤ table.countValues p := by
  rw [Table.countValues_eq_sumValues, Table.countValues_eq_sumValues]
  exact Table.sumValues_erase_le

theorem size_erase_le (sar : UInt16) (table : Table UInt16 TransportStreamId) :
    Table.size (table.erase sar) ≤ table.size := by
  rw [Table.size_eq_sumValues, Table.size_eq_sumValues]
  exact Table.sumValues_erase_le

theorem TablesBounded.unbindSarStream (h : TablesBounded t) (sar : UInt16) :
    TablesBounded (unbindSarStream sar t) where
  active := (size_erase_le sar _).trans h.active
  attachments other := (Table.countValues_retain_le _ _ _).trans (h.attachments other)
  rejected := h.rejected

theorem TablesBounded.detach (h : TablesBounded t) (bound : Option UInt16) :
    TablesBounded (detach id bound t) := by
  rcases detach_cases id bound t with heq | ⟨sar, -, -, heq⟩
  · rw [heq]
    exact ⟨h.active, fun other => (countValues_erase_le _ _ _).trans (h.attachments other),
      h.rejected⟩
  · rw [heq]
    refine ⟨(size_erase_le sar _).trans h.active, fun other => ?_, h.rejected⟩
    exact (countValues_erase_le _ _ _).trans
      ((Table.countValues_retain_le _ _ _).trans (h.attachments other))

theorem kept_bounded : Kept id Bounded where
  context f _ := preserves_bounded_modifyContext f
  push _ := preserves_bounded_pushAction
  pushStatusAck := preserves_bounded_pushStatusAck
  remember := preserves_bounded_rememberRejected
  bind sar uuid flags call haccept hcall := by
    obtain ⟨htables, hconfig⟩ :=
      @TablesBounded.bindSarStream id _ hcall.tables sar uuid flags haccept
    refine ⟨htables, ?_⟩
    dsimp only
    rw [hconfig]
    exact hcall.actions
  unbind sar _ hcall := ⟨hcall.tables.unbindSarStream sar, hcall.actions⟩

theorem untouched_bounded : Untouched id Bounded where
  context f _ := preserves_bounded_modifyContext f
  activity _ _ h := ⟨⟨h.tables.active, h.tables.attachments, h.tables.rejected⟩, h.actions⟩
  delivery _ _ h := ⟨h.tables, h.actions⟩

theorem preserves_bounded_feedTurn (backend : Backend) (nowMs : Option UInt64) :
    Preserves Bounded (feedTurn backend id nowMs) := by
  refine Preserves.bind (Preserves.bind preserves_context fun context => ?_)
    kept_bounded.handleLoopEvent
  exact Preserves.bind (preserves_bounded_modifyContext _) fun _ =>
    untouched_bounded.observeStep nowMs _

theorem preserves_bounded_controlTurn (backend : Backend) (nowMs : Option UInt64) :
    Preserves Bounded (controlTurn backend id nowMs) := by
  refine Preserves.bind ?_ kept_bounded.handleLoopEvent
  refine preserves_transport_bind fun t => ?_
  refine (Preserves.lift _).bind fun sar => (Preserves.lift _).bind fun header => ?_
  refine Preserves.bind preserves_context fun context => ?_
  split
  · exact Preserves.pure _
  · exact Preserves.pure _
  · split
    · exact Preserves.pure _
    · exact (preserves_bounded_modifyContext _).bind fun _ =>
        (untouched_bounded.recordActivity nowMs).bind fun _ => untouched_bounded.deliver _

theorem preserves_bounded_refuse (error : SarError) : Preserves Bounded (refuse id error) :=
  (kept_bounded.policyErrorActions error).bind fun _ => Preserves.pure _

/-- An attachment was checked to have room. -/
theorem bounded_attachControlStream {call : Call} (h : Bounded call) {sar : UInt16}
    (hfree : call.transport.controlStreamAttachments.lookup id = none)
    (hroom : call.transport.controlStreamAttachments.countValues (· == sar) <
      call.transport.config.maxControlStreamsPerSarSession) :
    Bounded (attachControlStream id sar call).2 := by
  have hattached : Bounded { call with transport := { call.transport with
      controlStreamAttachments := call.transport.controlStreamAttachments.insert id sar } } := by
    refine ⟨⟨h.tables.active, fun other => ?_, h.tables.rejected⟩, h.actions⟩
    have hinsert := Table.sumValues_insert_of_none (f := fun v => (v == other).toNat) (v := sar)
      hfree
    have hother := h.tables.attachments other
    rw [Table.countValues_eq_sumValues] at hother hroom ⊢
    dsimp only
    rw [hinsert]
    by_cases heq : sar = other
    · subst heq
      rw [beq_self_eq_true]
      exact hroom
    · rw [beq_false_of_ne heq]
      exact hother
  rw [attachControlStream, bind_apply, modifyTransport_apply, andThen_ok]
  refine Preserves.bind (preserves_bounded_modifyContext _) (fun _ => ?_) hattached
  refine preserves_transport_bind fun t => (Preserves.lift _).bind fun header => ?_
  refine Preserves.bind preserves_context fun context => ?_
  refine (preserves_bounded_modifyContext _).bind fun _ => (Preserves.lift _).bind fun _ => ?_
  exact (preserves_bounded_pushAction rfl).bind fun _ => Preserves.pure _

theorem bounded_routeLfh {call : Call} (h : Bounded call)
    (hfree : call.transport.controlStreamAttachments.lookup id = none) (pending : Bytes) :
    Bounded (routeLfh id pending call).2 := by
  rw [routeLfh, transport_bind]
  split
  · exact preserves_bounded_refuse _ h
  · split
    · exact preserves_bounded_refuse _ h
    · split
      · exact preserves_bounded_refuse _ h
      · next hroom => exact bounded_attachControlStream h hfree (Nat.not_le.mp hroom)

theorem bounded_routePending {call : Call} (h : Bounded call)
    (hfree : call.transport.controlStreamAttachments.lookup id = none) (bytes : Bytes) :
    Bounded (routePending id bytes call).2 := by
  have hbuffered : Bounded (modifyContext id (fun context =>
      { context with quicPendingBytes := context.quicPendingBytes ++ bytes }) call).2 :=
    preserves_bounded_modifyContext _ h
  rw [routePending, bind_apply, modifyContext_apply, andThen_ok, bind_apply]
  rw [modifyContext_apply] at hbuffered
  generalize hcall : Call.mk _ _ _ = call' at hbuffered ⊢
  have hfree' : call'.transport.controlStreamAttachments.lookup id = none := by
    rw [← hcall]
    exact hfree
  rcases hlookup : call'.transport.streams.lookup id with _ | context
  · rw [context_of_none hlookup]
    exact hbuffered
  rw [context_of_some hlookup, andThen_ok]
  dsimp only
  split
  · exact hbuffered
  · split
    · refine Preserves.bind (preserves_bounded_modifyContext _) (fun _ => ?_) hbuffered
      split
      · exact preserves_bounded_refuse _
      · exact (preserves_bounded_modifyContext _).bind fun _ => Preserves.pure _
    · split
      · exact preserves_bounded_refuse _ hbuffered
      · split
        · exact hbuffered
        · exact bounded_routeLfh hbuffered hfree' _

theorem preserves_bounded_routeParser (bytes : Bytes) :
    Preserves Bounded (routeParser id bytes) := by
  refine Preserves.bind preserves_context fun context => (Preserves.lift _).bind fun _ => ?_
  exact (preserves_bounded_modifyContext _).bind fun _ =>
    (Preserves.lift _).bind fun _ => Preserves.pure _

theorem preserves_bounded_route (bytes : Bytes) : Preserves Bounded (route id bytes) := by
  intro call hcall
  rw [route, transport_bind, bind_apply, lift_apply]
  rcases rejectIf (bytes.length > call.transport.config.maxBufferedBytesPerTransportStream)
    (SarError.limitExceeded "feed bytes exceed configured per-stream buffer bound") with e | ⟨⟩
  · exact hcall
  rw [andThen_ok]
  cases call.transport.policy with
  | tcp => exact preserves_bounded_routeParser bytes hcall
  | quic =>
    dsimp only
    rw [bind_apply]
    rcases hlookup : call.transport.streams.lookup id with _ | context
    · rw [context_of_none hlookup]
      exact hcall
    rw [context_of_some hlookup, andThen_ok]
    split
    · exact (preserves_bounded_modifyContext _).bind (fun _ => Preserves.pure _) hcall
    · next hfree =>
      split
      · exact bounded_routePending hcall (Option.not_isSome_iff_eq_none.mp hfree) bytes
      · exact preserves_bounded_routeParser bytes hcall

theorem preserves_bounded_feedBody (backend : Backend) (bytes : Bytes) (nowMs : Option UInt64) :
    Preserves Bounded (feedBody backend id bytes nowMs) := by
  refine (preserves_bounded_route bytes).bind fun goal => ?_
  cases goal with
  | feed =>
    exact Preserves.bind preserves_context fun context =>
      Preserves.iterate (preserves_bounded_feedTurn backend nowMs) _
  | control =>
    exact Preserves.bind preserves_context fun context =>
      Preserves.iterate (preserves_bounded_controlTurn backend nowMs) _
  | done => exact Preserves.pure ()

theorem preserves_bounded_openBody : Preserves Bounded (openBody id) := by
  refine preserves_transport_bind fun t => ?_
  refine (Preserves.lift _).bind fun _ => (Preserves.lift _).bind fun _ => ?_
  refine Preserves.bind (preserves_bounded_modifyTransport (fun _ => rfl) fun _ ht =>
    ⟨ht.active, ht.attachments, ht.rejected⟩) fun _ => ?_
  refine (preserves_bounded_modifyContext _).bind fun _ => ?_
  refine (preserves_bounded_pushAction rfl).bind fun _ => ?_
  refine preserves_transport_bind fun t => ?_
  split
  · exact Preserves.pure ()
  · exact kept_bounded.policyErrorActions _

theorem preserves_bounded_detach (bound : Option UInt16) :
    Preserves Bounded (modifyTransport (detach id bound)) :=
  preserves_bounded_modifyTransport (fun t => (@framed_detach id bound t).config) fun _ ht =>
    ht.detach bound

theorem preserves_bounded_closeBody : Preserves Bounded (closeBody id) := by
  refine Preserves.bind preserves_context fun context => ?_
  refine (preserves_bounded_detach _).bind fun _ => ?_
  exact (preserves_bounded_modifyContext _).bind fun _ => preserves_bounded_pushAction rfl

theorem preserves_bounded_resetBody (reason : SarError) :
    Preserves Bounded (resetBody id reason) := by
  refine Preserves.bind preserves_context fun context => ?_
  refine (preserves_bounded_detach _).bind fun _ =>
    (preserves_bounded_modifyContext _).bind fun _ => ?_
  exact (preserves_bounded_pushAction rfl).bind fun _ => preserves_bounded_pushAction rfl

/-- A call leaves the tables within their limits, and so are its actions. -/
theorem runCall_bounded {body : CallM Unit} (hbody : Preserves Bounded body) (h : TablesBounded t) :
    TablesBounded (runCall body t).2 ∧
      ∀ actions, (runCall body t).1 = .ok actions →
        ActionsBounded (runCall body t).2.config actions := by
  have hstart : Bounded ⟨t, [], []⟩ := ⟨h, Nat.zero_le _, Nat.zero_le _⟩
  have hend := hbody hstart
  refine ⟨hend.tables, fun actions hactions => ?_⟩
  obtain ⟨-, -, rfl⟩ := Except.map_eq_ok_iff.mp hactions
  exact hend.actions

/-! ### Streams that have not ended -/

/-- One for a stream that has not ended. -/
def liveness (context : TransportStreamContext) : ℕ := (!context.state.isTerminal).toNat

theorem liveness_le (context : TransportStreamContext) : liveness context ≤ 1 :=
  Bool.toNat_le _

/-- The number of live streams beside one. -/
def liveOthers (t : InMemoryTransport) (id : TransportStreamId) : ℕ :=
  Table.sumValues liveness (t.streams.erase id)

theorem activeTransportStreamCount_eq (t : InMemoryTransport) (id : TransportStreamId) :
    t.activeTransportStreamCount =
      ((t.streams.lookup id).map liveness).getD 0 + t.liveOthers id := by
  rw [activeTransportStreamCount, Table.countValues_eq_sumValues]
  exact Table.sumValues_eq_add_erase liveness id t.streams

theorem liveOthers_congr {t t' : InMemoryTransport}
    (h : ∀ k, k ≠ id → t'.streams.lookup k = t.streams.lookup k) :
    t'.liveOthers id = t.liveOthers id :=
  Table.sumValues_erase_congr h

/-- A stream counts at most once. -/
theorem activeTransportStreamCount_le (t : InMemoryTransport) (id : TransportStreamId) :
    t.activeTransportStreamCount ≤ t.liveOthers id + 1 := by
  rw [activeTransportStreamCount_eq t id, Nat.add_comm]
  refine Nat.add_le_add_left ?_ _
  cases t.streams.lookup id with
  | none => exact Nat.zero_le _
  | some context => exact liveness_le context

/-- A live stream counts once, one that has ended does not. -/
theorem activeTransportStreamCount_of_lookup {context : TransportStreamContext} {ended : Bool}
    (hlookup : t.streams.lookup id = some context) (hstate : context.state.isTerminal = ended) :
    t.activeTransportStreamCount = t.liveOthers id + (!ended).toNat := by
  rw [activeTransportStreamCount_eq t id, hlookup, Option.map_some, Option.getD_some, liveness,
    hstate, Nat.add_comm]

/-- The start of a feed on a stream that is live, or one that leaves the states alone. -/
theorem Routed.live_cases {bytes : Bytes} {before : Call} {r : Result Route × Call}
    (h : Routed id bytes before r) :
    (∃ context, before.transport.streams.lookup id = some context ∧
      context.state.isTerminal = false) ∨
    (r.1 ≠ .ok .feed ∧
      r.2.transport.activeTransportStreamCount = before.transport.activeTransportStreamCount) := by
  have hlive : ∀ {context}, Fresh id before.transport context →
      ∃ context, before.transport.streams.lookup id = some context ∧
        context.state.isTerminal = false := by
    intro context hfresh
    refine ⟨context, hfresh.lookup_eq, ?_⟩
    rw [hfresh.state_eq]
    rfl
  cases h with
  | failed error => exact Or.inr ⟨nofun, rfl⟩
  | pushed hlookup _ halive _ => exact Or.inl ⟨_, hlookup, halive⟩
  | @control context sar hlookup _ =>
    refine Or.inr ⟨nofun, ?_⟩
    have hothers := liveOthers_congr (@touched_setContext id before
      { context with quicPendingBytes := context.quicPendingBytes ++ bytes }).lookup_ne
    dsimp only
    rw [activeTransportStreamCount_eq _ id, activeTransportStreamCount_eq before.transport id,
      hothers, hlookup, lookup_setContext]
    rfl
  | buffered h => exact Or.inl (hlive h)
  | started h => exact Or.inl (hlive h)
  | refused h => exact Or.inl (hlive h)
  | attached h => exact Or.inl (hlive h)

/-- A stream that is detached has ended. -/
theorem Detached.count_le {state : TransportStreamState} {before after : Call}
    (h : Detached id state before after) (hstate : state.isTerminal = true) :
    after.transport.activeTransportStreamCount ≤ before.transport.activeTransportStreamCount := by
  have hothers := liveOthers_congr h.framed.lookup_ne
  cases h with
  | failed hafter => rw [hafter]
  | detached _ htouched _ =>
    rw [activeTransportStreamCount_of_lookup htouched.lookup_self hstate, hothers,
      activeTransportStreamCount_eq before.transport id]
    exact Nat.le_add_left _ _

/-- A turn of the control loop wakes no stream. -/
theorem Turned.count_le {backend : Backend} {nowMs : Option UInt64} {before after : Call}
    (h : ControlTurned backend id nowMs before after) :
    after.transport.activeTransportStreamCount ≤ before.transport.activeTransportStreamCount := by
  have hothers := liveOthers_congr h.framed.lookup_ne
  cases hlookup : before.transport.streams.lookup id with
  | none =>
    cases h with
    | missing hafter => rw [hafter]
    | found _ hsome => exact nomatch hlookup.symm.trans hsome
  | some context =>
    cases hterminal : context.state.isTerminal with
    | true =>
      obtain ⟨_, hlookup', hterminal'⟩ := ((terminal_iff hlookup).mpr hterminal).controlled h
      rw [activeTransportStreamCount_of_lookup hlookup hterminal,
        activeTransportStreamCount_of_lookup hlookup' hterminal', hothers]
    | false =>
      rw [activeTransportStreamCount_of_lookup hlookup hterminal, ← hothers]
      exact activeTransportStreamCount_le _ id

end InMemoryTransport

namespace Connection

open InMemoryTransport

variable {backend : Backend} {c c' : Connection} {s : Step}

/-- Between calls the number of live streams is within its limit; during a feed the stream that is
fed may have ended and be woken again, so it counts in any case. -/
def LiveBounded (c : Connection) : Prop :=
  match c.phase with
  | .feeding id _ => c.transport.liveOthers id + 1 ≤ c.transport.config.maxActiveTransportStreams
  | .idle | .controlling _ _ =>
    c.transport.activeTransportStreamCount ≤ c.transport.config.maxActiveTransportStreams

/-- With room for the stream in any case, the phase does not matter. -/
theorem LiveBounded.of_others {id : TransportStreamId}
    (hphase : ∀ k nowMs, c.phase = .feeding k nowMs → k = id)
    (h : c.transport.liveOthers id + 1 ≤ c.transport.config.maxActiveTransportStreams) :
    c.LiveBounded := by
  rw [LiveBounded]
  split
  · next k nowMs hk =>
    rw [hphase k nowMs hk]
    exact h
  · exact (activeTransportStreamCount_le _ id).trans h
  · exact (activeTransportStreamCount_le _ id).trans h

/-- Outside of a feed the number itself is what counts. -/
theorem LiveBounded.of_count (hphase : ∀ k nowMs, c.phase ≠ .feeding k nowMs)
    (h : c.transport.activeTransportStreamCount ≤ c.transport.config.maxActiveTransportStreams) :
    c.LiveBounded := by
  rw [LiveBounded]
  split
  · next k nowMs hk => exact absurd hk (hphase k nowMs)
  · exact h
  · exact h

theorem LiveBounded.count_le (hidle : c.phase = .idle) (h : c.LiveBounded) :
    c.transport.activeTransportStreamCount ≤ c.transport.config.maxActiveTransportStreams := by
  rw [LiveBounded, hidle] at h
  exact h

theorem LiveBounded.step (henabled : c.Enabled s) (h : c.LiveBounded) :
    (c.step backend s).LiveBounded := by
  obtain ⟨id, -, hstep⟩ := step_stepped backend henabled
  obtain ⟨hconfig, -, hne⟩ := hstep.framed
  have hothers := liveOthers_congr hne
  have hdetached : ∀ {call : Call} {state : TransportStreamState},
      Detached id state ⟨c.transport, [], []⟩ call → state.isTerminal = true → c.phase = .idle →
      call.transport.config = c.transport.config → LiveBounded ⟨call, .idle, c.deliveries⟩ := by
    intro call state hdetached hstate hidle hconfig
    refine LiveBounded.of_count (fun _ _ => nofun) ?_
    refine (hdetached.count_le hstate).trans ((h.count_le hidle).trans_eq ?_)
    exact congrArg _ hconfig.symm
  generalize c.step backend s = c' at *
  cases hstep with
  | closed hclosed => exact hdetached hclosed rfl henabled hconfig
  | reset hreset => exact hdetached hreset rfl henabled hconfig
  | @opened after hopened =>
    refine LiveBounded.of_count (fun _ _ => nofun) ?_
    rw [hconfig]
    cases hopened with
    | failed hafter =>
      rw [hafter]
      exact (h.count_le henabled : c.transport.activeTransportStreamCount ≤ _)
    | entered hnew _ _ _ _ hroom =>
      have hbefore := activeTransportStreamCount_eq c.transport id
      have hafter := activeTransportStreamCount_le after.transport id
      rw [show c.transport.streams.lookup id = none from hnew, Option.map_none,
        Option.getD_none, Nat.zero_add] at hbefore
      change after.transport.liveOthers id = c.transport.liveOthers id at hothers
      change c.transport.activeTransportStreamCount < c.transport.config.maxActiveTransportStreams
        at hroom
      change after.transport.activeTransportStreamCount ≤ _
      omega
  | @routed bytes nowMs r hrouted =>
    have hcount := h.count_le henabled
    rcases hrouted.live_cases with ⟨context, hlookup, halive⟩ | ⟨hroute, hsame⟩
    · refine LiveBounded.of_others (fun k now hk => (phaseOf_eq_feeding hk).2) ?_
      rw [hconfig, hothers]
      exact (activeTransportStreamCount_of_lookup hlookup halive).ge.trans hcount
    · refine LiveBounded.of_count (fun k now hk => hroute (phaseOf_eq_feeding hk).1) ?_
      rw [hconfig]
      exact hsame.trans_le hcount
  | @fed nowMs r hphase =>
    rw [LiveBounded, hphase] at h
    refine @LiveBounded.of_others _ id (fun k now hk => ?_) ?_
    · obtain ⟨hbefore, -⟩ := afterTurn_phase_eq hk (fun heq => nomatch heq)
      exact (Phase.feeding.inj (hphase.symm.trans hbefore)).1.symm
    · rw [hconfig]
      exact (Nat.add_le_add_right hothers.le 1).trans h
  | @controlled nowMs r hphase _ hturned =>
    rw [LiveBounded, hphase] at h
    refine LiveBounded.of_count (fun k now hk => ?_) ?_
    · obtain ⟨hbefore, -⟩ := afterTurn_phase_eq hk (fun heq => nomatch heq)
      exact nomatch hphase.symm.trans hbefore
    · rw [hconfig]
      exact hturned.count_le.trans h

/-- A call leaves the number of live streams within its limit. -/
theorem perform_live {t : InMemoryTransport} (backend : Backend)
    (h : t.activeTransportStreamCount ≤ t.config.maxActiveTransportStreams) (request : Request) :
    (perform backend request t).2.activeTransportStreamCount ≤
      (perform backend request t).2.config.maxActiveTransportStreams := by
  obtain ⟨c', hrun, hidle, htransport⟩ := @run_perform backend (initial t) rfl request
  have hstart : (initial t).LiveBounded := h
  have hend : c'.LiveBounded := hrun.invariant (fun _ _ henabled _ hc => hc.step henabled) hstart
  rw [← show c'.transport = (perform backend request t).2 from htransport]
  exact hend.count_le hidle

end Connection

/-! ### All calls -/

/-- A call of the transport, the ones about time included. -/
inductive TransportCall where
  | request (request : Request)
  | recordValidActivity (id : TransportStreamId) (now : UInt64)
  | checkInactivity (now : UInt64)
  | maybeEmitHeartbeat (id : TransportStreamId) (now : UInt64)

namespace TransportCall

open InMemoryTransport

/-- Make the call; `record_valid_activity` returns no actions. -/
def perform (backend : Backend) :
    TransportCall → Prog InMemoryTransport SarError (List TransportAction)
  | .request r => Connection.perform backend r
  | .recordValidActivity id now => do
    InMemoryTransport.recordValidActivity id now
    pure []
  | .checkInactivity now => InMemoryTransport.checkInactivity now
  | .maybeEmitHeartbeat id now => InMemoryTransport.maybeEmitHeartbeat id now

/-- Make the calls one after the other, whether they succeed or fail: all answers, and the
transport that is left. -/
def runs (backend : Backend) : List TransportCall → InMemoryTransport →
    List (Result (List TransportAction)) × InMemoryTransport
  | [], self => ([], self)
  | call :: calls, self =>
    let (result, self) := call.perform backend self
    let (results, self) := runs backend calls self
    (result :: results, self)

/-- A heartbeat that is due is only asked for when an action is allowed. -/
def Allowed (t : InMemoryTransport) : TransportCall → Prop
  | maybeEmitHeartbeat id now => ∀ context sar, t.streams.lookup id = some context →
    context.boundSarStreamId = some sar → heartbeatDue t.config context now →
    0 < t.config.maxPendingActions
  | _ => True

/-- Every call is allowed in the transport it is made on. -/
def AllAllowed (backend : Backend) : List TransportCall → InMemoryTransport → Prop
  | [], _ => True
  | call :: calls, t => call.Allowed t ∧ AllAllowed backend calls (call.perform backend t).2

/-- The tables and the number of live streams are within the limits of the configuration. -/
structure Accounted (config : TransportConfig) (t : InMemoryTransport) : Prop where
  config_eq : t.config = config
  tables : TablesBounded t
  live : t.activeTransportStreamCount ≤ t.config.maxActiveTransportStreams

section Steps

variable {config : TransportConfig} {t : InMemoryTransport} {backend : Backend}

/-- A change of the times of one stream. -/
theorem Accounted.setTimes (h : Accounted config t) {id : TransportStreamId}
    {context context' : TransportStreamContext} (hlookup : t.streams.lookup id = some context)
    (hstate : context'.state = context.state) (activity : Option UInt64) :
    Accounted config { t with
      streams := t.streams.insert id context', connectionLastActivityMs := activity } := by
  refine ⟨h.config_eq, ⟨h.tables.active, h.tables.attachments, h.tables.rejected⟩, ?_⟩
  have hlive := h.live
  have hlookup' : AList.lookup id (t.streams.insert id context') = some context' :=
    AList.lookup_insert _
  rw [activeTransportStreamCount_eq _ id] at hlive ⊢
  rw [hlookup, Option.map_some, Option.getD_some] at hlive
  rw [liveOthers_congr (t := t) fun k hk => AList.lookup_insert_ne hk]
  dsimp only
  rw [hlookup', Option.map_some, Option.getD_some, liveness, hstate]
  exact hlive

/-- The configuration of a transport stays. -/
theorem request_config (request : Request) :
    ((Connection.perform backend request) t).2.config = t.config := by
  obtain ⟨c', hrun, -, htransport⟩ :=
    @Connection.run_perform backend (Connection.initial t) rfl request
  rw [← show c'.transport = (Connection.perform backend request t).2 from htransport]
  exact hrun.invariant (P := fun c => c.transport.config = t.config)
    (fun _ _ henabled _ hc => (Connection.step_settings henabled).1.trans hc) rfl

theorem request_bounded (request : Request) (h : TablesBounded t) :
    TablesBounded (Connection.perform backend request t).2 ∧
      ∀ actions, (Connection.perform backend request t).1 = .ok actions →
        ActionsBounded (Connection.perform backend request t).2.config actions := by
  cases request with
  | openStream id => exact runCall_bounded preserves_bounded_openBody h
  | feed id bytes nowMs => exact runCall_bounded (preserves_bounded_feedBody backend bytes nowMs) h
  | close id => exact runCall_bounded preserves_bounded_closeBody h
  | reset id reason => exact runCall_bounded (preserves_bounded_resetBody reason) h

/-- A call keeps the limits, and its actions are within them. -/
theorem Accounted.perform (h : Accounted config t) {call : TransportCall}
    (hallowed : call.Allowed t) :
    Accounted config (call.perform backend t).2 ∧
      ∀ actions, (call.perform backend t).1 = .ok actions → ActionsBounded config actions := by
  have hempty : ∀ actions, (.ok [] : Result (List TransportAction)) = .ok actions →
      ActionsBounded config actions := by
    intro actions hactions
    obtain rfl := Except.ok.inj hactions
    exact ⟨Nat.zero_le _, Nat.zero_le _⟩
  cases call with
  | request request =>
    obtain ⟨htables, hactions⟩ := @request_bounded t backend request h.tables
    have hconfig := (@request_config t backend request).trans h.config_eq
    refine ⟨⟨hconfig, htables, Connection.perform_live backend h.live request⟩, ?_⟩
    intro actions hok
    rw [← hconfig]
    exact hactions actions hok
  | recordValidActivity id now =>
    rw [TransportCall.perform, bind_apply, InMemoryTransport.recordValidActivity, current_bind,
      bind_apply, lift_apply]
    rcases hlookup : t.streams.lookup id with _ | context
    · exact ⟨h, fun _ => nofun⟩
    · have htimes := @Accounted.setTimes config t h id context
        { context with lastValidActivityMs := some now } hlookup rfl (some now)
      exact ⟨htimes, hempty⟩
  | checkInactivity now =>
    rw [TransportCall.perform, InMemoryTransport.checkInactivity, current_bind, bind_apply,
      lift_apply]
    rcases rejectIf _ (SarError.timeout "transport inactivity watchdog expired") with e | ⟨⟩
    · exact ⟨h, fun _ => nofun⟩
    · exact ⟨h, hempty⟩
  | maybeEmitHeartbeat id now =>
    rw [TransportCall.perform, InMemoryTransport.maybeEmitHeartbeat, current_bind, bind_apply,
      lift_apply]
    rcases hlookup : t.streams.lookup id with _ | context
    · exact ⟨h, fun _ => nofun⟩
    rw [Except.okOr_some, andThen_ok]
    rcases hbound : context.boundSarStreamId with _ | sar
    · exact ⟨h, hempty⟩
    dsimp only
    split
    · next hdue =>
      have htimes := @Accounted.setTimes config t h id context
        { context with lastHeartbeatEmitMs := some now, boundSarStreamId := some sar } hlookup rfl
        t.connectionLastActivityMs
      refine ⟨htimes, fun actions hactions => ?_⟩
      obtain rfl := Except.ok.inj hactions
      rw [← h.config_eq]
      exact ⟨hallowed context sar hlookup hbound hdue, Nat.zero_le _⟩
    · exact ⟨h, hempty⟩

theorem Accounted.runs (h : Accounted config t) {calls : List TransportCall}
    (hallowed : AllAllowed backend calls t) :
    Accounted config (runs backend calls t).2 ∧
      ∀ actions, .ok actions ∈ (TransportCall.runs backend calls t).1 →
        ActionsBounded config actions := by
  induction calls generalizing t with
  | nil => exact ⟨h, fun _ hmem => (nomatch hmem)⟩
  | cons call calls ih =>
    obtain ⟨hnext, hactions⟩ := @Accounted.perform config t backend h call hallowed.1
    obtain ⟨hend, hlater⟩ := ih hnext hallowed.2
    refine ⟨hend, fun actions hmem => ?_⟩
    rcases mem_cons.mp hmem with heq | hmem
    · exact hactions actions heq.symm
    · exact hlater actions hmem

end Steps

theorem accounted_new (policy : PolicyMode) (config : TransportConfig)
    (keyProvider : Option KeyProvider) :
    Accounted config (InMemoryTransport.new policy config keyProvider) :=
  ⟨rfl, ⟨Nat.zero_le _, fun _ => Nat.zero_le _, Nat.zero_le _⟩, Nat.zero_le _⟩

/-- **Accounting.** After any calls of a session manager its sessions are within the limits, and
after any calls of a transport, in which no heartbeat that is due is asked for when no action is
allowed, its tables and live streams are, and so is every list of actions that a call has
returned. -/
theorem runs_bounded (sessionConfig : SessionManagerConfig) (sessionCalls : List SessionCall)
    (backend : Backend) (policy : PolicyMode) (config : TransportConfig)
    (keyProvider : Option KeyProvider) (calls : List TransportCall)
    (hallowed : AllAllowed backend calls (.new policy config keyProvider)) :
    let m := (SessionManager.runCalls sessionCalls (.new sessionConfig)).2
    let r := runs backend calls (.new policy config keyProvider)
    m.activeSessions.size ≤ sessionConfig.limits.maxActiveStreams ∧
      m.sessionMemory ≤ sessionConfig.limits.maxSessionMemoryBytes ∧
      r.2.activeSarStreams.size ≤ config.maxActiveSarStreams ∧
      r.2.activeTransportStreamCount ≤ config.maxActiveTransportStreams ∧
      (∀ sar, r.2.controlStreamAttachments.countValues (· == sar) ≤
        config.maxControlStreamsPerSarSession) ∧
      r.2.rejectedSarStreamIds.card ≤ config.maxRejectedStreamIds ∧
      ∀ actions, .ok actions ∈ r.1 → actions.length ≤ config.maxPendingActions ∧
        countStatusAckActions actions ≤ config.maxStatusAckActions := by
  intro m r
  have hconfig : m.config = sessionConfig := SessionManager.runCalls_config sessionConfig _
  have hwithin := SessionManager.runCalls_within sessionConfig sessionCalls
  obtain ⟨⟨heq, htables, hlive⟩, hactions⟩ :=
    @Accounted.runs _ _ backend (accounted_new policy config keyProvider) calls hallowed
  refine ⟨hconfig ▸ hwithin.streams, hconfig ▸ hwithin.memory, heq ▸ htables.active, heq ▸ hlive,
    fun sar => heq ▸ htables.attachments sar, heq ▸ htables.rejected, fun actions hmem => ?_⟩
  exact ⟨(hactions actions hmem).length, (hactions actions hmem).statusAck⟩

/-- A stream with a session is asked for a heartbeat that is due. -/
def beatingCalls : List TransportCall :=
  [.request (.openStream 1), .request (.feed 1 (exampleHeader ++ exampleInit 5) (some 0)),
    .maybeEmitHeartbeat 1 60000]

/-- The default configuration allows the heartbeat. -/
theorem runs_bounded_beatingCalls :
    let m := (SessionManager.runCalls SessionManager.indexedBetween
      (.new ⟨.default, .none, true⟩)).2
    let r := runs .plain beatingCalls (.new .quic .default none)
    (m.activeSessions.size = 1 ∧ r.1.getLast? = some (.ok [.emitHeartbeat 5])) ∧
      m.sessionMemory ≤ ResourceLimits.default.maxSessionMemoryBytes ∧
      r.2.activeTransportStreamCount ≤ 256 ∧
      ∀ actions, .ok actions ∈ r.1 →
        actions.length ≤ TransportConfig.default.maxPendingActions := by
  obtain ⟨-, hmemory, -, hlive, -, -, hactions⟩ := runs_bounded ⟨.default, .none, true⟩
    SessionManager.indexedBetween .plain .quic .default none beatingCalls
    ⟨trivial, trivial, fun _ _ _ _ _ => by decide +kernel, trivial⟩
  exact ⟨⟨by decide +kernel, by decide +kernel⟩, hmemory, hlive,
    fun actions hmem => (hactions actions hmem).1⟩

/-- In a transport that may not return any action opening and feeding fail, but the stream and its
binding are there, and the heartbeat is returned: one action more than allowed. -/
theorem heartbeat_unbounded :
    let config := { TransportConfig.default with maxPendingActions := 0 }
    ∃ actions, (runs .plain beatingCalls (.new .quic config none)).1.getLast? = some (.ok actions) ∧
      config.maxPendingActions < actions.length :=
  ⟨[.emitHeartbeat 5], by decide +kernel, by decide⟩

end TransportCall

end Sar
