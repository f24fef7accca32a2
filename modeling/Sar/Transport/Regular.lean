import Sar.Transport.Steps

/-!
# What holds in every run

`Regular` collects what the steps of the transport keep without any condition: a stream inside an
archive knows its Global Header, TCP connections have no control streams, and a control stream
does not wait for a `SESSION_INIT`. A feed loop never works on a control stream and a control loop
never on another one.
-/

namespace Sar

open Stateful

namespace InMemoryTransport

variable {id : TransportStreamId} {t t' : InMemoryTransport}

/-- What every step keeps. -/
structure Regular (t : InMemoryTransport) : Prop where
  headed : ∀ id context, t.streams.lookup id = some context → Headed context
  tcp : t.policy = .tcp → ∀ id, t.controlStreamAttachments.lookup id = none
  waiting : ∀ id sar context, t.controlStreamAttachments.lookup id = some sar →
    t.streams.lookup id = some context → context.awaitingSessionInit = false

variable {context : TransportStreamContext}

/-- A new context of a stream. -/
theorem Regular.touched (h : Regular t) (ht : Touched id t t' context) (hheaded : Headed context)
    (hwaiting : ∀ sar, t.controlStreamAttachments.lookup id = some sar →
      context.awaitingSessionInit = false) : Regular t' := by
  refine ⟨fun k new hnew => ?_, ?_, fun k sar new hattached hnew => ?_⟩
  · by_cases hk : k = id
    · subst hk
      obtain rfl := Option.some.inj (ht.lookup_self.symm.trans hnew)
      exact hheaded
    · exact h.headed k new ((ht.lookup_ne k hk).symm.trans hnew)
  · rw [ht.tables.policy, ht.tables.attachments]
    exact h.tcp
  · rw [ht.tables.attachments] at hattached
    by_cases hk : k = id
    · subst hk
      obtain rfl := Option.some.inj (ht.lookup_self.symm.trans hnew)
      exact hwaiting sar hattached
    · exact h.waiting k sar new hattached ((ht.lookup_ne k hk).symm.trans hnew)

/-- A change of a context that leaves the parser and the Global Header alone and starts no
waiting, with no new attachment. -/
theorem Regular.of_modify (h : Regular t) {f : TransportStreamContext → TransportStreamContext}
    (hpolicy : t'.policy = t.policy)
    (hattachments : ∀ k sar, t'.controlStreamAttachments.lookup k = some sar →
      t.controlStreamAttachments.lookup k = some sar)
    (hstreams : t'.streams = t.streams.modify id f)
    (hf : ∀ c, (f c).parser = c.parser ∧ (f c).currentGlobalHeader = c.currentGlobalHeader ∧
      ((f c).awaitingSessionInit = c.awaitingSessionInit ∨ (f c).awaitingSessionInit = false)) :
    Regular t' := by
  have hold : ∀ k context, t'.streams.lookup k = some context →
      ∃ old, t.streams.lookup k = some old ∧ (context = old ∨ context = f old) := by
    intro k context hcontext
    rw [hstreams, Table.lookup_modify_eq] at hcontext
    split at hcontext
    · next hk =>
      subst hk
      obtain ⟨old, hlookup, rfl⟩ := Option.map_eq_some_iff.mp hcontext
      exact ⟨old, hlookup, Or.inr rfl⟩
    · exact ⟨context, hcontext, Or.inl rfl⟩
  refine ⟨fun k context hcontext => ?_, fun htcp k => ?_,
    fun k sar context hattached hcontext => ?_⟩
  · obtain ⟨old, hlookup, rfl | rfl⟩ := hold k context hcontext
    · exact h.headed k context hlookup
    · exact (headed_congr (hf old).1 (hf old).2.1).mpr (h.headed k old hlookup)
  · rw [hpolicy] at htcp
    refine Option.eq_none_iff_forall_not_mem.mpr fun sar hsar => ?_
    exact nomatch (h.tcp htcp k).symm.trans (hattachments k sar hsar)
  · obtain ⟨old, hlookup, rfl | rfl⟩ := hold k context hcontext
    · exact h.waiting k sar context (hattachments k sar hattached) hlookup
    · rcases (hf old).2.2 with hsame | hfalse
      · rw [hsame]
        exact h.waiting k sar old (hattachments k sar hattached) hlookup
      · exact hfalse

theorem Regular.reject (h : Regular t) (id : TransportStreamId) (rejected : Finset UInt16) :
    Regular (markRejected id rejected t) :=
  h.of_modify rfl (fun _ _ hk => hk) rfl fun _ => ⟨rfl, rfl, Or.inl rfl⟩

theorem Regular.maybeRejected {before after : Call} (h : Regular before.transport)
    (hmaybe : MaybeRejected id before after) : Regular after.transport := by
  cases hmaybe with
  | noted hnotes =>
    obtain ⟨⟨rejected, htransport⟩, -⟩ := hnotes
    rw [htransport]
    exact ⟨h.headed, h.tcp, h.waiting⟩
  | rejected htransport _ =>
    rw [htransport]
    exact h.reject id _

theorem bindSarStream_policy (sar : UInt16) (uuid : Octets 16) (t : InMemoryTransport) :
    (bindSarStream id sar uuid t).policy = t.policy ∧
      (bindSarStream id sar uuid t).controlStreamAttachments = t.controlStreamAttachments := by
  rw [bindSarStream]
  dsimp only
  split <;> exact ⟨rfl, rfl⟩

variable {before after : Call}

/-- Handling an event. -/
theorem Regular.handled {event : LoopEvent} (h : Regular before.transport)
    (hlookup : before.transport.streams.lookup id = some context)
    (hhandled : Handled id before after event) : Regular after.transport := by
  cases hhandled with
  | quiet hquiet =>
    obtain ⟨peer, htouched⟩ := hquiet.touched hlookup
    refine h.touched htouched ((headed_congr rfl rfl).mpr (h.headed id context hlookup)) ?_
    exact fun sar hattached => (h.waiting id sar context hattached hlookup :)
  | rejected _ htransport _ =>
    rw [htransport]
    exact h.reject id _
  | @activated seq sar uuid _ _ htransport _ =>
    obtain ⟨hpolicy, hattachments⟩ := @bindSarStream_policy id sar uuid before.transport
    rw [htransport]
    refine h.of_modify hpolicy (fun k s hk => ?_)
      (congrArg (Table.modify id _) (bindSarStream_streams sar uuid before.transport))
      fun _ => ⟨rfl, rfl, Or.inr rfl⟩
    rwa [← hattachments]
  | closed _ htransport _ =>
    rw [htransport]
    exact h.of_modify rfl (fun _ _ hk => Table.lookup_of_retain hk) rfl
      fun _ => ⟨rfl, rfl, Or.inl rfl⟩

variable {sar : UInt16}

/-- Handling an event attaches no stream. -/
theorem Handled.lookup_attachments {event : LoopEvent} (hhandled : Handled id before after event)
    {k : TransportStreamId} (h : after.transport.controlStreamAttachments.lookup k = some sar) :
    before.transport.controlStreamAttachments.lookup k = some sar := by
  cases hhandled with
  | quiet hquiet =>
    obtain ⟨rejected, streams, htransport⟩ := hquiet.transport_eq
    rwa [htransport] at h
  | rejected _ htransport _ =>
    rwa [htransport] at h
  | @activated _ sar' uuid _ _ htransport _ =>
    rw [htransport] at h
    rwa [← (@bindSarStream_policy id sar' uuid before.transport).2]
  | closed _ htransport _ =>
    rw [htransport] at h
    exact Table.lookup_of_retain h

/-- A stream becomes a control stream. -/
theorem Regular.attach (h : Regular t) (hquic : t.policy = .quic) (ht : Touched id
      { t with controlStreamAttachments := t.controlStreamAttachments.insert id sar } t' context)
    (hheaded : Headed context) (hawaiting : context.awaitingSessionInit = false) : Regular t' := by
  refine ⟨fun k new hnew => ?_, fun htcp => ?_, fun k s new hattached hnew => ?_⟩
  · by_cases hk : k = id
    · subst hk
      obtain rfl := Option.some.inj (ht.lookup_self.symm.trans hnew)
      exact hheaded
    · exact h.headed k new ((ht.lookup_ne k hk).symm.trans hnew)
  · exact nomatch (ht.tables.policy.trans hquic).symm.trans htcp
  · by_cases hk : k = id
    · subst hk
      obtain rfl := Option.some.inj (ht.lookup_self.symm.trans hnew)
      exact hawaiting
    · rw [ht.tables.attachments] at hattached
      exact h.waiting k s new ((AList.lookup_insert_ne hk).symm.trans hattached)
        ((ht.lookup_ne k hk).symm.trans hnew)

/-- A turn of the feed loop, on a stream that is not a control stream. -/
theorem Regular.fed {find : CallM LoopEvent}
    {accepts : TransportStreamContext → SessionEntry → Prop} (h : Regular before.transport)
    (hturned : Turned find id Continues accepts before after)
    (hplain : before.transport.controlStreamAttachments.lookup id = none) :
    Regular after.transport ∧ after.transport.controlStreamAttachments.lookup id = none := by
  cases hturned with
  | missing hafter =>
    rw [hafter]
    exact ⟨h, hplain⟩
  | @found event found context context' _ hlookup htouched hkept _ hhandled =>
    have hnone : found.transport.controlStreamAttachments.lookup id = none := by
      rw [htouched.tables.attachments]
      exact hplain
    have hfound : Regular found.transport := by
      refine h.touched htouched (hkept.headed (h.headed id context hlookup)) fun sar hsar => ?_
      exact nomatch hplain.symm.trans hsar
    refine ⟨hfound.handled htouched.lookup_self hhandled, ?_⟩
    refine Option.eq_none_iff_forall_not_mem.mpr fun sar hsar => ?_
    exact nomatch hnone.symm.trans (hhandled.lookup_attachments hsar)

/-- A turn of the control loop. -/
theorem Regular.controlled {backend : Backend} {nowMs : Option UInt64}
    (h : Regular before.transport) (hturned : ControlTurned backend id nowMs before after) :
    Regular after.transport := by
  cases hturned with
  | missing hafter =>
    rw [hafter]
    exact h
  | @found event found context context' _ hlookup htouched hkept _ hhandled =>
    have hfound : Regular found.transport := by
      refine h.touched htouched (hkept.continues.headed (h.headed id context hlookup))
        fun s hs => ?_
      rw [hkept.awaiting_eq]
      exact h.waiting id s context hs hlookup
    exact hfound.handled htouched.lookup_self hhandled

/-- The start of a feed: the loop that follows fits the stream. -/
theorem Regular.routed {bytes : Bytes} {r : Result Route × Call} (h : Regular before.transport)
    (hrouted : Routed id bytes before r) :
    Regular r.2.transport ∧
      (r.1 = .ok .feed → r.2.transport.controlStreamAttachments.lookup id = none) ∧
      (r.1 = .ok .control → ∃ sar,
        r.2.transport.controlStreamAttachments.lookup id = some sar) := by
  have hcontinued : ∀ {context context' : TransportStreamContext},
      before.transport.streams.lookup id = some context → (Headed context → Headed context') →
      context'.awaitingSessionInit = context.awaitingSessionInit →
      Regular (setContext id context' before).transport := by
    intro context context' hlookup hheaded hawaiting
    refine h.touched (touched_setContext before _) (hheaded (h.headed id context hlookup)) ?_
    intro sar hsar
    rw [hawaiting]
    exact h.waiting id sar context hsar hlookup
  cases hrouted with
  | failed error => exact ⟨h, fun heq => (nomatch heq), fun heq => nomatch heq⟩
  | @pushed context parser r hlookup hattached hstate hpush =>
    refine ⟨hcontinued hlookup (headed_pushBytes hpush) rfl, fun _ => ?_, fun heq => ?_⟩
    · cases hpolicy : before.transport.policy with
      | tcp => exact h.tcp hpolicy id
      | quic => exact hattached hpolicy
    · rcases r with e | ⟨⟩
      · exact nomatch heq
      · exact nomatch heq
  | @control context sar hlookup hattached =>
    refine ⟨hcontinued hlookup ?_ rfl, fun heq => (nomatch heq), fun _ => ⟨sar, hattached⟩⟩
    exact fun hheaded => hheaded
  | @buffered context hfresh =>
    refine ⟨hcontinued hfresh.lookup_eq ?_ rfl, fun heq => (nomatch heq), fun heq => nomatch heq⟩
    exact fun hheaded => hheaded
  | @started context parser hfresh hpush =>
    exact ⟨hcontinued hfresh.lookup_eq (headed_pushBytes hpush) rfl, fun _ => hfresh.unattached,
      fun heq => nomatch heq⟩
  | @refused context context' r hfresh hloud hcontinues _ hreject =>
    have hset : Regular (setContext id context' before).transport := by
      refine h.touched (touched_setContext before _)
        (hcontinues.headed (h.headed id context hfresh.lookup_eq)) fun sar hsar => ?_
      exact nomatch hfresh.unattached.symm.trans hsar
    refine ⟨hset.maybeRejected hreject.maybeRejected, fun heq => ?_, fun heq => ?_⟩
    · rcases r with ⟨e | ⟨⟩, after⟩ <;> exact nomatch heq
    · rcases r with ⟨e | ⟨⟩, after⟩ <;> exact nomatch heq
  | @attached context sar manager r after hfresh hloud hactive hroute _ htouched _ =>
    refine ⟨h.attach hfresh.policy_eq htouched ?_ rfl, fun heq => ?_, fun _ => ?_⟩
    · exact (headed_congr rfl rfl).mpr (h.headed id context hfresh.lookup_eq)
    · exact nomatch hroute _ heq
    · refine ⟨sar, ?_⟩
      rw [htouched.tables.attachments]
      exact AList.lookup_insert _

/-- A new stream. -/
theorem Regular.opened (h : Regular before.transport) (hopened : Opened id before after) :
    Regular after.transport := by
  cases hopened with
  | failed hafter => rwa [hafter]
  | @entered context opened _ hcontext htouched _ hend =>
    subst hcontext
    refine Regular.maybeRejected (h.touched htouched (Or.inl rfl) fun _ _ => rfl) hend

/-- Closing or resetting a stream. -/
theorem Regular.detached {state : TransportStreamState} (h : Regular before.transport)
    (hdetached : Detached id state before after) : Regular after.transport := by
  cases hdetached with
  | failed hafter => rwa [hafter]
  | @detached context hlookup htouched _ =>
    have hleft : ∀ k sar, (detach id context.boundSarStreamId
        before.transport).controlStreamAttachments.lookup k = some sar →
        before.transport.controlStreamAttachments.lookup k = some sar ∧ k ≠ id :=
      fun k sar hk => lookup_attachments_detach hk
    have hgone : Regular (detach id context.boundSarStreamId before.transport) := by
      refine ⟨?_, fun htcp k => ?_, fun k sar old hk => ?_⟩
      · rw [detach_streams]
        exact h.headed
      · rw [detach_policy] at htcp
        refine Option.eq_none_iff_forall_not_mem.mpr fun sar hsar => ?_
        exact nomatch (h.tcp htcp k).symm.trans (hleft k sar hsar).1
      · rw [detach_streams]
        exact h.waiting k sar old (hleft k sar hk).1
    refine hgone.touched htouched ((headed_congr rfl rfl).mpr (h.headed id context hlookup)) ?_
    exact fun sar hsar => absurd rfl (hleft id sar hsar).2

end InMemoryTransport

/-! ### Every run is regular -/

namespace Connection

open InMemoryTransport

/-- The transport is regular, and each loop works on a stream of its kind. -/
structure Regular (c : Connection) : Prop where
  transport : InMemoryTransport.Regular c.transport
  feeding : ∀ id nowMs, c.phase = .feeding id nowMs →
    c.transport.controlStreamAttachments.lookup id = none
  controlling : ∀ id nowMs, c.phase = .controlling id nowMs →
    ∃ sar, c.transport.controlStreamAttachments.lookup id = some sar

theorem regular_initial (policy : PolicyMode) (config : TransportConfig)
    (keyProvider : Option KeyProvider) :
    Regular (initial (InMemoryTransport.new policy config keyProvider)) := by
  refine ⟨⟨?_, ?_, ?_⟩, ?_, ?_⟩
  · exact fun _ _ hlookup => nomatch hlookup
  · exact fun _ _ => rfl
  · exact fun _ _ _ hlookup => nomatch hlookup
  · exact fun _ _ hphase => nomatch hphase
  · exact fun _ _ hphase => nomatch hphase

theorem Regular.step {backend : Backend} (c : Connection) (s : Step) (henabled : c.Enabled s)
    (h : c.Regular) : (c.step backend s).Regular := by
  -- a call starts with no actions and no deliveries
  have hstart : InMemoryTransport.Regular (Call.mk c.transport [] []).transport := h.transport
  have hidle : ∀ {call : Call} {history : List Delivery},
      InMemoryTransport.Regular call.transport → Regular ⟨call, .idle, history⟩ :=
    fun hcall => ⟨hcall, fun _ _ hphase => (nomatch hphase), fun _ _ hphase => nomatch hphase⟩
  have hbusy : ∀ {r : Result Bool × Call} {phase : Phase}, (c.afterTurn r).phase = phase →
      phase ≠ .idle → c.phase = phase := fun hafter hphase => (afterTurn_phase_eq hafter hphase).1
  obtain ⟨id, -, hstep⟩ := step_stepped backend henabled
  generalize c.step backend s = c' at hstep ⊢
  cases hstep with
  | opened hopened => exact hidle (hstart.opened hopened)
  | closed hdetached => exact hidle (hstart.detached hdetached)
  | reset hdetached => exact hidle (hstart.detached hdetached)
  | routed hrouted =>
    obtain ⟨hregular, hfeed, hcontrol⟩ := hstart.routed hrouted
    refine ⟨hregular, fun id' nowMs' hphase => ?_, fun id' nowMs' hphase => ?_⟩
    · obtain ⟨hroute, rfl⟩ := phaseOf_eq_feeding hphase
      exact hfeed hroute
    · obtain ⟨hroute, rfl⟩ := phaseOf_eq_controlling hphase
      exact hcontrol hroute
  | @fed nowMs _ hphase _ hturned =>
    obtain ⟨hregular, hplain⟩ := h.transport.fed hturned (h.feeding id nowMs hphase)
    refine ⟨hregular, fun id' nowMs' hafter => ?_, fun id' nowMs' hafter => ?_⟩
    · have hsame := hbusy hafter fun heq => nomatch heq
      obtain ⟨rfl, -⟩ := Phase.feeding.inj (hphase.symm.trans hsame)
      exact hplain
    · have hsame := hbusy hafter fun heq => nomatch heq
      exact nomatch hphase.symm.trans hsame
  | @controlled nowMs _ hphase _ hturned =>
    -- the stream stays attached, because no session is closed
    refine ⟨h.transport.controlled hturned, fun id' nowMs' hafter => ?_,
      fun id' nowMs' hafter => ?_⟩
    · have hsame := hbusy hafter fun heq => nomatch heq
      exact nomatch hphase.symm.trans hsame
    · have hsame := hbusy hafter fun heq => nomatch heq
      obtain ⟨rfl, -⟩ := Phase.controlling.inj (hphase.symm.trans hsame)
      obtain ⟨sar, hsar⟩ := h.controlling id nowMs hphase
      exact ⟨sar, (congrArg _ hturned.sameTables.attachments).trans hsar⟩

end Connection

end Sar
