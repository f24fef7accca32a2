import Sar.Transport.Regular

/-!
# Consistency of the transport's tables

The six tables of the transport describe one set of bound SAR stream ids. `Consistent` says that
they agree on it and that every bound id has a live transport stream behind it that is not a
control stream. Activation and `SESSION_CLOSE` change all tables together and keep this; closing,
resetting and rejecting a transport stream do not clear all of them.
-/

namespace Sar

open Stateful

namespace InMemoryTransport

/-- The tables agree on the bound ids, and the bound ids have live transport streams. -/
structure Consistent (t : InMemoryTransport) : Prop where
  uuids : ∀ k, k ∈ t.activeSessionUuids ↔ k ∈ t.activeSarStreams
  headers : ∀ k, k ∈ t.activeGlobalHeaders ↔ k ∈ t.activeSarStreams
  zero : (0 : UInt16) ∉ t.activeSarStreams
  tls : ∀ k ∈ t.tlsExporterBound, k ∈ t.activeSarStreams
  attached : ∀ id sar, t.controlStreamAttachments.lookup id = some sar →
    sar ∈ t.activeSarStreams
  live : ∀ k id, t.activeSarStreams.lookup k = some id →
    (∃ context, t.streams.lookup id = some context ∧ context.state.isTerminal = false) ∧
      t.controlStreamAttachments.lookup id = none

/-- Some SAR stream id is bound to the transport stream. -/
def Carries (t : InMemoryTransport) (id : TransportStreamId) : Prop :=
  ∃ k, t.activeSarStreams.lookup k = some id

variable {t t' : InMemoryTransport} {id : TransportStreamId}

/-- A change of the streams alone is fine when the streams that carry an id stay alive. -/
theorem Consistent.of_sameTables (h : Consistent t) (hsame : SameTables t t')
    (hlive : ∀ id, Carries t id → ∀ context, t.streams.lookup id = some context →
      context.state.isTerminal = false →
      ∃ context', t'.streams.lookup id = some context' ∧ context'.state.isTerminal = false) :
    Consistent t' := by
  refine ⟨?_, ?_, ?_, ?_, ?_, ?_⟩
  · rw [hsame.uuids, hsame.active]
    exact h.uuids
  · rw [hsame.headers, hsame.active]
    exact h.headers
  · rw [hsame.active]
    exact h.zero
  · rw [hsame.tls, hsame.active]
    exact h.tls
  · rw [hsame.attachments, hsame.active]
    exact h.attached
  · intro k id hk
    rw [hsame.active] at hk
    obtain ⟨⟨context, hcontext, hstate⟩, hcontrol⟩ := h.live k id hk
    refine ⟨hlive id ⟨k, hk⟩ context hcontext hstate, ?_⟩
    rw [hsame.attachments]
    exact hcontrol

/-- Clearing an id from all tables, as `SESSION_CLOSE` does. -/
theorem Consistent.unbind (h : Consistent t) (sar : UInt16) :
    Consistent (unbindSarStream sar t) := by
  have hactive : ∀ k, k ∈ t.activeSarStreams.erase sar ↔
      k ≠ sar ∧ k ∈ t.activeSarStreams := fun k => AList.mem_erase
  refine ⟨fun k => ?_, fun k => ?_, ?_, fun k hk => ?_, fun id sid hsid => ?_, fun k id hk => ?_⟩
  · exact (AList.mem_erase.trans (and_congr_right fun _ => h.uuids k)).trans (hactive k).symm
  · exact (AList.mem_erase.trans (and_congr_right fun _ => h.headers k)).trans (hactive k).symm
  · exact fun hzero => h.zero ((hactive 0).mp hzero).2
  · obtain ⟨hne, hmem⟩ := Finset.mem_erase.mp hk
    exact (hactive k).mpr ⟨hne, h.tls k hmem⟩
  · -- an attachment that was kept points to another id
    have hlookup : ((t.controlStreamAttachments.lookup id).filter fun s => s != sar) =
        some sid := (Table.lookup_retain_eq _ id _).symm.trans hsid
    obtain ⟨hold, hkept⟩ := Option.filter_eq_some_iff.mp hlookup
    exact (hactive sid).mpr ⟨by simpa using hkept, h.attached id sid hold⟩
  · have hlookup := (Table.lookup_erase_eq sar k t.activeSarStreams).symm.trans hk
    split at hlookup
    · exact nomatch hlookup
    · obtain ⟨hstream, hcontrol⟩ := h.live k id hlookup
      refine ⟨hstream, (Table.lookup_retain_eq _ id _).trans ?_⟩
      rw [hcontrol]
      rfl

variable {context : TransportStreamContext}

variable {sar : UInt16}

/-- An accepted activation keeps the tables consistent. -/
theorem Consistent.activate (h : Consistent t) {flags : SessionFlags}
    (hrefusal : t.activationRefusal sar flags = none) {header : GlobalHeader}
    (hcontext : t.streams.lookup id = some context)
    (hheader : context.currentGlobalHeader = some header)
    (hcontrol : t.controlStreamAttachments.lookup id = none) (uuid : Octets 16) :
    Consistent (activated id sar uuid t) := by
  obtain ⟨hzero, -, -⟩ := activationRefusal_eq_none hrefusal
  have hfound : (t.streams.lookup id).bind (·.currentGlobalHeader) = some header := by
    rw [hcontext]
    exact hheader
  simp only [activated, bindSarStream, hfound]
  have hactive : ∀ k, k ∈ t.activeSarStreams.insert sar id ↔ k = sar ∨ k ∈ t.activeSarStreams :=
    fun k => AList.mem_insert t.activeSarStreams
  refine ⟨fun k => ?_, fun k => ?_, fun h0 => ?_, fun k hk => ?_, fun id' sid hsid => ?_,
    fun k id' hk => ?_⟩
  · exact ((AList.mem_insert _).trans (or_congr_right (h.uuids k))).trans (hactive k).symm
  · exact ((AList.mem_insert _).trans (or_congr_right (h.headers k))).trans (hactive k).symm
  · rcases (hactive 0).mp h0 with heq | hmem
    · exact hzero heq.symm
    · exact h.zero hmem
  · refine (hactive k).mpr ?_
    dsimp only at hk
    split at hk
    · rcases Finset.mem_insert.mp hk with heq | hmem
      · exact Or.inl heq
      · exact Or.inr (h.tls k hmem)
    · exact Or.inr (h.tls k hk)
  · exact (hactive sid).mpr (Or.inr (h.attached id' sid hsid))
  · -- the stream of the new id has just become active; the others are as they were
    have hmodified := Table.lookup_modify_eq id id' (fun context : TransportStreamContext =>
      { context with
        state := .active, boundSarStreamId := some sar, awaitingSessionInit := false }) t.streams
    have hlookup := (Table.lookup_insert_eq sar k id t.activeSarStreams).symm.trans hk
    by_cases hid : id' = id
    · subst hid
      rw [if_pos rfl, hcontext, Option.map_some] at hmodified
      exact ⟨⟨_, hmodified, rfl⟩, hcontrol⟩
    · rw [if_neg hid] at hmodified
      split at hlookup
      · exact absurd (Option.some.inj hlookup).symm hid
      · obtain ⟨⟨context', hcontext', hstate⟩, hnone⟩ := h.live k id' hlookup
        exact ⟨⟨context', hmodified.trans hcontext', hstate⟩, hnone⟩

/-- Marking a stream that carries no id as rejected. -/
theorem Consistent.reject (h : Consistent t) (hfree : ¬ Carries t id) (rejected : Finset UInt16) :
    Consistent (markRejected id rejected t) := by
  refine h.of_sameTables ⟨rfl, rfl, rfl, rfl, rfl, rfl, rfl⟩
    fun id' hcarries context hcontext hstate => ?_
  have hne : id' ≠ id := by
    rintro rfl
    exact hfree hcarries
  refine ⟨context, ?_, hstate⟩
  exact (Table.lookup_modify_eq id id' _ t.streams).trans ((if_neg hne).trans hcontext)

/-! ### What the steps keep -/

theorem SameTables.carries_iff (h : SameTables t t') (id : TransportStreamId) :
    Carries t' id ↔ Carries t id := by
  rw [Carries, h.active, Carries]

/-- A new context is fine when the stream stays alive as long as it carries an id. -/
theorem Consistent.touched (h : Consistent t) (ht : Touched id t t' context)
    (halive : Carries t id → context.state.isTerminal = false) : Consistent t' := by
  refine h.of_sameTables ht.tables fun k hk old hold hstate => ?_
  by_cases hkid : k = id
  · subst hkid
    exact ⟨context, ht.lookup_self, halive hk⟩
  · exact ⟨old, (ht.lookup_ne k hkid).trans hold, hstate⟩

/-- A stream that carries an id is alive. -/
theorem Consistent.alive (h : Consistent t) (hlookup : t.streams.lookup id = some context)
    (hcarries : Carries t id) : context.state.isTerminal = false := by
  obtain ⟨k, hk⟩ := hcarries
  obtain ⟨⟨old, hold, hstate⟩, -⟩ := h.live k id hk
  obtain rfl := Option.some.inj (hlookup.symm.trans hold)
  exact hstate

/-- A context that goes on as it was is fine. -/
theorem Consistent.continued {context' : TransportStreamContext} (h : Consistent t)
    (hlookup : t.streams.lookup id = some context) (ht : Touched id t t' context')
    (hcontinues : Continues context context') : Consistent t' :=
  h.touched ht fun hcarries => hcontinues.alive (h.alive hlookup hcarries)

/-- A stream that carries no id may be rejected or left alone. -/
theorem Consistent.maybeRejected {before after : Call} (h : Consistent before.transport)
    (hmaybe : MaybeRejected id before after) (hfree : ¬ Carries before.transport id) :
    Consistent after.transport := by
  cases hmaybe with
  | noted hnotes =>
    obtain ⟨⟨rejected, htransport⟩, -⟩ := hnotes
    rw [htransport]
    exact h.of_sameTables ⟨rfl, rfl, rfl, rfl, rfl, rfl, rfl⟩
      fun _ _ context hcontext hstate => ⟨context, hcontext, hstate⟩
  | rejected htransport _ =>
    rw [htransport]
    exact h.reject hfree _

/-- An accepted `SESSION_CLOSE`. -/
theorem Consistent.deactivate (h : Consistent t) (id : TransportStreamId) (sar : UInt16)
    {state : TransportStreamState} (hstate : state.isTerminal = false) (rejected : Finset UInt16) :
    Consistent (deactivated id sar state { t with rejectedSarStreamIds := rejected }) := by
  refine (h.unbind sar).of_sameTables ⟨rfl, rfl, rfl, rfl, rfl, rfl, rfl⟩ ?_
  intro k _ context hcontext hold
  by_cases hk : k = id
  · subst hk
    refine ⟨{ context with boundSarStreamId := none, state := state }, ?_, hstate⟩
    refine (Table.lookup_modify_eq k k _ _).trans ((if_pos rfl).trans ?_)
    exact congrArg _ hcontext
  · exact ⟨context, (Table.lookup_modify_eq id k _ _).trans ((if_neg hk).trans hcontext), hold⟩

/-- Closing or resetting a stream touches only an id that no stream carries. -/
structure Releasable (t : InMemoryTransport) (id : TransportStreamId) : Prop where
  free : ¬ Carries t id
  stale : ∀ context sar, t.streams.lookup id = some context →
    context.boundSarStreamId = some sar → t.controlStreamAttachments.lookup id = none →
    sar ∉ t.activeSarStreams

/-- Removing an attachment. -/
theorem Consistent.eraseAttachment (h : Consistent t) (id : TransportStreamId) :
    Consistent { t with controlStreamAttachments := t.controlStreamAttachments.erase id } := by
  have hlookup : ∀ k, (t.controlStreamAttachments.erase id).lookup k =
      if k = id then none else t.controlStreamAttachments.lookup k := fun k =>
    Table.lookup_erase_eq id k _
  refine ⟨h.uuids, h.headers, h.zero, h.tls, fun k sar hk => ?_, fun k other hk => ?_⟩
  · have hold := (hlookup k).symm.trans hk
    split at hold
    · exact nomatch hold
    · exact h.attached k sar hold
  · obtain ⟨hstream, hnone⟩ := h.live k other hk
    refine ⟨hstream, (hlookup other).trans ?_⟩
    split
    · rfl
    · exact hnone

/-- Clearing an id that is not bound, as closing and resetting do, changes no set of keys. -/
theorem Consistent.clearUnbound (h : Consistent t) (hsar : sar ∉ t.activeSarStreams) :
    Consistent { t with
      activeSarStreams := t.activeSarStreams.erase sar
      activeSessionUuids := t.activeSessionUuids.erase sar
      tlsExporterBound := t.tlsExporterBound.erase sar
      controlStreamAttachments := t.controlStreamAttachments.retain fun sid => sid != sar } := by
  have hunbind := h.unbind sar
  have hkeys : ∀ k, k ∈ t.activeGlobalHeaders ↔ k ∈ t.activeGlobalHeaders.erase sar := by
    intro k
    rw [AList.mem_erase]
    refine ⟨fun hk => ⟨?_, hk⟩, fun hk => hk.2⟩
    rintro rfl
    exact hsar ((h.headers k).mp hk)
  exact ⟨hunbind.uuids, fun k => (hkeys k).trans (hunbind.headers k), hunbind.zero, hunbind.tls,
    hunbind.attached, hunbind.live⟩

/-- The tables after closing or resetting a stream that nothing depends on. -/
theorem Consistent.detach (h : Consistent t) (hfree : Releasable t id)
    (hlookup : t.streams.lookup id = some context) :
    Consistent (detach id context.boundSarStreamId t) ∧
      ¬ Carries (InMemoryTransport.detach id context.boundSarStreamId t) id := by
  rcases detach_cases id context.boundSarStreamId t with heq | ⟨sar, hbound, hplain, heq⟩
  · rw [heq]
    exact ⟨h.eraseAttachment id, hfree.free⟩
  · have hsar := hfree.stale context sar hlookup hbound hplain
    rw [heq]
    refine ⟨(h.clearUnbound hsar).eraseAttachment id, ?_⟩
    rintro ⟨k, hk⟩
    have hold := (Table.lookup_erase_eq sar k _).symm.trans hk
    split at hold
    · exact nomatch hold
    · exact hfree.free ⟨k, hold⟩

variable {before after : Call}

/-- An event that is handled keeps the tables consistent when it does not reject a stream that
carries an id, and when only streams with a Global Header are activated. -/
theorem Consistent.handled {event : LoopEvent} (h : Consistent before.transport)
    (hlookup : before.transport.streams.lookup id = some context)
    (hhandled : Handled id before after event)
    (hspares : Carries before.transport id → before.transport.rejects id event = false)
    (hactivated : ∀ seq sar uuid flags,
      event = .sessionResult seq (.ok (.single (.sessionActivated sar uuid flags))) →
      before.transport.controlStreamAttachments.lookup id = none ∧
        ∃ header, context.currentGlobalHeader = some header) : Consistent after.transport := by
  cases hhandled with
  | quiet hquiet =>
    obtain ⟨peer, htouched⟩ := hquiet.touched hlookup
    exact h.touched htouched fun hcarries => (h.alive hlookup hcarries :)
  | rejected hrejects htransport _ =>
    rw [htransport]
    refine h.reject (fun hcarries => ?_) _
    rw [hspares hcarries] at hrejects
    exact Bool.false_ne_true hrejects
  | activated haccept htransport _ =>
    obtain ⟨hcontrol, header, hheader⟩ := hactivated _ _ _ _ rfl
    rw [htransport]
    exact h.activate haccept hlookup hheader hcontrol _
  | closed hstate htransport _ =>
    rw [htransport]
    exact h.deactivate id _ hstate _

/-- Attaching a control stream to a session. -/
theorem Consistent.attach (h : Consistent t) (hactive : sar ∈ t.activeSarStreams)
    (hfree : ¬ Carries t id) :
    Consistent { t with
      controlStreamAttachments := t.controlStreamAttachments.insert id sar } := by
  have hlookup : ∀ k, (t.controlStreamAttachments.insert id sar).lookup k =
      if k = id then some sar else t.controlStreamAttachments.lookup k := fun k =>
    Table.lookup_insert_eq id k sar _
  refine ⟨h.uuids, h.headers, h.zero, h.tls, fun k other hk => ?_, fun k other hk => ?_⟩
  · have hold := (hlookup k).symm.trans hk
    split at hold
    · obtain rfl := Option.some.inj hold
      exact hactive
    · exact h.attached k other hold
  · obtain ⟨hstream, hnone⟩ := h.live k other hk
    refine ⟨hstream, (hlookup other).trans ?_⟩
    rw [if_neg, hnone]
    rintro rfl
    exact hfree ⟨k, hk⟩

/-- A turn of the feed loop. -/
theorem Consistent.fed {backend : Backend} {nowMs : Option UInt64}
    (h : Consistent before.transport) (hturned : FeedTurned backend id nowMs before after)
    (hregular : Regular before.transport)
    (hplain : before.transport.controlStreamAttachments.lookup id = none)
    (hspares : Carries before.transport id → ∀ event found,
      feedEvent backend id nowMs before = (.ok event, found) →
      found.transport.rejects id event = false) : Consistent after.transport := by
  cases hturned with
  | missing hafter => rwa [hafter]
  | @found event found context context' hfind hlookup htouched hkept hobserved hhandled =>
    have hfound := h.continued hlookup htouched hkept
    refine hfound.handled htouched.lookup_self hhandled (fun hcarries => ?_) ?_
    · exact hspares ((htouched.tables.carries_iff id).mp hcarries) event found hfind
    · -- an activation answers an entry, and entries come with a Global Header
      rintro seq sar uuid flags rfl
      obtain ⟨entry, haccepts, hdelivered, -, -⟩ := hobserved.exists_delivered rfl
      rw [htouched.tables.attachments, hdelivered.header_eq]
      exact ⟨hplain, haccepts.headed (hregular.headed id context hlookup)⟩

/-- A turn of the control loop: a control stream carries no id. -/
theorem Consistent.controlled {backend : Backend} {nowMs : Option UInt64}
    (h : Consistent before.transport) (hturned : ControlTurned backend id nowMs before after) :
    Consistent after.transport := by
  cases hturned with
  | missing hafter => rwa [hafter]
  | found _ hlookup htouched hkept hobserved hhandled =>
    have hfree : ¬ Carries before.transport id := by
      rintro ⟨k, hk⟩
      obtain ⟨sar, hattached⟩ := hkept.attached
      exact nomatch hattached.symm.trans (h.live k id hk).2
    have hfound := h.continued hlookup htouched hkept.continues
    rcases hobserved.handled_control hhandled with hquiet | ⟨rejected, -, htransport, -⟩
    · obtain ⟨peer, hpeer⟩ := hquiet.touched htouched.lookup_self
      exact hfound.touched hpeer fun hcarries =>
        absurd ((htouched.tables.carries_iff id).mp hcarries) hfree
    · rw [htransport]
      refine hfound.reject ?_ _
      rwa [htouched.tables.carries_iff]

/-- The start of a feed. -/
theorem Consistent.routed {bytes : Bytes} {r : Result Route × Call}
    (h : Consistent before.transport) (hrouted : Routed id bytes before r)
    (hspares : Carries before.transport id → ∀ context, Fresh id before.transport context →
      startsQuietly context.parser (context.quicPendingBytes ++ bytes) = true) :
    Consistent r.2.transport := by
  have hfree : ∀ {context : TransportStreamContext}, Fresh id before.transport context →
      startsQuietly context.parser (context.quicPendingBytes ++ bytes) = false →
      ¬ Carries before.transport id := by
    intro context hfresh hloud hcarries
    rw [hspares hcarries context hfresh] at hloud
    exact Bool.false_ne_true hloud.symm
  have hset : ∀ {context context' : TransportStreamContext},
      before.transport.streams.lookup id = some context → context'.state = context.state →
      Consistent (setContext id context' before).transport := by
    intro context context' hlookup hstate
    refine h.touched (touched_setContext before context') fun hcarries => ?_
    rw [hstate]
    exact h.alive hlookup hcarries
  cases hrouted with
  | failed error => exact h
  | pushed hlookup => exact hset hlookup rfl
  | control hlookup => exact hset hlookup rfl
  | buffered hfresh => exact hset hfresh.lookup_eq rfl
  | started hfresh => exact hset hfresh.lookup_eq rfl
  | refused hfresh hloud hcontinues _ hreject =>
    have hcontinued := h.continued hfresh.lookup_eq (touched_setContext before _) hcontinues
    exact hcontinued.maybeRejected hreject.maybeRejected (hfree hfresh hloud)
  | attached hfresh hloud hactive _ _ htouched _ =>
    have hnone := hfree hfresh hloud
    exact (h.attach hactive hnone).touched htouched fun hcarries => absurd hcarries hnone

/-- A new stream. -/
theorem Consistent.opened (h : Consistent before.transport) (hopened : Opened id before after) :
    Consistent after.transport := by
  cases hopened with
  | failed hafter => rwa [hafter]
  | entered hnew _ htouched _ hend =>
    have hfree : ¬ Carries before.transport id := by
      rintro ⟨k, hk⟩
      obtain ⟨⟨old, hold, -⟩, -⟩ := h.live k id hk
      exact nomatch hnew.symm.trans hold
    refine (h.touched htouched fun hcarries => absurd hcarries hfree).maybeRejected hend ?_
    rwa [htouched.tables.carries_iff]

/-- Closing or resetting a stream that nothing depends on. -/
theorem Consistent.detached {state : TransportStreamState} (h : Consistent before.transport)
    (hdetached : Detached id state before after) (hfree : Releasable before.transport id) :
    Consistent after.transport := by
  cases hdetached with
  | failed hafter => rwa [hafter]
  | detached hlookup htouched _ =>
    obtain ⟨hconsistent, hnone⟩ := h.detach hfree hlookup
    exact hconsistent.touched htouched fun hcarries => absurd hcarries hnone

end InMemoryTransport

/-! ### Runs -/

namespace Connection

open InMemoryTransport

/-- The step spares the streams that carry an id: none of them is closed, reset or rejected, and
no call clears an id that another stream is bound to. -/
def SparesCarriers (backend : Backend) (c : Connection) : Step → Prop
  | .start (.openStream _) => True
  | .start (.feed id bytes _) =>
    Carries c.transport id → ∀ context, Fresh id c.transport context →
      startsQuietly context.parser (context.quicPendingBytes ++ bytes) = true
  | .start (.close id) | .start (.reset id _) => Releasable c.transport id
  | .turn => ∀ id nowMs, c.phase = .feeding id nowMs → Carries c.transport id →
    ∀ event found, feedEvent backend id nowMs c.call = (.ok event, found) →
      found.transport.rejects id event = false

theorem consistent_initial (policy : PolicyMode) (config : TransportConfig)
    (keyProvider : Option KeyProvider) :
    Consistent (initial (InMemoryTransport.new policy config keyProvider)).transport := by
  refine ⟨fun _ => Iff.rfl, fun _ => Iff.rfl, AList.notMem_empty 0, ?_, ?_, ?_⟩
  · exact fun k hk => absurd hk (Finset.notMem_empty k)
  · exact fun _ _ hlookup => nomatch hlookup
  · exact fun _ _ hlookup => nomatch hlookup

theorem consistent_step {backend : Backend} {c : Connection} {s : Step} (henabled : c.Enabled s)
    (hspares : c.SparesCarriers backend s) (hregular : c.Regular) (h : Consistent c.transport) :
    Consistent (c.step backend s).transport := by
  -- a call starts with no actions and no deliveries
  have hstart : Consistent (Call.mk c.transport [] []).transport := h
  obtain ⟨id, -, hstep⟩ := step_stepped backend henabled
  generalize c.step backend s = c' at hstep ⊢
  cases hstep with
  | opened hopened => exact hstart.opened hopened
  | closed hdetached => exact hstart.detached hdetached hspares
  | reset hdetached => exact hstart.detached hdetached hspares
  | routed hrouted => exact hstart.routed hrouted hspares
  | @fed nowMs _ hphase _ hturned =>
    exact Consistent.fed h hturned hregular.transport (hregular.feeding id nowMs hphase)
      (hspares id nowMs hphase)
  | controlled _ _ hturned => exact Consistent.controlled h hturned

/-- **The tables stay consistent** in every run whose steps spare the streams that carry an id. -/
theorem consistent_of_run (backend : Backend) (policy : PolicyMode) (config : TransportConfig)
    (keyProvider : Option KeyProvider) {c : Connection}
    (hrun : Run backend (SparesCarriers backend)
      (initial (InMemoryTransport.new policy config keyProvider)) c) :
    Consistent c.transport := by
  have hboth : c.Regular ∧ Consistent c.transport := by
    refine hrun.invariant (P := fun c => c.Regular ∧ Consistent c.transport) ?_
      ⟨regular_initial policy config keyProvider, consistent_initial policy config keyProvider⟩
    rintro c s henabled hspares ⟨hregular, hconsistent⟩
    exact ⟨hregular.step c s henabled, consistent_step henabled hspares hregular hconsistent⟩
  exact hboth.2

/-- Over TCP no control stream is attached, so it is enough that nothing is closed and that no
event of the feed loop rejects the stream. -/
def sparesOverTcp (backend : Backend) (c : Connection) : Step → Bool
  | .start (.openStream _) => true
  | .start (.feed _ _ _) => c.transport.policy == .tcp
  | .start _ => false
  | .turn => match c.phase with
    | .feeding id nowMs => !(feedEvent backend id nowMs c.call).1.toOption.any
      ((feedEvent backend id nowMs c.call).2.transport.rejects id)
    | _ => true

theorem sparesCarriers_of_check {backend : Backend} (c : Connection) (s : Step)
    (h : sparesOverTcp backend c s = true) : c.SparesCarriers backend s := by
  match s, h with
  | .start (.openStream _), _ => trivial
  | .start (.feed _ _ _), h =>
    intro _ context hfresh
    rw [sparesOverTcp, hfresh.policy_eq] at h
    exact nomatch h
  | .turn, h =>
    intro id nowMs hphase _ event found hfind
    rw [sparesOverTcp, hphase] at h
    dsimp only at h
    rw [hfind, Bool.not_eq_true'] at h
    exact h

/-- A stream is opened and a session is bound to it. -/
def exampleBinding : List Step :=
  [.start (.openStream 1), .start (.feed 1 (exampleHeader ++ exampleInit 1) none), .turn, .turn]

/-- A heartbeat for the session on the stream that carries it. -/
def exampleBeat : List Step :=
  [.turn, .start (.feed 1 (exampleEntry 3 1 1 []) none), .turn, .turn]

/-- The tables while a session is bound, after a heartbeat for it. -/
theorem consistent_exampleBinding :
    let c := (initial (InMemoryTransport.new .tcp .default none)).after .plain
      (exampleBinding ++ exampleBeat)
    c.transport.activeSarStreams.lookup 1 = some 1 ∧ Consistent c.transport := by
  have hchecked : Follows .plain (fun c s => sparesOverTcp .plain c s = true)
      (initial (InMemoryTransport.new .tcp .default none)) (exampleBinding ++ exampleBeat) := by
    decide +kernel
  exact ⟨by decide +kernel, consistent_of_run .plain .tcp .default none
    (run_after _ (hchecked.imp sparesCarriers_of_check))⟩

/-- Closing the stream of a bound session leaves its Global Header behind. -/
theorem not_consistent_after_close :
    ∃ c, Run .plain (fun _ _ => True)
        (initial (InMemoryTransport.new .tcp .default none)) c ∧
      1 ∈ c.transport.activeGlobalHeaders ∧ 1 ∉ c.transport.activeSarStreams ∧
      ¬ Consistent c.transport := by
  have hheader : 1 ∈ ((initial (InMemoryTransport.new .tcp .default none)).after .plain
      (exampleBinding ++ [.turn, .start (.close 1)])).transport.activeGlobalHeaders :=
    AList.lookup_isSome.mp (by decide +kernel)
  have hfree : 1 ∉ ((initial (InMemoryTransport.new .tcp .default none)).after .plain
      (exampleBinding ++ [.turn, .start (.close 1)])).transport.activeSarStreams :=
    AList.lookup_eq_none.mp (by decide +kernel)
  refine ⟨_, run_after _ (by decide +kernel), hheader, hfree, fun hconsistent => ?_⟩
  exact hfree ((hconsistent.headers 1).mp hheader)

end Connection

end Sar
