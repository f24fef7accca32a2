import Sar.Transport.Isolation
import Sar.Transport.Rejection

/-!
# SAR streams over TCP, one after the other

A TCP connection is meant to carry at most one bound SAR stream id at a time. The transport never
checks this: the only bound on the number of ids is `max_active_sar_streams`. In runs in which a
second `SESSION_INIT` meets a transport for one id only, or does not come, at most one id is
bound, and a peer that sends a `SESSION_INIT` too early gets its connection closed.
-/

namespace Sar

open Stateful

namespace InMemoryTransport

variable {id : TransportStreamId} {call : Call}

/-! ### Refusals close the connection -/

/-- A refused activation closes a TCP connection. -/
theorem handleLoopEvent_closes_of_refusal (h : RoomToReject call)
    (htcp : call.transport.policy = .tcp) {sar : UInt16} {uuid : Octets 16} {flags : SessionFlags}
    {error : SarError} (hrefusal : call.transport.activationRefusal sar flags = some error)
    (seq : UInt16) :
    ∃ e, .closeConnection e ∈ (handleLoopEvent id
      (.sessionResult seq (.ok (.single (.sessionActivated sar uuid flags)))) call).2.actions := by
  obtain ⟨after, hreject, hclose⟩ := @rejectStreamWithPolicy_of_room id call h (some sar) error seq
  obtain ⟨e, hmem⟩ := hclose htcp
  have hprocess : processEvent id seq none (.sessionActivated sar uuid flags) call =
      (.ok none, after) := by
    rw [processEvent, transport_bind, hrefusal]
    dsimp only
    rw [bind_apply, hreject, andThen_ok, pure_apply]
  have hresult : processSessionResult id (.single (.sessionActivated sar uuid flags)) seq call =
      (.ok (), after) := by
    rw [processSessionResult_single, hprocess]
    rfl
  rw [handleLoopEvent, bind_apply, andThen_pure_snd, hresult]
  exact ⟨e, hmem⟩

/-- An error of the manager closes a TCP connection. -/
theorem handleLoopEvent_closes_of_error (h : RoomToReject call)
    (htcp : call.transport.policy = .tcp) (seq : UInt16) (error : SarError) :
    ∃ e, .closeConnection e ∈
      (handleLoopEvent id (.sessionResult seq (.error error)) call).2.actions := by
  obtain ⟨after, hreject, hclose⟩ := @rejectStreamWithPolicy_of_room id call h
    ((call.transport.streams.lookup id).bind (·.boundSarStreamId)) error 0
  obtain ⟨e, hmem⟩ := hclose htcp
  rw [handleLoopEvent, bind_apply, andThen_pure_snd, policyErrorActions, transport_bind, hreject]
  exact ⟨e, hmem⟩

/-! ### One bound id -/

/-- At most one SAR stream id is bound. -/
def AtMostOne (t : InMemoryTransport) : Prop :=
  ∀ k k', k ∈ t.activeSarStreams → k' ∈ t.activeSarStreams → k = k'

/-- The event is an activation by a session manager. -/
def Activates (event : LoopEvent) : Prop :=
  ∃ seq sar uuid flags, event =
    .sessionResult seq (.ok (.single (.sessionActivated sar uuid flags)))

/-- With at most one id allowed, an activation beside a bound id is refused. -/
theorem activationRefusal_isSome_of_bound {t : InMemoryTransport} {k : UInt16}
    (hbound : k ∈ t.activeSarStreams) (hmax : t.config.maxActiveSarStreams ≤ 1) (sar : UInt16)
    (flags : SessionFlags) : ∃ error, t.activationRefusal sar flags = some error := by
  refine Option.ne_none_iff_exists'.mp fun haccept => ?_
  have hsize : 0 < t.activeSarStreams.size := Table.size_pos_of_mem hbound
  have hroom := (activationRefusal_eq_none haccept).2.2
  omega

end InMemoryTransport

/-! ### Runs -/

namespace Connection

open InMemoryTransport

variable {backend : Backend} {c : Connection} {s : Step} {id : TransportStreamId} {k : UInt16}

/-- The step activates no session beside a bound id, unless the transport is for one id only, and
it clears no id that is bound to another stream. -/
def OneAtATime (backend : Backend) (c : Connection) (s : Step) : Prop :=
  c.ClosesOwn backend s ∧ ∀ id nowMs event found k, s = .turn → c.phase = .feeding id nowMs →
    feedEvent backend id nowMs c.call = (.ok event, found) → Activates event →
    k ∈ c.transport.activeSarStreams → c.transport.config.maxActiveSarStreams ≤ 1

/-- One step keeps a second id from being bound. -/
theorem atMostOne_step (henabled : c.Enabled s) (hone : c.OneAtATime backend s)
    (h : AtMostOne c.transport) : AtMostOne (c.step backend s).transport := by
  obtain ⟨i, -, hstep⟩ := step_stepped backend henabled
  have hold : ∀ {k}, SameBinding k c.transport (c.step backend s).transport →
      k ∈ (c.step backend s).transport.activeSarStreams → k ∈ c.transport.activeSarStreams := by
    intro k hsame hk
    rwa [← AList.lookup_isSome, ← hsame.active, AList.lookup_isSome]
  cases hstep.rebinds with
  | kept hkept => exact fun k k' hk hk' => h k k' (hold (hkept k) hk) (hold (hkept k') hk')
  | cleared _ hcleared =>
    have hother : ∀ k ∈ (c.step backend s).transport.activeSarStreams,
        k ∈ c.transport.activeSarStreams := fun k hk =>
      hold (hcleared.others k fun heq => hcleared.active (heq ▸ hk)) hk
    exact fun k k' hk hk' => h k k' (hother k hk) (hother k' hk')
  | @bound nowMs found seq sar uuid flags hphase hfind htables haccept hbound =>
    -- the table was empty
    have honly : ∀ k ∈ (c.step backend .turn).transport.activeSarStreams, k = sar := by
      intro k hk
      by_contra hne
      have hmem := hold ((htables.sameBinding k).trans (hbound.others k hne)) hk
      have hmax := hone.2 i nowMs _ found k rfl hphase hfind ⟨seq, sar, uuid, flags, rfl⟩ hmem
      rw [← htables.active] at hmem
      rw [← htables.config] at hmax
      obtain ⟨error, hrefusal⟩ := activationRefusal_isSome_of_bound hmem hmax sar flags
      exact nomatch haccept.symm.trans hrefusal
    exact fun k k' hk hk' => (honly k hk).trans (honly k' hk').symm

/-- A bound id stays bound until it is closed or its stream is closed or reset. -/
theorem bound_or_releases (henabled : c.Enabled s) (hown : c.ClosesOwn backend s)
    (hbound : c.transport.activeSarStreams.lookup k = some id) :
    (c.step backend s).transport.activeSarStreams.lookup k = some id ∨
      c.Releases backend id k s :=
  (sameBinding_or_releases henabled hown hbound).imp_left fun hsame => hsame.active.trans hbound

/-- The turn hands a `SESSION_INIT` for another id to a manager, with this answer. -/
structure Interleaves (backend : Backend) (c : Connection) (k : UInt16) (entry : SessionEntry)
    (result : Except SarError ProcessResult) : Prop where
  delivered : ∃ id nowMs, c.phase = .feeding id nowMs ∧
    (c.step backend .turn).deliveries = c.deliveries ++ [⟨id, entry, result⟩]
  carries : entry.carries .init
  other : entry.header.streamId ≠ k

/-- The session semantics applies to the entry on the stream that the feed loop works on. -/
def Applies (c : Connection) (entry : SessionEntry) : Prop :=
  ∀ id nowMs context flags, c.phase = .feeding id nowMs →
    c.transport.streams.lookup id = some context →
    context.manager.currentGlobalFlags = some flags →
    SessionManager.shouldApplyStateful flags entry.header.streamId = true

/-- What the turn does with such an entry: the event is the manager's answer, and it is handled
in a transport with the same tables. -/
theorem Interleaves.found {entry : SessionEntry} {result : Except SarError ProcessResult}
    (h : c.Interleaves backend k entry result) :
    ∃ id nowMs found context, c.phase = .feeding id nowMs ∧
      c.transport.streams.lookup id = some context ∧
      feedEvent backend id nowMs c.call =
        (.ok (.sessionResult entry.header.sequenceNo result), found) ∧
      SameTables c.transport found.transport ∧
      result = (SessionManager.processEntry entry context.manager).1 ∧
      Handled id found (c.step backend .turn).call
        (.sessionResult entry.header.sequenceNo result) ∧
      (c.step backend .turn).call =
        (handleLoopEvent id (.sessionResult entry.header.sequenceNo result) found).2 := by
  obtain ⟨id, nowMs, hphase, hdeliveries⟩ := h.delivered
  rw [Connection.step, turn_feeding hphase] at hdeliveries ⊢
  have hnew : (feedTurn backend id nowMs c.call).2.deliveries =
      c.call.deliveries ++ [⟨id, entry, result⟩] := by
    refine (List.append_right_inj c.history).mp ?_
    rw [← List.append_assoc]
    exact hdeliveries
  have hne : c.call.deliveries ≠ c.call.deliveries ++ [⟨id, entry, result⟩] := by
    simp
  have hturned := feedTurn_turned backend id nowMs c.call
  cases hturned with
  | missing hafter =>
    rw [hafter] at hnew
    exact absurd hnew hne
  | @found event found context context' hfind hlookup htouched _ hobserved hhandled =>
    rw [hhandled.deliveries_eq] at hnew
    cases hobserved with
    | silent _ hsame => exact absurd (hsame.symm.trans hnew) hne
    | delivered _ hdelivered =>
      -- what was delivered is the given entry with the given answer
      have hlast := (List.append_right_inj _).mp (hdelivered.deliveries_eq.symm.trans hnew)
      obtain ⟨-, rfl, rfl⟩ := Delivery.mk.inj (List.cons.inj hlast).1
      refine ⟨id, nowMs, found, context, hphase, hlookup, hfind, htouched.tables, rfl, hhandled, ?_⟩
      change (feedTurn backend id nowMs c.call).2 = _
      rw [feedTurn, bind_apply, hfind, andThen_ok]

/-- **A TCP connection carries SAR streams one after the other**, in every run whose steps neither
activate a second session on a transport for several ids nor clear an id of another stream. At most
one id is bound. It stays bound until its `SESSION_CLOSE` or the end of its transport stream. Before
that, a `SESSION_INIT` for another id binds nothing, and it makes the transport close the
connection when the session semantics applies to it and the limits leave room for the actions. -/
theorem sequential_of_run {config : TransportConfig} {keyProvider : Option KeyProvider}
    (hrun : Run backend (OneAtATime backend)
      (initial (InMemoryTransport.new .tcp config keyProvider)) c) :
    AtMostOne c.transport ∧
    ∀ s k id, c.Enabled s → c.OneAtATime backend s →
      c.transport.activeSarStreams.lookup k = some id →
      ((c.step backend s).transport.activeSarStreams.lookup k = some id ∨
        c.Releases backend id k s) ∧
      ∀ entry result, s = .turn → c.Interleaves backend k entry result →
        (c.step backend s).transport.activeSarStreams.lookup k = some id ∧
        entry.header.streamId ∉ (c.step backend s).transport.activeSarStreams ∧
        (c.Applies entry → RoomToReject c.call →
          ∃ e, .closeConnection e ∈ (c.step backend s).call.actions) := by
  obtain ⟨hpolicy, hmost⟩ := hrun.invariant
    (P := fun c => c.transport.policy = .tcp ∧ AtMostOne c.transport)
    (fun d s henabled hone h =>
      ⟨(step_settings henabled).2.trans h.1, atMostOne_step henabled hone h.2⟩)
    ⟨rfl, fun _ _ hk => absurd hk (AList.notMem_empty _)⟩
  refine ⟨hmost, fun s k id henabled hone hbound => ?_⟩
  refine ⟨bound_or_releases henabled hone.1 hbound, ?_⟩
  rintro entry result rfl hinter
  obtain ⟨i, nowMs, found, context, hphase, hlookup, hfind, htables, hresult, hhandled, hcall⟩ :=
    hinter.found
  have hcarries := SessionManager.processEntry_of_init hinter.carries (m := context.manager)
  rw [← hresult] at hcarries
  -- the id is not closed by a `SESSION_INIT`
  have hstays : (c.step backend .turn).transport.activeSarStreams.lookup k = some id := by
    refine (bound_or_releases henabled hone.1 hbound).resolve_right ?_
    rintro ⟨nowMs', event', found', hphase', hfind', seq, uuid, actions, rfl⟩
    obtain ⟨rfl, rfl⟩ := Phase.feeding.inj (hphase'.symm.trans hphase)
    have hevent := Except.ok.inj (Prod.mk.inj (hfind.symm.trans hfind')).1
    have hclosed := SessionManager.processEntry_eq_closed
      (hresult.symm.trans (LoopEvent.sessionResult.inj hevent).2)
    exact nomatch Except.ok.inj (hinter.carries.2.symm.trans hclosed.1.2)
  have hmem : k ∈ (c.step backend .turn).transport.activeSarStreams := Table.mem_of_lookup hstays
  refine ⟨hstays,
    fun hother => hinter.other (atMostOne_step henabled hone hmost _ _ hother hmem), ?_⟩
  intro happlies hroom
  have hfoundRoom : RoomToReject found := by
    have hkept := @preserves_roomToReject_feedEvent i backend nowMs c.call hroom
    rwa [hfind] at hkept
  have htcp : found.transport.policy = .tcp := htables.policy.trans hpolicy
  rw [hcall]
  rcases hcarries with ⟨uuid, flags, heq⟩ | ⟨-, flags, hflags, hnot⟩ | ⟨e, heq⟩
  · rw [heq] at hfind ⊢
    obtain ⟨error, hrefusal⟩ := activationRefusal_isSome_of_bound
      (htables.active ▸ Table.mem_of_lookup hbound)
      (htables.config ▸ hone.2 i nowMs _ found k rfl hphase hfind ⟨_, _, _, _, rfl⟩
        (Table.mem_of_lookup hbound)) entry.header.streamId flags
    exact handleLoopEvent_closes_of_refusal hfoundRoom htcp hrefusal _
  · exact nomatch hnot.symm.trans (happlies i nowMs context flags hphase hlookup hflags)
  · rw [heq]
    exact handleLoopEvent_closes_of_error hfoundRoom htcp _ e

/-- Two `SESSION_INIT`s in one call, up to the second one. -/
def exampleInterleaving : List Step :=
  [.start (.openStream 1), .start (.feed 1 (exampleHeader ++ exampleInit 1 ++ exampleInit 2) none),
    .turn, .turn]

/-- A transport for one id takes every step that closes only what is its own. -/
theorem oneAtATime_of_check (c : Connection) (s : Step)
    (h : closesOnlyOwn backend c s = true ∧ c.transport.config.maxActiveSarStreams ≤ 1) :
    c.OneAtATime backend s :=
  ⟨closesOwn_of_check c s h.1, fun _ _ _ _ _ _ _ _ _ _ => h.2⟩

/-- A transport for one id closes the connection at the second `SESSION_INIT`. -/
theorem sequential_exampleInterleaving :
    let config := { TransportConfig.default with maxActiveSarStreams := 1 }
    let c := (initial (InMemoryTransport.new .tcp config none)).after .plain exampleInterleaving
    AtMostOne c.transport ∧ (c.step .plain .turn).transport.activeSarStreams.lookup 1 = some 1 ∧
      2 ∉ (c.step .plain .turn).transport.activeSarStreams ∧
      ∃ e, .closeConnection e ∈ (c.step .plain .turn).call.actions := by
  intro config c
  have hrun : Run .plain (OneAtATime .plain)
      (initial (InMemoryTransport.new .tcp config none)) c := by
    have hchecked : Follows .plain (fun c s => closesOnlyOwn .plain c s = true ∧
        c.transport.config.maxActiveSarStreams ≤ 1)
        (initial (InMemoryTransport.new .tcp config none)) exampleInterleaving := by
      decide +kernel
    exact run_after _ (hchecked.imp oneAtATime_of_check)
  have henabled : c.Enabled .turn := by decide +kernel
  have hphase : c.phase = .feeding 1 none := by decide +kernel
  have hone : c.OneAtATime .plain .turn := oneAtATime_of_check c .turn (by decide +kernel)
  obtain ⟨hmost, hstep⟩ := sequential_of_run hrun
  obtain ⟨-, hinterleaved⟩ := hstep .turn 1 1 henabled hone (by decide +kernel)
  -- the turn delivers the second `SESSION_INIT`, which the manager refuses
  obtain ⟨⟨i, entry, result⟩, hnew, hfacts⟩ := @exists_delivery .plain c .turn
    (fun d => d.transportStreamId == 1 && d.entry.header.entryMode.isSessionControl &&
      d.entry.header.entryMode.opCode == 0 && d.entry.header.streamId == 2)
    (by decide +kernel) (by decide +kernel)
  simp only [Bool.and_eq_true, beq_iff_eq] at hfacts
  obtain ⟨⟨⟨rfl, hcontrol⟩, hop⟩, hid⟩ := hfacts
  obtain ⟨hstays, hnot, hclose⟩ := hinterleaved entry result rfl
    ⟨⟨1, none, hphase, hnew⟩, ⟨hcontrol, by rw [hop]; rfl⟩, by rw [hid]; decide⟩
  rw [hid] at hnot
  have hnoIndex : ((c.transport.streams.lookup 1).bind (·.manager.currentGlobalFlags)).map
      (·.noIndex) = some true := by decide +kernel
  refine ⟨hmost, hstays, hnot, hclose ?_ ⟨?_, ?_, ?_⟩⟩
  · intro i nowMs context flags hi hlookup hflags
    obtain ⟨rfl, -⟩ := Phase.feeding.inj (hphase.symm.trans hi)
    rw [hlookup, Option.bind_some, hflags, Option.map_some] at hnoIndex
    rw [SessionManager.shouldApplyStateful, Option.some.inj hnoIndex, hid]
    rfl
  · decide +kernel
  · decide +kernel
  · decide +kernel

/-- With the default limits both ids are bound. -/
theorem not_atMostOne_after_interleaving :
    ∃ c, Run .plain (fun _ _ => True) (initial (InMemoryTransport.new .tcp .default none)) c ∧
      1 ∈ c.transport.activeSarStreams ∧ 2 ∈ c.transport.activeSarStreams ∧
      ¬ AtMostOne c.transport := by
  let c := (initial (InMemoryTransport.new .tcp .default none)).after .plain
    (exampleInterleaving ++ [.turn])
  have hfirst : 1 ∈ c.transport.activeSarStreams := AList.lookup_isSome.mp (by decide +kernel)
  have hsecond : 2 ∈ c.transport.activeSarStreams := AList.lookup_isSome.mp (by decide +kernel)
  refine ⟨c, run_after _ (by decide +kernel), hfirst, hsecond, fun hmost => ?_⟩
  exact absurd (hmost 1 2 hfirst hsecond) (by decide)

end Connection

end Sar
