import Sar.Transport.Runs

/-!
# Rejections that have room for their actions

A rejection stops at the first action that a limit refuses, and then the stream is left as it was.
`RoomToReject` says that no limit is in the way; the rejection then comes to its end.
-/

namespace Sar

open Stateful List

namespace InMemoryTransport

variable {id : TransportStreamId} {call : Call}

/-- The limits leave room for the actions of a rejection. -/
structure RoomToReject (call : Call) : Prop where
  pending : call.actions.length + 4 ≤ call.transport.config.maxPendingActions
  status : call.transport.config.bidirectionalControl = true →
    countStatusAckActions call.actions < call.transport.config.maxStatusAckActions
  rejected : call.transport.rejectedSarStreamIds.card < call.transport.config.maxRejectedStreamIds

theorem pushAction_of_lt (action : TransportAction)
    (h : call.actions.length < call.transport.config.maxPendingActions) :
    pushAction action call = (.ok (), { call with actions := call.actions ++ [action] }) := by
  rw [pushAction, current_bind, lift_rejectIf_bind (Nat.not_le.mpr h), update_apply]

theorem rememberRejected_of_room (h : RoomToReject call) (sar : Option UInt16) :
    ∃ rejected, rememberRejected sar call =
      (.ok (), { call with
        transport := { call.transport with rejectedSarStreamIds := rejected } }) := by
  cases sar with
  | none => exact ⟨_, rfl⟩
  | some sar =>
    refine ⟨insert sar call.transport.rejectedSarStreamIds, ?_⟩
    rw [rememberRejected, transport_bind, bind_apply, lift_apply, Except.rejectIf_of_not,
      andThen_ok, modifyTransport_apply]
    exact fun hfull => absurd hfull.1 (Nat.not_le.mpr h.rejected)

/-- The status frame of a rejection is at most one action. -/
theorem announceRejected_of_room {sar : Option UInt16} {status : SarStatus} {seq : UInt16}
    (hpending : call.actions.length < call.transport.config.maxPendingActions)
    (hstatus : call.transport.config.bidirectionalControl = true →
      countStatusAckActions call.actions < call.transport.config.maxStatusAckActions) :
    ∃ new, announceRejected sar status seq call =
      (.ok (), { call with actions := call.actions ++ new }) ∧ new.length ≤ 1 := by
  have hnothing : ∃ new, (pure () : CallM Unit) call =
      (.ok (), { call with actions := call.actions ++ new }) ∧ new.length ≤ 1 :=
    ⟨[], by rw [append_nil, pure_apply], Nat.zero_le 1⟩
  cases sar with
  | none => exact hnothing
  | some sar =>
    rw [announceRejected, maybeEmitStatusAction, transport_bind]
    by_cases hcontrol : call.transport.config.bidirectionalControl = true
    · have hroom := Nat.not_le.mpr (hstatus hcontrol)
      rw [hcontrol, Bool.not_true, if_neg Bool.false_ne_true, bind_apply, checkStatusAckActions,
        current_bind, lift_apply, Except.rejectIf_of_not hroom, andThen_ok,
        pushAction_of_lt _ hpending]
      exact ⟨_, rfl, le_refl 1⟩
    · rw [Bool.eq_false_iff.mpr hcontrol, Bool.not_false, if_pos rfl]
      exact hnothing

/-- The end of a rejection: on TCP the connection is closed. -/
theorem endRejected_of_room (status : SarStatus) (policy : PolicyMode)
    (h : call.actions.length + 2 ≤ call.transport.config.maxPendingActions) :
    ∃ after, endRejected id status policy call = (.ok (), after) ∧
      (policy = .tcp → ∃ e, .closeConnection e ∈ after.actions) := by
  cases policy with
  | tcp =>
    rw [endRejected, bind_apply, pushAction_of_lt _ (by omega), andThen_ok, bind_apply,
      pushAction_of_lt, andThen_ok, modifyContext_apply]
    · exact ⟨_, rfl, fun _ => ⟨errorFromStatus status,
        mem_append_right _ (mem_singleton.mpr rfl)⟩⟩
    · dsimp only
      rw [length_append, length_singleton]
      omega
  | quic =>
    rw [endRejected, bind_apply, pushAction_of_lt _ (by omega), andThen_ok, modifyContext_apply]
    exact ⟨_, rfl, fun htcp => nomatch htcp⟩

/-- **A rejection whose actions have room comes to its end**, and on a TCP connection it closes
the connection. -/
theorem rejectStreamWithPolicy_of_room (h : RoomToReject call) (sar : Option UInt16)
    (error : SarError) (seq : UInt16) :
    ∃ after, rejectStreamWithPolicy id sar error seq call = (.ok (), after) ∧
      (call.transport.policy = .tcp → ∃ e, .closeConnection e ∈ after.actions) := by
  obtain ⟨rejected, hremember⟩ := rememberRejected_of_room h sar
  have hpending := h.pending
  rw [rejectStreamWithPolicy, bind_apply, hremember, andThen_ok, bind_apply, pushAction_of_lt,
    andThen_ok, current_bind, bind_apply]
  · obtain ⟨new, hannounce, hnew⟩ := @announceRejected_of_room
      { call with
        transport := { call.transport with rejectedSarStreamIds := rejected }
        actions := call.actions ++ [.rejectSarStream id error] } sar
      (lastRejectStatus (call.actions ++ [.rejectSarStream id error])) seq
      (by
        dsimp only
        rw [length_append, length_singleton]
        omega)
      (fun hcontrol => by
        have hcount := h.status hcontrol
        simpa [countStatusAckActions, isStatusAck] using hcount)
    rw [hannounce, andThen_ok]
    refine endRejected_of_room _ _ ?_
    dsimp only
    rw [length_append, length_append, length_singleton]
    omega
  · dsimp only
    omega

/-- The stream has ended after such a rejection. -/
theorem policyErrorActions_of_room (h : RoomToReject call) (error : SarError) :
    ∃ after rejected, policyErrorActions id error call = (.ok (), after) ∧
      after.transport = markRejected id rejected call.transport := by
  have houtcome := @policyErrorActions_outcome id call error
  obtain ⟨after, hreject, -⟩ := @rejectStreamWithPolicy_of_room id call h
    ((call.transport.streams.lookup id).bind (·.boundSarStreamId)) error 0
  have hrun : policyErrorActions id error call = (.ok (), after) := by
    rw [policyErrorActions, transport_bind, hreject]
  rw [hrun] at houtcome ⊢
  cases houtcome with
  | @done _ rejected htransport _ => exact ⟨after, rejected, rfl, htransport⟩

/-- Finding an event takes no room. -/
theorem untouched_roomToReject : Untouched id RoomToReject where
  context := fun _ _ _ h => ⟨h.pending, h.status, h.rejected⟩
  activity := fun _ _ h => ⟨h.pending, h.status, h.rejected⟩
  delivery := fun _ _ h => ⟨h.pending, h.status, h.rejected⟩

theorem preserves_roomToReject_feedEvent (backend : Backend) (nowMs : Option UInt64) :
    Preserves RoomToReject (feedEvent backend id nowMs) := by
  refine Preserves.bind preserves_context fun context => ?_
  refine Preserves.bind ?_ fun _ => untouched_roomToReject.observeStep nowMs _
  exact fun _ h => ⟨h.pending, h.status, h.rejected⟩

end InMemoryTransport

end Sar
