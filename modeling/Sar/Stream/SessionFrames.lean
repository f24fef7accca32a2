import Sar.Stream.Session

/-!
# One entry of the session manager, in stages

Where the session semantics applies, all handlers of `processEntry` have one shape: the payload is
read as a frame (`SessionFrame.parse`), and the frame is then applied to the session of the entry's
stream id (`processFrame`). Where it does not apply, the manager stays as it is and the answer
depends on the entry and the header alone.

## Main results

* `processEntry_of_applies` — the two stages, for entries the semantics applies to.
* `processEntry_of_not_applies` — the others.
* `processEntry_turn` — all that an entry can answer and leave (`Turn`).
* `processEntry_processed` — what that means for the session of the entry's id (`Outcome`).
-/

namespace Sar

open Except (rejectIf okOr bind_eq_ok_iff ok_bind rejectIf_of_not rejectIf_of okOr_some)
open Stateful List

/-- The frame in an entry. -/
inductive SessionFrame where
  | init (frame : SessionInitFrame)
  | close
  | resume (frame : SessionResumeFrame)
  | heartbeat
  | status (frame : SessionStatusFrame)
  | ack (frame : SessionAckFrame)
  | metadata (frame : SessionMetadataFrame)
  | capabilities (frame : SessionCapabilitiesFrame)
  | filesystem (op : FilesystemOpCode)
  deriving DecidableEq

namespace SessionFrame

/-- The frame in the payload of a session-control entry. -/
def parseControl (limits : ResourceLimits) (payload : Bytes) :
    SessionOpCode → Result SessionFrame
  | .init => init <$> SessionInitFrame.parse payload
  | .close => do
    rejectIf (payload ≠ []) (.invalidLength "SESSION_CLOSE payload must be empty")
    pure close
  | .resume => resume <$> SessionResumeFrame.parse payload
  | .heartbeat => do
    rejectIf (payload ≠ []) (.invalidLength "SESSION_HEARTBEAT payload must be empty")
    pure heartbeat
  | .status => status <$> SessionStatusFrame.parse payload limits
  | .ack => ack <$> SessionAckFrame.parse payload
  | .metadata => metadata <$> SessionMetadataFrame.parse payload limits
  | .capabilities => capabilities <$> SessionCapabilitiesFrame.parse payload

/-- The frame in an entry: what its handler reads before it looks at a session. -/
def parse (limits : ResourceLimits) (entry : SessionEntry) : Result SessionFrame :=
  if entry.header.entryMode.isSessionControl then do
    let op ← SessionOpCode.tryFrom entry.header.entryMode.opCode
    parseControl limits entry.payload op
  else do
    let op ← FilesystemOpCode.tryFrom entry.header.entryMode.opCode
    rejectIf (op = .delete ∧ entry.payload ≠ []) (.invalidLength "DELETE payload must be empty")
    pure (filesystem op)

/-- What the handler of a frame does to a session once the sequence number is advanced; a session
that is closed is removed afterwards. -/
def act (config : SessionManagerConfig) (currentTotal : ℕ) (entry : SessionEntry) :
    SessionFrame → Prog ActiveSession SarError ProcessResult
  | init frame =>
    pure (.single (.sessionActivated entry.header.streamId frame.sessionUuid frame.flags))
  | close => SessionManager.closeResult config entry <$> current
  | resume frame => do
    let session ← current
    lift (rejectIf (session.sessionUuid ≠ frame.sessionUuid)
      (.streamState "SESSION_RESUME UUID does not match active session"))
    lift (rejectIf (!config.supportResume) (.unsupported "SESSION_RESUME is not supported"))
    pure (.single (.sessionResumed entry.header.streamId frame.sessionUuid))
  | heartbeat => pure (.single (.heartbeat entry.header.streamId entry.header.sequenceNo))
  | status frame => pure (.single (.status entry.header.streamId frame))
  | ack frame => pure (.single (.ack entry.header.streamId frame))
  | metadata frame => do
    let session ← current
    let updated := { session with metadata := some ⟨frame.contentType, frame.metadata⟩ }
    lift (rejectIf (currentTotal < session.memoryUsage ∨
        currentTotal - session.memoryUsage + updated.memoryUsage > u64Max)
      (.overflow "session memory"))
    lift (config.limits.checkSessionMemoryBytes
      (currentTotal - session.memoryUsage + updated.memoryUsage))
    update fun session => { session with metadata := updated.metadata }
    pure (.single (.metadataUpdated entry.header.streamId frame))
  | capabilities frame => do
    update fun session => { session with peerCapabilities := frame.flags }
    pure (.single (.capabilitiesUpdated entry.header.streamId frame))
  | filesystem op =>
    pure ⟨.filesystemAction (SessionManager.filesystemActionOf op entry) ::
      if entry.degraded then
        [.warning entry.header.streamId .warnIncomplete "loss-tolerant degraded output accepted"]
      else [], []⟩

/-- Whether a frame is refused although its sequence number was right. -/
def RefusedLate (config : SessionManagerConfig) (currentTotal : ℕ) (session : ActiveSession) :
    SessionFrame → Prop
  | resume frame => session.sessionUuid ≠ frame.sessionUuid ∨ config.supportResume = false
  | metadata frame =>
    let newUsage :=
      { session with metadata := some ⟨frame.contentType, frame.metadata⟩ }.memoryUsage
    currentTotal < session.memoryUsage ∨
      u64Max < currentTotal - session.memoryUsage + newUsage ∨
      config.limits.maxSessionMemoryBytes < currentTotal - session.memoryUsage + newUsage
  | _ => False

/-- What a frame changes in its session. -/
def applied (session : ActiveSession) : SessionFrame → ActiveSession
  | metadata frame => { session with metadata := some ⟨frame.contentType, frame.metadata⟩ }
  | capabilities frame => { session with peerCapabilities := frame.flags }
  | _ => session

/-- The answer to a frame that is accepted. -/
def answer (config : SessionManagerConfig) (entry : SessionEntry) (session : ActiveSession) :
    SessionFrame → ProcessResult
  | init frame => .single (.sessionActivated entry.header.streamId frame.sessionUuid frame.flags)
  | close => SessionManager.closeResult config entry session
  | resume frame => .single (.sessionResumed entry.header.streamId frame.sessionUuid)
  | heartbeat => .single (.heartbeat entry.header.streamId entry.header.sequenceNo)
  | status frame => .single (.status entry.header.streamId frame)
  | ack frame => .single (.ack entry.header.streamId frame)
  | metadata frame => .single (.metadataUpdated entry.header.streamId frame)
  | capabilities frame => .single (.capabilitiesUpdated entry.header.streamId frame)
  | filesystem op =>
    ⟨.filesystemAction (SessionManager.filesystemActionOf op entry) ::
      if entry.degraded then
        [.warning entry.header.streamId .warnIncomplete "loss-tolerant degraded output accepted"]
      else [], []⟩

section Act

variable {config : SessionManagerConfig} {currentTotal : ℕ} {entry : SessionEntry}
  {session : ActiveSession} {frame : SessionFrame}

/-- The error of a resumption that is refused. -/
def resumeError (session : ActiveSession) (frame : SessionResumeFrame) : SarError :=
  if session.sessionUuid ≠ frame.sessionUuid then
    .streamState "SESSION_RESUME UUID does not match active session"
  else .unsupported "SESSION_RESUME is not supported"

theorem act_of_resume_refused (entry : SessionEntry) {frame : SessionResumeFrame}
    (h : (resume frame).RefusedLate config currentTotal session) :
    (resume frame).act config currentTotal entry session =
      (.error (resumeError session frame), session) := by
  rw [act, current_bind, bind_apply, resumeError]
  by_cases huuid : session.sessionUuid ≠ frame.sessionUuid
  · rw [rejectIf_of huuid, if_pos huuid]
    rfl
  · have hsupport : config.supportResume = false := h.resolve_left huuid
    rw [rejectIf_of_not huuid, if_neg huuid, lift_apply, andThen_ok, bind_apply, hsupport,
      rejectIf_of (by rfl)]
    rfl

theorem act_of_refusedLate (entry : SessionEntry)
    (h : frame.RefusedLate config currentTotal session) :
    ∃ e, frame.act config currentTotal entry session = (.error e, session) := by
  cases frame with
  | resume frame => exact ⟨_, act_of_resume_refused entry h⟩
  | metadata frame =>
    rw [act, current_bind]
    dsimp only
    rw [bind_apply]
    by_cases hover : currentTotal < session.memoryUsage ∨ u64Max < currentTotal -
        session.memoryUsage + { session with
          metadata := some ⟨frame.contentType, frame.metadata⟩ }.memoryUsage
    · rw [rejectIf_of hover]
      exact ⟨_, rfl⟩
    · obtain ⟨hlow, hhigh⟩ := not_or.mp hover
      have hlimit := (h.resolve_left hlow).resolve_left hhigh
      rw [rejectIf_of_not hover, lift_apply, andThen_ok, bind_apply,
        ResourceLimits.checkSessionMemoryBytes, ResourceLimits.atMost, rejectIf_of hlimit]
      exact ⟨_, rfl⟩
  | _ => exact h.elim

theorem act_of_not_refusedLate (h : ¬ frame.RefusedLate config currentTotal session) :
    frame.act config currentTotal entry session =
      (.ok (frame.answer config entry session), frame.applied session) := by
  cases frame with
  | resume frame =>
    obtain ⟨huuid, hsupport⟩ := not_or.mp h
    rw [act, current_bind, lift_rejectIf_bind huuid, bind_apply, Bool.not_eq_false _ |>.mp hsupport,
      rejectIf_of_not (by simp)]
    rfl
  | metadata frame =>
    obtain ⟨hlow, hhigh, hlimit⟩ := by simpa only [RefusedLate, not_or] using h
    rw [act, current_bind]
    dsimp only
    rw [lift_rejectIf_bind (not_or.mpr ⟨hlow, hhigh⟩), bind_apply,
      ResourceLimits.checkSessionMemoryBytes, ResourceLimits.atMost_of_le _ (not_lt.mp hlimit)]
    rfl
  | _ => rfl

end Act

end SessionFrame

/-! ### The advance -/

/-- The session once the next sequence number was taken. -/
def ActiveSession.advanced (session : ActiveSession) : ActiveSession :=
  { session with
    lastSequenceNo := session.lastSequenceNo + 1
    lastActivityTick := session.lastActivityTick + 1 }

section Advance

variable {sequenceNo : UInt16} {session : ActiveSession}

theorem validateAndAdvanceSequence_of_next (h : sequenceNo = session.lastSequenceNo + 1)
    (htick : session.lastActivityTick + 1 ≤ u64Max) :
    validateAndAdvanceSequence sequenceNo session = (.ok (), session.advanced) := by
  rw [validateAndAdvanceSequence, current_bind, lift_rejectIf_bind (not_not.mpr h), update_bind,
    bind_apply, rejectIf_of_not (not_lt.mpr htick), h]
  rfl

end Advance

namespace SessionManager

/-- Advance the session of the entry's stream id and act on it, if there is one. -/
def onActive (entry : SessionEntry) (act : Prog ActiveSession SarError ProcessResult) :
    SessionM ProcessResult := do
  let self ← current
  match self.activeSessions.lookup entry.header.streamId with
  | none => pure (inactiveResult entry entry.header.entryMode.isSessionControl)
  | some session =>
    onSession entry.header.streamId session do
      validateAndAdvanceSequence entry.header.sequenceNo
      act

/-- Apply a frame. -/
def processFrame (globalFlags : GlobalFlags) (entry : SessionEntry) :
    SessionFrame → SessionM ProcessResult
  | .init frame => activate globalFlags entry frame
  | .close => do
    let self ← current
    let result ← onActive entry (SessionFrame.close.act self.config self.totalSessionMemory entry)
    removeClosed entry.header.streamId result
  | frame => do
    let self ← current
    onActive entry (frame.act self.config self.totalSessionMemory entry)

/-- An entry on an id without session. -/
theorem onActive_of_none {entry : SessionEntry} {m : SessionManager}
    (h : m.activeSessions.lookup entry.header.streamId = none)
    (act : Prog ActiveSession SarError ProcessResult) :
    onActive entry act m =
      (.ok (inactiveResult entry entry.header.entryMode.isSessionControl), m) := by
  rw [onActive, current_bind, h]
  rfl

/-- An entry on an id with a session. -/
theorem onActive_of_some {entry : SessionEntry} {m : SessionManager} {session : ActiveSession}
    (h : m.activeSessions.lookup entry.header.streamId = some session)
    (act : Prog ActiveSession SarError ProcessResult) :
    onActive entry act m =
      onSession entry.header.streamId session
        (validateAndAdvanceSequence entry.header.sequenceNo >>= fun _ => act) m := by
  rw [onActive, current_bind, h]

/-- Give an id the session, or none. -/
def setSession (streamId : UInt16) (session : Option ActiveSession) (self : SessionManager) :
    SessionManager :=
  { self with
    activeSessions :=
      match session with
      | some session => self.activeSessions.insert streamId session
      | none => self.activeSessions.erase streamId }

theorem lookup_setSession (streamId k : UInt16) (session : Option ActiveSession)
    (self : SessionManager) :
    (setSession streamId session self).activeSessions.lookup k =
      if k = streamId then session else self.activeSessions.lookup k := by
  cases session with
  | some session => exact Table.lookup_insert_eq streamId k session self.activeSessions
  | none => exact Table.lookup_erase_eq streamId k self.activeSessions

/-- The session that an accepted frame leaves. -/
def afterFrame (session : ActiveSession) : SessionFrame → Option ActiveSession
  | .close => none
  | frame => some (frame.applied session)

section Outcome

variable (globalFlags : GlobalFlags) {entry : SessionEntry} {m : SessionManager}
  {session : ActiveSession} {frame : SessionFrame}

section Continues

variable (hinit : ∀ f, frame ≠ .init f)
  (hsome : m.activeSessions.lookup entry.header.streamId = some session)

include hinit hsome

/-- A frame on a session that is refused is the end of the entry. -/
theorem processFrame_of_error {e : SarError} {after : ActiveSession}
    (h : (validateAndAdvanceSequence entry.header.sequenceNo >>= fun _ => frame.act m.config
      m.totalSessionMemory entry) session = (.error e, after)) :
    processFrame globalFlags entry frame m =
      (.error e, m.setSession entry.header.streamId (some after)) := by
  have hactive : onActive entry (frame.act m.config m.totalSessionMemory entry) m =
      (.error e, m.setSession entry.header.streamId (some after)) := by
    rw [onActive_of_some hsome, onSession, h]
    rfl
  cases frame with
  | init f => exact absurd rfl (hinit f)
  | close =>
    rw [processFrame, current_bind, bind_apply, hactive, andThen_error]
  | _ => exact hactive

/-- An entry with a wrong sequence number changes nothing. -/
theorem processFrame_of_ne (hsequence : entry.header.sequenceNo ≠ session.lastSequenceNo + 1) :
    processFrame globalFlags entry frame m =
      (.error (.streamState "sequence discontinuity detected"),
        m.setSession entry.header.streamId (some session)) := by
  refine processFrame_of_error globalFlags hinit hsome ?_
  rw [bind_apply, validateAndAdvanceSequence, current_bind, bind_apply, rejectIf_of hsequence]
  rfl

variable (hsequence : entry.header.sequenceNo = session.lastSequenceNo + 1)

include hsequence

/-- An entry whose tick overflows is refused, and its number is taken. -/
theorem processFrame_of_overflow (htick : u64Max < session.lastActivityTick + 1) :
    processFrame globalFlags entry frame m =
      (.error (.overflow "activity tick"), m.setSession entry.header.streamId
        (some { session with lastSequenceNo := entry.header.sequenceNo })) := by
  refine processFrame_of_error globalFlags hinit hsome ?_
  rw [bind_apply, validateAndAdvanceSequence, current_bind,
    lift_rejectIf_bind (not_not.mpr hsequence), update_bind, bind_apply, rejectIf_of htick]
  rfl

variable (htick : session.lastActivityTick + 1 ≤ u64Max)

include htick

/-- An entry that is refused behind the advance has advanced its session. -/
theorem processFrame_of_act_error {e : SarError}
    (hact : frame.act m.config m.totalSessionMemory entry session.advanced = (.error e,
      session.advanced)) :
    processFrame globalFlags entry frame m =
      (.error e, m.setSession entry.header.streamId (some session.advanced)) := by
  refine processFrame_of_error globalFlags hinit hsome ?_
  rw [bind_apply, validateAndAdvanceSequence_of_next hsequence htick, andThen_ok, hact]

omit hinit in
/-- An entry that is refused for its content has advanced its session. -/
theorem processFrame_of_refusedLate
    (hrefused : frame.RefusedLate m.config m.totalSessionMemory session) :
    ∃ e, processFrame globalFlags entry frame m =
      (.error e, m.setSession entry.header.streamId (some session.advanced)) := by
  have hlate : frame.RefusedLate m.config m.totalSessionMemory session.advanced := by
    cases frame <;> exact hrefused
  have hinit : ∀ f, frame ≠ .init f := by
    rintro f rfl
    exact hrefused
  obtain ⟨e, he⟩ := SessionFrame.act_of_refusedLate entry hlate
  exact ⟨e, processFrame_of_act_error globalFlags hinit hsome hsequence htick he⟩

/-- An entry that its session accepts. -/
theorem processFrame_of_accepted
    (haccepted : ¬ frame.RefusedLate m.config m.totalSessionMemory session) :
    processFrame globalFlags entry frame m =
      (.ok (frame.answer m.config entry session),
        m.setSession entry.header.streamId (afterFrame session.advanced frame)) := by
  have hlate : ¬ frame.RefusedLate m.config m.totalSessionMemory session.advanced := by
    cases frame <;> exact haccepted
  have hactive : onActive entry (frame.act m.config m.totalSessionMemory entry) m =
      (.ok (frame.answer m.config entry session.advanced), m.setSession entry.header.streamId
        (some (frame.applied session.advanced))) := by
    rw [onActive_of_some hsome, onSession, bind_apply,
      validateAndAdvanceSequence_of_next hsequence htick, andThen_ok,
      SessionFrame.act_of_not_refusedLate hlate]
    rfl
  cases frame with
  | init f => exact absurd rfl (hinit f)
  | close =>
    -- the advanced session is stored and then removed
    rw [processFrame, current_bind, bind_apply, hactive, andThen_ok]
    change (_, { m with activeSessions := AList.erase _ (AList.insert _ _ _) }) = _
    rw [Table.erase_insert]
    rfl
  | _ => exact hactive

end Continues

/-- There is room for one more session. -/
structure HasRoom (m : SessionManager) : Prop where
  streams : m.activeSessions.size + 1 ≤ m.config.limits.maxActiveStreams
  memory_le : m.totalSessionMemory + activeSessionBaseMemoryBytes ≤ u64Max
  memory : m.totalSessionMemory + activeSessionBaseMemoryBytes ≤
    m.config.limits.maxSessionMemoryBytes

/-- The manager admits one more session: there is room, and the tick can advance. -/
structure Admits (m : SessionManager) : Prop extends HasRoom m where
  tick : m.activityTick + 1 ≤ u64Max

/-- The manager with a session that was just activated. -/
def activated (globalFlags : GlobalFlags) (entry : SessionEntry) (frame : SessionInitFrame)
    (m : SessionManager) : SessionManager :=
  { m with activityTick := m.activityTick + 1 }.setSession entry.header.streamId
    (some (initialSession globalFlags entry frame (m.activityTick + 1)))

theorem activate_of_some (frame : SessionInitFrame)
    (hsome : m.activeSessions.lookup entry.header.streamId = some session) :
    activate globalFlags entry frame m =
      (.error (.streamState "SESSION_INIT cannot reuse an already active Stream ID"), m) := by
  rw [activate, current_bind, bind_apply, lift_apply, hsome, rejectIf_of (by rfl)]
  rfl

variable (entry m) in
/-- An activation succeeds when the id is free and the manager has room, and otherwise changes
nothing. -/
theorem activate_cases (frame : SessionInitFrame) :
    (m.activeSessions.lookup entry.header.streamId = none ∧ m.Admits ∧
      activate globalFlags entry frame m =
        (.ok (.single (.sessionActivated entry.header.streamId frame.sessionUuid frame.flags)),
          m.activated globalFlags entry frame)) ∨
    (¬ (m.activeSessions.lookup entry.header.streamId = none ∧ m.Admits) ∧
      ∃ e, activate globalFlags entry frame m = (.error e, m)) := by
  have hfree : ¬ (m.activeSessions.lookup entry.header.streamId).isSome = true ↔
      m.activeSessions.lookup entry.header.streamId = none := Option.not_isSome_iff_eq_none
  rw [activate, current_bind, bind_apply, lift_apply]
  by_cases hactive : (m.activeSessions.lookup entry.header.streamId).isSome = true
  · rw [rejectIf_of hactive]
    exact .inr ⟨fun h => hfree.mpr h.1 hactive, _, rfl⟩
  rw [rejectIf_of_not hactive, andThen_ok, bind_apply, lift_apply,
    ResourceLimits.checkActiveStreams]
  by_cases hstreams : m.activeSessions.size + 1 > m.config.limits.maxActiveStreams
  · rw [rejectIf_of hstreams]
    exact .inr ⟨fun h => absurd h.2.streams (not_le.mpr hstreams), _, rfl⟩
  rw [rejectIf_of_not hstreams, andThen_ok, bind_apply, lift_apply]
  by_cases hover : m.totalSessionMemory + activeSessionBaseMemoryBytes > u64Max
  · rw [rejectIf_of hover]
    exact .inr ⟨fun h => absurd h.2.memory_le (not_le.mpr hover), _, rfl⟩
  rw [rejectIf_of_not hover, andThen_ok, bind_apply, lift_apply,
    ResourceLimits.checkSessionMemoryBytes, ResourceLimits.atMost]
  by_cases hmemory : m.totalSessionMemory + activeSessionBaseMemoryBytes >
      m.config.limits.maxSessionMemoryBytes
  · rw [rejectIf_of hmemory]
    exact .inr ⟨fun h => absurd h.2.memory (not_le.mpr hmemory), _, rfl⟩
  rw [rejectIf_of_not hmemory, andThen_ok, bind_apply, bumpActivityTick, current_bind,
    bind_apply, lift_apply]
  by_cases htick : m.activityTick + 1 > u64Max
  · rw [rejectIf_of htick]
    exact .inr ⟨fun h => absurd h.2.tick (not_le.mpr htick), _, rfl⟩
  rw [rejectIf_of_not htick]
  refine .inl ⟨hfree.mp hactive, ⟨⟨?_, ?_, ?_⟩, ?_⟩, rfl⟩
  · exact not_lt.mp hstreams
  · exact not_lt.mp hover
  · exact not_lt.mp hmemory
  · exact not_lt.mp htick

end Outcome

section Stages

variable {globalFlags : GlobalFlags} {entry : SessionEntry} {m : SessionManager}

theorem withSession_of_applies
    (happly : shouldApplyStateful globalFlags entry.header.streamId = true) (check : Result Unit)
    (act : Prog ActiveSession SarError ProcessResult) :
    withSession globalFlags entry entry.header.entryMode.isSessionControl check act =
      (do lift check; onActive entry act) := by
  rw [withSession, if_pos happly]
  rfl

theorem withSession_of_not_applies
    (happly : shouldApplyStateful globalFlags entry.header.streamId = false) (control : Bool)
    (check : Result Unit) (act : Prog ActiveSession SarError ProcessResult) :
    withSession globalFlags entry control check act m =
      (.ok (inactiveResult entry control), m) := by
  rw [withSession, happly, if_neg Bool.false_ne_true]
  rfl

/-- What is read of an entry that the session semantics does not apply to: the two frames without
content are not looked at. -/
def checkInactive (limits : ResourceLimits) (entry : SessionEntry) : Result Unit :=
  if entry.header.entryMode.isSessionControl then do
    match ← SessionOpCode.tryFrom entry.header.entryMode.opCode with
    | .close | .heartbeat => pure ()
    | op => (fun _ => ()) <$> SessionFrame.parseControl limits entry.payload op
  else (fun _ => ()) <$> SessionFrame.parse limits entry

/-- A session-control entry: the frame is read and applied, or, where the session semantics does not
apply, only read. -/
theorem handleSessionControl_eq (hcontrol : entry.header.entryMode.isSessionControl = true) :
    handleSessionControl globalFlags entry m =
      if shouldApplyStateful globalFlags entry.header.streamId = true then (do
        let op ← lift (SessionOpCode.tryFrom entry.header.entryMode.opCode)
        let frame ← lift (SessionFrame.parseControl m.config.limits entry.payload op)
        processFrame globalFlags entry frame : SessionM ProcessResult) m
      else ((do checkInactive m.config.limits entry; pure (inactiveResult entry true)), m) := by
  have hwith : ∀ check act, withSession globalFlags entry true check act m =
      if shouldApplyStateful globalFlags entry.header.streamId = true then
        (do lift check; onActive entry act : SessionM ProcessResult) m
      else (.ok (inactiveResult entry true), m) := by
    intro check act
    split
    · next happly => rw [← hcontrol, withSession_of_applies happly]
    · next happly => exact withSession_of_not_applies (Bool.eq_false_iff.mpr happly) ..
  have hinit : (!globalFlags.noIndex || entry.header.streamId == 0) =
      !shouldApplyStateful globalFlags entry.header.streamId := by
    rw [shouldApplyStateful, Bool.not_and, bne, Bool.not_not]
  rw [handleSessionControl, bind_apply, lift_apply, bind_apply, lift_apply, checkInactive, hcontrol,
    if_pos rfl]
  rcases SessionOpCode.tryFrom entry.header.entryMode.opCode with e | op
  · split <;> rfl
  rw [andThen_ok, andThen_ok, ok_bind, bind_apply, lift_apply]
  cases op with
  | init =>
    dsimp only
    rw [handleInit, bind_apply, lift_apply, SessionFrame.parseControl]
    rcases SessionInitFrame.parse entry.payload with e | frame
    · rw [andThen_error]
      split <;> rfl
    · rw [andThen_ok, hinit]
      cases shouldApplyStateful globalFlags entry.header.streamId <;> rfl
  | close =>
    dsimp only
    rw [handleClose, current_bind, bind_apply, hwith, SessionFrame.parseControl]
    split
    · by_cases hpayload : entry.payload ≠ []
      · rw [rejectIf_of hpayload]
        rfl
      · rw [rejectIf_of_not hpayload]
        rfl
    · rfl
  | resume =>
    dsimp only
    rw [handleResume, bind_apply, lift_apply, SessionFrame.parseControl]
    rcases SessionResumeFrame.parse entry.payload with e | frame
    · split <;> rfl
    · rw [andThen_ok, current_bind, hwith]
      rfl
  | heartbeat =>
    dsimp only
    rw [handleHeartbeat, hwith, SessionFrame.parseControl]
    split
    · by_cases hpayload : entry.payload ≠ []
      · rw [rejectIf_of hpayload]
        rfl
      · rw [rejectIf_of_not hpayload]
        rfl
    · rfl
  | status =>
    dsimp only
    rw [handleStatus, current_bind, bind_apply, lift_apply, SessionFrame.parseControl]
    rcases SessionStatusFrame.parse entry.payload m.config.limits with e | frame
    · split <;> rfl
    · rw [andThen_ok, hwith]
      rfl
  | ack =>
    dsimp only
    rw [handleAck, bind_apply, lift_apply, SessionFrame.parseControl]
    rcases SessionAckFrame.parse entry.payload with e | frame
    · split <;> rfl
    · rw [andThen_ok, hwith]
      rfl
  | metadata =>
    dsimp only
    rw [handleMetadata, current_bind, bind_apply, lift_apply, SessionFrame.parseControl]
    rcases SessionMetadataFrame.parse entry.payload m.config.limits with e | frame
    · split <;> rfl
    · rw [andThen_ok, hwith]
      rfl
  | capabilities =>
    dsimp only
    rw [handleCapabilities, bind_apply, lift_apply, SessionFrame.parseControl]
    rcases SessionCapabilitiesFrame.parse entry.payload with e | frame
    · split <;> rfl
    · rw [andThen_ok, hwith]
      rfl

/-- **The stages of an entry** that the session semantics applies to. -/
theorem processEntry_of_applies (hflags : m.currentGlobalFlags = some globalFlags)
    (happly : shouldApplyStateful globalFlags entry.header.streamId = true) :
    processEntry entry m = (do
      lift (checkEntry m.config.limits globalFlags entry)
      let frame ← lift (SessionFrame.parse m.config.limits entry)
      processFrame globalFlags entry frame : SessionM ProcessResult) m := by
  rw [processEntry, current_bind, hflags, okOr_some, bind_apply, lift_apply, andThen_ok,
    bind_apply, bind_apply]
  rcases checkEntry m.config.limits globalFlags entry with e | _
  · rfl
  rw [lift_apply, andThen_ok, andThen_ok]
  cases hcontrol : entry.header.entryMode.isSessionControl with
  | true =>
    rw [if_pos rfl, handleSessionControl_eq hcontrol, if_pos happly, SessionFrame.parse, hcontrol,
      if_pos rfl, bind_apply, bind_apply]
    rcases SessionOpCode.tryFrom entry.header.entryMode.opCode with e | op <;> rfl
  | false =>
    have hwith := fun act => withSession_of_applies happly (.ok ()) act
    rw [hcontrol] at hwith
    rw [if_neg Bool.false_ne_true, handleFilesystem, bind_apply, bind_apply, SessionFrame.parse,
      hcontrol, if_neg Bool.false_ne_true]
    rcases FilesystemOpCode.tryFrom entry.header.entryMode.opCode with e | op
    · rfl
    rw [lift_apply, andThen_ok, bind_apply, ok_bind]
    by_cases hpayload : op = .delete ∧ entry.payload ≠ []
    · rw [rejectIf_of hpayload]
      rfl
    · rw [rejectIf_of_not hpayload, lift_apply, andThen_ok, hwith]
      rfl

theorem processEntry_of_missing (hflags : m.currentGlobalFlags = none) :
    processEntry entry m =
      (.error (.streamState "session manager missing current global header"), m) := by
  rw [processEntry, current_bind, hflags]
  rfl

/-- **An entry that the session semantics does not apply to** leaves the manager as it is. -/
theorem processEntry_of_not_applies (hflags : m.currentGlobalFlags = some globalFlags)
    (happly : shouldApplyStateful globalFlags entry.header.streamId = false) :
    processEntry entry m =
      ((do
        checkEntry m.config.limits globalFlags entry
        checkInactive m.config.limits entry
        pure (inactiveResult entry entry.header.entryMode.isSessionControl)), m) := by
  rw [processEntry, current_bind, hflags, okOr_some, bind_apply, lift_apply, andThen_ok, bind_apply]
  rcases checkEntry m.config.limits globalFlags entry with e | _
  · rfl
  rw [lift_apply, andThen_ok, ok_bind]
  cases hcontrol : entry.header.entryMode.isSessionControl with
  | true =>
    rw [if_pos rfl, handleSessionControl_eq hcontrol, happly, if_neg Bool.false_ne_true]
  | false =>
    rw [if_neg Bool.false_ne_true, handleFilesystem, bind_apply, lift_apply, checkInactive,
      SessionFrame.parse, hcontrol, if_neg Bool.false_ne_true, if_neg Bool.false_ne_true]
    rcases FilesystemOpCode.tryFrom entry.header.entryMode.opCode with e | op
    · rfl
    rw [andThen_ok, bind_apply, lift_apply, ok_bind]
    by_cases hpayload : op = .delete ∧ entry.payload ≠ []
    · rw [rejectIf_of hpayload]
      rfl
    · rw [rejectIf_of_not hpayload, andThen_ok, withSession_of_not_applies happly]
      rfl

end Stages

/-! ### All that an entry can do -/

/-- An entry that the session semantics applies to, with the frame in it. -/
structure Reads (m : SessionManager) (entry : SessionEntry) (globalFlags : GlobalFlags)
    (frame : SessionFrame) : Prop where
  flags_eq : m.currentGlobalFlags = some globalFlags
  applies : shouldApplyStateful globalFlags entry.header.streamId = true
  checked : checkEntry m.config.limits globalFlags entry = .ok ()
  parsed : SessionFrame.parse m.config.limits entry = .ok frame

/-- An entry that is the next one of its session. -/
structure IsNext (m : SessionManager) (entry : SessionEntry) (frame : SessionFrame)
    (session : ActiveSession) : Prop where
  not_init : ∀ f, frame ≠ .init f
  lookup_eq : m.activeSessions.lookup entry.header.streamId = some session
  sequence_eq : entry.header.sequenceNo = session.lastSequenceNo + 1

/-- All that a call of `processEntry` can answer and leave. -/
inductive Turn (m : SessionManager) (entry : SessionEntry) :
    Except SarError ProcessResult × SessionManager → Prop where
  /-- The entry is refused before a session is looked at, or there is no room for a new one. -/
  | rejected (e : SarError) : Turn m entry (.error e, m)
  /-- The entry has no session semantics. -/
  | inactive
      (h : (∃ globalFlags, m.currentGlobalFlags = some globalFlags ∧
          shouldApplyStateful globalFlags entry.header.streamId = false) ∨
        m.activeSessions.lookup entry.header.streamId = none ∧ ¬ entry.carries .init) :
      Turn m entry (.ok (inactiveResult entry entry.header.entryMode.isSessionControl), m)
  /-- `SESSION_INIT` is accepted. -/
  | activated {globalFlags : GlobalFlags} {frame : SessionInitFrame}
      (hreads : Reads m entry globalFlags (.init frame))
      (hnone : m.activeSessions.lookup entry.header.streamId = none) (hadmits : m.Admits) :
      Turn m entry
        (.ok (.single (.sessionActivated entry.header.streamId frame.sessionUuid frame.flags)),
          m.activated globalFlags entry frame)
  /-- The sequence number is not the next one. -/
  | discontinuous {session : ActiveSession}
      (hsome : m.activeSessions.lookup entry.header.streamId = some session)
      (hsequence : entry.header.sequenceNo ≠ session.lastSequenceNo + 1) :
      Turn m entry (.error (.streamState "sequence discontinuity detected"),
        m.setSession entry.header.streamId (some session))
  /-- The tick of the session overflows once the number is taken. -/
  | overflowed {globalFlags : GlobalFlags} {frame : SessionFrame} {session : ActiveSession}
      (hreads : Reads m entry globalFlags frame) (hnext : IsNext m entry frame session)
      (htick : u64Max < session.lastActivityTick + 1) :
      Turn m entry (.error (.overflow "activity tick"), m.setSession entry.header.streamId
        (some { session with lastSequenceNo := entry.header.sequenceNo }))
  /-- The content is refused once the session is advanced. -/
  | refused {globalFlags : GlobalFlags} {frame : SessionFrame} {session : ActiveSession}
      {e : SarError} (hreads : Reads m entry globalFlags frame)
      (hnext : IsNext m entry frame session)
      (hlate : frame.RefusedLate m.config m.totalSessionMemory session) :
      Turn m entry (.error e, m.setSession entry.header.streamId (some session.advanced))
  /-- The session accepts the entry. -/
  | accepted {globalFlags : GlobalFlags} {frame : SessionFrame} {session : ActiveSession}
      (hreads : Reads m entry globalFlags frame) (hnext : IsNext m entry frame session)
      (htick : session.lastActivityTick + 1 ≤ u64Max)
      (hlate : ¬ frame.RefusedLate m.config m.totalSessionMemory session) :
      Turn m entry (.ok (frame.answer m.config entry session),
        m.setSession entry.header.streamId (afterFrame session.advanced frame))

section Turns

variable {m : SessionManager} {entry : SessionEntry} {globalFlags : GlobalFlags}
  {frame : SessionFrame} {session : ActiveSession}

theorem Reads.processEntry_eq (h : Reads m entry globalFlags frame) :
    processEntry entry m = processFrame globalFlags entry frame m := by
  rw [processEntry_of_applies h.flags_eq h.applies, bind_apply, h.checked, lift_apply, andThen_ok,
    bind_apply, h.parsed, lift_apply, andThen_ok]

/-- A frame on an id without session, which is not `SESSION_INIT`. -/
theorem processFrame_of_none (hinit : ∀ f, frame ≠ .init f)
    (hnone : m.activeSessions.lookup entry.header.streamId = none) :
    processFrame globalFlags entry frame m =
      (.ok (inactiveResult entry entry.header.entryMode.isSessionControl), m) := by
  cases frame with
  | init f => exact absurd rfl (hinit f)
  | close =>
    rw [processFrame, current_bind, bind_apply, onActive_of_none hnone]
    rfl
  | _ => exact onActive_of_none hnone _

/-- The frame of a `SESSION_INIT`. -/
theorem Reads.exists_init (h : Reads m entry globalFlags frame)
    (hop : entry.carries .init) : ∃ f, frame = .init f := by
  have hparsed := h.parsed
  rw [SessionFrame.parse, if_pos hop.1, hop.2, ok_bind] at hparsed
  obtain ⟨f, -, hframe⟩ := Except.map_eq_ok_iff.mp hparsed
  exact ⟨f, hframe.symm⟩

theorem Reads.turn (h : Reads m entry globalFlags frame) :
    Turn m entry (processFrame globalFlags entry frame m) := by
  by_cases hinit : ∃ f, frame = .init f
  · obtain ⟨f, rfl⟩ := hinit
    rcases activate_cases globalFlags entry m f with ⟨hnone, hadmits, hok⟩ | ⟨-, e, herror⟩
    · rw [processFrame, hok]
      exact .activated h hnone hadmits
    · rw [processFrame, herror]
      exact .rejected e
  have hinit' : ∀ f, frame ≠ .init f := not_exists.mp hinit
  rcases hlookup : m.activeSessions.lookup entry.header.streamId with _ | session
  · rw [processFrame_of_none hinit' hlookup]
    exact .inactive (.inr ⟨hlookup, fun hop => hinit (h.exists_init hop)⟩)
  by_cases hsequence : entry.header.sequenceNo = session.lastSequenceNo + 1
  · have hnext : IsNext m entry frame session := ⟨hinit', hlookup, hsequence⟩
    by_cases htick : u64Max < session.lastActivityTick + 1
    · rw [processFrame_of_overflow globalFlags hinit' hlookup hsequence htick]
      exact .overflowed h hnext htick
    by_cases hlate : frame.RefusedLate m.config m.totalSessionMemory session
    · obtain ⟨e, herror⟩ :=
        processFrame_of_refusedLate globalFlags hlookup hsequence (not_lt.mp htick) hlate
      rw [herror]
      exact .refused h hnext hlate
    · rw [processFrame_of_accepted globalFlags hinit' hlookup hsequence (not_lt.mp htick) hlate]
      exact .accepted h hnext (not_lt.mp htick) hlate
  · rw [processFrame_of_ne globalFlags hinit' hlookup hsequence]
    exact .discontinuous hlookup hsequence

/-- **All that an entry can do.** -/
theorem processEntry_turn (m : SessionManager) (entry : SessionEntry) :
    Turn m entry (processEntry entry m) := by
  rcases hflags : m.currentGlobalFlags with _ | globalFlags
  · rw [processEntry_of_missing hflags]
    exact .rejected _
  rcases happly : shouldApplyStateful globalFlags entry.header.streamId with _ | _
  · rw [processEntry_of_not_applies hflags happly]
    rcases checkEntry m.config.limits globalFlags entry with e | _
    · exact .rejected e
    rcases hcheck : checkInactive m.config.limits entry with e | _
    · rw [ok_bind]
      exact .rejected e
    · exact .inactive (.inl ⟨globalFlags, hflags, happly⟩)
  rcases hcheck : checkEntry m.config.limits globalFlags entry with e | _
  · rw [processEntry_of_applies hflags happly, bind_apply, hcheck]
    exact .rejected e
  rcases hparse : SessionFrame.parse m.config.limits entry with e | frame
  · rw [processEntry_of_applies hflags happly, bind_apply, hcheck, lift_apply, andThen_ok,
      bind_apply, hparse]
    exact .rejected e
  have hreads : Reads m entry globalFlags frame := ⟨hflags, happly, hcheck, hparse⟩
  rw [hreads.processEntry_eq]
  exact hreads.turn

end Turns

/-! ### The session of an entry's id -/

/-- All that a call of `processEntry` can do to the session of the entry's stream id. -/
inductive Outcome (m : SessionManager) (entry : SessionEntry) :
    Except SarError ProcessResult → Option ActiveSession → Prop where
  /-- `SESSION_INIT` was accepted for an id without session. -/
  | activated {session : ActiveSession} (hop : entry.carries .init)
      (hnone : m.activeSessions.lookup entry.header.streamId = none)
      (hid : entry.header.streamId ≠ 0)
      (hsequence : session.lastSequenceNo = entry.header.sequenceNo) :
      Outcome m entry (.ok (.single (.sessionActivated entry.header.streamId session.sessionUuid
        session.sessionFlags))) (some session)
  /-- `SESSION_CLOSE` was accepted. -/
  | closed {session : ActiveSession} {actions : List SessionAction} (hop : entry.carries .close)
      (hsome : m.activeSessions.lookup entry.header.streamId = some session)
      (hsequence : entry.header.sequenceNo = session.lastSequenceNo + 1) :
      Outcome m entry
        (.ok ⟨[.sessionClosed entry.header.streamId session.sessionUuid], actions⟩) none
  /-- The entry has no session semantics. -/
  | inactive (sessionControl : Bool)
      (hinactive :
        shouldApplyStateful (m.currentGlobalFlags.getD {}) entry.header.streamId = false ∨
        m.activeSessions.lookup entry.header.streamId = none) :
      Outcome m entry (.ok (inactiveResult entry sessionControl))
        (m.activeSessions.lookup entry.header.streamId)
  /-- The entry was accepted by its session, which goes on. -/
  | accepted {session session' : ActiveSession} {events : List SessionEvent}
      (hsome : m.activeSessions.lookup entry.header.streamId = some session)
      (hsequence : entry.header.sequenceNo = session.lastSequenceNo + 1)
      (hadvanced : session'.lastSequenceNo = entry.header.sequenceNo)
      (huuid : session'.sessionUuid = session.sessionUuid)
      (hevents : ∀ event ∈ events, event.keepsBinding) :
      Outcome m entry (.ok ⟨events, []⟩) (some session')
  /-- The entry was refused; a session may have advanced all the same. -/
  | refused {error : SarError} {after : Option ActiveSession}
      (huuid : after.map (·.sessionUuid) =
        (m.activeSessions.lookup entry.header.streamId).map (·.sessionUuid)) :
      Outcome m entry (.error error) after

/-- A call of the manager: the other ids keep their sessions, and `Outcome` says what happened to
the entry's own id. -/
structure Processed (m : SessionManager) (entry : SessionEntry)
    (r : Except SarError ProcessResult × SessionManager) : Prop where
  config_eq : r.2.config = m.config
  currentGlobalFlags_eq : r.2.currentGlobalFlags = m.currentGlobalFlags
  lookup_ne : ∀ k, k ≠ entry.header.streamId →
    r.2.activeSessions.lookup k = m.activeSessions.lookup k
  outcome : Outcome m entry r.1 (r.2.activeSessions.lookup entry.header.streamId)

section Outcomes

variable {m : SessionManager} {entry : SessionEntry} {k : UInt16} {frame : SessionFrame}
  {r : Except SarError ProcessResult × SessionManager}

/-- A frame that opens or ends a session comes from an entry with that operation. -/
theorem Reads.carries {globalFlags : GlobalFlags} (h : Reads m entry globalFlags frame) :
    ((∃ f, frame = .init f) → entry.carries .init) ∧
      (frame = .close → entry.carries .close) := by
  have hparsed := h.parsed
  rw [SessionFrame.parse] at hparsed
  split at hparsed
  · next hcontrol =>
    obtain ⟨op, hop, hframe⟩ := bind_eq_ok_iff.mp hparsed
    -- the operation decides which frame was parsed
    cases op with
    | close =>
      refine ⟨?_, fun _ => ⟨hcontrol, hop⟩⟩
      rintro ⟨f, hf⟩
      simp [SessionFrame.parseControl, hf] at hframe
    | init =>
      exact ⟨fun _ => ⟨hcontrol, hop⟩,
        fun hf => by simp [SessionFrame.parseControl, hf] at hframe⟩
    | _ =>
      constructor
      · rintro ⟨f, hf⟩
        simp [SessionFrame.parseControl, hf] at hframe
      · intro hf
        simp [SessionFrame.parseControl, hf] at hframe
  · obtain ⟨op, -, hrest⟩ := bind_eq_ok_iff.mp hparsed
    obtain ⟨-, -, hframe⟩ := bind_eq_ok_iff.mp hrest
    obtain rfl := Except.ok.inj hframe
    exact ⟨by rintro ⟨f, ⟨⟩⟩, by rintro ⟨⟩⟩

/-- Other ids keep their sessions. -/
theorem Turn.lookup_ne (h : Turn m entry r) (hk : k ≠ entry.header.streamId) :
    r.2.activeSessions.lookup k = m.activeSessions.lookup k := by
  cases h with
  | rejected | inactive => rfl
  | _ => exact (lookup_setSession _ _ _ _).trans (if_neg hk)

/-- What a frame never changes in its session. -/
theorem applied_eqs (session : ActiveSession) (frame : SessionFrame) :
    (frame.applied session).streamId = session.streamId ∧
      (frame.applied session).sessionUuid = session.sessionUuid ∧
      (frame.applied session).lastSequenceNo = session.lastSequenceNo := by
  cases frame <;> exact ⟨rfl, rfl, rfl⟩

theorem afterFrame_of_ne (session : ActiveSession) (h : frame ≠ .close) :
    afterFrame session frame = some (frame.applied session) := by
  cases frame with
  | close => exact absurd rfl h
  | _ => rfl

theorem shouldApplyStateful_eq_true {globalFlags : GlobalFlags} {streamId : UInt16}
    (h : shouldApplyStateful globalFlags streamId = true) :
    globalFlags.noIndex = true ∧ streamId ≠ 0 := by
  rwa [shouldApplyStateful, Bool.and_eq_true, bne_iff_ne] at h

/-- A frame that neither opens nor ends a session answers with events of that session. -/
theorem answer_eq (config : SessionManagerConfig) (entry : SessionEntry) (session : ActiveSession)
    (hinit : ∀ f, frame ≠ .init f) (hclose : frame ≠ .close) :
    ∃ events : List SessionEvent, frame.answer config entry session = ⟨events, []⟩ ∧
      ∀ event ∈ events, event.keepsBinding := by
  cases frame with
  | init f => exact absurd rfl (hinit f)
  | close => exact absurd rfl hclose
  | filesystem op =>
    refine ⟨_, rfl, fun event hevent => ?_⟩
    rcases mem_cons.mp hevent with rfl | hwarning
    · rfl
    · split at hwarning
      · rw [mem_singleton.mp hwarning]
        rfl
      · exact absurd hwarning not_mem_nil
  | _ => exact ⟨_, rfl, fun event hevent => mem_singleton.mp hevent ▸ rfl⟩

/-- The outcome of an entry. -/
theorem Turn.outcome (h : Turn m entry r) :
    Outcome m entry r.1 (r.2.activeSessions.lookup entry.header.streamId) := by
  cases h with
  | rejected e => exact .refused rfl
  | inactive h =>
    refine .inactive _ (h.imp ?_ And.left)
    rintro ⟨globalFlags, hflags, happly⟩
    rwa [hflags]
  | @activated globalFlags frame hreads hnone _ =>
    rw [SessionManager.activated, lookup_setSession, if_pos rfl]
    exact @Outcome.activated m entry (initialSession globalFlags entry frame _)
      (hreads.carries.1 ⟨_, rfl⟩) hnone (shouldApplyStateful_eq_true hreads.applies).2 rfl
  | discontinuous hsome _ =>
    refine .refused ?_
    rw [lookup_setSession, if_pos rfl, hsome]
  | overflowed _ hnext _ | refused _ hnext _ =>
    refine .refused ?_
    rw [lookup_setSession, if_pos rfl, hnext.lookup_eq]
    rfl
  | @accepted _ frame session hreads hnext _ _ =>
    rw [lookup_setSession, if_pos rfl]
    by_cases hclose : frame = .close
    · subst hclose
      exact .closed (hreads.carries.2 rfl) hnext.lookup_eq hnext.sequence_eq
    · obtain ⟨events, hanswer, hevents⟩ :=
        answer_eq m.config entry session hnext.not_init hclose
      obtain ⟨-, huuid, hlast⟩ := applied_eqs session.advanced frame
      rw [hanswer, afterFrame_of_ne _ hclose]
      exact .accepted hnext.lookup_eq hnext.sequence_eq (hlast.trans hnext.sequence_eq.symm) huuid
        hevents

theorem Turn.processed (h : Turn m entry r) : Processed m entry r := by
  refine ⟨?_, ?_, fun k hk => h.lookup_ne hk, h.outcome⟩
  · cases h <;> rfl
  · cases h <;> rfl

theorem processEntry_processed (m : SessionManager) (entry : SessionEntry) :
    Processed m entry (processEntry entry m) := (processEntry_turn m entry).processed

/-- A session is activated by `SESSION_INIT` only. -/
theorem processEntry_eq_activated {sar : UInt16} {uuid : Octets 16} {flags : SessionFlags}
    (h : (processEntry entry m).1 = .ok (.single (.sessionActivated sar uuid flags))) :
    entry.carries .init ∧ sar = entry.header.streamId ∧
      m.activeSessions.lookup entry.header.streamId = none ∧
      ((processEntry entry m).2.activeSessions.lookup entry.header.streamId).map
        (·.lastSequenceNo) = some entry.header.sequenceNo := by
  have houtcome := (processEntry_processed m entry).outcome
  rw [h] at houtcome
  generalize AList.lookup entry.header.streamId _ = after at houtcome ⊢
  cases houtcome with
  | activated hop hnone _ hsequence => exact ⟨hop, rfl, hnone, congrArg some hsequence⟩
  | accepted _ _ _ _ hevents => exact nomatch hevents _ mem_cons_self

/-- A session is closed by `SESSION_CLOSE` only. -/
theorem processEntry_eq_closed {sar : UInt16} {uuid : Octets 16} {actions : List SessionAction}
    (h : (processEntry entry m).1 = .ok ⟨[.sessionClosed sar uuid], actions⟩) :
    entry.carries .close ∧ sar = entry.header.streamId ∧
      ∃ session, m.activeSessions.lookup entry.header.streamId = some session := by
  have houtcome := (processEntry_processed m entry).outcome
  rw [h] at houtcome
  generalize AList.lookup entry.header.streamId _ = after at houtcome
  cases houtcome with
  | closed hop hsome => exact ⟨hop, rfl, _, hsome⟩
  | accepted _ _ _ _ hevents => exact nomatch hevents _ mem_cons_self

/-- The answers to a `SESSION_INIT`: it has no effect only where the session semantics does not
apply. -/
theorem processEntry_of_init (h : entry.carries .init) :
    (∃ uuid flags, (processEntry entry m).1 =
      .ok (.single (.sessionActivated entry.header.streamId uuid flags))) ∨
    ((processEntry entry m).1 = .ok (inactiveResult entry true) ∧
      ∃ globalFlags, m.currentGlobalFlags = some globalFlags ∧
        shouldApplyStateful globalFlags entry.header.streamId = false) ∨
    ∃ e, (processEntry entry m).1 = .error e := by
  have hturn := processEntry_turn m entry
  generalize processEntry entry m = r at hturn ⊢
  cases hturn with
  | rejected e => exact Or.inr (Or.inr ⟨e, rfl⟩)
  | inactive hinactive =>
    exact Or.inr (Or.inl ⟨by rw [h.1], hinactive.resolve_right fun hnone => hnone.2 h⟩)
  | activated => exact Or.inl ⟨_, _, rfl⟩
  | discontinuous | overflowed | refused => exact Or.inr (Or.inr ⟨_, rfl⟩)
  | accepted hreads hnext =>
    obtain ⟨f, hf⟩ := hreads.exists_init h
    exact absurd hf (hnext.not_init f)

end Outcomes

end SessionManager

end Sar
