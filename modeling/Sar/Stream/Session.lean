import Sar.Core.Flags
import Sar.Core.GlobalHeader
import Sar.Core.LocalFileHeader
import Sar.ForMathlib.AssocTable
import Sar.ForMathlib.Stateful
import Sar.Stream.Protocol

/-!
# The session manager of the stateful streaming mode

`SessionManager` binds stream ids to sessions and follows each session's sequence numbers. A call
of `processEntry` that fails may have changed the manager already: the sequence number of the
session is advanced before a frame's content is looked at, so an entry can be refused and still
count. The manager is therefore a program on a state that survives a failure.
-/

namespace Sar

open Except (rejectIf okOr)
open Stateful

/-- `ACTIVE_SESSION_BASE_MEMORY_BYTES`. -/
def activeSessionBaseMemoryBytes : ℕ := 16 + 2 + 2 + 8

/-- `SessionManagerConfig`. -/
structure SessionManagerConfig where
  limits : ResourceLimits
  localCapabilities : CapabilityFlags
  supportResume : Bool

/-- `SessionManagerConfig::default`. -/
def SessionManagerConfig.default : SessionManagerConfig where
  limits := .default
  localCapabilities := ⟨CapabilityFlags.sessionAck ||| CapabilityFlags.sessionStatus |||
    CapabilityFlags.sessionMetadata⟩
  supportResume := false

/-- `SessionMetadataState`. -/
structure SessionMetadataState where
  contentType : Str
  metadata : Bytes
  deriving DecidableEq

/-- `ActiveSession`. -/
structure ActiveSession where
  streamId : UInt16
  sessionUuid : Octets 16
  sessionFlags : SessionFlags
  lastSequenceNo : UInt16
  globalFlags : GlobalFlags
  peerCapabilities : CapabilityFlags
  metadata : Option SessionMetadataState
  lastActivityTick : ℕ

/-- `ActiveSession::memory_usage`. -/
def ActiveSession.memoryUsage (session : ActiveSession) : ℕ :=
  activeSessionBaseMemoryBytes +
    (session.metadata.map fun value =>
      value.contentType.bytes.length + value.metadata.length).getD 0

/-- `SessionEntry`. -/
structure SessionEntry where
  header : LocalFileHeader
  payload : Bytes
  degraded : Bool

/-- Whether the entry carries the given session operation. -/
def SessionEntry.carries (entry : SessionEntry) (op : SessionOpCode) : Prop :=
  entry.header.entryMode.isSessionControl ∧
    SessionOpCode.tryFrom entry.header.entryMode.opCode = .ok op

/-! ### Events and actions -/

/-- `FilesystemEntryAction`. -/
structure FilesystemEntryAction where
  streamId : UInt16
  sequenceNo : UInt16
  name : Bytes
  path : Bytes
  payload : Bytes
  atomicWrite : Bool
  forceSync : Bool
  lossTolerant : Bool
  deriving DecidableEq

/-- `FilesystemDeleteAction`. -/
structure FilesystemDeleteAction where
  streamId : UInt16
  sequenceNo : UInt16
  name : Bytes
  path : Bytes
  atomicWrite : Bool
  forceSync : Bool
  deriving DecidableEq

/-- `FilesystemRenameAction`. -/
structure FilesystemRenameAction where
  streamId : UInt16
  sequenceNo : UInt16
  oldName : Bytes
  oldPath : Bytes
  newPath : Bytes
  atomicWrite : Bool
  forceSync : Bool
  deriving DecidableEq

/-- `FilesystemSyncBarrierAction`. -/
structure FilesystemSyncBarrierAction where
  streamId : UInt16
  sequenceNo : UInt16
  atomicWrite : Bool
  forceSync : Bool
  deriving DecidableEq

/-- `FilesystemAction`. -/
inductive FilesystemAction where
  | dataWrite (action : FilesystemEntryAction)
  | delete (action : FilesystemDeleteAction)
  | rename (action : FilesystemRenameAction)
  | metaProbe (action : FilesystemEntryAction)
  | syncBarrier (action : FilesystemSyncBarrierAction)
  deriving DecidableEq

/-- `SessionAction`. -/
inductive SessionAction where
  | emitAck (streamId : UInt16) (frame : SessionAckFrame)
  deriving DecidableEq

/-- `SessionEvent`. -/
inductive SessionEvent where
  | sessionActivated (streamId : UInt16) (sessionUuid : Octets 16) (flags : SessionFlags)
  | statefulInactive (streamId : UInt16) (opCode : UInt8) (sessionControl : Bool)
  | sessionClosed (streamId : UInt16) (sessionUuid : Octets 16)
  | sessionResumed (streamId : UInt16) (sessionUuid : Octets 16)
  | heartbeat (streamId sequenceNo : UInt16)
  | status (streamId : UInt16) (frame : SessionStatusFrame)
  | ack (streamId : UInt16) (frame : SessionAckFrame)
  | metadataUpdated (streamId : UInt16) (frame : SessionMetadataFrame)
  | capabilitiesUpdated (streamId : UInt16) (frame : SessionCapabilitiesFrame)
  | filesystemAction (action : FilesystemAction)
  | warning (streamId : UInt16) (status : SarStatus) (message : String)
  deriving DecidableEq

/-- The events after which a session stays as it is bound. -/
def SessionEvent.keepsBinding : SessionEvent → Bool
  | .sessionActivated _ _ _ | .sessionClosed _ _ | .statefulInactive _ _ _ => false
  | _ => true

/-- `ProcessResult`. -/
structure ProcessResult where
  events : List SessionEvent
  actions : List SessionAction
  deriving DecidableEq

/-- A result that is one event. -/
def ProcessResult.single (event : SessionEvent) : ProcessResult := ⟨[event], []⟩

/-! ### The manager -/

/-- `SessionManager`. -/
structure SessionManager where
  config : SessionManagerConfig
  currentGlobalFlags : Option GlobalFlags
  activityTick : ℕ
  activeSessions : Table UInt16 ActiveSession

/-- A method of the manager. -/
abbrev SessionM := Prog SessionManager SarError

/-- `validate_and_advance_sequence`. The number is taken over before the tick is counted, so it
stays taken over when the tick overflows. -/
def validateAndAdvanceSequence (sequenceNo : UInt16) : Prog ActiveSession SarError Unit := do
  let session ← current
  lift (rejectIf (sequenceNo ≠ session.lastSequenceNo + 1)
    (.streamState "sequence discontinuity detected"))
  update fun session => { session with lastSequenceNo := sequenceNo }
  lift (rejectIf (session.lastActivityTick + 1 > u64Max) (.overflow "activity tick"))
  update fun session => { session with lastActivityTick := session.lastActivityTick + 1 }

namespace SessionManager

/-- `SessionManager::new`. -/
def new (config : SessionManagerConfig) : SessionManager where
  config := config
  currentGlobalFlags := none
  activityTick := 0
  activeSessions := ∅

/-- `observe_global_header`. -/
def observeGlobalHeader (header : GlobalHeader) : SessionM Unit := do
  lift (validateGlobalFlags header.flags)
  update fun self => { self with currentGlobalFlags := some header.flags }

/-- `archive_complete`. -/
def archiveComplete (self : SessionManager) : SessionManager :=
  { self with currentGlobalFlags := none }

/-- `total_session_memory`. -/
def totalSessionMemory (self : SessionManager) : ℕ :=
  self.activeSessions.entries.foldl (fun acc e => min (acc + e.2.memoryUsage) u64Max) 0

/-- `bump_activity_tick`. -/
def bumpActivityTick : SessionM ℕ := do
  let self ← current
  lift (rejectIf (self.activityTick + 1 > u64Max) (.overflow "activity tick"))
  update fun self => { self with activityTick := self.activityTick + 1 }
  pure (self.activityTick + 1)

section

variable (globalFlags : GlobalFlags)

/-- `should_apply_stateful`. -/
def shouldApplyStateful (streamId : UInt16) : Bool :=
  globalFlags.noIndex && streamId != 0

/-- `inactive_result`. -/
def inactiveResult (entry : SessionEntry) (sessionControl : Bool) : ProcessResult :=
  .single (.statefulInactive entry.header.streamId entry.header.entryMode.opCode sessionControl)

/-- Run a program on the session of a key, and store what it left. -/
def onSession {α : Type} (streamId : UInt16) (session : ActiveSession)
    (f : Prog ActiveSession SarError α) : SessionM α := fun self =>
  let r := f session
  (r.1, { self with activeSessions := self.activeSessions.insert streamId r.2 })

/-- What all handlers but `handle_init` do around their own part: nothing where the session
semantics is inactive or the stream id has no session, and the sequence check before `act`.
The check of the payload comes before the session is looked up. -/
def withSession (entry : SessionEntry) (sessionControl : Bool) (check : Result Unit)
    (act : Prog ActiveSession SarError ProcessResult) : SessionM ProcessResult :=
  if shouldApplyStateful globalFlags entry.header.streamId then do
    lift check
    let self ← current
    match self.activeSessions.lookup entry.header.streamId with
    | none => pure (inactiveResult entry sessionControl)
    | some session =>
      onSession entry.header.streamId session do
        validateAndAdvanceSequence entry.header.sequenceNo
        act
  else pure (inactiveResult entry sessionControl)

/-- The session that `handle_init` stores. -/
def initialSession (entry : SessionEntry) (frame : SessionInitFrame)
    (tick : ℕ) : ActiveSession where
  streamId := entry.header.streamId
  sessionUuid := frame.sessionUuid
  sessionFlags := frame.flags
  lastSequenceNo := entry.header.sequenceNo
  globalFlags := globalFlags
  peerCapabilities := .none
  metadata := none
  lastActivityTick := tick

/-- The part of `handle_init` after the frame is parsed and the semantics is known to apply. -/
def activate (entry : SessionEntry) (frame : SessionInitFrame) :
    SessionM ProcessResult := do
  let self ← current
  lift (rejectIf (self.activeSessions.lookup entry.header.streamId).isSome
    (.streamState "SESSION_INIT cannot reuse an already active Stream ID"))
  lift (self.config.limits.checkActiveStreams (self.activeSessions.size + 1))
  let projectedMemory := self.totalSessionMemory + activeSessionBaseMemoryBytes
  lift (rejectIf (projectedMemory > u64Max) (.overflow "session memory"))
  lift (self.config.limits.checkSessionMemoryBytes projectedMemory)
  let tick ← bumpActivityTick
  update fun self => { self with
    activeSessions := self.activeSessions.insert entry.header.streamId
      (initialSession globalFlags entry frame tick) }
  pure (.single (.sessionActivated entry.header.streamId frame.sessionUuid frame.flags))

/-- `handle_init`. -/
def handleInit (entry : SessionEntry) : SessionM ProcessResult := do
  let frame ← lift (SessionInitFrame.parse entry.payload)
  if !globalFlags.noIndex || entry.header.streamId == 0 then pure (inactiveResult entry true)
  else activate globalFlags entry frame

/-- The result of `handle_close`. -/
def closeResult (config : SessionManagerConfig) (entry : SessionEntry) (session : ActiveSession) :
    ProcessResult where
  events := [.sessionClosed entry.header.streamId session.sessionUuid]
  actions :=
    if config.localCapabilities.supportsSessionAck then
      [.emitAck entry.header.streamId
        ⟨entry.header.sequenceNo, ⟨AckFlags.ack ||| AckFlags.ok ||| AckFlags.success⟩⟩]
    else []

/-- The last stage of `handle_close`: a session that was closed is forgotten. -/
def removeClosed (streamId : UInt16) (result : ProcessResult) : SessionM ProcessResult := do
  match result.events with
  | [.sessionClosed _ _] =>
    update fun self => { self with activeSessions := self.activeSessions.erase streamId }
    pure result
  | _ => pure result

section

variable (entry : SessionEntry)

/-- `handle_close`. -/
def handleClose : SessionM ProcessResult := do
  let self ← current
  let result ← withSession globalFlags entry true
    (rejectIf (entry.payload ≠ []) (.invalidLength "SESSION_CLOSE payload must be empty"))
    (closeResult self.config entry <$> current)
  removeClosed entry.header.streamId result

/-- `handle_resume`. -/
def handleResume : SessionM ProcessResult := do
  let frame ← lift (SessionResumeFrame.parse entry.payload)
  let self ← current
  withSession globalFlags entry true (.ok ()) do
    let session ← current
    lift (rejectIf (session.sessionUuid ≠ frame.sessionUuid)
      (.streamState "SESSION_RESUME UUID does not match active session"))
    lift (rejectIf (!self.config.supportResume)
      (.unsupported "SESSION_RESUME is not supported"))
    pure (.single (.sessionResumed entry.header.streamId frame.sessionUuid))

/-- `handle_heartbeat`. -/
def handleHeartbeat : SessionM ProcessResult :=
  withSession globalFlags entry true
    (rejectIf (entry.payload ≠ []) (.invalidLength "SESSION_HEARTBEAT payload must be empty"))
    (pure (.single (.heartbeat entry.header.streamId entry.header.sequenceNo)))

/-- `handle_status`. -/
def handleStatus : SessionM ProcessResult := do
  let self ← current
  let frame ← lift (SessionStatusFrame.parse entry.payload self.config.limits)
  withSession globalFlags entry true (.ok ())
    (pure (.single (.status entry.header.streamId frame)))

/-- `handle_ack`. -/
def handleAck : SessionM ProcessResult := do
  let frame ← lift (SessionAckFrame.parse entry.payload)
  withSession globalFlags entry true (.ok ())
    (pure (.single (.ack entry.header.streamId frame)))

/-- `handle_metadata`. -/
def handleMetadata :
    SessionM ProcessResult := do
  let self ← current
  let frame ← lift (SessionMetadataFrame.parse entry.payload self.config.limits)
  let newState : SessionMetadataState := ⟨frame.contentType, frame.metadata⟩
  let currentTotal := self.totalSessionMemory
  withSession globalFlags entry true (.ok ()) do
    let session ← current
    let updated := { session with metadata := some newState }
    lift (rejectIf (currentTotal < session.memoryUsage ∨
        currentTotal - session.memoryUsage + updated.memoryUsage > u64Max)
      (.overflow "session memory"))
    lift (self.config.limits.checkSessionMemoryBytes
      (currentTotal - session.memoryUsage + updated.memoryUsage))
    update fun session => { session with metadata := updated.metadata }
    pure (.single (.metadataUpdated entry.header.streamId frame))

/-- `handle_capabilities`. -/
def handleCapabilities :
    SessionM ProcessResult := do
  let frame ← lift (SessionCapabilitiesFrame.parse entry.payload)
  withSession globalFlags entry true (.ok ()) do
    update fun session => { session with peerCapabilities := frame.flags }
    pure (.single (.capabilitiesUpdated entry.header.streamId frame))

/-- `handle_session_control`. -/
def handleSessionControl :
    SessionM ProcessResult := do
  match ← lift (SessionOpCode.tryFrom entry.header.entryMode.opCode) with
  | .init => handleInit globalFlags entry
  | .close => handleClose globalFlags entry
  | .resume => handleResume globalFlags entry
  | .heartbeat => handleHeartbeat globalFlags entry
  | .status => handleStatus globalFlags entry
  | .ack => handleAck globalFlags entry
  | .metadata => handleMetadata globalFlags entry
  | .capabilities => handleCapabilities globalFlags entry

end

/-- The action of a filesystem operation. -/
def filesystemActionOf (op : FilesystemOpCode) (entry : SessionEntry) : FilesystemAction :=
  let header := entry.header
  let mode := header.entryMode
  let common : FilesystemEntryAction :=
    ⟨header.streamId, header.sequenceNo, header.name, header.path, entry.payload,
      mode.isAtomicWrite, mode.isForceSync, mode.isLossTolerant⟩
  match op with
  | .dataWrite => .dataWrite common
  | .delete => .delete ⟨header.streamId, header.sequenceNo, header.name, header.path,
      mode.isAtomicWrite, mode.isForceSync⟩
  | .rename => .rename ⟨header.streamId, header.sequenceNo, header.name, header.path,
      entry.payload, mode.isAtomicWrite, mode.isForceSync⟩
  | .metaProbe => .metaProbe common
  | .syncBarrier => .syncBarrier ⟨header.streamId, header.sequenceNo, mode.isAtomicWrite,
      mode.isForceSync⟩

/-- `handle_filesystem`. -/
def handleFilesystem (entry : SessionEntry) :
    SessionM ProcessResult := do
  let op ← lift (FilesystemOpCode.tryFrom entry.header.entryMode.opCode)
  lift (rejectIf (op = .delete ∧ entry.payload ≠ [])
    (.invalidLength "DELETE payload must be empty"))
  withSession globalFlags entry false (.ok ())
    (pure ⟨.filesystemAction (filesystemActionOf op entry) ::
      if entry.degraded then
        [.warning entry.header.streamId .warnIncomplete "loss-tolerant degraded output accepted"]
      else [], []⟩)

end

/-- The checks of `process_entry` before the entry is dispatched. -/
def checkEntry (limits : ResourceLimits) (globalFlags : GlobalFlags) (entry : SessionEntry) :
    Result Unit := do
  validateEntryModeAgainstGlobal globalFlags entry.header.entryMode
  rejectIf (entry.degraded && !entry.header.entryMode.isLossTolerant)
    (.fragmentGap "degraded output without LOSS_TOLERANT is not allowed")
  if entry.header.entryMode.isFragment then
    limits.checkSessionFragmentBufferBytes entry.header.uncompressedSize.toNat
    limits.checkSessionFragmentBufferBytes entry.payload.length
  else pure ()

/-- `process_entry`. -/
def processEntry (entry : SessionEntry) : SessionM ProcessResult := do
  let self ← current
  let globalFlags ← lift (okOr self.currentGlobalFlags
    (.streamState "session manager missing current global header"))
  lift (checkEntry self.config.limits globalFlags entry)
  if entry.header.entryMode.isSessionControl then handleSessionControl globalFlags entry
  else handleFilesystem globalFlags entry

end SessionManager

end Sar
