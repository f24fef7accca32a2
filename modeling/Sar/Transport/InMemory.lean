import Mathlib.Data.Finset.Card
import Sar.Archive.StreamRuns
import Sar.Stream.Session

/-!
# The in-memory transport

`InMemoryTransport` runs one archive parser and one session manager for each transport stream and
keeps the connection's tables: which SAR stream id is bound to which transport stream, the session
and Global Header behind it, the attached control streams and the ids that need encryption.

A call collects its actions in a list that is lost when the call fails, while what it did to the
tables stays. Methods are therefore programs on `Call`, the transport with the actions so far.
-/

namespace Sar

open Except (rejectIf okOr liftError)
open Stateful LittleEndian

/-- `TransportStreamId`. -/
abbrev TransportStreamId := UInt64

/-- `TransportConfig`. -/
structure TransportConfig where
  maxActiveTransportStreams : ℕ
  maxActiveSarStreams : ℕ
  maxBufferedBytesPerTransportStream : ℕ
  maxPendingActions : ℕ
  maxStatusAckActions : ℕ
  maxRejectedStreamIds : ℕ
  maxControlStreamsPerSarSession : ℕ
  bidirectionalControl : Bool
  bidirectionalStream : Bool
  strictValidation : Bool
  heartbeatMinIntervalMs : UInt64
  heartbeatRequiredIntervalMs : UInt64
  inactivityTimeoutMs : UInt64

/-- `TransportConfig::default`. -/
def TransportConfig.default : TransportConfig where
  maxActiveTransportStreams := 256
  maxActiveSarStreams := ResourceLimits.default.maxActiveStreams
  maxBufferedBytesPerTransportStream := 64 * 1024
  maxPendingActions := 128
  maxStatusAckActions := 32
  maxRejectedStreamIds := 1024
  maxControlStreamsPerSarSession := 4
  bidirectionalControl := true
  bidirectionalStream := false
  strictValidation := true
  heartbeatMinIntervalMs := 5000
  heartbeatRequiredIntervalMs := 60000
  inactivityTimeoutMs := 180000

/-- `TransportStreamState`. -/
inductive TransportStreamState where
  | idle
  | awaitingGlobalHeader
  | awaitingSessionInit
  | active
  | closing
  | closed
  | reset
  | rejected
  deriving DecidableEq

/-- The pattern `Closed | Reset | Rejected`. -/
def TransportStreamState.isTerminal : TransportStreamState → Bool
  | .closed | .reset | .rejected => true
  | _ => false

/-- `TransportAction`. -/
inductive TransportAction where
  | acceptTransportStream (transportStreamId : TransportStreamId)
  | bindSarStream (transportStreamId : TransportStreamId) (sarStreamId : UInt16)
      (sessionUuid : Octets 16)
  | attachControlStream (transportStreamId : TransportStreamId) (sarStreamId : UInt16)
  | rejectSarStream (transportStreamId : TransportStreamId) (error : SarError)
  | resetTransportStream (transportStreamId : TransportStreamId) (error : SarError)
  | closeConnection (error : SarError)
  | discardBytes (transportStreamId : TransportStreamId)
  | emitSessionStatus (sarStreamId : UInt16) (frame : SessionStatusFrame)
  | emitSessionAck (sarStreamId : UInt16) (frame : SessionAckFrame)
  | emitHeartbeat (sarStreamId : UInt16)
  | streamClosed (transportStreamId : TransportStreamId) (sarStreamId : Option UInt16)
  | warning (status : SarStatus)
  deriving DecidableEq

/-- `PolicyMode`. -/
inductive PolicyMode where
  | tcp
  | quic
  deriving DecidableEq

/-- `TransportStreamContext`. -/
structure TransportStreamContext where
  parser : StreamArchiveParser
  manager : SessionManager
  limits : ResourceLimits
  state : TransportStreamState
  boundSarStreamId : Option UInt16
  awaitingSessionInit : Bool
  peerCapabilities : CapabilityFlags
  lastValidActivityMs : Option UInt64
  lastHeartbeatEmitMs : Option UInt64
  currentGlobalHeader : Option GlobalHeader
  quicPendingBytes : Bytes

/-- The limits of a transport stream's parser and manager. -/
def TransportConfig.streamLimits (config : TransportConfig) : ResourceLimits :=
  { ResourceLimits.default with maxActiveStreams := config.maxActiveSarStreams }

/-- The capabilities a transport stream's manager announces. -/
def TransportConfig.localCapabilities (config : TransportConfig) : CapabilityFlags :=
  if config.bidirectionalControl then
    ⟨CapabilityFlags.sessionAck ||| CapabilityFlags.sessionStatus⟩
  else .none

/-- `TransportStreamContext::new`. -/
def TransportStreamContext.new (config : TransportConfig) (keyProvider : Option KeyProvider) :
    TransportStreamContext where
  parser := .withOptions ⟨config.streamLimits, none⟩ keyProvider
  manager := .new ⟨config.streamLimits, config.localCapabilities, false⟩
  limits := config.streamLimits
  state := .idle
  boundSarStreamId := none
  awaitingSessionInit := false
  peerCapabilities := .none
  lastValidActivityMs := none
  lastHeartbeatEmitMs := none
  currentGlobalHeader := none
  quicPendingBytes := []

/-- `InMemoryTransport`. -/
structure InMemoryTransport where
  config : TransportConfig
  policy : PolicyMode
  streams : Table TransportStreamId TransportStreamContext
  activeSarStreams : Table UInt16 TransportStreamId
  activeSessionUuids : Table UInt16 (Octets 16)
  activeGlobalHeaders : Table UInt16 GlobalHeader
  controlStreamAttachments : Table TransportStreamId UInt16
  rejectedSarStreamIds : Finset UInt16
  connectionLastActivityMs : Option UInt64
  tlsExporterBound : Finset UInt16
  keyProvider : Option KeyProvider

/-- `new_tcp` and `new_quic`, followed by `with_key_provider`. -/
def InMemoryTransport.new (policy : PolicyMode) (config : TransportConfig)
    (keyProvider : Option KeyProvider) : InMemoryTransport where
  config := config
  policy := policy
  streams := ∅
  activeSarStreams := ∅
  activeSessionUuids := ∅
  activeGlobalHeaders := ∅
  controlStreamAttachments := ∅
  rejectedSarStreamIds := ∅
  connectionLastActivityMs := none
  tlsExporterBound := ∅
  keyProvider := keyProvider

/-- `active_transport_stream_count`. -/
def InMemoryTransport.activeTransportStreamCount (self : InMemoryTransport) : ℕ :=
  self.streams.countValues fun context => !context.state.isTerminal

/-- An entry that was handed to a session manager, with the manager's answer. -/
structure Delivery where
  transportStreamId : TransportStreamId
  entry : SessionEntry
  result : Except SarError ProcessResult

/-- A call in progress. The deliveries are a record for the statements about runs: no method
reads them. -/
structure Call where
  transport : InMemoryTransport
  actions : List TransportAction
  deliveries : List Delivery

/-- The body of a call. -/
abbrev CallM := Prog Call SarError

namespace InMemoryTransport

/-! ### Access to the state -/

/-- The transport of the call. -/
def transport : CallM InMemoryTransport := Call.transport <$> current

/-- Change the transport. -/
def modifyTransport (f : InMemoryTransport → InMemoryTransport) : CallM Unit :=
  update fun call => { call with transport := f call.transport }

section

variable (id : TransportStreamId)

/-- `self.streams.get_mut(..).ok_or(..)`. -/
def context : CallM TransportStreamContext := do
  let self ← transport
  lift (okOr (self.streams.lookup id) (.notFound "unknown transport stream"))

/-- Change the context of a transport stream, if it exists. -/
def modifyContext (f : TransportStreamContext → TransportStreamContext) : CallM Unit :=
  modifyTransport fun self => { self with streams := self.streams.modify id f }

/-! ### Actions -/

/-- `push_action`. -/
def pushAction (action : TransportAction) : CallM Unit := do
  let call ← current
  lift (rejectIf (call.actions.length ≥ call.transport.config.maxPendingActions)
    (.limitExceeded "transport pending action limit exceeded"))
  update fun call => { call with actions := call.actions ++ [action] }

/-- `EmitSessionStatus { .. } | EmitSessionAck { .. }`. -/
def isStatusAck : TransportAction → Bool
  | .emitSessionStatus _ _ | .emitSessionAck _ _ => true
  | _ => false

/-- `count_status_ack_actions`. -/
def countStatusAckActions (actions : List TransportAction) : ℕ := actions.countP isStatusAck

/-- The bound on status and acknowledgement actions. -/
def checkStatusAckActions : CallM Unit := do
  let call ← current
  lift (rejectIf
    (countStatusAckActions call.actions ≥ call.transport.config.maxStatusAckActions)
    (.limitExceeded "transport status/ack action limit exceeded"))

/-- `maybe_emit_status_action`. -/
def maybeEmitStatusAction (sarStreamId : UInt16) (status : SarStatus) (refSequence : UInt16)
    (message : String) : CallM Unit := do
  let self ← transport
  if !self.config.bidirectionalControl then pure ()
  else do
    checkStatusAckActions
    pushAction (.emitSessionStatus sarStreamId ⟨refSequence, status, message.toUTF8.toList⟩)

/-- `error_from_status`. -/
def errorFromStatus : SarStatus → SarError
  | .errTooManyStreams => .tooManyStreams "transport policy rejection"
  | .errFlagConflict => .flagConflict "transport policy rejection"
  | .errTimeout => .timeout "transport policy rejection"
  | .errLimitExceeded => .limitExceeded "transport policy rejection"
  | _ => .streamState "transport policy rejection"

/-- The status of the last rejection among the actions. -/
def lastRejectStatus (actions : List TransportAction) : SarStatus :=
  (actions.reverse.findSome? fun
    | .rejectSarStream _ error => some error.status
    | _ => none).getD .errStreamState

/-- The first part of `reject_stream_with_policy`: remember the id, if it is known. -/
def rememberRejected : Option UInt16 → CallM Unit
  | some sarStreamId => do
    let self ← transport
    lift (rejectIf (self.rejectedSarStreamIds.card ≥ self.config.maxRejectedStreamIds ∧
        sarStreamId ∉ self.rejectedSarStreamIds)
      (.limitExceeded "transport rejected stream tracking limit exceeded"))
    modifyTransport fun self =>
      { self with rejectedSarStreamIds := insert sarStreamId self.rejectedSarStreamIds }
  | none => pure ()

/-- The last part of `reject_stream_with_policy`: close the connection or reset the stream. -/
def endRejected (status : SarStatus) : PolicyMode → CallM Unit
  | .tcp => do
    pushAction (.discardBytes id)
    pushAction (.closeConnection (errorFromStatus status))
    modifyContext id fun context => { context with state := .rejected }
  | .quic => do
    pushAction (.resetTransportStream id (errorFromStatus status))
    modifyContext id fun context => { context with state := .reset }

/-- The status frame of a rejection, sent when the SAR stream id is known. -/
def announceRejected (sarStreamId : Option UInt16) (status : SarStatus) (refSequence : UInt16) :
    CallM Unit :=
  match sarStreamId with
  | some sar => maybeEmitStatusAction sar status refSequence "stream rejected by transport policy"
  | none => pure ()

/-- `reject_stream_with_policy`. A full action list ends it before the state is changed. -/
def rejectStreamWithPolicy (sarStreamId : Option UInt16)
    (error : SarError) (refSequence : UInt16) : CallM Unit := do
  rememberRejected sarStreamId
  pushAction (.rejectSarStream id error)
  let call ← current
  announceRejected sarStreamId (lastRejectStatus call.actions) refSequence
  endRejected id (lastRejectStatus call.actions) call.transport.policy

/-- `policy_error_actions`. -/
def policyErrorActions (error : SarError) : CallM Unit := do
  let self ← transport
  rejectStreamWithPolicy id ((self.streams.lookup id).bind (·.boundSarStreamId)) error 0

/-! ### Session results -/

/-- One action of the session manager in `process_session_result`. -/
def processAction : SessionAction → CallM Unit
  | .emitAck streamId frame => do
    let self ← transport
    -- nothing is sent to a peer that does not take acknowledgements
    if self.config.bidirectionalControl &&
        ((self.streams.lookup id).any fun context => context.peerCapabilities.supportsSessionAck)
    then do
      checkStatusAckActions
      pushAction (.emitSessionAck streamId frame)
    else pure ()

end

/-- Why `process_session_result` refuses an activation, if it does. -/
def activationRefusal (self : InMemoryTransport) (streamId : UInt16) (flags : SessionFlags) :
    Option SarError :=
  if streamId = 0 then some (.streamState "stream id 0 cannot be bound")
  else if (self.activeSarStreams.lookup streamId).isSome then
    some (.streamState "duplicate active SAR Stream ID")
  else if self.activeSarStreams.size ≥ self.config.maxActiveSarStreams then
    some (.tooManyStreams "too many active SAR streams")
  else if self.config.strictValidation && flags.bidirectionalStreamRequired &&
      !self.config.bidirectionalStream then
    some (.flagConflict "bidirectional stream required but unsupported")
  else if self.config.strictValidation && flags.bidirectionalControlRequired &&
      !self.config.bidirectionalControl then
    some (.flagConflict "bidirectional control required but unsupported")
  else none

/-- Whether a Global Header names the key-management mode `TLS_EXPORTER`. -/
def usesTlsExporter (header : GlobalHeader) : Bool :=
  (header.kms.map fun kms => kms.modeId == kmsTlsExporter).getD false

section

variable (id : TransportStreamId)

/-- The tables after an accepted activation. -/
def bindSarStream (streamId : UInt16) (sessionUuid : Octets 16)
    (self : InMemoryTransport) : InMemoryTransport :=
  let self := { self with
    activeSarStreams := self.activeSarStreams.insert streamId id
    activeSessionUuids := self.activeSessionUuids.insert streamId sessionUuid }
  match (self.streams.lookup id).bind (·.currentGlobalHeader) with
  | some header => { self with
      tlsExporterBound :=
        if usesTlsExporter header then insert streamId self.tlsExporterBound
        else self.tlsExporterBound
      activeGlobalHeaders := self.activeGlobalHeaders.insert streamId header }
  | none => self

/-- The tables after `SESSION_CLOSE`. -/
def unbindSarStream (streamId : UInt16) (self : InMemoryTransport) : InMemoryTransport :=
  { self with
    activeSarStreams := self.activeSarStreams.erase streamId
    activeSessionUuids := self.activeSessionUuids.erase streamId
    activeGlobalHeaders := self.activeGlobalHeaders.erase streamId
    tlsExporterBound := self.tlsExporterBound.erase streamId
    controlStreamAttachments := self.controlStreamAttachments.retain fun sid => sid != streamId }

/-- One event of the session manager in `process_session_result`; the result is the new value of
`close_stream`. -/
def processEvent (headerSequence : UInt16) (closing : Option UInt16) :
    SessionEvent → CallM (Option UInt16)
  | .sessionActivated streamId sessionUuid flags => do
    let self ← transport
    match self.activationRefusal streamId flags with
    | some error => do
      rejectStreamWithPolicy id (some streamId) error headerSequence
      pure closing
    | none => do
      modifyTransport (bindSarStream id streamId sessionUuid)
      modifyContext id fun context =>
        { context with
          state := .active, boundSarStreamId := some streamId, awaitingSessionInit := false }
      pushAction (.bindSarStream id streamId sessionUuid)
      pure closing
  | .sessionClosed streamId _ => do
    modifyTransport (unbindSarStream streamId)
    modifyContext id fun context => { context with boundSarStreamId := none, state := .closing }
    pure (some streamId)
  | .capabilitiesUpdated _ frame => do
    modifyContext id fun context => { context with peerCapabilities := frame.flags }
    pure closing
  | .warning _ status _ => do
    pushAction (.warning status)
    pure closing
  | .statefulInactive streamId _ _ => do
    let self ← transport
    if (self.streams.lookup id).any (·.awaitingSessionInit) then do
      rejectStreamWithPolicy id (some streamId)
        (.streamState "global header not followed by valid SESSION_INIT") headerSequence
      pure closing
    else pure closing
  | .status _ _ | .ack _ _ | .metadataUpdated _ _ | .sessionResumed _ _ | .heartbeat _ _
  | .filesystemAction _ => pure closing

/-- The end of `process_session_result`. -/
def finishClosing : Option UInt16 → CallM Unit
  | some sarStreamId => do
    pushAction (.streamClosed id (some sarStreamId))
    modifyContext id fun context => { context with state := .awaitingGlobalHeader }
  | none => pure ()

/-- `process_session_result`. -/
def processSessionResult (result : ProcessResult) (headerSequence : UInt16) : CallM Unit := do
  result.actions.forM (processAction id)
  let closing ← result.events.foldlM (processEvent id headerSequence) none
  finishClosing id closing

/-! ### The feed loop -/

/-- `LoopEvent` and `ControlLoopEvent`: what one turn of a loop found. -/
inductive LoopEvent where
  | needMore
  | complete
  | continue
  | sessionResult (sequenceNo : UInt16) (result : Except SarError ProcessResult)
  | parserError (error : SarError)

/-- Record the time of a valid entry. -/
def recordActivity (nowMs : Option UInt64) : CallM Unit :=
  match nowMs with
  | some now => do
    modifyContext id fun context => { context with lastValidActivityMs := some now }
    modifyTransport fun self => { self with connectionLastActivityMs := some now }
  | none => pure ()

/-- `context.manager.process_entry`. -/
def deliver (entry : SessionEntry) : CallM LoopEvent := do
  let context ← context id
  let (result, manager) := SessionManager.processEntry entry context.manager
  modifyContext id fun context => { context with manager := manager }
  update fun call => { call with deliveries := call.deliveries ++ [⟨id, entry, result⟩] }
  pure (.sessionResult entry.header.sequenceNo result)

/-- A Global Header in `run_feed_loop`. -/
def observeHeader (header : GlobalHeader) : CallM LoopEvent := do
  let self ← transport
  modifyContext id fun context => { context with currentGlobalHeader := some header }
  let context ← context id
  if self.policy = .tcp ∧ usesTlsExporter header then
    pure (.parserError
      (.unsupported "KMS_TLS_EXPORTER is not supported over plaintext TCP"))
  else
    let (result, manager) := SessionManager.observeGlobalHeader header context.manager
    modifyContext id fun context => { context with manager := manager }
    match result with
    | .error error => pure (.parserError error)
    | .ok () => do
      -- an attached control stream has its session already
      let awaiting := self.policy = .tcp ∨ (self.controlStreamAttachments.lookup id).isNone
      modifyContext id fun context =>
        { context with state := .awaitingSessionInit, awaitingSessionInit := awaiting }
      pure .continue

/-- Whether the binding of a transport stream asks for encryption of this entry in vain. -/
def plaintextAfterBinding (self : InMemoryTransport) (bound : Option UInt16)
    (header : LocalFileHeader) : Bool :=
  (bound.any fun sar => decide (sar ∈ self.tlsExporterBound)) && !header.entryMode.isEncrypted

/-- An entry in `run_feed_loop`. -/
def observeEntry (nowMs : Option UInt64) (entry : EntryReader) :
    CallM LoopEvent := do
  recordActivity id nowMs
  let self ← transport
  let context ← context id
  if self.plaintextAfterBinding context.boundSarStreamId entry.header then
    pure (.parserError
      (.authFailed "TLS_EXPORTER binding active: unencrypted SAR entry rejected post-binding"))
  else deliver id ⟨entry.header, entry.payload, false⟩

/-- The end of an archive in `run_feed_loop`. -/
def observeArchiveComplete : CallM LoopEvent := do
  modifyContext id fun context =>
    { context with
      manager := context.manager.archiveComplete
      state := .awaitingGlobalHeader
      awaitingSessionInit := false }
  pure .continue

/-- What `run_feed_loop` makes of the parser's step. -/
def observeStep (nowMs : Option UInt64) :
    Result StreamStep → CallM LoopEvent
  | .ok (.needMore _) => pure .needMore
  | .ok .complete => pure .complete
  | .ok (.ready (.globalHeader header)) => observeHeader id header
  | .ok (.ready (.entry entry)) => observeEntry id nowMs entry
  | .ok (.ready (.archiveComplete _)) => observeArchiveComplete id
  | .error error => pure (.parserError error)

/-- The end of a turn, the same in both loops; `true` asks for another turn. -/
def handleLoopEvent : LoopEvent → CallM Bool
  | .needMore | .complete => pure false
  | .continue => pure true
  | .sessionResult sequenceNo (.ok result) => do
    processSessionResult id result sequenceNo
    pure true
  | .sessionResult _ (.error error) | .parserError error => do
    policyErrorActions id error
    pure false

end

variable (backend : Backend) (id : TransportStreamId)

/-- The first part of a turn of `run_feed_loop`: `context.parser.step`. -/
def feedEvent (nowMs : Option UInt64) : CallM LoopEvent := do
  let context ← context id
  let (result, parser) := StreamArchiveParser.step backend context.parser
  modifyContext id fun context => { context with parser := parser }
  observeStep id nowMs result

/-- One turn of `run_feed_loop`. -/
def feedTurn (nowMs : Option UInt64) : CallM Bool := do
  let event ← feedEvent backend id nowMs
  handleLoopEvent id event

/-! ### The loop of an attached control stream -/

/-- `additional_control_header_size`. -/
def additionalControlHeaderSize (bytes : Bytes) : ℕ := leNat (bytes.take 4)

/-- `validate_additional_control_entry`. -/
def validateAdditionalControlEntry (bidirectionalControl : Bool) (attachedSarStreamId : UInt16)
    (header : LocalFileHeader) : Result Unit := do
  rejectIf (header.streamId ≠ attachedSarStreamId)
    (.streamState "additional control stream Stream ID does not match attached SAR session")
  rejectIf (!header.entryMode.isSessionControl)
    (.streamState "filesystem entries are not permitted on additional QUIC control streams")
  match ← SessionOpCode.tryFrom header.entryMode.opCode with
  | .init =>
    .error (.streamState "SESSION_INIT is not permitted on an additional QUIC control stream")
  | .ack | .status | .capabilities =>
    rejectIf (!bidirectionalControl)
      (.streamState "bidirectional control is unavailable for additional QUIC control streams")
  | .close | .resume | .heartbeat | .metadata =>
    .error (.streamState
      "session-control opcode is not permitted on an additional QUIC control stream")

/-- `build_kms_context_for_additional_control`. -/
def buildKmsContextForAdditionalControl (activeHeader : GlobalHeader) : Result KmsContext := do
  let kms ← okOr activeHeader.kms (.internal "tls_exporter_bound session missing KMS data")
  rejectIf (kms.modeId ≠ kmsTlsExporter)
    (.internal "unexpected KMS mode in tls_exporter_bound session")
  let params ← liftError
    (fun _ => .authFailed "failed to parse TLS_EXPORTER KMS payload for AEAD")
    (parseTlsExporterKmsPayload kms.payload)
  pure ⟨kms.modeId, .tlsExporter params⟩

/-- `decrypt_additional_control_payload`. The associated data is made of the header's bytes as
they are, the recovery value included. -/
def decryptAdditionalControlPayload (keyProvider : KeyProvider) (activeHeader : GlobalHeader)
    (lfh : LocalFileHeader) (lfhBytes ciphertext : Bytes) :
    Result Bytes := do
  let encrAlgoId ← okOr lfh.encrAlgoId
    (.authFailed "ENCRYPTED additional control entry missing encr_algo_id")
  let ivNonce ← okOr lfh.ivNonce
    (.authFailed "ENCRYPTED additional control entry missing iv_nonce")
  let kmsContext ← buildKmsContextForAdditionalControl activeHeader
  let cek ← liftError
    (fun _ => .authFailed "CEK resolution failed for additional control stream AEAD")
    (resolveCek backend.kdf keyProvider kmsContext)
  let aad := buildAeadAad (globalHeaderFlagsBytes activeHeader) lfhBytes
  liftError (fun _ => .authFailed "AEAD authentication failed on additional control stream")
    (aeadDecrypt backend.aead encrAlgoId cek ivNonce aad ciphertext)

/-- The payload that the control loop forwards. -/
def controlPlaintext (self : InMemoryTransport) (attachedSarStreamId : UInt16)
    (activeHeader : GlobalHeader) (lfh : LocalFileHeader) (lfhBytes payload : Bytes) :
    Result Bytes := do
  validateAdditionalControlEntry self.config.bidirectionalControl attachedSarStreamId lfh
  if attachedSarStreamId ∈ self.tlsExporterBound then
    if !lfh.entryMode.isEncrypted then
      .error (.authFailed
        "TLS_EXPORTER binding active: unencrypted additional control stream entry rejected")
    else do
      let keyProvider ← okOr self.keyProvider
        (.authFailed "no key provider for additional control stream AEAD decryption")
      decryptAdditionalControlPayload backend keyProvider activeHeader lfh lfhBytes payload
  else pure payload

/-- The next entry among the pending bytes: the header, its bytes and the payload's bytes, or
nothing while bytes are missing. -/
def nextControlEntry (limits : ResourceLimits) (flags : GlobalFlags) (pending : Bytes) :
    Result (Option (LocalFileHeader × Bytes × Bytes)) :=
  if pending.length < 4 then .ok none
  else do
    let headerSize := additionalControlHeaderSize pending
    limits.checkLfhHeaderBytes headerSize
    if pending.length < headerSize then pure none
    else do
      let lfhBytes := pending.take headerSize
      let (lfh, _) ← parseLfh lfhBytes flags limits
      let totalSize := headerSize + lfh.payloadSize.toNat
      rejectIf (totalSize > u64Max) (.overflow "additional control entry size")
      if pending.length < totalSize then pure none
      else pure (some (lfh, lfhBytes, (pending.drop headerSize).take lfh.payloadSize.toNat))

/-- The first part of a turn of `run_additional_control_stream_loop`. -/
def controlEvent (nowMs : Option UInt64) :
    CallM LoopEvent := do
  let self ← transport
  let attachedSarStreamId ← lift (okOr (self.controlStreamAttachments.lookup id)
    (.internal "additional control stream loop missing attachment"))
  let activeHeader ← lift (okOr (self.activeGlobalHeaders.lookup attachedSarStreamId)
    (.internal "additional control stream missing active global header"))
  let context ← context id
  match nextControlEntry context.limits activeHeader.flags context.quicPendingBytes with
  | .error error => pure (.parserError error)
  | .ok none => pure .needMore
  | .ok (some (lfh, lfhBytes, payload)) =>
    match controlPlaintext backend self attachedSarStreamId activeHeader lfh lfhBytes payload with
    | .error error => pure (.parserError error)
    | .ok plaintext => do
      modifyContext id fun context =>
        { context with
          quicPendingBytes := context.quicPendingBytes.drop (lfhBytes.length + payload.length) }
      recordActivity id nowMs
      deliver id ⟨lfh, plaintext, false⟩

/-- One turn of `run_additional_control_stream_loop`. -/
def controlTurn (nowMs : Option UInt64) :
    CallM Bool := do
  let event ← controlEvent backend id nowMs
  handleLoopEvent id event

/-! ### The calls -/

/-- `run_feed_loop`; the parser's rank bounds the number of turns. -/
def runFeedLoop (nowMs : Option UInt64) :
    CallM Unit := do
  let context ← context id
  iterate (feedTurn backend id nowMs)
    ((StreamArchiveParser.machine backend).rank context.parser + 1)

/-- `run_additional_control_stream_loop`; each turn that goes on reads pending bytes. -/
def runAdditionalControlStreamLoop (nowMs : Option UInt64) : CallM Unit := do
  let context ← context id
  iterate (controlTurn backend id nowMs) (context.quicPendingBytes.length + 1)

/-- What a call returns: its actions, unless it failed. -/
def runCall (body : CallM Unit) : Prog InMemoryTransport SarError (List TransportAction) :=
  fun self =>
    let r := body ⟨self, [], []⟩
    (r.1.map fun _ => r.2.actions, r.2.transport)

/-- `ensure_tcp_not_interleaved`. -/
def ensureTcpNotInterleaved (self : InMemoryTransport) : Result Unit :=
  rejectIf (self.policy = .tcp ∧ self.activeTransportStreamCount > 1)
    (.streamState "TCP policy forbids concurrent transport streams")

/-- The last part of `open_transport_stream`, for a stream that was entered. -/
def acceptTransportStream : CallM Unit := do
  pushAction (.acceptTransportStream id)
  let self ← transport
  match self.ensureTcpNotInterleaved with
  | .ok () => pure ()
  | .error error => policyErrorActions id error

/-- The body of `open_transport_stream`. -/
def openBody : CallM Unit := do
  let self ← transport
  lift (rejectIf (self.streams.lookup id).isSome
    (.streamState "transport stream id already exists"))
  lift (rejectIf (self.activeTransportStreamCount ≥ self.config.maxActiveTransportStreams)
    (.tooManyStreams "too many active transport streams for connection"))
  modifyTransport fun self =>
    { self with streams := self.streams.insert id (.new self.config self.keyProvider) }
  modifyContext id fun context => { context with state := .awaitingGlobalHeader }
  acceptTransportStream id

/-- `open_transport_stream`. -/
def openTransportStream : Prog InMemoryTransport SarError (List TransportAction) :=
  runCall (openBody id)

/-- The text `CTL!`. -/
def controlMagic : Bytes := [0x43, 0x54, 0x4c, 0x21]

/-- Which loop a call of `feed_bytes` goes on with. -/
inductive Route where
  | feed
  | control
  | done
  deriving DecidableEq

/-- The manager of a control stream learns the Global Header of the session. -/
def joinSession (sarStreamId : UInt16) : CallM Route := do
  let self ← transport
  let header ← lift (okOr (self.activeGlobalHeaders.lookup sarStreamId)
    (.internal "active global header missing"))
  let context ← context id
  let (result, manager) := SessionManager.observeGlobalHeader header context.manager
  modifyContext id fun context => { context with manager := manager }
  lift result
  pushAction (.attachControlStream id sarStreamId)
  pure .control

/-- The last part of the route of a fresh QUIC stream: attach it to a session. -/
def attachControlStream (sarStreamId : UInt16) : CallM Route := do
  modifyTransport fun self =>
    { self with
      controlStreamAttachments := self.controlStreamAttachments.insert id sarStreamId }
  modifyContext id fun context =>
    { context with
      state := .active, boundSarStreamId := some sarStreamId, awaitingSessionInit := false }
  joinSession id sarStreamId

/-- Refuse a fresh QUIC stream. -/
def refuse (error : SarError) : CallM Route := do
  policyErrorActions id error
  pure .done

/-- A fresh QUIC stream that starts with a Local File Header. -/
def routeLfh (pending : Bytes) : CallM Route := do
  let self ← transport
  let entryMode := EntryMode.fromBits (u16At pending 4)
  let sarStreamId := u16At pending 6
  if !entryMode.isSessionControl then refuse id .invalidMagic
  else if (self.activeSarStreams.lookup sarStreamId).isNone then
    refuse id (.streamState "additional control stream references unknown SAR Stream ID")
  else if self.controlStreamAttachments.countValues (· == sarStreamId) ≥
      self.config.maxControlStreamsPerSarSession then
    refuse id (.limitExceeded "too many control streams for SAR session")
  else attachControlStream id sarStreamId

/-- The bytes of a QUIC stream that awaits a Global Header. -/
def routePending (bytes : Bytes) : CallM Route := do
  modifyContext id fun context =>
    { context with quicPendingBytes := context.quicPendingBytes ++ bytes }
  let context ← context id
  let pending := context.quicPendingBytes
  if pending.length < 4 then pure .done
  else if pending.take 4 = magic then
    let (result, parser) := StreamArchiveParser.pushBytes pending context.parser
    modifyContext id fun context => { context with parser := parser }
    match result with
    | .error error => refuse id error
    | .ok () => do
      modifyContext id fun context => { context with quicPendingBytes := [] }
      pure .feed
  else if pending.take 4 = controlMagic then refuse id .invalidMagic
  else if pending.length < 8 then pure .done
  else routeLfh id pending

/-- The ordinary path of `feed_bytes`. -/
def routeParser (bytes : Bytes) : CallM Route := do
  let context ← context id
  lift (rejectIf context.state.isTerminal
    (.streamClosed "cannot feed bytes to closed/reset/rejected transport stream"))
  let (result, parser) := StreamArchiveParser.pushBytes bytes context.parser
  modifyContext id fun context => { context with parser := parser }
  lift result
  pure .feed

/-- `feed_bytes` up to its loop. -/
def route (bytes : Bytes) : CallM Route := do
  let self ← transport
  lift (rejectIf (bytes.length > self.config.maxBufferedBytesPerTransportStream)
    (.limitExceeded "feed bytes exceed configured per-stream buffer bound"))
  match self.policy with
  | .tcp => routeParser id bytes
  | .quic => do
    let context ← context id
    if (self.controlStreamAttachments.lookup id).isSome then do
      -- an attached stream is served whatever its state is
      modifyContext id fun context =>
        { context with quicPendingBytes := context.quicPendingBytes ++ bytes }
      pure .control
    else if context.state = .awaitingGlobalHeader then routePending id bytes
    else routeParser id bytes

/-- The body of `feed_bytes`. -/
def feedBody (bytes : Bytes) (nowMs : Option UInt64) : CallM Unit := do
  match ← route id bytes with
  | .feed => runFeedLoop backend id nowMs
  | .control => runAdditionalControlStreamLoop backend id nowMs
  | .done => pure ()

/-- `feed_bytes`. -/
def feedBytes (bytes : Bytes) (nowMs : Option UInt64) :
    Prog InMemoryTransport SarError (List TransportAction) :=
  runCall (feedBody backend id bytes nowMs)

/-- The tables after `close_transport_stream` or `reset_transport_stream`: unlike after
`SESSION_CLOSE`, the Global Header stays. -/
def detach (bound : Option UInt16) (self : InMemoryTransport) : InMemoryTransport :=
  let self :=
    match bound with
    | some sar =>
      if (self.controlStreamAttachments.lookup id).isSome then self
      else { self with
        activeSarStreams := self.activeSarStreams.erase sar
        activeSessionUuids := self.activeSessionUuids.erase sar
        tlsExporterBound := self.tlsExporterBound.erase sar
        controlStreamAttachments := self.controlStreamAttachments.retain fun sid => sid != sar }
    | none => self
  { self with controlStreamAttachments := self.controlStreamAttachments.erase id }

/-- The body of `close_transport_stream`. -/
def closeBody : CallM Unit := do
  let context ← context id
  modifyTransport (detach id context.boundSarStreamId)
  modifyContext id fun context => { context with state := .closed }
  pushAction (.streamClosed id context.boundSarStreamId)

/-- `close_transport_stream`. -/
def closeTransportStream : Prog InMemoryTransport SarError (List TransportAction) :=
  runCall (closeBody id)

/-- The body of `reset_transport_stream`. -/
def resetBody (reason : SarError) : CallM Unit := do
  let context ← context id
  modifyTransport (detach id context.boundSarStreamId)
  modifyContext id fun context => { context with state := .reset }
  pushAction (.resetTransportStream id reason)
  pushAction (.streamClosed id context.boundSarStreamId)

/-- `reset_transport_stream`. -/
def resetTransportStream (reason : SarError) :
    Prog InMemoryTransport SarError (List TransportAction) :=
  runCall (resetBody id reason)

/-! ### Time -/

/-- The time that has passed, zero if the clock went back (`saturating_sub`). -/
def elapsed (now last : UInt64) : ℕ := now.toNat - last.toNat

/-- `record_valid_activity`. -/
def recordValidActivity (now : UInt64) :
    Prog InMemoryTransport SarError Unit := do
  let self ← current
  let context ← lift (okOr (self.streams.lookup id) (.notFound "unknown transport stream"))
  update fun self => { self with
    streams := self.streams.insert id { context with lastValidActivityMs := some now }
    connectionLastActivityMs := some now }

/-- `check_inactivity`. -/
def checkInactivity (now : UInt64) : Prog InMemoryTransport SarError (List TransportAction) := do
  let self ← current
  lift (rejectIf
    (self.connectionLastActivityMs.any fun last =>
      decide (elapsed now last > self.config.inactivityTimeoutMs.toNat))
    (.timeout "transport inactivity watchdog expired"))
  pure []

/-- Whether a heartbeat is due: the last one and the last entry are long enough ago. -/
def heartbeatDue (config : TransportConfig) (context : TransportStreamContext) (now : UInt64) :
    Bool :=
  decide (config.heartbeatMinIntervalMs.toNat ≤
      elapsed now (context.lastHeartbeatEmitMs.getD 0)) &&
    context.lastValidActivityMs.any fun last =>
      decide (config.heartbeatRequiredIntervalMs.toNat ≤ elapsed now last)

/-- `maybe_emit_heartbeat`. The list of actions is built without `push_action`. -/
def maybeEmitHeartbeat (now : UInt64) :
    Prog InMemoryTransport SarError (List TransportAction) := do
  let self ← current
  let context ← lift (okOr (self.streams.lookup id) (.notFound "unknown transport stream"))
  match context.boundSarStreamId with
  | none => pure []
  | some sarStreamId =>
    if heartbeatDue self.config context now then do
      update fun self => { self with
        streams := self.streams.insert id { context with lastHeartbeatEmitMs := some now } }
      pure [.emitHeartbeat sarStreamId]
    else pure []

end InMemoryTransport

end Sar
