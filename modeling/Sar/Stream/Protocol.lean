import Sar.Core.Cursor
import Sar.Core.Limits
import Sar.Core.Utf8

/-!
# Frames of the stateful streaming protocol

The operation codes of both namespaces, the flag words and the payload frames a receiver parses:
`SESSION_INIT`, `SESSION_RESUME`, `SESSION_STATUS`, `SESSION_ACK`, `SESSION_METADATA` and
`SESSION_CAPABILITIES`.
-/

namespace Sar

open Except (rejectIf okOr)
open LittleEndian

/-- `FilesystemOpCode`. -/
inductive FilesystemOpCode where
  | dataWrite
  | delete
  | rename
  | metaProbe
  | syncBarrier
  deriving DecidableEq

/-- `FilesystemOpCode::try_from`. -/
def FilesystemOpCode.tryFrom (value : UInt8) : Result FilesystemOpCode :=
  match value with
  | 0x0 => .ok .dataWrite
  | 0x1 => .ok .delete
  | 0x2 => .ok .rename
  | 0x3 => .ok .metaProbe
  | 0x4 => .ok .syncBarrier
  | _ => .error (.reservedValue "reserved filesystem OP_CODE")

/-- `SessionOpCode`. -/
inductive SessionOpCode where
  | init
  | close
  | resume
  | heartbeat
  | status
  | ack
  | metadata
  | capabilities
  deriving DecidableEq

/-- `SessionOpCode::try_from`. -/
def SessionOpCode.tryFrom (value : UInt8) : Result SessionOpCode :=
  match value with
  | 0x0 => .ok .init
  | 0x1 => .ok .close
  | 0x2 => .ok .resume
  | 0x3 => .ok .heartbeat
  | 0x4 => .ok .status
  | 0x5 => .ok .ack
  | 0x6 => .ok .metadata
  | 0x7 => .ok .capabilities
  | _ => .error (.reservedValue "reserved session OP_CODE")

/-! ### Flag words -/

/-- `SessionFlags`. -/
structure SessionFlags where
  bits : UInt16
  deriving DecidableEq

namespace SessionFlags

/-- `bidirectional_control_requested`. -/
def bidirectionalControlRequested (f : SessionFlags) : Bool := (f.bits &&& 0x0001) != 0

/-- `bidirectional_control_required`. -/
def bidirectionalControlRequired (f : SessionFlags) : Bool := (f.bits &&& 0x0002) != 0

/-- `bidirectional_stream_requested`. -/
def bidirectionalStreamRequested (f : SessionFlags) : Bool := (f.bits &&& 0x0004) != 0

/-- `bidirectional_stream_required`. -/
def bidirectionalStreamRequired (f : SessionFlags) : Bool := (f.bits &&& 0x0008) != 0

/-- `SessionFlags::validate`. -/
def validate (f : SessionFlags) : Result Unit := do
  rejectIf ((f.bits &&& 0xfff0) ≠ 0)
    (.reservedValue "reserved SESSION_INIT flags must be zero")
  let controlEnabled := f.bidirectionalControlRequested || f.bidirectionalControlRequired
  rejectIf ((f.bidirectionalStreamRequested || f.bidirectionalStreamRequired) && !controlEnabled)
    (.flagConflict "bidirectional stream requires bidirectional control")
  rejectIf (f.bidirectionalStreamRequired && !f.bidirectionalControlRequired)
    (.flagConflict "required bidirectional stream requires required bidirectional control")

end SessionFlags

/-- `CapabilityFlags`. -/
structure CapabilityFlags where
  bits : UInt16
  deriving DecidableEq

namespace CapabilityFlags

/-- `CapabilityFlags::NONE`. -/
def none : CapabilityFlags := ⟨0⟩

/-- `CapabilityFlags::SESSION_ACK`. -/
def sessionAck : UInt16 := 0x0001

/-- `CapabilityFlags::SESSION_STATUS`. -/
def sessionStatus : UInt16 := 0x0002

/-- `CapabilityFlags::SESSION_METADATA`. -/
def sessionMetadata : UInt16 := 0x0008

/-- `supports_session_ack`. -/
def supportsSessionAck (f : CapabilityFlags) : Bool := (f.bits &&& sessionAck) != 0

/-- `supports_bidirectional_control`. -/
def supportsBidirectionalControl (f : CapabilityFlags) : Bool := (f.bits &&& 0x0010) != 0

/-- `supports_bidirectional_stream`. -/
def supportsBidirectionalStream (f : CapabilityFlags) : Bool := (f.bits &&& 0x0020) != 0

/-- `CapabilityFlags::validate`. -/
def validate (f : CapabilityFlags) : Result Unit := do
  rejectIf ((f.bits &&& 0xff80) ≠ 0)
    (.reservedValue "reserved SESSION_CAPABILITIES bits must be zero")
  rejectIf (f.supportsBidirectionalStream && !f.supportsBidirectionalControl)
    (.flagConflict "bidirectional stream capability requires bidirectional control capability")

end CapabilityFlags

/-- `AckFlags`. -/
structure AckFlags where
  bits : UInt8
  deriving DecidableEq

namespace AckFlags

/-- `AckFlags::ACK`. -/
def ack : UInt8 := 0x01

/-- `AckFlags::OK`. -/
def ok : UInt8 := 0x02

/-- `AckFlags::SUCCESS`. -/
def success : UInt8 := 0x04

/-- `is_ack`. -/
def isAck (f : AckFlags) : Bool := (f.bits &&& ack) != 0

/-- `is_ok`. -/
def isOk (f : AckFlags) : Bool := (f.bits &&& ok) != 0

/-- `is_success`. -/
def isSuccess (f : AckFlags) : Bool := (f.bits &&& success) != 0

/-- `AckFlags::validate`. -/
def validate (f : AckFlags) : Result Unit := do
  rejectIf ((f.bits &&& 0xf8) ≠ 0) (.reservedValue "reserved SESSION_ACK bits must be zero")
  rejectIf (f.isOk && !f.isAck) (.flagConflict "SESSION_ACK OK requires ACK")
  rejectIf (f.isSuccess && !(f.isAck && f.isOk))
    (.flagConflict "SESSION_ACK SUCCESS requires ACK and OK")

end AckFlags

/-! ### Frames -/

/-- `SessionInitFrame`. -/
structure SessionInitFrame where
  sessionUuid : Octets 16
  flags : SessionFlags
  deriving DecidableEq

variable (payload : Bytes)

/-- `SessionInitFrame::parse`. -/
def SessionInitFrame.parse : Result SessionInitFrame :=
  if h : payload.length = 18 then do
    let flags : SessionFlags := ⟨u16At payload 16⟩
    flags.validate
    pure ⟨⟨payload.take 16, by rw [List.length_take, h]; rfl⟩, flags⟩
  else .error (.invalidLength "SESSION_INIT payload must be 18 bytes")

/-- `SessionResumeFrame`. -/
structure SessionResumeFrame where
  sessionUuid : Octets 16
  deriving DecidableEq

/-- `SessionResumeFrame::parse`. -/
def SessionResumeFrame.parse : Result SessionResumeFrame :=
  if h : payload.length = 16 then .ok ⟨⟨payload, h⟩⟩
  else .error (.invalidLength "SESSION_RESUME payload must be 16 bytes")

/-- `SessionStatusFrame`. -/
structure SessionStatusFrame where
  refSequence : UInt16
  status : SarStatus
  message : Bytes
  deriving DecidableEq

/-- `decode_status_code`: the code `0xFFFF` stands for `-1`. -/
def decodeStatusCode (code : UInt16) : Result SarStatus :=
  if code = 0xFFFF then .ok .errGeneric
  else okOr SarStatus.registry[code.toNat]? (.reservedValue "unknown session status code")

/-- `SessionStatusFrame::parse`. -/
def SessionStatusFrame.parse (limits : ResourceLimits) :
    Result SessionStatusFrame := do
  rejectIf (payload.length < 5) (.truncated "SESSION_STATUS payload shorter than fixed frame")
  let status ← decodeStatusCode (u16At payload 2)
  let messageLen := (payload.getD 4 0).toNat
  limits.checkSessionStatusMessageBytes messageLen
  rejectIf (payload.length ≠ 5 + messageLen)
    (.invalidLength "SESSION_STATUS payload length mismatch")
  pure ⟨u16At payload 0, status, payload.drop 5⟩

/-- `SessionAckFrame`. -/
structure SessionAckFrame where
  refSequence : UInt16
  flags : AckFlags
  deriving DecidableEq

/-- `SessionAckFrame::parse`. -/
def SessionAckFrame.parse : Result SessionAckFrame := do
  rejectIf (payload.length ≠ 3) (.invalidLength "SESSION_ACK payload must be 3 bytes")
  let flags : AckFlags := ⟨payload.getD 2 0⟩
  flags.validate
  pure ⟨u16At payload 0, flags⟩

/-- `SessionMetadataFrame`. -/
structure SessionMetadataFrame where
  contentType : Str
  metadata : Bytes
  deriving DecidableEq

/-- `SessionMetadataFrame::parse`. -/
def SessionMetadataFrame.parse (limits : ResourceLimits) :
    Result SessionMetadataFrame := do
  rejectIf (payload.length < 5) (.truncated "SESSION_METADATA payload shorter than fixed frame")
  let contentTypeLen := (payload.getD 0 0).toNat
  rejectIf (contentTypeLen = 0)
    (.invalidLength "SESSION_METADATA content type length must be non-zero")
  let metadataLen := leNat ((payload.drop 1).take 4)
  limits.checkSessionMetadataBytes metadataLen
  rejectIf (payload.length ≠ 5 + contentTypeLen + metadataLen)
    (.invalidLength "SESSION_METADATA payload length mismatch")
  let contentType ← Str.ofUtf8 ((payload.drop 5).take contentTypeLen)
    (.malformed "SESSION_METADATA content type is not valid UTF-8")
  pure ⟨contentType, payload.drop (5 + contentTypeLen)⟩

/-- `SessionCapabilitiesFrame`. -/
structure SessionCapabilitiesFrame where
  flags : CapabilityFlags
  deriving DecidableEq

/-- `SessionCapabilitiesFrame::parse`. -/
def SessionCapabilitiesFrame.parse : Result SessionCapabilitiesFrame := do
  rejectIf (payload.length ≠ 2)
    (.invalidLength "SESSION_CAPABILITIES payload must be 2 bytes")
  let flags : CapabilityFlags := ⟨u16At payload 0⟩
  flags.validate
  pure ⟨flags⟩

end Sar
