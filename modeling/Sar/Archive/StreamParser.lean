import Sar.Archive.Decode
import Sar.ForMathlib.Stateful

/-!
# The forward-only stream parser

`StreamArchiveParser` as a program on its own state: bytes are pushed into a buffer, and `step`
advances through the phases of an archive until it needs more bytes, has an event, or fails.
What a failing step has already changed stays changed.

The loop inside `step` runs through at most four phases before it returns, so it is written as
one function per phase, each calling the phase it continues with.
-/

namespace Sar

open Except (rejectIf liftError okOr)
open Stateful LittleEndian

/-- `StreamParseState`. -/
inductive StreamParseState where
  | needGlobalHeader
  | needLocalFileHeader
  | needPayload
  | transformingEntry
  | entryReady
  | needCentralDictionaryOrFooter
  | archiveComplete
  | error
  deriving DecidableEq

/-- `StreamArchiveSummary`. -/
structure StreamArchiveSummary where
  entryCount : ℕ
  flags : GlobalFlags
  indexed : Bool
  deriving DecidableEq

/-- `StreamEvent`. -/
inductive StreamEvent where
  | globalHeader (header : GlobalHeader)
  | entry (entry : EntryReader)
  | archiveComplete (summary : StreamArchiveSummary)
  deriving DecidableEq

/-- `StreamStep<StreamEvent>`. -/
inductive StreamStep where
  | needMore (needed : Option ℕ)
  | ready (event : StreamEvent)
  | complete

/-- `PendingEntry`. -/
structure PendingEntry where
  lfh : LocalFileHeader
  lfhBytes : Bytes
  payloadOffset : ℕ
  encodedPayload : Option Bytes

/-- `ActiveArchive`. -/
structure ActiveArchive where
  header : GlobalHeader
  globalFlagsSection : Bytes
  entryCount : ℕ

/-- `StreamArchiveParser`; the cursor never passes the end of the buffer. -/
structure StreamArchiveParser where
  options : ArchiveReaderOptions
  keyProvider : Option KeyProvider
  state : StreamParseState
  buffer : Bytes
  consumed : ℕ
  consumed_le : consumed ≤ buffer.length
  finalized : Bool
  absoluteOffset : ℕ
  archive : Option ActiveArchive
  pendingEntry : Option PendingEntry

/-- Methods of the parser. -/
abbrev StreamM := Prog StreamArchiveParser SarError

namespace StreamArchiveParser

/-- `StreamArchiveParser::with_options` followed by `with_key_provider`. -/
def withOptions (options : ArchiveReaderOptions) (keyProvider : Option KeyProvider) :
    StreamArchiveParser where
  options
  keyProvider
  state := .needGlobalHeader
  buffer := []
  consumed := 0
  consumed_le := Nat.zero_le _
  finalized := false
  absoluteOffset := 0
  archive := none
  pendingEntry := none

/-! ### The buffer -/

section Buffer

variable (self : StreamArchiveParser)

/-- `available`. -/
def available : ℕ := self.buffer.length - self.consumed

/-- `peek`. -/
def peek (len : ℕ) : Option Bytes :=
  if self.available < len then none else some ((self.buffer.drop self.consumed).take len)

/-- `buffer.extend_from_slice`. -/
def append (chunk : Bytes) : StreamArchiveParser :=
  { self with
    buffer := self.buffer ++ chunk
    consumed_le := by
      rw [List.length_append]
      exact Nat.le_add_right_of_le self.consumed_le }

/-- The cursor, moved over bytes that are there. -/
def skip (len : ℕ) (h : len ≤ self.available) : StreamArchiveParser :=
  { self with
    consumed := self.consumed + len
    consumed_le := by
      have := self.consumed_le
      unfold available at h
      omega }

/-- `buffer.drain(..consumed)`, done when all of the buffer, or at least 4096 bytes, were read. -/
def drainBuffer : StreamArchiveParser :=
  if self.consumed > 0 ∧ (self.consumed ≥ 4096 ∨ self.consumed = self.buffer.length) then
    { self with
      buffer := self.buffer.drop self.consumed
      consumed := 0
      consumed_le := Nat.zero_le _ }
  else self

end Buffer

/-- `push_bytes`. -/
def pushBytes (chunk : Bytes) : StreamM Unit := do
  let self ← current
  let total := self.absoluteOffset + self.available + chunk.length
  lift (rejectIf (total > u64Max) (.overflow "stream byte count"))
  lift (self.options.limits.checkArchiveSize total)
  update fun self => self.append chunk

/-- `finalize_input`. -/
def finalizeInput (self : StreamArchiveParser) : StreamArchiveParser :=
  { self with finalized := true }

/-- `consume`. -/
def consume (len : ℕ) : StreamM Unit := fun self =>
  if h : len ≤ self.available then
    let self := self.skip len h
    if self.absoluteOffset + len > u64Max then (.error (.overflow "stream absolute offset"), self)
    else (.ok (), { self with absoluteOffset := self.absoluteOffset + len }.drainBuffer)
  else (.error (.truncated "stream consume beyond available bytes"), self)

/-- `set_error`. -/
def setError {α : Type} (e : SarError) : StreamM α := do
  update fun self => { self with state := .error }
  fail e

/-! ### The length of a Global Header -/

/-- The part of `required_global_header_bytes` that looks at the flags. -/
def requiredWithFlags (self : StreamArchiveParser) (flagsSize : ℕ) : Result ℕ := do
  let flags ← okOr (self.peek (8 + flagsSize)) (.truncated "global flags missing")
  let globalFlags := flagsOfBytes (flags.drop 8)
  let kmsStart := kmsPrefixStart flagsSize globalFlags
  if globalFlags.encrypted && kmsStart + 5 ≤ self.available then do
    let kms ← okOr (self.peek (kmsStart + 5)) (.truncated "KMS prefix missing")
    let payloadLen := leNat ((kms.drop (kmsStart + 1)).take 4)
    self.options.limits.checkKmsPayloadBytes payloadLen
    pure (kmsStart + 5 + payloadLen)
  else pure kmsStart

/-- The flag length announced in the first eight bytes, once they are checked. -/
def checkedFlagsSize (limits : ResourceLimits) (fixed : Bytes) : Result ℕ := do
  rejectIf (fixed.take 4 ≠ magic) .invalidMagic
  let flagsSize := headerFlagsSize fixed
  rejectIf (flagsSize < 4) (.invalidLength "global flags size must be >= 4")
  limits.checkGlobalFlagsBytes flagsSize
  pure flagsSize

/-- `required_global_header_bytes`. -/
def requiredGlobalHeaderBytes (self : StreamArchiveParser) : Result (Option ℕ) :=
  match self.peek 8 with
  | none => pure none
  | some fixed => do
    let flagsSize ← checkedFlagsSize self.options.limits fixed
    if 8 + flagsSize ≤ self.available then some <$> requiredWithFlags self flagsSize
    else pure (some (8 + flagsSize))

/-! ### The entry decoder -/

section Decode

variable (backend : Backend) (self : StreamArchiveParser) (archive : ActiveArchive)
  (lfh : LocalFileHeader)

/-- An entry is encrypted if its mode and the Global Header say so. -/
def entryTraits : EntryTraits :=
  traitsOf archive.header lfh (archive.header.flags.encrypted && lfh.entryMode.isEncrypted)

/-- The presence of the path, which decodes it a second time. -/
def entryPathPresence : Result (FieldPresence Str) :=
  if archive.header.flags.hasPath then
    if lfh.path.isEmpty then pure (.presentInactive Str.empty)
    else .presentActive <$> Str.ofUtf8 lfh.path (.malformed "LFH Path String is not valid UTF-8")
  else pure .absent

/-- The part of `decode_pending_entry` between taking the entry out and counting it. -/
def decodeParts (lfhBytes encodedPayload : Bytes) (payloadOffset : ℕ) : Result EntryReader := do
  let t := entryTraits archive lfh
  checkStorePatch self.options lfh t
  let crypto ← entryCrypto backend self.keyProvider archive.header lfh t
    archive.globalFlagsSection lfhBytes
  let plan : DecodingPlanV2 :=
    { isCompressed := t.isEffectivelyCompressed
      compAlgoId := t.effectiveCompAlgoId
      expectedOutputSize := decodeExpected self.options lfh t
      maxOutputSize := self.options.maxDecodedEntrySize
      crypto }
  let patched ← decodePayloadV2 backend encodedPayload plan
  let decoded ← applyDelta self.options lfh t patched
  checkDecodedSize lfh t decoded
  let parts ← entryParts self.options archive.header lfh
  let (name, entryKind, symlinkTarget) ← entryName lfh decoded
  rejectIf (payloadOffset < lfh.headerSize.toNat) (.overflow "LFH offset underflow")
  let path ← entryPath lfh
  let pathPresence ← entryPathPresence archive lfh
  let entryMetadata := entryMetadata archive.header lfh (payloadOffset - lfh.headerSize.toNat) t
    parts ⟨name, entryKind, symlinkTarget, path⟩ pathPresence
  pure ⟨lfh, decoded, entryMetadata⟩

end Decode

/-- `decode_pending_entry`: the pending entry is taken out before it is decoded. -/
def decodePendingEntry (backend : Backend) : StreamM EntryReader := do
  let self ← current
  let archive ← lift (okOr self.archive (.internal "missing active archive while decoding entry"))
  let pending ← lift
    (okOr self.pendingEntry (.internal "missing pending entry for transform phase"))
  update fun self => { self with pendingEntry := none }
  let encodedPayload ← lift (okOr pending.encodedPayload
    (.internal "missing encoded payload in transform phase"))
  let entry ← lift (decodeParts backend self archive pending.lfh pending.lfhBytes encodedPayload
    pending.payloadOffset)
  lift (rejectIf (archive.entryCount + 1 > u64Max) (.overflow "entry count"))
  update fun self =>
    { self with archive := some { archive with entryCount := archive.entryCount + 1 } }
  pure entry

/-! ### The phases -/

section Step

variable (backend : Backend)

/-- Not enough bytes: wait for them, or fail when there will be none. -/
def awaitBytes (needed : ℕ) (truncated : String) : StreamM StreamStep := do
  let self ← current
  if self.finalized then setError (.truncated truncated) else pure (.needMore (some needed))

/-- Phase `TransformingEntry`. -/
def stepTransformingEntry : StreamM StreamStep := do
  let entry ← decodePendingEntry backend
  update fun self => { self with state := .entryReady }
  pure (.ready (.entry entry))

/-- The pending entry and the length of its payload. -/
def pendingPayload (self : StreamArchiveParser) : Result (PendingEntry × ℕ) := do
  let pending ← okOr self.pendingEntry (.internal "missing pending entry in NeedPayload")
  let payloadLen ← self.options.limits.allocationLen pending.lfh.payloadSize.toNat
    "payload length usize"
  pure (pending, payloadLen)

/-- Phase `NeedPayload`. -/
def stepNeedPayload : StreamM StreamStep := do
  let self ← current
  let (pending, payloadLen) ← lift self.pendingPayload
  if self.available < payloadLen then
    awaitBytes payloadLen "incomplete payload at end of stream"
  else do
    let payload ← lift (okOr (self.peek payloadLen) (.truncated "payload bytes missing"))
    consume payloadLen
    update fun self =>
      { self with
        pendingEntry := some { pending with encodedPayload := some payload }
        state := .transformingEntry }
    stepTransformingEntry backend

/-- Phase `ArchiveComplete`. -/
def stepArchiveComplete : StreamM StreamStep := do
  let self ← current
  let archive ← lift (okOr self.archive (.internal "stream parser missing archive summary"))
  update fun self =>
    { self with archive := none, pendingEntry := none, state := .needGlobalHeader }
  pure (.ready (.archiveComplete
    ⟨archive.entryCount, archive.header.flags, !archive.header.flags.noIndex⟩))

/-- The end of phase `NeedLocalFileHeader`: the header is there. -/
def stepReadLfh (flags : GlobalFlags) (headerSize : ℕ) : StreamM StreamStep := do
  let self ← current
  let lfhBytes ← lift (okOr (self.peek headerSize) (.truncated "LFH bytes missing"))
  let (lfh, consumed) ← lift (parseLfh lfhBytes flags self.options.limits)
  if consumed ≠ headerSize then
    setError (.invalidLength "LFH parser consumed unexpected length")
  else do
    consume consumed
    -- the limit is checked after the header was consumed, with the phase still unchanged
    let _ ← lift (self.options.limits.allocationLen lfh.payloadSize.toNat "payload length usize")
    update fun self =>
      { self with
        pendingEntry := some ⟨lfh, lfhBytes, self.absoluteOffset, none⟩
        state := .needPayload }
    stepNeedPayload backend

/-- The middle of phase `NeedLocalFileHeader`: the size field is there and no archive starts. -/
def stepLfhSize (flags : GlobalFlags) (headerSizeBytes : Bytes) : StreamM StreamStep := do
  let self ← current
  let headerSize := leNat headerSizeBytes
  lift (self.options.limits.checkLfhHeaderBytes headerSize)
  if headerSize < 4 then
    setError (.invalidLength "LFH Header Size smaller than fixed prefix")
  else if self.available < headerSize then
    awaitBytes headerSize "incomplete LFH at end of stream"
  else stepReadLfh backend flags headerSize

/-- Phase `NeedLocalFileHeader`. -/
def stepNeedLocalFileHeader : StreamM StreamStep := do
  let self ← current
  let archive ← lift (okOr self.archive (.internal "stream parser missing active archive"))
  if self.available = 0 then
    if self.finalized then do
      update fun self => { self with state := .archiveComplete }
      stepArchiveComplete
    else pure (.needMore (some 4))
  else if 4 ≤ self.available then do
    let lfhStart ← lift (okOr (self.peek 4) (.truncated "LFH prefix unavailable"))
    if lfhStart = magic then do
      update fun self => { self with state := .archiveComplete }
      stepArchiveComplete
    else stepLfhSize backend archive.header.flags lfhStart
  else awaitBytes 4 "incomplete LFH prefix at end of stream"

/-- The key-management parameters, parsed for their errors only. -/
def checkKmsContext (header : GlobalHeader) : Result Unit :=
  if header.flags.encrypted then (fun _ => ()) <$> buildKmsContext header else pure ()

/-- The end of phase `NeedGlobalHeader`: the header is there. -/
def stepReadGlobalHeader (needed : ℕ) : StreamM StreamStep := do
  let self ← current
  let input ← lift (okOr (self.peek needed)
    (.truncated "global header bytes missing from parser buffer"))
  let (header, consumed) ← lift (parseGlobalHeader input self.options.limits)
  if consumed ≠ needed then
    setError (.invalidLength "global header parser consumed unexpected length")
  else do
    lift (checkKmsContext header)
    consume consumed
    update fun self =>
      { self with
        archive := some ⟨header, globalHeaderFlagsBytes header, 0⟩
        state :=
          if header.flags.noIndex then .needLocalFileHeader else .needCentralDictionaryOrFooter }
    pure (.ready (.globalHeader header))

/-- Phase `NeedGlobalHeader`. -/
def stepNeedGlobalHeader : StreamM StreamStep := do
  let self ← current
  if self.finalized && self.available == 0 then pure .complete
  else
    match ← lift self.requiredGlobalHeaderBytes with
    | none => awaitBytes 8 "incomplete global header at end of stream"
    | some needed =>
      if self.available < needed then
        awaitBytes needed "incomplete global header at end of stream"
      else stepReadGlobalHeader needed

/-- `StreamArchiveParser::step`. -/
def step : StreamM StreamStep := do
  let self ← current
  match self.state with
  | .needGlobalHeader => stepNeedGlobalHeader
  | .needCentralDictionaryOrFooter =>
    setError
      (.unsupported "forward-only stream parser currently supports NO_INDEX archives only")
  | .needLocalFileHeader => stepNeedLocalFileHeader backend
  | .needPayload => stepNeedPayload backend
  | .transformingEntry => stepTransformingEntry backend
  | .entryReady => do
    update fun self => { self with state := .needLocalFileHeader }
    stepNeedLocalFileHeader backend
  | .archiveComplete => stepArchiveComplete
  | .error => fail (.streamState "stream parser is in terminal error state")

end Step

end StreamArchiveParser

end Sar
