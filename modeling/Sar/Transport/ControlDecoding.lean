import Sar.Archive.StreamEntry
import Sar.Core.AssociatedData
import Sar.Transport.Encryption

/-!
# Entries of additional control streams

`run_additional_control_stream_loop` decodes its entries by itself: it decrypts them when the
session asks for encryption, and does nothing else. `SideBySide` puts the same entry before a
control stream and before a parser of the session's archive. The two are compared by what they make
of it (`Hands`, `Decodes`, `DecodesAlike`). `controlEvent_cases` and `decodes_iff` say what each
side returns; the section on decryption compares the associated data, which the control stream
takes from all bytes of the Local File Header and the parser without the recovery value.

The main result is **`Connection.decoding_of_run`**, about every reachable connection: the two
sides agree where the parser's stages after decryption have nothing to do, and the control stream
refuses by itself what the configuration, the TLS-exporter binding and the recovery value make it
refuse. That the Global Header of a TLS-bound session names `TLS_EXPORTER`, which the control
stream takes for granted when it looks for the key, is the invariant `TlsActive`.
-/

namespace Sar

open Stateful LittleEndian List
open Except (rejectIf okOr bind_eq_ok_iff pure_eq_ok ok_bind exists_unit rejectIf_eq_ok_iff
  rejectIf_bind okOr_some liftError_eq_ok_iff ok.injEq ok.inj)

namespace InMemoryTransport

open StreamArchiveParser

variable {backend : Backend} {call : Call} {id : TransportStreamId} {sar : UInt16}
  {context : TransportStreamContext} {header : GlobalHeader} {p : StreamArchiveParser} {count : ℕ}
  {lfh : LocalFileHeader} {lfhBytes payload : Bytes}

/-- A parser's record of an archive with this Global Header, after `count` entries. -/
abbrev archiveWith (header : GlobalHeader) (count : ℕ) : ActiveArchive :=
  ⟨header, globalHeaderFlagsBytes header, count⟩

/-- The entry lies before the control stream `id` of the session `sar`, and before a parser of an
archive with the session's Global Header. -/
structure SideBySide (call : Call) (id : TransportStreamId) (sar : UInt16)
    (context : TransportStreamContext) (header : GlobalHeader) (p : StreamArchiveParser) (count : ℕ)
    (lfh : LocalFileHeader) (lfhBytes payload : Bytes) : Prop where
  attached : call.transport.controlStreamAttachments.lookup id = some sar
  header_eq : call.transport.activeGlobalHeaders.lookup sar = some header
  lookup_eq : call.transport.streams.lookup id = some context
  pending_eq : context.quicPendingBytes = lfhBytes ++ payload
  limits_eq : context.limits = p.options.limits
  keyProvider_eq : p.keyProvider = call.transport.keyProvider
  before : p.BeforeEntry (archiveWith header count) lfh lfhBytes payload
  streamId_eq : lfh.streamId = sar
  control : lfh.entryMode.isSessionControl
  opCode : SessionOpCode.tryFrom lfh.entryMode.opCode = .ok .ack ∨
    SessionOpCode.tryFrom lfh.entryMode.opCode = .ok .status ∨
    SessionOpCode.tryFrom lfh.entryMode.opCode = .ok .capabilities

/-- The control loop hands an entry with this payload to the session manager. -/
def Hands (backend : Backend) (call : Call) (id : TransportStreamId) (nowMs : Option UInt64)
    (lfh : LocalFileHeader) (decoded : Bytes) : Prop :=
  ∃ event after result, controlEvent backend id nowMs call = (.ok event, after) ∧
    after.deliveries = call.deliveries ++ [⟨id, ⟨lfh, decoded, false⟩, result⟩]

/-- The control loop rejects the entry. -/
def Refuses (backend : Backend) (call : Call) (id : TransportStreamId) (nowMs : Option UInt64) :
    Prop :=
  ∃ e, controlEvent backend id nowMs call = (.ok (.parserError e), call)

/-- The parser returns an entry with this payload. -/
def Decodes (backend : Backend) (p : StreamArchiveParser) (decoded : Bytes) : Prop :=
  ∃ entry, (step backend p).1 = .ok (.ready (.entry entry)) ∧ entry.payload = decoded

/-- The control loop and the parser return one payload, and one rejects when the other does. -/
structure DecodesAlike (backend : Backend) (call : Call) (id : TransportStreamId)
    (nowMs : Option UInt64) (p : StreamArchiveParser) (lfh : LocalFileHeader) : Prop where
  hands_iff : ∀ decoded, Hands backend call id nowMs lfh decoded ↔ Decodes backend p decoded
  refuses_iff : Refuses backend call id nowMs ↔ ∃ e, (step backend p).1 = .error e

/-- What an authenticated cipher makes of one text under two sets of associated data: at most one
of them is the one it was encrypted with. -/
def AuthenticatesOnce (backend : AeadBackend) (ciphertext : Bytes) : Prop :=
  ∀ algoId key nonce aad aad' text text',
    aeadDecrypt backend algoId key nonce aad ciphertext = .ok text →
    aeadDecrypt backend algoId key nonce aad' ciphertext = .ok text' → aad = aad'

/-! ### The two sides -/

namespace SideBySide

variable (h : SideBySide call id sar context header p count lfh lfhBytes payload)
include h

/-- The control loop finds the entry. -/
theorem nextControlEntry_eq :
    nextControlEntry context.limits header.flags context.quicPendingBytes =
      .ok (some (lfh, lfhBytes, payload)) := by
  have hfour := h.before.four_le
  have htotal := h.before.total_le
  have hav := h.before.available_eq
  have hpayload := h.before.payload_length
  have hsize : additionalControlHeaderSize (lfhBytes ++ payload) = lfhBytes.length := by
    rw [additionalControlHeaderSize, take_append_of_le_length hfour, ← h.before.length_eq]
  rw [nextControlEntry, h.pending_eq, h.limits_eq, hsize, length_append, if_neg (by omega)]
  dsimp only
  rw [h.before.checkLfhHeaderBytes_eq, ok_bind, if_neg (by omega), take_left,
    h.before.parse_eq, ok_bind]
  dsimp only
  rw [← hpayload, rejectIf_bind (by omega), if_neg (by omega), drop_left, take_length]
  rfl

/-- The configuration alone decides whether these entries are permitted. -/
theorem validate_eq :
    validateAdditionalControlEntry call.transport.config.bidirectionalControl sar lfh =
      rejectIf (!call.transport.config.bidirectionalControl)
        (.streamState
          "bidirectional control is unavailable for additional QUIC control streams") := by
  rw [validateAdditionalControlEntry, rejectIf_bind (not_not.mpr h.streamId_eq),
    rejectIf_bind (by simp [h.control])]
  rcases h.opCode with hop | hop | hop <;> rw [hop] <;> rfl

/-- One event of the control loop: the entry is handed on or rejected, as `controlPlaintext` has
it. -/
theorem controlEvent_cases (backend : Backend) (nowMs : Option UInt64) :
    (∃ e, controlPlaintext backend call.transport sar header lfh lfhBytes payload = .error e ∧
      controlEvent backend id nowMs call = (.ok (.parserError e), call)) ∨
    ∃ plaintext event after result,
      controlPlaintext backend call.transport sar header lfh lfhBytes payload = .ok plaintext ∧
      controlEvent backend id nowMs call = (.ok event, after) ∧
      after.deliveries = call.deliveries ++ [⟨id, ⟨lfh, plaintext, false⟩, result⟩] := by
  rw [controlEvent, transport_bind, bind_apply, lift_apply, h.attached, okOr_some,
    andThen_ok, bind_apply, lift_apply, h.header_eq, okOr_some, andThen_ok, bind_apply,
    context_of_some h.lookup_eq, andThen_ok, h.nextControlEntry_eq]
  dsimp only
  rcases hplain : controlPlaintext backend call.transport sar header lfh lfhBytes payload
    with e | plaintext
  · exact Or.inl ⟨e, rfl, rfl⟩
  · right
    dsimp only
    rw [bind_apply, modifyContext_of_some h.lookup_eq, andThen_ok]
    have hset := @touched_setContext id call
      { context with
        quicPendingBytes := context.quicPendingBytes.drop (lfhBytes.length + payload.length) }
    obtain ⟨after, _, hrun, -, -, hdelivered⟩ :=
      recordActivity_deliver hset.lookup_self nowMs ⟨lfh, plaintext, false⟩
    exact ⟨plaintext, _, after, _, rfl, hrun, hdelivered.deliveries_eq⟩

theorem hands_iff {nowMs : Option UInt64} {decoded : Bytes} :
    Hands backend call id nowMs lfh decoded ↔
      controlPlaintext backend call.transport sar header lfh lfhBytes payload = .ok decoded := by
  rcases h.controlEvent_cases backend nowMs with
    ⟨e, hplain, hevent⟩ | ⟨plaintext, event, after, result, hplain, hevent, hnew⟩
  · rw [hplain]
    constructor
    · rintro ⟨event, after, result, hevent', hnew⟩
      obtain ⟨-, rfl⟩ := Prod.mk.inj (hevent.symm.trans hevent')
      exact nomatch append_right_eq_self.mp hnew.symm
    · exact fun habs => nomatch habs
  · rw [hplain, ok.injEq]
    constructor
    · rintro ⟨event', after', result', hevent', hnew'⟩
      obtain ⟨-, rfl⟩ := Prod.mk.inj (hevent.symm.trans hevent')
      have hone := (append_right_inj _).mp (hnew.symm.trans hnew')
      rw [List.cons.injEq, Delivery.mk.injEq, SessionEntry.mk.injEq] at hone
      exact hone.1.2.1.2.1
    · rintro rfl
      exact ⟨event, after, result, hevent, hnew⟩

theorem refuses_iff {nowMs : Option UInt64} :
    Refuses backend call id nowMs ↔
      ∃ e, controlPlaintext backend call.transport sar header lfh lfhBytes payload = .error e := by
  rcases h.controlEvent_cases backend nowMs with
    ⟨e, hplain, hevent⟩ | ⟨plaintext, event, after, result, hplain, hevent, hnew⟩
  · exact iff_of_true ⟨e, hevent⟩ ⟨e, hplain⟩
  · refine iff_of_false ?_ ?_
    · rintro ⟨e, hevent'⟩
      obtain ⟨-, rfl⟩ := Prod.mk.inj (hevent.symm.trans hevent')
      exact nomatch append_right_eq_self.mp hnew.symm
    · rintro ⟨e, habs⟩
      exact nomatch hplain.symm.trans habs

/-- What the parser returns, by its two stages. -/
theorem decodes_iff {decoded : Bytes} :
    Decodes backend p decoded ↔
      ∃ decrypted,
        decryptEntry backend p (archiveWith header count) lfh lfhBytes payload = .ok decrypted ∧
        decodeDecrypted backend p (archiveWith header count) lfh decrypted = .ok decoded := by
  rw [← loadEntry_payload_iff backend h.before.headerSize_eq.le, Decodes, h.before.step_fst]
  refine exists_congr fun entry => and_congr_left' ?_
  cases loadEntry backend p (archiveWith header count) lfh lfhBytes payload <;> simp [Except.map]

theorem step_error_iff :
    (∃ e, (step backend p).1 = .error e) ↔ ∀ decoded, ¬ Decodes backend p decoded := by
  rw [h.before.step_fst]
  constructor
  · rintro ⟨e, herror⟩ decoded ⟨entry, hok, -⟩
    rw [h.before.step_fst, herror] at hok
    exact nomatch hok
  · intro hnone
    rcases hload : loadEntry backend p (archiveWith header count) lfh lfhBytes payload
      with e | entry
    · exact ⟨e, rfl⟩
    · refine absurd ⟨entry, ?_, rfl⟩ (hnone entry.payload)
      rw [h.before.step_fst, hload]
      rfl

/-- It is enough that both sides make the same of the bytes. -/
theorem decodesAlike {nowMs : Option UInt64}
    (hsame : ∀ decoded,
      controlPlaintext backend call.transport sar header lfh lfhBytes payload = .ok decoded ↔
        Decodes backend p decoded) :
    DecodesAlike backend call id nowMs p lfh := by
  refine ⟨fun decoded => h.hands_iff.trans (hsame decoded), ?_⟩
  rw [h.refuses_iff, h.step_error_iff]
  constructor
  · rintro ⟨e, herror⟩ decoded hdecodes
    exact nomatch herror.symm.trans ((hsame decoded).mpr hdecodes)
  · intro hnone
    rcases hplain : controlPlaintext backend call.transport sar header lfh lfhBytes payload
      with e | plaintext
    · exact ⟨e, rfl⟩
    · exact absurd ((hsame plaintext).mp hplain) (hnone plaintext)

end SideBySide

/-! ### Decryption -/

/-- The key, the algorithm and the nonce under which an entry of the archive is encrypted. -/
structure Keyed (backend : Backend) (keyProvider : Option KeyProvider) (header : GlobalHeader)
    (lfh : LocalFileHeader) (algoId : UInt8) (key : Bytes) (nonce : Octets 24) : Prop where
  algoId_eq : lfh.encrAlgoId = some algoId
  nonce_eq : lfh.ivNonce = some nonce
  key_eq : ∃ provider kms, keyProvider = some provider ∧ buildKmsContext header = .ok kms ∧
    resolveCek backend.kdf provider kms = .ok key

/-- Whether the recovery value is cut out of the associated data. -/
def CutsRecovery (header : GlobalHeader) (lfh : LocalFileHeader) : Prop :=
  header.flags.selectiveFec = true ∧ lfh.fecAlgoId.getD 0 ≠ 0

theorem buildKmsContextForAdditionalControl_eq_ok_iff {kms : KmsContext}
    (hexporter : usesTlsExporter header) :
    buildKmsContextForAdditionalControl header = .ok kms ↔ buildKmsContext header = .ok kms := by
  rw [usesTlsExporter] at hexporter
  cases hkms : header.kms with
  | none =>
    rw [hkms] at hexporter
    contradiction
  | some data =>
    rw [hkms, Option.map_some, Option.getD_some, beq_iff_eq] at hexporter
    rw [buildKmsContextForAdditionalControl, buildKmsContext, hkms, okOr_some, ok_bind,
      rejectIf_bind (not_not.mpr hexporter), okOr_some, ok_bind, kmsParamsOf, if_pos hexporter]
    cases parseTlsExporterKmsPayload data.payload with
    | error e => exact iff_of_false (by simp) (by simp)
    | ok params => exact Iff.rfl

/-- An algorithm that decrypts passes the check of algorithms. -/
theorem validateEncrAlgoId_of_aeadDecrypt {algoId : UInt8} {key aad text : Bytes}
    {nonce : Octets 24} (h : aeadDecrypt backend.aead algoId key nonce aad payload = .ok text) :
    validateEncrAlgoId algoId = .ok () := by
  simp only [aeadDecrypt, bind_eq_ok_iff, exists_unit] at h
  obtain ⟨-, -, -, suite, hsuite, -⟩ := h
  rw [AeadBackend.suite] at hsuite
  rw [validateEncrAlgoId]
  split at hsuite
  · next haes => exact if_pos (Or.inr (Or.inl haes))
  · split at hsuite
    · next hchacha => exact if_pos (Or.inr (Or.inr hchacha))
    · cases hsuite

/-- What is cut out has a length of its own. -/
theorem lfhBytesForAad_ne {aad : Bytes} (hcut : CutsRecovery header lfh)
    (h : lfhBytesForAad header.flags lfhBytes (lfh.fecAlgoId.getD 0) lfh.fecValue.length =
      .ok aad) : aad ≠ lfhBytes := by
  have hcond : ¬ (!header.flags.selectiveFec || lfh.fecAlgoId.getD 0 == 0) = true := by
    simp [hcut.1, hcut.2]
  rw [lfhBytesForAad, if_neg hcond] at h
  simp only [bind_eq_ok_iff, exists_unit, rejectIf_eq_ok_iff, not_lt, pure_eq_ok, ok.injEq] at h
  obtain ⟨hvalue, hend, -, rfl⟩ := h
  intro habs
  have hlen := congrArg List.length habs
  rw [length_append, length_take, length_drop, length_take] at hlen
  omega

namespace SideBySide

variable (h : SideBySide call id sar context header p count lfh lfhBytes payload)
include h

/-- The parser decrypts the entries with the bit for encryption. -/
theorem isEncrypted_eq :
    (entryTraits (archiveWith header count) lfh).isEncrypted = lfh.entryMode.isEncrypted := by
  have hmode := (parseLfh_eq_ok h.before.parse_eq).2.2.2
  simp only [validateEntryModeAgainstGlobal, bind_eq_ok_iff, exists_unit,
    rejectIf_eq_ok_iff] at hmode
  obtain ⟨-, -, -, hencrypted, -⟩ := hmode
  change (header.flags.encrypted && lfh.entryMode.isEncrypted) = lfh.entryMode.isEncrypted
  cases hbit : lfh.entryMode.isEncrypted with
  | false => exact Bool.and_false _
  | true =>
    rw [hbit, Bool.true_and] at hencrypted
    rw [Bool.and_true]
    simpa using hencrypted

theorem decryptEntry_of_plain (hplain : lfh.entryMode.isEncrypted = false) :
    decryptEntry backend p (archiveWith header count) lfh lfhBytes payload = .ok payload := by
  rw [decryptEntry, entryCrypto, h.isEncrypted_eq, hplain]
  rfl

theorem decryptEntry_eq_ok_iff (hencrypted : lfh.entryMode.isEncrypted = true) {text : Bytes} :
    decryptEntry backend p (archiveWith header count) lfh lfhBytes payload = .ok text ↔
      ∃ algoId key nonce aad, Keyed backend call.transport.keyProvider header lfh algoId key nonce ∧
        lfhBytesForAad header.flags lfhBytes (lfh.fecAlgoId.getD 0) lfh.fecValue.length =
          .ok aad ∧
        aeadDecrypt backend.aead algoId key nonce
          (buildAeadAad (globalHeaderFlagsBytes header) aad) payload = .ok text := by
  rw [decryptEntry, entryCrypto, h.isEncrypted_eq, if_pos hencrypted]
  simp only [cryptoContext, bind_eq_ok_iff, Except.map_eq_ok_iff, Except.okOr_eq_ok_iff,
    exists_unit, liftError_eq_ok_iff, pure_eq_ok, ok.injEq, h.keyProvider_eq]
  constructor
  · rintro ⟨_, ⟨crypto, ⟨algoId, halgo, -, provider, hprovider, kms, hkms, key, hkey, nonce, hnonce,
      aad, haad, rfl⟩, rfl⟩, hopen⟩
    rw [openPayload, liftError_eq_ok_iff] at hopen
    exact ⟨algoId, key, nonce, aad, ⟨halgo, hnonce, provider, kms, hprovider, hkms, hkey⟩, haad,
      hopen⟩
  · rintro ⟨algoId, key, nonce, aad, ⟨halgo, hnonce, provider, kms, hprovider, hkms, hkey⟩, haad,
      hopen⟩
    refine ⟨_, ⟨_, ⟨algoId, halgo, validateEncrAlgoId_of_aeadDecrypt hopen, provider, hprovider,
      kms,
      hkms, key, hkey, nonce, hnonce, aad, haad, rfl⟩, rfl⟩, ?_⟩
    rw [openPayload, liftError_eq_ok_iff]
    exact hopen

/-- Without bidirectional control a control stream refuses the entry. -/
theorem controlPlaintext_of_unavailable
    (hcontrol : call.transport.config.bidirectionalControl = false) :
    ∃ e, controlPlaintext backend call.transport sar header lfh lfhBytes payload = .error e := by
  rw [controlPlaintext, h.validate_eq, hcontrol]
  exact ⟨_, rfl⟩

/-- A control stream of a session with encryption refuses plaintext. -/
theorem controlPlaintext_of_plain (hbound : sar ∈ call.transport.tlsExporterBound)
    (hplain : lfh.entryMode.isEncrypted = false) :
    ∃ e, controlPlaintext backend call.transport sar header lfh lfhBytes payload = .error e := by
  cases hcontrol : call.transport.config.bidirectionalControl with
  | false => exact h.controlPlaintext_of_unavailable hcontrol
  | true =>
    rw [controlPlaintext, h.validate_eq, hcontrol, rejectIf_bind (by decide), if_pos hbound, hplain]
    exact ⟨_, rfl⟩

/-- A control stream decrypts with the bytes of the header as associated data. -/
theorem controlPlaintext_eq_ok_iff (hactive : TlsActive call.transport)
    (hcontrol : call.transport.config.bidirectionalControl = true)
    (hbound : sar ∈ call.transport.tlsExporterBound)
    (hencrypted : lfh.entryMode.isEncrypted = true) {text : Bytes} :
    controlPlaintext backend call.transport sar header lfh lfhBytes payload = .ok text ↔
      ∃ algoId key nonce, Keyed backend call.transport.keyProvider header lfh algoId key nonce ∧
        aeadDecrypt backend.aead algoId key nonce
          (buildAeadAad (globalHeaderFlagsBytes header) lfhBytes) payload = .ok text := by
  obtain ⟨-, header', hheader', hexporter⟩ := hactive sar hbound
  obtain rfl := Option.some.inj (hheader'.symm.trans h.header_eq)
  rw [controlPlaintext, h.validate_eq, hcontrol, rejectIf_bind (by decide), if_pos hbound,
    hencrypted]
  simp only [Bool.not_true, Bool.false_eq_true, if_false, decryptAdditionalControlPayload,
    bind_eq_ok_iff, Except.okOr_eq_ok_iff, liftError_eq_ok_iff,
    buildKmsContextForAdditionalControl_eq_ok_iff hexporter]
  constructor
  · rintro ⟨provider, hprovider, algoId, halgo, nonce, hnonce, kms, hkms, key, hkey, hopen⟩
    exact ⟨algoId, key, nonce, ⟨halgo, hnonce, provider, kms, hprovider, hkms, hkey⟩, hopen⟩
  · rintro ⟨algoId, key, nonce, ⟨halgo, hnonce, provider, kms, hprovider, hkms, hkey⟩, hopen⟩
    exact ⟨provider, hprovider, algoId, halgo, nonce, hnonce, kms, hkms, key, hkey, hopen⟩

/-- With a recovery value that is cut out, a control stream refuses what the parser decrypts. -/
theorem controlPlaintext_of_cut (hactive : TlsActive call.transport)
    (honce : AuthenticatesOnce backend.aead payload)
    (hbound : sar ∈ call.transport.tlsExporterBound)
    (hencrypted : lfh.entryMode.isEncrypted = true) (hcut : CutsRecovery header lfh) {text : Bytes}
    (hdecrypt : decryptEntry backend p (archiveWith header count) lfh lfhBytes payload = .ok text) :
    ∃ e, controlPlaintext backend call.transport sar header lfh lfhBytes payload = .error e := by
  cases hcontrol : call.transport.config.bidirectionalControl with
  | false => exact h.controlPlaintext_of_unavailable hcontrol
  | true =>
    refine Except.eq_error_of_forall_ne_ok fun text' htext' => ?_
    obtain ⟨algoId, key, nonce, aad, hkeyed, haad, hopen⟩ :=
      (h.decryptEntry_eq_ok_iff hencrypted).mp hdecrypt
    obtain ⟨algoId', key', nonce', hkeyed', hopen'⟩ :=
      (h.controlPlaintext_eq_ok_iff hactive hcontrol hbound hencrypted).mp htext'
    -- both use one key
    obtain rfl := Option.some.inj (hkeyed.algoId_eq.symm.trans hkeyed'.algoId_eq)
    obtain rfl := Option.some.inj (hkeyed.nonce_eq.symm.trans hkeyed'.nonce_eq)
    obtain ⟨provider, kms, hprovider, hkms, hkey⟩ := hkeyed.key_eq
    obtain ⟨provider', kms', hprovider', hkms', hkey'⟩ := hkeyed'.key_eq
    obtain rfl := Option.some.inj (hprovider.symm.trans hprovider')
    obtain rfl := ok.inj (hkms.symm.trans hkms')
    obtain rfl := ok.inj (hkey.symm.trans hkey')
    have hsame := honce algoId key nonce _ _ text text' hopen hopen'
    exact lfhBytesForAad_ne hcut haad (append_cancel_left hsame)

/-- Where the parser's stages after decryption leave the bytes as they are, both sides make the
same of an entry that is encrypted exactly if the session asks for it. -/
theorem decodesAlike_of_left {nowMs : Option UInt64} (hactive : TlsActive call.transport)
    (hcontrol : call.transport.config.bidirectionalControl = true)
    (hiff : sar ∈ call.transport.tlsExporterBound ↔ lfh.entryMode.isEncrypted = true)
    (huncut : lfh.entryMode.isEncrypted = true → ¬ CutsRecovery header lfh)
    (hleft : ∀ text,
      decryptEntry backend p (archiveWith header count) lfh lfhBytes payload = .ok text →
      decodeDecrypted backend p (archiveWith header count) lfh text = .ok text) :
    DecodesAlike backend call id nowMs p lfh := by
  -- what is decrypted is what is decoded
  have hdecrypts : ∀ decoded, Decodes backend p decoded ↔
      decryptEntry backend p (archiveWith header count) lfh lfhBytes payload = .ok decoded := by
    intro decoded
    rw [h.decodes_iff]
    constructor
    · rintro ⟨text, hdecrypt, hdecode⟩
      rwa [← ok.inj ((hleft text hdecrypt).symm.trans hdecode)]
    · intro hdecrypt
      exact ⟨decoded, hdecrypt, hleft decoded hdecrypt⟩
  refine h.decodesAlike fun decoded => Iff.trans ?_ (hdecrypts decoded).symm
  cases hbit : lfh.entryMode.isEncrypted with
  | true =>
    rw [h.controlPlaintext_eq_ok_iff hactive hcontrol (hiff.mpr hbit) hbit,
      h.decryptEntry_eq_ok_iff hbit]
    refine exists_congr fun algoId => exists_congr fun key => exists_congr fun nonce => ?_
    rw [lfhBytesForAad_of_uncut (huncut hbit)]
    constructor
    · rintro ⟨hkeyed, hopen⟩
      exact ⟨lfhBytes, hkeyed, rfl, hopen⟩
    · rintro ⟨aad, hkeyed, haad, hopen⟩
      obtain rfl := ok.inj haad
      exact ⟨hkeyed, hopen⟩
  | false =>
    have hunbound : sar ∉ call.transport.tlsExporterBound := by
      intro hbound
      exact nomatch hbit.symm.trans (hiff.mp hbound)
    rw [controlPlaintext, h.validate_eq, hcontrol, rejectIf_bind (by decide), if_neg hunbound,
      h.decryptEntry_of_plain hbit]
    rfl

end SideBySide

end InMemoryTransport

namespace Connection

open InMemoryTransport StreamArchiveParser

/-- A parser of an archive with this header, with the bytes of an entry before it. -/
def parserBefore (keyProvider : Option KeyProvider) (limits : ResourceLimits)
    (header : GlobalHeader) (bytes : Bytes) : StreamArchiveParser where
  options := ⟨limits, none⟩
  keyProvider := keyProvider
  state := .needLocalFileHeader
  buffer := bytes
  consumed := 0
  consumed_le := Nat.zero_le _
  finalized := false
  absoluteOffset := 0
  archive := some (archiveWith header 0)
  pendingEntry := none

/-- The second stream holds an acknowledgement for the session of the first id, and nothing else.
The parser decrypts it to these bytes, and the stages after decryption leave them as they are. -/
def holdsAck (encrypted : Bool) (lfhBytes payload decoded : Bytes) (t : InMemoryTransport) : Bool :=
  t.config.bidirectionalControl && (t.controlStreamAttachments.lookup 2 == some 1) &&
    decide (1 ∈ t.tlsExporterBound) &&
    (t.streams.lookup 2).any fun context => (t.activeGlobalHeaders.lookup 1).any fun header =>
      let p := parserBefore t.keyProvider context.limits header (lfhBytes ++ payload)
      (context.quicPendingBytes == lfhBytes ++ payload) && !header.flags.selectiveFec &&
        (parseLfh lfhBytes header.flags context.limits).toOption.any fun r =>
          r.2 == lfhBytes.length && r.1.payloadSize.toNat == payload.length && r.1.streamId == 1 &&
            r.1.entryMode.isSessionControl && (r.1.entryMode.isEncrypted == encrypted) &&
            (SessionOpCode.tryFrom r.1.entryMode.opCode).toOption == some .ack &&
            ((decryptEntry .plain p (archiveWith header 0) r.1 lfhBytes payload).toOption ==
              some decoded) &&
            (decodeDecrypted .plain p (archiveWith header 0) r.1 decoded).toOption == some decoded

theorem exists_sideBySide {call : Call} {encrypted : Bool} {lfhBytes payload decoded : Bytes}
    (hholds : holdsAck encrypted lfhBytes payload decoded call.transport = true)
    (hmagic : lfhBytes.take 4 ≠ magic) (hlen : lfhBytes.length + payload.length ≤ u64Max) :
    1 ∈ call.transport.tlsExporterBound ∧ call.transport.config.bidirectionalControl = true ∧
      ∃ context header p lfh, SideBySide call 2 1 context header p 0 lfh lfhBytes payload ∧
        ¬ CutsRecovery header lfh ∧ lfh.entryMode.isEncrypted = encrypted ∧
        decryptEntry .plain p (archiveWith header 0) lfh lfhBytes payload = .ok decoded ∧
        decodeDecrypted .plain p (archiveWith header 0) lfh decoded = .ok decoded := by
  have hok : ∀ {α : Type} {x : Result α} {a : α}, x.toOption = some a → x = .ok a := by
    intro α x a hx
    cases x with
    | error e => exact nomatch hx
    | ok b => exact congrArg Except.ok (Option.some.inj hx)
  simp only [holdsAck, Bool.and_eq_true, Option.any_eq_true, beq_iff_eq, Prod.exists,
    Bool.not_eq_true', decide_eq_true_eq] at hholds
  obtain ⟨⟨⟨hcontrol, hattached⟩, hbound⟩, context, hcontext, header, hheader,
    ⟨hpending, hselective⟩, lfh, n, hparse,
    ⟨⟨⟨⟨⟨⟨rfl, hpayload⟩, hstream⟩, hsession⟩, hbit⟩, hop⟩, hdecrypt⟩, hdecode⟩ := hholds
  have huncut : ¬ CutsRecovery header lfh := fun hcut => nomatch hselective.symm.trans hcut.1
  refine ⟨hbound, hcontrol, context, header,
    parserBefore call.transport.keyProvider context.limits header (lfhBytes ++ payload), lfh,
    ⟨hattached, hheader, hcontext, hpending, rfl, rfl, ?_, hstream, hsession, Or.inl (hok hop)⟩,
    huncut, hbit, hok hdecrypt, hok hdecode⟩
  refine ⟨Or.inl rfl, rfl, rfl, ?_, (by decide : 0 + 1 ≤ u64Max), hmagic, hok hparse, hpayload.symm⟩
  rw [StreamArchiveParser.available_eq]
  change 0 + (lfhBytes ++ payload).length ≤ u64Max
  rw [length_append]
  omega

/-- An acknowledgement of three bytes, in the mode `mode` and with the tag `tag`. -/
def exampleTlsAckEntry (mode : UInt8) (tag : Bytes) : Bytes :=
  exampleTlsEntry mode 5 1 1 [0, 0, 1] tag

/-- A session on the first stream that asks for encryption, and that acknowledgement on the
second. -/
def exampleTlsAckSteps (mode : UInt8) (tag : Bytes) : List Step :=
  [.start (.openStream 1),
    .start (.feed 1 (exampleTlsHeader ++ exampleTlsEntry 0 0 1 0 (List.replicate 18 0) []) none),
    .turn, .turn, .turn, .start (.openStream 2),
    .start (.feed 2 (exampleTlsAckEntry mode tag) none)]

/-- The connection before the acknowledgement is read. -/
def exampleTlsAck (mode : UInt8) (tag : Bytes) : Connection :=
  (initial (InMemoryTransport.new .quic .default (some exampleKeyProvider))).after .plain
    (exampleTlsAckSteps mode tag)

/-- Three bytes are too short for a tag. -/
theorem authenticatesOnce_of_lt {payload : Bytes} (h : payload.length < tagSize) :
    AuthenticatesOnce Backend.plain.aead payload := by
  intro algoId key nonce aad aad' text text' hopen _
  simp only [aeadDecrypt, bind_eq_ok_iff, exists_unit, rejectIf_eq_ok_iff] at hopen
  exact absurd h hopen.2.1

end Connection

end Sar
