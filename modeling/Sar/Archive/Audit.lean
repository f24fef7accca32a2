import Mathlib.Data.Fintype.Card
import Mathlib.Data.List.Destutter
import Mathlib.Data.List.Sort
import Sar.Archive.Reader

/-!
# The audit of an archive

`audit` scans the entries of an archive with a loop of its own, under two policies: what to do
with control entries, and whether the payloads have to be decoded. With the default policies,
control entries are rejected and every payload is decoded, and the audit is another way to read
the archive: it succeeds exactly if `nextEntry` repeated to the end does, and reports what was
read.

* `auditEntry_default` — one turn of the loop against one call of `nextEntry`.
* `auditEntries_default` — the loop.
* `recoverySummary_isOk` — the summary behind the loop does not fail.
* `auditArchive_default` — the whole audit.
-/

namespace Sar

open Except (rejectIf okOr bind_eq_ok_iff pure_eq_ok ok_bind exists_unit rejectIf_of okOr_some
  ok.injEq ok.inj)
open List

/-! ### Policies and reports -/

/-- `ControlEntryPolicy`. -/
inductive ControlEntryPolicy where
  | reject
  | preserveInert
  deriving DecidableEq

/-- `PayloadAuditPolicy`. -/
inductive PayloadAuditPolicy where
  | metadataOnly
  | decodeWhenKeysAvailable
  | requireDecode
  deriving DecidableEq

/-- `ArchiveAuditOptions`. -/
structure ArchiveAuditOptions where
  controlEntryPolicy : ControlEntryPolicy
  payloadPolicy : PayloadAuditPolicy
  includeInertPayloadBytes : Bool

/-- `ArchiveAuditOptions::default`. -/
def ArchiveAuditOptions.default : ArchiveAuditOptions := ⟨.reject, .requireDecode, false⟩

/-- `ArchiveAuditMode`. -/
inductive ArchiveAuditMode where
  | indexed
  | noIndex

/-- `ArchiveAuditEntryKind`. -/
inductive ArchiveAuditEntryKind where
  | ordinaryEntry
  | inertOpcodeEntry
  | inertSessionControl
  deriving DecidableEq

/-- `ArchiveAuditPayloadStatus`. -/
inductive ArchiveAuditPayloadStatus where
  | decoded
  | skipped
  | unavailable
  | failed

/-- What the audit finds out about a payload. The source keeps the name of the error's status
and the text of the error; here the two are kept themselves. -/
structure AuditedPayload where
  payloadStatus : ArchiveAuditPayloadStatus
  decodedPayloadSize : Option ℕ
  payloadErrorStatus : Option SarStatus
  payloadError : Option SarError
  inertPayloadBytes : Option Bytes

/-- `ArchiveAuditEntryReport`. -/
structure ArchiveAuditEntryReport where
  lfhOffset : ℕ
  entryModeBits : UInt16
  opCode : UInt8
  sessionControl : Bool
  kind : ArchiveAuditEntryKind
  payloadSize : UInt64
  uncompressedSize : UInt64
  compAlgoId : Option UInt8
  encrAlgoId : Option UInt8
  fecAlgoId : Option UInt8
  patchAlgoId : Option UInt8
  payload : AuditedPayload

/-- `ArchiveAuditRecoverySummary`. -/
structure ArchiveAuditRecoverySummary where
  tlvCount : ℕ
  tlvTypeIds : List UInt8

/-- `ArchiveAuditReport`. -/
structure ArchiveAuditReport where
  mode : ArchiveAuditMode
  globalFlags : UInt32
  entryCountSeen : ℕ
  entries : List ArchiveAuditEntryReport
  footerPresent : Bool
  centralDictionaryPresent : Bool
  cdFooterValid : Bool
  recovery : Option ArchiveAuditRecoverySummary

/-- The kind of an entry. -/
def auditEntryKind (lfh : LocalFileHeader) : ArchiveAuditEntryKind :=
  if lfh.entryMode.isSessionControl then .inertSessionControl
  else if lfh.entryMode.opCode ≠ 0 then .inertOpcodeEntry
  else .ordinaryEntry

/-- `SarError::KeyMissing(_) | SarError::BaseMissing(_)`. -/
def SarError.isUnavailable : SarError → Bool
  | .keyMissing _ | .baseMissing _ => true
  | _ => false

namespace ArchiveReader

variable (backend : Backend) (options : ArchiveAuditOptions) (header : GlobalHeader)
  (self : ArchiveReader)

/-! ### One entry -/

/-- Where the stored payload begins and ends. -/
def payloadSpan (lfh : LocalFileHeader) : Result (ℕ × ℕ) := do
  let payloadStart := self.nextOffset + lfh.headerSize.toNat
  rejectIf (payloadStart > u64Max) (.overflow "payload start")
  let payloadEnd := payloadStart + lfh.payloadSize.toNat
  rejectIf (payloadEnd > u64Max) (.overflow "payload end")
  rejectIf (payloadEnd > self.dataEnd) (.truncated "payload exceeds data area bounds")
  pure (payloadStart, payloadEnd)

/-- The stored payload. -/
def readStored (payloadStart : ℕ) (lfh : LocalFileHeader) : Result Bytes := do
  let payloadLen ← self.options.limits.allocationLen lfh.payloadSize.toNat "payload length usize"
  readExactAt self.reader payloadStart payloadLen

/-- The payload of an entry, as the policies ask for it. -/
def auditPayload (lfh : LocalFileHeader) (lfhBytes : Bytes) (payloadStart : ℕ) :
    Result AuditedPayload :=
  match auditEntryKind lfh with
  | .ordinaryEntry =>
    if options.payloadPolicy = .metadataOnly then pure ⟨.skipped, none, none, none, none⟩
    else do
      let encodedPayload ← self.readStored payloadStart lfh
      match decodeOrdinaryArchiveEntryFromParts backend self header lfh self.nextOffset lfhBytes
          encodedPayload with
      | .ok (payload, _) => pure ⟨.decoded, some payload.length, none, none, none⟩
      | .error e =>
        if options.payloadPolicy = .requireDecode then throw e
        else pure ⟨if e.isUnavailable then .unavailable else .failed, none, some e.status, some e,
          none⟩
  | .inertOpcodeEntry | .inertSessionControl =>
    if options.includeInertPayloadBytes then do
      let rawPayload ← self.readStored payloadStart lfh
      pure ⟨.skipped, none, none, none, some rawPayload⟩
    else pure ⟨.skipped, none, none, none, none⟩

/-- The report on an entry. -/
def auditReport (lfhOffset : ℕ) (lfh : LocalFileHeader) (payload : AuditedPayload) :
    ArchiveAuditEntryReport where
  lfhOffset := lfhOffset
  entryModeBits := lfh.entryMode.bits
  opCode := lfh.entryMode.opCode
  sessionControl := lfh.entryMode.isSessionControl
  kind := auditEntryKind lfh
  payloadSize := lfh.payloadSize
  uncompressedSize := lfh.uncompressedSize
  compAlgoId := lfh.compAlgoId
  encrAlgoId := lfh.encrAlgoId
  fecAlgoId := lfh.fecAlgoId
  patchAlgoId := lfh.patchAlgoId
  payload := payload

/-- One turn of the loop of `audit`. -/
def auditEntry : Result (ArchiveAuditEntryReport × ArchiveReader) := do
  let (lfh, lfhBytes) ← self.readLfh header.flags self.nextOffset
  rejectIf (auditEntryKind lfh ≠ .ordinaryEntry ∧ options.controlEntryPolicy = .reject)
    (.unsupported ("archive parsing rejects SESSION_CONTROL entries and nonzero OP_CODE values " ++
      "by default"))
  let (payloadStart, payloadEnd) ← self.payloadSpan lfh
  let payload ← auditPayload backend options header self lfh lfhBytes payloadStart
  pure (auditReport self.nextOffset lfh payload, { self with nextOffset := payloadEnd })

/-- The loop of `audit`, for at most the given number of turns. -/
def auditEntries : ℕ → ArchiveReader → Option (Result (List ArchiveAuditEntryReport))
  | 0, _ => none
  | fuel + 1, self =>
    if self.nextOffset < self.dataEnd then
      match auditEntry backend options header self with
      | .error e => some (.error e)
      | .ok (report, self) => (auditEntries fuel self).map fun r => (report :: ·) <$> r
    else some (.ok [])

/-! ### The whole audit -/

/-- The type ids of the RECOVERY metadata, sorted and without repetition. -/
def recoveryTypeIds (cd : Option CentralDictionary) : List UInt8 :=
  let tlvs := (cd.map fun cd => cd.tlvs).getD []
  (((tlvs.filter isRecoveryTlv).map fun tlv => tlv.typeId).mergeSort (· ≤ ·)).destutter (· ≠ ·)

/-- The summary of the RECOVERY metadata. -/
def recoverySummary (cd : Option CentralDictionary) :
    Result (Option ArchiveAuditRecoverySummary) := do
  let typeIds := recoveryTypeIds cd
  if typeIds = [] then pure none
  else do
    rejectIf (typeIds.length > 2 ^ 32 - 1) (.overflow "recovery tlv count")
    pure (some ⟨typeIds.length, typeIds⟩)

/-- The end of `audit`. -/
def finishAudit (entries : List ArchiveAuditEntryReport) : Result ArchiveAuditReport := do
  let recovery ← recoverySummary self.cd
  pure
    { mode := if header.flags.noIndex then .noIndex else .indexed
      globalFlags := header.flags.bits
      entryCountSeen := entries.length
      entries
      footerPresent := !header.flags.noIndex
      centralDictionaryPresent := self.cd.isSome
      cdFooterValid := header.flags.noIndex || self.cd.isSome
      recovery }

/-- `audit`. The fuel bounds the number of entries; see `auditEntries_isSome`. -/
def audit (fuel : ℕ) : Option (Result ArchiveAuditReport) :=
  let opened : Result (GlobalHeader × ArchiveReader) :=
    match self.globalHeader with
    | some header => .ok (header, self)
    | none => self.readGlobalHeader
  match opened with
  | .error e => some (.error e)
  | .ok (header, self) =>
    (auditEntries backend options header fuel { self with nextOffset := self.headerLen }).map
      fun r => r >>= finishAudit header self

end ArchiveReader

/-- Open a file and audit it. -/
def auditArchive (backend : Backend) (auditOptions : ArchiveAuditOptions)
    (options : ArchiveReaderOptions) (keyProvider : Option KeyProvider) (file : Bytes) :
    Option (Result ArchiveAuditReport) :=
  match ArchiveReader.withOptions file options keyProvider with
  | .error e => some (.error e)
  | .ok self => self.audit backend auditOptions (file.length + 1)

/-! ### The default audit reads the archive -/

/-- The report on an entry that was read. -/
def ordinaryReport (entry : EntryReader) : ArchiveAuditEntryReport where
  lfhOffset := entry.entryMetadata.lfhOffset
  entryModeBits := entry.header.entryMode.bits
  opCode := 0
  sessionControl := false
  kind := .ordinaryEntry
  payloadSize := entry.header.payloadSize
  uncompressedSize := entry.header.uncompressedSize
  compAlgoId := entry.header.compAlgoId
  encrAlgoId := entry.header.encrAlgoId
  fecAlgoId := entry.header.fecAlgoId
  patchAlgoId := entry.header.patchAlgoId
  payload := ⟨.decoded, some entry.payload.length, none, none, none⟩

namespace ArchiveReader

section Default

variable {backend : Backend} {header : GlobalHeader} {self : ArchiveReader}
  {lfh : LocalFileHeader}

theorem auditEntryKind_eq_ordinaryEntry_iff :
    auditEntryKind lfh = .ordinaryEntry ↔
      lfh.entryMode.isSessionControl = false ∧ lfh.entryMode.opCode = 0 := by
  rw [auditEntryKind]
  cases lfh.entryMode.isSessionControl with
  | true => simp
  | false => by_cases hop : lfh.entryMode.opCode = 0 <;> simp [hop]

theorem isControlEntry_iff : isControlEntry lfh = true ↔ auditEntryKind lfh ≠ .ordinaryEntry := by
  rw [ne_eq, auditEntryKind_eq_ordinaryEntry_iff, isControlEntry, Bool.or_eq_true, bne_iff_ne,
    not_and_or, Bool.not_eq_false]

theorem readPayload_eq (self : ArchiveReader) (lfh : LocalFileHeader) :
    self.readPayload lfh = (do
      let (payloadStart, payloadEnd) ← self.payloadSpan lfh
      let encodedPayload ← self.readStored payloadStart lfh
      pure (encodedPayload, payloadEnd)) := by
  simp only [readPayload, payloadSpan, readStored, bind_assoc, pure_bind]

/-- **One turn.** With the default policies, a turn of the audit and a call of `nextEntry` fail
alike, or report and return the same entry. -/
theorem auditEntry_default (hheader : self.globalHeader = some header)
    (hlt : self.nextOffset < self.dataEnd) :
    (∃ e, nextEntry backend self = .error e ∧
      auditEntry backend .default header self = .error e) ∨
    ∃ entry r, nextEntry backend self = .ok (some entry, r) ∧
      auditEntry backend .default header self = .ok (ordinaryReport entry, r) := by
  rw [nextEntry, hheader, okOr_some, ok_bind, if_neg (not_le.mpr hlt), auditEntry]
  rcases self.readLfh header.flags self.nextOffset with e | ⟨lfh, lfhBytes⟩
  · exact .inl ⟨e, rfl, rfl⟩
  rw [ok_bind, ok_bind]
  dsimp only
  by_cases hcontrol : isControlEntry lfh = true
  · rw [rejectIf_of hcontrol, rejectIf_of ⟨isControlEntry_iff.mp hcontrol, rfl⟩]
    exact .inl ⟨_, rfl, rfl⟩
  have hkind : auditEntryKind lfh = .ordinaryEntry := by
    rwa [isControlEntry_iff, not_not] at hcontrol
  rw [Except.rejectIf_bind hcontrol, Except.rejectIf_bind fun h => h.1 hkind, readPayload_eq]
  rcases self.payloadSpan lfh with e | ⟨payloadStart, payloadEnd⟩
  · exact .inl ⟨e, rfl, rfl⟩
  rw [ok_bind, ok_bind, auditPayload, hkind]
  dsimp only
  rw [if_neg (by decide)]
  rcases self.readStored payloadStart lfh with e | encodedPayload
  · exact .inl ⟨e, rfl, rfl⟩
  rw [ok_bind, ok_bind]
  rcases hdecode : decodeOrdinaryArchiveEntryFromParts backend self header lfh self.nextOffset
      lfhBytes encodedPayload with e | ⟨payload, entryMetadata⟩
  · refine .inl ⟨e, ?_, rfl⟩
    rw [pure_eq_ok, ok_bind]
    dsimp only
    rw [hdecode]
    rfl
  · refine .inr ⟨⟨lfh, payload, entryMetadata⟩, { self with nextOffset := payloadEnd }, ?_, ?_⟩
    · rw [pure_eq_ok, ok_bind]
      dsimp only
      rw [hdecode, hheader]
      rfl
    · -- the place of an entry is part of its record
      have hoffset : entryMetadata.lfhOffset = self.nextOffset := by
        simp only [decodeOrdinaryArchiveEntryFromParts, bind_eq_ok_iff, exists_unit,
          pure_eq_ok, ok.injEq] at hdecode
        obtain ⟨-, -, _, -, _, -, _, -, -, _, -, _, -, hrecord⟩ := hdecode
        rw [← (Prod.mk.inj hrecord).2]
        rfl
      obtain ⟨hsession, hop⟩ := auditEntryKind_eq_ordinaryEntry_iff.mp hkind
      change Except.ok (auditReport self.nextOffset lfh _, _) = _
      rw [ordinaryReport, hoffset, auditReport, hkind, hsession, hop]

/-- **The loop.** With the default policies, the audit reports the entries that repeated calls of
`nextEntry` return. -/
theorem auditEntries_default (fuel : ℕ) (hheader : self.globalHeader = some header) :
    auditEntries backend .default header fuel self =
      (readEntries backend fuel self).map fun r => List.map ordinaryReport <$> r := by
  induction fuel generalizing self with
  | zero => rfl
  | succ fuel ih =>
    rw [auditEntries, readEntries]
    by_cases hlt : self.nextOffset < self.dataEnd
    · rw [if_pos hlt]
      rcases @auditEntry_default backend _ _ hheader hlt with
        ⟨e, hnext, haudit⟩ | ⟨entry, r, hnext, haudit⟩
      · rw [hnext, haudit]
        rfl
      · have hr : r.globalHeader = some header := by
          obtain ⟨off, -, -, rfl⟩ := nextEntry_advances backend self hnext
          exact hheader
        rw [hnext, haudit]
        dsimp only
        rw [ih hr, Option.map_map, Option.map_map]
        refine congrArg (fun f => Option.map f _) (funext fun r => ?_)
        rcases r with e | entries
        · rfl
        · rfl
    · have hnext : nextEntry backend self = .ok (none, self) := by
        rw [nextEntry, hheader, okOr_some, ok_bind, if_pos (not_lt.mp hlt)]
        rfl
      rw [if_neg hlt, hnext]
      rfl

/-! ### The summary -/

/-- The type ids are listed once: they are sorted, and neighbours differ. -/
theorem recoveryTypeIds_nodup (cd : Option CentralDictionary) : (recoveryTypeIds cd).Nodup := by
  rw [recoveryTypeIds]
  generalize ((((cd.map fun cd => cd.tlvs).getD []).filter isRecoveryTlv).map fun tlv =>
    tlv.typeId) = ids
  have hsorted : ((ids.mergeSort (· ≤ ·)).destutter (· ≠ ·)).Pairwise (· ≤ ·) :=
    (pairwise_mergeSort' _ ids).sublist (destutter_sublist _ _)
  have hdiffer := isChain_destutter (· ≠ ·) (ids.mergeSort (· ≤ ·))
  generalize (ids.mergeSort (· ≤ ·)).destutter (· ≠ ·) = sorted at hsorted hdiffer
  have hstrict : sorted.IsChain (· < ·) := by
    rw [isChain_iff_getElem] at hdiffer ⊢
    intro i hi
    exact UInt8.lt_of_le_of_ne (pairwise_iff_getElem.mp hsorted _ _ _ _ (Nat.lt_succ_self i))
      (hdiffer i hi)
  exact (isChain_iff_pairwise.mp hstrict).imp UInt8.ne_of_lt

theorem recoverySummary_isOk (cd : Option CentralDictionary) :
    ∃ summary, recoverySummary cd = .ok summary := by
  have hlength : (recoveryTypeIds cd).length ≤ 256 := by
    have hcard := ((recoveryTypeIds_nodup cd).map (f := UInt8.toFin) fun a b h =>
      UInt8.toFin_inj.mp h).length_le_card
    rwa [length_map, Fintype.card_fin] at hcard
  rw [recoverySummary]
  by_cases hnil : recoveryTypeIds cd = []
  · exact ⟨none, if_pos hnil⟩
  · refine ⟨some ⟨(recoveryTypeIds cd).length, recoveryTypeIds cd⟩, ?_⟩
    rw [if_neg hnil, Except.rejectIf_of_not (by omega)]
    rfl

theorem finishAudit_isOk (header : GlobalHeader) (self : ArchiveReader)
    (entries : List ArchiveAuditEntryReport) :
    ∃ report, finishAudit header self entries = .ok report ∧ report.entries = entries := by
  obtain ⟨summary, hsummary⟩ := recoverySummary_isOk self.cd
  rw [finishAudit, hsummary]
  exact ⟨_, rfl, rfl⟩

end Default

end ArchiveReader

/-- The data area lies in the file. -/
theorem ArchiveReader.dataEnd_le {self r : ArchiveReader} {header : GlobalHeader}
    (h : self.readGlobalHeader = .ok (header, r)) : r.dataEnd ≤ self.fileLen := by
  simp only [readGlobalHeader, bind_eq_ok_iff, Prod.exists, exists_unit,
    pure_eq_ok, ok.injEq, Prod.mk.injEq] at h
  obtain ⟨_, -, _, _, -, -, dataEnd, _, harea, rfl, rfl⟩ := h
  rw [dataArea] at harea
  split at harea
  · obtain ⟨rfl, -⟩ := Prod.mk.inj (ok.inj harea)
    exact le_rfl
  · obtain ⟨⟨dataEnd', cd⟩, hindex, heq⟩ := Except.map_eq_ok_iff.mp harea
    obtain ⟨rfl, -⟩ := Prod.mk.inj heq
    simp only [readIndex, bind_eq_ok_iff, Prod.exists, exists_unit,
      Except.rejectIf_eq_ok_iff, pure_eq_ok, ok.injEq, Prod.mk.injEq] at hindex
    obtain ⟨-, _, -, _, -, hle, -, -, -, _, -, _, -, _, _, -, -, -, -, rfl, -⟩ := hindex
    dsimp only
    omega

/-- **The default audit reads the archive.** Its loop ends. It succeeds exactly if the header and
the entries can be read to the end, and then reports on each entry, in order, what was read. -/
theorem auditArchive_default (backend : Backend) (options : ArchiveReaderOptions)
    (keyProvider : Option KeyProvider) (file : Bytes) :
    (auditArchive backend .default options keyProvider file).isSome = true ∧
    ((∃ report, auditArchive backend .default options keyProvider file = some (.ok report)) ↔
      ∃ header entries, readArchive backend options keyProvider file =
        some (.ok (header, entries))) ∧
    ∀ report header entries,
      auditArchive backend .default options keyProvider file = some (.ok report) →
      readArchive backend options keyProvider file = some (.ok (header, entries)) →
        report.entries = entries.map ordinaryReport := by
  rw [auditArchive, readArchive]
  rcases hopen : ArchiveReader.withOptions file options keyProvider with e | self
  · exact ⟨rfl, ⟨fun ⟨_, h⟩ => (nomatch h), fun ⟨_, _, h⟩ => (nomatch h)⟩,
      fun _ _ _ h => (nomatch h)⟩
  dsimp only
  obtain ⟨hfresh, hlength⟩ : self.globalHeader = none ∧ self.fileLen = file.length := by
    obtain ⟨-, -, hself⟩ := bind_eq_ok_iff.mp hopen
    obtain rfl := ok.inj hself
    exact ⟨rfl, rfl⟩
  rw [ArchiveReader.audit, hfresh]
  dsimp only
  rcases hheader : self.readGlobalHeader with e | ⟨header, r⟩
  · exact ⟨rfl, ⟨fun ⟨_, h⟩ => (nomatch h), fun ⟨_, _, h⟩ => (nomatch h)⟩,
      fun _ _ _ h => (nomatch h)⟩
  dsimp only
  have hends : (ArchiveReader.readEntries backend (file.length + 1) r).isSome = true := by
    refine ArchiveReader.readEntries_isSome backend r ?_
    have hle := ArchiveReader.dataEnd_le hheader
    omega
  obtain ⟨hstart, hheader⟩ : { r with nextOffset := r.headerLen } = r ∧
      r.globalHeader = some header := by
    simp only [ArchiveReader.readGlobalHeader, bind_eq_ok_iff, Prod.exists,
      exists_unit, pure_eq_ok, ok.injEq, Prod.mk.injEq] at hheader
    obtain ⟨_, -, _, _, -, -, _, _, -, rfl, rfl⟩ := hheader
    exact ⟨rfl, rfl⟩
  rw [hstart, ArchiveReader.auditEntries_default _ hheader]
  generalize ArchiveReader.readEntries backend (file.length + 1) r = read at hends
  rcases read with _ | e | entries
  · cases hends
  · exact ⟨rfl, ⟨fun ⟨_, h⟩ => (nomatch h), fun ⟨_, _, h⟩ => (nomatch h)⟩,
      fun _ _ _ h => (nomatch h)⟩
  obtain ⟨report, hfinish, hentries⟩ :=
    ArchiveReader.finishAudit_isOk header r (entries.map ordinaryReport)
  have haudit : (some (.ok entries : Result (List EntryReader))).map
      (fun r => List.map ordinaryReport <$> r) = some (.ok (entries.map ordinaryReport)) := rfl
  rw [haudit, Option.map_some, ok_bind, hfinish]
  refine ⟨rfl, iff_of_true ⟨report, rfl⟩ ⟨header, entries, rfl⟩, ?_⟩
  intro report' header' entries' hreport hread
  obtain rfl := ok.inj (Option.some.inj hreport)
  obtain ⟨-, rfl⟩ := Prod.mk.inj (ok.inj (Option.some.inj hread))
  exact hentries

end Sar
