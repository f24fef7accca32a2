import Sar.Archive.StreamRefinement

/-!
# The stream parser at a whole entry

When the bytes of one entry, and nothing else, lie before the parser, `step` does not wait: it
returns the entry or it fails (`BeforeEntry.step_fst`). What it returns is split at decryption:
the bytes are decrypted if the entry is encrypted (`decryptEntry`), and everything else the decoder
does starts from the decrypted bytes (`decodeDecrypted`).
-/

namespace Sar

open Stateful LittleEndian
open Except (rejectIf okOr bind_eq_ok_iff)

namespace StreamArchiveParser

variable {p : StreamArchiveParser} {archive : ActiveArchive} {lfh : LocalFileHeader}
  {lfhBytes payload : Bytes}

/-- The bytes of one entry lie before the parser, and its counters have room for it. -/
structure BeforeEntry (p : StreamArchiveParser) (archive : ActiveArchive) (lfh : LocalFileHeader)
    (lfhBytes payload : Bytes) : Prop where
  state : p.state = .needLocalFileHeader ∨ p.state = .entryReady
  archive_eq : p.archive = some archive
  unread_eq : p.unread = lfhBytes ++ payload
  total_le : p.absoluteOffset + p.available ≤ u64Max
  count_le : archive.entryCount + 1 ≤ u64Max
  not_magic : lfhBytes.take 4 ≠ magic
  parse_eq : parseLfh lfhBytes archive.header.flags p.options.limits = .ok (lfh, lfhBytes.length)
  payload_length : payload.length = lfh.payloadSize.toNat

section Decoding

variable (backend : Backend) (p : StreamArchiveParser) (archive : ActiveArchive)
  (lfh : LocalFileHeader)

/-- What the parser makes of the entry before it. -/
def loadEntry (lfhBytes payload : Bytes) : Result EntryReader := do
  let _ ← p.options.limits.allocationLen lfh.payloadSize.toNat "payload length usize"
  decodeParts backend p archive lfh lfhBytes payload (p.absoluteOffset + lfhBytes.length)

/-- The first stage: the stored bytes, decrypted if the entry is encrypted. -/
def decryptEntry (lfhBytes payload : Bytes) : Result Bytes := do
  let crypto ← entryCrypto backend p.keyProvider archive.header lfh (entryTraits archive lfh)
    archive.globalFlagsSection lfhBytes
  openPayload backend crypto payload

/-- The decoding plan of the second stage. -/
def decodingPlan : DecodingPlan :=
  let t := entryTraits archive lfh
  { isCompressed := t.isEffectivelyCompressed
    compAlgoId := t.effectiveCompAlgoId
    expectedOutputSize := decodeExpected p.options lfh t
    maxOutputSize := p.options.maxDecodedEntrySize }

/-- The other stages: the checks of sizes and fields, decompression and the patch. -/
def decodeDecrypted (decrypted : Bytes) : Result Bytes := do
  let t := entryTraits archive lfh
  let _ ← p.options.limits.allocationLen lfh.payloadSize.toNat "payload length usize"
  checkStorePatch p.options lfh t
  let patched ← decodePayload backend decrypted (decodingPlan p archive lfh)
  let decoded ← applyDelta p.options lfh t patched
  checkDecodedSize lfh t decoded
  let _ ← entryParts p.options archive.header lfh
  let _ ← entryName lfh decoded
  let _ ← entryPath lfh
  pure decoded

end Decoding

/-- The path is decoded twice with one outcome. -/
theorem exists_entryPathPresence (archive : ActiveArchive) {path : Option Str}
    (h : entryPath lfh = .ok path) : ∃ presence, entryPathPresence archive lfh = .ok presence := by
  rw [entryPathPresence]
  rw [entryPath] at h
  split
  · split
    · exact ⟨_, rfl⟩
    · next hpath =>
      rw [if_neg hpath] at h
      obtain ⟨s, hs, -⟩ := Except.map_eq_ok_iff.mp h
      exact ⟨_, Except.map_eq_ok_iff.mpr ⟨s, hs, rfl⟩⟩
  · exact ⟨_, rfl⟩

variable (backend : Backend)

/-- **The two stages.** An entry is loaded with the payload that the second stage makes of the
decrypted bytes. -/
theorem loadEntry_payload_iff {decoded : Bytes} (hsize : lfh.headerSize.toNat ≤ lfhBytes.length) :
    (∃ entry, loadEntry backend p archive lfh lfhBytes payload = .ok entry ∧
        entry.payload = decoded) ↔
      ∃ decrypted, decryptEntry backend p archive lfh lfhBytes payload = .ok decrypted ∧
        decodeDecrypted backend p archive lfh decrypted = .ok decoded := by
  simp only [loadEntry, decodeParts, decryptEntry, decodeDecrypted, decodePayloadV2, bind_eq_ok_iff,
    Except.exists_unit, Except.rejectIf_eq_ok_iff, Except.pure_eq_ok, Except.ok.injEq, Prod.exists]
  constructor
  · rintro ⟨_, ⟨len, hlen, hstore, crypto, hcrypto, patched, ⟨decrypted, hopen, hplain⟩, decoded',
      hdelta, hchecked, parts, hparts, name, kind, target, hname, -, path, hpath, -, -, rfl⟩, rfl⟩
    exact ⟨decrypted, ⟨crypto, hcrypto, hopen⟩, len, hlen, hstore, patched, hplain, decoded',
      hdelta,
      hchecked, parts, hparts, name, kind, target, hname, path, hpath, rfl⟩
  · rintro ⟨decrypted, ⟨crypto, hcrypto, hopen⟩, len, hlen, hstore, patched, hplain, decoded',
      hdelta, hchecked, parts, hparts, name, kind, target, hname, path, hpath, rfl⟩
    obtain ⟨presence, hpresence⟩ := exists_entryPathPresence archive hpath
    exact ⟨_, ⟨len, hlen, hstore, crypto, hcrypto, patched, ⟨decrypted, hopen, hplain⟩, decoded',
      hdelta, hchecked, parts, hparts, name, kind, target, hname, by omega, path, hpath, presence,
      hpresence, rfl⟩, rfl⟩

/-- Decoding an entry that is loaded returns it or fails. -/
theorem stepTransformingEntry_fst {pending : PendingEntry} (harch : p.archive = some archive)
    (hpending : p.pendingEntry = some pending) (hpayload : pending.encodedPayload = some payload)
    (hcount : archive.entryCount + 1 ≤ u64Max) :
    (stepTransformingEntry backend p).1 =
      (decodeParts backend p archive pending.lfh pending.lfhBytes payload
        pending.payloadOffset).map fun entry => .ready (.entry entry) := by
  simp only [stepTransformingEntry, decodePendingEntry, bind_apply, current_apply, andThen_ok,
    lift_apply, update_apply, harch, hpending, hpayload, Except.okOr_some]
  cases decodeParts backend p archive pending.lfh pending.lfhBytes payload
    pending.payloadOffset with
  | error e => rfl
  | ok entry =>
    simp only [andThen_ok, Except.rejectIf_of_not (Nat.not_lt.mpr hcount)]
    rfl

namespace BeforeEntry

variable (h : BeforeEntry p archive lfh lfhBytes payload)
include h

theorem headerSize_eq : lfh.headerSize.toNat = lfhBytes.length := (parseLfh_eq_ok h.parse_eq).1

theorem length_eq : lfhBytes.length = leNat (lfhBytes.take 4) := (parseLfh_eq_ok h.parse_eq).2.1

theorem four_le : 4 ≤ lfhBytes.length := four_le_of_parseLfh h.parse_eq

theorem available_eq : p.available = lfhBytes.length + payload.length := by
  rw [StreamArchiveParser.available_eq, h.unread_eq, List.length_append]

theorem checkLfhHeaderBytes_eq :
    p.options.limits.checkLfhHeaderBytes lfhBytes.length = .ok () := by
  obtain ⟨⟨headerSize, n⟩, -, hrest⟩ := bind_eq_ok_iff.mp h.parse_eq
  obtain ⟨⟨⟩, hlimit, hrest⟩ := bind_eq_ok_iff.mp hrest
  obtain ⟨⟨⟩, -, hrest⟩ := bind_eq_ok_iff.mp hrest
  obtain ⟨⟨fields, m⟩, -, hrest⟩ := bind_eq_ok_iff.mp hrest
  have hlen := (Prod.mk.inj (Except.ok.inj hrest)).2
  rwa [hlen] at hlimit

theorem headerThere : p.HeaderThere lfhBytes.length := by
  have hfour := h.four_le
  have hav := h.available_eq
  have htake : p.unread.take 4 = lfhBytes.take 4 := by
    rw [h.unread_eq, List.take_append_of_le_length hfour]
  refine ⟨by omega, ?_, ?_, h.checkLfhHeaderBytes_eq, hfour, by omega⟩
  · rw [htake]
    exact h.not_magic
  · rw [htake]
    exact h.length_eq.symm

/-- The header phase loads the entry or fails. -/
theorem stepNeedLocalFileHeader_fst :
    (stepNeedLocalFileHeader backend p).1 =
      (loadEntry backend p archive lfh lfhBytes payload).map fun entry =>
        .ready (.entry entry) := by
  have hav := h.available_eq
  have htotal := h.total_le
  have hn := h.headerThere.length_le
  have htake : p.unread.take lfhBytes.length = lfhBytes := by
    rw [h.unread_eq, List.take_left]
  have hparse : parseLfh (p.unread.take lfhBytes.length) archive.header.flags p.options.limits =
      .ok (lfh, lfhBytes.length) := by
    rw [htake]
    exact h.parse_eq
  rw [h.headerThere.stepNeedLocalFileHeader_eq backend h.archive_eq, loadEntry]
  rcases halloc : p.options.limits.allocationLen lfh.payloadSize.toNat "payload length usize" with
    e | len
  · rw [stepReadLfh_read backend hn hparse, consume_of_le hn (by omega), andThen_ok, bind_apply,
      lift_apply, halloc]
    rfl
  · obtain rfl := (ResourceLimits.allocationLen_eq_ok_iff.mp halloc).1
    -- the payload is there as well
    have hunread : ((p.advance lfhBytes.length hn).withPending lfh lfhBytes).unread = payload := by
      change (p.advance lfhBytes.length hn).unread = payload
      rw [unread_advance, h.unread_eq, List.drop_left]
    have hm : lfh.payloadSize.toNat ≤
        ((p.advance lfhBytes.length hn).withPending lfh lfhBytes).available := by
      rw [StreamArchiveParser.available_eq, hunread, h.payload_length]
    have hload := stepReadLfh_load backend hn htotal hparse halloc (by rw [htake]; exact hm)
    simp only [htake] at hload
    rw [hload, @stepTransformingEntry_fst _ archive payload backend _ ?_ rfl ?_ h.count_le]
    · rw [Except.ok_bind]
      congr 1
      change decodeParts backend _ archive lfh lfhBytes payload
        (p.advance lfhBytes.length hn).absoluteOffset = _
      rw [absoluteOffset_advance]
      refine decodeParts_congr backend ?_ ?_ _ _ _ _ _
      · exact (options_advance _).trans (options_advance hn)
      · exact (keyProvider_advance _).trans (keyProvider_advance hn)
    · exact (archive_advance _).trans ((archive_advance hn).trans h.archive_eq)
    · rw [hunread, List.take_of_length_le h.payload_length.le]

/-- **One step at a whole entry.** It is returned as it was loaded, or the step fails. -/
theorem step_fst :
    (step backend p).1 =
      (loadEntry backend p archive lfh lfhBytes payload).map fun entry =>
        .ready (.entry entry) := by
  rcases h.state with hstate | hstate
  · rw [step_of_needLocalFileHeader backend hstate]
    exact h.stepNeedLocalFileHeader_fst backend
  · rw [step_of_entryReady backend hstate]
    have hnext :
        BeforeEntry { p with state := .needLocalFileHeader } archive lfh lfhBytes payload :=
      ⟨Or.inl rfl, h.archive_eq, h.unread_eq, h.total_le, h.count_le, h.not_magic, h.parse_eq,
        h.payload_length⟩
    exact hnext.stepNeedLocalFileHeader_fst backend

end BeforeEntry

end StreamArchiveParser

end Sar
