import Sar.Archive.Reader
import Sar.Archive.StreamChunking
import Sar.Core.Canonical

/-!
# The stream parser and the seekable reader

Both decode an archive without index, with code of their own. Stage by stage the two decoders come
to the same (`decodeParts_eq`), and both describe an entry by the bytes it occupies (`EntryAt`), so
that reading a file and parsing it as a stream accept the same archives and hand out the same
entries. A file that is read is nothing but its header and entries (`spans_of_readArchive`).
-/

namespace Sar

open Except (rejectIf liftError okOr bind_eq_ok_iff pure_eq_ok ok_bind exists_unit
  rejectIf_eq_ok_iff okOr_some map_eq_ok_iff ok.inj ok.injEq)
open Stateful LittleEndian Resumable List

variable (backend : Backend)

/-! ### The two decoders -/

namespace StreamArchiveParser

section Decode

variable {p : StreamArchiveParser} {self : ArchiveReader} {archive : ActiveArchive}
  {lfh : LocalFileHeader}

theorem entryTraits_eq
    (hmode : lfh.entryMode.isEncrypted = true → archive.header.flags.encrypted = true) :
    entryTraits archive lfh = ArchiveReader.entryTraits archive.header lfh := by
  have henc : (archive.header.flags.encrypted && lfh.entryMode.isEncrypted) =
      lfh.entryMode.isEncrypted := by
    cases h : lfh.entryMode.isEncrypted with
    | false => exact Bool.and_false _
    | true => rw [hmode h, Bool.and_self]
  rw [entryTraits, ArchiveReader.entryTraits, henc]

/-- The two records agree once the path was decoded. -/
theorem entryPathPresence_eq {path : Option Str} (h : entryPath lfh = .ok path) :
    entryPathPresence archive lfh =
      .ok (presenceOf archive.header.flags.hasPath path.isSome (path.getD Str.empty)) := by
  rw [entryPath] at h
  rw [entryPathPresence, presenceOf]
  by_cases hempty : lfh.path.isEmpty = true
  · rw [if_pos hempty] at h
    obtain rfl : none = path := ok.inj h
    rw [if_pos hempty]
    split <;> rfl
  · rw [if_neg hempty] at h ⊢
    obtain ⟨s, hs, rfl⟩ := map_eq_ok_iff.mp h
    rw [hs]
    split <;> rfl

/-- Both decoders do the same with an entry whose mode agrees with the global flags. -/
theorem decodeParts_eq {lfhBytes payload : Bytes} {off n : ℕ} (hopt : p.options = self.options)
    (hkey : p.keyProvider = self.keyProvider)
    (hsection : archive.globalFlagsSection = self.globalFlagsSection)
    (hmode : lfh.entryMode.isEncrypted = true → archive.header.flags.encrypted = true)
    (hoff : off = lfh.headerSize.toNat + n) :
    decodeParts backend p archive lfh lfhBytes payload off =
      (fun r => ⟨lfh, r.1, r.2⟩) <$>
        ArchiveReader.decodeOrdinaryArchiveEntryFromParts backend self archive.header lfh n
          lfhBytes payload := by
  have hflag : ¬ ((ArchiveReader.entryTraits archive.header lfh).isEncrypted &&
      !archive.header.flags.encrypted) = true := by
    change ¬ (lfh.entryMode.isEncrypted && !archive.header.flags.encrypted) = true
    cases h : lfh.entryMode.isEncrypted with
    | false => simp
    | true => simp [hmode h]
  simp only [decodeParts, ArchiveReader.decodeOrdinaryArchiveEntryFromParts, entryTraits_eq hmode,
    Except.rejectIf_of_not hflag, ok_bind, hopt, hkey, hsection, ArchiveReader.entryTexts]
  -- the same stages in the same order, up to the record
  simp only [map_bind]
  refine bind_congr fun _ => bind_congr fun crypto => bind_congr fun patched =>
    bind_congr fun decoded => bind_congr fun _ => bind_congr fun parts => ?_
  -- the stream parser decodes the path twice
  have hsub : off - lfh.headerSize.toNat = n := by omega
  have hle : ¬ off < lfh.headerSize.toNat := by omega
  rw [Except.rejectIf_of_not hle, hsub]
  rcases entryName lfh decoded with e | ⟨name, entryKind, symlinkTarget⟩
  · rfl
  simp only [ok_bind]
  rcases hpath : entryPath lfh with e | path
  · rfl
  simp only [ok_bind, entryPathPresence_eq hpath]
  rfl

end Decode

end StreamArchiveParser

/-! ### An entry in the file -/

/-- At an offset of the file there is an entry that takes `n` bytes. -/
structure EntryAt (r : ArchiveReader) (header : GlobalHeader) (off : ℕ) (entry : EntryReader)
    (n : ℕ) : Prop where
  size_there : 4 ≤ (r.reader.drop off).length
  size_limit : r.options.limits.checkLfhHeaderBytes (leNat ((r.reader.drop off).take 4)) =
    .ok ()
  size_ge : 4 ≤ leNat ((r.reader.drop off).take 4)
  parse_eq : parseLfh ((r.reader.drop off).take (leNat ((r.reader.drop off).take 4)))
    header.flags r.options.limits = .ok (entry.header, leNat ((r.reader.drop off).take 4))
  payload_limit : r.options.limits.allocationLen entry.header.payloadSize.toNat
    "payload length usize" = .ok entry.header.payloadSize.toNat
  length_eq : n = leNat ((r.reader.drop off).take 4) + entry.header.payloadSize.toNat
  length_le : n ≤ (r.reader.drop off).length
  decode_eq : ArchiveReader.decodeOrdinaryArchiveEntryFromParts backend r header entry.header off
    ((r.reader.drop off).take (leNat ((r.reader.drop off).take 4)))
    (((r.reader.drop off).drop (leNat ((r.reader.drop off).take 4))).take
      entry.header.payloadSize.toNat) = .ok (entry.payload, entry.entryMetadata)

namespace ArchiveReader

variable {self : ArchiveReader} {header : GlobalHeader}

/-- A reader whose data area is the rest of the file. -/
structure Open (r : ArchiveReader) (header : GlobalHeader) : Prop where
  globalHeader_eq : r.globalHeader = some header
  flagsSection_eq : r.globalFlagsSection = globalHeaderFlagsBytes header
  dataEnd_eq : r.dataEnd = r.reader.length
  length_le : r.reader.length ≤ u64Max

theorem readLfh_eq_ok_iff {flags : GlobalFlags} {off : ℕ} {lfh : LocalFileHeader} {bytes : Bytes} :
    self.readLfh flags off = .ok (lfh, bytes) ↔
      4 ≤ (self.reader.drop off).length ∧
      self.options.limits.checkLfhHeaderBytes (leNat ((self.reader.drop off).take 4)) = .ok () ∧
      4 ≤ leNat ((self.reader.drop off).take 4) ∧
      bytes = (self.reader.drop off).take (leNat ((self.reader.drop off).take 4)) ∧
      parseLfh bytes flags self.options.limits =
        .ok (lfh, leNat ((self.reader.drop off).take 4)) ∧
      leNat ((self.reader.drop off).take 4) ≤ (self.reader.drop off).length := by
  simp only [readLfh, bind_eq_ok_iff, Prod.exists, exists_unit, readExactAt_eq_ok_iff,
    rejectIf_eq_ok_iff, pure_eq_ok, ok.injEq, Prod.mk.injEq, not_lt, length_drop]
  set size := leNat ((self.reader.drop off).take 4)
  -- the size field and the rest lie side by side
  have hjoin : 4 ≤ size → (self.reader.drop off).take 4 ++
      (self.reader.drop (off + 4)).take (size - 4) = (self.reader.drop off).take size := by
    intro hge
    rw [← drop_drop, ← take_add, Nat.add_sub_cancel' hge]
  constructor
  · rintro ⟨_, ⟨hfour, rfl⟩, hlimit, hge, _, ⟨hrest, rfl⟩, _, n, hparse, rfl, rfl⟩
    rw [hjoin hge] at hparse ⊢
    obtain ⟨-, hn, -⟩ := parseLfh_eq_ok hparse
    rw [take_take, Nat.min_eq_left hge] at hn
    obtain rfl : n = size := hn
    exact ⟨hfour, hlimit, hge, rfl, hparse, by omega⟩
  · rintro ⟨hfour, hlimit, hge, rfl, hparse, hle⟩
    exact ⟨_, ⟨hfour, rfl⟩, hlimit, hge, _, ⟨by omega, rfl⟩, lfh, size, hjoin hge ▸ hparse, rfl,
      hjoin hge⟩

theorem readPayload_eq_ok_iff (hopen : self.Open header) {lfh : LocalFileHeader} {bytes : Bytes}
    {stop : ℕ} :
    self.readPayload lfh = .ok (bytes, stop) ↔
      stop = self.nextOffset + lfh.headerSize.toNat + lfh.payloadSize.toNat ∧
      stop ≤ self.reader.length ∧
      self.options.limits.allocationLen lfh.payloadSize.toNat "payload length usize" =
        .ok lfh.payloadSize.toNat ∧
      bytes = (self.reader.drop (self.nextOffset + lfh.headerSize.toNat)).take
        lfh.payloadSize.toNat := by
  have hlen := hopen.length_le
  simp only [readPayload, bind_eq_ok_iff, exists_unit, readExactAt_eq_ok_iff, rejectIf_eq_ok_iff,
    pure_eq_ok, ok.injEq, Prod.mk.injEq, gt_iff_lt, not_lt, hopen.dataEnd_eq]
  constructor
  · rintro ⟨-, -, hle, len, halloc, _, ⟨-, rfl⟩, rfl, rfl⟩
    obtain ⟨rfl, -⟩ := ResourceLimits.allocationLen_eq_ok_iff.mp halloc
    exact ⟨rfl, hle, halloc, rfl⟩
  · rintro ⟨rfl, hle, halloc, rfl⟩
    exact ⟨by omega, by omega, hle, _, halloc, _, ⟨by omega, rfl⟩, rfl, rfl⟩

theorem nextEntry_eq_some_iff (hopen : self.Open header) {entry : EntryReader} {r : ArchiveReader} :
    nextEntry backend self = .ok (some entry, r) ↔
      ∃ n, EntryAt backend self header self.nextOffset entry n ∧
        isControlEntry entry.header = false ∧
        r = { self with nextOffset := self.nextOffset + n } := by
  rw [nextEntry, hopen.globalHeader_eq, okOr_some, ok_bind, hopen.dataEnd_eq]
  by_cases hend : self.nextOffset ≥ self.reader.length
  · rw [if_pos hend]
    constructor
    · intro h
      cases h
    · rintro ⟨n, hentry, -⟩
      have := hentry.size_there
      rw [length_drop] at this
      omega
  rw [if_neg hend]
  simp only [bind_eq_ok_iff, Prod.exists, exists_unit, rejectIf_eq_ok_iff,
    pure_eq_ok, ok.injEq, Prod.mk.injEq, Option.some.injEq, Bool.not_eq_true,
    readLfh_eq_ok_iff, readPayload_eq_ok_iff hopen]
  constructor
  · rintro ⟨lfh, _, ⟨hfour, hlimit, hge, rfl, hparse, hle⟩, hctl, _, _, ⟨rfl, hstop, halloc, rfl⟩,
      payload, record, hdecode, rfl, rfl⟩
    obtain ⟨hsize, -⟩ := parseLfh_eq_ok hparse
    rw [hsize] at hstop hdecode ⊢
    rw [← drop_drop] at hdecode
    refine ⟨_, ⟨hfour, hlimit, hge, hparse, halloc, rfl, ?_, hdecode⟩, hctl, ?_⟩
    · rw [length_drop]
      change leNat _ + lfh.payloadSize.toNat ≤ _
      omega
    · rw [Nat.add_assoc]
  · rintro ⟨n, ⟨hfour, hlimit, hge, hparse, halloc, rfl, hle, hdecode⟩, hctl, rfl⟩
    obtain ⟨hsize, -, hlen, -⟩ := parseLfh_eq_ok hparse
    rw [length_take] at hlen
    rw [length_drop] at hle
    refine ⟨entry.header, _, ⟨hfour, hlimit, hge, rfl, hparse, by omega⟩, hctl, _, _,
      ⟨rfl, by rw [hsize]; omega, halloc, rfl⟩, entry.payload, entry.entryMetadata, ?_, rfl, ?_⟩
    · rw [hsize, ← drop_drop]
      exact hdecode
    · rw [hsize, Nat.add_assoc]

theorem nextEntry_eq_none_iff (hopen : self.Open header) {r : ArchiveReader} :
    nextEntry backend self = .ok (none, r) ↔
      self.reader.length ≤ self.nextOffset ∧ r = self := by
  rw [nextEntry, hopen.globalHeader_eq, okOr_some, ok_bind, hopen.dataEnd_eq]
  by_cases hend : self.nextOffset ≥ self.reader.length
  · rw [if_pos hend]
    simp only [pure_eq_ok, ok.injEq, Prod.mk.injEq, true_and, hend]
    exact eq_comm
  · rw [if_neg hend]
    simp [bind_eq_ok_iff, pure_eq_ok, hend]

end ArchiveReader

/-! ### The stream parser at an entry -/

namespace StreamArchiveParser

/-- The parser is about to read the Local File Header at an offset of the file, all of which has
arrived. -/
structure Aligned (r : ArchiveReader) (header : GlobalHeader) (p : StreamArchiveParser)
    (off count : ℕ) : Prop where
  state : p.state = .needLocalFileHeader ∨ p.state = .entryReady
  options : p.options = r.options
  keyProvider : p.keyProvider = r.keyProvider
  finalized : p.finalized = true
  archive : p.archive = some ⟨header, globalHeaderFlagsBytes header, count⟩
  unread : p.unread = r.reader.drop off
  absoluteOffset : p.absoluteOffset = off
  off_le : off ≤ r.reader.length
  count_le : count ≤ off

variable {r : ArchiveReader} {header : GlobalHeader} {p s : StreamArchiveParser} {off count : ℕ}
  {entry : EntryReader}

/-- Both phases read the next header. -/
theorem Aligned.step_eq (h : Aligned r header p off count) :
    ∃ q, Aligned r header q off count ∧ step backend p = stepNeedLocalFileHeader backend q := by
  rcases h.state with hstate | hstate
  · exact ⟨p, h, step_of_needLocalFileHeader backend hstate⟩
  · refine ⟨{ p with state := .needLocalFileHeader }, ?_, step_of_entryReady backend hstate⟩
    exact ⟨.inl rfl, h.options, h.keyProvider, h.finalized, h.archive, h.unread, h.absoluteOffset,
      h.off_le, h.count_le⟩

theorem pendingPayload_withPending (p : StreamArchiveParser) (lfh : LocalFileHeader)
    (bytes : Bytes) {len : ℕ}
    (h : p.options.limits.allocationLen lfh.payloadSize.toNat "payload length usize" = .ok len) :
    (p.withPending lfh bytes).pendingPayload =
      .ok (⟨lfh, bytes, p.absoluteOffset, none⟩, len) := by
  simp only [pendingPayload, withPending, okOr_some, ok_bind, h, pure_eq_ok]

theorem Aligned.available_eq (h : Aligned r header p off count) :
    p.available = r.reader.length - off := by
  rw [StreamArchiveParser.available_eq, h.unread, length_drop]

/-- The header and the payload of an entry have been taken in; the parser is behind them. -/
structure Loaded (r : ArchiveReader) (header : GlobalHeader) (p : StreamArchiveParser)
    (pending : PendingEntry) (off count : ℕ) : Prop where
  options : p.options = r.options
  keyProvider : p.keyProvider = r.keyProvider
  finalized : p.finalized = true
  archive : p.archive = some ⟨header, globalHeaderFlagsBytes header, count⟩
  pendingEntry : p.pendingEntry = some pending
  unread : p.unread = r.reader.drop off
  absoluteOffset : p.absoluteOffset = off

theorem Aligned.loaded (h : Aligned r header p off count) {n m : ℕ} (hn : n ≤ p.available)
    {lfh : LocalFileHeader} {bytes payload : Bytes} {pending : PendingEntry}
    (hm : m ≤ ((p.advance n hn).withPending lfh bytes).available) :
    Loaded r header ((((p.advance n hn).withPending lfh bytes).advance m hm).withPayload pending
      payload) { pending with encodedPayload := some payload } (off + n + m) count := by
  constructor
  · exact (options_advance hm).trans ((options_advance hn).trans h.options)
  · exact (keyProvider_advance hm).trans ((keyProvider_advance hn).trans h.keyProvider)
  · exact (finalized_advance hm).trans ((finalized_advance hn).trans h.finalized)
  · exact (archive_advance hm).trans ((archive_advance hn).trans h.archive)
  · rfl
  · refine (unread_advance hm).trans ?_
    change (p.advance n hn).unread.drop m = _
    rw [unread_advance, h.unread, drop_drop, drop_drop, ← Nat.add_assoc]
  · refine (absoluteOffset_advance hm).trans ?_
    change (p.advance n hn).absoluteOffset + m = _
    rw [absoluteOffset_advance, h.absoluteOffset]

section Loaded

variable {pending : PendingEntry} (h : Loaded r header p pending off count)
include h

theorem Loaded.step_entry_iff {payload : Bytes} (hpayload : pending.encodedPayload = some payload)
    (hcount : count + 1 ≤ u64Max) :
    (∃ s, stepTransformingEntry backend p = (.ok (.ready (.entry entry)), s)) ↔
      decodeParts backend p ⟨header, globalHeaderFlagsBytes header, count⟩ pending.lfh
        pending.lfhBytes payload pending.payloadOffset = .ok entry := by
  simp only [stepTransformingEntry_eq_ok_iff, decodePendingEntry_eq_ok_iff, StreamStep.ready.injEq,
    StreamEvent.entry.injEq, h.archive, h.pendingEntry, Option.some.injEq]
  constructor
  · rintro ⟨_, _, _, ⟨_, _, _, rfl, rfl, hsome, hdecode, -, -⟩, rfl, -⟩
    obtain rfl := Option.some.inj (hpayload.symm.trans hsome)
    exact hdecode
  · intro hdecode
    exact ⟨_, entry, _, ⟨_, _, _, rfl, rfl, hpayload, hdecode, hcount, rfl⟩, rfl, rfl⟩

theorem Loaded.aligned {x : StreamStep} (hoff : off ≤ r.reader.length) (hcount : count + 1 ≤ off)
    (hstep : stepTransformingEntry backend p = (.ok x, s)) :
    Aligned r header s off (count + 1) := by
  obtain ⟨_, _, hdecode, -, rfl⟩ := (stepTransformingEntry_eq_ok_iff backend).mp hstep
  obtain ⟨archive, _, _, harch, -, -, -, -, rfl⟩ :=
    (decodePendingEntry_eq_ok_iff backend).mp hdecode
  obtain rfl := Option.some.inj (h.archive.symm.trans harch)
  exact ⟨.inr rfl, h.options, h.keyProvider, h.finalized, rfl, h.unread, h.absoluteOffset, hoff,
    hcount⟩

end Loaded

/-- The parser once the header and the payload of an entry have been taken in. -/
def load (p : StreamArchiveParser) (lfh : LocalFileHeader) (bytes : Bytes) {n m : ℕ}
    (hn : n ≤ p.available) (hm : m ≤ ((p.advance n hn).withPending lfh bytes).available) :
    StreamArchiveParser :=
  (((p.advance n hn).withPending lfh bytes).advance m hm).withPayload
    ⟨lfh, bytes, (p.advance n hn).absoluteOffset, none⟩
    (((p.advance n hn).withPending lfh bytes).unread.take m)

section Load

variable {archive : ActiveArchive} {n : ℕ}

theorem awaitBytes_ne_ready (n : ℕ) (msg : String) (e : StreamEvent) (s : StreamArchiveParser) :
    awaitBytes n msg p ≠ (.ok (.ready e), s) := by
  intro h
  rcases hfin : p.finalized
  · rw [awaitBytes_of_not_finalized hfin] at h
    cases h
  · rw [awaitBytes_of_finalized hfin] at h
    cases h

/-- A Local File Header is there, by its length. -/
structure HeaderThere (p : StreamArchiveParser) (n : ℕ) : Prop where
  four_le : 4 ≤ p.available
  not_magic : p.unread.take 4 ≠ magic
  length_eq : leNat (p.unread.take 4) = n
  limit : p.options.limits.checkLfhHeaderBytes n = .ok ()
  four_le_length : 4 ≤ n
  length_le : n ≤ p.available

theorem HeaderThere.stepNeedLocalFileHeader_eq (h : p.HeaderThere n)
    (harch : p.archive = some archive) :
    stepNeedLocalFileHeader backend p = stepReadLfh backend archive.header.flags n p := by
  obtain ⟨hfour, hmagic, rfl, hlimit, hsmall, hle⟩ := h
  rw [stepNeedLocalFileHeader_of_some backend harch, if_neg (by omega), if_pos hfour,
    if_neg hmagic, stepLfhSize_ok backend hlimit, if_neg (by omega), if_neg (by omega)]

/-- The entry phase goes on only with a header that is there. -/
theorem headerThere_of_entry (harch : p.archive = some archive)
    (h : stepNeedLocalFileHeader backend p = (.ok (.ready (.entry entry)), s)) :
    p.HeaderThere (leNat (p.unread.take 4)) := by
  rw [stepNeedLocalFileHeader_of_some backend harch, finishArchive_of_some harch] at h
  by_cases hzero : p.available = 0
  · rw [if_pos hzero] at h
    split at h <;> cases h
  rw [if_neg hzero] at h
  by_cases hfour : 4 ≤ p.available
  · rw [if_pos hfour] at h
    by_cases hmagic : p.unread.take 4 = magic
    · rw [if_pos hmagic] at h
      cases h
    rw [if_neg hmagic] at h
    rcases hlimit : p.options.limits.checkLfhHeaderBytes (leNat (p.unread.take 4)) with e | _
    · rw [stepLfhSize_limit_error backend hlimit] at h
      cases h
    rw [stepLfhSize_ok backend hlimit] at h
    split at h
    · cases h
    split at h
    · exact absurd h (awaitBytes_ne_ready _ _ _ _)
    · exact ⟨hfour, hmagic, rfl, hlimit, by omega, by omega⟩
  · rw [if_neg hfour] at h
    exact absurd h (awaitBytes_ne_ready _ _ _ _)

variable (hle : n ≤ p.available) (htotal : p.absoluteOffset + p.available ≤ u64Max)
include htotal

/-- An entry whose header is read and whose payload length is within the limit. -/
theorem stepReadLfh_load {flags : GlobalFlags} {lfh : LocalFileHeader}
    (hparse : parseLfh (p.unread.take n) flags p.options.limits = .ok (lfh, n))
    (halloc : p.options.limits.allocationLen lfh.payloadSize.toNat "payload length usize" =
      .ok lfh.payloadSize.toNat)
    (hm : lfh.payloadSize.toNat ≤ ((p.advance n hle).withPending lfh (p.unread.take n)).available) :
    stepReadLfh backend flags n p =
      stepTransformingEntry backend (p.load lfh (p.unread.take n) hle hm) := by
  have hm' : lfh.payloadSize.toNat ≤ p.available - n := by
    rw [← available_advance hle]
    exact hm
  have hoff : ((p.advance n hle).withPending lfh (p.unread.take n)).absoluteOffset +
      lfh.payloadSize.toNat ≤ u64Max := by
    change (p.advance n hle).absoluteOffset + _ ≤ u64Max
    rw [absoluteOffset_advance]
    omega
  have hpending := pendingPayload_withPending (p.advance n hle) lfh (p.unread.take n)
    (by rw [options_advance]; exact halloc)
  rw [stepReadLfh_read backend hle hparse, consume_of_le hle (by omega), andThen_ok, bind_apply,
    lift_apply, halloc, andThen_ok, update_bind, stepNeedPayload_read backend hpending hm,
    consume_of_le hm hoff]
  rfl

/-- An entry event decodes a header and a payload that are there. -/
theorem stepNeedLocalFileHeader_load_iff (harch : p.archive = some archive) :
    stepNeedLocalFileHeader backend p = (.ok (.ready (.entry entry)), s) ↔
      ∃ (hthere : p.HeaderThere (leNat (p.unread.take 4))) (lfh : _),
        parseLfh (p.unread.take (leNat (p.unread.take 4))) archive.header.flags p.options.limits =
          .ok (lfh, leNat (p.unread.take 4)) ∧
        p.options.limits.allocationLen lfh.payloadSize.toNat "payload length usize" =
          .ok lfh.payloadSize.toNat ∧
        ∃ hm, stepTransformingEntry backend
          (p.load lfh (p.unread.take (leNat (p.unread.take 4))) hthere.length_le
            (m := lfh.payloadSize.toNat) hm) = (.ok (.ready (.entry entry)), s) := by
  constructor
  · intro h
    have hthere := headerThere_of_entry backend harch h
    have hn := hthere.length_le
    refine ⟨hthere, ?_⟩
    rw [hthere.stepNeedLocalFileHeader_eq backend harch] at h
    rcases hparse : parseLfh (p.unread.take (leNat (p.unread.take 4))) archive.header.flags
      p.options.limits with e | ⟨lfh, read⟩
    · rw [stepReadLfh_parse_error backend hn hparse] at h
      cases h
    by_cases hread : read = leNat (p.unread.take 4)
    · rw [hread] at hparse ⊢
      have hread := stepReadLfh_read backend hn hparse
      rw [consume_of_le hn (by omega), andThen_ok, bind_apply, lift_apply] at hread
      rcases halloc : p.options.limits.allocationLen lfh.payloadSize.toNat "payload length usize"
        with e | len <;> rw [halloc] at hread
      · cases hread.symm.trans h
      obtain rfl := (ResourceLimits.allocationLen_eq_ok_iff.mp halloc).1
      refine ⟨lfh, rfl, halloc, ?_⟩
      by_cases hm : lfh.payloadSize.toNat ≤ ((p.advance _ hn).withPending lfh
        (p.unread.take (leNat (p.unread.take 4)))).available
      · rw [stepReadLfh_load backend hn htotal hparse halloc hm] at h
        exact ⟨hm, h⟩
      · have hpending := pendingPayload_withPending (p.advance _ hn) lfh
          (p.unread.take (leNat (p.unread.take 4))) (by rw [options_advance]; exact halloc)
        rw [andThen_ok, update_bind,
          stepNeedPayload_wait backend hpending (Nat.not_le.mp hm)] at hread
        exact absurd (hread.symm.trans h) (awaitBytes_ne_ready _ _ _ _)
    · rw [stepReadLfh_length_error backend hn hparse hread] at h
      cases h
  · rintro ⟨hthere, lfh, hparse, halloc, hm, htrans⟩
    rw [hthere.stepNeedLocalFileHeader_eq backend harch,
      stepReadLfh_load backend hthere.length_le htotal hparse halloc hm]
    exact htrans

end Load

theorem Aligned.total_le (h : Aligned r header p off count) (hopen : r.Open header) :
    p.absoluteOffset + p.available ≤ u64Max := by
  have hlen := hopen.length_le
  have hoff := h.off_le
  rw [h.absoluteOffset, h.available_eq]
  omega

/-- The payload phase decodes what the reader decodes. -/
theorem Aligned.load_entry_iff (h : Aligned r header p off count) (hopen : r.Open header) {n m : ℕ}
    {lfh : LocalFileHeader} (hn : n ≤ p.available)
    (hm : m ≤ ((p.advance n hn).withPending lfh (p.unread.take n)).available)
    (hparse : parseLfh (p.unread.take n) header.flags p.options.limits = .ok (lfh, n))
    (hcount : count + 1 ≤ u64Max) :
    (∃ s, stepTransformingEntry backend (p.load lfh (p.unread.take n) hn hm) =
      (.ok (.ready (.entry entry)), s)) ↔
      lfh = entry.header ∧
        ArchiveReader.decodeOrdinaryArchiveEntryFromParts backend r header lfh off
          ((r.reader.drop off).take n) (((r.reader.drop off).drop n).take m) =
            .ok (entry.payload, entry.entryMetadata) := by
  have hload : Loaded r header (p.load lfh (p.unread.take n) hn hm) _ _ count := h.loaded hn hm
  have hrest : ((p.advance n hn).withPending lfh (p.unread.take n)).unread =
      (r.reader.drop off).drop n := by
    rw [← h.unread]
    exact unread_advance hn
  have hoptions := hload.options
  have hkey := hload.keyProvider
  rw [hload.step_entry_iff backend rfl hcount]
  generalize p.load lfh (p.unread.take n) hn hm = q at hoptions hkey
  rw [absoluteOffset_advance, h.absoluteOffset, hrest]
  rw [h.unread, h.options] at hparse
  rw [h.unread]
  obtain ⟨hsize, -, -, hvalid⟩ := parseLfh_eq_ok hparse
  have hmode : lfh.entryMode.isEncrypted = true → header.flags.encrypted = true := by
    intro henc
    simp only [validateEntryModeAgainstGlobal, bind_eq_ok_iff, exists_unit,
      rejectIf_eq_ok_iff, henc] at hvalid
    simpa using hvalid.2.2.2.1
  have heq : ∀ payload, decodeParts backend q ⟨header, globalHeaderFlagsBytes header, count⟩ lfh
      ((r.reader.drop off).take n) payload (off + n) = _ := fun payload =>
    decodeParts_eq backend hoptions hkey hopen.flagsSection_eq.symm hmode
      (by omega : off + n = lfh.headerSize.toNat + off)
  rw [heq, map_eq_ok_iff]
  constructor
  · rintro ⟨⟨bytes, record⟩, hdecode, rfl⟩
    exact ⟨rfl, hdecode⟩
  · rintro ⟨rfl, hdecode⟩
    exact ⟨_, hdecode, rfl⟩

/-- An entry event: there is such an entry in the file, and the parser is behind it. -/
theorem Aligned.of_step_entry (hp : Aligned r header p off count) (hopen : r.Open header)
    (hstep : step backend p = (.ok (.ready (.entry entry)), s)) :
    ∃ n, EntryAt backend r header off entry n ∧ Aligned r header s (off + n) (count + 1) := by
  obtain ⟨q, h, heq⟩ := hp.step_eq backend
  rw [heq, stepNeedLocalFileHeader_load_iff backend (h.total_le hopen) h.archive] at hstep
  obtain ⟨⟨hfour, _, _, hlimit, hge, hn⟩, lfh, hparse, halloc, hm, htrans⟩ := hstep
  have hav := h.available_eq
  have hlen := hopen.length_le
  have hcount := h.count_le
  have hm' : lfh.payloadSize.toNat ≤ q.available - leNat (q.unread.take 4) :=
    hm.trans_eq (available_advance hn)
  obtain ⟨rfl, hdecode⟩ :=
    (h.load_entry_iff backend hopen hn hm hparse (by omega)).mp ⟨s, htrans⟩
  have hload : Loaded r header (q.load _ _ hn hm) _ _ count := h.loaded hn hm
  refine ⟨leNat (q.unread.take 4) + entry.header.payloadSize.toNat, ?_, ?_⟩
  · rw [h.options] at hlimit hparse halloc
    rw [← h.unread] at hdecode
    have hav' := StreamArchiveParser.available_eq q
    refine ⟨?_, ?_, ?_, ?_, halloc, ?_, ?_, ?_⟩ <;> rw [← h.unread]
    · omega
    · exact hlimit
    · exact hge
    · exact hparse
    · omega
    · exact hdecode
  · rw [← Nat.add_assoc]
    exact hload.aligned backend (by omega) (by omega) htrans

/-- An entry in the file gives an entry event, unless an archive starts there. -/
theorem Aligned.step_of_entryAt (hp : Aligned r header p off count) (hopen : r.Open header) {n : ℕ}
    (hmagic : p.unread.take 4 ≠ magic) (hentry : EntryAt backend r header off entry n) :
    ∃ s, step backend p = (.ok (.ready (.entry entry)), s) := by
  obtain ⟨q, h, heq⟩ := hp.step_eq backend
  obtain ⟨hfour, hlimit, hge, hparse, halloc, rfl, hle, hdecode⟩ := hentry
  rw [hp.unread, ← h.unread] at hmagic
  rw [← h.unread, ← StreamArchiveParser.available_eq] at hfour hle
  rw [← h.unread, ← h.options] at hlimit hparse
  rw [← h.unread] at hge hdecode
  rw [← h.options] at halloc
  have hn : leNat (q.unread.take 4) ≤ q.available := by omega
  have hm : entry.header.payloadSize.toNat ≤ ((q.advance _ hn).withPending entry.header
      (q.unread.take (leNat (q.unread.take 4)))).available := by
    change _ ≤ (q.advance _ hn).available
    rw [available_advance]
    omega
  have hav := h.available_eq
  have hlen := hopen.length_le
  have hcount := h.count_le
  rw [h.unread] at hdecode
  obtain ⟨s, hs⟩ := (h.load_entry_iff backend hopen hn hm hparse (by omega)).mpr
    ⟨rfl, by rw [h.unread]; exact hdecode⟩
  rw [heq]
  exact ⟨s, (stepNeedLocalFileHeader_load_iff backend (h.total_le hopen) h.archive).mpr
    ⟨⟨hfour, hmagic, rfl, hlimit, hge, hn⟩, entry.header, hparse, halloc, hm, hs⟩⟩

/-- At the end of the file the archive is over, and so is the stream. -/
theorem Aligned.step_at_end (hp : Aligned r header p off count) (hend : off = r.reader.length) :
    ∃ s, step backend p =
        (.ok (.ready (.archiveComplete ⟨count, header.flags, !header.flags.noIndex⟩)), s) ∧
      step backend s = (.ok .complete, s) := by
  obtain ⟨q, h, heq⟩ := hp.step_eq backend
  have hzero : q.available = 0 := by
    rw [h.available_eq]
    omega
  rw [heq, stepNeedLocalFileHeader_of_some backend h.archive, if_pos hzero, if_pos h.finalized,
    finishArchive_of_some h.archive]
  refine ⟨_, rfl, ?_⟩
  have hdone : (q.finalized && q.available == 0) = true := by
    rw [h.finalized, hzero]
    rfl
  rw [step_of_needGlobalHeader backend rfl]
  simp only [stepNeedGlobalHeader, bind_apply, current_apply, andThen_ok]
  exact if_pos hdone ▸ rfl

/-! ### All entries -/

end StreamArchiveParser

/-- The entries that `next_entry` hands out until there is none. -/
inductive ArchiveReader.Lists : ArchiveReader → List EntryReader → Prop
  | done {self r : ArchiveReader} : nextEntry backend self = .ok (none, r) → Lists self []
  | entry {self r : ArchiveReader} {entry : EntryReader} {entries : List EntryReader} :
      nextEntry backend self = .ok (some entry, r) → Lists r entries → Lists self (entry :: entries)

namespace ArchiveReader

variable {self : ArchiveReader} {header : GlobalHeader}

theorem Open.at_offset (h : self.Open header) (off : ℕ) :
    ({ self with nextOffset := off } : ArchiveReader).Open header :=
  ⟨h.globalHeader_eq, h.flagsSection_eq, h.dataEnd_eq, h.length_le⟩

/-- With enough calls the loop returns. -/
theorem readEntries_eq_some_iff (hopen : self.Open header) {fuel : ℕ}
    (hfuel : self.reader.length - self.nextOffset < fuel) {entries : List EntryReader} :
    readEntries backend fuel self = some (.ok entries) ↔ Lists backend self entries := by
  induction fuel generalizing self entries with
  | zero => exact absurd hfuel (Nat.not_lt_zero _)
  | succ fuel ih =>
    rw [readEntries]
    rcases hnext : nextEntry backend self with e | ⟨_ | entry, r⟩
    · constructor
      · intro h
        cases h
      · rintro (hdone | ⟨hentry, -⟩)
        · cases hdone.symm.trans hnext
        · cases hentry.symm.trans hnext
    · constructor
      · intro h
        obtain rfl : [] = entries := ok.inj (Option.some.inj h)
        exact .done hnext
      · rintro (hdone | ⟨hentry, -⟩)
        · rfl
        · cases hentry.symm.trans hnext
    · obtain ⟨off, hlt, hle, rfl⟩ := nextEntry_advances backend self hnext
      rw [hopen.dataEnd_eq] at hle
      have hfuel' : self.reader.length - off < fuel := by omega
      have ih' : ∀ es,
          readEntries backend fuel { self with nextOffset := off } = some (.ok es) ↔ _ :=
        fun es => ih (hopen.at_offset off) hfuel'
      constructor
      · intro h
        obtain ⟨rest, hrest, heq⟩ := Option.map_eq_some_iff.mp h
        obtain ⟨es, rfl, rfl⟩ := map_eq_ok_iff.mp heq
        exact .entry hnext ((ih' es).mp hrest)
      · rintro (hdone | ⟨hentry, hrest⟩)
        · cases hdone.symm.trans hnext
        · obtain ⟨heq, rfl⟩ := Prod.mk.inj (ok.inj (hentry.symm.trans hnext))
          obtain rfl := Option.some.inj heq
          exact congrArg (Option.map _) ((ih' _).mpr hrest)

/-- The bytes of an entry in the file: its header, as it is written, and the stored payload. -/
def Spans (flags : GlobalFlags) (entry : EntryReader) (raw : Bytes) : Prop :=
  ∃ lfhBytes payload, writeLfh flags entry.header = .ok lfhBytes ∧
    payload.length = entry.header.payloadSize.toNat ∧ raw = lfhBytes ++ payload

/-- The entries that are handed out take up the rest of the file. -/
theorem Lists.spans {entries : List EntryReader} (h : Lists backend self entries)
    (hopen : self.Open header) :
    ∃ raws : List Bytes, self.reader.drop self.nextOffset = raws.flatten ∧
      Forall₂ (Spans header.flags) entries raws := by
  induction h with
  | done hnext =>
    obtain ⟨hend, -⟩ := (nextEntry_eq_none_iff backend hopen).mp hnext
    exact ⟨[], drop_eq_nil_of_le hend, .nil⟩
  | @entry self _ entry _ hnext _ ih =>
    obtain ⟨n, hat, -, rfl⟩ := (nextEntry_eq_some_iff backend hopen).mp hnext
    obtain ⟨raws, hraws, hall⟩ := ih (hopen.at_offset _)
    have hwrite := writeLfh_of_parseLfh hat.parse_eq
    rw [take_take, min_self] at hwrite
    have hle := hat.length_eq ▸ hat.length_le
    have hspan : Spans header.flags entry ((self.reader.drop self.nextOffset).take n) := by
      refine ⟨_, _, hwrite, ?_, by rw [hat.length_eq, take_add]⟩
      rw [length_take, length_drop]
      omega
    refine ⟨_ :: raws, ?_, .cons hspan hall⟩
    rw [flatten_cons, ← hraws, ← drop_drop, take_append_drop]

end ArchiveReader

/-! ### Runs -/

namespace StreamArchiveParser

variable {self : ArchiveReader} {header : GlobalHeader} {p q : StreamArchiveParser} {off count : ℕ}
  {entries : List EntryReader}

theorem Aligned.at_offset (h : Aligned self header p off count) (next : ℕ) :
    Aligned { self with nextOffset := next } header p off count :=
  ⟨h.state, h.options, h.keyProvider, h.finalized, h.archive, h.unread, h.absoluteOffset, h.off_le,
    h.count_le⟩

/-- A header size that is the magic number is over the limit. -/
theorem EntryAt.ne_magic {entry : EntryReader} {n : ℕ}
    (hsmall : self.options.limits.maxLfhHeaderBytes < 0x21524153)
    (h : EntryAt backend self header off entry n) : (self.reader.drop off).take 4 ≠ magic := by
  intro hmagic
  have hlimit := h.size_limit
  rw [hmagic] at hlimit
  have hle : leNat magic ≤ self.options.limits.maxLfhHeaderBytes :=
    ResourceLimits.atMost_eq_ok_iff.mp hlimit
  have hvalue : leNat magic = 0x21524153 := by decide
  omega

/-- The Local File Headers of a data area, each behind the payload of the one before it. -/
def lfhChain (flags : GlobalFlags) (limits : ResourceLimits) : ℕ → Bytes → List LocalFileHeader
  | 0, _ => []
  | fuel + 1, rest =>
    match parseLfh rest flags limits with
    | .error _ => []
    | .ok (lfh, n) => lfh :: lfhChain flags limits fuel (rest.drop (n + lfh.payloadSize.toNat))

theorem EntryAt.lfhChain_eq {entry : EntryReader} {n fuel : ℕ}
    (h : EntryAt backend self header off entry n) :
    lfhChain header.flags self.options.limits (fuel + 1) (self.reader.drop off) =
      entry.header ::
        lfhChain header.flags self.options.limits fuel (self.reader.drop (off + n)) := by
  have hparse := parseLfh_append_of_ok h.parse_eq
    ((self.reader.drop off).drop (leNat ((self.reader.drop off).take 4)))
  rw [take_append_drop] at hparse
  simp only [lfhChain, hparse, drop_drop, h.length_eq]

/-- The events of one archive. -/
def archiveEvents (header : GlobalHeader) (count : ℕ) (entries : List EntryReader) :
    List StreamEvent :=
  entries.map .entry ++
    [.archiveComplete ⟨count + entries.length, header.flags, !header.flags.noIndex⟩]

/-- What the reader lists, the parser emits. -/
theorem drains_of_lists (hsmall : self.options.limits.maxLfhHeaderBytes < 0x21524153)
    (hopen : self.Open header) (hlists : ArchiveReader.Lists backend self entries)
    (hp : Aligned self header p self.nextOffset count) :
    (∀ entry ∈ entries, ArchiveReader.isControlEntry entry.header = false) ∧
      ∃ q, Drains (machine backend) (fun _ => True) p (archiveEvents header count entries) .done
        q := by
  induction hlists generalizing p count with
  | done hnext =>
    obtain ⟨hend, -⟩ := (ArchiveReader.nextEntry_eq_none_iff backend hopen).mp hnext
    obtain ⟨s, hs, hdone⟩ := hp.step_at_end backend (Nat.le_antisymm hp.off_le hend)
    refine ⟨(fun _ h => nomatch h), s, ?_⟩
    exact .ready trivial ((machine_step_ready_iff backend).mpr hs)
      (.stop trivial ((machine_step_done_iff backend).mpr hdone))
  | @entry self r entry entries hnext _ ih =>
    obtain ⟨n, hentry, hctl, rfl⟩ := (ArchiveReader.nextEntry_eq_some_iff backend hopen).mp hnext
    have hmagic : p.unread.take 4 ≠ magic := by
      rw [hp.unread]
      exact EntryAt.ne_magic backend hsmall hentry
    obtain ⟨s, hs⟩ := hp.step_of_entryAt backend hopen hmagic hentry
    obtain ⟨m, hentry', hs'⟩ := hp.of_step_entry backend hopen hs
    obtain rfl : m = n := hentry'.length_eq.trans hentry.length_eq.symm
    obtain ⟨hall, q, hd⟩ := ih hsmall (hopen.at_offset _) (hs'.at_offset _)
    refine ⟨forall_mem_cons.mpr ⟨hctl, hall⟩, q, ?_⟩
    have hevents : archiveEvents header count (entry :: entries) =
        .entry entry :: archiveEvents header (count + 1) entries := by
      simp only [archiveEvents, map_cons, length_cons, cons_append,
        Nat.add_comm entries.length 1, Nat.add_assoc]
    rw [hevents]
    exact .ready trivial ((machine_step_ready_iff backend).mpr hs) hd

/-- What the parser emits for one archive, the reader lists, if there are no control entries. -/
theorem lists_of_drains {summary : StreamArchiveSummary} {fuel : ℕ} (hopen : self.Open header)
    (hp : Aligned self header p self.nextOffset count)
    (hfuel : self.reader.length - self.nextOffset ≤ fuel)
    (hall : ∀ lfh ∈ lfhChain header.flags self.options.limits fuel
      (self.reader.drop self.nextOffset), ArchiveReader.isControlEntry lfh = false)
    (hd : Drains (machine backend) (fun _ => True) p
      (entries.map .entry ++ [.archiveComplete summary]) .done q) :
    ArchiveReader.Lists backend self entries := by
  induction entries generalizing self p count fuel with
  | nil =>
    cases hd with
    | ready _ hstep hrest =>
      cases hrest with
      | stop _ hdone =>
        -- a stream that is over after the archive ends where the file ends
        have hout := outcome_step backend p
        rw [(machine_step_ready_iff backend).mp hstep] at hout
        cases hout with
        | summary =>
          have hout := outcome_step backend
            { p with archive := none, pendingEntry := none, state := .needGlobalHeader }
          rw [(machine_step_done_iff backend).mp hdone] at hout
          cases hout with
          | complete _ _ hzero =>
            have hav := hp.available_eq
            have hoff := hp.off_le
            change p.available = 0 at hzero
            exact .done ((ArchiveReader.nextEntry_eq_none_iff backend hopen).mpr
              ⟨by omega, rfl⟩)
  | cons entry entries ih =>
    cases hd with
    | ready _ hstep hrest =>
      obtain ⟨n, hentry, hs⟩ := hp.of_step_entry backend hopen
        ((machine_step_ready_iff backend).mp hstep)
      have hge := hentry.size_ge
      have hlen := hentry.length_eq
      have hthere := hentry.size_there
      rw [length_drop] at hthere
      obtain ⟨fuel, rfl⟩ : ∃ k, fuel = k + 1 := ⟨fuel - 1, by omega⟩
      rw [EntryAt.lfhChain_eq backend hentry, forall_mem_cons] at hall
      refine .entry ((ArchiveReader.nextEntry_eq_some_iff backend hopen).mpr
        ⟨n, hentry, hall.1, rfl⟩) (ih (hopen.at_offset _) (hs.at_offset _) ?_ hall.2 hrest)
      change self.reader.length - (self.nextOffset + n) ≤ fuel
      omega

/-! ### The whole file -/

/-- Push the whole file, declare the end of the input, and step to the end. -/
def runWhole (options : ArchiveReaderOptions) (keyProvider : Option KeyProvider) (file : Bytes) :
    Option (List StreamEvent × StreamEnd) :=
  match pushBytes file (withOptions options keyProvider) with
  | (.error _, _) => some ([], .pushRejected)
  | (.ok _, p) => ((machine backend).drain p.finalizeInput).map fun r => (r.1, endOf r.2.1)

/-- The Local File Headers of a file. -/
def entryHeaders (limits : ResourceLimits) (file : Bytes) : List LocalFileHeader :=
  match parseGlobalHeader file limits with
  | .error _ => []
  | .ok (header, n) => lfhChain header.flags limits file.length (file.drop n)

/-- Outside mode 4 both check the key-management parameters alike. -/
theorem checkKms_eq_ok_iff {input : Bytes} {limits : ResourceLimits} {n : ℕ}
    (hparse : parseGlobalHeader input limits = .ok (header, n))
    (hmode : ∀ kms, header.kms = some kms → kms.modeId ≠ kmsTlsExporter) :
    ArchiveReader.checkKms header = .ok () ↔ checkKmsContext header = .ok () := by
  have hsome := (parseGlobalHeader_shape hparse).kms_isSome
  rw [ArchiveReader.checkKms, checkKmsContext]
  rcases hkms : header.kms with _ | kms
  · rw [hkms] at hsome
    rw [← hsome]
    exact Iff.rfl
  · rw [hkms] at hsome
    have hne := hmode kms hkms
    simp only [← hsome, Option.isSome_some, if_true, if_pos hne, buildKmsContext, hkms,
      okOr_some, ok_bind, kmsParamsOf, if_neg hne]
    rcases parseKmsPayload kms.modeId kms.payload with e | params <;> exact Iff.rfl

section File

variable {options : ArchiveReaderOptions} {keyProvider : Option KeyProvider} {file : Bytes}

/-- The parser that holds the whole file. -/
def whole (options : ArchiveReaderOptions) (keyProvider : Option KeyProvider) (file : Bytes) :
    StreamArchiveParser :=
  ((withOptions options keyProvider).more file false).finalizeInput

theorem unread_whole : (whole options keyProvider file).unread = file :=
  unread_more file false (withOptions options keyProvider)

theorem runWhole_eq (hsize : options.limits.checkArchiveSize file.length = .ok ())
    (hfile : file.length ≤ u64Max) :
    runWhole backend options keyProvider file =
      ((machine backend).drain (whole options keyProvider file)).map fun r =>
        (r.1, endOf r.2.1) := by
  have hpush : pushBytes file (withOptions options keyProvider) =
      (.ok (), (withOptions options keyProvider).more file false) := by
    refine pushBytes_eq_ok_iff.mpr ⟨?_, ?_, rfl⟩
    · change 0 + 0 + file.length ≤ u64Max
      omega
    · change options.limits.checkArchiveSize (0 + 0 + file.length) = _
      rwa [Nat.zero_add]
  rw [runWhole, hpush]
  rfl

/-- The reader that has opened the file. -/
def openReader (options : ArchiveReaderOptions) (keyProvider : Option KeyProvider) (file : Bytes)
    (header : GlobalHeader) (n : ℕ) : ArchiveReader where
  reader := file
  options
  globalHeader := some header
  globalFlagsSection := globalHeaderFlagsBytes header
  headerLen := n
  dataEnd := file.length
  nextOffset := n
  fileLen := file.length
  cd := none
  keyProvider

theorem open_openReader {n : ℕ} (hfile : file.length ≤ u64Max) :
    (openReader options keyProvider file header n).Open header :=
  ⟨rfl, rfl, rfl, hfile⟩

/-- What reading the file comes to. -/
theorem readArchive_eq_ok_iff (hsize : options.limits.checkArchiveSize file.length = .ok ())
    (hfile : file.length ≤ u64Max)
    (hidx : ∀ header n, parseGlobalHeader file options.limits = .ok (header, n) →
      header.flags.noIndex = true) :
    readArchive backend options keyProvider file = some (.ok (header, entries)) ↔
      ∃ n, parseGlobalHeader file options.limits = .ok (header, n) ∧
        ArchiveReader.checkKms header = .ok () ∧
        ArchiveReader.Lists backend (openReader options keyProvider file header n) entries := by
  obtain ⟨self, hself, hreader, hoptions, hopened⟩ :
      ∃ self, ArchiveReader.withOptions file options keyProvider = .ok self ∧
        self.reader = file ∧ self.options = options ∧
        ∀ header n, self.opened header n = openReader options keyProvider file header n := by
    refine ⟨_, by rw [ArchiveReader.withOptions, hsize]; rfl, rfl, rfl, fun _ _ => rfl⟩
  have hread : ∀ {header r}, self.readGlobalHeader = .ok (header, r) ↔
      ∃ n, parseGlobalHeader file options.limits = .ok (header, n) ∧
        ArchiveReader.checkKms header = .ok () ∧
        r = openReader options keyProvider file header n := by
    intro header r
    constructor
    · intro h
      obtain ⟨n, hparse⟩ := self.parse_of_readGlobalHeader h
      rw [hreader, hoptions] at hparse
      obtain ⟨n, hparse, hkms, rfl⟩ :=
        (self.readGlobalHeader_eq_ok_iff (hidx header n hparse)).mp h
      rw [hreader, hoptions] at hparse
      exact ⟨n, hparse, hkms, hopened header n⟩
    · rintro ⟨n, hparse, hkms, rfl⟩
      refine (self.readGlobalHeader_eq_ok_iff (hidx header n hparse)).mpr
        ⟨n, ?_, hkms, (hopened header n).symm⟩
      rwa [hreader, hoptions]
  have hlists : ∀ {header n}, ArchiveReader.readEntries backend (file.length + 1)
      (openReader options keyProvider file header n) = some (.ok entries) ↔
      ArchiveReader.Lists backend (openReader options keyProvider file header n) entries :=
    fun {header n} => ArchiveReader.readEntries_eq_some_iff backend (open_openReader hfile)
      (Nat.lt_succ_of_le (Nat.sub_le _ _))
  rw [readArchive, hself]
  dsimp only
  rcases hgh : self.readGlobalHeader with e | ⟨header', r⟩
  · refine iff_of_false (fun h => nomatch h) ?_
    rintro ⟨n, hparse, hkms, -⟩
    cases hgh.symm.trans (hread.mpr ⟨n, hparse, hkms, rfl⟩)
  · obtain ⟨n, hparse, hkms, rfl⟩ := hread.mp hgh
    dsimp only
    constructor
    · intro h
      obtain ⟨x, hx, hmap⟩ := Option.map_eq_some_iff.mp h
      obtain ⟨entries', rfl, hpair⟩ := map_eq_ok_iff.mp hmap
      obtain ⟨rfl, rfl⟩ := Prod.mk.inj hpair
      exact ⟨n, hparse, hkms, hlists.mp hx⟩
    · rintro ⟨m, hparse', -, hl⟩
      obtain ⟨rfl, rfl⟩ := Prod.mk.inj (ok.inj (hparse.symm.trans hparse'))
      rw [hlists.mpr hl]
      rfl

/-- **No byte of an archive is left out.** An archive without index that is read to the end is its
Global Header followed by its entries, each a header that is written the way it stands there and
as many bytes as it announces. -/
theorem spans_of_readArchive (hsize : options.limits.checkArchiveSize file.length = .ok ())
    (hfile : file.length ≤ u64Max)
    (hidx : ∀ header n, parseGlobalHeader file options.limits = .ok (header, n) →
      header.flags.noIndex = true)
    (h : readArchive backend options keyProvider file = some (.ok (header, entries))) :
    ∃ n raws, parseGlobalHeader file options.limits = .ok (header, n) ∧
      file = file.take n ++ raws.flatten ∧
      Forall₂ (ArchiveReader.Spans header.flags) entries raws := by
  obtain ⟨n, hparse, -, hlists⟩ := (readArchive_eq_ok_iff backend hsize hfile hidx).mp h
  obtain ⟨raws, hraws, hall⟩ := hlists.spans backend (open_openReader hfile)
  exact ⟨n, raws, hparse, hraws ▸ (take_append_drop n file).symm, hall⟩

/-- Behind the Global Header the parser stands where the reader does. -/
theorem aligned_advance {n : ℕ} (hidx : header.flags.noIndex = true) (hn : n ≤ file.length)
    (h : n ≤ (whole options keyProvider file).available) :
    Aligned (openReader options keyProvider file header n) header
      (((whole options keyProvider file).advance n h).withArchive header) n 0 where
  state := .inl (if_pos hidx)
  options := options_advance h
  keyProvider := keyProvider_advance h
  finalized := finalized_advance h
  archive := rfl
  unread := (unread_advance h).trans (congrArg (List.drop n) unread_whole)
  absoluteOffset := (absoluteOffset_advance h).trans (Nat.zero_add n)
  off_le := hn
  count_le := Nat.zero_le n

/-- The first step reads the Global Header. -/
theorem step_whole_iff (hfile : file.length ≤ u64Max) {s : StreamArchiveParser} :
    step backend (whole options keyProvider file) = (.ok (.ready (.globalHeader header)), s) ↔
      ∃ n, parseGlobalHeader file options.limits = .ok (header, n) ∧
        checkKmsContext header = .ok () ∧ ∃ h : n ≤ (whole options keyProvider file).available,
          s = ((whole options keyProvider file).advance n h).withArchive header := by
  rw [step_header_iff backend rfl, unread_whole]
  constructor
  · rintro ⟨_, n, hparse, hkms, -, heq, hle, rfl⟩
    cases heq
    exact ⟨n, hparse, hkms, hle, rfl⟩
  · rintro ⟨n, hparse, hkms, hle, rfl⟩
    have hn := (parseGlobalHeader_shape hparse).length_le
    refine ⟨header, n, hparse, hkms, ?_, rfl, hle, rfl⟩
    change 0 + n ≤ u64Max
    omega

end File

end StreamArchiveParser

/-- Reading a file and parsing it as a stream accept the same archives and hand out the same Global
Header and the same entries. The archive has no index and no mode-4 key parameters, none of its
entries is a control record, and a header of the size the magic number spells is over the limit. -/
theorem readArchive_iff_runWhole (options : ArchiveReaderOptions)
    (keyProvider : Option KeyProvider) (file : Bytes)
    (hsize : options.limits.checkArchiveSize file.length = .ok ())
    (hfile : file.length ≤ u64Max)
    (hsmall : options.limits.maxLfhHeaderBytes < 0x21524153)
    (hheader : ∀ header n, parseGlobalHeader file options.limits = .ok (header, n) →
      header.flags.noIndex = true ∧ ∀ kms, header.kms = some kms → kms.modeId ≠ kmsTlsExporter)
    (hentries : ∀ lfh ∈ StreamArchiveParser.entryHeaders options.limits file,
      ArchiveReader.isControlEntry lfh = false)
    (header : GlobalHeader) (entries : List EntryReader) :
    readArchive backend options keyProvider file = some (.ok (header, entries)) ↔
      ∃ summary, StreamArchiveParser.runWhole backend options keyProvider file =
        some (.globalHeader header :: (entries.map .entry ++ [.archiveComplete summary]),
          .complete) := by
  open StreamArchiveParser in
  rw [readArchive_eq_ok_iff backend hsize hfile fun header n h => (hheader header n h).1,
    runWhole_eq backend hsize hfile]
  constructor
  · rintro ⟨n, hparse, hkms, hlists⟩
    obtain ⟨hidx, hmode⟩ := hheader header n hparse
    have hn := (parseGlobalHeader_shape hparse).length_le
    have hle : n ≤ (whole options keyProvider file).available := by
      rwa [available_eq, unread_whole]
    have hstep := (step_whole_iff backend hfile).mpr
      ⟨n, hparse, (checkKms_eq_ok_iff hparse hmode).mp hkms, hle, rfl⟩
    obtain ⟨-, q, hd⟩ := drains_of_lists backend hsmall (open_openReader hfile) hlists
      (aligned_advance hidx hn hle)
    have hwhole : Drains (machine backend) (fun _ => True) (whole options keyProvider file)
        (.globalHeader header :: archiveEvents header 0 entries) .done q :=
      .ready trivial ((machine_step_ready_iff backend).mpr hstep) hd
    refine ⟨⟨0 + entries.length, header.flags, !header.flags.noIndex⟩, ?_⟩
    rw [hwhole.drain_eq (progress_machine backend)]
    rfl
  · rintro ⟨summary, hrun⟩
    obtain ⟨es, why, q, hd, hdrain⟩ := exists_drains (fun _ => True) (progress_machine backend)
      (p := whole options keyProvider file) (fun _ _ => trivial)
    rw [hdrain] at hrun
    obtain ⟨rfl, hend⟩ := Prod.mk.inj (Option.some.inj hrun)
    obtain rfl : why = .done := endOf_eq_complete_iff.mp hend
    cases hd with
    | ready _ hstep hrest =>
      obtain ⟨n, hparse, hkms, hle, rfl⟩ :=
        (step_whole_iff backend hfile).mp ((machine_step_ready_iff backend).mp hstep)
      obtain ⟨hidx, hmode⟩ := hheader header n hparse
      have hn := (parseGlobalHeader_shape hparse).length_le
      refine ⟨n, hparse, (checkKms_eq_ok_iff hparse hmode).mpr hkms, ?_⟩
      refine lists_of_drains backend (open_openReader hfile) (aligned_advance hidx hn hle)
        (Nat.sub_le _ _) ?_ hrest
      intro lfh hlfh
      refine hentries lfh ?_
      rw [entryHeaders, hparse]
      exact hlfh

/-- An archive of one empty file `b`. -/
def oneFile : Bytes :=
  [0x53, 0x41, 0x52, 0x21, 1, 0, 4, 0, 2, 0, 0, 0,
    21, 0, 0, 0, 0, 0, 0, 0, 0, 0, 0, 0, 0, 0, 0, 0, 0, 0, 1, 0, 98]

/-- That archive, read and parsed. -/
theorem readArchive_iff_runWhole_oneFile :
    ∃ header entries summary,
      readArchive .plain ⟨.default, none⟩ none oneFile = some (.ok (header, entries)) ∧
      entries.map (fun entry => entry.header.name) = [[98]] ∧
      StreamArchiveParser.runWhole .plain ⟨.default, none⟩ none oneFile =
        some (.globalHeader header :: (entries.map .entry ++ [.archiveComplete summary]),
          .complete) := by
  have hread : (readArchive .plain ⟨.default, none⟩ none oneFile).map
      (fun r => r.map fun x => x.2.map fun entry => entry.header.name) = some (.ok [[98]]) := by
    decide +kernel
  obtain ⟨r, hr, hnames⟩ := Option.map_eq_some_iff.mp hread
  obtain ⟨⟨header, entries⟩, hok, hnames⟩ := map_eq_ok_iff.mp hnames
  rw [hok] at hr
  have hheader : ∀ header n, parseGlobalHeader oneFile .default = .ok (header, n) →
      header.flags.noIndex = true ∧
        ∀ kms, header.kms = some kms → kms.modeId ≠ kmsTlsExporter := by
    intro header n h
    have hparts : (parseGlobalHeader oneFile .default).map
        (fun r => (r.1.flags.noIndex, r.1.kms)) = .ok (true, none) := by decide +kernel
    rw [h] at hparts
    obtain ⟨hidx, hkms⟩ := Prod.mk.inj (ok.inj hparts)
    refine ⟨hidx, fun kms hsome => ?_⟩
    cases hsome.symm.trans hkms
  have hsize : ResourceLimits.default.checkArchiveSize oneFile.length = .ok () := by decide
  have hfile : oneFile.length ≤ u64Max := by decide
  have hsmall : ResourceLimits.default.maxLfhHeaderBytes < 0x21524153 := by decide
  have hentries : ∀ lfh ∈ StreamArchiveParser.entryHeaders .default oneFile,
      ArchiveReader.isControlEntry lfh = false := by decide +kernel
  obtain ⟨summary, hrun⟩ := (readArchive_iff_runWhole .plain ⟨.default, none⟩ none oneFile hsize
    hfile hsmall hheader hentries header entries).mp hr
  exact ⟨header, entries, summary, hr, hnames, hrun⟩

/-- The only entry of that archive fills all of it behind the Global Header. -/
theorem spans_of_readArchive_oneFile :
    ∃ header entry n raws, parseGlobalHeader oneFile .default = .ok (header, n) ∧
      oneFile = oneFile.take n ++ raws.flatten ∧
      Forall₂ (ArchiveReader.Spans header.flags) [entry] raws := by
  obtain ⟨header, entry, h⟩ : ∃ header entry, readArchive .plain ⟨.default, none⟩ none oneFile =
      some (.ok (header, [entry])) := ⟨_, _, rfl⟩
  have hspans := StreamArchiveParser.spans_of_readArchive .plain (by decide) (by decide)
    (fun header n hparse => by cases hparse; rfl) h
  exact ⟨header, entry, hspans⟩

end Sar
