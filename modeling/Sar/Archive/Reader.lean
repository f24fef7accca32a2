import Sar.Archive.Decode

/-!
# The seekable reader

`ArchiveReader` over a file given by its contents: the Global Header with the index of an
indexed archive, and the entries one after the other. Every read first seeks to its position, so
the position of the file is not part of the state.

## Main definitions and results

* `readGlobalHeader`, `nextEntry` — the two operations; a failed call leaves the reader alone.
* `readArchive` — the Global Header, then the entries until there are none left.
* `readGlobalHeader_eq_ok_iff` — for archives without index, what the reader accepts is what
  `parseGlobalHeader` accepts on the file, with parameters the key management accepts.
* `readEntries_isSome` — the loop over the entries ends.
-/

namespace Sar

open Except (rejectIf liftError okOr bind_eq_ok_iff pure_eq_ok exists_unit rejectIf_eq_ok_iff
  ok.injEq)
open LittleEndian List

/-- A seek followed by `read_exact`. -/
def readExactAt (file : Bytes) (offset len : ℕ) : Result Bytes := do
  rejectIf (len > (file.drop offset).length) (.io "failed to fill whole buffer")
  pure ((file.drop offset).take len)

@[simp]
theorem readExactAt_eq_ok_iff {file bytes : Bytes} {offset len : ℕ} :
    readExactAt file offset len = .ok bytes ↔
      len ≤ file.length - offset ∧ bytes = (file.drop offset).take len := by
  simp only [readExactAt, bind_eq_ok_iff, exists_unit, rejectIf_eq_ok_iff,
    pure_eq_ok, ok.injEq, length_drop, gt_iff_lt, not_lt, eq_comm (a := bytes)]

namespace ArchiveReader

variable (backend : Backend) (self : ArchiveReader)

/-- `with_options` and `with_key_provider`. -/
def withOptions (reader : Bytes) (options : ArchiveReaderOptions)
    (keyProvider : Option KeyProvider) : Result ArchiveReader := do
  options.limits.checkArchiveSize reader.length
  pure
    { reader, options
      globalHeader := none
      globalFlagsSection := []
      headerLen := 0
      dataEnd := 0
      nextOffset := 0
      fileLen := reader.length
      cd := none
      keyProvider }

/-! ### The Global Header -/

/-- The key-management extension at a position. -/
def readKmsBytes (start : ℕ) : Result Bytes := do
  let kmsStart ← readExactAt self.reader start 5
  let payloadLen := leNat ((kmsStart.drop 1).take 4)
  self.options.limits.checkKmsPayloadBytes payloadLen
  let payload ← readExactAt self.reader (start + 5) payloadLen
  pure (kmsStart ++ payload)

/-- A part of the header that is there when the flags announce it. -/
def readIf (announced : Bool) (part : Result Bytes) : Result Bytes :=
  if announced then part else pure []

/-- The bytes of the Global Header, collected part by part. -/
def readHeaderBytes : Result Bytes := do
  let fixed ← readExactAt self.reader 0 8
  let flagsSize := leNat (fixed.drop 6)
  rejectIf (flagsSize < 4) (.invalidLength "global flags size must be >= 4")
  self.options.limits.checkGlobalFlagsBytes flagsSize
  let flagsBuf ← readExactAt self.reader 8 flagsSize
  let flags := flagsOfBytes flagsBuf
  validateGlobalFlags flags
  let descriptor ←
    readIf flags.partitionedArchive (readExactAt self.reader (8 + flagsSize) 96)
  let kms ← readIf flags.encrypted (self.readKmsBytes (8 + flagsSize + descriptor.length))
  pure (fixed ++ (flagsBuf ++ (descriptor ++ kms)))

variable {bytes : Bytes}

theorem readKmsBytes_eq_ok {start : ℕ} (h : self.readKmsBytes start = .ok bytes) :
    bytes = (self.reader.drop start).take bytes.length := by
  simp only [readKmsBytes, bind_eq_ok_iff, exists_unit, readExactAt_eq_ok_iff,
    pure_eq_ok, ok.injEq] at h
  obtain ⟨kmsStart, ⟨hfive, rfl⟩, -, payload, ⟨hlen, rfl⟩, rfl⟩ := h
  rw [← drop_drop, ← take_add, length_take]
  simp

theorem readIf_eq_ok (file : Bytes) (start : ℕ) {announced : Bool} {part : Result Bytes}
    (hpart : ∀ bs, part = .ok bs → bs = (file.drop start).take bs.length)
    (h : readIf announced part = .ok bytes) : bytes = (file.drop start).take bytes.length := by
  cases announced with
  | true => exact hpart bytes h
  | false =>
    obtain rfl : [] = bytes := Except.ok.inj h
    exact take_zero.symm

/-- What the reader collects is the beginning of the file. -/
theorem readHeaderBytes_eq_ok (h : self.readHeaderBytes = .ok bytes) :
    ∃ n, bytes = self.reader.take n := by
  simp only [readHeaderBytes, bind_eq_ok_iff, exists_unit, readExactAt_eq_ok_iff,
    pure_eq_ok, ok.injEq] at h
  obtain ⟨fixed, ⟨hfixed, rfl⟩, -, -, flagsBuf, ⟨hflags, rfl⟩, -, descriptor, hdesc, kms, hkms,
    rfl⟩ := h
  set flagsSize := leNat (((self.reader.drop 0).take 8).drop 6)
  have hdesc' : descriptor = (self.reader.drop (8 + flagsSize)).take descriptor.length := by
    refine readIf_eq_ok self.reader (8 + flagsSize) (fun bs hbs => ?_) hdesc
    obtain ⟨hlen, rfl⟩ := readExactAt_eq_ok_iff.mp hbs
    simp
  have hkms' := readIf_eq_ok self.reader (8 + flagsSize + descriptor.length)
    (fun _ => self.readKmsBytes_eq_ok) hkms
  -- the four parts lie side by side
  refine ⟨8 + (flagsSize + (descriptor.length + kms.length)), ?_⟩
  rw [take_add, take_add, take_add, drop_drop, drop_drop, ← hdesc', ← hkms', drop_zero]

/-- The parameters of the key management are parsed for their errors, except in mode 4. -/
def checkKms (header : GlobalHeader) : Result Unit :=
  match header.kms with
  | none => pure ()
  | some kms =>
    if kms.modeId ≠ kmsTlsExporter then
      (fun _ => ()) <$>
        (parseKmsPayload kms.modeId kms.payload).liftError SarCryptoError.toSarError
    else pure ()

/-- The type ids of RECOVERY metadata. -/
def isRecoveryTlv (tlv : Tlv) : Bool := decide (0x10 ≤ tlv.typeId) && decide (tlv.typeId ≤ 0x1F)

/-- The rules for RECOVERY metadata in the Central Dictionary. -/
def checkRecoveryTlvs (header : GlobalHeader) (cd : CentralDictionary) : Result Unit := do
  rejectIf (cd.tlvs.any isRecoveryTlv && !header.flags.hasGlobalEc)
    (.flagConflict "RECOVERY TLV metadata requires HAS_GLOBAL_EC global flag")
  if header.flags.hasGlobalEc then
    (cd.tlvs.filter isRecoveryTlv).forM fun tlv =>
      (fun _ => ()) <$> validateRecoveryTlv tlv.typeId tlv.value self.options.limits

/-- The index of an archive: the end of the data area and the Central Dictionary. -/
def readIndex (header : GlobalHeader) (headerLen : ℕ) : Result (ℕ × CentralDictionary) := do
  rejectIf (self.fileLen < 8) (.truncated "indexed archive missing footer")
  let footerBytes ← readExactAt self.reader (self.fileLen - 8) 8
  let footer ← parseFooter footerBytes
  let cdOffset := footer.cdOffset.toNat
  rejectIf (cdOffset ≥ self.fileLen - 8) (.bounds "CD offset points outside indexed range")
  rejectIf (cdOffset < headerLen) (.bounds "CD offset overlaps data/header")
  let cdRegionLen := self.fileLen - 8 - cdOffset
  self.options.limits.checkCdBytes cdRegionLen
  self.options.limits.checkAllocationBytes cdRegionLen
  let cdLen ← self.options.limits.allocationLen cdRegionLen "CD region length usize"
  let cdBytes ← readExactAt self.reader cdOffset cdLen
  let (cd, consumed) ← parseCentralDictionary cdBytes header.flags self.options.limits
  rejectIf (consumed > cdBytes.length) (.truncated "CD parse exceeded available bytes")
  rejectIf ((cdBytes.drop consumed).any (· != 0))
    (.invalidAlignment "CD alignment padding must be all zero")
  self.checkRecoveryTlvs header cd
  pure (cdOffset, cd)

/-- The end of the data area, with the Central Dictionary if there is an index. -/
def dataArea (header : GlobalHeader) (headerLen : ℕ) : Result (ℕ × Option CentralDictionary) :=
  if header.flags.noIndex then pure (self.fileLen, none)
  else (fun r => (r.1, some r.2)) <$> self.readIndex header headerLen

/-- `read_global_header`. -/
def readGlobalHeader : Result (GlobalHeader × ArchiveReader) := do
  let headerBytes ← self.readHeaderBytes
  let (header, headerLen) ← parseGlobalHeader headerBytes self.options.limits
  checkKms header
  let (dataEnd, cd) ← self.dataArea header headerLen
  pure (header,
    { self with
      globalFlagsSection := globalHeaderFlagsBytes header
      globalHeader := some header
      headerLen
      dataEnd
      nextOffset := headerLen
      cd })

theorem readKmsBytes_of_le {start : ℕ}
    (hmax : leNat ((self.reader.drop (start + 1)).take 4) ≤ self.options.limits.maxKmsPayloadBytes)
    (hlen : start + kmsLength self.reader start ≤ self.reader.length) :
    self.readKmsBytes start =
      .ok ((self.reader.drop start).take (kmsLength self.reader start)) := by
  rw [kmsLength] at hlen
  have hfield : (((self.reader.drop start).take 5).drop 1).take 4 =
      (self.reader.drop (start + 1)).take 4 := by
    rw [drop_take, take_take, drop_drop]
    rfl
  simp only [readKmsBytes, bind_eq_ok_iff, exists_unit, readExactAt_eq_ok_iff, pure_eq_ok, ok.injEq]
  refine ⟨_, ⟨by omega, rfl⟩, ?_, _, ⟨?_, rfl⟩, ?_⟩
  · rw [hfield]
    exact ResourceLimits.atMost_of_le _ hmax
  · rw [hfield]
    omega
  · rw [hfield, kmsLength, take_add, drop_drop]

variable {header : GlobalHeader}

/-- The reader collects exactly the bytes of a header the file starts with. -/
theorem readHeaderBytes_of_shape {n : ℕ}
    (h : HeaderShape self.reader self.options.limits header n) :
    self.readHeaderBytes = .ok (self.reader.take n) := by
  have hthere := h.flags_there
  have hlength := h.length_eq
  have hle := h.length_le
  set flagsSize := headerFlagsSize self.reader with hsize
  have hfixed : leNat (((self.reader.drop 0).take 8).drop 6) = flagsSize := by
    rw [drop_zero, drop_take, hsize, headerFlagsSize]
  have hflags : flagsOfBytes ((self.reader.drop 8).take flagsSize) = header.flags :=
    h.flags_eq.symm
  have hstart : kmsPrefixStart flagsSize header.flags ≤ self.reader.length := by omega
  have hdesc : readIf header.flags.partitionedArchive
      (readExactAt self.reader (8 + flagsSize) 96) =
      .ok ((self.reader.drop (8 + flagsSize)).take
        (kmsPrefixStart flagsSize header.flags - (8 + flagsSize))) := by
    rw [kmsPrefixStart] at hstart ⊢
    cases hpart : header.flags.partitionedArchive with
    | false => simp [readIf]
    | true =>
      rw [hpart, if_pos rfl] at hstart
      rw [if_pos rfl, Nat.add_sub_cancel_left]
      exact readExactAt_eq_ok_iff.mpr ⟨by omega, rfl⟩
  have hge : 8 + flagsSize ≤ kmsPrefixStart flagsSize header.flags := by
    rw [kmsPrefixStart]
    split <;> omega
  have hdescLen : 8 + flagsSize + ((self.reader.drop (8 + flagsSize)).take
      (kmsPrefixStart flagsSize header.flags - (8 + flagsSize))).length =
      kmsPrefixStart flagsSize header.flags := by
    rw [length_take, length_drop]
    omega
  have hkms : readIf header.flags.encrypted
      (self.readKmsBytes (kmsPrefixStart flagsSize header.flags)) =
      .ok ((self.reader.drop (kmsPrefixStart flagsSize header.flags)).take
        (n - kmsPrefixStart flagsSize header.flags)) := by
    cases henc : header.flags.encrypted with
    | false =>
      rw [henc, if_neg (by decide)] at hlength
      rw [hlength]
      simp [readIf]
    | true =>
      rw [henc, if_pos rfl] at hlength
      rw [hlength, Nat.add_sub_cancel_left]
      exact self.readKmsBytes_of_le (h.kms_le henc) (by omega)
  simp only [readHeaderBytes, bind_eq_ok_iff, exists_unit, readExactAt_eq_ok_iff,
    pure_eq_ok, ok.injEq]
  refine ⟨_, ⟨by omega, rfl⟩, ?_, ?_, _, ⟨?_, rfl⟩, ?_,
    (self.reader.drop (8 + flagsSize)).take
      (kmsPrefixStart flagsSize header.flags - (8 + flagsSize)), ?_,
    (self.reader.drop (kmsPrefixStart flagsSize header.flags)).take
      (n - kmsPrefixStart flagsSize header.flags), ?_, ?_⟩
  · rw [hfixed, rejectIf_eq_ok_iff]
    exact Nat.not_lt.mpr h.flagsSize_ge
  · rw [hfixed]
    exact ResourceLimits.atMost_of_le _ h.flagsSize_le
  · rw [hfixed]
    omega
  · rw [hfixed, hflags]
    exact h.flags_valid
  · rw [hfixed, hflags]
    exact hdesc
  · rw [hfixed, hflags, hdescLen]
    exact hkms
  · -- the four parts lie side by side
    have hsplit : n = 8 + (flagsSize + ((kmsPrefixStart flagsSize header.flags - (8 + flagsSize)) +
        (n - kmsPrefixStart flagsSize header.flags))) := by omega
    have hjoin : 8 + flagsSize + (kmsPrefixStart flagsSize header.flags - (8 + flagsSize)) =
        kmsPrefixStart flagsSize header.flags := by omega
    rw [hfixed]
    conv_rhs => rw [hsplit]
    rw [take_add, take_add, take_add, drop_drop, drop_drop, hjoin, drop_zero]

/-- Collecting the header and parsing it comes to parsing the file. -/
theorem parse_readHeaderBytes_iff {n : ℕ} :
    (∃ bytes, self.readHeaderBytes = .ok bytes ∧
      parseGlobalHeader bytes self.options.limits = .ok (header, n)) ↔
      parseGlobalHeader self.reader self.options.limits = .ok (header, n) := by
  constructor
  · rintro ⟨bytes, hbytes, hparse⟩
    obtain ⟨k, rfl⟩ := self.readHeaderBytes_eq_ok hbytes
    have := runParser_append_of_ok (incremental_globalHeader _) hparse (self.reader.drop k)
    rwa [take_append_drop] at this
  · intro hparse
    have hshape := parseGlobalHeader_shape hparse
    refine ⟨_, self.readHeaderBytes_of_shape hshape, ?_⟩
    refine runParser_of_append (incremental_globalHeader _) (z := self.reader.drop n) ?_ ?_
    · rw [take_append_drop]
      exact hparse
    · rw [length_take]
      exact Nat.le_min.mpr ⟨le_rfl, hshape.length_le⟩

/-- The reader once the header of an archive without index was read. -/
def opened (header : GlobalHeader) (n : ℕ) : ArchiveReader :=
  { self with
    globalFlagsSection := globalHeaderFlagsBytes header
    globalHeader := some header
    headerLen := n
    dataEnd := self.fileLen
    nextOffset := n
    cd := none }

variable {r : ArchiveReader}

/-- A Global Header that the reader accepts is the one the file starts with. -/
theorem parse_of_readGlobalHeader (h : self.readGlobalHeader = .ok (header, r)) :
    ∃ n, parseGlobalHeader self.reader self.options.limits = .ok (header, n) := by
  simp only [readGlobalHeader, bind_eq_ok_iff, Prod.exists, exists_unit,
    pure_eq_ok, ok.injEq, Prod.mk.injEq] at h
  obtain ⟨bytes, hbytes, _, n, hparse, -, _, _, -, rfl, -⟩ := h
  exact ⟨n, self.parse_readHeaderBytes_iff.mp ⟨bytes, hbytes, hparse⟩⟩

/-- What the reader accepts, for an archive without index. -/
theorem readGlobalHeader_eq_ok_iff (hidx : header.flags.noIndex = true) :
    self.readGlobalHeader = .ok (header, r) ↔
      ∃ n, parseGlobalHeader self.reader self.options.limits = .ok (header, n) ∧
        checkKms header = .ok () ∧ r = self.opened header n := by
  simp only [readGlobalHeader, bind_eq_ok_iff, Prod.exists, exists_unit,
    pure_eq_ok, ok.injEq, Prod.mk.injEq]
  constructor
  · rintro ⟨bytes, hbytes, _, n, hparse, hkms, dataEnd, cd, harea, rfl, rfl⟩
    rw [dataArea, if_pos hidx] at harea
    obtain ⟨rfl, rfl⟩ := Prod.mk.inj (Except.ok.inj harea)
    exact ⟨n, self.parse_readHeaderBytes_iff.mp ⟨bytes, hbytes, hparse⟩, hkms, rfl⟩
  · rintro ⟨n, hparse, hkms, rfl⟩
    obtain ⟨bytes, hbytes, hparse⟩ := self.parse_readHeaderBytes_iff.mpr hparse
    refine ⟨bytes, hbytes, header, n, hparse, hkms, self.fileLen, none, ?_, rfl, rfl⟩
    rw [dataArea, if_pos hidx]
    rfl

/-! ### The entries -/

/-- The Local File Header at a position, with its bytes. -/
def readLfh (flags : GlobalFlags) (offset : ℕ) : Result (LocalFileHeader × Bytes) := do
  let headerSizeBytes ← readExactAt self.reader offset 4
  let headerSize := leNat headerSizeBytes
  self.options.limits.checkLfhHeaderBytes headerSize
  rejectIf (headerSize < 4) (.invalidLength "LFH Header Size smaller than fixed prefix")
  let rest ← readExactAt self.reader (offset + 4) (headerSize - 4)
  let lfhBytes := headerSizeBytes ++ rest
  let (lfh, _) ← parseLfh lfhBytes flags self.options.limits
  pure (lfh, lfhBytes)

/-- Entries that the archive reader does not hand out. -/
def isControlEntry (lfh : LocalFileHeader) : Bool :=
  lfh.entryMode.isSessionControl || lfh.entryMode.opCode != 0

/-- The stored payload after a Local File Header, and where it ends. -/
def readPayload (lfh : LocalFileHeader) : Result (Bytes × ℕ) := do
  let payloadStart := self.nextOffset + lfh.headerSize.toNat
  rejectIf (payloadStart > u64Max) (.overflow "payload start")
  let payloadEnd := payloadStart + lfh.payloadSize.toNat
  rejectIf (payloadEnd > u64Max) (.overflow "payload end")
  rejectIf (payloadEnd > self.dataEnd) (.truncated "payload exceeds data area bounds")
  let payloadLen ← self.options.limits.allocationLen lfh.payloadSize.toNat "payload length usize"
  let encodedPayload ← readExactAt self.reader payloadStart payloadLen
  pure (encodedPayload, payloadEnd)

/-- `next_entry`. -/
def nextEntry : Result (Option EntryReader × ArchiveReader) := do
  let header ← okOr self.globalHeader (.malformed "call read_global_header first")
  if self.nextOffset ≥ self.dataEnd then pure (none, self)
  else do
    let (lfh, lfhBytes) ← self.readLfh header.flags self.nextOffset
    rejectIf (isControlEntry lfh) (.unsupported
      ("archive parsing rejects SESSION_CONTROL entries and nonzero OP_CODE values " ++
        "by default"))
    let (encodedPayload, payloadEnd) ← self.readPayload lfh
    let (payload, entryMetadata) ←
      decodeOrdinaryArchiveEntryFromParts backend self header lfh self.nextOffset lfhBytes
        encodedPayload
    pure (some ⟨lfh, payload, entryMetadata⟩, { self with nextOffset := payloadEnd })

/-- `next_entry` until there is none, for at most the given number of calls. -/
def readEntries : ℕ → ArchiveReader → Option (Result (List EntryReader))
  | 0, _ => none
  | fuel + 1, self =>
    match nextEntry backend self with
    | .error e => some (.error e)
    | .ok (none, _) => some (.ok [])
    | .ok (some entry, self) => (readEntries fuel self).map fun r => (entry :: ·) <$> r

/-- An entry moves the reader forward, within the data area. -/
theorem nextEntry_advances {entry : EntryReader}
    (h : nextEntry backend self = .ok (some entry, r)) :
    ∃ off, self.nextOffset < off ∧ off ≤ self.dataEnd ∧ r = { self with nextOffset := off } := by
  simp only [nextEntry, bind_eq_ok_iff] at h
  obtain ⟨header, -, h⟩ := h
  split at h
  · cases h
  simp only [bind_eq_ok_iff, Prod.exists, exists_unit, rejectIf_eq_ok_iff, pure_eq_ok, ok.injEq,
    Prod.mk.injEq, readLfh, readPayload, readExactAt_eq_ok_iff, not_lt, gt_iff_lt] at h
  obtain ⟨lfh, _, ⟨_, ⟨hfour, rfl⟩, -, hge, _, -, _, _, hparse, rfl, rfl⟩, -, _, _,
    ⟨-, -, hle, _, -, _, -, -, rfl⟩, _, _, -, -, rfl⟩ := h
  obtain ⟨hsize, hdeclared, -⟩ := parseLfh_eq_ok hparse
  have htake : ((self.reader.drop self.nextOffset).take 4).length = 4 := by
    rw [length_take, length_drop]
    omega
  rw [take_append_of_le_length htake.ge, take_take, Nat.min_self] at hdeclared
  exact ⟨_, by omega, hle, rfl⟩

/-- The loop over the entries ends. -/
theorem readEntries_isSome {fuel : ℕ} (hfuel : self.dataEnd - self.nextOffset < fuel) :
    (readEntries backend fuel self).isSome = true := by
  induction fuel generalizing self with
  | zero => exact absurd hfuel (Nat.not_lt_zero _)
  | succ fuel ih =>
    rw [readEntries]
    rcases hnext : nextEntry backend self with e | ⟨_ | entry, r⟩
    · rfl
    · rfl
    · obtain ⟨off, hlt, hle, rfl⟩ := nextEntry_advances backend self hnext
      rw [Option.isSome_map]
      exact ih _ (by change self.dataEnd - off < fuel; omega)

end ArchiveReader

/-- Open a file, read its Global Header, and read all its entries. -/
def readArchive (backend : Backend) (options : ArchiveReaderOptions)
    (keyProvider : Option KeyProvider) (file : Bytes) :
    Option (Result (GlobalHeader × List EntryReader)) :=
  match ArchiveReader.withOptions file options keyProvider with
  | .error e => some (.error e)
  | .ok self =>
    match self.readGlobalHeader with
    | .error e => some (.error e)
    | .ok (header, self) =>
      (ArchiveReader.readEntries backend (file.length + 1) self).map fun r => (header, ·) <$> r

end Sar
