import Sar.Core.Canonical
import Sar.Crypto.Aead

/-!
# What the associated data of an entry binds

The associated data is the flags section of the Global Header followed by the Local File Header,
from which the length and the value of the error-correction field are cut out when the entry has
such a field. The cut is made at an offset that a function of its own computes; here it is shown
to be where the writer puts the field (`FecLayout`), so that the data determines both headers up
to the value that was cut out, and does not depend on that value.
-/

namespace Sar

open ByteParser LittleEndian List
open Except (rejectIf bind_eq_ok_iff pure_eq_ok ok_bind ok.injEq ok.inj)

/-! ### Where the error-correction fields lie -/

/-- The offset of the error-correction algorithm. -/
def fecAlgoFieldOffset (flags : GlobalFlags) : ℕ :=
  4 + 2 + 2 + 2 + sizeFieldLen flags + sizeFieldLen flags + lenIf flags.compressed 1 +
    lenIf flags.hasDelta 1 + lenIf flags.encrypted 1 + lenIf flags.cdcSupport 1

/-- The bytes of a header around its three error-correction fields. -/
structure FecLayout (flags : GlobalFlags) (lfh : LocalFileHeader) (bytes : Bytes)
    (front middle tail : Bytes) (fecLen : UInt32) : Prop where
  bytes_eq : bytes = front ++ ([lfh.fecAlgoId.getD 0] ++ (middle ++ (u24Bytes fecLen ++
    (tail ++ lfh.fecValue))))
  front_length : front.length = fecAlgoFieldOffset flags
  middle_length : front.length + 1 + middle.length = fecSizeFieldOffset flags
  fecLen_eq : fecLen.toNat = lfh.fecValue.length
  headerSize : front.take 4 = u32Bytes (UInt32.ofNat bytes.length)

variable {flags : GlobalFlags} {lfh : LocalFileHeader} {bytes : Bytes}

theorem exists_fecLayout (hsel : flags.selectiveFec = true) (hw : writeLfh flags lfh = .ok bytes) :
    ∃ front middle tail fecLen, FecLayout flags lfh bytes front middle tail fecLen := by
  obtain ⟨hcomputed, -⟩ := length_writeLfh hw
  simp only [writeLfh, bind_eq_ok_iff, Except.exists_unit, u32OfLen_eq_ok_iff,
    u16OfLen_eq_ok_iff, Except.rejectIf_eq_ok_iff, pure_eq_ok, ok.injEq] at hw
  obtain ⟨-, size, hsize, headerSize, ⟨-, hheader⟩, nameLen, -, pathLen, -, sparseLen, -, fecLen,
    ⟨-, hfec⟩, ubs, hu, pbs, hp, -, rfl⟩ := hw
  have hul := length_of_writeSize hu
  have hpl := length_of_writeSize hp
  refine ⟨u32Bytes headerSize ++ (u16Bytes lfh.entryMode.bits ++ (u16Bytes lfh.streamId ++
      (u16Bytes lfh.sequenceNo ++ (ubs ++ (pbs ++
      (bytesIf flags.compressed [lfh.compAlgoId.getD 0] ++
      (bytesIf flags.hasDelta [lfh.patchAlgoId.getD 0] ++
      (bytesIf flags.encrypted [lfh.encrAlgoId.getD 0] ++
      bytesIf flags.cdcSupport [lfh.cdcAlgoId.getD 0])))))))),
    bytesIf flags.fileFragmentation (u32Bytes (lfh.fragmentId.getD 0)) ++
      (bytesIf flags.fileFragmentation (u32Bytes (lfh.fragmentIndex.getD 0)) ++
      (bytesIf flags.fileFragmentation (fragmentDescriptorBytes lfh.fragmentDescriptor) ++
      (bytesIf flags.encrypted (lfh.ivNonce.getD (Octets.zero 24)).val ++
      (bytesIf flags.hasDelta (lfh.deltaBaseHash.getD (Octets.zero 32)).val ++
      (bytesIf flags.perFileCrc (u32Bytes (lfh.fileCrc32.getD 0)) ++
      (bytesIf flags.deduplication (lfh.contentHash.getD (Octets.zero 32)).val ++
      (bytesIf flags.extUidGid (u32Bytes (lfh.uidGid.getD 0)) ++
      (bytesIf flags.extTime (timestampsBytes lfh.timestamps) ++
      (bytesIf flags.hasPerms (u16Bytes (lfh.permissions.getD 0)) ++
      (u16Bytes nameLen ++ (bytesIf flags.hasPath (u16Bytes pathLen) ++
      bytesIf flags.sparseFiles (u32Bytes sparseLen)))))))))))),
    lfh.name ++ (bytesIf flags.hasPath lfh.path ++ bytesIf flags.sparseFiles lfh.sparseMap),
    fecLen, ?_, ?_, ?_, hfec, ?_⟩
  · simp only [hsel, bytesIf, if_true, append_assoc]
  · simp only [length_append, length_u32Bytes, length_u16Bytes, length_bytesIf,
      length_cons, length_nil, hul, hpl, fecAlgoFieldOffset]
    ring
  · have hfragment : ∀ b, lenIf b 4 + lenIf b 4 + lenIf b 12 = lenIf b (4 + 4 + 12) := by
      intro b
      cases b <;> rfl
    simp only [length_append, length_u32Bytes, length_u16Bytes, length_bytesIf,
      length_cons, length_nil, length_fragmentDescriptorBytes, length_timestampsBytes,
      Octets.length_val, hul, hpl, fecSizeFieldOffset, hsel, ← hfragment]
    simp only [lenIf, if_true]
    ring
  · have hlen : UInt32.ofNat size = headerSize := by rw [← hheader, UInt32.ofNat_toNat]
    rw [ok.inj (hcomputed.symm.trans hsize), hlen, take_left' (length_u32Bytes _)]

/-- What is authenticated of a header with an error-correction value: the header without the two
fields. -/
theorem FecLayout.lfhBytesForAad_eq {front middle tail : Bytes} {fecLen : UInt32}
    (hsel : flags.selectiveFec = true) (halgo : lfh.fecAlgoId.getD 0 ≠ 0)
    (h : FecLayout flags lfh bytes front middle tail fecLen) :
    lfhBytesForAad flags bytes (lfh.fecAlgoId.getD 0) lfh.fecValue.length =
      .ok (front ++ ([lfh.fecAlgoId.getD 0] ++ (middle ++ tail))) := by
  set head := front ++ ([lfh.fecAlgoId.getD 0] ++ middle) with hhead
  have hoff : head.length = fecSizeFieldOffset flags := by
    rw [hhead, ← h.middle_length]
    simp only [length_append, length_cons, length_nil]
    omega
  have hbody : bytes = (head ++ (u24Bytes fecLen ++ tail)) ++ lfh.fecValue := by
    rw [h.bytes_eq, hhead]
    simp only [append_assoc]
  have hdrop : (head ++ (u24Bytes fecLen ++ tail)).drop (fecSizeFieldOffset flags + 3) = tail := by
    rw [← hoff, ← append_assoc]
    exact drop_left' (by rw [length_append, length_u24Bytes])
  rw [hbody, lfhBytesForAad_append hsel halgo, Except.rejectIf_of_not, ok_bind, hdrop, ← hoff,
    take_left, hhead]
  · simp only [append_assoc]
    rfl
  · simp only [length_append, length_u24Bytes, hoff]
    omega

/-- Without an error-correction value nothing is cut out. -/
theorem lfhBytesForAad_of_uncut {algoId : UInt8} {n : ℕ}
    (h : ¬ (flags.selectiveFec = true ∧ algoId ≠ 0)) :
    lfhBytesForAad flags bytes algoId n = .ok bytes := by
  refine if_pos ?_
  rw [not_and_or, not_not, Bool.not_eq_true] at h
  rcases h with hsel | rfl
  · rw [hsel]
    rfl
  · exact Bool.or_true _

variable {aad : Bytes}

/-- What is authenticated begins with the fields up to the algorithm, whatever is cut out. -/
theorem FecLayout.aad_eq_append {front middle tail : Bytes} {fecLen : UInt32}
    (hsel : flags.selectiveFec = true) (h : FecLayout flags lfh bytes front middle tail fecLen)
    (haad : lfhBytesForAad flags bytes (lfh.fecAlgoId.getD 0) lfh.fecValue.length = .ok aad) :
    ∃ rest, aad = front ++ ([lfh.fecAlgoId.getD 0] ++ rest) := by
  by_cases halgo : lfh.fecAlgoId.getD 0 = 0
  · rw [lfhBytesForAad_of_uncut (fun hcut => hcut.2 halgo)] at haad
    exact ⟨_, (ok.inj haad).symm.trans h.bytes_eq⟩
  · exact ⟨_, (ok.inj ((h.lfhBytesForAad_eq hsel halgo).symm.trans haad)).symm⟩

/-! ### The data determines the headers -/

/-- Two headers agree on every field on the wire; the content of the error-correction value
counts unless it is cut out of what is authenticated. -/
structure AgreeOnWire (flags : GlobalFlags) (lfh lfh' : LocalFileHeader) : Prop where
  fields : { lfh.onWire flags with fecValue := [] } = { lfh'.onWire flags with fecValue := [] }
  fecLength : (lfh.onWire flags).fecValue.length = (lfh'.onWire flags).fecValue.length
  fecValue : ¬ (flags.selectiveFec = true ∧ lfh.fecAlgoId.getD 0 ≠ 0) →
    (lfh.onWire flags).fecValue = (lfh'.onWire flags).fecValue

variable {lfh' : LocalFileHeader}

theorem AgreeOnWire.of_eq (h : lfh.onWire flags = lfh'.onWire flags) : AgreeOnWire flags lfh lfh' :=
  ⟨by rw [h], by rw [h], fun _ => by rw [h]⟩

/-- Headers that are written alike are the same header on the wire. -/
theorem onWire_eq_of_writeLfh_eq {flags : GlobalFlags} {lfh lfh' : LocalFileHeader} {bytes : Bytes}
    (hw : writeLfh flags lfh = .ok bytes) (hw' : writeLfh flags lfh' = .ok bytes) :
    lfh.onWire flags = lfh'.onWire flags := by
  have hread : ∀ {l : LocalFileHeader}, writeLfh flags l = .ok bytes →
      parseLfh (bytes ++ []) flags .unlimited = .ok (l.onWire flags, bytes.length) := by
    intro l hl
    obtain ⟨hheader, hpath, hsparse, hfec⟩ := lfhUnbound_unlimited hl
    exact parseLfh_writeLfh hl hheader hpath hsparse hfec []
  exact (Prod.mk.inj (ok.inj ((hread hw).symm.trans (hread hw')))).1

/-- The value can be exchanged for any other of its length. -/
theorem exists_writeLfh_fecValue (hw : writeLfh flags lfh = .ok bytes) (value : Bytes)
    (hlen : value.length = lfh.fecValue.length) :
    ∃ bytes', writeLfh flags { lfh with fecValue := value } = .ok bytes' := by
  have htrailing : lfhTrailingLen flags { lfh with fecValue := value } =
      lfhTrailingLen flags lfh := by
    simp only [lfhTrailingLen, hlen]
  simp only [writeLfh, computeLfhSize, htrailing, hlen, bind_eq_ok_iff] at hw ⊢
  obtain ⟨u₁, h₁, size, h₂, headerSize, h₃, nameLen, h₄, pathLen, h₅, sparseLen, h₆, fecLen, h₇,
    ubs, h₈, pbs, h₉, u₂, h₁₀, -⟩ := hw
  exact ⟨_, u₁, h₁, size, h₂, headerSize, h₃, nameLen, h₄, pathLen, h₅, sparseLen, h₆, fecLen, h₇,
    ubs, h₈, pbs, h₉, u₂, h₁₀, rfl⟩

/-- Headers that are written alike up to the value agree on the wire. -/
theorem agreeOnWire_of_body_eq (body : Bytes)
    (hcut : flags.selectiveFec = true ∧ lfh.fecAlgoId.getD 0 ≠ 0)
    (hw : writeLfh flags lfh = .ok (body ++ lfh.fecValue))
    (hw' : writeLfh flags lfh' = .ok (body ++ lfh'.fecValue))
    (hlen : lfh.fecValue.length = lfh'.fecValue.length) : AgreeOnWire flags lfh lfh' := by
  -- the second header with the value of the first is written as the first
  obtain ⟨bytes, hbytes⟩ := exists_writeLfh_fecValue hw' lfh.fecValue hlen
  obtain ⟨body', hbody', rfl⟩ := writeLfh_fecValue hw' hbytes hlen
  rw [bytesIf, if_pos hcut.1] at hbody' hbytes
  obtain ⟨rfl, -⟩ := append_inj' hbody' rfl
  have hwire := onWire_eq_of_writeLfh_eq hw hbytes
  refine ⟨?_, ?_, fun h => absurd hcut h⟩
  · rw [hwire]
    simp only [LocalFileHeader.onWire, lfhTrailingLen, hlen]
  · simp only [LocalFileHeader.onWire, length_bytesIf, hlen]

/-- Headers with the same authenticated bytes agree on the wire. -/
theorem agreeOnWire_of_aad_eq {bytes' : Bytes} (hw : writeLfh flags lfh = .ok bytes)
    (hw' : writeLfh flags lfh' = .ok bytes')
    (haad : lfhBytesForAad flags bytes (lfh.fecAlgoId.getD 0) lfh.fecValue.length = .ok aad)
    (haad' : lfhBytesForAad flags bytes' (lfh'.fecAlgoId.getD 0) lfh'.fecValue.length = .ok aad) :
    AgreeOnWire flags lfh lfh' := by
  have huncut : ¬ (flags.selectiveFec = true ∧ lfh.fecAlgoId.getD 0 ≠ 0) →
      ¬ (flags.selectiveFec = true ∧ lfh'.fecAlgoId.getD 0 ≠ 0) → AgreeOnWire flags lfh lfh' := by
    intro h h'
    rw [lfhBytesForAad_of_uncut h, ok.injEq] at haad
    rw [lfhBytesForAad_of_uncut h', ok.injEq] at haad'
    rw [haad] at hw
    rw [haad'] at hw'
    exact AgreeOnWire.of_eq (onWire_eq_of_writeLfh_eq hw hw')
  by_cases hsel : flags.selectiveFec = true
  · obtain ⟨front, middle, tail, fecLen, hlayout⟩ := exists_fecLayout hsel hw
    obtain ⟨front', middle', tail', fecLen', hlayout'⟩ := exists_fecLayout hsel hw'
    -- the fields up to the algorithm are the same, so it is cut out of both or of none
    obtain ⟨rest, hrest⟩ := hlayout.aad_eq_append hsel haad
    obtain ⟨rest', hrest'⟩ := hlayout'.aad_eq_append hsel haad'
    obtain ⟨rfl, hafter⟩ := append_inj (hrest.symm.trans hrest')
      (hlayout.front_length.trans hlayout'.front_length.symm)
    have halgo : lfh.fecAlgoId.getD 0 = lfh'.fecAlgoId.getD 0 := (List.cons.inj hafter).1
    by_cases hzero : lfh.fecAlgoId.getD 0 = 0
    · exact huncut (fun h => h.2 hzero) (fun h => h.2 (halgo ▸ hzero))
    · have hzero' : lfh'.fecAlgoId.getD 0 ≠ 0 := halgo ▸ hzero
      have hsame := (hlayout.lfhBytesForAad_eq hsel hzero).symm.trans haad
      rw [← haad', hlayout'.lfhBytesForAad_eq hsel hzero', ok.injEq,
        append_cancel_left_eq, ← halgo, append_cancel_left_eq] at hsame
      obtain ⟨rfl, rfl⟩ := append_inj hsame (by
        have h₁ := hlayout.middle_length
        have h₂ := hlayout'.middle_length
        omega)
      -- the size of the header is in the front, so the values have one length
      have hsize : bytes.length = bytes'.length := by
        have hword := hlayout.headerSize.symm.trans hlayout'.headerSize
        have hval := congrArg (fun bs => (UInt32.ofNat (leNat bs)).toNat) hword
        simp only [u32Bytes, ofNat_leNat_leBytes_uint32] at hval
        rwa [UInt32.toNat_ofNat_of_lt' (length_writeLfh hw).2,
          UInt32.toNat_ofNat_of_lt' (length_writeLfh hw').2] at hval
      have hlen : lfh.fecValue.length = lfh'.fecValue.length := by
        rw [hlayout.bytes_eq, hlayout'.bytes_eq] at hsize
        simp only [length_append, length_cons, length_nil, length_u24Bytes] at hsize
        omega
      obtain rfl : fecLen = fecLen' :=
        UInt32.toNat_inj.mp (by rw [hlayout.fecLen_eq, hlayout'.fecLen_eq, hlen])
      refine agreeOnWire_of_body_eq (front ++ ([lfh.fecAlgoId.getD 0] ++ (middle ++
        (u24Bytes fecLen ++ tail)))) ⟨hsel, hzero⟩ ?_ ?_ hlen
      · rw [hw, hlayout.bytes_eq]
        simp only [append_assoc]
      · rw [hw', hlayout'.bytes_eq, ← halgo]
        simp only [append_assoc]
  · exact huncut (fun h => hsel h.1) (fun h => hsel h.1)

/-- The flags section is delimited by its own length field. -/
theorem globalHeaderFlagsBytes_append_inj {header header' : GlobalHeader} {aad' : Bytes}
    (hlen : header.flagsBytes.length < 2 ^ 16) (hlen' : header'.flagsBytes.length < 2 ^ 16)
    (h : globalHeaderFlagsBytes header ++ aad = globalHeaderFlagsBytes header' ++ aad') :
    globalHeaderFlagsBytes header = globalHeaderFlagsBytes header' ∧ aad = aad' := by
  have hparts : ∀ (header : GlobalHeader) (aad : Bytes), globalHeaderFlagsBytes header ++ aad =
      (magic ++ [header.version] ++ [0]) ++
        (u16Bytes (UInt16.ofNat header.flagsBytes.length) ++ (header.flagsBytes ++ aad)) := by
    intro header aad
    simp only [globalHeaderFlagsBytes, append_assoc]
  have h' := h
  rw [hparts, hparts] at h'
  obtain ⟨-, h'⟩ := append_inj h' (by simp)
  obtain ⟨hsize, -⟩ := append_inj h' (by simp)
  have hval := congrArg (fun bs => (UInt16.ofNat (leNat bs)).toNat) hsize
  simp only [u16Bytes, ofNat_leNat_leBytes_uint16] at hval
  rw [UInt16.toNat_ofNat_of_lt' hlen, UInt16.toNat_ofNat_of_lt' hlen'] at hval
  exact append_inj h (by simp [globalHeaderFlagsBytes, hval])

/-- The associated data of an entry, as its writer computes it. -/
def entryAad (flags : GlobalFlags) (header : GlobalHeader) (lfh : LocalFileHeader) :
    Result Bytes := do
  let bytes ← writeLfh flags lfh
  let aad ← lfhBytesForAad flags bytes (lfh.fecAlgoId.getD 0) lfh.fecValue.length
  pure (buildAeadAad (globalHeaderFlagsBytes header) aad)

/-- The associated data binds both headers. Equal data comes from equal flags sections and from
headers that agree on the wire; exchanging the error-correction value for another of the same
length changes nothing, and a decoder computes the same data from the header it has read. The
flags sections are those of Global Headers whose flags fit their two-byte length field. -/
theorem entryAad_binds (flags : GlobalFlags) :
    (∀ header header' lfh lfh' aad, header.flagsBytes.length < 2 ^ 16 →
      header'.flagsBytes.length < 2 ^ 16 → entryAad flags header lfh = .ok aad →
      entryAad flags header' lfh' = .ok aad →
      globalHeaderFlagsBytes header = globalHeaderFlagsBytes header' ∧
        AgreeOnWire flags lfh lfh') ∧
    ∀ header lfh bytes, writeLfh flags lfh = .ok bytes →
      (flags.selectiveFec = true → lfh.fecAlgoId.getD 0 ≠ 0) →
      ∀ value, value.length = lfh.fecValue.length → ∃ aad final,
        entryAad flags header lfh = .ok aad ∧
        entryAad flags header { lfh with fecValue := value } = .ok aad ∧
        writeLfh flags { lfh with fecValue := value } = .ok final ∧
        ∃ read, parseLfh final flags .unlimited = .ok (read, final.length) ∧
          buildAeadAad (globalHeaderFlagsBytes header) <$>
            lfhBytesForAad flags final (read.fecAlgoId.getD 0) read.fecValue.length = .ok aad := by
  constructor
  · intro header header' lfh lfh' aad hlen hlen' haad haad'
    simp only [entryAad, bind_eq_ok_iff, pure_eq_ok, ok.injEq, buildAeadAad] at haad haad'
    obtain ⟨bytes, hw, data, hdata, rfl⟩ := haad
    obtain ⟨bytes', hw', data', hdata', heq⟩ := haad'
    obtain ⟨hsection, rfl⟩ := globalHeaderFlagsBytes_append_inj hlen' hlen heq
    exact ⟨hsection.symm, agreeOnWire_of_aad_eq hw hw' hdata hdata'⟩
  · intro header lfh bytes hw halgo value hvalue
    obtain ⟨data, hdata⟩ : ∃ data, lfhBytesForAad flags bytes (lfh.fecAlgoId.getD 0)
        lfh.fecValue.length = .ok data := by
      by_cases hcut : flags.selectiveFec = true ∧ lfh.fecAlgoId.getD 0 ≠ 0
      · obtain ⟨front, middle, tail, fecLen, hlayout⟩ := exists_fecLayout hcut.1 hw
        exact ⟨_, hlayout.lfhBytesForAad_eq hcut.1 hcut.2⟩
      · exact ⟨bytes, lfhBytesForAad_of_uncut hcut⟩
    obtain ⟨final, hfinal⟩ := exists_writeLfh_fecValue hw value hvalue
    -- what is authenticated does not depend on the error-correction value
    have hdata' : lfhBytesForAad flags final (lfh.fecAlgoId.getD 0) value.length = .ok data := by
      rw [← hdata]
      obtain ⟨body, rfl, rfl⟩ := writeLfh_fecValue hw hfinal hvalue
      rcases hflag : flags.selectiveFec with _ | _
      · simp only [lfhBytesForAad, hflag, Bool.not_false, Bool.true_or, if_true, bytesIf,
          Bool.false_eq_true, if_false]
      · simp only [bytesIf, if_true, lfhBytesForAad_append hflag (halgo hflag)]
    obtain ⟨hheader, hpath, hsparse, hfec⟩ := lfhUnbound_unlimited hfinal
    have hread := parseLfh_writeLfh hfinal hheader hpath hsparse hfec []
    rw [append_nil] at hread
    refine ⟨buildAeadAad (globalHeaderFlagsBytes header) data, final, ?_, ?_, hfinal, _, hread, ?_⟩
    · rw [entryAad, hw, ok_bind, hdata]
      rfl
    · rw [entryAad, hfinal, ok_bind, hdata']
      rfl
    · refine congrArg (buildAeadAad (globalHeaderFlagsBytes header) <$> ·) (Eq.trans ?_ hdata')
      cases hsel : flags.selectiveFec with
      | true =>
        simp only [LocalFileHeader.onWire, hsel, fieldIf, bytesIf, if_true, Option.getD_some]
      | false => simp only [lfhBytesForAad, hsel, Bool.not_false, Bool.true_or, if_true]

/-- A header with a two-byte error-correction value. -/
def fecSample (value : Bytes) : LocalFileHeader :=
  { LocalFileHeader.minimalStore [0x61] 0 with fecAlgoId := some 0x14, fecValue := value }

/-- The Global Header that announces the value. -/
def fecSampleHeader : GlobalHeader := ⟨1, [0, 0, 0x10, 0], { selectiveFec := true }, none, none⟩

/-- The zero-filled value and the final one: the same data, and headers that agree. -/
theorem entryAad_binds_fecSample :
    AgreeOnWire { selectiveFec := true } (fecSample [0, 0]) (fecSample [7, 9]) ∧
    ∃ aad final,
      entryAad { selectiveFec := true } fecSampleHeader (fecSample [0, 0]) = .ok aad ∧
      entryAad { selectiveFec := true } fecSampleHeader (fecSample [7, 9]) = .ok aad ∧
      writeLfh { selectiveFec := true } (fecSample [7, 9]) = .ok final ∧
      ∃ read, parseLfh final { selectiveFec := true } .unlimited = .ok (read, final.length) ∧
        buildAeadAad (globalHeaderFlagsBytes fecSampleHeader) <$>
          lfhBytesForAad { selectiveFec := true } final (read.fecAlgoId.getD 0)
            read.fecValue.length = .ok aad := by
  have hsecond := (entryAad_binds { selectiveFec := true }).2 fecSampleHeader (fecSample [0, 0]) _
    rfl (fun _ => by decide) [7, 9] rfl
  obtain ⟨aad, final, hzero, hvalue, hrest⟩ := hsecond
  exact ⟨((entryAad_binds { selectiveFec := true }).1 fecSampleHeader fecSampleHeader
    (fecSample [0, 0]) (fecSample [7, 9]) aad (by decide) (by decide) hzero hvalue).2,
    aad, final, hzero, hvalue, hrest⟩

end Sar
