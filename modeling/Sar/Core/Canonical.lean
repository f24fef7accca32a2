import Mathlib.Tactic.IntervalCases
import Sar.Core.CentralDictionary

/-!
# Accepted headers are written headers

The converse of the round trips: what a header parser accepts is, byte for byte, what the
matching writer makes of the result. Both parsers are followed field by field with the rules of
`ByteParser.Accepts`, which push the consumed bytes onto the claim about the value returned.

* `writeLfh_of_parseLfh` — the Local File Header, without exception.
* `GlobalHeaderBytes.writeGlobalHeader_eq_iff` — the Global Header, exactly when its first four
  flag bytes are the bits of its flags, which is to say (`u32Bytes_bits_flagsOfBytes_iff`) when
  they hold no bit that the format does not define: the parser drops such bits from the flags
  and keeps them in the flag bytes.
* `centralDictionary_codec` — the Central Dictionary and its metadata records, without exception.
-/

namespace Sar

open ByteParser LittleEndian List
open Except (rejectIf bind_eq_ok_iff pure_eq_ok exists_unit rejectIf_eq_ok_iff ok.injEq)

/-! ### Fields -/

/-- A field that is there when its flag is set, written from the value or a default. -/
theorem accepts_field {α : Type} {p : Parser α} {toBytes : α → Bytes} (b : Bool) (d : α)
    (hp : Accepts p fun a u => u = toBytes a) :
    Accepts (optional b p) fun o u => u = bytesIf b (toBytes (o.getD d)) := by
  intro c o c' h
  obtain ⟨u, hrest, hpos, hu⟩ := hp.optional b h
  refine ⟨u, hrest, hpos, ?_⟩
  rcases hu with ⟨rfl, a, rfl, rfl⟩ | ⟨rfl, rfl, rfl⟩ <;> rfl

/-- A length field that counts as zero when its flag is clear. -/
theorem accepts_lenField {p : Parser ℕ} {R : ℕ → Bytes → Prop} (b : Bool) (hp : Accepts p R) :
    Accepts ((·.getD 0) <$> optional b p) fun n u =>
      (b = true ∧ R n u) ∨ (b = false ∧ n = 0 ∧ u = []) := by
  refine (hp.optional b).map fun o u hu => ?_
  rcases hu with ⟨hb, n, rfl, hR⟩ | ⟨hb, rfl, rfl⟩
  · exact .inl ⟨hb, hR⟩
  · exact .inr ⟨hb, rfl, rfl⟩

theorem accepts_size (flags : GlobalFlags) :
    Accepts (readSize flags) fun x u => writeSize flags x = .ok u := by
  unfold readSize
  split
  · rename_i hflag
    intro c x c' h
    obtain ⟨u, hrest, hpos, rfl⟩ := accepts_u64 h
    exact ⟨_, hrest, hpos, writeSize_eq_ok_iff.mpr (by rw [if_pos hflag])⟩
  · rename_i hflag
    refine accepts_u32.map fun x u hu => ?_
    have hback : x.toUInt64.toUInt32 = x := by simp
    rw [writeSize_eq_ok_iff, if_neg hflag, hback]
    exact ⟨by simpa using x.toNat_lt, hu⟩

theorem accepts_fragmentDescriptor :
    Accepts fragmentDescriptorField fun d u => u = fragmentDescriptorBytes (some d) := by
  refine Accepts.bind accepts_u64 fun off u hu => ?_
  refine Accepts.bind accepts_u32 fun size v hv => Accepts.pure ?_
  rw [hu, hv, append_nil]
  rfl

theorem accepts_timestamps :
    Accepts timestampsField fun t u => u = timestampsBytes (some t) := by
  refine Accepts.bind accepts_u64 fun first u hu => ?_
  refine Accepts.bind accepts_u64 fun second v hv => ?_
  refine Accepts.bind accepts_u64 fun third w hw => Accepts.pure ?_
  rw [hu, hv, hw, append_nil]
  rfl

/-! ### The Local File Header -/

/-- A length field: the number whose bytes were read. -/
def LenField {α : Type} (toNat : α → ℕ) (toBytes : α → Bytes) (n : ℕ) (u : Bytes) : Prop :=
  ∃ x, toNat x = n ∧ u = toBytes x

theorem accepts_lenU16 : Accepts (UInt16.toNat <$> readU16) (LenField UInt16.toNat u16Bytes) :=
  accepts_u16.map fun x _ hu => ⟨x, rfl, hu⟩

theorem accepts_lenU32 : Accepts (UInt32.toNat <$> readU32) (LenField UInt32.toNat u32Bytes) :=
  accepts_u32.map fun x _ hu => ⟨x, rfl, hu⟩

theorem accepts_lenU24 : Accepts (UInt32.toNat <$> readU24) fun n u =>
    LenField UInt32.toNat u24Bytes n u ∧ n < 2 ^ 24 :=
  accepts_u24.map fun x _ hu => ⟨⟨x, rfl, hu.1⟩, hu.2⟩

/-- An optional trailing field: its length as the writer computes it from the content, and the
content as the writer appends it. -/
theorem trailing_eq {α : Type} {b : Bool} {n : ℕ} {u : Bytes} {toNat : α → ℕ}
    {toBytes : α → Bytes} (zero : α) (hzero : toNat zero = 0)
    (h : (b = true ∧ LenField toNat toBytes n u) ∨ (b = false ∧ n = 0 ∧ u = []))
    (field : Octets n) :
    ∃ x, toNat x = field.val.length ∧ u = bytesIf b (toBytes x) ∧
      field.val = bytesIf b field.val := by
  rcases h with ⟨rfl, x, hx, rfl⟩ | ⟨rfl, rfl, rfl⟩
  · exact ⟨x, hx.trans field.property.symm, rfl, rfl⟩
  · have hnil := length_eq_zero_iff.mp field.property
    exact ⟨zero, hzero.trans field.property.symm, rfl, hnil⟩

/-- The fields that `parse_lfh` accepts are the ones `write_lfh` makes of its result. -/
theorem accepts_lfhFields (flags : GlobalFlags) (limits : ResourceLimits) (headerSize : UInt32) :
    Accepts (lfhFields flags limits headerSize) fun lfh u =>
      writeLfh flags lfh = .ok u ∧ computeLfhSize flags lfh = .ok headerSize.toNat := by
  refine Accepts.bind accepts_u32 fun declared b₁ h₁ => ?_
  refine Accepts.check_bind fun _ hdeclared => ?_
  refine Accepts.bind accepts_u16 fun modeBits b₂ h₂ => ?_
  refine Accepts.check_bind fun _ hmode => ?_
  refine Accepts.bind accepts_u16 fun streamId b₃ h₃ => ?_
  refine Accepts.bind accepts_u16 fun sequenceNo b₄ h₄ => ?_
  refine Accepts.bind (accepts_size flags) fun uncompressedSize b₅ h₅ => ?_
  refine Accepts.bind (accepts_size flags) fun payloadSize b₆ h₆ => ?_
  -- the optional fields, in the order of the writer
  refine Accepts.bind (accepts_field _ 0 accepts_u8) fun compAlgoId b₇ h₇ => ?_
  refine Accepts.bind (accepts_field _ 0 accepts_u8) fun patchAlgoId b₈ h₈ => ?_
  refine Accepts.bind (accepts_field _ 0 accepts_u8) fun encrAlgoId b₉ h₉ => ?_
  refine Accepts.bind (accepts_field _ 0 accepts_u8) fun cdcAlgoId c₁ h₁₀ => ?_
  refine Accepts.bind (accepts_field _ 0 accepts_u8) fun fecAlgoId c₂ h₁₁ => ?_
  refine Accepts.bind (accepts_field _ 0 accepts_u32) fun fragmentId c₃ h₁₂ => ?_
  refine Accepts.bind (accepts_field _ 0 accepts_u32) fun fragmentIndex c₄ h₁₃ => ?_
  refine Accepts.bind (accepts_field _ ⟨0, 0⟩ accepts_fragmentDescriptor)
    fun fragmentDescriptor c₅ h₁₄ => ?_
  refine Accepts.bind (accepts_field _ (Octets.zero 24) (accepts_bytes 24))
    fun ivNonce c₆ h₁₅ => ?_
  refine Accepts.bind (accepts_field _ (Octets.zero 32) (accepts_bytes 32))
    fun deltaBaseHash c₇ h₁₆ => ?_
  refine Accepts.bind (accepts_field _ 0 accepts_u32) fun fileCrc32 c₈ h₁₇ => ?_
  refine Accepts.bind (accepts_field _ (Octets.zero 32) (accepts_bytes 32))
    fun contentHash c₉ h₁₈ => ?_
  refine Accepts.bind (accepts_field _ 0 accepts_u32) fun uidGid d₁ h₁₉ => ?_
  refine Accepts.bind (accepts_field _ ⟨0, 0, 0⟩ accepts_timestamps) fun timestamps d₂ h₂₀ => ?_
  refine Accepts.bind (accepts_field _ 0 accepts_u16) fun permissions d₃ h₂₁ => ?_
  -- the lengths and the trailing fields
  refine Accepts.bind accepts_lenU16 fun nameLen d₄ h₂₂ => ?_
  refine Accepts.bind (accepts_lenField _ accepts_lenU16) fun pathLen d₅ h₂₃ => ?_
  refine Accepts.bind (accepts_lenField _ accepts_lenU32) fun sparseLen d₆ h₂₄ => ?_
  refine Accepts.bind (accepts_lenField _ accepts_lenU24) fun fecLen d₇ h₂₅ => ?_
  refine Accepts.check_bind fun _ _ => Accepts.check_bind fun _ _ =>
    Accepts.check_bind fun _ _ => Accepts.position_bind fun _ => Accepts.check_bind fun _ _ => ?_
  refine Accepts.bind (accepts_bytes _) fun name d₈ h₂₆ => ?_
  refine Accepts.bind (accepts_bytes _) fun path d₉ h₂₇ => ?_
  refine Accepts.bind (accepts_bytes _) fun sparseMap e₁ h₂₈ => ?_
  refine Accepts.bind (accepts_bytes _) fun fecValue e₂ h₂₉ => ?_
  refine Accepts.position_bind fun _ => Accepts.check_bind fun _ _ => ?_
  refine Accepts.check_bind fun computed hcomputed => Accepts.check_bind fun _ hsize => ?_
  refine Accepts.pure ⟨?_, by rw [hcomputed]; simpa using hsize⟩
  -- what the writer computes from the result
  obtain rfl : computed = headerSize.toNat := by simpa using hsize
  obtain rfl : declared = headerSize := by simpa using hdeclared
  obtain ⟨nameLen', hname, rfl⟩ := h₂₂
  obtain ⟨pathLen', hpath, rfl, hpathField⟩ :=
    trailing_eq (0 : UInt16) rfl h₂₃ path
  obtain ⟨sparseLen', hsparse, rfl, hsparseField⟩ :=
    trailing_eq (0 : UInt32) rfl h₂₄ sparseMap
  have hfec24 : flags.selectiveFec = true → fecLen < 2 ^ 24 := by
    rintro hflag
    rcases h₂₅ with ⟨-, -, hlt⟩ | ⟨hnot, -⟩
    · exact hlt
    · cases hnot.symm.trans hflag
  obtain ⟨fecLen', hfec, rfl, hfecField⟩ :=
    trailing_eq (0 : UInt32) rfl (h₂₅.imp_left fun h => ⟨h.1, h.2.1⟩) fecValue
  simp only [writeLfh, bind_eq_ok_iff, exists_unit, u32OfLen_eq_ok_iff,
    u16OfLen_eq_ok_iff, rejectIf_eq_ok_iff, pure_eq_ok, ok.injEq]
  refine ⟨hmode, _, hcomputed, declared, ⟨declared.toNat_lt, rfl⟩, nameLen', ⟨?_, ?_⟩,
    pathLen', ⟨?_, hpath⟩, sparseLen', ⟨?_, hsparse⟩, fecLen', ⟨?_, hfec⟩, b₅, h₅, b₆, h₆, ?_, ?_⟩
  · rw [name.property, ← hname]
    exact nameLen'.toNat_lt
  · rw [hname, name.property]
  · rw [← hpath]
    exact pathLen'.toNat_lt
  · rw [← hsparse]
    exact sparseLen'.toNat_lt
  · rw [← hfec]
    exact fecLen'.toNat_lt
  · rw [hfec, fecValue.property]
    intro hbig
    rw [Bool.and_eq_true, decide_eq_true_eq] at hbig
    have := hfec24 hbig.1
    omega
  · rw [← hpathField, ← hsparseField, ← hfecField, h₁, h₂, h₃, h₄, h₇, h₈, h₉, h₁₀, h₁₁, h₁₂, h₁₃,
      h₁₄, h₁₅, h₁₆, h₁₇, h₁₈, h₁₉, h₂₀, h₂₁, h₂₆, h₂₇, h₂₈, h₂₉, append_nil]
    rfl

/-- What `parse_lfh` accepts is what `write_lfh` makes of the result. -/
theorem writeLfh_of_parseLfh {flags : GlobalFlags} {limits : ResourceLimits} {input : Bytes}
    {lfh : LocalFileHeader} {n : ℕ} (h : parseLfh input flags limits = .ok (lfh, n)) :
    writeLfh flags lfh = .ok (input.take n) := by
  simp only [parseLfh, bind_eq_ok_iff, Prod.exists, exists_unit, rejectIf_eq_ok_iff, pure_eq_ok,
    ok.injEq, Prod.mk.injEq, not_lt, gt_iff_lt] at h
  obtain ⟨headerSize, _, -, -, hlen, _, _, hfields, rfl, rfl⟩ := h
  obtain ⟨c, hc, -⟩ := runParser_eq_ok_iff.mp hfields
  obtain ⟨used, hrest, -, hwrite, hsize⟩ := accepts_lfhFields flags limits headerSize hc
  have hused : used.length = headerSize.toNat :=
    Except.ok.inj ((length_writeLfh hwrite).1.symm.trans hsize)
  -- the header is all of the bytes it was given
  have htake : input.take headerSize.toNat = used := by
    have hprefix : (input.take headerSize.toNat).take used.length = used := by
      change input.take headerSize.toNat = used ++ c.rest at hrest
      rw [hrest, take_left]
    rwa [hused, take_take, Nat.min_self] at hprefix
  rw [htake]
  exact hwrite

/-- Limits that a header of the given length does not reach. -/
structure LfhUnbound (limits : ResourceLimits) (flags : GlobalFlags) (lfh : LocalFileHeader)
    (len : ℕ) : Prop where
  header : len ≤ limits.maxLfhHeaderBytes
  path : lfh.name.length + lenIf flags.hasPath lfh.path.length ≤ limits.maxPathBytes
  sparse : lenIf flags.sparseFiles lfh.sparseMap.length ≤ limits.maxSparseMapBytes
  fec : lenIf flags.selectiveFec lfh.fecValue.length ≤ limits.maxFecValueBytes

/-- No written header reaches the unlimited configuration. -/
theorem lfhUnbound_unlimited {flags : GlobalFlags} {lfh : LocalFileHeader} {bytes : Bytes}
    (hw : writeLfh flags lfh = .ok bytes) : LfhUnbound .unlimited flags lfh bytes.length := by
  obtain ⟨hsize, hlt⟩ := length_writeLfh hw
  have hlen := (computeLfhSize_eq_ok_iff.mp hsize).1
  have hmax : 2 ^ 32 ≤ u64Max := by decide
  rw [lfhTrailingLen] at hlen
  constructor
  all_goals
    simp only [ResourceLimits.unlimited]
    omega

/-- The codec of the Local File Header is a bijection between headers up to the fields their
flags switch off, and accepted byte strings. -/
theorem lfh_codec (flags : GlobalFlags) (limits : ResourceLimits) :
    (∀ lfh bytes, writeLfh flags lfh = .ok bytes → LfhUnbound limits flags lfh bytes.length →
      ∀ rest, computeLfhSize flags lfh = .ok bytes.length ∧
        parseLfh (bytes ++ rest) flags limits = .ok (lfh.onWire flags, bytes.length)) ∧
    ∀ input lfh n, parseLfh input flags limits = .ok (lfh, n) →
      n ≤ input.length ∧ writeLfh flags lfh = .ok (input.take n) := by
  constructor
  · intro lfh bytes hwrite hunbound rest
    exact ⟨(length_writeLfh hwrite).1, parseLfh_writeLfh hwrite hunbound.header hunbound.path
      hunbound.sparse hunbound.fec rest⟩
  · intro input lfh n hparse
    exact ⟨(parseLfh_eq_ok hparse).2.2.1, writeLfh_of_parseLfh hparse⟩

/-- Flags with four kinds of optional fields. -/
def exampleLfhFlags : GlobalFlags :=
  { compressed := true, perFileCrc := true, hasPath := true, hasPerms := true }

/-- A header without the checksum its flags ask for, and with an owner they do not ask for. -/
def exampleLfh : LocalFileHeader :=
  { LocalFileHeader.minimalStore [0x61] 7 with
    compAlgoId := some 1, permissions := some 0x1A4, uidGid := some 9, path := [0x62] }

/-- The checksum is written as zero, the owner is left out. -/
def exampleLfhBytes : Bytes :=
  [31, 0, 0, 0, 0, 0, 0, 0, 0, 0, 7, 0, 0, 0, 7, 0, 0, 0, 1, 0, 0, 0, 0, 0xA4, 1, 1, 0, 1, 0, 0x61,
    0x62]

/-- That header is written, read back with a byte behind, and written again. -/
theorem lfh_codec_exampleLfh :
    (computeLfhSize exampleLfhFlags exampleLfh = .ok 31 ∧
      parseLfh (exampleLfhBytes ++ [0xFF]) exampleLfhFlags .unlimited =
        .ok (exampleLfh.onWire exampleLfhFlags, 31)) ∧
    writeLfh exampleLfhFlags (exampleLfh.onWire exampleLfhFlags) = .ok exampleLfhBytes ∧
    (exampleLfh.onWire exampleLfhFlags).fileCrc32 = some 0 ∧
    (exampleLfh.onWire exampleLfhFlags).uidGid = none := by
  have hread := (lfh_codec exampleLfhFlags .unlimited).1 exampleLfh exampleLfhBytes rfl
    ⟨by decide, by decide, by decide, by decide⟩ [0xFF]
  exact ⟨hread, ((lfh_codec exampleLfhFlags .unlimited).2 _ _ _ hread.2).2, rfl, rfl⟩

/-! ### The Global Header -/

/-- A descriptor is its 96 bytes. -/
theorem toBytes_decodePartitionDescriptor {bytes : Octets 96} {d : PartitionDescriptor}
    (h : decodePartitionDescriptor bytes = .ok d) : d.toBytes = bytes.val := by
  simp only [decodePartitionDescriptor, bind_eq_ok_iff, exists_unit,
    rejectIf_eq_ok_iff, pure_eq_ok, ok.injEq] at h
  obtain ⟨hzero, rfl⟩ := h
  obtain ⟨bytes, hlen⟩ := bytes
  have hword : ∀ off (h : off + 4 ≤ 96),
      u32Bytes (UInt32.ofNat (leNat (Octets.slice ⟨bytes, hlen⟩ off 4 h).val)) =
        (bytes.drop off).take 4 := by
    intro off h
    have hslice := (Octets.slice ⟨bytes, hlen⟩ off 4 h).property
    have hlt : leNat (Octets.slice ⟨bytes, hlen⟩ off 4 h).val < 2 ^ 32 := by
      simpa [hslice] using leNat_lt (Octets.slice ⟨bytes, hlen⟩ off 4 h).val
    rw [u32Bytes, UInt32.toNat_ofNat_of_lt' hlt, leBytes_leNat_of_length hslice]
    rfl
  have hreserved : (bytes.drop 88).take 8 = List.replicate 8 0 := by
    refine eq_replicate_iff.mpr ⟨by simp [hlen], fun b hb => ?_⟩
    by_contra hne
    exact hzero (any_eq_true.mpr ⟨b, hb, by simpa using hne⟩)
  rw [PartitionDescriptor.toBytes, hword, hword, ← hreserved]
  -- six slices side by side
  have hsplit : bytes = bytes.take (16 + (4 + (4 + (32 + (32 + 8))))) :=
    (take_of_length_le hlen.le).symm
  refine Eq.trans ?_ hsplit.symm
  rw [take_add, take_add, take_add, take_add, take_add]
  simp only [drop_drop, drop_zero, Octets.slice]

/-- The bytes of an accepted Global Header, with its flag bytes as they were read. -/
structure GlobalHeaderBytes (header : GlobalHeader) (u : Bytes) : Prop where
  version : header.version = supportedGlobalVersion
  flagsBytes_ge : 4 ≤ header.flagsBytes.length
  flags_eq : header.flags = flagsOfBytes header.flagsBytes
  flags_valid : validateGlobalFlags header.flags = .ok ()
  kms_isSome : header.kms.isSome = header.flags.encrypted
  descriptor_isSome : header.partitionDescriptor.isSome = header.flags.partitionedArchive
  bytes : ∃ (flagsLen : UInt16) (kms : Bytes), flagsLen.toNat = header.flagsBytes.length ∧
    kmsBytes header.kms = .ok kms ∧
    u = magic ++ ([header.version] ++ ([0] ++ (u16Bytes flagsLen ++ (header.flagsBytes ++
      ((header.partitionDescriptor.map (·.toBytes)).getD [] ++ kms)))))

theorem accepts_kmsExtension (limits : ResourceLimits) :
    Accepts (kmsExtension limits) fun kms u => kms.toBytes = .ok u := by
  refine Accepts.bind accepts_u8 fun modeId u₁ h₁ => ?_
  refine Accepts.check_bind fun _ _ => ?_
  refine Accepts.bind accepts_u32 fun len u₂ h₂ => ?_
  refine Accepts.check_bind fun _ _ => ?_
  refine Accepts.bind (accepts_bytes _) fun payload u₃ h₃ => Accepts.pure ?_
  simp only [KmsData.toBytes, bind_eq_ok_iff, u32OfLen_eq_ok_iff, pure_eq_ok, ok.injEq]
  refine ⟨len, ⟨?_, payload.property.symm⟩, ?_⟩
  · rw [payload.property]
    exact len.toNat_lt
  · rw [h₁, h₂, h₃, append_nil]

theorem accepts_globalHeader (limits : ResourceLimits) :
    Accepts (globalHeader limits) GlobalHeaderBytes := by
  refine Accepts.bind (accepts_bytes 4) fun m u₁ h₁ => ?_
  refine Accepts.check_bind fun _ hmagic => ?_
  refine Accepts.bind accepts_u8 fun version u₂ h₂ => ?_
  refine Accepts.check_bind fun _ hversion => ?_
  refine Accepts.bind accepts_u8 fun reserved u₃ h₃ => ?_
  refine Accepts.check_bind fun _ hreserved => ?_
  refine Accepts.bind accepts_u16 fun flagsSize u₄ h₄ => ?_
  refine Accepts.check_bind fun _ hfour => ?_
  refine Accepts.check_bind fun _ _ => ?_
  refine Accepts.bind (accepts_bytes _) fun flagsBytes u₅ h₅ => ?_
  refine Accepts.check_bind fun _ hvalid => ?_
  have hdescriptor : Accepts (do
      let bytes ← readBytes 96
      check (decodePartitionDescriptor bytes) : Parser PartitionDescriptor)
      fun d u => u = d.toBytes := by
    refine Accepts.bind (accepts_bytes 96) fun bytes u hu => Accepts.check fun d hd => ?_
    rw [append_nil, hu, toBytes_decodePartitionDescriptor hd]
  refine Accepts.bind (hdescriptor.optional _) fun descriptor u₆ h₆ => ?_
  refine Accepts.bind ((accepts_kmsExtension limits).optional _) fun kms u₇ h₇ => ?_
  refine Accepts.check_bind fun _ _ => Accepts.check_bind fun _ _ => Accepts.pure ?_
  rw [rejectIf_eq_ok_iff, not_not] at hmagic hversion hreserved
  rw [rejectIf_eq_ok_iff, not_lt] at hfour
  have hdescBytes : descriptor.isSome = (flagsOfBytes flagsBytes.val).partitionedArchive ∧
      u₆ = (descriptor.map (·.toBytes)).getD [] := by
    rcases h₆ with ⟨hb, d, rfl, rfl⟩ | ⟨hb, rfl, rfl⟩ <;> exact ⟨hb.symm, rfl⟩
  have hkmsBytes : kms.isSome = (flagsOfBytes flagsBytes.val).encrypted ∧
      kmsBytes kms = .ok u₇ := by
    rcases h₇ with ⟨hb, k, rfl, hk⟩ | ⟨hb, rfl, rfl⟩
    · exact ⟨hb.symm, hk⟩
    · exact ⟨hb.symm, rfl⟩
  refine ⟨hversion, ?_, rfl, hvalid, hkmsBytes.1, hdescBytes.1, flagsSize, u₇,
    flagsBytes.property.symm, hkmsBytes.2, ?_⟩
  · rw [flagsBytes.property]
    exact hfour
  · rw [h₁, hmagic, h₂, h₃, hreserved, h₄, h₅, hdescBytes.2, append_nil]

/-! #### Flag bits that the format does not define -/

/-- The positions of the flags that the format defines. -/
def definedFlagBits : List ℕ :=
  [0, 1, 2, 3, 4, 5, 8, 9, 10, 16, 17, 18, 19, 20, 24, 25, 26, 27, 28, 29, 30]

/-- Bytes of a flags field in which only defined flags are set. -/
def OnlyDefinedFlags (flagsBytes : Bytes) : Prop :=
  ∀ i, (leNat flagsBytes).testBit i = true → i ∈ definedFlagBits

/-- Reading the flags of a word keeps the defined bits and no others. -/
theorem testBit_bits_fromBitsTruncate (w : UInt32) (i : ℕ) :
    (GlobalFlags.fromBitsTruncate w).bits.toNat.testBit i =
      (decide (i ∈ definedFlagBits) && w.toNat.testBit i) := by
  rw [GlobalFlags.toNat_bits, BitList.testBit_natOfBits]
  rcases Nat.lt_or_ge i 32 with hlt | hge
  · interval_cases i <;> simp [GlobalFlags.toBitList, GlobalFlags.fromBitsTruncate, definedFlagBits]
  · have hnot : i ∉ definedFlagBits := by
      simp only [definedFlagBits, mem_cons, not_mem_nil, or_false, not_or]
      omega
    have hnone : (GlobalFlags.fromBitsTruncate w).toBitList[i]? = none :=
      List.getElem?_eq_none hge
    rw [decide_eq_false hnot, Bool.false_and, getD_eq_getElem?_getD, hnone, Option.getD_none]

theorem bits_fromBitsTruncate_iff (w : UInt32) :
    (GlobalFlags.fromBitsTruncate w).bits = w ↔
      ∀ i, w.toNat.testBit i = true → i ∈ definedFlagBits := by
  constructor
  · intro h i hi
    rw [← h, testBit_bits_fromBitsTruncate, Bool.and_eq_true, decide_eq_true_eq] at hi
    exact hi.1
  · intro h
    refine UInt32.toNat_inj.mp (Nat.eq_of_testBit_eq fun i => ?_)
    rw [testBit_bits_fromBitsTruncate]
    cases hi : w.toNat.testBit i with
    | false => rw [Bool.and_false]
    | true => rw [Bool.and_true, decide_eq_true (h i hi)]

/-- What an accepted Global Header is written as: its own bytes exactly when the first four flag
bytes are the bits of the flags. -/
theorem GlobalHeaderBytes.writeGlobalHeader_eq_iff {header : GlobalHeader} {u : Bytes}
    (h : GlobalHeaderBytes header u) :
    writeGlobalHeader header = .ok u ↔ u32Bytes header.flags.bits = header.flagsBytes.take 4 := by
  obtain ⟨flagsLen, kms, hlen, hkms, rfl⟩ := h.bytes
  have hwireLen : header.wireFlagsBytes.length = header.flagsBytes.length := by
    have := h.flagsBytes_ge
    rw [GlobalHeader.wireFlagsBytes, length_append, length_u32Bytes, length_drop]
    omega
  have hwrite : writeGlobalHeader header = .ok (magic ++ ([header.version] ++ ([0] ++
      (u16Bytes flagsLen ++ (header.wireFlagsBytes ++
        ((header.partitionDescriptor.map (·.toBytes)).getD [] ++ kms)))))) := by
    have hkmsSome := h.kms_isSome
    have hdescSome := h.descriptor_isSome
    simp only [writeGlobalHeader, bind_eq_ok_iff, exists_unit,
      rejectIf_eq_ok_iff, pure_eq_ok, ok.injEq, u16OfLen_eq_ok_iff]
    refine ⟨h.flags_valid, ?_, ?_, ?_, ?_, Nat.not_lt.mpr h.flagsBytes_ge, flagsLen, ⟨?_, ?_⟩, kms,
      hkms, rfl⟩
    · rw [← hkmsSome]
      cases header.kms <;> simp
    · rw [← hkmsSome]
      cases header.kms <;> simp
    · rw [← hdescSome]
      cases header.partitionDescriptor <;> simp
    · rw [← hdescSome]
      cases header.partitionDescriptor <;> simp
    · rw [hwireLen, ← hlen]
      exact flagsLen.toNat_lt
    · rw [hwireLen, hlen]
  -- the two byte strings differ in the flag bytes only
  have hcancel : header.wireFlagsBytes = header.flagsBytes ↔
      u32Bytes header.flags.bits = header.flagsBytes.take 4 := by
    rw [GlobalHeader.wireFlagsBytes]
    constructor
    · intro heq
      have htake := congrArg (List.take 4) heq
      rwa [take_left' (length_u32Bytes _)] at htake
    · intro heq
      rw [heq, take_append_drop]
  rw [hwrite, ok.injEq, append_cancel_left_eq, append_cancel_left_eq,
    append_cancel_left_eq, append_cancel_left_eq, append_cancel_right_eq, hcancel]

/-- The bits of the flags are the first four flag bytes exactly when those hold defined bits
only. -/
theorem u32Bytes_bits_flagsOfBytes_iff {flagsBytes : Bytes} (hfour : 4 ≤ flagsBytes.length) :
    u32Bytes (flagsOfBytes flagsBytes).bits = flagsBytes.take 4 ↔
      OnlyDefinedFlags (flagsBytes.take 4) := by
  set w := UInt32.ofNat (leNat (flagsBytes.take 4)) with hw
  have hword : w.toNat = leNat (flagsBytes.take 4) := toNat_ofNat_leNat_take_four flagsBytes
  have hbytes : u32Bytes w = flagsBytes.take 4 := by
    rw [u32Bytes, hword]
    exact leBytes_leNat_of_length (by rw [length_take, Nat.min_eq_left hfour])
  rw [OnlyDefinedFlags, ← hword, ← bits_fromBitsTruncate_iff]
  constructor
  · intro h
    have hval := congrArg (fun bs => UInt32.ofNat (leNat bs)) (h.trans hbytes.symm)
    simpa only [u32Bytes, ofNat_leNat_leBytes_uint32, flagsOfBytes, ← hw] using hval
  · intro h
    rw [flagsOfBytes, ← hw, h, hbytes]

/-- A flags field without undefined bits has none in its first four bytes. -/
theorem OnlyDefinedFlags.take_four {flagsBytes : Bytes} (hfour : 4 ≤ flagsBytes.length)
    (h : OnlyDefinedFlags flagsBytes) : OnlyDefinedFlags (flagsBytes.take 4) := by
  intro i hi
  rw [leNat_take hfour, show 256 ^ 4 = 2 ^ 32 from rfl, Nat.testBit_mod_two_pow,
    Bool.and_eq_true] at hi
  exact h i hi.2

/-- The flags field of a byte string that starts with a Global Header. -/
def flagsField (input : Bytes) : Bytes := (input.drop 8).take (headerFlagsSize input)

/-- Limits that a Global Header does not reach. -/
structure GlobalHeaderUnbound (limits : ResourceLimits) (header : GlobalHeader) : Prop where
  flags : header.flagsBytes.length ≤ limits.maxGlobalFlagsBytes
  kms : ∀ kms ∈ header.kms, kms.payload.length ≤ limits.maxKmsPayloadBytes

/-- The flag bytes of an accepted header are the flags field of the input, and the section that
entries authenticate is the input up to its end. -/
theorem flagsField_of_parseGlobalHeader {limits : ResourceLimits} {input : Bytes}
    {header : GlobalHeader} {n : ℕ} (h : parseGlobalHeader input limits = .ok (header, n)) :
    header.flagsBytes = flagsField input ∧
      globalHeaderFlagsBytes header = input.take (8 + headerFlagsSize input) ∧
      GlobalHeaderBytes header (input.take n) := by
  obtain ⟨c, hc, rfl⟩ := runParser_eq_ok_iff.mp h
  obtain ⟨u, hrest, hpos, hbytes⟩ := accepts_globalHeader limits hc
  obtain ⟨flagsLen, kms, hlen, -, hu⟩ := hbytes.bytes
  change input = u ++ c.rest at hrest
  have hfirst : input = magic ++ ([header.version] ++ ([0] ++ (u16Bytes flagsLen ++
      (header.flagsBytes ++ ((header.partitionDescriptor.map (·.toBytes)).getD [] ++
        (kms ++ c.rest)))))) := by
    rw [hrest, hu]
    simp only [append_assoc]
  have hsize : headerFlagsSize input = header.flagsBytes.length := by
    have htwo : (input.drop 6).take 2 = u16Bytes flagsLen := by
      rw [hfirst]
      simp [magic, u16Bytes]
    rw [headerFlagsSize, htwo, ← hlen, u16Bytes,
      leNat_leBytes_of_lt (by simpa using flagsLen.toNat_lt)]
  have hfield : flagsField input = header.flagsBytes := by
    have hdrop : input.drop 8 = header.flagsBytes ++ ((header.partitionDescriptor.map
        (·.toBytes)).getD [] ++ (kms ++ c.rest)) := by
      rw [hfirst]
      simp [magic, u16Bytes]
    rw [flagsField, hsize, hdrop, take_left]
  refine ⟨hfield.symm, ?_, ?_⟩
  · have hsection : globalHeaderFlagsBytes header =
        magic ++ ([header.version] ++ ([0] ++ (u16Bytes flagsLen ++ header.flagsBytes))) := by
      rw [globalHeaderFlagsBytes, ← hlen, UInt16.ofNat_toNat]
      simp only [append_assoc]
    have hlength : (globalHeaderFlagsBytes header).length = 8 + headerFlagsSize input := by
      rw [hsection, hsize]
      simp only [length_append, length_cons, length_nil, length_u16Bytes, magic]
      omega
    have hfront : input = globalHeaderFlagsBytes header ++
        ((header.partitionDescriptor.map (·.toBytes)).getD [] ++ (kms ++ c.rest)) := by
      rw [hsection, hfirst]
      simp only [append_assoc]
    rw [← hlength]
    conv_rhs => rw [hfront]
    exact (take_left).symm
  · rw [hpos]
    change GlobalHeaderBytes header (input.take (0 + u.length))
    rw [Nat.zero_add, hrest, take_left]
    exact hbytes

/-- The codec of the Global Header: what was written is read back; and an accepted header is
written as the bytes it was read from, carrying defined flags only, exactly when the flags field
of the input has no undefined bit. The authenticated section is the input up to the end of that
field in any case. -/
theorem globalHeader_codec (limits : ResourceLimits) :
    (∀ header bytes, writeGlobalHeader header = .ok bytes →
      header.version = supportedGlobalVersion →
      (∀ kms ∈ header.kms, 1 ≤ kms.modeId ∧ kms.modeId ≤ 4) →
      header.flagsBytes.take 4 = u32Bytes header.flags.bits → GlobalHeaderUnbound limits header →
      ∀ rest, parseGlobalHeader (bytes ++ rest) limits = .ok (header, bytes.length)) ∧
    ∀ input header n, parseGlobalHeader input limits = .ok (header, n) →
      globalHeaderFlagsBytes header = input.take (8 + headerFlagsSize input) ∧
      ((writeGlobalHeader header = .ok (input.take n) ∧ OnlyDefinedFlags header.flagsBytes) ↔
        OnlyDefinedFlags (flagsField input)) ∧
      (writeGlobalHeader header = .ok (input.take n) ↔
        OnlyDefinedFlags ((flagsField input).take 4)) := by
  constructor
  · intro header bytes hwrite hversion hkms hflags hunbound rest
    have hfour : 4 ≤ header.flagsBytes.length := by
      have hlen := congrArg List.length hflags
      rw [length_take, length_u32Bytes] at hlen
      omega
    have hwire : header.wireFlagsBytes = header.flagsBytes := by
      rw [GlobalHeader.wireFlagsBytes, ← hflags, take_append_drop]
    have hread := parseGlobalHeader_writeGlobalHeader hwrite hversion hunbound.flags
      (fun kms hmem => ⟨if_pos (hkms kms hmem), hunbound.kms kms hmem⟩) rest
    rwa [hwire] at hread
  · intro input header n hparse
    obtain ⟨hfield, hsection, hbytes⟩ := flagsField_of_parseGlobalHeader hparse
    have hfour : 4 ≤ (flagsField input).length := hfield ▸ hbytes.flagsBytes_ge
    have hwrite : writeGlobalHeader header = .ok (input.take n) ↔
        OnlyDefinedFlags ((flagsField input).take 4) := by
      rw [hbytes.writeGlobalHeader_eq_iff, hbytes.flags_eq, hfield,
        u32Bytes_bits_flagsOfBytes_iff hfour]
    refine ⟨hsection, ?_, hwrite⟩
    rw [hwrite, hfield]
    exact ⟨fun h => h.2, fun h => ⟨h.take_four hfour, h⟩⟩

/-- An archive without index and entries: written, read back, and written again. -/
theorem globalHeader_codec_noIndex :
    parseGlobalHeader ([0x53, 0x41, 0x52, 0x21, 1, 0, 4, 0, 2, 0, 0, 0] ++ [0xFF]) .unlimited =
      .ok (⟨1, [2, 0, 0, 0], { noIndex := true }, none, none⟩, 12) ∧
    writeGlobalHeader ⟨1, [2, 0, 0, 0], { noIndex := true }, none, none⟩ =
      .ok [0x53, 0x41, 0x52, 0x21, 1, 0, 4, 0, 2, 0, 0, 0] := by
  have hread := (globalHeader_codec .unlimited).1 ⟨1, [2, 0, 0, 0], { noIndex := true }, none, none⟩
    [0x53, 0x41, 0x52, 0x21, 1, 0, 4, 0, 2, 0, 0, 0] rfl rfl (fun _ h => nomatch h) rfl
    ⟨by decide, fun _ h => nomatch h⟩ [0xFF]
  refine ⟨hread, ((globalHeader_codec .unlimited).2 _ _ _ hread).2.2.mpr ?_⟩
  -- the flags word is 2, whose only bit is bit 1
  intro i hi
  have hone : i = 1 := by
    have hword : leNat ((flagsField ([0x53, 0x41, 0x52, 0x21, 1, 0, 4, 0, 2, 0, 0, 0] ++
        [0xFF])).take 4) = 2 ^ 1 := by decide
    rw [hword, Nat.testBit_two_pow, decide_eq_true_eq] at hi
    exact hi.symm
  rw [hone]
  decide

/-- A header with the undefined bit 31 is accepted, and written back without it. -/
theorem parseGlobalHeader_undefinedFlag :
    parseGlobalHeader [0x53, 0x41, 0x52, 0x21, 1, 0, 4, 0, 2, 0, 0, 0x80] .unlimited =
      .ok (⟨1, [2, 0, 0, 0x80], { noIndex := true }, none, none⟩, 12) ∧
    writeGlobalHeader ⟨1, [2, 0, 0, 0x80], { noIndex := true }, none, none⟩ =
      .ok [0x53, 0x41, 0x52, 0x21, 1, 0, 4, 0, 2, 0, 0, 0] := by
  decide

/-! ### The Central Dictionary -/

/-- A metadata record. Its padding is counted from where the record starts. -/
theorem accepts_tlvBlock (limits : ResourceLimits) :
    Accepts (tlvBlock limits) fun tlv u => tlv.toBytes = .ok u := by
  intro c tlv c' h
  simp only [tlvBlock, bind_apply, position_apply, check_apply, Except.ok_bind, bind_eq_ok_iff,
    Prod.exists, Prod.mk.injEq, exists_unit, rejectIf_eq_ok_iff, pure_apply, ok.injEq] at h
  obtain ⟨typeId, c₁, h₁, _, ⟨hclass, -, rfl⟩, len, c₂, h₂, _, ⟨hreserved, -, rfl⟩, _,
    ⟨-, -, rfl⟩, value, c₃, h₃, padding, c₄, h₄, _, ⟨hzero, -, rfl⟩, rfl, rfl⟩ := h
  obtain ⟨_, hrest₁, hpos₁, rfl⟩ := accepts_u8 h₁
  obtain ⟨_, hrest₂, hpos₂, rfl⟩ := accepts_u32 h₂
  obtain ⟨_, hrest₃, hpos₃, rfl⟩ := accepts_bytes _ h₃
  obtain ⟨_, hrest₄, hpos₄, rfl⟩ := accepts_bytes _ h₄
  have hlen : len.toNat = value.val.length := value.property.symm
  have hpad : padding.val = List.replicate (tlvPadding (1 + 4 + value.val.length)) 0 := by
    refine eq_replicate_iff.mpr ⟨?_, by simpa using hzero⟩
    rw [padding.property, hpos₃, hpos₂, hpos₁, length_u32Bytes, length_singleton]
    congr 1
    omega
  refine ⟨[typeId] ++ (u32Bytes len ++ (value.val ++ padding.val)), ?_, ?_, ?_⟩
  · simp only [hrest₁, hrest₂, hrest₃, hrest₄, append_assoc]
  · simp only [hpos₄, hpos₃, hpos₂, hpos₁, length_append, Nat.add_assoc]
  · simp only [Tlv.toBytes, bind_eq_ok_iff, exists_unit, rejectIf_eq_ok_iff, pure_eq_ok, ok.injEq,
      u32OfLen_eq_ok_iff]
    exact ⟨hclass, len, ⟨hlen ▸ len.toNat_lt, hlen⟩, hreserved, by rw [hpad]⟩

/-- The loop reads to the end of its input, for which there is fuel enough. -/
theorem writeTlvs_of_tlvBlocks {limits : ResourceLimits} {fuel count : ℕ} {c c' : Cursor}
    {tlvs : List Tlv} (hfuel : c.rest.length ≤ fuel)
    (h : tlvBlocks limits fuel count c = .ok (tlvs, c')) : writeTlvs tlvs = .ok c.rest := by
  induction fuel generalizing count c c' tlvs with
  | zero =>
    rw [length_eq_zero_iff.mp (Nat.le_zero.mp hfuel), ← (Prod.mk.inj (Except.ok.inj h)).1]
    rfl
  | succ fuel ih =>
    rw [tlvBlocks, bind_apply, remaining_apply, Except.ok_bind] at h
    split at h
    · next hend =>
      rw [length_eq_zero_iff.mp hend, ← (Prod.mk.inj (Except.ok.inj h)).1]
      rfl
    · simp only [bind_apply, check_apply, bind_eq_ok_iff, Prod.exists, Prod.mk.injEq, exists_unit,
        pure_apply, ok.injEq] at h
      obtain ⟨_, ⟨-, -, rfl⟩, tlv, c₁, hblock, rest, c₂, hrest, rfl, -⟩ := h
      obtain ⟨u, hu, -, hwrite⟩ := accepts_tlvBlock limits hblock
      have hlen := length_tlv_toBytes hwrite
      rw [hu, length_append] at hfuel
      have hle : c₁.rest.length ≤ fuel := by omega
      rw [writeTlvs, hwrite, Except.ok_bind, ih hle hrest, hu]
      rfl

/-- Records that were read are written as they were. -/
theorem writeTlvs_of_parseTlvs {limits : ResourceLimits} {input : Bytes} {tlvs : List Tlv}
    (h : parseTlvs input limits = .ok tlvs) : writeTlvs tlvs = .ok input := by
  obtain ⟨⟨_, n⟩, hrun, rfl⟩ := Except.map_eq_ok_iff.mp h
  obtain ⟨c, hc, -⟩ := runParser_eq_ok_iff.mp hrun
  exact writeTlvs_of_tlvBlocks (c := Cursor.ofBytes input) le_rfl hc

theorem accepts_cdMetadata (limits : ResourceLimits) (b : Bool) :
    Accepts ((·.getD []) <$> optional b (cdMetadataField limits)) fun tlvs u =>
      cdMetadataBytes b tlvs = .ok u := by
  cases b with
  | false => exact Accepts.map (R := fun _ u => u = []) (Accepts.pure rfl) fun _ _ h => h ▸ rfl
  | true =>
    refine Accepts.map (Accepts.map ?_ fun _ _ h => h) fun _ _ h => h
    refine Accepts.bind accepts_u32 fun size u hu => Accepts.check_bind fun _ _ => ?_
    refine Accepts.bind (accepts_bytes _) fun metaBytes v hv => Accepts.check fun tlvs htlvs => ?_
    have hsize : size.toNat = metaBytes.val.length := metaBytes.property.symm
    simp only [cdMetadataBytes, if_true, Option.getD_some, bind_eq_ok_iff, pure_eq_ok, ok.injEq,
      u32OfLen_eq_ok_iff]
    refine ⟨_, writeTlvs_of_parseTlvs htlvs, size, ⟨hsize ▸ size.toNat_lt, hsize⟩, ?_⟩
    rw [hu, hv, append_nil]

theorem accepts_requiredIf {α : Type} {p : Parser α} {toBytes : α → Bytes} (b : Bool)
    (missing : String) (hp : Accepts p fun a u => u = toBytes a) :
    Accepts (optional b p) fun o u => requiredIf b o missing toBytes = .ok u := by
  cases b with
  | false => exact Accepts.pure rfl
  | true => exact hp.map fun a u hu => by rw [hu]; rfl

theorem accepts_sizes (flags : GlobalFlags) (n : ℕ) :
    Accepts (readSizes flags n) fun sizes u =>
      sizes.length = n ∧ writeSizes flags sizes = .ok u := by
  induction n with
  | zero => exact Accepts.pure ⟨rfl, rfl⟩
  | succ n ih =>
    refine Accepts.bind (accepts_size flags) fun size u hu => ?_
    refine Accepts.bind ih fun sizes v hv => Accepts.pure ⟨congrArg (· + 1) hv.1, ?_⟩
    rw [writeSizes, hu, Except.ok_bind, hv.2, append_nil]
    rfl

theorem accepts_centralDictionary (flags : GlobalFlags) (limits : ResourceLimits) :
    Accepts (centralDictionary flags limits) fun cd u =>
      writeCentralDictionary cd flags = .ok u := by
  refine Accepts.bind accepts_u8 fun version b₁ h₁ => Accepts.check_bind fun _ _ => ?_
  refine Accepts.bind (accepts_bytes 7) fun reserved b₂ h₂ => Accepts.check_bind fun _ hzero => ?_
  refine Accepts.bind (accepts_size flags) fun fileCount b₃ h₃ => ?_
  refine Accepts.bind (@accepts_requiredIf _ _ (fun p => u16Bytes p.1 ++ u16Bytes p.2) _
    "partition info required for PARTITIONED_ARCHIVE" ?_) fun partitionInfo b₄ h₄ => ?_
  · refine Accepts.bind accepts_u16 fun _ u hu => Accepts.bind accepts_u16 fun _ v hv =>
      Accepts.pure ?_
    rw [hu, hv, append_nil]
  refine Accepts.bind (accepts_requiredIf _ "global CRC32 required by HAS_GLOBAL_CRC32"
    accepts_u32) fun globalCrc32 b₅ h₅ => ?_
  refine Accepts.bind (accepts_cdMetadata limits _) fun tlvs b₆ h₆ => ?_
  refine Accepts.check_bind fun _ _ => Accepts.check_bind fun _ _ => ?_
  refine Accepts.bind (accepts_sizes flags _) fun offsets b₇ h₇ => Accepts.pure ?_
  have hreserved : reserved.val = List.replicate 7 0 :=
    eq_replicate_iff.mpr ⟨reserved.property, by simpa using hzero⟩
  simp only [writeCentralDictionary, bind_eq_ok_iff, exists_unit, rejectIf_eq_ok_iff, not_not,
    ne_eq, pure_eq_ok, ok.injEq]
  refine ⟨b₃, h₃, b₄, h₄, b₅, h₅, b₆, h₆, h₇.1.symm, b₇, h₇.2, ?_⟩
  rw [h₁, h₂, hreserved, append_nil]

/-- Limits that a dictionary of the given length, read with that many bytes behind it, does not
reach. -/
structure CdUnbound (limits : ResourceLimits) (cd : CentralDictionary) (len rest : ℕ) : Prop where
  total : len + rest ≤ limits.maxCdBytes
  value : ∀ tlv ∈ cd.tlvs, tlv.value.length ≤ limits.maxTlvBytes
  records : cd.tlvs.length ≤ limits.maxTlvCount
  allocation : ∀ n ≤ len, limits.checkAllocationBytes n = .ok ()
  entries : cd.offsets.length ≤ limits.maxEntryCount

/-- The codecs of the metadata records and of the Central Dictionary are exact in both directions.
The offsets of a dictionary are a `Vec<u64>`, which holds at most `isize::MAX` bytes. -/
theorem centralDictionary_codec (flags : GlobalFlags) (limits : ResourceLimits) :
    ((∀ tlvs bytes, writeTlvs tlvs = .ok bytes →
      (∀ tlv ∈ tlvs, tlv.value.length ≤ limits.maxTlvBytes) → tlvs.length ≤ limits.maxTlvCount →
        parseTlvs bytes limits = .ok tlvs) ∧
      ∀ input tlvs, parseTlvs input limits = .ok tlvs → writeTlvs tlvs = .ok input) ∧
    (∀ cd bytes rest, writeCentralDictionary cd flags = .ok bytes →
      cd.version = supportedCdVersion → cd.offsets.length ≤ isizeMax / 8 →
      CdUnbound limits cd bytes.length rest.length →
        parseCentralDictionary (bytes ++ rest) flags limits =
          .ok (cd.onWire flags, bytes.length)) ∧
    ∀ input cd n, parseCentralDictionary input flags limits = .ok (cd, n) →
      n ≤ input.length ∧ writeCentralDictionary cd flags = .ok (input.take n) := by
  refine ⟨⟨fun _ _ => parseTlvs_writeTlvs, fun _ _ => writeTlvs_of_parseTlvs⟩, ?_, ?_⟩
  · intro cd bytes rest hwrite hversion hisize h
    exact parseCentralDictionary_writeCentralDictionary rest hwrite hversion
      (length_append.trans_le h.total) h.value h.records h.allocation h.entries hisize
  · intro input cd n h
    obtain ⟨⟨⟩, -, hrun⟩ := bind_eq_ok_iff.mp h
    obtain ⟨c, hc, rfl⟩ := runParser_eq_ok_iff.mp hrun
    obtain ⟨used, hrest, hpos, hwrite⟩ := accepts_centralDictionary flags limits hc
    change input = used ++ c.rest at hrest
    have hlen : c.pos = used.length := hpos.trans (Nat.zero_add _)
    rw [hlen, hrest, take_left]
    exact ⟨by rw [length_append]; omega, hwrite⟩

/-- A dictionary with one record and one entry, read with a byte behind it. -/
theorem centralDictionary_codec_record :
    let cd : CentralDictionary := ⟨1, 1, none, none, [⟨1, [7]⟩], [12]⟩
    ∃ bytes, writeCentralDictionary cd { optPresent := true } = .ok bytes ∧
      parseCentralDictionary (bytes ++ [0xFF]) { optPresent := true } .unlimited =
        .ok (cd, 28) := by
  refine ⟨_, rfl, ?_⟩
  exact (centralDictionary_codec { optPresent := true } .unlimited).2.1
    ⟨1, 1, none, none, [⟨1, [7]⟩], [12]⟩ _ [0xFF] rfl rfl (by decide)
    ⟨by decide, by decide, by decide, by decide, by decide⟩

end Sar
