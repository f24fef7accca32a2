import Sar.Core.Cursor
import Sar.Core.Limits

/-!
# Error-correction values

The two codecs the archive formats use, XOR parity (`0x14`) and Reed–Solomon (`0x11`): their
value layouts, encoders and validators, and the registry that dispatches on the algorithm byte.

`parseFecValue_encodeXor` and `parseFecValue_encodeRs` say that a value an encoder produced is
one the registry accepts, with the parameters it was encoded with.
-/

namespace Sar

open LittleEndian List
open Except (rejectIf bind_eq_ok_iff pure_eq_ok ok_bind exists_unit rejectIf_of_not ok.injEq)

/-- `sar_fec::FecError`. -/
inductive FecError where
  | truncated (msg : String)
  | malformed (msg : String)
  | invalidLength (msg : String)
  | overflow (msg : String)
  | limitExceeded (msg : String)
  | ecFailed (msg : String)
  | reservedValue (msg : String)
  | unsupported (msg : String)
  | recoveryUnavailable (msg : String)
  deriving DecidableEq

/-- `impl From<FecError> for SarError`. -/
def FecError.toSarError : FecError → SarError
  | .truncated m => .truncated m
  | .malformed m => .malformed m
  | .invalidLength m => .invalidLength m
  | .overflow m => .overflow m
  | .limitExceeded m => .limitExceeded m
  | .ecFailed m => .ecFailed m
  | .reservedValue m => .reservedValue m
  | .unsupported m => .unsupported m
  | .recoveryUnavailable m => .recoveryUnavailable m

/-- `FEC_ALGO_REED_SOLOMON`. -/
def fecAlgoReedSolomon : UInt8 := 0x11

/-- `FEC_ALGO_XOR`. -/
def fecAlgoXor : UInt8 := 0x14

/-- `MAX_PARITY_SIZE` of both codecs. -/
def maxParitySize : ℕ := 256 * 1024 * 1024

/-- `MAX_PARITY_COUNT` of the Reed–Solomon codec. -/
def maxParityCount : ℕ := 32

/-- `validate_fec_algo_id`. -/
def validateFecAlgoId (algoId : UInt8) : Except FecError Unit :=
  if algoId = 0x00 ∨ algoId = 0x11 ∨ algoId = 0x14 then .ok ()
  else if algoId = 0x10 then .error (.reservedValue "FEC algo ID 0x10 is reserved")
  else if algoId = 0x12 ∨ algoId = 0x13 ∨ algoId = 0x15 ∨ algoId = 0x16 then
    .error (.unsupported "FEC algorithm is assigned but not implemented")
  else if 0x17 ≤ algoId ∧ algoId ≤ 0x1F then .error (.reservedValue "reserved FEC algo ID")
  else .error (.reservedValue "FEC algo ID out of defined range")

/-- `ceil_div` of both codecs, whose messages differ in the codec's name. -/
def fecCeilDiv (codec : String) (a b : ℕ) : Except FecError ℕ := do
  rejectIf (b = 0) (.overflow (codec ++ " ceil_div by zero"))
  rejectIf (a + (b - 1) > u64Max) (.overflow (codec ++ " ceil_div overflow"))
  pure ((a + (b - 1)) / b)

/-- The block count of both codecs: the length over the size of a group, rounded up. -/
def fecGroupCount (codec unit : String) (originalLen groupSize : ℕ) : Except FecError UInt32 := do
  let count ← fecCeilDiv codec originalLen groupSize
  rejectIf (count ≥ 2 ^ 32) (.overflow (codec ++ " " ++ unit ++ " count exceeds u32"))
  pure (UInt32.ofNat count)

/-- `len` bytes of `data` from `start`, padded with zeros. -/
def paddedSlice (data : Bytes) (start len : ℕ) : Bytes :=
  let present := (data.drop start).take len
  present ++ List.replicate (len - present.length) 0

/-- `xor_into`. -/
def xorInto (dst src : Bytes) : Bytes := List.zipWith (· ^^^ ·) dst src

/-! ### XOR parity -/

/-- `XorCodec`: a checked configuration. -/
structure XorCodec where
  stripeSize : UInt8
  blockSizeIndex : UInt8
  stripeSize_ne : stripeSize ≠ 0
  blockSizeIndex_le : blockSizeIndex.toNat ≤ 8

namespace XorCodec

/-- `BLOCK_SIZE_TABLE`: index `i` stands for `256 * 2 ^ i` bytes. -/
def blockSizeForIndex (index : UInt8) : ℕ := 256 * 2 ^ index.toNat

/-- The codec's block size. -/
def blockSize (c : XorCodec) : ℕ := blockSizeForIndex c.blockSizeIndex

/-- `XorCodec::new`. -/
def new (stripeSize blockSizeIndex : UInt8) : Except FecError XorCodec :=
  if hs : stripeSize ≠ 0 then
    if hb : blockSizeIndex.toNat ≤ 8 then .ok ⟨stripeSize, blockSizeIndex, hs, hb⟩
    else .error (.reservedValue "XOR block size index is reserved")
  else .error (.reservedValue "XOR stripe size 0x00 is reserved")

/-- `XorCodec::from_fec_value`. -/
def fromFecValue (data : Bytes) : Except FecError XorCodec :=
  match data with
  | stripeSize :: blockSizeIndex :: _ => new stripeSize blockSizeIndex
  | _ => .error (.truncated "XOR FEC value too short for config")

/-- `expected_stripe_count`. -/
def expectedStripeCount (originalLen : ℕ) (c : XorCodec) : Except FecError UInt32 :=
  fecGroupCount "XOR" "stripe" originalLen (c.stripeSize.toNat * c.blockSize)

/-- The parity block of one stripe. -/
def stripeParity (c : XorCodec) (protectedBytes : Bytes) (stripe : ℕ) : Bytes :=
  (List.range c.stripeSize.toNat).foldl
    (fun acc i => xorInto acc
      (paddedSlice protectedBytes ((stripe * c.stripeSize.toNat + i) * c.blockSize) c.blockSize))
    (List.replicate c.blockSize 0)

/-- `encode_recovery` of the XOR codec; the value's bytes. -/
def encodeRecovery (c : XorCodec) (protectedBytes : Bytes) : Except FecError Bytes := do
  let stripeCount ← expectedStripeCount protectedBytes.length c
  rejectIf (stripeCount.toNat * c.blockSize > maxParitySize)
    (.limitExceeded "XOR parity exceeds implementation limit")
  let parity := (List.range stripeCount.toNat).flatMap (c.stripeParity protectedBytes)
  pure ([c.stripeSize, c.blockSizeIndex] ++ (u64Bytes (UInt64.ofNat protectedBytes.length) ++
    (u32Bytes stripeCount ++ parity)))

/-- `parse_header` of the XOR codec: original length and stripe count. -/
def parseHeader (data : Bytes) : Except FecError (XorCodec × UInt64 × UInt32) := do
  rejectIf (data.length < 14) (.truncated "XOR FEC value too short for header")
  let c ← fromFecValue data
  pure (c, UInt64.ofNat (leNat ((data.drop 2).take 8)),
    UInt32.ofNat (leNat ((data.drop 10).take 4)))

/-- `validate` of the XOR codec. -/
def validate (c : XorCodec) (data : Bytes) : Except FecError Unit := do
  let (c', originalLen, stripeCount) ← parseHeader data
  rejectIf (c'.stripeSize ≠ c.stripeSize ∨ c'.blockSize ≠ c.blockSize)
    (.invalidLength "XOR config mismatch in validate")
  let expected ← expectedStripeCount originalLen.toNat c'
  rejectIf (stripeCount ≠ expected)
    (.invalidLength "XOR stripe count does not match expected value")
  let parityLen := stripeCount.toNat * c'.blockSize
  rejectIf (parityLen > maxParitySize) (.limitExceeded "XOR parity exceeds implementation limit")
  rejectIf (data.length - 14 ≠ parityLen)
    (.invalidLength "XOR parity data length does not match Stripe Count × Block Size")

end XorCodec

/-! ### Arithmetic in the field of 256 elements -/

/-- `gf_mul_raw`: carry-less multiplication modulo `0x11D`. -/
def gfMulRaw (a b : UInt8) : UInt8 :=
  ((List.range 8).foldl (fun (s : UInt8 × UInt8 × UInt8) _ =>
    let (p, a, b) := s
    let p := if b &&& 1 ≠ 0 then p ^^^ a else p
    let shifted := a <<< 1
    (p, if a &&& 0x80 ≠ 0 then shifted ^^^ 0x1D else shifted, b >>> 1)) (0, a, b)).1

/-- `n` successive powers of the primitive element, from `x`. -/
def gfPowers : ℕ → UInt8 → Bytes
  | 0, _ => []
  | n + 1, x => x :: gfPowers n (gfMulRaw x 2)

/-- `EXP`: the powers of the primitive element, twice over. -/
def gfExp : Bytes := gfPowers 255 1 ++ gfPowers 255 1 ++ [1, 2]

/-- `LOG`. -/
def gfLog (v : UInt8) : ℕ := (gfPowers 255 1).idxOf v

/-- `gf_mul`. -/
def gfMul (a b : UInt8) : UInt8 :=
  if a = 0 ∨ b = 0 then 0 else gfExp.getD (gfLog a + gfLog b) 0

/-- `gf_pow`. -/
def gfPow (n : ℕ) : UInt8 := if n = 0 then 1 else gfExp.getD (n % 255) 0

/-! ### Reed–Solomon -/

/-- `RsCodec`: a checked configuration. -/
structure RsCodec where
  k : UInt8
  parityCount : UInt8
  symbolSize : UInt32
  k_ne : k ≠ 0
  parityCount_ne : parityCount ≠ 0
  parityCount_le : parityCount.toNat ≤ maxParityCount
  symbolSize_ne : symbolSize ≠ 0

namespace RsCodec

/-- `RsCodec::new`. -/
def new (k parityCount : UInt8) (symbolSize : UInt32) : Except FecError RsCodec :=
  if hk : k ≠ 0 then
    if hp : parityCount ≠ 0 then
      if hm : parityCount.toNat ≤ maxParityCount then
        if hs : symbolSize ≠ 0 then .ok ⟨k, parityCount, symbolSize, hk, hp, hm, hs⟩
        else .error (.malformed "RS symbol size must be > 0")
      else .error (.limitExceeded "RS parity count exceeds implementation limit of 32")
    else .error (.reservedValue "RS parity_count=0 is reserved")
  else .error (.reservedValue "RS k=0 is reserved")

/-- `RsCodec::from_fec_value`. -/
def fromFecValue (data : Bytes) : Except FecError RsCodec := do
  rejectIf (data.length < 6) (.truncated "RS FEC value too short for config")
  new (data.getD 0 0) (data.getD 1 0) (UInt32.ofNat (leNat ((data.drop 2).take 4)))

/-- `expected_group_count`. -/
def expectedGroupCount (originalLen : ℕ) (k : UInt8) (symbolSize : UInt32) :
    Except FecError UInt32 :=
  fecGroupCount "RS" "group" originalLen (k.toNat * symbolSize.toNat)

/-- `parity_data_len`. -/
def parityDataLen (groupCount : UInt32) (parityCount : UInt8) (symbolSize : UInt32) :
    Except FecError ℕ := do
  let len := groupCount.toNat * parityCount.toNat * symbolSize.toNat
  rejectIf (len > u64Max) (.overflow "RS parity length overflow")
  pure len

/-- One coefficient of `build_vandermonde_rect`. -/
def vandermonde (r c : ℕ) : UInt8 :=
  let exp := ((r + 1) * c) % 255
  if exp = 0 then 1 else gfPow exp

/-- One parity symbol of `encode_group`. -/
def paritySymbol (dataSymbols : List Bytes) (symbolSize r : ℕ) : Bytes :=
  dataSymbols.zipIdx.foldl (fun acc sc => xorInto acc (sc.1.map (gfMul (vandermonde r sc.2))))
    (List.replicate symbolSize 0)

/-- The parity symbols of one group. -/
def groupParity (c : RsCodec) (protectedBytes : Bytes) (group : ℕ) : Bytes :=
  let size := c.symbolSize.toNat
  let dataSymbols := (List.range c.k.toNat).map fun i =>
    paddedSlice protectedBytes ((group * c.k.toNat + i) * size) size
  (List.range c.parityCount.toNat).flatMap (paritySymbol dataSymbols size)

/-- `encode_recovery` of the Reed–Solomon codec; the value's bytes. -/
def encodeRecovery (c : RsCodec) (protectedBytes : Bytes) : Except FecError Bytes := do
  let groupCount ← expectedGroupCount protectedBytes.length c.k c.symbolSize
  let parityLen ← parityDataLen groupCount c.parityCount c.symbolSize
  rejectIf (parityLen > maxParitySize) (.limitExceeded "RS parity exceeds implementation limit")
  let parity := (List.range groupCount.toNat).flatMap (c.groupParity protectedBytes)
  pure ([c.k, c.parityCount] ++ (u32Bytes c.symbolSize ++
    (u64Bytes (UInt64.ofNat protectedBytes.length) ++ (u32Bytes groupCount ++ parity))))

/-- The fields `parse_header` of the Reed–Solomon codec reads. -/
structure Header where
  k : UInt8
  parityCount : UInt8
  symbolSize : UInt32
  originalLen : UInt64
  groupCount : UInt32

/-- `parse_header` of the Reed–Solomon codec. -/
def parseHeader (data : Bytes) : Except FecError Header := do
  rejectIf (data.length < 18) (.truncated "RS FEC value too short for header")
  let k := data.getD 0 0
  let parityCount := data.getD 1 0
  rejectIf (k = 0) (.reservedValue "RS k=0 is reserved")
  rejectIf (parityCount = 0) (.reservedValue "RS parity_count=0 is reserved")
  let symbolSize := UInt32.ofNat (leNat ((data.drop 2).take 4))
  rejectIf (symbolSize = 0) (.malformed "RS symbol size must be > 0")
  pure ⟨k, parityCount, symbolSize, UInt64.ofNat (leNat ((data.drop 6).take 8)),
    UInt32.ofNat (leNat ((data.drop 14).take 4))⟩

/-- `validate` of the Reed–Solomon codec. -/
def validate (c : RsCodec) (data : Bytes) : Except FecError Unit := do
  let h ← parseHeader data
  rejectIf (h.k ≠ c.k ∨ h.parityCount ≠ c.parityCount ∨ h.symbolSize ≠ c.symbolSize)
    (.invalidLength "RS config mismatch in validate")
  rejectIf (h.parityCount.toNat > maxParityCount)
    (.limitExceeded "RS parity count exceeds implementation limit of 32")
  let expected ← expectedGroupCount h.originalLen.toNat h.k h.symbolSize
  rejectIf (h.groupCount ≠ expected)
    (.invalidLength "RS group count does not match expected value")
  let parityLen ← parityDataLen h.groupCount h.parityCount h.symbolSize
  rejectIf (parityLen > maxParitySize) (.limitExceeded "RS parity exceeds implementation limit")
  rejectIf (data.length - 18 ≠ parityLen)
    (.invalidLength "RS parity data length does not match Group Count × (n-k) × Symbol Size")

end RsCodec

/-! ### Registry -/

/-- `FecMeta`, with the algorithm byte `FecSummary` adds to it. -/
inductive FecSummary where
  /-- XOR parity. -/
  | xor (algoId stripeSize : UInt8) (blockSize : ℕ) (originalProtectedLen : UInt64)
      (stripeCount : UInt32) (parityDataLen : ℕ)
  /-- Reed–Solomon. -/
  | reedSolomon (algoId k parityCount : UInt8) (symbolSize : UInt32)
      (originalProtectedLen : UInt64) (groupCount : UInt32) (parityDataLen : ℕ)
  deriving DecidableEq

/-- `parse_fec_value` followed by `FecSummary::from_meta`. -/
def parseFecValue (algoId : UInt8) (data : Bytes) : Except FecError FecSummary :=
  if algoId = fecAlgoReedSolomon then do
    let codec ← RsCodec.fromFecValue data
    codec.validate data
    let h ← RsCodec.parseHeader data
    let parityLen ← RsCodec.parityDataLen h.groupCount h.parityCount h.symbolSize
    pure (.reedSolomon algoId h.k h.parityCount h.symbolSize h.originalLen h.groupCount parityLen)
  else if algoId = fecAlgoXor then do
    let codec ← XorCodec.fromFecValue data
    codec.validate data
    let (c, originalLen, stripeCount) ← XorCodec.parseHeader data
    pure (.xor algoId c.stripeSize c.blockSize originalLen stripeCount
      (stripeCount.toNat * c.blockSize))
  else if algoId = 0x10 ∨ (0x17 ≤ algoId ∧ algoId ≤ 0x1F) then
    .error (.reservedValue "reserved FEC algorithm ID")
  else if algoId = 0x12 ∨ algoId = 0x13 ∨ algoId = 0x15 ∨ algoId = 0x16 then
    .error (.unsupported "FEC algorithm is assigned but not implemented")
  else .error (.reservedValue "FEC algo ID out of defined range")

/-- `parse_lfh_fec_value`. -/
def parseLfhFecValue (algoId : UInt8) (fecValue : Bytes) (limits : ResourceLimits) :
    Result (Option FecSummary) :=
  if algoId = 0x00 then pure none
  else do
    (validateFecAlgoId algoId).liftError FecError.toSarError
    rejectIf (fecValue = [])
      (.invalidLength "LFH FEC value must be non-empty for non-zero algo ID")
    limits.checkFecValueBytes fecValue.length
    let summary ← (parseFecValue algoId fecValue).liftError FecError.toSarError
    pure (some summary)

/-- `validate_recovery_tlv`. -/
def validateRecoveryTlv (typeId : UInt8) (value : Bytes) (limits : ResourceLimits) :
    Result FecSummary := do
  (validateFecAlgoId typeId).liftError FecError.toSarError
  rejectIf (typeId = 0x00) (.malformed "RECOVERY TLV must have non-zero type ID")
  limits.checkFecValueBytes value.length
  (parseFecValue typeId value).liftError FecError.toSarError

/-! ### Encoded values are accepted -/

@[simp]
theorem length_paddedSlice (data : Bytes) (start len : ℕ) :
    (paddedSlice data start len).length = len := by
  simp only [paddedSlice, length_append, length_replicate, length_take]
  omega

/-- Folding `xorInto` over blocks of one length keeps that length. -/
theorem length_foldl_xorInto {ι : Type} {n : ℕ} (block : ι → Bytes) (l : List ι) (acc : Bytes)
    (hacc : acc.length = n) (hblock : ∀ i ∈ l, (block i).length = n) :
    (l.foldl (fun acc i => xorInto acc (block i)) acc).length = n := by
  induction l generalizing acc with
  | nil => exact hacc
  | cons i l ih =>
    refine ih _ ?_ fun j hj => hblock j (mem_cons_of_mem i hj)
    simp [xorInto, hacc, hblock i mem_cons_self]

/-- A concatenation of blocks of one length. -/
theorem length_flatMap_range {n : ℕ} (m : ℕ) (block : ℕ → Bytes)
    (hblock : ∀ i, (block i).length = n) : ((List.range m).flatMap block).length = m * n := by
  simp [length_flatMap, hblock]

theorem XorCodec.length_stripeParity (c : XorCodec) (bs : Bytes) (stripe : ℕ) :
    (c.stripeParity bs stripe).length = c.blockSize :=
  length_foldl_xorInto _ _ _ (by simp) (by simp)

theorem RsCodec.length_groupParity (c : RsCodec) (bs : Bytes) (group : ℕ) :
    (c.groupParity bs group).length = c.parityCount.toNat * c.symbolSize.toNat := by
  refine length_flatMap_range _ _ fun r => ?_
  refine length_foldl_xorInto _ _ _ (by simp) ?_
  rintro ⟨symbol, i⟩ hmem
  have hsym := (mem_zipIdx hmem).2.2
  simp only [getElem_map] at hsym
  simp [hsym]

theorem XorCodec.new_eq_ok {stripeSize blockSizeIndex : UInt8} {c : XorCodec}
    (h : XorCodec.new stripeSize blockSizeIndex = .ok c) :
    c.stripeSize = stripeSize ∧ c.blockSizeIndex = blockSizeIndex := by
  rw [new] at h
  split_ifs at h
  cases h
  exact ⟨rfl, rfl⟩

theorem RsCodec.new_eq_ok {k parityCount : UInt8} {symbolSize : UInt32} {c : RsCodec}
    (h : RsCodec.new k parityCount symbolSize = .ok c) :
    c.k = k ∧ c.parityCount = parityCount ∧ c.symbolSize = symbolSize := by
  rw [new] at h
  split_ifs at h
  cases h
  exact ⟨rfl, rfl, rfl⟩

@[simp]
theorem XorCodec.new_self (c : XorCodec) : XorCodec.new c.stripeSize c.blockSizeIndex = .ok c := by
  simp [XorCodec.new, c.stripeSize_ne, c.blockSizeIndex_le]

@[simp]
theorem RsCodec.new_self (c : RsCodec) : RsCodec.new c.k c.parityCount c.symbolSize = .ok c := by
  simp [RsCodec.new, c.k_ne, c.parityCount_ne, c.parityCount_le, c.symbolSize_ne]

/-- What the XOR encoder produced: the checked stripe count and a value of the right length. -/
theorem XorCodec.encodeRecovery_eq_ok {c : XorCodec} {bs data : Bytes}
    (h : c.encodeRecovery bs = .ok data) :
    ∃ stripeCount parity, expectedStripeCount bs.length c = .ok stripeCount ∧
      stripeCount.toNat * c.blockSize ≤ maxParitySize ∧
      parity.length = stripeCount.toNat * c.blockSize ∧
      parity = (List.range stripeCount.toNat).flatMap (c.stripeParity bs) ∧
      data = [c.stripeSize, c.blockSizeIndex] ++ (u64Bytes (UInt64.ofNat bs.length) ++
        (u32Bytes stripeCount ++ parity)) := by
  simp only [XorCodec.encodeRecovery, bind_eq_ok_iff, exists_unit,
    Except.rejectIf_eq_ok_iff, pure_eq_ok, ok.injEq] at h
  obtain ⟨sc, hsc, hmax, rfl⟩ := h
  exact ⟨sc, _, hsc, by omega, length_flatMap_range _ _ (c.length_stripeParity bs), rfl, rfl⟩

theorem RsCodec.toNat_parityDataLen {groupCount : UInt32} {parityCount : UInt8}
    {symbolSize : UInt32}
    {len : ℕ} (h : parityDataLen groupCount parityCount symbolSize = .ok len) :
    len = groupCount.toNat * parityCount.toNat * symbolSize.toNat := by
  simp only [parityDataLen, bind_eq_ok_iff, pure_eq_ok, ok.injEq] at h
  exact h.choose_spec.2.symm

/-- What the Reed–Solomon encoder produced. -/
theorem RsCodec.encodeRecovery_eq_ok {c : RsCodec} {bs data : Bytes}
    (h : c.encodeRecovery bs = .ok data) :
    ∃ groupCount parityLen parity, expectedGroupCount bs.length c.k c.symbolSize = .ok groupCount ∧
      parityDataLen groupCount c.parityCount c.symbolSize = .ok parityLen ∧
      parityLen ≤ maxParitySize ∧ parity.length = parityLen ∧
      parity = (List.range groupCount.toNat).flatMap (c.groupParity bs) ∧
      data = [c.k, c.parityCount] ++ (u32Bytes c.symbolSize ++
        (u64Bytes (UInt64.ofNat bs.length) ++ (u32Bytes groupCount ++ parity))) := by
  simp only [RsCodec.encodeRecovery, bind_eq_ok_iff, exists_unit,
    Except.rejectIf_eq_ok_iff, pure_eq_ok, ok.injEq] at h
  obtain ⟨gc, hgc, pl, hpl, hmax, rfl⟩ := h
  refine ⟨gc, pl, _, hgc, hpl, by omega, ?_, rfl, rfl⟩
  rw [length_flatMap_range _ _ (c.length_groupParity bs), toNat_parityDataLen hpl, Nat.mul_assoc]

theorem XorCodec.parseHeader_encoded (c : XorCodec) (len : UInt64) (count : UInt32)
    (parity : Bytes) :
    XorCodec.parseHeader ([c.stripeSize, c.blockSizeIndex] ++ (u64Bytes len ++
      (u32Bytes count ++ parity))) = .ok (c, len, count) := by
  have hshort : ¬ ([c.stripeSize, c.blockSizeIndex] ++ (u64Bytes len ++
      (u32Bytes count ++ parity))).length < 14 := by
    simp only [length_append, length_cons, length_nil, length_u64Bytes, length_u32Bytes]
    omega
  rw [XorCodec.parseHeader, rejectIf_of_not hshort]
  simp [XorCodec.fromFecValue, drop_append, u64Bytes, u32Bytes]

theorem RsCodec.parseHeader_encoded (c : RsCodec) (len : UInt64) (count : UInt32) (parity : Bytes) :
    RsCodec.parseHeader ([c.k, c.parityCount] ++ (u32Bytes c.symbolSize ++ (u64Bytes len ++
      (u32Bytes count ++ parity)))) = .ok ⟨c.k, c.parityCount, c.symbolSize, len, count⟩ := by
  have hshort : ¬ ([c.k, c.parityCount] ++ (u32Bytes c.symbolSize ++ (u64Bytes len ++
      (u32Bytes count ++ parity)))).length < 18 := by
    simp only [length_append, length_cons, length_nil, length_u64Bytes, length_u32Bytes]
    omega
  rw [RsCodec.parseHeader, rejectIf_of_not hshort]
  simp [drop_append, drop_of_length_le, u64Bytes, u32Bytes,
    rejectIf_of_not, c.k_ne, c.parityCount_ne, c.symbolSize_ne]

/-- The Reed–Solomon codec validates its own values. -/
theorem RsCodec.validate_encoded (c : RsCodec) {len parityLen : ℕ} {groupCount : UInt32}
    {parity : Bytes} (hlen : len ≤ u64Max)
    (hgc : expectedGroupCount len c.k c.symbolSize = .ok groupCount)
    (hpl : parityDataLen groupCount c.parityCount c.symbolSize = .ok parityLen)
    (hmax : parityLen ≤ maxParitySize) (hpar : parity.length = parityLen) :
    c.validate ([c.k, c.parityCount] ++ (u32Bytes c.symbolSize ++
      (u64Bytes (UInt64.ofNat len) ++ (u32Bytes groupCount ++ parity)))) = .ok () := by
  have hheader := c.parseHeader_encoded (UInt64.ofNat len) groupCount parity
  simp only [RsCodec.validate, hheader, ok_bind, toNat_uint64_ofNat hlen, hgc, hpl]
  simp only [ne_eq, not_true_eq_false, or_self, rejectIf_of_not, not_false_eq_true,
    ok_bind, Nat.not_lt.mpr hmax, gt_iff_lt, Nat.not_lt.mpr c.parityCount_le]
  apply rejectIf_of_not
  simp [hpar]
  omega

/-- The XOR codec validates its own values. -/
theorem XorCodec.validate_encoded (c : XorCodec) {len : ℕ} {stripeCount : UInt32} {parity : Bytes}
    (hlen : len ≤ u64Max) (hsc : expectedStripeCount len c = .ok stripeCount)
    (hmax : stripeCount.toNat * c.blockSize ≤ maxParitySize)
    (hpar : parity.length = stripeCount.toNat * c.blockSize) :
    c.validate ([c.stripeSize, c.blockSizeIndex] ++
      (u64Bytes (UInt64.ofNat len) ++ (u32Bytes stripeCount ++ parity))) = .ok () := by
  have hheader := c.parseHeader_encoded (UInt64.ofNat len) stripeCount parity
  simp only [XorCodec.validate, hheader, ok_bind, toNat_uint64_ofNat hlen, hsc]
  simp only [ne_eq, not_true_eq_false, or_self, rejectIf_of_not, not_false_eq_true,
    ok_bind, Nat.not_lt.mpr hmax]
  apply rejectIf_of_not
  simp [hpar]
  omega

/-- The codec can be told from a value it encoded. -/
theorem XorCodec.fromFecValue_encoded (c : XorCodec) (rest : Bytes) :
    XorCodec.fromFecValue ([c.stripeSize, c.blockSizeIndex] ++ rest) = .ok c := by
  simp [XorCodec.fromFecValue]

theorem RsCodec.fromFecValue_encoded (c : RsCodec) (rest : Bytes) :
    RsCodec.fromFecValue ([c.k, c.parityCount] ++ (u32Bytes c.symbolSize ++ rest)) = .ok c := by
  rw [RsCodec.fromFecValue, rejectIf_of_not (by simp)]
  simp [u32Bytes]

/-- An XOR value that was encoded is accepted by the registry. -/
theorem parseFecValue_encodeXor {c : XorCodec} {bs data : Bytes} (hlen : bs.length ≤ u64Max)
    (h : c.encodeRecovery bs = .ok data) :
    ∃ count, parseFecValue fecAlgoXor data = .ok (.xor fecAlgoXor c.stripeSize c.blockSize
      (UInt64.ofNat bs.length) count (count.toNat * c.blockSize)) := by
  obtain ⟨sc, parity, hsc, hmax, hpar, -, rfl⟩ := c.encodeRecovery_eq_ok h
  have hheader := c.parseHeader_encoded (UInt64.ofNat bs.length) sc parity
  have hvalid := c.validate_encoded hlen hsc hmax hpar
  refine ⟨sc, ?_⟩
  rw [parseFecValue, if_neg (by decide), if_pos rfl, c.fromFecValue_encoded, ok_bind, hvalid,
    ok_bind, hheader]
  rfl

/-- A Reed–Solomon value that was encoded is accepted by the registry. -/
theorem parseFecValue_encodeRs {c : RsCodec} {bs data : Bytes} (hlen : bs.length ≤ u64Max)
    (h : c.encodeRecovery bs = .ok data) :
    ∃ count parityLen, parseFecValue fecAlgoReedSolomon data = .ok (.reedSolomon
      fecAlgoReedSolomon c.k c.parityCount c.symbolSize (UInt64.ofNat bs.length) count
        parityLen) := by
  obtain ⟨gc, pl, parity, hgc, hpl, hmax, hpar, -, rfl⟩ := c.encodeRecovery_eq_ok h
  have hheader := c.parseHeader_encoded (UInt64.ofNat bs.length) gc parity
  have hvalid := c.validate_encoded hlen hgc hpl hmax hpar
  refine ⟨gc, pl, ?_⟩
  rw [parseFecValue, if_pos rfl, c.fromFecValue_encoded, ok_bind, hvalid, ok_bind,
    hheader, ok_bind, hpl]
  rfl

end Sar
