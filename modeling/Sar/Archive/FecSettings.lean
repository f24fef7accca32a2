import Sar.Fec.Codec

/-!
# Error correction as the writer uses it

The writer's settings for one of the two codecs, the parity value they produce for a byte
string, and the length of that value predicted before the bytes are known. The prediction is exact
(`computeFecValueLen_eq_ok_iff`), and a value that was computed is one the registry accepts
(`parseFecValue_computeFecValue`).
-/

namespace Sar

open Except (rejectIf liftError bind_eq_ok_iff pure_eq_ok ok_bind exists_unit rejectIf_eq_ok_iff
  rejectIf_bind liftError_eq_ok_iff liftError_ok ok.injEq)
open List

/-- `FecSettings`, and `ArchiveRecoverySettings`, which has the same fields. -/
structure FecSettings where
  algoId : UInt8
  config0 : UInt8
  config1 : UInt8
  symbolSize : UInt32
  deriving DecidableEq

namespace FecSettings

/-- The error for an algorithm that the writer has no codec for. -/
def unsupportedAlgo (algoId : UInt8) : SarError :=
  .unsupported
    (if 0x10 ≤ algoId ∧ algoId ≤ 0x1F then
      "FEC algorithm is assigned but not supported by archive writer"
    else "FEC algorithm ID out of defined range")

/-- The codec that the settings select, as a continuation for each of the two. -/
def withCodec {α : Type} (fec : FecSettings) (xor : XorCodec → Result α)
    (reedSolomon : RsCodec → Result α) : Result α :=
  if fec.algoId = fecAlgoXor then do
    let codec ← (XorCodec.new fec.config0 fec.config1).liftError FecError.toSarError
    xor codec
  else if fec.algoId = fecAlgoReedSolomon then do
    let codec ← (RsCodec.new fec.config0 fec.config1 fec.symbolSize).liftError FecError.toSarError
    reedSolomon codec
  else throw (unsupportedAlgo fec.algoId)

/-- `validate_writer_fec_settings`. -/
def validateWriter (fec : FecSettings) : Result Unit :=
  fec.withCodec (fun _ => pure ()) (fun _ => pure ())

/-- `compute_fec_value`. -/
def computeFecValue (fec : FecSettings) (protectedBytes : Bytes) : Result Bytes :=
  fec.withCodec
    (fun codec => (codec.encodeRecovery protectedBytes).liftError FecError.toSarError)
    (fun codec => (codec.encodeRecovery protectedBytes).liftError FecError.toSarError)

/-- `ceil_div_u64`. -/
def ceilDivU64 (a b : ℕ) : Result ℕ := do
  rejectIf (b = 0) (.overflow "ceil_div by zero")
  rejectIf (a + (b - 1) > u64Max) (.overflow "ceil_div overflow")
  pure ((a + (b - 1)) / b)

/-- `compute_fec_value_len`. -/
def computeFecValueLen (fec : FecSettings) (protectedLen : ℕ) : Result ℕ :=
  fec.withCodec
    (fun codec => do
      let stripeBytes := codec.stripeSize.toNat * codec.blockSize
      rejectIf (stripeBytes > u64Max) (.overflow "XOR effective stripe size overflow")
      let stripeCount ← ceilDivU64 protectedLen stripeBytes
      let parityLen := stripeCount * codec.blockSize
      rejectIf (parityLen > u64Max) (.overflow "XOR parity length overflow")
      rejectIf (parityLen > maxParitySize)
        (.limitExceeded "XOR parity exceeds implementation limit")
      pure (14 + parityLen))
    (fun codec => do
      let groupBytes := codec.k.toNat * codec.symbolSize.toNat
      rejectIf (groupBytes > u64Max) (.overflow "RS group size overflow")
      let groupCount ← ceilDivU64 protectedLen groupBytes
      rejectIf (groupCount * codec.parityCount.toNat > u64Max)
        (.overflow "RS parity count × group overflow")
      let parityLen := groupCount * codec.parityCount.toNat * codec.symbolSize.toNat
      rejectIf (parityLen > u64Max) (.overflow "RS parity length overflow")
      rejectIf (parityLen > maxParitySize) (.limitExceeded "RS parity exceeds implementation limit")
      pure (18 + parityLen))

/-! ### Computed values are accepted -/

variable {fec : FecSettings}

theorem withCodec_eq_ok_iff {α : Type} {xor : XorCodec → Result α}
    {reedSolomon : RsCodec → Result α} {a : α} :
    fec.withCodec xor reedSolomon = .ok a ↔
      (fec.algoId = fecAlgoXor ∧ ∃ codec, XorCodec.new fec.config0 fec.config1 = .ok codec ∧
        xor codec = .ok a) ∨
      (fec.algoId = fecAlgoReedSolomon ∧
        ∃ codec, RsCodec.new fec.config0 fec.config1 fec.symbolSize = .ok codec ∧
          reedSolomon codec = .ok a) := by
  have hne : fecAlgoXor ≠ fecAlgoReedSolomon := by decide
  rw [withCodec]
  by_cases hxor : fec.algoId = fecAlgoXor
  · simp only [hxor, if_true, hne, if_false, bind_eq_ok_iff, liftError_eq_ok_iff,
      true_and, false_and, or_false]
  · by_cases hrs : fec.algoId = fecAlgoReedSolomon
    · simp only [hrs, if_true, hne.symm, if_false, bind_eq_ok_iff,
        liftError_eq_ok_iff, true_and, false_and, false_or]
    · rw [if_neg hxor, if_neg hrs]
      exact iff_of_false (by simp) (by rintro (⟨h, -⟩ | ⟨h, -⟩) <;> contradiction)

/-- The algorithm of settings that have a codec. -/
theorem algoId_of_withCodec {α : Type} {xor : XorCodec → Result α}
    {reedSolomon : RsCodec → Result α} {a : α} (h : fec.withCodec xor reedSolomon = .ok a) :
    fec.algoId = fecAlgoXor ∨ fec.algoId = fecAlgoReedSolomon :=
  (withCodec_eq_ok_iff.mp h).imp And.left And.left

/-- The metadata of a value repeats the settings and the protected length. -/
def Describes (fec : FecSettings) (protectedLen : ℕ) : FecSummary → Prop
  | .xor algoId stripeSize blockSize originalLen _ _ =>
    algoId = fec.algoId ∧ stripeSize = fec.config0 ∧
      blockSize = XorCodec.blockSizeForIndex fec.config1 ∧ originalLen.toNat = protectedLen
  | .reedSolomon algoId k parityCount symbolSize originalLen _ _ =>
    algoId = fec.algoId ∧ k = fec.config0 ∧ parityCount = fec.config1 ∧
      symbolSize = fec.symbolSize ∧ originalLen.toNat = protectedLen

/-- A computed value is read by the registry, under the algorithm it was computed with. -/
theorem parseFecValue_computeFecValue {bs value : Bytes} (hlen : bs.length ≤ u64Max)
    (h : fec.computeFecValue bs = .ok value) :
    ∃ summary, parseFecValue fec.algoId value = .ok summary ∧ fec.Describes bs.length summary := by
  have hnat : (UInt64.ofNat bs.length).toNat = bs.length :=
    UInt64.toNat_ofNat_of_lt' (Nat.lt_succ_of_le hlen)
  rcases withCodec_eq_ok_iff.mp h with ⟨halgo, codec, hnew, henc⟩ | ⟨halgo, codec, hnew, henc⟩
  · rw [liftError_eq_ok_iff] at henc
    obtain ⟨count, hparse⟩ := parseFecValue_encodeXor hlen henc
    obtain ⟨hstripe, hindex⟩ := XorCodec.new_eq_ok hnew
    rw [XorCodec.blockSize, hstripe, hindex, ← halgo] at hparse
    exact ⟨_, hparse, rfl, rfl, rfl, hnat⟩
  · rw [liftError_eq_ok_iff] at henc
    obtain ⟨count, parityLen, hparse⟩ := parseFecValue_encodeRs hlen henc
    obtain ⟨hk, hparity, hsize⟩ := RsCodec.new_eq_ok hnew
    rw [hk, hparity, hsize, ← halgo] at hparse
    exact ⟨_, hparse, rfl, rfl, rfl, rfl, hnat⟩

/-- The value of the whole archive is accepted. -/
theorem validateRecoveryTlv_computeFecValue {bs value : Bytes} {limits : ResourceLimits}
    (hlen : bs.length ≤ u64Max) (hlimit : value.length ≤ limits.maxFecValueBytes)
    (h : fec.computeFecValue bs = .ok value) :
    ∃ summary, validateRecoveryTlv fec.algoId value limits = .ok summary := by
  obtain ⟨summary, hparse, -⟩ := parseFecValue_computeFecValue hlen h
  have halgo := algoId_of_withCodec h
  have hzero : fec.algoId ≠ 0 := by
    rcases halgo with halgo | halgo <;> rw [halgo] <;> decide
  have hvalid : validateFecAlgoId fec.algoId = .ok () := by
    rcases halgo with halgo | halgo <;> rw [halgo] <;> rfl
  refine ⟨summary, ?_⟩
  rw [validateRecoveryTlv, hvalid, liftError_ok, ok_bind, rejectIf_bind hzero,
    ResourceLimits.checkFecValueBytes, ResourceLimits.atMost_of_le _ hlimit, ok_bind, hparse]
  rfl

/-! ### The predicted length -/

theorem ceilDivU64_eq_ok_iff {a b n : ℕ} :
    ceilDivU64 a b = .ok n ↔ b ≠ 0 ∧ a + (b - 1) ≤ u64Max ∧ (a + (b - 1)) / b = n := by
  simp only [ceilDivU64, bind_eq_ok_iff, exists_unit, rejectIf_eq_ok_iff,
    pure_eq_ok, ok.injEq, gt_iff_lt, not_lt]

theorem fecGroupCount_eq_ok_iff {codec unit : String} {len groupSize : ℕ} {count : UInt32} :
    fecGroupCount codec unit len groupSize = .ok count ↔
      ceilDivU64 len groupSize = .ok count.toNat := by
  simp only [fecGroupCount, fecCeilDiv, ceilDivU64_eq_ok_iff, bind_eq_ok_iff, exists_unit,
    rejectIf_eq_ok_iff, pure_eq_ok, ok.injEq, gt_iff_lt, not_lt, ge_iff_le, not_le]
  constructor
  · rintro ⟨_, ⟨hne, hle, rfl⟩, hlt, rfl⟩
    exact ⟨hne, hle, (UInt32.toNat_ofNat_of_lt' hlt).symm⟩
  · rintro ⟨hne, hle, hcount⟩
    refine ⟨_, ⟨hne, hle, hcount⟩, UInt32.toNat_lt count, UInt32.ofNat_toNat⟩

/-- An encoder that needs a group count and parity within the limit, and nothing else: the length of
its value is the one predicted from that count. -/
theorem exists_encode_iff {encode : Except FecError Bytes} {len groupBytes parity header n : ℕ}
    (hpos : 0 < parity)
    (hlength : ∀ value, encode = .ok value → ∃ count : UInt32,
      ceilDivU64 len groupBytes = .ok count.toNat ∧ count.toNat * parity ≤ maxParitySize ∧
        header + count.toNat * parity = value.length)
    (hencode : ∀ count : UInt32, ceilDivU64 len groupBytes = .ok count.toNat →
      count.toNat * parity ≤ maxParitySize → ∃ value, encode = .ok value) :
    (∃ value, encode = .ok value ∧ value.length = n) ↔
      ∃ count, ceilDivU64 len groupBytes = .ok count ∧ count * parity ≤ maxParitySize ∧
        header + count * parity = n := by
  constructor
  · rintro ⟨value, henc, rfl⟩
    obtain ⟨count, h⟩ := hlength value henc
    exact ⟨count.toNat, h⟩
  · rintro ⟨count, hcount, hmax, rfl⟩
    -- the parity bounds the count
    have hle : count ≤ count * parity := Nat.le_mul_of_pos_right _ hpos
    have hsmall : maxParitySize < UInt32.size := by decide
    have hnat : (UInt32.ofNat count).toNat = count := UInt32.toNat_ofNat_of_lt' (by omega)
    obtain ⟨value, henc⟩ := hencode (UInt32.ofNat count) (hnat.symm ▸ hcount) (hnat.symm ▸ hmax)
    obtain ⟨count', hcount', -, hlen⟩ := hlength value henc
    obtain rfl : count = count'.toNat := Except.ok.inj (hcount.symm.trans hcount')
    exact ⟨value, henc, hlen.symm⟩

theorem stripeBytes_le (codec : XorCodec) : codec.stripeSize.toNat * codec.blockSize ≤ u64Max := by
  have hstripe : codec.stripeSize.toNat ≤ 255 := Nat.le_of_lt_succ (UInt8.toNat_lt _)
  have hblock : codec.blockSize ≤ 256 * 2 ^ 8 :=
    Nat.mul_le_mul_left _ (Nat.pow_le_pow_right (by decide) codec.blockSizeIndex_le)
  have hbound : 255 * (256 * 2 ^ 8) ≤ u64Max := by decide
  exact (Nat.mul_le_mul hstripe hblock).trans hbound

/-- The XOR encoder succeeds when the parity is within the limit. -/
theorem exists_encodeXor_iff (codec : XorCodec) (bs : Bytes) (n : ℕ) :
    (∃ value, codec.encodeRecovery bs = .ok value ∧ value.length = n) ↔
      ∃ count, ceilDivU64 bs.length (codec.stripeSize.toNat * codec.blockSize) = .ok count ∧
        count * codec.blockSize ≤ maxParitySize ∧ 14 + count * codec.blockSize = n := by
  refine exists_encode_iff (Nat.mul_pos (by decide) (Nat.two_pow_pos _)) ?_ ?_
  · intro value henc
    obtain ⟨count, parity, hcount, hmax, hparity, -, rfl⟩ := codec.encodeRecovery_eq_ok henc
    refine ⟨count, fecGroupCount_eq_ok_iff.mp hcount, hmax, ?_⟩
    simp only [length_append, length_cons, length_nil, length_u64Bytes, length_u32Bytes, hparity]
    omega
  · intro count hcount hmax
    have hstripes : codec.expectedStripeCount bs.length = .ok count :=
      fecGroupCount_eq_ok_iff.mpr hcount
    rw [XorCodec.encodeRecovery, hstripes, ok_bind, rejectIf_bind (not_lt.mpr hmax)]
    exact ⟨_, rfl⟩

/-- So does the Reed–Solomon encoder. -/
theorem exists_encodeRs_iff (codec : RsCodec) (bs : Bytes) (n : ℕ) :
    (∃ value, codec.encodeRecovery bs = .ok value ∧ value.length = n) ↔
      ∃ count, ceilDivU64 bs.length (codec.k.toNat * codec.symbolSize.toNat) = .ok count ∧
        count * codec.parityCount.toNat * codec.symbolSize.toNat ≤ maxParitySize ∧
        18 + count * codec.parityCount.toNat * codec.symbolSize.toNat = n := by
  have hpos : 0 < codec.parityCount.toNat * codec.symbolSize.toNat :=
    Nat.mul_pos (Nat.pos_of_ne_zero fun h => codec.parityCount_ne (UInt8.toNat_inj.mp h))
      (Nat.pos_of_ne_zero fun h => codec.symbolSize_ne (UInt32.toNat_inj.mp h))
  simp only [Nat.mul_assoc]
  refine exists_encode_iff hpos ?_ ?_
  · intro value henc
    obtain ⟨count, parityLen, parity, hcount, hlen, hmax, hparity, -, rfl⟩ :=
      codec.encodeRecovery_eq_ok henc
    obtain rfl := RsCodec.toNat_parityDataLen hlen
    rw [Nat.mul_assoc] at hmax hparity
    refine ⟨count, fecGroupCount_eq_ok_iff.mp hcount, hmax, ?_⟩
    simp only [length_append, length_cons, length_nil, length_u64Bytes, length_u32Bytes, hparity]
    omega
  · intro count hcount hmax
    have hgroups : RsCodec.expectedGroupCount bs.length codec.k codec.symbolSize = .ok count :=
      fecGroupCount_eq_ok_iff.mpr hcount
    have hfits : maxParitySize ≤ u64Max := by decide
    rw [← Nat.mul_assoc] at hmax
    rw [RsCodec.encodeRecovery, hgroups, ok_bind, RsCodec.parityDataLen,
      rejectIf_bind (not_lt.mpr (hmax.trans hfits)), pure_eq_ok, ok_bind,
      rejectIf_bind (not_lt.mpr hmax)]
    exact ⟨_, rfl⟩

theorem groupBytes_le (codec : RsCodec) : codec.k.toNat * codec.symbolSize.toNat ≤ u64Max := by
  have hk : codec.k.toNat ≤ 255 := Nat.le_of_lt_succ (UInt8.toNat_lt _)
  have hsize : codec.symbolSize.toNat ≤ 2 ^ 32 := (UInt32.toNat_lt _).le
  have hbound : 255 * 2 ^ 32 ≤ u64Max := by decide
  exact (Nat.mul_le_mul hk hsize).trans hbound

/-- The length is predicted exactly when the value can be computed. -/
theorem computeFecValueLen_eq_ok_iff {bs : Bytes} {n : ℕ} :
    fec.computeFecValueLen bs.length = .ok n ↔
      ∃ value, fec.computeFecValue bs = .ok value ∧ value.length = n := by
  have hmax : maxParitySize ≤ u64Max := by decide
  simp only [computeFecValueLen, computeFecValue, withCodec_eq_ok_iff, liftError_eq_ok_iff,
    bind_eq_ok_iff, exists_unit, rejectIf_eq_ok_iff, pure_eq_ok, ok.injEq, gt_iff_lt, not_lt]
  constructor
  · rintro (⟨halgo, codec, hnew, -, count, hcount, -, hle, hn⟩ |
      ⟨halgo, codec, hnew, -, count, hcount, -, -, hle, hn⟩)
    · obtain ⟨value, henc, hlen⟩ := (exists_encodeXor_iff codec bs n).mpr ⟨count, hcount, hle, hn⟩
      exact ⟨value, .inl ⟨halgo, codec, hnew, henc⟩, hlen⟩
    · obtain ⟨value, henc, hlen⟩ := (exists_encodeRs_iff codec bs n).mpr ⟨count, hcount, hle, hn⟩
      exact ⟨value, .inr ⟨halgo, codec, hnew, henc⟩, hlen⟩
  · rintro ⟨value, ⟨halgo, codec, hnew, henc⟩ | ⟨halgo, codec, hnew, henc⟩, hlen⟩
    · obtain ⟨count, hcount, hle, hn⟩ := (exists_encodeXor_iff codec bs n).mp ⟨value, henc, hlen⟩
      exact .inl ⟨halgo, codec, hnew, stripeBytes_le codec, count, hcount, hle.trans hmax, hle, hn⟩
    · obtain ⟨count, hcount, hle, hn⟩ := (exists_encodeRs_iff codec bs n).mp ⟨value, henc, hlen⟩
      have hsize : 0 < codec.symbolSize.toNat :=
        Nat.pos_of_ne_zero fun h => codec.symbolSize_ne (UInt32.toNat_inj.mp h)
      refine .inr ⟨halgo, codec, hnew, groupBytes_le codec, count, hcount, ?_, hle.trans hmax, hle,
        hn⟩
      exact (Nat.le_mul_of_pos_right _ hsize).trans (hle.trans hmax)

/-- A value was computed from bytes with a 64-bit length, and its own length is bounded. -/
theorem length_computeFecValue_le {bs value : Bytes} (h : fec.computeFecValue bs = .ok value) :
    bs.length ≤ u64Max ∧ value.length ≤ 18 + maxParitySize := by
  rcases withCodec_eq_ok_iff.mp h with ⟨-, codec, -, henc⟩ | ⟨-, codec, -, henc⟩
  · rw [liftError_eq_ok_iff] at henc
    obtain ⟨_, hcount, hle, hlen⟩ := (exists_encodeXor_iff codec bs _).mp ⟨value, henc, rfl⟩
    obtain ⟨-, hbytes, -⟩ := ceilDivU64_eq_ok_iff.mp hcount
    omega
  · rw [liftError_eq_ok_iff] at henc
    obtain ⟨_, hcount, hle, hlen⟩ := (exists_encodeRs_iff codec bs _).mp ⟨value, henc, rfl⟩
    obtain ⟨-, hbytes, -⟩ := ceilDivU64_eq_ok_iff.mp hcount
    omega

end FecSettings

end Sar
