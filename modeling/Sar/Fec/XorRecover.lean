import Sar.Fec.Affine

/-!
# XOR erasure recovery

`XorCodec.recover`: stripe by stripe, an erased block is the parity of its stripe combined with the
other blocks. A stripe with more than one erasure cannot be recovered.

`recover_affine` says what the decoder computes from any well-formed value, whether or not it
belongs to the data; **`recover_encoded_exact`** is the result for values the codec encoded.
-/

namespace Sar

open LittleEndian List
open Except (rejectIf ok_bind exists_unit rejectIf_bind rejectIf_of)
open RsCodec (erasedData mem_erasedData)

namespace XorCodec

section

variable (c : XorCodec)

/-- `block_bytes`. -/
def blockBytes (data : Bytes) (blockIdx : ℕ) : Bytes :=
  paddedSlice data (blockIdx * c.blockSize) c.blockSize

/-- The erasures of a stripe, by their index in it. -/
def stripeErasures (stripe : ℕ) (erasures : List Erasure) : List ℕ :=
  erasedData c.stripeSize.toNat stripe erasures

/-- The parity of a stripe, combined with the blocks that are not erased. -/
def recoverBlock (parity availableData : Bytes) (stripe erased : ℕ) : Bytes :=
  (List.range c.stripeSize.toNat).foldl
    (fun recovered i =>
      if i = erased then recovered
      else xorInto recovered (c.blockBytes availableData (stripe * c.stripeSize.toNat + i)))
    ((parity.drop (stripe * c.blockSize)).take c.blockSize)

/-- One turn of the loop over the stripes of `recover`. -/
def recoverStripe (parity availableData : Bytes) (erasures : List Erasure) (out : Bytes)
    (stripe : ℕ) : Except FecError Bytes := do
  let stripeErasures := c.stripeErasures stripe erasures
  rejectIf (stripeErasures.length > 1)
    (.ecFailed "XOR: more than one erasure per stripe cannot be recovered")
  match stripeErasures with
  | [] => pure out
  | erased :: _ =>
    let recovered := c.recoverBlock parity availableData stripe erased
    let outStart := (stripe * c.stripeSize.toNat + erased) * c.blockSize
    pure (if outStart + c.blockSize ≤ out.length then Scatter.overwrite out outStart recovered
      else out)

/-- `recover` of the XOR codec; `validate` has made sure that the value has the codec's own
configuration. -/
def recover (input : FecRecoverInput) : Except FecError Bytes := do
  let (_, originalLen, stripeCount) ← parseHeader input.fecValueData
  c.validate input.fecValueData
  rejectIf (originalLen ≠ input.originalProtectedLen)
    (.invalidLength "XOR recovery: original_protected_len mismatch")
  let parity := (input.fecValueData.drop 14).take (stripeCount.toNat * c.blockSize)
  let total := stripeCount.toNat * c.stripeSize.toNat * c.blockSize
  rejectIf (total > u64Max) (.overflow "XOR output length overflow")
  let out ← (List.range stripeCount.toNat).foldlM
    (c.recoverStripe parity input.availableData input.erasures)
    (paddedSlice input.availableData 0 total)
  pure (out.take originalLen.toNat)

/-! ### One stripe -/

theorem stripeSize_pos : 0 < c.stripeSize.toNat :=
  Nat.pos_of_ne_zero fun h => c.stripeSize_ne (UInt8.toNat_inj.mp h)

theorem blockSize_pos : 0 < c.blockSize :=
  Nat.mul_pos (by decide) (Nat.pow_pos (by decide))

theorem length_blockBytes (data : Bytes) (blockIdx : ℕ) :
    (c.blockBytes data blockIdx).length = c.blockSize := length_paddedSlice ..

end

section Stripe

variable (c : XorCodec) {parity availableData : Bytes} {erasures : List Erasure} {stripeCount : ℕ}

/-- The loop over the blocks skips the erased one. -/
theorem recoverBlock_eq_foldl_filter (stripe erased : ℕ) :
    c.recoverBlock parity availableData stripe erased =
      ((List.range c.stripeSize.toNat).filter (· ∉ [erased])).foldl
        (fun recovered i => xorInto recovered
          (c.blockBytes availableData (stripe * c.stripeSize.toNat + i)))
        ((parity.drop (stripe * c.blockSize)).take c.blockSize) := by
  rw [recoverBlock, foldl_filter]
  refine foldl_ext _ _ _ fun acc i _ => ?_
  by_cases hi : i = erased <;> simp [hi]

variable {stripe : ℕ}

/-- A block of the parity is whole. -/
theorem length_parityBlock (hparity : parity.length = stripeCount * c.blockSize)
    (hstripe : stripe < stripeCount) :
    ((parity.drop (stripe * c.blockSize)).take c.blockSize).length = c.blockSize := by
  have hfits : stripe * c.blockSize + c.blockSize ≤ stripeCount * c.blockSize := by
    calc stripe * c.blockSize + c.blockSize = (stripe + 1) * c.blockSize := by ring
      _ ≤ stripeCount * c.blockSize := Nat.mul_le_mul_right _ hstripe
  rw [length_take, length_drop, hparity]
  omega

/-- A recovered byte: the parity byte and the bytes at its place in the other blocks. -/
theorem elementAt_recoverBlock (hparity : parity.length = stripeCount * c.blockSize)
    (hstripe : stripe < stripeCount) (erased : ℕ) {b : ℕ} (hb : b < c.blockSize) :
    elementAt (c.recoverBlock parity availableData stripe erased) b =
      elementAt parity (stripe * c.blockSize + b) +
        ∑ j ∈ (Finset.range c.stripeSize.toNat).filter (· ∉ [erased]),
          elementAt availableData ((stripe * c.stripeSize.toNat + j) * c.blockSize + b) := by
  have hfirst : elementAt ((parity.drop (stripe * c.blockSize)).take c.blockSize) b =
      elementAt parity (stripe * c.blockSize + b) := by
    rw [elementAt, elementAt, getD_eq_getElem?_getD, getD_eq_getElem?_getD,
      List.getElem?_take_of_lt hb, List.getElem?_drop]
  have hset : (Finset.range c.stripeSize.toNat).filter (· ∉ [erased]) =
      ((List.range c.stripeSize.toNat).filter (· ∉ [erased])).toFinset := by
    ext i
    simp
  rw [recoverBlock_eq_foldl_filter, elementAt_foldl_xorInto _ _ _
    (c.length_parityBlock hparity hstripe) (fun i _ => c.length_blockBytes ..), hfirst, hset,
    sum_toFinset _ (nodup_range.filter _)]
  refine congrArg (_ + List.sum ·) (map_congr_left fun i _ => ?_)
  exact elementAt_paddedSlice _ _ hb

/-- A stripe with at most one erasure. -/
theorem erasedData_of_length_le_one (hcount : (c.stripeErasures stripe erasures).length ≤ 1) :
    erasedData c.stripeSize.toNat stripe erasures = [] ∨
      ∃ e, erasedData c.stripeSize.toNat stripe erasures = [e] := by
  rcases Nat.le_one_iff_eq_zero_or_eq_one.mp hcount with hzero | hone
  · exact Or.inl (eq_nil_of_length_eq_zero hzero)
  · exact Or.inr (length_eq_one_iff.mp hone)

/-- The failure of a stripe. -/
def stripeError? (erasures : List Erasure) (stripe : ℕ) : Option FecError :=
  if 1 < (c.stripeErasures stripe erasures).length then
    some (.ecFailed "XOR: more than one erasure per stripe cannot be recovered")
  else none

theorem stripeError?_eq_some {e : FecError} (h : c.stripeError? erasures stripe = some e) :
    1 < (c.stripeErasures stripe erasures).length ∧
      .ecFailed "XOR: more than one erasure per stripe cannot be recovered" = e := by
  rw [stripeError?, Option.ite_none_right_eq_some] at h
  exact ⟨h.1, Option.some.inj h.2⟩

/-- Whether a stripe succeeds does not depend on the output so far. -/
theorem exists_recoverStripe_eq_ok (out : Bytes) (h : c.stripeError? erasures stripe = none) :
    ∃ out', c.recoverStripe parity availableData erasures out stripe = .ok out' := by
  rw [stripeError?, ite_eq_right_iff] at h
  have hcount : ¬ 1 < (c.stripeErasures stripe erasures).length := fun hgt => nomatch h hgt
  rw [recoverStripe, rejectIf_bind hcount]
  cases c.stripeErasures stripe erasures with
  | nil => exact ⟨out, rfl⟩
  | cons erased rest => exact ⟨_, rfl⟩

theorem recoverStripe_eq_error {e : FecError} (out : Bytes)
    (h : c.stripeError? erasures stripe = some e) :
    c.recoverStripe parity availableData erasures out stripe = .error e := by
  obtain ⟨hcount, rfl⟩ := c.stripeError?_eq_some h
  rw [recoverStripe, rejectIf_of hcount]
  rfl

end Stripe

end XorCodec

/-! ### Whole values -/

/-- A count of groups has room for the bytes, and no group too many. -/
theorem fecGroupCount_eq_ok {codec unit : String} {len groupSize : ℕ} {count : UInt32}
    (h : fecGroupCount codec unit len groupSize = .ok count) :
    len ≤ u64Max ∧ len ≤ count.toNat * groupSize ∧
      ∀ g, g < count.toNat ↔ g * groupSize < len := by
  simp only [fecGroupCount, fecCeilDiv, Except.bind_eq_ok_iff, exists_unit,
    Except.rejectIf_eq_ok_iff, Except.pure_eq_ok, Except.ok.injEq] at h
  obtain ⟨_, ⟨hpos, hmax, rfl⟩, hlt, rfl⟩ := h
  have hcount : (UInt32.ofNat ((len + (groupSize - 1)) / groupSize)).toNat =
      (len + (groupSize - 1)) / groupSize := UInt32.toNat_ofNat_of_lt' (not_le.mp hlt)
  have hgroups : ∀ g, g < (len + (groupSize - 1)) / groupSize ↔ g * groupSize < len := by
    intro g
    rw [Nat.lt_div_iff_mul_lt (Nat.pos_of_ne_zero hpos)]
    constructor
    · intro hg
      omega
    · intro hg
      omega
  rw [hcount]
  refine ⟨by omega, ?_, hgroups⟩
  exact not_lt.mp fun habs => lt_irrefl _ ((hgroups _).mpr habs)

namespace XorCodec

/-- A value of the codec for that many bytes. -/
def Accepts (c : XorCodec) (value : Bytes) (len : UInt64) : Prop :=
  c.validate value = .ok () ∧ ∃ c' stripeCount, parseHeader value = .ok (c', len, stripeCount)

/-- What a value announces. -/
structure Announces (c : XorCodec) (value : Bytes) (len : UInt64) (stripeCount : ℕ) : Prop where
  fits : len.toNat ≤ stripeCount * c.stripeSize.toNat * c.blockSize
  lt_iff : ∀ g, g < stripeCount ↔ g * c.stripeSize.toNat * c.blockSize < len.toNat
  length_parity : (value.drop 14).length = stripeCount * c.blockSize

variable {c : XorCodec} {value : Bytes} {len : UInt64}

/-- With a value of the codec, only the loop over the stripes is left. -/
theorem recover_of_accepts (h : c.Accepts value len) :
    ∃ stripeCount, c.Announces value len stripeCount ∧ ∀ availableData erasures,
      c.recover ⟨len, availableData, value, erasures⟩ =
        ((List.range stripeCount).foldlM (c.recoverStripe (value.drop 14) availableData erasures)
          (paddedSlice availableData 0 (stripeCount * c.stripeSize.toNat * c.blockSize)) >>=
        fun out => .ok (out.take len.toNat)) := by
  obtain ⟨hvalid, c', stripeCount, hheader⟩ := h
  have hfacts := hvalid
  simp only [validate, hheader, ok_bind, Except.bind_eq_ok_iff, exists_unit,
    Except.rejectIf_eq_ok_iff, not_or, not_not] at hfacts
  obtain ⟨⟨hstripe, hblock⟩, expected, hexpected, hcount, hmax, hlength⟩ := hfacts
  rw [hblock] at hmax hlength
  rw [← hcount] at hexpected
  obtain ⟨-, hfits, hgroups⟩ := fecGroupCount_eq_ok hexpected
  rw [hstripe, hblock, ← Nat.mul_assoc] at hfits
  have hparity : (value.drop 14).length = stripeCount.toNat * c.blockSize := by
    rw [length_drop, hlength]
  have htotal : ¬ stripeCount.toNat * c.stripeSize.toNat * c.blockSize > u64Max := by
    have hle : stripeCount.toNat * c.stripeSize.toNat * c.blockSize ≤ 255 * maxParitySize :=
      calc stripeCount.toNat * c.stripeSize.toNat * c.blockSize
          = c.stripeSize.toNat * (stripeCount.toNat * c.blockSize) := by ring
        _ ≤ 255 * maxParitySize :=
          Nat.mul_le_mul (Nat.le_of_lt_succ (UInt8.toNat_lt _)) (not_lt.mp hmax)
    have hsmall : 255 * maxParitySize ≤ u64Max := by decide
    omega
  refine ⟨stripeCount.toNat, ⟨hfits, fun g => ?_, hparity⟩, fun availableData erasures => ?_⟩
  · rw [hgroups g, hstripe, hblock, Nat.mul_assoc]
  · rw [recover, hheader, ok_bind]
    dsimp only
    rw [hvalid, ok_bind, rejectIf_bind (not_not.mpr rfl), rejectIf_bind htotal,
      take_of_length_le hparity.le]
    rfl

/-- Anything else is rejected, whatever is available. -/
theorem recover_of_not_accepts (h : ¬ c.Accepts value len) :
    ∃ e, ∀ availableData erasures, c.recover ⟨len, availableData, value, erasures⟩ = .error e := by
  simp only [recover]
  rcases hheader : parseHeader value with e | ⟨c', originalLen, stripeCount⟩
  · exact ⟨e, fun _ _ => rfl⟩
  · rcases hvalid : c.validate value with e | _
    · exact ⟨e, fun _ _ => rfl⟩
    · by_cases hlen : originalLen = len
      · exact absurd ⟨hvalid, c', stripeCount, hlen ▸ hheader⟩ h
      · refine ⟨.invalidLength "XOR recovery: original_protected_len mismatch", fun _ _ => ?_⟩
        simp only [ok_bind]
        rw [rejectIf_of hlen]
        rfl

/-- No stripe has more than one erasure. -/
def OnePerStripe (c : XorCodec) (len : UInt64) (erasures : List Erasure) : Prop :=
  ∀ g, g * c.stripeSize.toNat * c.blockSize < len.toNat →
    (c.stripeErasures g erasures).length ≤ 1

variable {erasures : List Erasure}

/-- **What the decoder computes.** -/
theorem recover_affine (h : c.Accepts value len) (hone : c.OnePerStripe len erasures) :
    Affine (fun availableData => c.recover ⟨len, availableData, value, erasures⟩) len.toNat
      c.stripeSize.toNat c.blockSize erasures
      (fun g _ b => elementAt (value.drop 14) (g * c.blockSize + b)) (fun _ _ _ => 1) := by
  obtain ⟨stripeCount, hann, hrecover⟩ := recover_of_accepts h
  refine ⟨fun _ _ _ _ _ _ _ => one_ne_zero, fun availableData => ?_⟩
  have hcount : ∀ g < stripeCount, (c.stripeErasures g erasures).length ≤ 1 :=
    fun g hg => hone g ((hann.lt_iff g).mp hg)
  obtain ⟨out, hfold, htreated⟩ := @foldlM_treated c.stripeSize.toNat c.blockSize stripeCount
    erasures availableData FecError (c.recoverStripe (value.drop 14) availableData erasures)
    (fun g e b => elementAt (value.drop 14) (g * c.blockSize + b) +
      ∑ j ∈ (Finset.range c.stripeSize.toNat).filter (· ∉ erasedData c.stripeSize.toNat g erasures),
        1 * elementAt availableData ((g * c.stripeSize.toNat + j) * c.blockSize + b))
    (fun g hg => by
      rcases c.erasedData_of_length_le_one (hcount g hg) with hnone | ⟨e, hone⟩
      · rw [hnone]
        exact nodup_nil
      · rw [hone]
        exact nodup_singleton e)
    (fun g hg => ⟨c.recoverBlock (value.drop 14) availableData g,
      fun out hout => by
        -- at most one erasure turns into the write of that block
        rw [recoverStripe, rejectIf_bind (Nat.not_lt.mpr (hcount g hg)), stripeErasures]
        rcases c.erasedData_of_length_le_one (hcount g hg) with hnone | ⟨erased, hone⟩
        · rw [hnone]
          rfl
        · have hlt : erased < c.stripeSize.toNat :=
            (mem_erasedData.mp (hone ▸ mem_singleton_self erased)).1
          have hinside := RsCodec.symbol_inside c.blockSize hg hlt
          rw [hone]
          dsimp only
          rw [if_pos (hinside.trans_eq hout.symm)]
          rfl,
      fun e _ => by
        rw [recoverBlock_eq_foldl_filter]
        exact length_foldl_xorInto _ _ _ (c.length_parityBlock hann.length_parity hg)
          fun i _ => c.length_blockBytes ..,
      fun e he b hb => by
        rcases c.erasedData_of_length_le_one (hcount g hg) with hnone | ⟨e', hone⟩
        · exact absurd (hnone ▸ he) not_mem_nil
        · obtain rfl : e = e' := mem_singleton.mp (hone ▸ he)
          simp only [c.elementAt_recoverBlock hann.length_parity hg e hb, hone, one_mul]⟩)
  obtain ⟨hlength, hkept, hvalue⟩ := htreated.take hann.fits
  exact ⟨out.take len.toNat, by rw [hrecover, hfold]; rfl, hlength, hkept, hvalue⟩

/-- Two erasures in a stripe that holds protected bytes are a failure. -/
theorem recover_eq_error (h : c.Accepts value len) (hmany : ¬ c.OnePerStripe len erasures)
    (availableData : Bytes) :
    c.recover ⟨len, availableData, value, erasures⟩ =
      .error (.ecFailed "XOR: more than one erasure per stripe cannot be recovered") := by
  obtain ⟨stripeCount, hann, hrecover⟩ := recover_of_accepts h
  rw [OnePerStripe] at hmany
  push Not at hmany
  obtain ⟨g, hg, hcount⟩ := hmany
  have hlt : g < stripeCount := (hann.lt_iff g).mpr hg
  have hfound : ∃ e, (List.range stripeCount).findSome? (c.stripeError? erasures) = some e := by
    rw [← Option.isSome_iff_exists, List.findSome?_isSome_iff]
    exact ⟨g, mem_range.mpr hlt, by rw [stripeError?, if_pos hcount]; rfl⟩
  obtain ⟨e, he⟩ := hfound
  obtain ⟨stripe, -, hstripe⟩ := exists_of_findSome?_eq_some he
  obtain ⟨-, rfl⟩ := c.stripeError?_eq_some hstripe
  rw [hrecover, Except.foldlM_eq_error (fun out _ => c.exists_recoverStripe_eq_ok out)
    (fun out _ _ => c.recoverStripe_eq_error out) he]
  rfl

/-! ### Values the codec encoded -/

/-- The encoder's value is accepted, and its parity is that of the protected bytes. -/
theorem accepts_of_encodeRecovery {protectedBytes : Bytes}
    (henc : c.encodeRecovery protectedBytes = .ok value) :
    protectedBytes.length ≤ u64Max ∧ c.Accepts value (UInt64.ofNat protectedBytes.length) ∧
      ∀ g, g * c.stripeSize.toNat * c.blockSize < protectedBytes.length → ∀ b < c.blockSize,
        elementAt (value.drop 14) (g * c.blockSize + b) =
          ∑ j ∈ Finset.range c.stripeSize.toNat,
            elementAt protectedBytes ((g * c.stripeSize.toNat + j) * c.blockSize + b) := by
  obtain ⟨stripeCount, parity, hcount, hmax, hparity, hblob, rfl⟩ := c.encodeRecovery_eq_ok henc
  obtain ⟨hlen, -, hgroups⟩ := fecGroupCount_eq_ok hcount
  refine ⟨hlen, ⟨c.validate_encoded hlen hcount hmax hparity, c, stripeCount,
    c.parseHeader_encoded ..⟩, fun g hg b hb => ?_⟩
  have hdrop : ([c.stripeSize, c.blockSizeIndex] ++
      (u64Bytes (UInt64.ofNat protectedBytes.length) ++
      (u32Bytes stripeCount ++ parity))).drop 14 = parity := by
    simp [drop_append, u64Bytes, u32Bytes]
  have hlt : g < stripeCount.toNat := (hgroups g).mpr (by rwa [← Nat.mul_assoc])
  have hblock : ((parity.drop (g * c.blockSize)).take c.blockSize) =
      c.stripeParity protectedBytes g := by
    rw [hblob]
    exact RsCodec.take_drop_flatMap_range _ (c.length_stripeParity protectedBytes) hlt
  have hbyte : elementAt parity (g * c.blockSize + b) =
      elementAt (c.stripeParity protectedBytes g) b := by
    rw [← hblock, elementAt, elementAt, getD_eq_getElem?_getD, getD_eq_getElem?_getD,
      List.getElem?_take_of_lt hb, List.getElem?_drop]
  rw [hdrop, hbyte, stripeParity, elementAt_foldl_xorInto _ _ _ (length_replicate ..)
    (fun i _ => length_paddedSlice ..), elementAt_replicate_zero, zero_add,
    ← sum_toFinset _ nodup_range, toFinset_range]
  exact Finset.sum_congr rfl fun j _ => elementAt_paddedSlice _ _ hb

/-- With at most one erasure in each stripe the protected bytes are recovered. -/
theorem recover_of_le_one {protectedBytes availableData : Bytes}
    (henc : c.encodeRecovery protectedBytes = .ok value)
    (hlen : availableData.length = protectedBytes.length) (hagree : ∀ i < protectedBytes.length,
      (∀ e ∈ erasures, e.index.toNat ≠ i / c.blockSize) →
        availableData[i]? = protectedBytes[i]?) (hcount : ∀ stripe, (erasures.filter fun e =>
      e.index.toNat / c.stripeSize.toNat = stripe).length ≤ 1) :
    c.recover ⟨UInt64.ofNat protectedBytes.length, availableData, value, erasures⟩ =
      .ok protectedBytes := by
  obtain ⟨hmax, haccepts, hparity⟩ := accepts_of_encodeRecovery henc
  have hstripe := c.stripeSize_pos
  simp only [← RsCodec.length_erasedData hstripe] at hcount
  have haffine := recover_affine haccepts fun g _ => hcount g
  rw [toNat_uint64_ofNat hmax] at haffine
  refine haffine.recovers_protected hstripe c.blockSize_pos rfl hlen hagree
    fun g e he b hb hin => ?_
  -- the parity is the sum of the whole stripe
  have hlt : e < c.stripeSize.toNat := (mem_erasedData.mp he).1
  have hfirst : g * c.stripeSize.toNat * c.blockSize < protectedBytes.length :=
    lt_of_le_of_lt (Nat.mul_le_mul_right _ (Nat.le_add_right _ e)) (by omega)
  rcases c.erasedData_of_length_le_one (hcount g) with hnone | ⟨e', hone⟩
  · exact absurd (hnone ▸ he) not_mem_nil
  · obtain rfl : e = e' := mem_singleton.mp (hone ▸ he)
    have hfilter : (Finset.range c.stripeSize.toNat).filter (· ∉ [e]) =
        (Finset.range c.stripeSize.toNat).erase e := by
      ext j
      rw [Finset.mem_filter, Finset.mem_erase, mem_singleton, and_comm]
    simp only [hone, one_mul, hparity g hfirst b hb]
    rw [hfilter, ← Finset.add_sum_erase _ _ (Finset.mem_range.mpr hlt), add_assoc,
      ← Gf256.sub_eq_add (∑ j ∈ _, _), sub_self, add_zero]

/-- **Recovery is exact.** From a value the codec encoded and data that is right outside the
erased blocks, the protected bytes are recovered when no stripe has more than one erasure; a stripe
that has more is a failure. -/
theorem recover_encoded_exact (c : XorCodec) (protectedBytes value availableData : Bytes)
    (erasures : List Erasure) (henc : c.encodeRecovery protectedBytes = .ok value)
    (hrange : ∀ e ∈ erasures, e.index.toNat / c.stripeSize.toNat *
      (c.stripeSize.toNat * c.blockSize) < protectedBytes.length)
    (hlen : availableData.length = protectedBytes.length)
    (hagree : ∀ i < protectedBytes.length,
      (∀ e ∈ erasures, e.index.toNat ≠ i / c.blockSize) →
        availableData[i]? = protectedBytes[i]?) :
    ((∀ stripe, (erasures.filter fun e =>
        e.index.toNat / c.stripeSize.toNat = stripe).length ≤ 1) →
      c.recover ⟨UInt64.ofNat protectedBytes.length, availableData, value, erasures⟩ =
        .ok protectedBytes) ∧
    ((∃ stripe, 2 ≤ (erasures.filter fun e =>
        e.index.toNat / c.stripeSize.toNat = stripe).length) →
      ∃ message,
        c.recover ⟨UInt64.ofNat protectedBytes.length, availableData, value, erasures⟩ =
          .error (.ecFailed message)) := by
  constructor
  · exact recover_of_le_one henc hlen hagree
  · obtain ⟨hmax, haccepts, -⟩ := accepts_of_encodeRecovery henc
    have hstripe := c.stripeSize_pos
    simp only [← RsCodec.length_erasedData hstripe]
    rintro ⟨stripe, htwo⟩
    refine ⟨_, recover_eq_error haccepts (fun hone => ?_) availableData⟩
    have hin := RsCodec.group_lt_of_erased hstripe hrange (Nat.zero_lt_of_lt htwo)
    have hle := hone stripe (by rwa [toNat_uint64_ofNat hmax])
    rw [stripeErasures] at hle
    omega

theorem uint8_two_ne_zero : (2 : UInt8) ≠ 0 := by decide

/-- Stripes of two blocks of 256 bytes. -/
def twoBlocks : XorCodec := ⟨2, 0, uint8_two_ne_zero, by decide⟩

/-- The value of 300 equal bytes: a full block and a padded one. -/
def twoBlocksValue : Bytes :=
  [2, 0] ++ u64Bytes 300 ++ u32Bytes 1 ++ List.replicate 44 0 ++ List.replicate 212 7

/-- A lost block comes back from the parity and the other block; two lost blocks do not. -/
theorem recover_encoded_exact_twoBlocks :
    twoBlocks.recover ⟨UInt64.ofNat (List.replicate 300 (7 : UInt8)).length,
        List.replicate 256 0 ++ List.replicate 44 7, twoBlocksValue, [⟨0⟩]⟩ =
      .ok (List.replicate 300 7) ∧
    ∃ message, twoBlocks.recover ⟨UInt64.ofNat (List.replicate 300 (7 : UInt8)).length,
        List.replicate 300 0, twoBlocksValue, [⟨0⟩, ⟨1⟩]⟩ = .error (.ecFailed message) := by
  have henc : twoBlocks.encodeRecovery (List.replicate 300 7) = .ok twoBlocksValue := by
    decide +kernel
  constructor
  · refine (recover_encoded_exact twoBlocks _ twoBlocksValue _ [⟨0⟩] henc (by decide +kernel)
      (by decide +kernel) (by decide +kernel)).1 fun stripe => ?_
    exact length_filter_le _ _
  · exact (recover_encoded_exact twoBlocks _ twoBlocksValue _ [⟨0⟩, ⟨1⟩] henc (by decide +kernel)
      (by decide +kernel) (by decide +kernel)).2 ⟨0, by decide +kernel⟩

end XorCodec

end Sar
