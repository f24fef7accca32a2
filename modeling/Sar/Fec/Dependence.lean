import Sar.Fec.XorRecover

/-!
# What recovery depends on

Reed–Solomon recovery is affine as well: an erased symbol is a combination of parity symbols and of
the other data symbols of its group, with weights that only depend on which symbols are erased
(`RsCodec.recover_affine`). No weight vanishes (`RsCodec.decodeCoeff_ne_zero`): otherwise a row of
the inverse would be a polynomial with too many roots. The affine map takes the bytes a value was
encoded of to themselves, so recovery is exact (**`RsCodec.recover_exact`**).

With both codecs affine, **`ignoresUnusable_recover_iff`** says when recovery ignores the bytes a
caller may leave undefined.
-/

namespace Sar

open Except (rejectIf ok_bind rejectIf_bind)
open List
open GaussJordan (IsGrid Solves)

namespace RsCodec

/-! ### The weights -/

/-- The row of the inverse that yields an erased symbol. -/
def decodeRow (erased : List ℕ) (e : ℕ) : List Gf256 :=
  GaussJordan.row ((GaussJordan.invert (decodeMatrix erased)).getD []) (erased.idxOf e)

/-- The weight of a data symbol in an erased one. -/
def decodeCoeff (erased : List ℕ) (e j : ℕ) : Gf256 :=
  GaussJordan.dot erased.length (decodeRow erased e) fun r => ⟨vandermonde r j⟩

/-- The share of the parity symbols in a byte of an erased symbol. -/
def decodeConst (c : RsCodec) (parityBlob : Bytes) (group : ℕ) (erased : List ℕ) (e b : ℕ) :
    Gf256 :=
  GaussJordan.dot erased.length (decodeRow erased e) fun r =>
    elementAt (extractParitySymbol parityBlob group r c.parityCount.toNat c.symbolSize.toNat) b

theorem entry_decodeMatrix {erased : List ℕ} {r i : ℕ} (hr : r < erased.length)
    (hi : i < erased.length) :
    GaussJordan.entry (decodeMatrix erased) r i = ⟨vandermonde r (erased.getD i 0)⟩ := by
  simp [GaussJordan.entry, GaussJordan.row, decodeMatrix, getD_eq_getElem?_getD, hr, hi]

section Weights

variable {k : ℕ} (hk : k ≤ 255) {erased : List ℕ} (hnodup : erased.Nodup)
  (hlt : ∀ e ∈ erased, e < k)

include hk hnodup hlt

/-- Different erasures give a system that is inverted. -/
theorem exists_invert_decodeMatrix :
    ∃ inv, GaussJordan.invert (decodeMatrix erased) = some inv ∧
      IsGrid inv erased.length erased.length ∧ ∀ x : ℕ → Gf256, ∀ i < erased.length,
        GaussJordan.dot erased.length (GaussJordan.row inv i) (fun r =>
          GaussJordan.dot erased.length (GaussJordan.row (decodeMatrix erased) r) x) = x i :=
  GaussJordan.invert_spec (isGrid_decodeMatrix erased) fun _ hz =>
    eq_zero_of_solves_decodeMatrix hk hnodup hlt hz

/-- An erased symbol does not count for another one. -/
theorem decodeCoeff_erased {e e' : ℕ} (he : e ∈ erased) (he' : e' ∈ erased) :
    decodeCoeff erased e e' = if e = e' then 1 else 0 := by
  obtain ⟨inv, hinv, -, hleft⟩ := exists_invert_decodeMatrix hk hnodup hlt
  have hi := idxOf_lt_length_iff.mpr he
  have hi' := idxOf_lt_length_iff.mpr he'
  have hunit := hleft (fun c => if c = erased.idxOf e' then 1 else 0) (erased.idxOf e) hi
  have hsame : erased.idxOf e = erased.idxOf e' ↔ e = e' := idxOf_inj he
  simp only [GaussJordan.dot_unit _ hi', hsame] at hunit
  rw [← hunit, decodeCoeff, decodeRow, hinv, Option.getD_some]
  refine Finset.sum_congr rfl fun r hr => congrArg _ ?_
  have hentry := entry_decodeMatrix (Finset.mem_range.mp hr) hi'
  rw [getD_eq_getElem _ _ hi', getElem_idxOf] at hentry
  exact hentry.symm

/-- **Every data symbol counts.** The row of an erased symbol vanishes at the other erasures; with
one more root it would be zero. -/
theorem decodeCoeff_ne_zero {e j : ℕ} (he : e ∈ erased) (hj : j < k) (hnot : j ∉ erased) :
    decodeCoeff erased e j ≠ 0 := by
  intro hzero
  set u : ℕ → Gf256 := fun r => (decodeRow erased e).getD r 0
  -- the erasures, with `j` in the place of `e`
  set place : ℕ → ℕ := fun i => if erased.getD i 0 = e then j else erased.getD i 0 with hplace
  have hmem : ∀ i < erased.length, erased.getD i 0 ∈ erased := by
    intro i hi
    rw [getD_eq_getElem _ _ hi]
    exact getElem_mem hi
  have hcoeff : ∀ i, decodeCoeff erased e i =
      ∑ r ∈ Finset.range erased.length, u r * (Gf256.alpha ^ i) ^ (r + 1) := by
    intro i
    rw [decodeCoeff, GaussJordan.dot]
    exact Finset.sum_congr rfl fun r _ => congrArg (u r * ·) (vandermonde_eq r i)
  have hroot : ∀ i < erased.length, decodeCoeff erased e (place i) = 0 := by
    intro i hi
    by_cases heq : erased.getD i 0 = e
    · rw [hplace]
      simpa only [if_pos heq] using hzero
    · rw [hplace]
      simp only [if_neg heq]
      rw [decodeCoeff_erased hk hnodup hlt he (hmem i hi), if_neg (Ne.symm heq)]
  have hsmall : ∀ i < erased.length, place i < 255 := by
    intro i hi
    rw [hplace]
    dsimp only
    split
    · exact hj.trans_le hk
    · exact (hlt _ (hmem i hi)).trans_le hk
  have hget : ∀ i < erased.length, ∀ i' < erased.length,
      erased.getD i 0 = erased.getD i' 0 → i = i' := by
    intro i hi i' hi' heq
    rw [getD_eq_getElem _ _ hi, getD_eq_getElem _ _ hi'] at heq
    exact hnodup.getElem_inj_iff.mp heq
  have hplaces : ∀ i < erased.length, ∀ i' < erased.length, place i = place i' → i = i' := by
    intro i hi i' hi' heq
    refine hget i hi i' hi' ?_
    rw [hplace] at heq
    dsimp only at heq
    split at heq <;> split at heq
    · next h h' => rw [h, h']
    · exact absurd (heq ▸ hmem i' hi') hnot
    · exact absurd (heq ▸ hmem i hi) hnot
    · exact heq
  have hvanish := GaussJordan.eq_zero_of_forall_sum_powers
    (x := fun i => Gf256.alpha ^ place i) (u := u) (fun i _ => Gf256.alpha_pow_ne_zero _)
    (fun i hi i' hi' heq =>
      hplaces i hi i' hi' (Gf256.alpha_pow_injOn (hsmall i hi) (hsmall i' hi') heq))
    (fun i hi => (hcoeff _).symm.trans (hroot i hi))
  have hone : decodeCoeff erased e e = 1 := by
    rw [decodeCoeff_erased hk hnodup hlt he he, if_pos rfl]
  rw [hcoeff, Finset.sum_eq_zero fun r hr => by
    rw [hvanish r (Finset.mem_range.mp hr), zero_mul]] at hone
  exact zero_ne_one hone

end Weights

/-- Repeated erasures give a system that is not. -/
theorem invert_decodeMatrix_eq_none {erased : List ℕ} (h : ¬ erased.Nodup) :
    GaussJordan.invert (decodeMatrix erased) = none := by
  rw [List.Nodup, pairwise_iff_getElem] at h
  push Not at h
  obtain ⟨i, j, hi, hj, hij, heq⟩ := h
  refine GaussJordan.invert_eq_none_of_columns_eq (isGrid_decodeMatrix erased) hi hj hij.ne
    fun r hr => ?_
  rw [entry_decodeMatrix hr hi, entry_decodeMatrix hr hj, getD_eq_getElem _ _ hi,
    getD_eq_getElem _ _ hj, heq]

/-! ### Groups -/

section Group

variable (c : RsCodec) {parityBlob availableData : Bytes} {erasures : List Erasure}
  {groupCount group : ℕ}

/-- The failure of a group. -/
def groupError? (erasures : List Erasure) (group : ℕ) : Option FecError :=
  if c.parityCount.toNat < (erasedData c.k.toNat group erasures).length then
    some (.ecFailed "RS: erased data symbols exceed parity count for this group")
  else if (erasedData c.k.toNat group erasures).Nodup then none
  else some (.ecFailed "RS decode: singular matrix (too many erasures)")

theorem k_le (c : RsCodec) : c.k.toNat ≤ 255 := Nat.le_of_lt_succ (UInt8.toNat_lt c.k)

theorem lt_of_mem_erasedData (erasures : List Erasure) (group : ℕ) :
    ∀ e ∈ erasedData c.k.toNat group erasures, e < c.k.toNat :=
  fun _ he => (mem_erasedData.mp he).1

/-- A group that does not fail turns into the writes of its erased symbols. -/
theorem recoverGroup_eq_scatter (parityBlob availableData : Bytes)
    (hcount : (erasedData c.k.toNat group erasures).length ≤ c.parityCount.toNat)
    (hnodup : (erasedData c.k.toNat group erasures).Nodup) :
    ∃ symbol : ℕ → Bytes,
      (∀ out, c.recoverGroup parityBlob availableData erasures out group =
        .ok (c.writeRecovered group out
          ((erasedData c.k.toNat group erasures).map fun e => (e, symbol e)))) ∧
      (∀ e ∈ erasedData c.k.toNat group erasures, (symbol e).length = c.symbolSize.toNat) ∧
      ∀ e ∈ erasedData c.k.toNat group erasures, ∀ b < c.symbolSize.toNat,
        elementAt (symbol e) b =
          c.decodeConst parityBlob group (erasedData c.k.toNat group erasures) e b +
            ∑ j ∈ (Finset.range c.k.toNat).filter (· ∉ erasedData c.k.toNat group erasures),
              decodeCoeff (erasedData c.k.toNat group erasures) e j *
                c.protectedAt availableData group b j := by
  have hlt := c.lt_of_mem_erasedData erasures group
  set erased := erasedData c.k.toNat group erasures with herased
  obtain ⟨inv, hinv, hgrid, -⟩ := exists_invert_decodeMatrix c.k_le hnodup hlt
  set rhs := c.decodeRhs parityBlob availableData group erased
  have hrhs : ∀ r, (rhs r).length = c.symbolSize.toNat := fun r => c.length_decodeRhs ..
  set recovered := matVecMul inv ((List.range erased.length).map rhs) c.symbolSize.toNat
  have hsymbol : ∀ e ∈ erased, ∃ symbol, recovered[erased.idxOf e]? = some symbol ∧
      symbol.length = c.symbolSize.toNat ∧ ∀ b, elementAt symbol b =
        GaussJordan.dot erased.length (GaussJordan.row inv (erased.idxOf e)) fun r =>
          elementAt (rhs r) b :=
    fun e he => elementAt_matVecMul hgrid hrhs (idxOf_lt_length_iff.mpr he)
  refine ⟨fun e => recovered.getD (erased.idxOf e) [], fun out => ?_, fun e he => ?_,
    fun e he b hb => ?_⟩
  · rw [recoverGroup]
    dsimp only
    rw [← herased]
    split
    · next hempty =>
      rw [hempty]
      rfl
    · have hzip : erased.zip recovered =
          erased.map fun e => (e, recovered.getD (erased.idxOf e) []) := by
        have hlength : recovered.length = erased.length := by
          simp only [recovered, matVecMul, length_map, hgrid.length_eq]
        refine ext_getElem (by simp [hlength]) fun i h1 h2 => ?_
        have hi : i < erased.length := by simpa using h2
        simp [hnodup.idxOf_getElem i hi, getD_eq_getElem?_getD, hlength ▸ hi]
      rw [rejectIf_bind (Nat.not_lt.mpr hcount), invert, hinv, ← hzip]
      rfl
  · obtain ⟨symbol, hget, hlen, -⟩ := hsymbol e he
    dsimp only
    rw [getD_eq_getElem?_getD, hget, Option.getD_some, hlen]
  · obtain ⟨symbol, hget, -, hbytes⟩ := hsymbol e he
    dsimp only
    rw [getD_eq_getElem?_getD, hget, Option.getD_some, hbytes, decodeConst]
    simp only [rhs, c.elementAt_decodeRhs_eq _ _ _ _ _ hb, GaussJordan.dot_add_sum, decodeCoeff,
      decodeRow, hinv, Option.getD_some]

theorem exists_eq_ecFailed {e : FecError} (h : c.groupError? erasures group = some e) :
    ∃ message, e = .ecFailed message := by
  rw [groupError?] at h
  split_ifs at h <;> exact ⟨_, (Option.some.inj h).symm⟩

/-- Whether a group succeeds does not depend on the output so far. -/
theorem exists_recoverGroup_eq_ok (out : Bytes) (h : c.groupError? erasures group = none) :
    ∃ out', c.recoverGroup parityBlob availableData erasures out group = .ok out' := by
  rw [groupError?] at h
  split at h
  · exact nomatch h
  · next hcount =>
    split at h
    · next hnodup =>
      obtain ⟨symbol, hok, -⟩ := c.recoverGroup_eq_scatter parityBlob availableData
        (not_lt.mp hcount) hnodup
      exact ⟨_, hok out⟩
    · exact nomatch h

/-- A group fails for its erasures alone. -/
theorem recoverGroup_eq_groupError (out : Bytes) {e : FecError}
    (h : c.groupError? erasures group = some e) :
    c.recoverGroup parityBlob availableData erasures out group = .error e := by
  rw [groupError?] at h
  split at h
  · next hcount =>
    have hne : erasedData c.k.toNat group erasures ≠ [] := by
      intro hnil
      rw [hnil] at hcount
      exact absurd hcount (Nat.not_lt_zero _)
    rw [recoverGroup, if_neg hne, Except.rejectIf_of hcount, ← Option.some.inj h]
    rfl
  · next hcount =>
    split at h
    · exact nomatch h
    · next hrepeated =>
      have hne : erasedData c.k.toNat group erasures ≠ [] := by
        intro hnil
        rw [hnil] at hrepeated
        exact hrepeated nodup_nil
      rw [recoverGroup]
      dsimp only
      rw [if_neg hne, rejectIf_bind hcount, invert, invert_decodeMatrix_eq_none hrepeated,
        ← Option.some.inj h]
      rfl

end Group

/-! ### Whole values -/

/-- A value of the codec for that many bytes. -/
def Accepts (c : RsCodec) (value : Bytes) (len : UInt64) : Prop :=
  c.validate value = .ok () ∧ ∃ header, parseHeader value = .ok header ∧ header.originalLen = len

/-- No group has more erasures than parity symbols, and none has an erasure twice. -/
def FewPerGroup (c : RsCodec) (len : UInt64) (erasures : List Erasure) : Prop :=
  ∀ g, g * c.k.toNat * c.symbolSize.toNat < len.toNat →
    (erasedData c.k.toNat g erasures).length ≤ c.parityCount.toNat ∧
      (erasedData c.k.toNat g erasures).Nodup

theorem k_pos (c : RsCodec) : 0 < c.k.toNat :=
  Nat.pos_of_ne_zero fun h => c.k_ne (UInt8.toNat_inj.mp h)

theorem symbolSize_pos (c : RsCodec) : 0 < c.symbolSize.toNat :=
  Nat.pos_of_ne_zero fun h => c.symbolSize_ne (UInt32.toNat_inj.mp h)

/-- What a value announces. -/
structure Announces (c : RsCodec) (len : UInt64) (groupCount : ℕ) : Prop where
  fits : len.toNat ≤ groupCount * c.k.toNat * c.symbolSize.toNat
  lt_iff : ∀ g, g < groupCount ↔ g * c.k.toNat * c.symbolSize.toNat < len.toNat

/-- With a value of the codec, only the loop over the groups is left. -/
theorem recover_of_accepts {c : RsCodec} {value : Bytes} {len : UInt64} (h : c.Accepts value len) :
    ∃ groupCount, c.Announces len groupCount ∧ ∀ availableData erasures,
      c.recover ⟨len, availableData, value, erasures⟩ =
        ((List.range groupCount).foldlM (c.recoverGroup (value.drop 18) availableData erasures)
          (paddedSlice availableData 0 (groupCount * c.k.toNat * c.symbolSize.toNat)) >>=
        fun out => .ok (out.take len.toNat)) := by
  obtain ⟨hvalid, header, hheader, rfl⟩ := h
  have hfacts := hvalid
  simp only [validate, hheader, ok_bind, Except.bind_eq_ok_iff, Except.exists_unit,
    Except.rejectIf_eq_ok_iff, not_or, not_not] at hfacts
  obtain ⟨⟨hk, hparity, hsize⟩, -, expected, hexpected, hcount, parityLen, hparityLen, hmax,
    hlength⟩ := hfacts
  rw [← hcount] at hexpected
  obtain ⟨-, hfits, hgroups⟩ := fecGroupCount_eq_ok hexpected
  rw [hk, hsize, ← Nat.mul_assoc] at hfits
  have htotal := c.total_le (by rw [← hparity, ← hsize]; exact hparityLen) (not_lt.mp hmax)
  refine ⟨header.groupCount.toNat, ⟨hfits, fun g => ?_⟩, fun availableData erasures => ?_⟩
  · rw [hgroups g, hk, hsize, Nat.mul_assoc]
  · rw [hparity, hsize] at hparityLen
    have hdrop : (value.drop 18).length = parityLen := by rw [length_drop, hlength]
    rw [recover, hheader, ok_bind, hvalid, ok_bind,
      rejectIf_bind (not_not.mpr rfl), hparityLen, ok_bind]
    dsimp only
    rw [rejectIf_bind (Nat.not_lt.mpr htotal), take_of_length_le hdrop.le]
    rfl

variable {c : RsCodec} {value : Bytes} {len : UInt64}

/-- Anything else is rejected, whatever is available. -/
theorem recover_of_not_accepts (h : ¬ c.Accepts value len) :
    ∃ e, ∀ availableData erasures, c.recover ⟨len, availableData, value, erasures⟩ = .error e := by
  simp only [recover]
  rcases hheader : parseHeader value with e | header
  · exact ⟨e, fun _ _ => rfl⟩
  · rcases hvalid : c.validate value with e | _
    · exact ⟨e, fun _ _ => rfl⟩
    · by_cases hlen : header.originalLen = len
      · exact absurd ⟨hvalid, header, hheader, hlen⟩ h
      · refine ⟨.invalidLength "RS recovery: original_protected_len mismatch", fun _ _ => ?_⟩
        simp only [ok_bind]
        rw [Except.rejectIf_of hlen]
        rfl

/-- **What the decoder computes.** -/
theorem recover_affine {erasures : List Erasure} (h : c.Accepts value len)
    (hfew : c.FewPerGroup len erasures) :
    Affine (fun availableData => c.recover ⟨len, availableData, value, erasures⟩) len.toNat
      c.k.toNat c.symbolSize.toNat erasures
      (fun g e b => c.decodeConst (value.drop 18) g (erasedData c.k.toNat g erasures) e b)
      (fun g e j => decodeCoeff (erasedData c.k.toNat g erasures) e j) := by
  obtain ⟨groupCount, hann, hrecover⟩ := recover_of_accepts h
  refine ⟨fun g hg e he j hj hnot => decodeCoeff_ne_zero c.k_le (hfew g hg).2
    (c.lt_of_mem_erasedData erasures g) he hj hnot, fun availableData => ?_⟩
  have hgroup : ∀ g < groupCount, _ := fun g hg => hfew g ((hann.lt_iff g).mp hg)
  obtain ⟨out, hfold, htreated⟩ := @foldlM_treated c.k.toNat c.symbolSize.toNat groupCount
    erasures availableData FecError (c.recoverGroup (value.drop 18) availableData erasures) _
    (fun g hg => (hgroup g hg).2)
    (fun g hg => by
      obtain ⟨symbol, hok, hlen, hvalue⟩ := c.recoverGroup_eq_scatter (value.drop 18) availableData
        (hgroup g hg).1 (hgroup g hg).2
      refine ⟨symbol, fun out hout => ?_, hlen, hvalue⟩
      rw [hok, writeRecovered_eq_scatter hg symbol hlen (c.lt_of_mem_erasedData erasures g) hout]
      rfl)
  obtain ⟨hlength, hkept, hvalue⟩ := htreated.take hann.fits
  exact ⟨out.take len.toNat, by rw [hrecover, hfold]; rfl, hlength, hkept, hvalue⟩

/-- Any other erasures of groups that hold protected bytes are a failure, always the same. -/
theorem recover_eq_error {erasures : List Erasure} (h : c.Accepts value len)
    (hmany : ¬ c.FewPerGroup len erasures) :
    ∃ message, ∀ availableData,
      c.recover ⟨len, availableData, value, erasures⟩ = .error (.ecFailed message) := by
  obtain ⟨groupCount, hann, hrecover⟩ := recover_of_accepts h
  rw [FewPerGroup] at hmany
  push Not at hmany
  obtain ⟨g, hg, hcount⟩ := hmany
  have hlt : g < groupCount := (hann.lt_iff g).mpr hg
  have hfound : ∃ e, (List.range groupCount).findSome? (c.groupError? erasures) = some e := by
    rw [← Option.isSome_iff_exists, List.findSome?_isSome_iff]
    refine ⟨g, mem_range.mpr hlt, ?_⟩
    rw [groupError?]
    split
    · rfl
    · next hle => rw [if_neg (hcount (not_lt.mp hle))]; rfl
  obtain ⟨e, he⟩ := hfound
  obtain ⟨group, -, hgroup⟩ := exists_of_findSome?_eq_some he
  obtain ⟨message, rfl⟩ := c.exists_eq_ecFailed hgroup
  refine ⟨message, fun availableData => ?_⟩
  rw [hrecover, Except.foldlM_eq_error (fun out _ => c.exists_recoverGroup_eq_ok out)
    (fun out _ _ => c.recoverGroup_eq_groupError out) he]
  rfl

/-! ### Values the codec encoded -/

/-- The encoder's value is accepted, and its parity symbols are combinations of the protected
ones. -/
theorem accepts_of_encodeRecovery {protectedBytes : Bytes}
    (henc : c.encodeRecovery protectedBytes = .ok value) :
    protectedBytes.length ≤ u64Max ∧ c.Accepts value (UInt64.ofNat protectedBytes.length) ∧
      ∀ g, g * c.k.toNat * c.symbolSize.toNat < protectedBytes.length →
        ∀ r < c.parityCount.toNat, ∀ b < c.symbolSize.toNat,
          elementAt (extractParitySymbol (value.drop 18) g r c.parityCount.toNat
              c.symbolSize.toNat) b =
            ∑ j ∈ Finset.range c.k.toNat,
              ⟨vandermonde r j⟩ * c.protectedAt protectedBytes g b j := by
  obtain ⟨count, parityLen, parity, hcount, hparity, hmax, hlength, hblob, rfl⟩ :=
    c.encodeRecovery_eq_ok henc
  obtain ⟨hlen, -, hgroups⟩ := fecGroupCount_eq_ok hcount
  refine ⟨hlen, ⟨c.validate_encoded hlen hcount hparity hmax hlength, _,
    c.parseHeader_encoded .., rfl⟩, fun g hg r hr b hb => ?_⟩
  have hdrop : ([c.k, c.parityCount] ++ (u32Bytes c.symbolSize ++
      (u64Bytes (UInt64.ofNat protectedBytes.length) ++ (u32Bytes count ++ parity)))).drop 18 =
      c.parityBlob protectedBytes count.toNat := by
    simp only [parityBlob, ← hblob, ← append_assoc]
    exact drop_left' (by simp)
  have hlt : g < count.toNat := (hgroups g).mpr (by rwa [← Nat.mul_assoc])
  rw [hdrop, c.extractParitySymbol_parityBlob protectedBytes hlt hr,
    elementAt_paritySymbol _ fun i => length_extractSymbol ..]
  refine Finset.sum_congr rfl fun j _ => ?_
  rw [elementAt_extractSymbol _ _ _ _ hb]
  rfl

/-- From the parity of the whole group and the symbols that are known, the row of an erased symbol
computes that symbol. -/
theorem decodeConst_add_sum {blob : Bytes} {g e b : ℕ} {erased : List ℕ} (hnodup : erased.Nodup)
    (hlt : ∀ e ∈ erased, e < c.k.toNat) (he : e ∈ erased) (x : ℕ → Gf256)
    (hparity : ∀ r < erased.length, elementAt (extractParitySymbol blob g r c.parityCount.toNat
        c.symbolSize.toNat) b = ∑ j ∈ Finset.range c.k.toNat, ⟨vandermonde r j⟩ * x j) :
    c.decodeConst blob g erased e b + ∑ j ∈ (Finset.range c.k.toNat).filter (· ∉ erased),
      decodeCoeff erased e j * x j = x e := by
  have hconst : c.decodeConst blob g erased e b =
      ∑ j ∈ Finset.range c.k.toNat, decodeCoeff erased e j * x j := by
    have hdot : c.decodeConst blob g erased e b = GaussJordan.dot erased.length
        (decodeRow erased e) fun r => 0 + ∑ j ∈ Finset.range c.k.toNat, ⟨vandermonde r j⟩ * x j :=
      Finset.sum_congr rfl fun r hr =>
        congrArg _ ((hparity r (Finset.mem_range.mp hr)).trans (zero_add _).symm)
    rw [hdot, GaussJordan.dot_add_sum, GaussJordan.dot,
      Finset.sum_eq_zero fun r _ => mul_zero _, zero_add]
    rfl
  -- the symbols that are known cancel, and of the erased ones only `e` counts
  have herased : ∑ j ∈ (Finset.range c.k.toNat).filter (· ∈ erased),
      decodeCoeff erased e j * x j = x e := by
    rw [Finset.sum_eq_single_of_mem e (Finset.mem_filter.mpr ⟨Finset.mem_range.mpr (hlt e he), he⟩),
      decodeCoeff_erased c.k_le hnodup hlt he he, if_pos rfl, one_mul]
    intro j hj hne
    rw [decodeCoeff_erased c.k_le hnodup hlt he (Finset.mem_filter.mp hj).2, if_neg hne.symm,
      zero_mul]
  rw [hconst, ← Finset.sum_filter_add_sum_filter_not (Finset.range c.k.toNat) (· ∈ erased),
    herased, add_assoc]
  exact (congrArg _ (neg_add_cancel _)).trans (add_zero _)

/-- With no more erasures in a group than parity symbols the protected bytes are recovered. -/
theorem recover_of_le_parityCount {protectedBytes availableData : Bytes} {erasures : List Erasure}
    (henc : c.encodeRecovery protectedBytes = .ok value) (hnodup : erasures.Nodup)
    (hlen : availableData.length = protectedBytes.length) (hagree : ∀ i < protectedBytes.length,
      (∀ e ∈ erasures, e.index.toNat ≠ i / c.symbolSize.toNat) →
        availableData[i]? = protectedBytes[i]?)
    (hcount : ∀ group, (erasures.filter fun e => e.index.toNat / c.k.toNat = group).length ≤
      c.parityCount.toNat) :
    c.recover ⟨UInt64.ofNat protectedBytes.length, availableData, value, erasures⟩ =
      .ok protectedBytes := by
  obtain ⟨hmax, haccepts, hparity⟩ := accepts_of_encodeRecovery henc
  simp only [← length_erasedData c.k_pos] at hcount
  have haffine := recover_affine haccepts fun g _ => ⟨hcount g, nodup_erasedData hnodup _ g⟩
  rw [toNat_uint64_ofNat hmax] at haffine
  refine haffine.recovers_protected c.k_pos c.symbolSize_pos rfl hlen hagree
    fun g e he b hb hin => ?_
  have hfirst : g * c.k.toNat * c.symbolSize.toNat < protectedBytes.length :=
    lt_of_le_of_lt (Nat.mul_le_mul_right _ (Nat.le_add_right _ e)) (by omega)
  exact decodeConst_add_sum (nodup_erasedData hnodup _ g) (c.lt_of_mem_erasedData erasures g) he
    (c.protectedAt protectedBytes g b)
    fun r hr => hparity g hfirst r (hr.trans_le (hcount g)) b hb

/-- **Recovery is exact.** From a value the codec encoded and data that is right outside the
erased symbols, the protected bytes are recovered when no group has more erasures than parity
symbols; a group that has more is a failure. -/
theorem recover_exact (c : RsCodec) (protectedBytes value availableData : Bytes)
    (erasures : List Erasure) (henc : c.encodeRecovery protectedBytes = .ok value)
    (hdistinct : (erasures.map Erasure.index).Nodup)
    (hrange : ∀ e ∈ erasures, e.index.toNat / c.k.toNat * (c.k.toNat * c.symbolSize.toNat) <
      protectedBytes.length)
    (hlen : availableData.length = protectedBytes.length)
    (hagree : ∀ i < protectedBytes.length,
      (∀ e ∈ erasures, e.index.toNat ≠ i / c.symbolSize.toNat) →
        availableData[i]? = protectedBytes[i]?) :
    ((∀ group, (erasures.filter fun e => e.index.toNat / c.k.toNat = group).length ≤
        c.parityCount.toNat) →
      c.recover ⟨UInt64.ofNat protectedBytes.length, availableData, value, erasures⟩ =
        .ok protectedBytes) ∧
    ((∃ group, c.parityCount.toNat <
        (erasures.filter fun e => e.index.toNat / c.k.toNat = group).length) →
      ∃ message,
        c.recover ⟨UInt64.ofNat protectedBytes.length, availableData, value, erasures⟩ =
          .error (.ecFailed message)) := by
  have hnodup : erasures.Nodup := hdistinct.of_map _
  constructor
  · exact recover_of_le_parityCount henc hnodup hlen hagree
  · obtain ⟨hmax, haccepts, -⟩ := accepts_of_encodeRecovery henc
    simp only [← length_erasedData c.k_pos]
    rintro ⟨group, hmany⟩
    have hin := group_lt_of_erased c.k_pos hrange (Nat.zero_lt_of_lt hmany)
    obtain ⟨message, herror⟩ := recover_eq_error haccepts fun hfew =>
      hmany.not_ge (hfew group (by rwa [toNat_uint64_ofNat hmax])).1
    exact ⟨message, herror availableData⟩

/-- Two data symbols of one byte and one parity symbol. -/
def pairCodec : RsCodec :=
  ⟨2, 1, 1, XorCodec.uint8_two_ne_zero, by decide, by decide, by decide⟩

/-- The value of three bytes: a full group and a padded one. -/
def pairValue : Bytes :=
  [2, 1, 1, 0, 0, 0, 3, 0, 0, 0, 0, 0, 0, 0, 2, 0, 0, 0, 11, 9]

/-- One lost symbol in each group comes back; two in one group do not. -/
theorem recover_exact_pairCodec :
    pairCodec.recover ⟨UInt64.ofNat 3, [5, 0, 0], pairValue, [⟨1⟩, ⟨2⟩]⟩ = .ok [5, 7, 9] ∧
    ∃ message, pairCodec.recover ⟨UInt64.ofNat 3, [0, 0, 9], pairValue, [⟨0⟩, ⟨1⟩]⟩ =
      .error (.ecFailed message) := by
  have henc : pairCodec.encodeRecovery [5, 7, 9] = .ok pairValue := by decide +kernel
  constructor
  · refine (recover_exact pairCodec [5, 7, 9] pairValue [5, 0, 0] [⟨1⟩, ⟨2⟩] henc (by decide)
      (by decide) rfl (by decide)).1 fun group => ?_
    match group with
    | 0 => decide
    | 1 => decide
    | n + 2 => simp [pairCodec]
  · exact (recover_exact pairCodec [5, 7, 9] pairValue [0, 0, 9] [⟨0⟩, ⟨1⟩] henc (by decide)
      (by decide) rfl (by decide)).2 ⟨0, by decide⟩

end RsCodec

/-! ### Both codecs -/

variable {erasures : List Erasure}

/-- A recovery that always fails the same way depends on nothing. -/
theorem ignoresUnusable_of_error {recover : Bytes → Except FecError Bytes} {len size : ℕ}
    (h : ∃ e, ∀ available, recover available = .error e) :
    IgnoresUnusable recover len size erasures := by
  obtain ⟨e, he⟩ := h
  intro available available' _ _ _
  rw [he, he]

/-- Erasures an XOR value recovers. -/
def XorCodec.Recoverable (c : XorCodec) (value : Bytes) (len : UInt64) (erasures : List Erasure) :
    Prop :=
  c.Accepts value len ∧ c.OnePerStripe len erasures

/-- Erasures a Reed–Solomon value recovers. -/
def RsCodec.Recoverable (c : RsCodec) (value : Bytes) (len : UInt64) (erasures : List Erasure) :
    Prop :=
  c.Accepts value len ∧ c.FewPerGroup len erasures

theorem XorCodec.recover_of_not_recoverable {c : XorCodec} {value : Bytes} {len : UInt64}
    (h : ¬ c.Recoverable value len erasures) :
    ∃ e, ∀ availableData, c.recover ⟨len, availableData, value, erasures⟩ = .error e := by
  by_cases haccepts : c.Accepts value len
  · exact ⟨_, recover_eq_error haccepts fun hone => h ⟨haccepts, hone⟩⟩
  · obtain ⟨e, he⟩ := recover_of_not_accepts haccepts
    exact ⟨e, fun availableData => he availableData erasures⟩

theorem RsCodec.recover_of_not_recoverable {c : RsCodec} {value : Bytes} {len : UInt64}
    (h : ¬ c.Recoverable value len erasures) :
    ∃ e, ∀ availableData, c.recover ⟨len, availableData, value, erasures⟩ = .error e := by
  by_cases haccepts : c.Accepts value len
  · obtain ⟨message, herror⟩ := recover_eq_error haccepts fun hfew => h ⟨haccepts, hfew⟩
    exact ⟨_, herror⟩
  · obtain ⟨e, he⟩ := recover_of_not_accepts haccepts
    exact ⟨e, fun availableData => he availableData erasures⟩

/-- Recovery keeps the length, and writes into erased units only. -/
def Kept (len size : ℕ) (erasures : List Erasure) (available out : Bytes) : Prop :=
  out.length = len ∧ ∀ i < len, (∀ e ∈ erasures, e.index.toNat ≠ i / size) →
    elementAt out i = elementAt available i

/-- Recovery writes into erased units only, and reads nothing there. -/
structure Blockwise {ε : Type} (recover : Bytes → Except ε Bytes) (len size : ℕ)
    (erasures : List Erasure) : Prop where
  kept : ∀ {available out}, recover available = .ok out → Kept len size erasures available out
  congr : ∀ {available available'}, (∀ i, (∀ e ∈ erasures, e.index.toNat ≠ i / size) →
    elementAt available i = elementAt available' i) → recover available = recover available'

theorem Affine.blockwise {recover : Bytes → Except FecError Bytes} {len k size : ℕ}
    {const coeff : ℕ → ℕ → ℕ → Gf256} (h : Affine recover len k size erasures const coeff)
    (hk : 0 < k) (hsize : 0 < size) : Blockwise recover len size erasures := by
  refine ⟨fun {available out} hok => ?_, fun hsame => ?_⟩
  · obtain ⟨out', hout, hlength, hkept, -⟩ := h.recovers available
    obtain rfl : out' = out := Except.ok.inj (hout.symm.trans hok)
    exact ⟨hlength, hkept⟩
  · exact h.recover_congr hk hsize fun i hi _ => hsame i hi

theorem blockwise_of_error {ε : Type} {recover : Bytes → Except ε Bytes} {len size : ℕ}
    (h : ∃ e, ∀ available, recover available = .error e) : Blockwise recover len size erasures := by
  obtain ⟨e, he⟩ := h
  exact ⟨fun hok => (nomatch (he _).symm.trans hok), fun _ => (he _).trans (he _).symm⟩

theorem Blockwise.liftError {ε ε' : Type} {recover : Bytes → Except ε Bytes} {len size : ℕ}
    (h : Blockwise recover len size erasures) (f : ε → ε') :
    Blockwise (fun available => (recover available).liftError f) len size erasures :=
  ⟨fun hok => h.kept (Except.liftError_eq_ok_iff.mp hok), fun hsame => by rw [h.congr hsame]⟩

theorem XorCodec.blockwise (c : XorCodec) (value : Bytes) (len : UInt64) :
    Blockwise (fun available => c.recover ⟨len, available, value, erasures⟩) len.toNat c.blockSize
      erasures := by
  by_cases hrec : c.Recoverable value len erasures
  · exact (recover_affine hrec.1 hrec.2).blockwise c.stripeSize_pos c.blockSize_pos
  · exact blockwise_of_error (recover_of_not_recoverable hrec)

theorem RsCodec.blockwise (c : RsCodec) (value : Bytes) (len : UInt64) :
    Blockwise (fun available => c.recover ⟨len, available, value, erasures⟩) len.toNat
      c.symbolSize.toNat erasures := by
  by_cases hrec : c.Recoverable value len erasures
  · exact (recover_affine hrec.1 hrec.2).blockwise c.k_pos c.symbolSize_pos
  · exact blockwise_of_error (recover_of_not_recoverable hrec)

/-- **What reaches the result.** Bytes of erased units never do. Bytes past the protected length do
exactly if the erasures can be recovered and an erased unit has a unit behind it in its group that
reaches past the end: the padding of that unit is taken from the data. -/
theorem ignoresUnusable_recover_iff (xor : XorCodec) (rs : RsCodec) (value : Bytes) (len : UInt64)
    (erasures : List Erasure) :
    (IgnoresUnusable (fun availableData => xor.recover ⟨len, availableData, value, erasures⟩)
        len.toNat xor.blockSize erasures ↔
      ¬ (xor.Recoverable value len erasures ∧
        Leaks len.toNat xor.stripeSize.toNat xor.blockSize erasures)) ∧
    (IgnoresUnusable (fun availableData => rs.recover ⟨len, availableData, value, erasures⟩)
        len.toNat rs.symbolSize.toNat erasures ↔
      ¬ (rs.Recoverable value len erasures ∧
        Leaks len.toNat rs.k.toNat rs.symbolSize.toNat erasures)) := by
  constructor
  · by_cases h : xor.Recoverable value len erasures
    · rw [(XorCodec.recover_affine h.1 h.2).ignoresUnusable_iff xor.stripeSize_pos
        xor.blockSize_pos, and_iff_right h]
    · exact iff_of_true (ignoresUnusable_of_error (XorCodec.recover_of_not_recoverable h))
        fun habs => h habs.1
  · by_cases h : rs.Recoverable value len erasures
    · rw [(RsCodec.recover_affine h.1 h.2).ignoresUnusable_iff rs.k_pos rs.symbolSize_pos,
        and_iff_right h]
    · exact iff_of_true (ignoresUnusable_of_error (RsCodec.recover_of_not_recoverable h))
        fun habs => h habs.1

/-- Three protected bytes in symbols of one byte, the third erased: a fourth byte, which is not
protected, changes the third. -/
theorem not_ignoresUnusable_pairCodec :
    RsCodec.pairCodec.recover ⟨3, [5, 7, 0, 0], RsCodec.pairValue, [⟨2⟩]⟩ = .ok [5, 7, 9] ∧
      RsCodec.pairCodec.recover ⟨3, [5, 7, 0, 1], RsCodec.pairValue, [⟨2⟩]⟩ ≠ .ok [5, 7, 9] ∧
      ¬ IgnoresUnusable (fun availableData =>
        RsCodec.pairCodec.recover ⟨3, availableData, RsCodec.pairValue, [⟨2⟩]⟩) 3 1 [⟨2⟩] := by
  have hfirst : RsCodec.pairCodec.recover ⟨3, [5, 7, 0, 0], RsCodec.pairValue, [⟨2⟩]⟩ =
      .ok [5, 7, 9] := by decide +kernel
  have hsecond : RsCodec.pairCodec.recover ⟨3, [5, 7, 0, 1], RsCodec.pairValue, [⟨2⟩]⟩ ≠
      .ok [5, 7, 9] := by decide +kernel
  refine ⟨hfirst, hsecond, fun hignores => hsecond ?_⟩
  rw [← hfirst]
  exact (hignores [5, 7, 0, 0] [5, 7, 0, 1] (by decide) (by decide) (by decide)).symm

end Sar
