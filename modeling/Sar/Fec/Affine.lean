import Sar.Fec.Recover

/-!
# Recovery as an affine map

Both codecs cut the protected bytes into units, take `k` units to a group, and recover each erased
unit from the parity of its group and from the units of the group that are not erased. Byte by byte
that is an affine map: a byte of an erased unit is a constant, made of the parity, plus a
combination of the bytes at the same place in the other units (`Affine`).

The loops of the decoders are treated here for both at once (`foldlM_treated`). What recovery does
not depend on is then a question about coefficients: **`Affine.ignoresUnusable_iff`** says that
bytes which a caller may leave undefined reach the result exactly when such a byte shares its group
with an erased one (`Leaks`).
-/

namespace Sar

open RsCodec (erasedData mem_erasedData)
open List

variable {len k size groupCount : ℕ} {erasures : List Erasure} {available : Bytes}

/-! ### The loop over the groups -/

/-- The output after the groups before `group`: an erased unit of such a group holds the given
bytes, and all other units are as they are available. -/
structure Treated (k size groupCount : ℕ) (erasures : List Erasure) (available : Bytes)
    (value : ℕ → ℕ → ℕ → Gf256) (group : ℕ) (out : Bytes) : Prop where
  length_eq : out.length = groupCount * k * size
  erased : ∀ g < group, ∀ e ∈ erasedData k g erasures, ∀ b < size,
    elementAt out ((g * k + e) * size + b) = value g e b
  kept : ∀ i < groupCount * k * size,
    (group ≤ i / size / k ∨ ∀ e ∈ erasures, e.index.toNat ≠ i / size) →
      elementAt out i = elementAt available i

theorem treated_zero (value : ℕ → ℕ → ℕ → Gf256) :
    Treated k size groupCount erasures available value 0
      (paddedSlice available 0 (groupCount * k * size)) where
  length_eq := length_paddedSlice ..
  erased g hg := absurd hg (Nat.not_lt_zero g)
  kept i hi _ := by rw [elementAt_paddedSlice _ _ hi, Nat.zero_add]

/-- The unit and the group of a byte. -/
theorem div_unit (g : ℕ) {e b : ℕ} (he : e < k) (hb : b < size) :
    ((g * k + e) * size + b) / size = g * k + e ∧ (g * k + e) / k = g := by
  constructor
  · rw [Nat.mul_comm, Nat.mul_add_div (Nat.zero_lt_of_lt hb), Nat.div_eq_of_lt hb, Nat.add_zero]
  · rw [Nat.mul_comm, Nat.mul_add_div (Nat.zero_lt_of_lt he), Nat.div_eq_of_lt he, Nat.add_zero]

/-- A byte of the output, by its group, its unit in it and its place there. -/
theorem exists_group_unit {i : ℕ} (hi : i < groupCount * k * size) :
    ∃ g < groupCount, ∃ e < k, ∃ b < size, i = (g * k + e) * size + b ∧ i / size = g * k + e := by
  have hsize : 0 < size := Nat.pos_of_lt_mul_left hi
  have hunit : i / size < groupCount * k :=
    Nat.div_lt_of_lt_mul (Nat.mul_comm _ size ▸ hi)
  have hk : 0 < k := Nat.pos_of_lt_mul_left hunit
  have hgroup : i / size / k < groupCount := Nat.div_lt_of_lt_mul (Nat.mul_comm _ k ▸ hunit)
  have hsplit : i / size = i / size / k * k + i / size % k := by
    rw [Nat.mul_comm]
    exact (Nat.div_add_mod _ _).symm
  refine ⟨i / size / k, hgroup, i / size % k, Nat.mod_lt _ hk, i % size, Nat.mod_lt _ hsize, ?_,
    hsplit⟩
  rw [← hsplit, Nat.mul_comm]
  exact (Nat.div_add_mod _ _).symm

/-- The pieces that a group writes. -/
def unitPieces (k size : ℕ) (erased : List ℕ) (symbol : ℕ → Bytes) (g : ℕ) :
    List (Scatter.Piece UInt8) :=
  erased.map fun e => ((g * k + e) * size, symbol e)

section Pieces

variable {erased : List ℕ} {symbol : ℕ → Bytes} {g : ℕ} {out : Bytes}

theorem inside_unitPieces (hg : g < groupCount) (hlt : ∀ e ∈ erased, e < k)
    (hlen : ∀ e ∈ erased, (symbol e).length = size) (hout : out.length = groupCount * k * size) :
    ∀ p ∈ unitPieces k size erased symbol g, Scatter.Inside out.length p := by
  intro p hp
  obtain ⟨e, he, rfl⟩ := mem_map.mp hp
  rw [Scatter.Inside, hlen e he, hout]
  exact RsCodec.symbol_inside size hg (hlt e he)

/-- Different units lie apart. -/
theorem pairwise_apart_unitPieces (hnodup : erased.Nodup)
    (hlen : ∀ e ∈ erased, (symbol e).length = size) :
    (unitPieces k size erased symbol g).Pairwise Scatter.Apart := by
  have happart : ∀ a b : ℕ, a < b → (g * k + a) * size + size ≤ (g * k + b) * size := by
    intro a b hab
    calc (g * k + a) * size + size = (g * k + a + 1) * size := by ring
      _ ≤ (g * k + b) * size := Nat.mul_le_mul_right size (by omega)
  refine pairwise_map.mpr (hnodup.pairwise_of_forall_ne fun a ha b hb hab => ?_)
  rw [Scatter.Apart, hlen a ha, hlen b hb]
  rcases Nat.lt_or_gt_of_ne hab with hlt | hlt
  · exact Or.inl (happart a b hlt)
  · exact Or.inr (happart b a hlt)

end Pieces

/-- A place in a unit, told by the division of the position. -/
theorem covers_unit_iff {i u : ℕ} (hsize : 0 < size) :
    u * size ≤ i ∧ i < u * size + size ↔ i / size = u := by
  rw [Nat.div_eq_iff hsize]
  omega

/-- One group's writes. -/
theorem Treated.step {value : ℕ → ℕ → ℕ → Gf256} {g : ℕ} {out : Bytes} {symbol : ℕ → Bytes}
    (h : Treated k size groupCount erasures available value g out) (hg : g < groupCount)
    (hnodup : (erasedData k g erasures).Nodup)
    (hlen : ∀ e ∈ erasedData k g erasures, (symbol e).length = size)
    (hvalue : ∀ e ∈ erasedData k g erasures, ∀ b < size, elementAt (symbol e) b = value g e b) :
    Treated k size groupCount erasures available value (g + 1)
      (Scatter.scatter (unitPieces k size (erasedData k g erasures) symbol g) out) := by
  have hlt : ∀ e ∈ erasedData k g erasures, e < k := fun e he => (mem_erasedData.mp he).1
  have hinside := inside_unitPieces hg hlt hlen h.length_eq
  -- outside the group's units nothing changes
  have houtside : ∀ i, 0 < size → (∀ e ∈ erasedData k g erasures, i / size ≠ g * k + e) →
      elementAt (Scatter.scatter (unitPieces k size (erasedData k g erasures) symbol g) out) i =
        elementAt out i := by
    intro i hsize hi
    rw [elementAt, elementAt, getD_eq_getElem?_getD, getD_eq_getElem?_getD,
      Scatter.getElem?_scatter_of_not_covers hinside]
    intro p hp hcovers
    obtain ⟨e, he, rfl⟩ := mem_map.mp hp
    rw [Scatter.Covers, hlen e he, covers_unit_iff hsize] at hcovers
    exact hi e he hcovers
  refine ⟨(Scatter.length_scatter hinside).trans h.length_eq, ?_, ?_⟩
  · intro g' hg' e he b hb
    have hunit := div_unit g' (mem_erasedData.mp he).1 hb
    rcases Nat.lt_succ_iff_lt_or_eq.mp hg' with hearlier | rfl
    · -- a unit of an earlier group
      rw [houtside _ (Nat.zero_lt_of_lt hb), h.erased g' hearlier e he b hb]
      intro e' he' habs
      have hsame : g' = g := by
        rw [← hunit.2, ← hunit.1, habs, (div_unit g (hlt e' he') hb).2]
      omega
    · have hcovers : Scatter.Covers ((g' * k + e) * size, symbol e) ((g' * k + e) * size + b) := by
        rw [Scatter.Covers, hlen e he]
        exact ⟨by omega, by omega⟩
      rw [elementAt, getD_eq_getElem?_getD, Scatter.getElem?_scatter_of_covers hinside
        (pairwise_apart_unitPieces hnodup hlen) (mem_map.mpr ⟨e, he, rfl⟩) hcovers,
        Nat.add_sub_cancel_left, ← hvalue e he b hb, elementAt, getD_eq_getElem?_getD]
  · intro i hi hcases
    have hsize : 0 < size := Nat.pos_of_lt_mul_left hi
    rw [houtside i hsize, h.kept i hi (hcases.imp_left fun hle => by omega)]
    intro e he habs
    rcases hcases with hle | hnone
    · rw [habs, (div_unit g (hlt e he) hsize).2] at hle
      omega
    · obtain ⟨-, erasure, hmem, hindex⟩ := mem_erasedData.mp he
      exact hnone erasure hmem (hindex.trans habs.symm)

/-- **The loop.** If every group turns into writes of whole units, the output holds what they
write. -/
theorem foldlM_treated {ε : Type} {turn : Bytes → ℕ → Except ε Bytes}
    {value : ℕ → ℕ → ℕ → Gf256} (hnodup : ∀ g < groupCount, (erasedData k g erasures).Nodup)
    (hturn : ∀ g < groupCount, ∃ symbol : ℕ → Bytes,
      (∀ out, out.length = groupCount * k * size → turn out g =
        .ok (Scatter.scatter (unitPieces k size (erasedData k g erasures) symbol g) out)) ∧
      (∀ e ∈ erasedData k g erasures, (symbol e).length = size) ∧
      ∀ e ∈ erasedData k g erasures, ∀ b < size, elementAt (symbol e) b = value g e b) :
    ∃ out, (List.range groupCount).foldlM turn
        (paddedSlice available 0 (groupCount * k * size)) = .ok out ∧
      Treated k size groupCount erasures available value groupCount out := by
  have hupto : ∀ n ≤ groupCount, ∃ out, (List.range n).foldlM turn
      (paddedSlice available 0 (groupCount * k * size)) = .ok out ∧
      Treated k size groupCount erasures available value n out := by
    intro n
    induction n with
    | zero => exact fun _ => ⟨_, rfl, treated_zero value⟩
    | succ n ih =>
      intro hn
      obtain ⟨out, hfold, hout⟩ := ih (by omega)
      obtain ⟨symbol, heq, hlen, hvalue⟩ := hturn n hn
      refine ⟨_, ?_, hout.step hn (hnodup n hn) hlen hvalue⟩
      rw [range_succ, foldlM_append, hfold, Except.ok_bind, foldlM_cons, heq out hout.length_eq]
      rfl
  exact hupto groupCount le_rfl

/-! ### Affine recovery -/

/-- The result is affine in the bytes that are available: a byte of an erased unit is a constant
plus a combination of the bytes at its place in the other units of the group, each of which counts;
every other byte is the available one. -/
structure Affine (recover : Bytes → Except FecError Bytes) (len k size : ℕ)
    (erasures : List Erasure) (const : ℕ → ℕ → ℕ → Gf256) (coeff : ℕ → ℕ → ℕ → Gf256) : Prop where
  coeff_ne : ∀ g, g * k * size < len → ∀ e ∈ erasedData k g erasures, ∀ j < k,
    j ∉ erasedData k g erasures → coeff g e j ≠ 0
  recovers : ∀ available, ∃ out, recover available = .ok out ∧ out.length = len ∧
    (∀ i < len, (∀ e ∈ erasures, e.index.toNat ≠ i / size) →
      elementAt out i = elementAt available i) ∧
    ∀ g, ∀ e ∈ erasedData k g erasures, ∀ b < size, (g * k + e) * size + b < len →
      elementAt out ((g * k + e) * size + b) = const g e b +
        ∑ j ∈ (Finset.range k).filter (· ∉ erasedData k g erasures),
          coeff g e j * elementAt available ((g * k + j) * size + b)

/-- The first bytes of the output of a whole loop. -/
theorem Treated.take {value : ℕ → ℕ → ℕ → Gf256} {out : Bytes}
    (h : Treated k size groupCount erasures available value groupCount out)
    (hlen : len ≤ groupCount * k * size) :
    (out.take len).length = len ∧
      (∀ i < len, (∀ e ∈ erasures, e.index.toNat ≠ i / size) →
        elementAt (out.take len) i = elementAt available i) ∧
      ∀ g, ∀ e ∈ erasedData k g erasures, ∀ b < size, (g * k + e) * size + b < len →
        elementAt (out.take len) ((g * k + e) * size + b) = value g e b := by
  have htake : ∀ i < len, elementAt (out.take len) i = elementAt out i := by
    intro i hi
    rw [elementAt, elementAt, getD_eq_getElem?_getD, getD_eq_getElem?_getD,
      List.getElem?_take_of_lt hi]
  refine ⟨?_, ?_, ?_⟩
  · rw [length_take, h.length_eq]
    omega
  · intro i hi hnone
    rw [htake i hi, h.kept i (by omega) (Or.inr hnone)]
  · intro g e he b hb hlt
    obtain ⟨g', hg', e', he', b', hb', heq, hdiv⟩ := exists_group_unit (hlt.trans_le hlen)
    have hunit := div_unit g (mem_erasedData.mp he).1 hb
    have hgroup : g = g' := by
      rw [← hunit.2, ← hunit.1, hdiv, (div_unit g' he' hb').2]
    rw [htake _ hlt, h.erased g (hgroup ▸ hg') e he b hb]

/-! ### What recovery does not depend on -/

/-- Bytes of erased units and bytes past the protected length do not influence the result. -/
def IgnoresUnusable (recover : Bytes → Except FecError Bytes) (len size : ℕ)
    (erasures : List Erasure) : Prop :=
  ∀ available available' : Bytes, len ≤ available.length → len ≤ available'.length →
    (∀ i < len, (∀ e ∈ erasures, e.index.toNat ≠ i / size) → available[i]? = available'[i]?) →
    recover available = recover available'

/-- A group has an erased unit with protected bytes and, behind it, a unit that is not erased and
has bytes past the protected length. -/
def Leaks (len k size : ℕ) (erasures : List Erasure) : Prop :=
  ∃ g, ∃ e ∈ erasedData k g erasures, ∃ j < k, j ∉ erasedData k g erasures ∧ e < j ∧
    (g * k + e) * size < len ∧ len < (g * k + j + 1) * size

/-- Such units have a place where the one byte is protected and the other is not. -/
theorem leaks_iff :
    Leaks len k size erasures ↔
      ∃ g, ∃ e ∈ erasedData k g erasures, ∃ j < k, j ∉ erasedData k g erasures ∧
        ∃ b < size, (g * k + e) * size + b < len ∧ len ≤ (g * k + j) * size + b := by
  refine exists_congr fun g => exists_congr fun e => and_congr_right fun _ => exists_congr fun j =>
    and_congr_right fun _ => and_congr_right fun _ => ?_
  have hsucc : (g * k + j + 1) * size = (g * k + j) * size + size := by ring
  constructor
  · rintro ⟨hej, he, hj⟩
    have hstep : (g * k + e) * size + size ≤ (g * k + j) * size := by
      calc (g * k + e) * size + size = (g * k + e + 1) * size := by ring
        _ ≤ (g * k + j) * size := Nat.mul_le_mul_right size (by omega)
    rw [hsucc] at hj
    have hsize : 0 < size := by
      refine Nat.pos_of_ne_zero fun hzero => ?_
      rw [hzero, Nat.mul_zero] at hj
      exact Nat.not_lt_zero _ hj
    exact ⟨len - (g * k + j) * size, by omega, by omega, by omega⟩
  · rintro ⟨b, hb, he, hj⟩
    refine ⟨?_, by omega, by omega⟩
    by_contra hle
    have hmono : (g * k + j) * size ≤ (g * k + e) * size :=
      Nat.mul_le_mul_right size (by omega)
    omega

/-- A byte of an erased unit. -/
theorem exists_erasedData {i : ℕ} (hk : 0 < k) (hsize : 0 < size)
    (h : ∃ e ∈ erasures, e.index.toNat = i / size) :
    ∃ g, ∃ e ∈ erasedData k g erasures, ∃ b < size, i = (g * k + e) * size + b := by
  obtain ⟨erasure, hmem, hindex⟩ := h
  have hunit : i / size / k * k + i / size % k = i / size := by
    rw [Nat.mul_comm]
    exact Nat.div_add_mod _ _
  refine ⟨i / size / k, i / size % k, ?_, i % size, Nat.mod_lt _ hsize, ?_⟩
  · exact mem_erasedData.mpr ⟨Nat.mod_lt _ hk, erasure, hmem, hindex.trans hunit.symm⟩
  · rw [hunit, Nat.mul_comm]
    exact (Nat.div_add_mod _ _).symm

variable {recover : Bytes → Except FecError Bytes}

variable {const coeff : ℕ → ℕ → ℕ → Gf256}

/-- The result depends on the bytes outside the erased units only, and on those past the protected
length only if units leak. -/
theorem Affine.recover_congr (hk : 0 < k) (hsize : 0 < size)
    (h : Affine recover len k size erasures const coeff) {available available' : Bytes}
    (hsame : ∀ i, (∀ e ∈ erasures, e.index.toNat ≠ i / size) →
      i < len ∨ Leaks len k size erasures → elementAt available i = elementAt available' i) :
    recover available = recover available' := by
  obtain ⟨out, hout, hlength, hkept, hvalue⟩ := h.recovers available
  obtain ⟨out', hout', hlength', hkept', hvalue'⟩ := h.recovers available'
  rw [hout, hout']
  refine congrArg Except.ok (eq_of_elementAt (hlength.trans hlength'.symm) fun i hi => ?_)
  rw [hlength'] at hi
  by_cases herased : ∃ e ∈ erasures, e.index.toNat = i / size
  · obtain ⟨g, e, he, b, hb, rfl⟩ := exists_erasedData hk hsize herased
    rw [hvalue g e he b hb hi, hvalue' g e he b hb hi]
    refine congrArg (const g e b + ·) (Finset.sum_congr rfl fun j hj => ?_)
    obtain ⟨hjk, hnot⟩ := Finset.mem_filter.mp hj
    have hjk' : j < k := Finset.mem_range.mp hjk
    rw [hsame]
    · intro erasure hmem habs
      rw [(div_unit g hjk' hb).1] at habs
      exact hnot (mem_erasedData.mpr ⟨hjk', erasure, hmem, habs⟩)
    · by_cases hpast : (g * k + j) * size + b < len
      · exact Or.inl hpast
      · exact Or.inr (leaks_iff.mpr ⟨g, e, he, j, hjk', hnot, b, hb, hi, not_lt.mp hpast⟩)
  · push Not at herased
    rw [hkept i hi herased, hkept' i hi herased, hsame i herased (Or.inl hi)]

/-- **What reaches the result.** An affine recovery ignores what it may ignore exactly if no such
byte shares its place with an erased one. -/
theorem Affine.ignoresUnusable_iff (hk : 0 < k) (hsize : 0 < size)
    (h : Affine recover len k size erasures const coeff) :
    IgnoresUnusable recover len size erasures ↔ ¬ Leaks len k size erasures := by
  constructor
  · intro hignores hleaks
    obtain ⟨g, e, he, j, hj, hnot, b, hb, hin, hpast⟩ := leaks_iff.mp hleaks
    -- two strings of zeros that differ in one byte past the end
    set pos := (g * k + j) * size + b with hpos
    have hset : ∀ i, elementAt ((List.replicate (pos + 1) 0).set pos 1) i =
        if i = pos then 1 else 0 := by
      intro i
      rw [elementAt, getD_eq_getElem?_getD, List.getElem?_set, length_replicate]
      by_cases hi : i = pos
      · rw [if_pos hi.symm, if_pos (by omega), if_pos hi]
        rfl
      · rw [if_neg (Ne.symm hi), if_neg hi, List.getElem?_replicate]
        split <;> rfl
    have hsame := hignores (List.replicate (pos + 1) 0) ((List.replicate (pos + 1) 0).set pos 1)
      (by rw [length_replicate]; omega)
      (by rw [length_set, length_replicate]; omega)
      (fun i hi _ => by rw [List.getElem?_set_ne (by omega)])
    obtain ⟨out, hout, -, -, hvalue⟩ := h.recovers (List.replicate (pos + 1) 0)
    obtain ⟨out', hout', -, -, hvalue'⟩ := h.recovers ((List.replicate (pos + 1) 0).set pos 1)
    have heq : out = out' := Except.ok.inj (hout.symm.trans (hsame.trans hout'))
    have hbytes := (hvalue g e he b hb hin).symm.trans ((heq ▸ hvalue' g e he b hb hin))
    rw [add_right_inj] at hbytes
    -- the sums differ by the coefficient of that byte
    have hzero : ∑ j' ∈ (Finset.range k).filter (· ∉ erasedData k g erasures),
        coeff g e j' * elementAt (List.replicate (pos + 1) 0) ((g * k + j') * size + b) = 0 :=
      Finset.sum_eq_zero fun j' _ => by rw [elementAt_replicate_zero, mul_zero]
    have hone : ∑ j' ∈ (Finset.range k).filter (· ∉ erasedData k g erasures),
        coeff g e j' * elementAt ((List.replicate (pos + 1) 0).set pos 1)
          ((g * k + j') * size + b) = coeff g e j := by
      rw [Finset.sum_eq_single_of_mem j
        (Finset.mem_filter.mpr ⟨Finset.mem_range.mpr hj, hnot⟩), hset, if_pos rfl, mul_one]
      intro j' hj' hne
      rw [hset, if_neg, mul_zero]
      intro habs
      have hmul : (g * k + j') * size = (g * k + j) * size := by omega
      have := Nat.eq_of_mul_eq_mul_right (Nat.zero_lt_of_lt hb) hmul
      omega
    have hsmall : g * k * size < len := by
      have : g * k * size ≤ (g * k + e) * size := Nat.mul_le_mul_right size (by omega)
      omega
    exact h.coeff_ne g hsmall e he j hj hnot (hone.symm.trans (hbytes.symm.trans hzero))
  · intro hnone available available' hlen hlen' hagree
    refine h.recover_congr hk hsize fun i hnot hcases => ?_
    have hi : i < len := hcases.resolve_right hnone
    rw [elementAt, elementAt, getD_eq_getElem?_getD, getD_eq_getElem?_getD, hagree i hi hnot]

/-- **Exactness.** If the affine map takes the protected bytes to themselves, they are recovered
from any data of their length that agrees with them outside the erased units. -/
theorem Affine.recovers_protected (hk : 0 < k) (hsize : 0 < size)
    (h : Affine recover len k size erasures const coeff) {available protectedBytes : Bytes}
    (hlen : protectedBytes.length = len) (hlength : available.length = protectedBytes.length)
    (hagree : ∀ i < protectedBytes.length, (∀ e ∈ erasures, e.index.toNat ≠ i / size) →
      available[i]? = protectedBytes[i]?)
    (hfixed : ∀ g, ∀ e ∈ erasedData k g erasures, ∀ b < size, (g * k + e) * size + b < len →
      const g e b + ∑ j ∈ (Finset.range k).filter (· ∉ erasedData k g erasures),
          coeff g e j * elementAt protectedBytes ((g * k + j) * size + b) =
        elementAt protectedBytes ((g * k + e) * size + b)) :
    recover available = .ok protectedBytes := by
  have hcongr : recover available = recover protectedBytes := by
    refine h.recover_congr hk hsize fun i hnot _ => ?_
    rw [elementAt, elementAt, getD_eq_getElem?_getD, getD_eq_getElem?_getD]
    by_cases hi : i < protectedBytes.length
    · rw [hagree i hi hnot]
    · rw [List.getElem?_eq_none (not_lt.mp hi), List.getElem?_eq_none (by omega)]
  obtain ⟨out, hout, houtlen, hkept, hvalue⟩ := h.recovers protectedBytes
  rw [hcongr, hout]
  refine congrArg Except.ok (eq_of_elementAt (houtlen.trans hlen.symm) fun i hi => ?_)
  rw [hlen] at hi
  by_cases herased : ∃ e ∈ erasures, e.index.toNat = i / size
  · obtain ⟨g, e, he, b, hb, rfl⟩ := exists_erasedData hk hsize herased
    rw [hvalue g e he b hb hi, hfixed g e he b hb hi]
  · push Not at herased
    exact hkept i hi herased

end Sar
