import Sar.Fec.Galois
import Sar.ForMathlib.GaussJordan
import Sar.ForMathlib.Scatter

/-!
# Reed–Solomon erasure recovery

`RsCodec.recover`: group by group, the erased data symbols are the solution of a square system over
the field, with a row for each of the first parity symbols and a column for each erasure. `invert`
computes the inverse of every matrix that has one (`invert_eq`).

The systems are solvable because their columns are successive powers of different powers of the
primitive element (`eq_zero_of_solves_decodeMatrix`). The symbols are vectors over the field, so the
sides of a system are sums (`elementAt_decodeRhs_eq`, `elementAt_matVecMul`).
-/

namespace Sar

open Except (rejectIf)
open List
open GaussJordan (IsGrid Solves)

/-- `Erasure`: the position of a lost data symbol. -/
@[ext]
structure Erasure where
  index : UInt64

/-- `FecRecoverInput`. -/
structure FecRecoverInput where
  originalProtectedLen : UInt64
  availableData : Bytes
  fecValueData : Bytes
  erasures : List Erasure

/-- `invert`. -/
def invert (m : List (List Gf256)) : Except FecError (List (List Gf256)) :=
  match GaussJordan.invert m with
  | some inv => .ok inv
  | none => .error (.ecFailed "RS decode: singular matrix (too many erasures)")

/-- **Matrix inversion over the field**: `invert` fails exactly on the singular matrices, and
otherwise returns the inverse matrix. -/
theorem invert_eq {n : ℕ} (A : Matrix (Fin n) (Fin n) Gf256) :
    invert (GaussJordan.rowsOf A) =
      if A.det = 0 then .error (.ecFailed "RS decode: singular matrix (too many erasures)")
      else .ok (GaussJordan.rowsOf A⁻¹) := by
  rw [invert, GaussJordan.invert_rowsOf]
  split_ifs <;> rfl

/-- `mat_vec_mul`: each symbol is a byte vector. -/
def matVecMul (mat : List (List Gf256)) (vecs : List Bytes) (symbolSize : ℕ) : List Bytes :=
  mat.map fun coeffs =>
    (coeffs.zip vecs).foldl (fun dst cs => xorInto dst (cs.2.map (gfMul cs.1.byte)))
      (List.replicate symbolSize 0)

namespace RsCodec

/-- `extract_symbol`. -/
def extractSymbol (data : Bytes) (group symInGroup k symbolSize : ℕ) : Bytes :=
  paddedSlice data ((group * k + symInGroup) * symbolSize) symbolSize

/-- `extract_parity_symbol`. -/
def extractParitySymbol (parityBlob : Bytes) (group parityIdx parityCount symbolSize : ℕ) : Bytes :=
  let start := (group * parityCount + parityIdx) * symbolSize
  if start + symbolSize ≤ parityBlob.length then (parityBlob.drop start).take symbolSize
  else List.replicate symbolSize 0

/-- The erased data symbols of a group, by their index in it. -/
def erasedData (k group : ℕ) (erasures : List Erasure) : List ℕ :=
  erasures.filterMap fun e =>
    if group * k ≤ e.index.toNat ∧ e.index.toNat < (group + 1) * k then
      some (e.index.toNat - group * k)
    else none

/-- The sub-matrix of the erased columns. -/
def decodeMatrix (erased : List ℕ) : List (List Gf256) :=
  (List.range erased.length).map fun pr => erased.map fun ec => ⟨vandermonde pr ec⟩

/-- The right side of one equation: the parity symbol without the known data symbols. -/
def decodeRhs (c : RsCodec) (parityBlob availableData : Bytes) (group : ℕ) (erased : List ℕ)
    (pr : ℕ) : Bytes :=
  let size := c.symbolSize.toNat
  (List.range c.k.toNat).foldl
    (fun acc i =>
      if i ∈ erased then acc
      else xorInto acc ((extractSymbol availableData group i c.k.toNat size).map
        (gfMul (vandermonde pr i))))
    (extractParitySymbol parityBlob group pr c.parityCount.toNat size)

/-- Write the recovered symbols of a group into the output. -/
def writeRecovered (c : RsCodec) (group : ℕ) (out : Bytes) (recovered : List (ℕ × Bytes)) : Bytes :=
  recovered.foldl
    (fun out es =>
      let start := (group * c.k.toNat + es.1) * c.symbolSize.toNat
      if start + c.symbolSize.toNat ≤ out.length then Scatter.overwrite out start es.2 else out)
    out

/-- One turn of the loop over the groups of `recover`. -/
def recoverGroup (c : RsCodec) (parityBlob availableData : Bytes) (erasures : List Erasure)
    (out : Bytes) (group : ℕ) : Except FecError Bytes :=
  let erased := erasedData c.k.toNat group erasures
  if erased = [] then .ok out
  else do
    rejectIf (erased.length > c.parityCount.toNat)
      (.ecFailed "RS: erased data symbols exceed parity count for this group")
    let rhs := (List.range erased.length).map
      (c.decodeRhs parityBlob availableData group erased)
    let inv ← invert (decodeMatrix erased)
    let recovered := matVecMul inv rhs c.symbolSize.toNat
    pure (c.writeRecovered group out (erased.zip recovered))

/-- `recover` of the Reed–Solomon codec. -/
def recover (c : RsCodec) (input : FecRecoverInput) : Except FecError Bytes := do
  let header ← parseHeader input.fecValueData
  c.validate input.fecValueData
  rejectIf (header.originalLen ≠ input.originalProtectedLen)
    (.invalidLength "RS recovery: original_protected_len mismatch")
  let parityLen ← parityDataLen header.groupCount c.parityCount c.symbolSize
  let parityBlob := (input.fecValueData.drop 18).take parityLen
  let total := header.groupCount.toNat * c.k.toNat * c.symbolSize.toNat
  rejectIf (total > u64Max) (.overflow "RS output length overflow")
  let out ← (List.range header.groupCount.toNat).foldlM
    (c.recoverGroup parityBlob input.availableData input.erasures)
    (paddedSlice input.availableData 0 total)
  pure (out.take header.originalLen.toNat)

end RsCodec

/-! ### Symbols as vectors over the field -/

/-- The byte at a position, as an element of the field. -/
def elementAt (bs : Bytes) (i : ℕ) : Gf256 := ⟨bs.getD i 0⟩

theorem elementAt_replicate_zero (n i : ℕ) : elementAt (List.replicate n 0) i = 0 := by
  rw [elementAt, getD_eq_getElem?_getD, List.getElem?_replicate]
  split <;> rfl

theorem elementAt_xorInto {dst src : Bytes} (hlen : dst.length = src.length) (i : ℕ) :
    elementAt (xorInto dst src) i = elementAt dst i + elementAt src i := by
  refine Gf256.ext ?_
  simp only [elementAt, xorInto, Gf256.byte_add, getD_eq_getElem?_getD, List.getElem?_zipWith]
  by_cases hi : i < dst.length
  · rw [List.getElem?_eq_getElem hi, List.getElem?_eq_getElem (hlen ▸ hi)]
    rfl
  · rw [List.getElem?_eq_none (not_lt.mp hi), List.getElem?_eq_none (hlen ▸ not_lt.mp hi)]
    rfl

theorem elementAt_map_gfMul (v : UInt8) (bs : Bytes) (i : ℕ) :
    elementAt (bs.map (gfMul v)) i = ⟨v⟩ * elementAt bs i := by
  refine Gf256.ext ?_
  simp only [elementAt, Gf256.byte_mul, getD_eq_getElem?_getD, List.getElem?_map]
  cases bs[i]? with
  | none => exact (congrArg Gf256.byte (mul_zero (⟨v⟩ : Gf256))).symm
  | some x => rfl

/-- Accumulating blocks adds them up. -/
theorem elementAt_foldl_xorInto {ι : Type} {n : ℕ} (block : ι → Bytes) (l : List ι) (acc : Bytes)
    (hacc : acc.length = n) (hblock : ∀ i ∈ l, (block i).length = n) (b : ℕ) :
    elementAt (l.foldl (fun acc i => xorInto acc (block i)) acc) b =
      elementAt acc b + (l.map fun i => elementAt (block i) b).sum := by
  induction l generalizing acc with
  | nil => rw [foldl_nil, map_nil, sum_nil, add_zero]
  | cons i l ih =>
    have hi : (block i).length = n := hblock i mem_cons_self
    rw [foldl_cons, ih _ (by simp [xorInto, hacc, hi]) fun j hj => hblock j (mem_cons_of_mem i hj),
      elementAt_xorInto (hacc.trans hi.symm), map_cons, sum_cons, add_assoc]

theorem elementAt_paddedSlice (data : Bytes) (start : ℕ) {len b : ℕ} (hb : b < len) :
    elementAt (paddedSlice data start len) b = elementAt data (start + b) := by
  refine Gf256.ext ?_
  simp only [elementAt, paddedSlice, getD_eq_getElem?_getD]
  by_cases hin : start + b < data.length
  · have hlt : b < ((data.drop start).take len).length := by
      rw [length_take, length_drop]
      omega
    rw [List.getElem?_append_left hlt, List.getElem?_take_of_lt hb, List.getElem?_drop]
  · have hle : ((data.drop start).take len).length ≤ b := by
      rw [length_take, length_drop]
      omega
    rw [List.getElem?_append_right hle, List.getElem?_eq_none (not_lt.mp hin),
      List.getElem?_replicate]
    split <;> rfl

/-- Two blocks of one length are the same if they are the same vector. -/
theorem eq_of_elementAt {xs ys : Bytes} (hlen : xs.length = ys.length)
    (h : ∀ b < ys.length, elementAt xs b = elementAt ys b) : xs = ys := by
  refine ext_getElem hlen fun b hx hy => ?_
  have hbyte := congrArg Gf256.byte (h b hy)
  simpa [elementAt, getD_eq_getElem?_getD, hx, hy] using hbyte

theorem sum_map_range (n : ℕ) (f : ℕ → Gf256) :
    ((List.range n).map f).sum = ∑ i ∈ Finset.range n, f i := by
  rw [← sum_toFinset _ nodup_range, toFinset_range]

/-! ### One group -/

namespace RsCodec

/-- A coefficient of the generator matrix is a power of a power of the primitive element. -/
theorem vandermonde_eq (r i : ℕ) : (⟨vandermonde r i⟩ : Gf256) = (Gf256.alpha ^ i) ^ (r + 1) := by
  refine Gf256.ext ?_
  have hmod : gfPow (((r + 1) * i) % 255) = (Gf256.alpha ^ ((r + 1) * i)).byte := by
    rw [← Gf256.byte_alpha_pow, Gf256.alpha_pow, Gf256.alpha_pow]
    exact congrArg Gf256.byte (Gf256.table.exp_mod_period _)
  rw [← pow_mul, Nat.mul_comm i, ← hmod, vandermonde]
  dsimp only
  split
  · next hzero => rw [hzero]; rfl
  · rfl

theorem length_extractSymbol (data : Bytes) (group i k size : ℕ) :
    (extractSymbol data group i k size).length = size := length_paddedSlice data _ size

theorem elementAt_extractSymbol (data : Bytes) (group i k : ℕ) {size b : ℕ} (hb : b < size) :
    elementAt (extractSymbol data group i k size) b =
      elementAt data ((group * k + i) * size + b) := elementAt_paddedSlice data _ hb

/-- A parity symbol is the combination of the data symbols its row prescribes. -/
theorem elementAt_paritySymbol (symbol : ℕ → Bytes) {k size : ℕ}
    (hsymbol : ∀ i, (symbol i).length = size) (r b : ℕ) :
    elementAt (paritySymbol ((List.range k).map symbol) size r) b =
      ∑ i ∈ Finset.range k, ⟨vandermonde r i⟩ * elementAt (symbol i) b := by
  have hzip : ((List.range k).map symbol).zipIdx = (List.range k).map fun i => (symbol i, i) := by
    refine ext_getElem (by simp) fun i h1 h2 => ?_
    simp
  rw [paritySymbol, hzip, foldl_map,
    elementAt_foldl_xorInto _ _ _ (length_replicate ..) (fun i _ => by simp [hsymbol]),
    elementAt_replicate_zero, zero_add, sum_map_range]
  exact Finset.sum_congr rfl fun i _ => elementAt_map_gfMul _ _ b

/-- A range, cut at one of its elements. -/
theorem range_eq_append_cons {m i : ℕ} (hi : i < m) :
    List.range m = List.range i ++ i :: List.range' (i + 1) (m - i - 1) := by
  have hcons : i :: List.range' (i + 1) (m - i - 1) = List.range' i (m - i) := by
    rw [show m - i = m - i - 1 + 1 by omega, List.range'_succ]
    rfl
  have happend : List.range' 0 i ++ List.range' (0 + i) (m - i) = List.range' 0 (i + (m - i)) :=
    List.range'_append_1
  rw [Nat.zero_add, Nat.add_sub_cancel' hi.le] at happend
  rw [hcons, range_eq_range', range_eq_range', happend]

/-- A block of a concatenation of blocks of one length. -/
theorem take_drop_flatMap_range {n m i : ℕ} (block : ℕ → Bytes) (hblock : ∀ i, (block i).length = n)
    (hi : i < m) : (((List.range m).flatMap block).drop (i * n)).take n = block i := by
  rw [range_eq_append_cons hi, flatMap_append, flatMap_cons,
    drop_left' (length_flatMap_range i block hblock), take_left' (hblock i)]

/-- The parity blob of an encoded value. -/
def parityBlob (c : RsCodec) (protectedBytes : Bytes) (groupCount : ℕ) : Bytes :=
  (List.range groupCount).flatMap (c.groupParity protectedBytes)

section Group

variable (c : RsCodec) (protectedBytes availableData : Bytes) {groupCount group : ℕ}

theorem length_extractParitySymbol (blob : Bytes) (group r count size : ℕ) :
    (extractParitySymbol blob group r count size).length = size := by
  rw [extractParitySymbol]
  split
  · rw [length_take, length_drop]
    omega
  · rw [length_replicate]

/-- The loop over the data symbols skips the erased ones. -/
theorem decodeRhs_eq_foldl_filter (blob : Bytes) (group : ℕ) (erased : List ℕ) (r : ℕ) :
    c.decodeRhs blob availableData group erased r =
      ((List.range c.k.toNat).filter (· ∉ erased)).foldl
        (fun acc i => xorInto acc ((extractSymbol availableData group i c.k.toNat
          c.symbolSize.toNat).map (gfMul (vandermonde r i))))
        (extractParitySymbol blob group r c.parityCount.toNat c.symbolSize.toNat) := by
  rw [decodeRhs, foldl_filter]
  refine foldl_ext _ _ _ fun acc i _ => ?_
  by_cases hi : i ∈ erased <;> simp [hi]

theorem length_decodeRhs (blob : Bytes) (group : ℕ) (erased : List ℕ) (r : ℕ) :
    (c.decodeRhs blob availableData group erased r).length = c.symbolSize.toNat := by
  rw [decodeRhs_eq_foldl_filter]
  exact length_foldl_xorInto _ _ _ (length_extractParitySymbol ..) fun i _ => by
    rw [length_map, length_extractSymbol]

/-- A parity symbol of the blob is the one that was encoded. -/
theorem extractParitySymbol_parityBlob (hgroup : group < groupCount) {r : ℕ}
    (hr : r < c.parityCount.toNat) :
    extractParitySymbol (c.parityBlob protectedBytes groupCount) group r c.parityCount.toNat
        c.symbolSize.toNat =
      paritySymbol ((List.range c.k.toNat).map fun i =>
        extractSymbol protectedBytes group i c.k.toNat c.symbolSize.toNat)
        c.symbolSize.toNat r := by
  set size := c.symbolSize.toNat
  set count := c.parityCount.toNat
  set symbols := (List.range c.k.toNat).map fun i =>
    extractSymbol protectedBytes group i c.k.toNat size with hsymbols
  have hparity : ∀ r, (paritySymbol symbols size r).length = size := by
    intro r
    refine length_foldl_xorInto _ _ _ (by simp) ?_
    rintro ⟨symbol, i⟩ hmem
    have hsym := (mem_zipIdx hmem).2.2
    simp only [hsymbols, getElem_map] at hsym
    simp [hsym, length_extractSymbol]
  have hlen : (c.parityBlob protectedBytes groupCount).length = groupCount * (count * size) :=
    length_flatMap_range _ _ (c.length_groupParity protectedBytes)
  have hfits : (group * count + r) * size + size ≤ groupCount * (count * size) := by
    have hle : group * count + r + 1 ≤ groupCount * count := by
      have : (group + 1) * count ≤ groupCount * count := Nat.mul_le_mul_right count hgroup
      rw [Nat.succ_mul] at this
      omega
    calc (group * count + r) * size + size = (group * count + r + 1) * size := by ring
      _ ≤ groupCount * count * size := Nat.mul_le_mul_right size hle
      _ = groupCount * (count * size) := Nat.mul_assoc ..
  rw [extractParitySymbol, hlen, if_pos hfits]
  -- first the group, then the symbol in it
  have hgroupBlock : ((c.parityBlob protectedBytes groupCount).drop
      (group * (count * size))).take (count * size) = c.groupParity protectedBytes group :=
    take_drop_flatMap_range _ (c.length_groupParity protectedBytes) hgroup
  have hsymbolBlock : ((c.groupParity protectedBytes group).drop (r * size)).take size =
      paritySymbol symbols size r := take_drop_flatMap_range _ hparity hr
  rw [← hsymbolBlock, ← hgroupBlock, drop_take, take_take, drop_drop,
    show group * (count * size) + r * size = (group * count + r) * size by ring, Nat.min_eq_left]
  have : r * size + size ≤ count * size := by
    calc r * size + size = (r + 1) * size := by ring
      _ ≤ count * size := Nat.mul_le_mul_right size hr
  omega

/-- The byte the protected string has in a symbol of the group. -/
def protectedAt (c : RsCodec) (protectedBytes : Bytes) (group b i : ℕ) : Gf256 :=
  elementAt protectedBytes ((group * c.k.toNat + i) * c.symbolSize.toNat + b)

/-- A byte of a right side: that of the parity symbol and those of the known data symbols. -/
theorem elementAt_decodeRhs_eq (blob : Bytes) (group : ℕ) (erased : List ℕ) (r : ℕ) {b : ℕ}
    (hb : b < c.symbolSize.toNat) :
    elementAt (c.decodeRhs blob availableData group erased r) b =
      elementAt (extractParitySymbol blob group r c.parityCount.toNat c.symbolSize.toNat) b +
        ∑ i ∈ (Finset.range c.k.toNat).filter (· ∉ erased),
          ⟨vandermonde r i⟩ * c.protectedAt availableData group b i := by
  have hset : (Finset.range c.k.toNat).filter (· ∉ erased) =
      ((List.range c.k.toNat).filter (· ∉ erased)).toFinset := by
    ext i
    simp
  rw [decodeRhs_eq_foldl_filter, elementAt_foldl_xorInto _ _ _ (length_extractParitySymbol ..)
    (fun i _ => by rw [length_map, length_extractSymbol]), hset,
    sum_toFinset _ (nodup_range.filter _)]
  refine congrArg (_ + List.sum ·) (map_congr_left fun i _ => ?_)
  rw [elementAt_map_gfMul, elementAt_extractSymbol _ _ _ _ hb]
  rfl

end Group

/-- The systems of the decoder have only one solution. -/
theorem eq_zero_of_solves_decodeMatrix {k : ℕ} (hk : k ≤ 255) {erased : List ℕ}
    (hnodup : erased.Nodup) (hlt : ∀ e ∈ erased, e < k) {z : ℕ → Gf256}
    (hz : Solves erased.length erased.length (decodeMatrix erased) z) :
    ∀ i < erased.length, z i = 0 := by
  have hget : ∀ i < erased.length, erased.getD i 0 < 255 := by
    intro i hi
    rw [getD_eq_getElem _ _ hi]
    exact (hlt _ (getElem_mem hi)).trans_le hk
  refine GaussJordan.eq_zero_of_solves_powers (x := fun i => Gf256.alpha ^ erased.getD i 0)
    (fun i _ => Gf256.alpha_pow_ne_zero _) ?_ ?_ hz
  · intro i hi j hj hij
    have := Gf256.alpha_pow_injOn (hget i hi) (hget j hj) hij
    rw [getD_eq_getElem _ _ hi, getD_eq_getElem _ _ hj] at this
    exact (hnodup.getElem_inj_iff).mp this
  · intro r hr i hi
    simp only [GaussJordan.entry, GaussJordan.row, decodeMatrix, getD_eq_getElem?_getD,
      List.getElem?_map, List.getElem?_range hr, List.getElem?_eq_getElem hi, Option.map_some,
      Option.getD_some]
    exact vandermonde_eq r _

theorem isGrid_decodeMatrix (erased : List ℕ) :
    IsGrid (decodeMatrix erased) erased.length erased.length where
  length_eq := by simp [decodeMatrix]
  width_eq r hr := by
    simp [GaussJordan.row, decodeMatrix, getD_eq_getElem?_getD, hr]

end RsCodec

/-- A symbol of the product of a matrix with a vector of symbols. -/
theorem elementAt_matVecMul {mat : List (List Gf256)} {n size : ℕ} (hmat : IsGrid mat n n)
    {vec : ℕ → Bytes} (hvec : ∀ i, (vec i).length = size) {i : ℕ} (hi : i < n) :
    ∃ symbol, (matVecMul mat ((List.range n).map vec) size)[i]? = some symbol ∧
      symbol.length = size ∧
      ∀ b, elementAt symbol b = GaussJordan.dot n (GaussJordan.row mat i) fun r =>
        elementAt (vec r) b := by
  have hlen : i < mat.length := hmat.length_eq ▸ hi
  have hrow : GaussJordan.row mat i = mat[i] := getD_eq_getElem _ _ hlen
  have hwidth : mat[i].length = n := hrow ▸ hmat.width_eq i hi
  have hzip : mat[i].zip ((List.range n).map vec) =
      (List.range n).map fun r => (mat[i].getD r 0, vec r) := by
    refine ext_getElem (by simp [hwidth]) fun r h1 h2 => ?_
    have hr : r < mat[i].length := by
      rw [length_map, length_range] at h2
      omega
    simp [getD_eq_getElem?_getD, hr]
  refine ⟨_, by rw [matVecMul, List.getElem?_map, List.getElem?_eq_getElem hlen]; rfl, ?_, ?_⟩
  · refine length_foldl_xorInto _ _ _ (length_replicate ..) fun cs hcs => ?_
    rw [hzip] at hcs
    obtain ⟨r, -, rfl⟩ := mem_map.mp hcs
    rw [length_map, hvec]
  · intro b
    dsimp only
    rw [hzip, foldl_map, elementAt_foldl_xorInto _ _ _ (length_replicate ..)
      (fun r _ => by rw [length_map, hvec]), elementAt_replicate_zero, zero_add,
      sum_map_range, GaussJordan.dot, hrow]
    exact Finset.sum_congr rfl fun r _ => elementAt_map_gfMul _ _ b

namespace RsCodec

/-! ### The erasures of a group -/

theorem mem_erasedData {k group i : ℕ} {erasures : List Erasure} :
    i ∈ erasedData k group erasures ↔
      i < k ∧ ∃ e ∈ erasures, e.index.toNat = group * k + i := by
  simp only [erasedData, mem_filterMap, Option.ite_none_right_eq_some, Option.some.injEq,
    Nat.succ_mul]
  constructor
  · rintro ⟨e, he, ⟨hle, hlt⟩, rfl⟩
    exact ⟨by omega, e, he, by omega⟩
  · rintro ⟨hi, e, he, heq⟩
    exact ⟨e, he, by omega, by omega⟩

/-- Different positions have different indices in their group. -/
theorem nodup_erasedData {erasures : List Erasure} (h : erasures.Nodup) (k group : ℕ) :
    (erasedData k group erasures).Nodup := by
  refine h.filterMap fun e e' i he he' => ?_
  simp only [Option.mem_def, Option.ite_none_right_eq_some, Option.some.injEq] at he he'
  exact Erasure.ext (UInt64.toNat_inj.mp (by omega))

/-- The erasures of a group, counted by the division of the index. -/
theorem length_erasedData {k : ℕ} (hk : 0 < k) (group : ℕ) (erasures : List Erasure) :
    (erasedData k group erasures).length =
      (erasures.filter fun e => e.index.toNat / k = group).length := by
  induction erasures with
  | nil => rfl
  | cons e erasures ih =>
    have hdiv : e.index.toNat / k = group ↔
        group * k ≤ e.index.toNat ∧ e.index.toNat < (group + 1) * k := by
      rw [Nat.div_eq_iff hk, Nat.succ_mul]
      omega
    rw [erasedData, filterMap_cons, filter_cons]
    by_cases h : group * k ≤ e.index.toNat ∧ e.index.toNat < (group + 1) * k
    · rw [if_pos h, if_pos (by simpa using hdiv.mpr h), length_cons, length_cons]
      exact congrArg (· + 1) ih
    · rw [if_neg h, if_neg (by simpa using fun heq => h (hdiv.mp heq))]
      exact ih

/-- A group with an erased unit begins before the end, if every erasure lies in such a group. -/
theorem group_lt_of_erased {k size len group : ℕ} {erasures : List Erasure} (hk : 0 < k)
    (hrange : ∀ e ∈ erasures, e.index.toNat / k * (k * size) < len)
    (h : 0 < (erasedData k group erasures).length) : group * k * size < len := by
  obtain ⟨i, hi⟩ := exists_mem_of_length_pos h
  obtain ⟨hik, e, he, heq⟩ := mem_erasedData.mp hi
  have hdiv : e.index.toNat / k = group := by
    rw [heq, Nat.mul_comm, Nat.mul_add_div hk, Nat.div_eq_of_lt hik, Nat.add_zero]
  rw [← hdiv, Nat.mul_assoc]
  exact hrange e he

/-! ### Solving a group -/

section Solve

variable {c : RsCodec} {availableData : Bytes} {erasures : List Erasure} {groupCount group : ℕ}

/-- The symbol of a group lies inside the output. -/
theorem symbol_inside (size : ℕ) {k e : ℕ} (hgroup : group < groupCount) (he : e < k) :
    (group * k + e) * size + size ≤ groupCount * k * size := by
  have hle : group * k + e + 1 ≤ groupCount * k := by
    have := Nat.mul_le_mul_right k hgroup
    rw [Nat.succ_mul] at this
    omega
  calc (group * k + e) * size + size = (group * k + e + 1) * size := by ring
    _ ≤ groupCount * k * size := Nat.mul_le_mul_right size hle

/-- Symbols of the right length are all written. -/
theorem writeRecovered_eq_scatter (hgroup : group < groupCount) (symbol : ℕ → Bytes)
    {erased : List ℕ} (hsymbol : ∀ e ∈ erased, (symbol e).length = c.symbolSize.toNat)
    (hlt : ∀ e ∈ erased, e < c.k.toNat) {out : Bytes}
    (hout : out.length = groupCount * c.k.toNat * c.symbolSize.toNat) :
    c.writeRecovered group out (erased.map fun e => (e, symbol e)) =
      Scatter.scatter (erased.map fun e =>
        ((group * c.k.toNat + e) * c.symbolSize.toNat, symbol e)) out := by
  rw [writeRecovered, Scatter.scatter, foldl_map, foldl_map]
  induction erased generalizing out with
  | nil => rfl
  | cons e erased ih =>
    have hinside : (group * c.k.toNat + e) * c.symbolSize.toNat + c.symbolSize.toNat ≤
        out.length := hout.symm ▸ symbol_inside _ hgroup (hlt e mem_cons_self)
    rw [foldl_cons, foldl_cons, if_pos hinside]
    refine ih (fun e' he' => hsymbol e' (mem_cons_of_mem e he'))
      (fun e' he' => hlt e' (mem_cons_of_mem e he')) ?_
    rw [Scatter.length_overwrite (by rw [hsymbol e mem_cons_self]; exact hinside), hout]

end Solve

/-- The bytes of the groups of a value can be counted. -/
theorem total_le (c : RsCodec) {count : UInt32} {parityLen : ℕ}
    (hparity : parityDataLen count c.parityCount c.symbolSize = .ok parityLen)
    (hmax : parityLen ≤ maxParitySize) : count.toNat * c.k.toNat * c.symbolSize.toNat ≤ u64Max := by
  -- the parity of the groups is bounded, and every group has at least one parity symbol
  have hone : 1 ≤ c.parityCount.toNat :=
    Nat.pos_of_ne_zero fun h => c.parityCount_ne (UInt8.toNat_inj.mp h)
  have hk : c.k.toNat ≤ 255 := Nat.le_of_lt_succ (UInt8.toNat_lt c.k)
  have hbound : count.toNat * c.symbolSize.toNat ≤ maxParitySize :=
    calc count.toNat * c.symbolSize.toNat
        ≤ count.toNat * c.parityCount.toNat * c.symbolSize.toNat :=
          Nat.mul_le_mul_right _ (Nat.le_mul_of_pos_right _ hone)
      _ = parityLen := (toNat_parityDataLen hparity).symm
      _ ≤ maxParitySize := hmax
  have hle : count.toNat * c.k.toNat * c.symbolSize.toNat ≤ 255 * maxParitySize :=
    calc count.toNat * c.k.toNat * c.symbolSize.toNat
        = c.k.toNat * (count.toNat * c.symbolSize.toNat) := by ring
      _ ≤ 255 * maxParitySize := Nat.mul_le_mul hk hbound
  have hsmall : 255 * maxParitySize ≤ u64Max := by decide
  omega

end RsCodec

end Sar
