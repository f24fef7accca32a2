import Sar.Core.Cursor
import Sar.Core.Limits

/-!
# Sparse maps

The sparse map of a Local File Header is a list of extents in offset and length fields of the
archive's size width. `parseSparseMap_eq_ok_iff` says that a map is accepted if and only if it is
what is written of its extents.
-/

namespace Sar

open LittleEndian List
open Except (rejectIf bind_eq_ok_iff pure_eq_ok ok.injEq exists_unit rejectIf_eq_ok_iff)

/-- `SparseExtent`: `length` bytes of data at `offset`. -/
structure SparseExtent where
  offset : UInt64
  length : UInt64
  deriving DecidableEq

/-! ### The map on the wire -/

/-- The size of one map entry. -/
def sparseEntrySize (is64Bit : Bool) : ℕ := if is64Bit then 16 else 8

/-- One map entry from its bytes. -/
def decodeExtent (is64Bit : Bool) (bytes : Bytes) : SparseExtent :=
  if is64Bit then
    ⟨UInt64.ofNat (leNat (bytes.take 8)), UInt64.ofNat (leNat ((bytes.drop 8).take 8))⟩
  else ⟨UInt64.ofNat (leNat (bytes.take 4)), UInt64.ofNat (leNat ((bytes.drop 4).take 4))⟩

/-- The loop of `parse_sparse_map`. -/
def decodeExtents (is64Bit : Bool) : ℕ → Bytes → List SparseExtent
  | 0, _ => []
  | count + 1, bytes =>
    decodeExtent is64Bit bytes :: decodeExtents is64Bit count (bytes.drop (sparseEntrySize is64Bit))

/-- `parse_sparse_map`. -/
def parseSparseMap (bytes : Bytes) (is64Bit : Bool) (limits : ResourceLimits) :
    Result (List SparseExtent) := do
  limits.checkSparseMapBytes bytes.length
  let entrySize := sparseEntrySize is64Bit
  rejectIf (bytes.length % entrySize ≠ 0)
    (.invalidLength "sparse map byte length is not a multiple of entry size")
  let count := bytes.length / entrySize
  limits.checkSparseDescriptorCount count
  rejectIf (count > isizeMax / 16) (.overflow "sparse descriptor allocation")
  pure (decodeExtents is64Bit count bytes)

/-- One map entry, written; in 32-bit mode both values must fit. -/
def encodeExtent (is64Bit : Bool) (extent : SparseExtent) : Result Bytes :=
  if is64Bit then pure (u64Bytes extent.offset ++ u64Bytes extent.length)
  else do
    rejectIf (extent.offset.toNat ≥ 2 ^ 32)
      (.overflow "sparse extent offset exceeds u32::MAX in 32-bit sparse map")
    rejectIf (extent.length.toNat ≥ 2 ^ 32)
      (.overflow "sparse extent length exceeds u32::MAX in 32-bit sparse map")
    pure (u32Bytes extent.offset.toUInt32 ++ u32Bytes extent.length.toUInt32)

/-- `write_sparse_map`. -/
def writeSparseMap : List SparseExtent → Bool → Result Bytes
  | [], _ => pure []
  | extent :: extents, is64Bit => do
    let entry ← encodeExtent is64Bit extent
    let rest ← writeSparseMap extents is64Bit
    pure (entry ++ rest)

/-! ### Reading is the inverse of writing -/

variable {is64Bit : Bool} {bytes : Bytes}

theorem ofNat_leNat_eq_iff {w : ℕ} (hw : w ≤ 8) {bs : Bytes} (hbs : bs.length = w) {x : UInt64} :
    UInt64.ofNat (leNat bs) = x ↔ x.toNat < 256 ^ w ∧ bs = leBytes w x.toNat := by
  have hlt : leNat bs < 2 ^ 64 :=
    (leNat_lt bs).trans_le (Nat.pow_le_pow_right (by decide) (hbs.trans_le hw))
  rw [← UInt64.toNat_inj, UInt64.toNat_ofNat_of_lt' hlt, leNat_eq_iff, hbs]

/-- The two fields of a map entry, of any width. -/
theorem extentFields_eq_iff {w : ℕ} (hw : w ≤ 8) {x : SparseExtent} :
    bytes.length = 2 * w ∧ (⟨UInt64.ofNat (leNat (bytes.take w)),
        UInt64.ofNat (leNat ((bytes.drop w).take w))⟩ : SparseExtent) = x ↔
      x.offset.toNat < 256 ^ w ∧ x.length.toNat < 256 ^ w ∧
        leBytes w x.offset.toNat ++ leBytes w x.length.toNat = bytes := by
  obtain ⟨offset, length⟩ := x
  rw [SparseExtent.mk.injEq]
  constructor
  · rintro ⟨hlen, hoffset, hlength⟩
    obtain ⟨ho, hfirst⟩ := (ofNat_leNat_eq_iff hw (by rw [length_take]; omega)).mp hoffset
    obtain ⟨hl, hsecond⟩ := (ofNat_leNat_eq_iff hw (by rw [length_take, length_drop]; omega)).mp
      hlength
    rw [take_of_length_le (by rw [length_drop]; omega)] at hsecond
    exact ⟨ho, hl, by rw [← hfirst, ← hsecond, take_append_drop]⟩
  · rintro ⟨ho, hl, rfl⟩
    rw [take_left' (length_leBytes ..), drop_left' (length_leBytes ..),
      take_of_length_le (length_leBytes ..).le, leNat_leBytes_of_lt ho, leNat_leBytes_of_lt hl]
    simp [two_mul]

theorem encodeExtent_eq_ok_iff {x : SparseExtent} :
    encodeExtent is64Bit x = .ok bytes ↔
      bytes.length = sparseEntrySize is64Bit ∧ decodeExtent is64Bit bytes = x := by
  cases is64Bit with
  | true =>
    have ho : x.offset.toNat < 256 ^ 8 := x.offset.toNat_lt
    have hl : x.length.toNat < 256 ^ 8 := x.length.toNat_lt
    refine Iff.trans ?_ (@extentFields_eq_iff bytes 8 (by decide) x).symm
    simp only [encodeExtent, if_true, pure_eq_ok, ok.injEq, u64Bytes, ho, hl, true_and]
  | false =>
    refine Iff.trans ?_ (@extentFields_eq_iff bytes 4 (by decide) x).symm
    simp only [encodeExtent, Bool.false_eq_true, if_false, bind_eq_ok_iff, exists_unit,
      rejectIf_eq_ok_iff, pure_eq_ok, ok.injEq, Nat.not_le, u32Bytes, UInt64.toNat_toUInt32]
    refine and_congr_right fun ho => and_congr_right fun hl => ?_
    rw [Nat.mod_eq_of_lt ho, Nat.mod_eq_of_lt hl]

theorem sparseEntrySize_pos (is64Bit : Bool) : 0 < sparseEntrySize is64Bit := by
  cases is64Bit <;> decide

theorem decodeExtent_take : decodeExtent is64Bit (bytes.take (sparseEntrySize is64Bit)) =
    decodeExtent is64Bit bytes := by
  cases is64Bit <;> simp [decodeExtent, sparseEntrySize, take_take, drop_take]

variable {extents : List SparseExtent}

theorem length_decodeExtents {count : ℕ} : (decodeExtents is64Bit count bytes).length = count := by
  induction count generalizing bytes with
  | zero => rfl
  | succ count ih => rw [decodeExtents, length_cons, ih]

/-- A map is written as the byte string that holds the entries one after the other. -/
theorem writeSparseMap_eq_ok_iff : writeSparseMap extents is64Bit = .ok bytes ↔
    bytes.length = extents.length * sparseEntrySize is64Bit ∧
      decodeExtents is64Bit extents.length bytes = extents := by
  induction extents generalizing bytes with
  | nil =>
    rw [writeSparseMap, pure_eq_ok, ok.injEq, length_nil, Nat.zero_mul, length_eq_zero_iff,
      decodeExtents]
    exact ⟨fun h => ⟨h.symm, rfl⟩, fun h => h.1.symm⟩
  | cons extent extents ih =>
    simp only [writeSparseMap, bind_eq_ok_iff, pure_eq_ok, ok.injEq, encodeExtent_eq_ok_iff,
      ih, length_cons, Nat.succ_mul, decodeExtents, cons.injEq]
    constructor
    · rintro ⟨entry, ⟨hsize, rfl⟩, rest, ⟨hlen, hrest⟩, rfl⟩
      rw [← @decodeExtent_take _ (entry ++ rest), take_left' hsize, drop_left' hsize,
        length_append, hsize, hlen, Nat.add_comm]
      exact ⟨rfl, rfl, hrest⟩
    · rintro ⟨hlen, hentry, hrest⟩
      refine ⟨bytes.take _, ⟨?_, decodeExtent_take.trans hentry⟩, bytes.drop _, ⟨?_, hrest⟩,
        take_append_drop _ _⟩
      · rw [length_take, hlen]
        omega
      · rw [length_drop, hlen, Nat.add_sub_cancel]

/-- A sparse map is accepted, within the limits and the size of a `Vec`, if and only if it is what
`write_sparse_map` makes of the result. -/
theorem parseSparseMap_eq_ok_iff {limits : ResourceLimits} :
    parseSparseMap bytes is64Bit limits = .ok extents ↔
      writeSparseMap extents is64Bit = .ok bytes ∧ bytes.length ≤ limits.maxSparseMapBytes ∧
        extents.length ≤ limits.maxSparseDescriptors ∧ extents.length ≤ isizeMax / 16 := by
  simp only [parseSparseMap, ResourceLimits.checkSparseMapBytes,
    ResourceLimits.checkSparseDescriptorCount, bind_eq_ok_iff, exists_unit, rejectIf_eq_ok_iff,
    ResourceLimits.atMost_eq_ok_iff, pure_eq_ok, ok.injEq, not_not, Nat.not_lt,
    writeSparseMap_eq_ok_iff]
  constructor
  · rintro ⟨hbytes, hmod, hcount, halloc, rfl⟩
    rw [length_decodeExtents]
    exact ⟨⟨(Nat.div_mul_cancel (Nat.dvd_of_mod_eq_zero hmod)).symm, rfl⟩, hbytes, hcount, halloc⟩
  · rintro ⟨⟨hlen, hdecode⟩, hbytes, hcount, halloc⟩
    have hdiv : bytes.length / sparseEntrySize is64Bit = extents.length := by
      rw [hlen, Nat.mul_div_cancel _ (sparseEntrySize_pos _)]
    rw [hdiv]
    exact ⟨hbytes, by rw [hlen, Nat.mul_mod_left], hcount, halloc, hdecode⟩

/-- Writing fails exactly at values that are too wide. -/
theorem exists_writeSparseMap_iff : (∃ bytes, writeSparseMap extents is64Bit = .ok bytes) ↔
    ∀ x ∈ extents, is64Bit = true ∨ x.offset.toNat < 2 ^ 32 ∧ x.length.toNat < 2 ^ 32 := by
  induction extents with
  | nil => exact iff_of_true ⟨[], rfl⟩ (forall_mem_nil _)
  | cons extent extents ih =>
    rw [forall_mem_cons, ← ih]
    cases is64Bit <;>
      simp [writeSparseMap, encodeExtent, and_assoc]

end Sar
