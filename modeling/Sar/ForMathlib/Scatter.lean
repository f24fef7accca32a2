import Mathlib.Algebra.Order.Ring.Nat
import Mathlib.Data.List.Basic
import Mathlib.Tactic.Ring

/-!
# Scattering pieces into a buffer

A piece is a list with the offset it belongs at; `scatter` writes pieces one after the other
into a buffer. When the pieces lie inside the buffer and pairwise apart, the order of writing
does not matter: a position inside a piece holds that piece's element
(`getElem?_scatter_of_covers`) and a position outside every piece is as before
(`getElem?_scatter_of_not_covers`).
-/

namespace Scatter

open List

variable {α : Type}

/-- Replace the elements of `buf` from `off` on by those of `xs`. -/
def overwrite (buf : List α) (off : ℕ) (xs : List α) : List α :=
  buf.take off ++ (xs ++ buf.drop (off + xs.length))

/-- A list and the offset it belongs at. -/
abbrev Piece (α : Type) := ℕ × List α

/-- Write the pieces one after the other. -/
def scatter (pieces : List (Piece α)) (buf : List α) : List α :=
  pieces.foldl (fun buf p => overwrite buf p.1 p.2) buf

/-- Position `i` lies inside the piece. -/
def Covers (p : Piece α) (i : ℕ) : Prop := p.1 ≤ i ∧ i < p.1 + p.2.length

/-- The piece lies inside a buffer of length `n`. -/
def Inside (n : ℕ) (p : Piece α) : Prop := p.1 + p.2.length ≤ n

/-- One of the pieces ends before the other begins. -/
def Apart (p q : Piece α) : Prop := p.1 + p.2.length ≤ q.1 ∨ q.1 + q.2.length ≤ p.1

variable {i : ℕ}

theorem Apart.not_covers {p q : Piece α} (h : Apart p q) (hp : Covers p i) : ¬ Covers q i := by
  obtain ⟨h1, h2⟩ := hp
  rintro ⟨h3, h4⟩
  rcases h with h | h <;> omega

variable {buf xs : List α} {off : ℕ}

theorem length_overwrite (h : off + xs.length ≤ buf.length) :
    (overwrite buf off xs).length = buf.length := by
  simp only [overwrite, length_append, length_take, length_drop]
  omega

/-- Inside the piece, a write is visible. -/
theorem getElem?_overwrite_of_covers (hin : off + xs.length ≤ buf.length) (h1 : off ≤ i)
    (h2 : i < off + xs.length) : (overwrite buf off xs)[i]? = xs[i - off]? := by
  have hlen : (buf.take off).length = off := by
    rw [length_take]
    omega
  rw [overwrite, List.getElem?_append_right (by omega), hlen, List.getElem?_append_left (by omega)]

/-- Outside the piece, a write changes nothing. -/
theorem getElem?_overwrite_of_not_covers (hin : off + xs.length ≤ buf.length)
    (h : i < off ∨ off + xs.length ≤ i) : (overwrite buf off xs)[i]? = buf[i]? := by
  have hlen : (buf.take off).length = off := by
    rw [length_take]
    omega
  rw [overwrite]
  rcases h with h | h
  · rw [List.getElem?_append_left (by omega), List.getElem?_take_of_lt h]
  · rw [List.getElem?_append_right (by omega), hlen, List.getElem?_append_right (by omega),
      List.getElem?_drop]
    congr 1
    omega

theorem scatter_cons (p : Piece α) (pieces : List (Piece α)) (buf : List α) :
    scatter (p :: pieces) buf = scatter pieces (overwrite buf p.1 p.2) := rfl

variable {pieces : List (Piece α)}

theorem length_scatter (hin : ∀ p ∈ pieces, Inside buf.length p) :
    (scatter pieces buf).length = buf.length := by
  induction pieces generalizing buf with
  | nil => rfl
  | cons p pieces ih =>
    have hp : (overwrite buf p.1 p.2).length = buf.length :=
      length_overwrite (hin p mem_cons_self)
    rw [scatter_cons, ih (by rw [hp]; exact fun q hq => hin q (mem_cons_of_mem p hq)), hp]

/-- A position no piece covers keeps its element. -/
theorem getElem?_scatter_of_not_covers (hin : ∀ p ∈ pieces, Inside buf.length p)
    (h : ∀ p ∈ pieces, ¬ Covers p i) : (scatter pieces buf)[i]? = buf[i]? := by
  induction pieces generalizing buf with
  | nil => rfl
  | cons p pieces ih =>
    have hinp : p.1 + p.2.length ≤ buf.length := hin p mem_cons_self
    have hnot : i < p.1 ∨ p.1 + p.2.length ≤ i := by
      have := h p mem_cons_self
      simp only [Covers, not_and_or, not_le, not_lt] at this
      exact this
    have hlen := length_overwrite hinp
    rw [scatter_cons, ih (by rw [hlen]; exact fun q hq => hin q (mem_cons_of_mem p hq))
      (fun q hq => h q (mem_cons_of_mem p hq)), getElem?_overwrite_of_not_covers hinp hnot]

/-- A position inside a piece holds that piece's element, if the pieces lie apart. -/
theorem getElem?_scatter_of_covers {p : Piece α} (hin : ∀ p ∈ pieces, Inside buf.length p)
    (hapart : pieces.Pairwise Apart) (hp : p ∈ pieces) (hi : Covers p i) :
    (scatter pieces buf)[i]? = p.2[i - p.1]? := by
  induction pieces generalizing buf with
  | nil => cases hp
  | cons q pieces ih =>
    have hinq : q.1 + q.2.length ≤ buf.length := hin q mem_cons_self
    have hlen := length_overwrite hinq
    have hin' : ∀ r ∈ pieces, Inside (overwrite buf q.1 q.2).length r := by
      rw [hlen]
      exact fun r hr => hin r (mem_cons_of_mem q hr)
    obtain ⟨hq, hrest⟩ := pairwise_cons.mp hapart
    rw [scatter_cons]
    rcases mem_cons.mp hp with rfl | hmem
    · -- the first piece is covered by none of the later ones
      rw [getElem?_scatter_of_not_covers hin' fun r hr => (hq r hr).not_covers hi]
      exact getElem?_overwrite_of_covers hinq hi.1 hi.2
    · exact ih hin' hrest hmem

/-- The buffer holds each piece, if the pieces lie apart. -/
theorem take_drop_scatter {p : Piece α} (hin : ∀ p ∈ pieces, Inside buf.length p)
    (hapart : pieces.Pairwise Apart) (hp : p ∈ pieces) :
    ((scatter pieces buf).drop p.1).take p.2.length = p.2 := by
  refine ext_getElem? fun i => ?_
  by_cases hi : i < p.2.length
  · rw [List.getElem?_take_of_lt hi, List.getElem?_drop,
      getElem?_scatter_of_covers hin hapart hp ⟨by omega, by omega⟩, Nat.add_sub_cancel_left]
  · rw [List.getElem?_take_eq_none (by omega), List.getElem?_eq_none (by omega)]

end Scatter
