import Mathlib.Algebra.GroupWithZero.Nat
import Mathlib.Data.Fin.Basic
import Mathlib.Data.List.Forall2

/-!
# The delta files of RFC 3284

The generic delta format VCDIFF, with the default code table and without secondary compression,
as the RFC defines it. A delta file is given twice.

* As a list of windows, each with the instructions it holds. Addresses and sizes are numbers
  without a bound; `decodeFile` is the decoding procedure of section 3, in which a `COPY` reads
  the string made of the source segment and what has been decoded of the window, byte after byte.
* As bytes. `Window.IsWritten` and `FileIsWritten` say which bytes stand for a list of windows:
  integers in base 128 (section 2), the three sections of a window (section 4.3), the default
  code table (section 5.6) and the address modes with their cache (sections 5.1 to 5.3).

A byte string is a valid delta file if it stands for some list of windows.
-/

namespace Rfc3284

open List

/-! ### Integers -/

/-- The digits `bs` continue the number `v` to `n`. Digits have base 128 and come most significant
first; all but the last have their top bit set. -/
inductive IsIntegerFrom : ℕ → List UInt8 → ℕ → Prop
  | last {v : ℕ} {b : UInt8} (hb : b &&& 0x80 = 0) :
      IsIntegerFrom v [b] (v * 128 + (b &&& 0x7F).toNat)
  | more {v n : ℕ} {b : UInt8} {bs : List UInt8} (hb : b &&& 0x80 ≠ 0)
      (hrest : IsIntegerFrom (v * 128 + (b &&& 0x7F).toNat) bs n) : IsIntegerFrom v (b :: bs) n

/-- The bytes `bs` stand for the integer `n`. -/
def IsInteger (bs : List UInt8) (n : ℕ) : Prop := IsIntegerFrom 0 bs n

/-- Further digits only make a number larger. -/
theorem IsIntegerFrom.mul_le {v n : ℕ} {bs : List UInt8} (h : IsIntegerFrom v bs n) :
    v * 128 ≤ n := by
  induction h with
  | last _ => exact Nat.le_add_right _ _
  | more _ _ ih => omega

/-! ### Instructions -/

/-- An instruction with its arguments. -/
inductive Instruction where
  | add (bytes : List UInt8)
  | run (size : ℕ) (byte : UInt8)
  | copy (size address : ℕ)
  deriving DecidableEq

/-- The number of bytes that an instruction decodes. -/
def Instruction.size : Instruction → ℕ
  | .add bytes => bytes.length
  | .run size _ => size
  | .copy size _ => size

/-- Copy `size` bytes of the string that consists of the source segment and the window, which
grows by every byte that is copied. -/
def copyLoop (source : List UInt8) : ℕ → ℕ → List UInt8 → Option (List UInt8)
  | 0, _, window => some window
  | size + 1, address, window => do
    let b ← (source ++ window)[address]?
    copyLoop source size (address + 1) (window ++ [b])

/-- The window after an instruction. What a `COPY` copies lies in the source segment or in the
window. -/
def Instruction.exec (source window : List UInt8) : Instruction → Option (List UInt8)
  | .add bytes => some (window ++ bytes)
  | .run size byte => some (window ++ List.replicate size byte)
  | .copy size address =>
    if address ≤ source.length + window.length ∧
        (address + size ≤ source.length ∨ source.length ≤ address) then
      copyLoop source size address window
    else none

/-- The window after a list of instructions. -/
def execAll (source : List UInt8) : List UInt8 → List Instruction → Option (List UInt8)
  | window, [] => some window
  | window, i :: is => do
    let window ← i.exec source window
    execAll source window is

theorem length_of_copyLoop {source : List UInt8} {size address : ℕ} {window window' : List UInt8}
    (h : copyLoop source size address window = some window') :
    window'.length = window.length + size := by
  induction size generalizing address window with
  | zero =>
    obtain rfl := Option.some.inj h
    rfl
  | succ size ih =>
    obtain ⟨b, -, hrest⟩ := Option.bind_eq_some_iff.mp h
    have hlength := ih hrest
    rw [length_append, length_singleton] at hlength
    omega

/-- An instruction decodes as many bytes as its size says. -/
theorem Instruction.length_of_exec {source window window' : List UInt8} {i : Instruction}
    (h : i.exec source window = some window') : window'.length = window.length + i.size := by
  cases i with
  | add bytes =>
    obtain rfl := Option.some.inj h
    exact length_append
  | run size byte =>
    obtain rfl := Option.some.inj h
    rw [length_append, length_replicate, Instruction.size]
  | copy size address =>
    rw [exec] at h
    split at h
    · exact length_of_copyLoop h
    · exact (nomatch h)

theorem length_of_execAll {source window window' : List UInt8} {is : List Instruction}
    (h : execAll source window is = some window') :
    window'.length = window.length + (is.map Instruction.size).sum := by
  induction is generalizing window with
  | nil =>
    obtain rfl := Option.some.inj h
    rfl
  | cons i is ih =>
    obtain ⟨next, hnext, hrest⟩ := Option.bind_eq_some_iff.mp h
    rw [ih hrest, Instruction.length_of_exec hnext, map_cons, sum_cons]
    omega

theorem execAll_append {source window window' : List UInt8} {is js : List Instruction} :
    execAll source window (is ++ js) = some window' ↔
      ∃ next, execAll source window is = some next ∧ execAll source next js = some window' := by
  induction is generalizing window with
  | nil => simp [execAll]
  | cons i is ih =>
    simp only [cons_append, execAll, Option.bind_eq_bind, Option.bind_eq_some_iff, ih]
    constructor
    · rintro ⟨a, ha, next, hnext, hrest⟩
      exact ⟨next, ⟨a, ha, hnext⟩, hrest⟩
    · rintro ⟨next, ⟨a, ha, hnext⟩, hrest⟩
      exact ⟨a, ha, next, hnext, hrest⟩

/-- If all that is copied has been decoded before, it is copied as one piece. -/
theorem copyLoop_of_le {source window : List UInt8} {size address : ℕ}
    (h : address + size ≤ source.length + window.length) :
    copyLoop source size address window =
      some (window ++ ((source ++ window).drop address).take size) := by
  induction size generalizing address window with
  | zero => rw [copyLoop, take_zero, append_nil]
  | succ size ih =>
    have hlt : address < (source ++ window).length := by
      rw [length_append]
      omega
    have hdrop : ((source ++ window).drop address).take (size + 1) =
        (source ++ window)[address] :: ((source ++ window).drop (address + 1)).take size := by
      rw [drop_eq_getElem_cons hlt, take_succ_cons]
    have hmore : ((source ++ (window ++ [(source ++ window)[address]])).drop
        (address + 1)).take size = ((source ++ window).drop (address + 1)).take size := by
      rw [← append_assoc, drop_append_of_le_length hlt, take_append_of_le_length]
      rw [length_drop, length_append]
      omega
    rw [copyLoop, List.getElem?_eq_getElem hlt, Option.bind_eq_bind, Option.bind_some, ih, hmore,
      hdrop, append_assoc, singleton_append]
    rw [length_append, length_singleton]
    omega

/-! ### Addresses -/

/-- The address modes: the address itself, its distance from here, its distance from a recent
address, or its place among the addresses with one remainder. -/
inductive Mode where
  | self
  | here
  | near (i : Fin 4)
  | same (i : Fin 3)
  deriving DecidableEq

/-- The address cache. -/
structure Cache where
  near : Fin 4 → ℕ
  nextSlot : Fin 4
  same : Fin 768 → ℕ

/-- The cache at the start of a window. -/
def Cache.init : Cache := ⟨fun _ => 0, 0, fun _ => 0⟩

/-- The cache after a `COPY` from an address. -/
def Cache.update (cache : Cache) (address : ℕ) : Cache where
  near := Function.update cache.near cache.nextSlot address
  nextSlot := cache.nextSlot + 1
  same := Function.update cache.same (Fin.ofNat 768 address) address

/-- The bytes `bs` stand for an address. -/
inductive Cache.IsAddress (cache : Cache) (here : ℕ) : Mode → ℕ → List UInt8 → Prop
  | self {bs : List UInt8} {address : ℕ} (h : IsInteger bs address) :
      IsAddress cache here .self address bs
  | here {bs : List UInt8} {address : ℕ} (hle : address ≤ here)
      (h : IsInteger bs (here - address)) : IsAddress cache here .here address bs
  | near {bs : List UInt8} {i : Fin 4} {n : ℕ} (h : IsInteger bs n) :
      IsAddress cache here (.near i) (cache.near i + n) bs
  | same {i : Fin 3} {b : UInt8} :
      IsAddress cache here (.same i) (cache.same (Fin.ofNat 768 (i * 256 + b.toNat))) [b]

/-- The cache after an instruction. -/
def Instruction.update (cache : Cache) : Instruction → Cache
  | .copy _ address => cache.update address
  | _ => cache

/-! ### The default code table -/

/-- The types of instructions. -/
inductive InstructionType where
  | add
  | run
  | copy (mode : Mode)
  deriving DecidableEq

/-- One instruction of a row of the code table. Size zero means that the size follows the code. -/
structure Template where
  type : InstructionType
  size : ℕ
  deriving DecidableEq

/-- The address modes in the order of their numbers. -/
def modes : List Mode :=
  [.self, .here, .near 0, .near 1, .near 2, .near 3, .same 0, .same 1, .same 2]

/-- The default code table: the rows of section 5.6. -/
def defaultCodeTable : List (List Template) :=
  [[⟨.run, 0⟩]] ++
    (List.range 18).map (fun size => [⟨.add, size⟩]) ++
    modes.flatMap (fun mode => [⟨.copy mode, 0⟩] ::
      (List.range 15).map fun i => [⟨.copy mode, i + 4⟩]) ++
    (modes.take 6).flatMap (fun mode => [1, 2, 3, 4].flatMap fun addSize =>
      [4, 5, 6].map fun copySize => [⟨.add, addSize⟩, ⟨.copy mode, copySize⟩]) ++
    (modes.drop 6).flatMap (fun mode => [1, 2, 3, 4].map fun addSize =>
      [⟨.add, addSize⟩, ⟨.copy mode, 4⟩]) ++
    modes.map fun mode => [⟨.copy mode, 4⟩, ⟨.add, 1⟩]

/-- The row of an instruction code. -/
def templates (code : UInt8) : List Template := defaultCodeTable.getD code.toNat []

/-! ### The sections of a window -/

/-- The data, the instructions and the addresses of a window. -/
structure Sections where
  data : List UInt8
  inst : List UInt8
  addr : List UInt8
  deriving DecidableEq

/-- Sections one after the other. -/
def Sections.append (s t : Sections) : Sections :=
  ⟨s.data ++ t.data, s.inst ++ t.inst, s.addr ++ t.addr⟩

/-- The size of an instruction is that of the template, or it follows as an integer. -/
inductive IsSize : ℕ → ℕ → List UInt8 → Prop
  | coded {size : ℕ} {bs : List UInt8} (h : IsInteger bs size) : IsSize 0 size bs
  | fixed {size : ℕ} (h : size ≠ 0) : IsSize size size []

/-- An instruction is written with a template. -/
inductive Template.Writes (cache : Cache) (here : ℕ) :
    Template → Instruction → Sections → Prop
  | add {size : ℕ} {bytes inst : List UInt8} (hsize : IsSize size bytes.length inst) :
      Writes cache here ⟨.add, size⟩ (.add bytes) ⟨bytes, inst, []⟩
  | run {size n : ℕ} {byte : UInt8} {inst : List UInt8} (hsize : IsSize size n inst) :
      Writes cache here ⟨.run, size⟩ (.run n byte) ⟨[byte], inst, []⟩
  | copy {size n address : ℕ} {mode : Mode} {inst addr : List UInt8} (hsize : IsSize size n inst)
      (haddress : cache.IsAddress here mode address addr) :
      Writes cache here ⟨.copy mode, size⟩ (.copy n address) ⟨[], inst, addr⟩

/-- Instructions are written with the templates of a row. -/
inductive WritesAll : Cache → ℕ → List Template → List Instruction → Sections → Prop
  | nil {cache : Cache} {here : ℕ} : WritesAll cache here [] [] ⟨[], [], []⟩
  | cons {cache : Cache} {here : ℕ} {t : Template} {ts : List Template} {i : Instruction}
      {is : List Instruction} {s s' : Sections} (head : t.Writes cache here i s)
      (tail : WritesAll (i.update cache) (here + i.size) ts is s') :
      WritesAll cache here (t :: ts) (i :: is) (s.append s')

/-- An instruction code and the instructions it stands for. -/
structure Round where
  code : UInt8
  instructions : List Instruction
  deriving DecidableEq

/-- The number of bytes that a round decodes. -/
def Round.size (r : Round) : ℕ := (r.instructions.map Instruction.size).sum

/-- The cache after a list of instructions. -/
def updateAll (cache : Cache) (is : List Instruction) : Cache :=
  is.foldl (fun cache i => i.update cache) cache

/-- The sections that a list of rounds is written to. -/
inductive RoundsWrite : Cache → ℕ → List Round → Sections → Prop
  | nil {cache : Cache} {here : ℕ} : RoundsWrite cache here [] ⟨[], [], []⟩
  | cons {cache : Cache} {here : ℕ} {r : Round} {rs : List Round} {s s' : Sections}
      (head : WritesAll cache here (templates r.code) r.instructions s)
      (tail : RoundsWrite (updateAll cache r.instructions) (here + r.size) rs s') :
      RoundsWrite cache here (r :: rs) (Sections.append ⟨s.data, r.code :: s.inst, s.addr⟩ s')

/-! ### Windows and files -/

/-- Where a source segment is taken from: the source file, or the target decoded so far. -/
inductive Origin where
  | source
  | target
  deriving DecidableEq

/-- `VCD_SOURCE` and `VCD_TARGET`. -/
def Origin.indicator : Origin → UInt8
  | .source => 0x01
  | .target => 0x02

/-- A source segment. -/
structure Segment where
  origin : Origin
  size : ℕ
  position : ℕ
  deriving DecidableEq

/-- The file that a source segment is taken from. -/
def Origin.file (base output : List UInt8) : Origin → List UInt8
  | .source => base
  | .target => output

/-- The bytes of a source segment. -/
def Segment.bytes (base output : List UInt8) (s : Segment) : Option (List UInt8) :=
  let file := s.origin.file base output
  if s.position + s.size ≤ file.length then some ((file.drop s.position).take s.size) else none

theorem Segment.bytes_eq_some {base output bytes : List UInt8} {s : Segment}
    (h : s.bytes base output = some bytes) :
    s.position + s.size ≤ (s.origin.file base output).length ∧
      bytes = ((s.origin.file base output).drop s.position).take s.size ∧
      bytes.length = s.size := by
  rw [Segment.bytes] at h
  split at h
  · next hle =>
    obtain rfl := Option.some.inj h
    refine ⟨hle, rfl, ?_⟩
    rw [length_take, length_drop]
    omega
  · exact (nomatch h)

/-- A target window. -/
structure Window where
  segment : Option Segment
  rounds : List Round
  deriving DecidableEq

namespace Window

/-- The size of the source segment. -/
def segmentSize (w : Window) : ℕ := (w.segment.map Segment.size).getD 0

/-- The instructions of a window. -/
def instructions (w : Window) : List Instruction := w.rounds.flatMap Round.instructions

/-- The size of the target window. -/
def size (w : Window) : ℕ := (w.instructions.map Instruction.size).sum

/-- The source segment of a window. -/
def source (base output : List UInt8) (w : Window) : Option (List UInt8) :=
  match w.segment with
  | none => some []
  | some s => s.bytes base output

/-- The bytes of a window, decoded. -/
def decode (base output : List UInt8) (w : Window) : Option (List UInt8) := do
  let source ← w.source base output
  execAll source [] w.instructions

end Window

/-- The indicator of a window with the size and the position of its source segment. -/
inductive SegmentIsWritten : Option Segment → List UInt8 → Prop
  | none : SegmentIsWritten none [0x00]
  | some {s : Segment} {size position : List UInt8} (hsize : IsInteger size s.size)
      (hposition : IsInteger position s.position) :
      SegmentIsWritten (some s) ([s.origin.indicator] ++ (size ++ position))

/-- The delta encoding of a window: the size of the window, a delta indicator without secondary
compression, the lengths of the three sections, and the sections. -/
structure IsDelta (size : ℕ) (s : Sections) (sizeBytes dataLen instLen addrLen : List UInt8) :
    Prop where
  size : IsInteger sizeBytes size
  dataLen : IsInteger dataLen s.data.length
  instLen : IsInteger instLen s.inst.length
  addrLen : IsInteger addrLen s.addr.length

/-- A window is written as a list of bytes. -/
inductive Window.IsWritten (w : Window) : List UInt8 → Prop
  | mk {s : Sections} {segment length sizeBytes dataLen instLen addrLen delta : List UInt8}
      (hsegment : SegmentIsWritten w.segment segment)
      (hrounds : RoundsWrite Cache.init w.segmentSize w.rounds s)
      (hdelta : IsDelta w.size s sizeBytes dataLen instLen addrLen)
      (heq : delta = sizeBytes ++ ([0x00] ++ (dataLen ++ (instLen ++ (addrLen ++
        (s.data ++ (s.inst ++ s.addr)))))))
      (hlength : IsInteger length delta.length) :
      IsWritten w (segment ++ (length ++ delta))

/-- A delta file is written as a list of bytes: the magic number and the version, a header
indicator without secondary compressor and code table, and the windows. -/
def FileIsWritten (windows : List Window) (bytes : List UInt8) : Prop :=
  ∃ parts, List.Forall₂ Window.IsWritten windows parts ∧
    bytes = [0xD6, 0xC3, 0xC4, 0x00, 0x00] ++ parts.flatten

/-- The target file behind what has been decoded of it. -/
def decodeFrom (base : List UInt8) : List UInt8 → List Window → Option (List UInt8)
  | output, [] => some output
  | output, w :: ws => do
    let window ← w.decode base output
    decodeFrom base (output ++ window) ws

/-- The target file that a delta file and its source file define. -/
def decodeFile (base : List UInt8) (windows : List Window) : Option (List UInt8) :=
  decodeFrom base [] windows

end Rfc3284
