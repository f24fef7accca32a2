import Sar.Core.Error

/-!
# UTF-8 strings

Rust's `String` is a byte string together with the fact that it is valid UTF-8; `Str` carries
that fact as a field. The check is the automaton of the standard: a leading byte fixes the
ranges its continuation bytes must lie in, which excludes overlong forms, surrogates and code
points beyond `U+10FFFF`.
-/

namespace Sar

/-- A range of byte values. -/
abbrev ByteRange := UInt8 × UInt8

/-- A continuation byte without further restriction. -/
def continuation : ByteRange := (0x80, 0xBF)

/-- The ranges a leading byte demands of the bytes after it. -/
def utf8Start (b : UInt8) : Option (List ByteRange) :=
  if b ≤ 0x7F then some []
  else if 0xC2 ≤ b ∧ b ≤ 0xDF then some [continuation]
  else if b = 0xE0 then some [(0xA0, 0xBF), continuation]
  else if b = 0xED then some [(0x80, 0x9F), continuation]
  else if 0xE1 ≤ b ∧ b ≤ 0xEF then some [continuation, continuation]
  else if b = 0xF0 then some [(0x90, 0xBF), continuation, continuation]
  else if 0xF1 ≤ b ∧ b ≤ 0xF3 then some [continuation, continuation, continuation]
  else if b = 0xF4 then some [(0x80, 0x8F), continuation, continuation]
  else none

/-- One byte of the automaton; the state is what the current character still demands. -/
def utf8Step : List ByteRange → UInt8 → Option (List ByteRange)
  | [], b => utf8Start b
  | (lo, hi) :: rest, b => if lo ≤ b ∧ b ≤ hi then some rest else none

/-- `str::from_utf8(bytes).is_ok()`. -/
def validUtf8 (bytes : Bytes) : Bool := bytes.foldlM utf8Step [] == some []

/-- `String`. -/
structure Str where
  bytes : Bytes
  valid : validUtf8 bytes = true
  deriving DecidableEq

namespace Str

/-- `String::new`. -/
def empty : Str := ⟨[], rfl⟩

/-- `str::is_empty`. -/
def isEmpty (s : Str) : Bool := s.bytes.isEmpty

/-- `String::from_utf8`. -/
def ofUtf8 {ε : Type} (bytes : Bytes) (e : ε) : Except ε Str :=
  if h : validUtf8 bytes = true then .ok ⟨bytes, h⟩ else .error e

end Str

theorem validUtf8_letter : validUtf8 [97] = true := by decide

-- a two-byte character; an overlong form; a lone continuation byte
example : validUtf8 [0xC3, 0xA9] = true := by decide
example : validUtf8 [0xC0, 0x80] = false := by decide
example : validUtf8 [0x80] = false := by decide

end Sar
