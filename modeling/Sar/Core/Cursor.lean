import Sar.Core.Error
import Sar.ForMathlib.ByteParser
import Sar.ForMathlib.LittleEndian

/-!
# The parse cursor and the binary writer

`ParseCursor` of the source is the cursor of `ByteParser`; a read that does not fit fails with
`SarError::Truncated`. The source first checks that the advance does not overflow `usize`; a
slice is never longer than `isize::MAX`, so a read that fits cannot overflow, and the model
tests the fit first and keeps both error exits.

The writer appends, so its methods are the byte strings they append.
-/

namespace Sar

open ByteParser LittleEndian List

/-- Programs on a `ParseCursor`. -/
abbrev Parser := ByteParser.Parser SarError

/-- The error of a read of `n` bytes that does not fit. -/
def shortRead (n pos : ℕ) : SarError :=
  if pos + n ≤ u64Max then .truncated "insufficient bytes" else .overflow "cursor advance"

/-- The errors that mean the input ended too early. -/
def IsShortRead (e : SarError) : Prop :=
  e = .truncated "insufficient bytes" ∨ e = .overflow "cursor advance"

theorem isShortRead_shortRead (n pos : ℕ) : IsShortRead (shortRead n pos) := by
  unfold shortRead IsShortRead
  split
  · exact .inl rfl
  · exact .inr rfl

/-- `ParseCursor::read_bytes`. -/
def readBytes (n : ℕ) : Parser (Octets n) := octets (shortRead n) n

/-- `ParseCursor::read_u8`. -/
def readU8 : Parser UInt8 := (fun bs => UInt8.ofNat (leNat bs.val)) <$> readBytes 1

/-- `ParseCursor::read_u16_le`. -/
def readU16 : Parser UInt16 := (fun bs => UInt16.ofNat (leNat bs.val)) <$> readBytes 2

/-- `ParseCursor::read_u24_le`. -/
def readU24 : Parser UInt32 := (fun bs => UInt32.ofNat (leNat bs.val)) <$> readBytes 3

/-- `ParseCursor::read_u32_le`. -/
def readU32 : Parser UInt32 := (fun bs => UInt32.ofNat (leNat bs.val)) <$> readBytes 4

/-- `ParseCursor::read_u64_le`. -/
def readU64 : Parser UInt64 := (fun bs => UInt64.ofNat (leNat bs.val)) <$> readBytes 8

/-- Run a parser from the start of `input`; the value and the position reached. -/
def runParser {α : Type} (p : Parser α) (input : Bytes) : Result (α × ℕ) :=
  (p (Cursor.ofBytes input)).map fun r => (r.1, r.2.pos)

/-- `u16::to_le_bytes`. -/
def u16Bytes (x : UInt16) : Bytes := leBytes 2 x.toNat

/-- The three bytes `write_u24_le` appends. -/
def u24Bytes (x : UInt32) : Bytes := leBytes 3 x.toNat

/-- `u32::to_le_bytes`. -/
def u32Bytes (x : UInt32) : Bytes := leBytes 4 x.toNat

/-- `u64::to_le_bytes`. -/
def u64Bytes (x : UInt64) : Bytes := leBytes 8 x.toNat

@[simp] theorem length_u16Bytes (x : UInt16) : (u16Bytes x).length = 2 := length_leBytes _ _

@[simp] theorem length_u24Bytes (x : UInt32) : (u24Bytes x).length = 3 := length_leBytes _ _

@[simp] theorem length_u32Bytes (x : UInt32) : (u32Bytes x).length = 4 := length_leBytes _ _

@[simp] theorem length_u64Bytes (x : UInt64) : (u64Bytes x).length = 8 := length_leBytes _ _

/-! ### Each read gives back what the matching write appended -/

theorem reads_bytes (bs : Bytes) : Reads (readBytes bs.length) bs ⟨bs, rfl⟩ :=
  Reads.octets _ bs

theorem reads_octets {n : ℕ} (bs : Octets n) : Reads (readBytes n) bs.val bs := by
  obtain ⟨bs, rfl⟩ := bs
  exact reads_bytes bs

theorem reads_u8 (x : UInt8) : Reads readU8 [x] x :=
  (reads_bytes [x]).map (by simp [leNat])

theorem reads_u16 (x : UInt16) : Reads readU16 (u16Bytes x) x :=
  (reads_octets ⟨u16Bytes x, length_u16Bytes x⟩).map (ofNat_leNat_leBytes_uint16 x)

theorem reads_u24 {x : UInt32} (hx : x.toNat < 2 ^ 24) : Reads readU24 (u24Bytes x) x := by
  have hval : UInt32.ofNat (leNat (leBytes 3 x.toNat)) = x := by
    rw [leNat_leBytes_of_lt (by simpa using hx), UInt32.ofNat_toNat]
  exact (reads_octets ⟨u24Bytes x, length_u24Bytes x⟩).map hval

theorem reads_u32 (x : UInt32) : Reads readU32 (u32Bytes x) x :=
  (reads_octets ⟨u32Bytes x, length_u32Bytes x⟩).map (ofNat_leNat_leBytes_uint32 x)

theorem reads_u64 (x : UInt64) : Reads readU64 (u64Bytes x) x :=
  (reads_octets ⟨u64Bytes x, length_u64Bytes x⟩).map (ofNat_leNat_leBytes_uint64 x)

/-- A parser that reads back `bs`, run on an input that starts with `bs`. -/
theorem runParser_of_reads {α : Type} {p : Parser α} {bs : Bytes} {a : α}
    (h : ReadsAt p 0 bs a) (r : Bytes) : runParser p (bs ++ r) = .ok (a, bs.length) := by
  have h' := h r
  simp only [runParser, Cursor.ofBytes, h', Except.map, Nat.zero_add]

/-! ### Each read consumes what the matching write would append -/

theorem accepts_bytes (n : ℕ) : Accepts (readBytes n) fun bs u => u = bs.val :=
  Accepts.octets _ n

/-- A number read from `w` bytes is the one whose bytes they are. -/
theorem leBytes_leNat_of_length {w : ℕ} {bs : Bytes} (h : bs.length = w) :
    leBytes w (leNat bs) = bs := by
  rw [← h, leBytes_leNat]

theorem accepts_u8 : Accepts readU8 fun x u => u = [x] := by
  refine (accepts_bytes 1).map fun bs u hu => ?_
  obtain ⟨b, hb⟩ := length_eq_one_iff.mp bs.property
  simp [hu, hb, leNat]

theorem accepts_u16 : Accepts readU16 fun x u => u = u16Bytes x := by
  refine (accepts_bytes 2).map fun bs u hu => ?_
  have hlt : leNat bs.val < 2 ^ 16 := by simpa [bs.property] using leNat_lt bs.val
  rw [hu, u16Bytes, UInt16.toNat_ofNat_of_lt' hlt, leBytes_leNat_of_length bs.property]

theorem accepts_u24 : Accepts readU24 fun x u => u = u24Bytes x ∧ x.toNat < 2 ^ 24 := by
  refine (accepts_bytes 3).map fun bs u hu => ?_
  have hlt : leNat bs.val < 2 ^ 24 := by simpa [bs.property] using leNat_lt bs.val
  rw [hu, u24Bytes, UInt32.toNat_ofNat_of_lt' (hlt.trans (by decide)),
    leBytes_leNat_of_length bs.property]
  exact ⟨rfl, hlt⟩

theorem accepts_u32 : Accepts readU32 fun x u => u = u32Bytes x := by
  refine (accepts_bytes 4).map fun bs u hu => ?_
  have hlt : leNat bs.val < 2 ^ 32 := by simpa [bs.property] using leNat_lt bs.val
  rw [hu, u32Bytes, UInt32.toNat_ofNat_of_lt' hlt, leBytes_leNat_of_length bs.property]

theorem accepts_u64 : Accepts readU64 fun x u => u = u64Bytes x := by
  refine (accepts_bytes 8).map fun bs u hu => ?_
  have hlt : leNat bs.val < 2 ^ 64 := by simpa [bs.property] using leNat_lt bs.val
  rw [hu, u64Bytes, UInt64.toNat_ofNat_of_lt' hlt, leBytes_leNat_of_length bs.property]

/-! ### Every read is incremental -/

theorem incremental_readBytes (n : ℕ) : Incremental IsShortRead (readBytes n) :=
  Incremental.octets (isShortRead_shortRead n) n

theorem incremental_readU8 : Incremental IsShortRead readU8 :=
  (incremental_readBytes 1).map _

theorem incremental_readU16 : Incremental IsShortRead readU16 :=
  (incremental_readBytes 2).map _

theorem incremental_readU32 : Incremental IsShortRead readU32 :=
  (incremental_readBytes 4).map _

/-- A guard whose error is not a short read is incremental. -/
theorem incremental_rejectIf {c : Prop} [Decidable c] {e : SarError} (he : ¬ IsShortRead e) :
    Incremental IsShortRead (check (Except.rejectIf c e) : Parser Unit) :=
  Incremental.check fun e' h => by
    obtain ⟨-, rfl⟩ := Except.rejectIf_eq_error_iff.mp h
    exact he

/-! ### Runs on a growing input -/

section Run

variable {α : Type} {p : Parser α} {input : Bytes} {a : α} {n : ℕ}

theorem runParser_eq_ok_iff :
    runParser p input = .ok (a, n) ↔ ∃ c, p (Cursor.ofBytes input) = .ok (a, c) ∧ c.pos = n := by
  unfold runParser
  cases p (Cursor.ofBytes input) with
  | error e => simp [Except.map]
  | ok r =>
    obtain ⟨b, c⟩ := r
    simp only [Except.map, Except.ok.injEq, Prod.mk.injEq]
    constructor
    · rintro ⟨rfl, rfl⟩
      exact ⟨c, ⟨rfl, rfl⟩, rfl⟩
    · rintro ⟨c', ⟨rfl, rfl⟩, rfl⟩
      exact ⟨rfl, rfl⟩

theorem runParser_eq_error_iff {e : SarError} :
    runParser p input = .error e ↔ p (Cursor.ofBytes input) = .error e := by
  unfold runParser
  cases p (Cursor.ofBytes input) <;> simp [Except.map]

/-- The number of bytes a run reports lies within its input. -/
theorem runParser_le_length (hp : Incremental IsShortRead p) (h : runParser p input = .ok (a, n)) :
    n ≤ input.length := by
  obtain ⟨c, hc, rfl⟩ := runParser_eq_ok_iff.mp h
  have := (hp.pos_le hc).2
  simp only [Cursor.ofBytes] at this
  omega

/-- A successful run is unaffected by bytes that arrive later. -/
theorem runParser_append_of_ok (hp : Incremental IsShortRead p) (h : runParser p input = .ok (a, n))
    (z : Bytes) : runParser p (input ++ z) = .ok (a, n) := by
  obtain ⟨c, hc, rfl⟩ := runParser_eq_ok_iff.mp h
  exact runParser_eq_ok_iff.mpr ⟨_, hp.extend_ok z hc, rfl⟩

/-- A run that succeeds within the first part of its input succeeds on that part. -/
theorem runParser_of_append (hp : Incremental IsShortRead p) {z : Bytes}
    (h : runParser p (input ++ z) = .ok (a, n)) (hn : n ≤ input.length) :
    runParser p input = .ok (a, n) := by
  obtain ⟨c, hc, rfl⟩ := runParser_eq_ok_iff.mp h
  obtain ⟨c₀, hc₀, rfl⟩ := hp.ok_of_extend_ok (c := Cursor.ofBytes input) hc
    (by simpa [Cursor.ofBytes] using hn)
  exact runParser_eq_ok_iff.mpr ⟨c₀, hc₀, rfl⟩

end Run

/-! ### Reading at a position of a fixed input -/

/-- The cursor at position `pos` of an input. -/
def cursorAt (input : Bytes) (pos : ℕ) : Cursor := ⟨pos, input.drop pos⟩

@[simp] theorem cursorAt_zero (input : Bytes) : cursorAt input 0 = Cursor.ofBytes input := rfl

@[simp] theorem cursorAt_pos (input : Bytes) (pos : ℕ) : (cursorAt input pos).pos = pos := rfl

section At

variable {input : Bytes} {pos : ℕ} {c : Cursor}

/-- What a read at a position comes to. -/
theorem map_readBytes_at_eq_ok_iff {α : Type} {n : ℕ} (f : Bytes → α) {a : α} :
    ((fun bs : Octets n => f bs.val) <$> readBytes n) (cursorAt input pos) = .ok (a, c) ↔
      n ≤ input.length - pos ∧ a = f ((input.drop pos).take n) ∧ c = cursorAt input (pos + n) := by
  rw [map_apply, readBytes, octets]
  by_cases hn : n ≤ (cursorAt input pos).rest.length
  · rw [dif_pos hn, Except.ok_bind, Except.ok.injEq, Prod.mk.injEq]
    rw [cursorAt, length_drop] at hn
    simp only [cursorAt, drop_drop, hn, true_and, eq_comm]
  · rw [dif_neg hn, Except.error_bind]
    rw [cursorAt, length_drop] at hn
    simp [hn]

theorem readBytes_at_eq_ok_iff {n : ℕ} {bs : Octets n} :
    readBytes n (cursorAt input pos) = .ok (bs, c) ↔
      n ≤ input.length - pos ∧ bs.val = (input.drop pos).take n ∧ c = cursorAt input (pos + n) := by
  rw [readBytes, octets]
  by_cases hn : n ≤ (cursorAt input pos).rest.length
  · rw [dif_pos hn, Except.ok.injEq, Prod.mk.injEq, Subtype.ext_iff]
    rw [cursorAt, length_drop] at hn
    simp only [cursorAt, drop_drop, hn, true_and, eq_comm]
  · rw [dif_neg hn]
    rw [cursorAt, length_drop] at hn
    simp [hn]

theorem readU8_at_eq_ok_iff {x : UInt8} :
    readU8 (cursorAt input pos) = .ok (x, c) ↔ 1 ≤ input.length - pos ∧
      x = UInt8.ofNat (leNat ((input.drop pos).take 1)) ∧ c = cursorAt input (pos + 1) :=
  map_readBytes_at_eq_ok_iff fun bs => UInt8.ofNat (leNat bs)

theorem readU16_at_eq_ok_iff {x : UInt16} :
    readU16 (cursorAt input pos) = .ok (x, c) ↔ 2 ≤ input.length - pos ∧
      x = UInt16.ofNat (leNat ((input.drop pos).take 2)) ∧ c = cursorAt input (pos + 2) :=
  map_readBytes_at_eq_ok_iff fun bs => UInt16.ofNat (leNat bs)

theorem readU32_at_eq_ok_iff {x : UInt32} :
    readU32 (cursorAt input pos) = .ok (x, c) ↔ 4 ≤ input.length - pos ∧
      x = UInt32.ofNat (leNat ((input.drop pos).take 4)) ∧ c = cursorAt input (pos + 4) :=
  map_readBytes_at_eq_ok_iff fun bs => UInt32.ofNat (leNat bs)

theorem toNat_ofNat_leNat_take_two (bs : Bytes) :
    (UInt16.ofNat (leNat (bs.take 2))).toNat = leNat (bs.take 2) := by
  have hlt := leNat_lt (bs.take 2)
  have hlen : (bs.take 2).length ≤ 2 := length_take_le 2 bs
  have hpow : 256 ^ (bs.take 2).length ≤ 256 ^ 2 := Nat.pow_le_pow_right (by decide) hlen
  exact UInt16.toNat_ofNat_of_lt' (lt_of_lt_of_le hlt (hpow.trans (by decide)))

theorem toNat_ofNat_leNat_take_four (bs : Bytes) :
    (UInt32.ofNat (leNat (bs.take 4))).toNat = leNat (bs.take 4) := by
  have hlt := leNat_lt (bs.take 4)
  have hlen : (bs.take 4).length ≤ 4 := length_take_le 4 bs
  have hpow : 256 ^ (bs.take 4).length ≤ 256 ^ 4 := Nat.pow_le_pow_right (by decide) hlen
  exact UInt32.toNat_ofNat_of_lt' (lt_of_lt_of_le hlt (hpow.trans (by decide)))

theorem check_eq_ok_iff {α : Type} {x : Result α} {a : α} {c c' : Cursor} :
    (check x : Parser α) c = .ok (a, c') ↔ x = .ok a ∧ c' = c := by
  rw [check_apply]
  cases x <;> simp [eq_comm]

end At

/-! ### Numbers at fixed positions of a payload -/

theorem drop_eq_take_append (l : Bytes) (i n : ℕ) :
    l.drop i = (l.drop i).take n ++ l.drop (i + n) := by
  rw [← drop_drop, take_append_drop]

/-- `u16::from_le_bytes` of two bytes at `i`. -/
def u16At (payload : Bytes) (i : ℕ) : UInt16 := UInt16.ofNat (leNat ((payload.drop i).take 2))

/-- `u32::from_le_bytes` of four bytes at `i`. -/
def u32At (payload : Bytes) (i : ℕ) : UInt32 := UInt32.ofNat (leNat ((payload.drop i).take 4))

/-- `payload[i..i + n]`. -/
def sliceAt (payload : Bytes) (i n : ℕ) : Bytes := (payload.drop i).take n

end Sar
