import Sar.ForMathlib.ExceptLemmas

/-!
# Byte parsers

A byte parser runs on a cursor (the position reached and the bytes still to be read) and
either fails or advances. Two families of laws about it:

* `Reads p bs a`: on any input that starts with `bs`, the parser `p` consumes exactly `bs` and
  returns `a`. It composes along `bind`, so the round trip of a record codec is assembled from
  the round trips of its fields; `ReadsAt` fixes the starting position, for codecs that look
  at it.
* `Incremental short p`: how `p` behaves when more input arrives. A success stays the same
  success with the new bytes left over, a failure that is not a shortage of input stays the
  same failure, and after a shortage a success on the longer input reads past the end of the
  shorter one. This is what a resumable reader needs to know about the parser it calls.
-/

namespace ByteParser

open List

variable {ε α β : Type}

/-- Position reached and bytes still to be read. -/
@[ext]
structure Cursor where
  /-- Number of bytes read so far. -/
  pos : ℕ
  /-- Bytes still to be read. -/
  rest : List UInt8

/-- The cursor at the start of an input. -/
def Cursor.ofBytes (input : List UInt8) : Cursor := ⟨0, input⟩

/-- The same cursor after more input has arrived. -/
def Cursor.extend (c : Cursor) (more : List UInt8) : Cursor := ⟨c.pos, c.rest ++ more⟩

@[simp] theorem Cursor.extend_pos (c : Cursor) (z : List UInt8) : (c.extend z).pos = c.pos := rfl

@[simp] theorem Cursor.extend_rest (c : Cursor) (z : List UInt8) :
    (c.extend z).rest = c.rest ++ z := rfl

/-- Programs that read from a cursor and may fail with an `ε`. -/
abbrev Parser (ε : Type) := StateT Cursor (Except ε)

/-- Exactly `n` bytes; `short pos` is the error when fewer are left at position `pos`. -/
def octets (short : ℕ → ε) (n : ℕ) : Parser ε {bs : List UInt8 // bs.length = n} := fun c =>
  if h : n ≤ c.rest.length then
    .ok (⟨c.rest.take n, by simp [h]⟩, ⟨c.pos + n, c.rest.drop n⟩)
  else .error (short c.pos)

/-- The position reached so far. -/
def position : Parser ε ℕ := fun c => .ok (c.pos, c)

/-- The number of bytes still to be read. -/
def remaining : Parser ε ℕ := fun c => .ok (c.rest.length, c)

/-- A computation that reads nothing. -/
def check (x : Except ε α) : Parser ε α := fun c => x.map fun a => (a, c)

/-- Run `p` when `b` is set. -/
def optional (b : Bool) (p : Parser ε α) : Parser ε (Option α) :=
  if b then some <$> p else pure none

theorem bind_apply (p : Parser ε α) (f : α → Parser ε β) (c : Cursor) :
    (p >>= f) c = p c >>= fun r => f r.1 r.2 := rfl

theorem map_apply (f : α → β) (p : Parser ε α) (c : Cursor) :
    (f <$> p) c = p c >>= fun r => .ok (f r.1, r.2) := rfl

@[simp] theorem pure_apply (a : α) (c : Cursor) : (pure a : Parser ε α) c = .ok (a, c) := rfl

@[simp] theorem position_apply (c : Cursor) : (position : Parser ε ℕ) c = .ok (c.pos, c) := rfl

@[simp] theorem remaining_apply (c : Cursor) :
    (remaining : Parser ε ℕ) c = .ok (c.rest.length, c) := rfl

theorem check_apply (x : Except ε α) (c : Cursor) :
    (check x : Parser ε α) c = x >>= fun a => .ok (a, c) := by
  cases x <;> rfl

theorem octets_append (short : ℕ → ε) (pos : ℕ) (bs r : List UInt8) :
    octets short bs.length ⟨pos, bs ++ r⟩ = .ok (⟨bs, rfl⟩, ⟨pos + bs.length, r⟩) := by
  simp [octets]

/-! ### Reading back what was written -/

/-- From position `pos`, `p` consumes exactly `bs` and returns `a`, whatever follows. -/
def ReadsAt (p : Parser ε α) (pos : ℕ) (bs : List UInt8) (a : α) : Prop :=
  ∀ r, p ⟨pos, bs ++ r⟩ = .ok (a, ⟨pos + bs.length, r⟩)

/-- `p` consumes exactly `bs` and returns `a`, wherever it starts and whatever follows. -/
def Reads (p : Parser ε α) (bs : List UInt8) (a : α) : Prop := ∀ pos, ReadsAt p pos bs a

variable {p : Parser ε α} {bs : List UInt8} {a : α}

/-- `p` at a cursor whose input starts with `bs`. -/
theorem Reads.run {r : List UInt8} (hp : Reads p bs a) {c : Cursor} (hc : c.rest = bs ++ r) :
    p c = .ok (a, ⟨c.pos + bs.length, r⟩) := by
  obtain ⟨pos, rest⟩ := c
  subst hc
  exact hp pos r

variable {f : α → Parser ε β} {pos : ℕ} {b : β}

theorem ReadsAt.bind {bs' : List UInt8} (hp : ReadsAt p pos bs a)
    (hf : ReadsAt (f a) (pos + bs.length) bs' b) : ReadsAt (p >>= f) pos (bs ++ bs') b := by
  intro r
  rw [bind_apply, append_assoc, hp, Except.ok_bind, hf, length_append, Nat.add_assoc]

/-- A parser that reads `bs`, run on an input that starts with it. -/
theorem ReadsAt.bind_run (hp : ReadsAt p pos bs a) (f : α → Parser ε β) (r : List UInt8) :
    (p >>= f) ⟨pos, bs ++ r⟩ = f a ⟨pos + bs.length, r⟩ := by
  rw [bind_apply, hp, Except.ok_bind]

variable {x : Except ε α}

theorem check_bind_run (hx : x = .ok a) (f : α → Parser ε β) (c : Cursor) :
    (check x >>= f) c = f a c := by
  rw [bind_apply, check_apply, hx]
  rfl

/-- The continuation reads nothing more. -/
theorem ReadsAt.bind_nil (hp : ReadsAt p pos bs a) (hf : ReadsAt (f a) (pos + bs.length) [] b) :
    ReadsAt (p >>= f) pos bs b := by
  have h := hp.bind hf
  rwa [append_nil] at h

/-- The position is read in front of `f`. -/
theorem ReadsAt.position_bind {f : ℕ → Parser ε β} (hf : ReadsAt (f pos) pos bs b) :
    ReadsAt (position >>= f) pos bs b :=
  fun r => hf r

theorem Reads.pure (a : α) : Reads (Pure.pure a : Parser ε α) [] a := fun _ _ => rfl

theorem Reads.bind {bs' : List UInt8} (hp : Reads p bs a) (hf : Reads (f a) bs' b) :
    Reads (p >>= f) (bs ++ bs') b :=
  fun pos => (hp pos).bind (hf _)

theorem Reads.map {p : Parser ε α} {bs : List UInt8} {a : α} {b : β} {f : α → β}
    (hp : Reads p bs a) (hf : f a = b) : Reads (f <$> p) bs b := by
  intro pos r
  rw [map_apply, hp, Except.ok_bind, hf]

theorem Reads.check (h : x = .ok a) : Reads (ByteParser.check x) [] a := by
  subst h
  exact Reads.pure a

/-- A step that reads nothing in front of `f`. -/
theorem ReadsAt.check_bind (h : x = .ok a) (hf : ReadsAt (f a) pos bs b) :
    ReadsAt (ByteParser.check x >>= f) pos bs b :=
  (Reads.check h pos).bind hf

/-- A step that reads nothing in front of `f`, at any position. -/
theorem Reads.check_bind {x : Except ε α} {f : α → Parser ε β} {bs : List UInt8} {a : α} {b : β}
    (h : x = .ok a) (hf : Reads (f a) bs b) : Reads (ByteParser.check x >>= f) bs b :=
  fun pos => ReadsAt.check_bind h (hf pos)

theorem Reads.octets (short : ℕ → ε) (bs : List UInt8) :
    Reads (ByteParser.octets short bs.length) bs ⟨bs, rfl⟩ :=
  fun pos r => octets_append short pos bs r

/-- An optional field that is written exactly when it is read. -/
theorem Reads.optional {p : Parser ε α} {bs : List UInt8} {a : α} (b : Bool) (hp : Reads p bs a) :
    Reads (ByteParser.optional b p) (if b then bs else []) (if b then some a else none) := by
  cases b with
  | true => exact hp.map rfl
  | false => exact Reads.pure none

/-! ### What is accepted was written -/

/-- The bytes that a successful run consumes are in the relation `Q` to the value it returns. -/
def Accepts (p : Parser ε α) (Q : α → List UInt8 → Prop) : Prop :=
  ∀ ⦃c a c'⦄, p c = .ok (a, c') →
    ∃ used, c.rest = used ++ c'.rest ∧ c'.pos = c.pos + used.length ∧ Q a used

theorem Accepts.pure {Q : α → List UInt8 → Prop} (h : Q a []) :
    Accepts (Pure.pure a : Parser ε α) Q := by
  intro c b c' hb
  obtain ⟨rfl, rfl⟩ := Prod.mk.inj (Except.ok.inj hb)
  exact ⟨[], rfl, rfl, h⟩

variable {Q : β → List UInt8 → Prop} {R : α → List UInt8 → Prop}

/-- The first reader settles the front of the consumed bytes, the second the rest. -/
theorem Accepts.bind (hp : Accepts p R)
    (hf : ∀ a u, R a u → Accepts (f a) fun b v => Q b (u ++ v)) : Accepts (p >>= f) Q := by
  intro c b c' hb
  rw [bind_apply, Except.bind_eq_ok_iff] at hb
  obtain ⟨⟨a, c₁⟩, hpc, hfc⟩ := hb
  obtain ⟨u, hrest, hpos, hR⟩ := hp hpc
  obtain ⟨v, hrest', hpos', hQ⟩ := hf a u hR hfc
  refine ⟨u ++ v, ?_, ?_, hQ⟩
  · rw [hrest, hrest', append_assoc]
  · rw [hpos', hpos, length_append, Nat.add_assoc]

theorem Accepts.map {f : α → β} (hp : Accepts p R) (hf : ∀ a u, R a u → Q (f a) u) :
    Accepts (f <$> p) Q := by
  refine Accepts.bind hp fun a u hR => Accepts.pure ?_
  rw [append_nil]
  exact hf a u hR

theorem Accepts.check {Q : α → List UInt8 → Prop} (h : ∀ a, x = .ok a → Q a []) :
    Accepts (ByteParser.check x) Q := by
  intro c b c' hb
  rw [check_apply] at hb
  cases x with
  | error e => cases hb
  | ok a => exact Accepts.pure (h a rfl) hb

/-- A step that reads nothing. -/
theorem Accepts.check_bind (hf : ∀ a, x = .ok a → Accepts (f a) Q) :
    Accepts (ByteParser.check x >>= f) Q := by
  intro c b c' hb
  rw [bind_apply, check_apply] at hb
  cases x with
  | error e => cases hb
  | ok a => exact hf a rfl hb

theorem Accepts.position_bind {f : ℕ → Parser ε β} (hf : ∀ n, Accepts (f n) Q) :
    Accepts (position >>= f) Q :=
  fun c _ _ hb => hf c.pos hb

theorem Accepts.octets (short : ℕ → ε) (n : ℕ) :
    Accepts (ByteParser.octets short n) fun bs u => u = bs.val := by
  intro c bs c' h
  unfold ByteParser.octets at h
  split at h
  · rename_i hle
    obtain ⟨rfl, rfl⟩ := Prod.mk.inj (Except.ok.inj h)
    refine ⟨c.rest.take n, (take_append_drop n c.rest).symm, ?_, rfl⟩
    rw [length_take, Nat.min_eq_left hle]
  · cases h

/-- An optional field that is there exactly when its flag is set. -/
theorem Accepts.optional (b : Bool) (hp : Accepts p R) :
    Accepts (ByteParser.optional b p) fun o u =>
      (b = true ∧ ∃ a, o = some a ∧ R a u) ∨ (b = false ∧ o = none ∧ u = []) := by
  cases b with
  | true => exact hp.map fun a u hR => .inl ⟨rfl, a, rfl, hR⟩
  | false => exact Accepts.pure (.inr ⟨rfl, rfl, rfl⟩)

/-! ### What a successful parse ensures -/

/-- Every value the parser returns satisfies `Q`. -/
def Ensures (p : Parser ε α) (Q : α → Prop) : Prop := ∀ ⦃c a c'⦄, p c = .ok (a, c') → Q a

theorem Ensures.pure {Q : α → Prop} (h : Q a) : Ensures (Pure.pure a : Parser ε α) Q := by
  intro c b c' hb
  obtain ⟨rfl, -⟩ := Prod.mk.inj (Except.ok.inj hb)
  exact h

theorem Ensures.bind {Q : β → Prop} (hf : ∀ a, Ensures (f a) Q) : Ensures (p >>= f) Q := by
  intro c b c' hb
  rw [bind_apply, Except.bind_eq_ok_iff] at hb
  obtain ⟨⟨a, c₁⟩, -, hrest⟩ := hb
  exact hf a hrest

theorem Ensures.check_bind {Q : β → Prop} (hf : ∀ a, x = .ok a → Ensures (f a) Q) :
    Ensures (ByteParser.check x >>= f) Q := by
  intro c b c' hb
  rw [bind_apply, Except.bind_eq_ok_iff] at hb
  obtain ⟨⟨a, c₁⟩, hcheck, hrest⟩ := hb
  cases x with
  | error e => cases hcheck
  | ok a' =>
    obtain ⟨rfl, -⟩ := Prod.mk.inj (Except.ok.inj hcheck)
    exact hf a' rfl hrest

/-! ### Parsers that differ in what they reject -/

/-- Where both parsers succeed, they do the same. -/
def Agree (p q : Parser ε α) : Prop := ∀ ⦃c r r'⦄, p c = .ok r → q c = .ok r' → r = r'

theorem Agree.refl (p : Parser ε α) : Agree p p :=
  fun _ _ _ h h' => Except.ok.inj (h.symm.trans h')

theorem Agree.bind {p q : Parser ε α} {f g : α → Parser ε β} (hp : Agree p q)
    (hf : ∀ a, Agree (f a) (g a)) : Agree (p >>= f) (q >>= g) := by
  intro c r r' h h'
  rw [bind_apply, Except.bind_eq_ok_iff] at h h'
  obtain ⟨⟨a, c₁⟩, hpc, hfc⟩ := h
  obtain ⟨⟨a', c₁'⟩, hqc, hgc⟩ := h'
  obtain ⟨rfl, rfl⟩ := Prod.mk.inj (hp hpc hqc)
  exact hf a hfc hgc

theorem Agree.map {q : Parser ε α} (f : α → β) (hp : Agree p q) : Agree (f <$> p) (f <$> q) :=
  hp.bind fun a => Agree.refl (Pure.pure (f a))

theorem Agree.check {x y : Except ε α} (h : ∀ a b, x = .ok a → y = .ok b → a = b) :
    Agree (ByteParser.check x) (ByteParser.check y) := by
  intro c r r' hr hr'
  rw [check_apply, Except.bind_eq_ok_iff] at hr hr'
  obtain ⟨a, hx, hr⟩ := hr
  obtain ⟨b, hy, hr'⟩ := hr'
  rw [← Except.ok.inj hr, ← Except.ok.inj hr', h a b hx hy]

theorem Agree.optional {q : Parser ε α} (b : Bool) (hp : Agree p q) :
    Agree (ByteParser.optional b p) (ByteParser.optional b q) := by
  cases b with
  | true => exact hp.map some
  | false => exact Agree.refl _

/-! ### Arrival of more input -/

/-- How a parser reacts to a longer input; `short` marks the failures that mean "not enough
bytes". -/
structure Incremental (short : ε → Prop) (p : Parser ε α) : Prop where
  /-- A success reads a block off the front of the input. -/
  consumes : ∀ {c a c'}, p c = .ok (a, c') →
    ∃ used, c.rest = used ++ c'.rest ∧ c'.pos = c.pos + used.length
  /-- A success is unaffected by bytes that arrive later. -/
  extend_ok : ∀ {c a c'} z, p c = .ok (a, c') → p (c.extend z) = .ok (a, c'.extend z)
  /-- A failure other than a shortage is unaffected by bytes that arrive later. -/
  extend_error : ∀ {c e} z, p c = .error e → ¬ short e → p (c.extend z) = .error e
  /-- After a shortage, a success on a longer input reads past the end of the shorter one. -/
  starved : ∀ {c e z a c'}, p c = .error e → short e → p (c.extend z) = .ok (a, c') →
    c.pos + c.rest.length < c'.pos

namespace Incremental

variable {short : ε → Prop}

variable {p : Parser ε α}

/-- A successful read leaves a position between the start and the end of the input. -/
theorem pos_le (hp : Incremental short p) {c c' : Cursor} {a : α} (h : p c = .ok (a, c')) :
    c.pos ≤ c'.pos ∧ c'.pos + c'.rest.length = c.pos + c.rest.length := by
  obtain ⟨used, hrest, hpos⟩ := hp.consumes h
  rw [hrest, hpos, length_append]
  omega

theorem pure (a : α) : Incremental short (Pure.pure a : Parser ε α) where
  consumes h := by cases h; exact ⟨[], rfl, rfl⟩
  extend_ok z h := by cases h; rfl
  extend_error z h := by cases h
  starved h := by cases h

/-- A computation that reads nothing is incremental when it never reports a shortage. -/
theorem check {x : Except ε α} (hx : ∀ e, x = .error e → ¬ short e) :
    Incremental short (ByteParser.check x : Parser ε α) := by
  cases x with
  | ok a => exact Incremental.pure a
  | error e =>
    exact { consumes := fun h => by cases h
            extend_ok := fun z h => by cases h
            extend_error := fun z h _ => by cases h; rfl
            starved := fun h hs => by cases h; exact absurd hs (hx e rfl) }

theorem octets {missing : ℕ → ε} (hs : ∀ n, short (missing n)) (n : ℕ) :
    Incremental short (octets missing n) where
  consumes {c a c'} h := by
    unfold ByteParser.octets at h
    split at h <;> cases h
    rename_i hle
    exact ⟨c.rest.take n, (take_append_drop n c.rest).symm, by simp [hle]⟩
  extend_ok {c a c'} z h := by
    unfold ByteParser.octets at h ⊢
    split at h <;> cases h
    rename_i hle
    have hle' : n ≤ (c.extend z).rest.length := by simp; omega
    rw [dif_pos hle']
    simp [Cursor.extend, take_append_of_le_length hle, drop_append_of_le_length hle]
  extend_error {c e} z h hns := by
    unfold ByteParser.octets at h
    split at h <;> cases h
    exact absurd (hs c.pos) hns
  starved {c e z a c'} h _ hok := by
    unfold ByteParser.octets at h hok
    split at h <;> cases h
    split at hok <;> cases hok
    simp only [Cursor.extend_pos]
    omega

theorem bind {f : α → Parser ε β} (hp : Incremental short p) (hf : ∀ a, Incremental short (f a)) :
    Incremental short (p >>= f) where
  consumes {c b c''} h := by
    obtain ⟨⟨a, c'⟩, hpc, hfc⟩ := Except.bind_eq_ok_iff.mp h
    obtain ⟨u, hu, hpu⟩ := hp.consumes hpc
    obtain ⟨v, hv, hpv⟩ := (hf a).consumes hfc
    exact ⟨u ++ v, by rw [hu, hv, append_assoc], by
      rw [hpv, hpu, length_append, Nat.add_assoc]⟩
  extend_ok {c b c''} z h := by
    obtain ⟨⟨a, c'⟩, hpc, hfc⟩ := Except.bind_eq_ok_iff.mp h
    exact Except.bind_eq_ok_iff.mpr ⟨_, hp.extend_ok z hpc, (hf a).extend_ok z hfc⟩
  extend_error {c e} z h hns := by
    rcases Except.bind_eq_error_iff.mp h with hpc | ⟨⟨a, c'⟩, hpc, hfc⟩
    · exact Except.bind_eq_error_iff.mpr (.inl (hp.extend_error z hpc hns))
    · exact Except.bind_eq_error_iff.mpr
        (.inr ⟨_, hp.extend_ok z hpc, (hf a).extend_error z hfc hns⟩)
  starved {c e z b c''} h hs hok := by
    obtain ⟨⟨a, c'⟩, hpz, hfz⟩ := Except.bind_eq_ok_iff.mp hok
    rcases Except.bind_eq_error_iff.mp h with hpc | ⟨⟨a₀, c₀⟩, hpc, hfc⟩
    · -- the shortage is in `p`; `f` only moves the position further
      have h1 := hp.starved hpc hs hpz
      have h2 := ((hf a).pos_le hfz).1
      omega
    · have hz := hp.extend_ok z hpc
      rw [hpz] at hz
      cases hz
      have h1 := (hf a).starved hfc hs hfz
      have h2 := (hp.pos_le hpc).2
      omega

theorem map (f : α → β) (hp : Incremental short p) : Incremental short (f <$> p) :=
  hp.bind fun a => Incremental.pure (f a)

theorem ite {c : Prop} [Decidable c] {p q : Parser ε α} (hp : Incremental short p)
    (hq : Incremental short q) : Incremental short (if c then p else q) := by
  split
  · exact hp
  · exact hq

theorem optional (b : Bool) (hp : Incremental short p) :
    Incremental short (ByteParser.optional b p) :=
  Incremental.ite (hp.map some) (Incremental.pure none)

/-- A success on a longer input that stays inside the shorter one is already a success there. -/
theorem ok_of_extend_ok {p : Parser ε α} (hp : Incremental short p) {c c' : Cursor} {a : α}
    {z : List UInt8} (h : p (c.extend z) = .ok (a, c'))
    (hin : c'.pos ≤ c.pos + c.rest.length) : ∃ c₀, p c = .ok (a, c₀) ∧ c₀.extend z = c' := by
  cases hpc : p c with
  | ok r =>
    have hz := hp.extend_ok z hpc
    rw [h] at hz
    cases hz
    exact ⟨r.2, rfl, rfl⟩
  | error e =>
    by_cases hs : short e
    · exact absurd (hp.starved hpc hs h) (by omega)
    · rw [hp.extend_error z hpc hs] at h
      cases h

end Incremental

end ByteParser
