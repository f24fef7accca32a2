import Sar.Archive.StreamView
import Sar.ForMathlib.Resumable

/-!
# Resuming and relocating the stream parser

How a step changes when more bytes have arrived, or when the same bytes lie further down the
stream. A step that produced an event or failed does so again, with the positions of entries
moved, and a step that waited is resumed by a step of the parser it left behind (`follows_step`).
There is one exception: between the end of the flags of an encrypted archive and the end of the
five bytes that announce the length of its key-management payload, the parser takes the header
for complete (`kmsWindow`).
-/

namespace Sar

open Except (rejectIf liftError okOr pure_eq_ok ok_bind rejectIf_of)
open Stateful LittleEndian Resumable List

/-! ### Positions in the stream -/

/-- An entry `k` bytes further down the stream: only its recorded position changes. -/
def EntryReader.shift (k : ℕ) (entry : EntryReader) : EntryReader :=
  { entry with
    entryMetadata := { entry.entryMetadata with lfhOffset := entry.entryMetadata.lfhOffset + k } }

/-- An event `k` bytes further down the stream. -/
def StreamEvent.shift (k : ℕ) : StreamEvent → StreamEvent
  | .entry found => .entry (found.shift k)
  | .globalHeader header => .globalHeader header
  | .archiveComplete summary => .archiveComplete summary

/-- A pending entry `k` bytes further down the stream. -/
def PendingEntry.shift (k : ℕ) (pending : PendingEntry) : PendingEntry :=
  { pending with payloadOffset := pending.payloadOffset + k }

theorem StreamEvent.shift_zero (event : StreamEvent) : event.shift 0 = event := by
  cases event <;> rfl

theorem PendingEntry.map_shift_zero (pending : Option PendingEntry) :
    pending.map (PendingEntry.shift 0) = pending := by
  cases pending <;> rfl

namespace StreamArchiveParser

/-- More bytes arrive, and possibly the end of the input. -/
def more (v : Bytes) (b : Bool) (p : StreamArchiveParser) : StreamArchiveParser :=
  { p.append v with finalized := p.finalized || b }

/-- A Global Header is being read whose flags announce a key-management extension, and the
bytes end before its length is known. -/
def kmsWindow (p : StreamArchiveParser) : Bool :=
  p.state = .needGlobalHeader &&
    match p.peek 8 with
    | none => false
    | some fixed =>
      match p.peek (8 + headerFlagsSize fixed) with
      | none => false
      | some flags =>
        let globalFlags := flagsOfBytes (flags.drop 8)
        let kmsStart := kmsPrefixStart (headerFlagsSize fixed) globalFlags
        globalFlags.encrypted && decide (kmsStart ≤ p.available) &&
          decide (p.available < kmsStart + 5)

variable {v : Bytes} {b : Bool} {k n : ℕ} {p q : StreamArchiveParser}

theorem unread_more (v : Bytes) (b : Bool) (p : StreamArchiveParser) :
    (p.more v b).unread = p.unread ++ v :=
  drop_append_of_le_length p.consumed_le

theorem available_more (v : Bytes) (b : Bool) (p : StreamArchiveParser) :
    (p.more v b).available = p.available + v.length := by
  rw [available_eq, available_eq, unread_more, length_append]

/-- `q` is `p` after more bytes arrived, `k` bytes further down the stream. A parser that is
moved has room for that in its offsets. -/
structure Grown (v : Bytes) (b : Bool) (k : ℕ) (p q : StreamArchiveParser) : Prop where
  options : q.options = p.options
  keyProvider : q.keyProvider = p.keyProvider
  state : q.state = p.state
  unread : q.unread = p.unread ++ v
  finalized : q.finalized = (p.finalized || b)
  absoluteOffset : q.absoluteOffset = p.absoluteOffset + k
  archive : q.archive = p.archive
  pendingEntry : q.pendingEntry = p.pendingEntry.map (PendingEntry.shift k)
  room : k ≠ 0 → p.absoluteOffset + p.available + k ≤ u64Max
  placed : k ≠ 0 → ∀ pending, p.pendingEntry = some pending →
    pending.lfh.headerSize.toNat ≤ pending.payloadOffset

/-- In place, the relation says which bytes are unread and leaves their storage open. -/
theorem grown_zero_iff : Grown v b 0 p q ↔ q.compact = (p.more v b).compact := by
  constructor
  · intro h
    refine compact_ext h.options h.keyProvider h.state (h.unread.trans (unread_more v b p).symm)
      h.finalized h.absoluteOffset h.archive ?_
    rw [h.pendingEntry, PendingEntry.map_shift_zero]
    rfl
  · intro h
    refine ⟨(congrArg options h :), (congrArg keyProvider h :), (congrArg state h :), ?_,
      (congrArg finalized h :), (congrArg absoluteOffset h :), (congrArg archive h :), ?_,
      (absurd rfl ·), (absurd rfl ·)⟩
    · exact (congrArg buffer h : q.unread = (p.more v b).unread).trans (unread_more v b p)
    · rw [PendingEntry.map_shift_zero]
      exact (congrArg pendingEntry h :)

theorem grown_more (v : Bytes) (b : Bool) (p : StreamArchiveParser) : Grown v b 0 p (p.more v b) :=
  grown_zero_iff.mpr rfl

theorem compact_more_nil (p : StreamArchiveParser) : (p.more [] false).compact = p.compact :=
  compact_ext rfl rfl rfl (by rw [unread_more, append_nil]) (Bool.or_false _) rfl rfl rfl

theorem grown_nil_iff : Grown [] false 0 p q ↔ q.compact = p.compact := by
  rw [grown_zero_iff, compact_more_nil]

namespace Grown

variable (h : Grown v b k p q)
include h

theorem available : q.available = p.available + v.length := by
  rw [available_eq, available_eq, h.unread, length_append]

variable (hn : n ≤ p.available)
include hn

theorem le_available : n ≤ q.available := by
  rw [h.available]
  omega

/-- The bytes a phase looks at are the same once more have arrived. -/
theorem take : q.unread.take n = p.unread.take n := by
  rw [h.unread, take_append_of_le_length]
  rwa [← available_eq]

theorem peek : q.peek n = p.peek n := by
  rw [peek_of_le hn, peek_of_le (h.le_available hn), h.take hn]

theorem drop : q.unread.drop n = p.unread.drop n ++ v := by
  rw [h.unread, drop_append_of_le_length]
  rwa [← available_eq]

theorem skip (hn' : n ≤ q.available) : Grown v b k (p.skip n hn) (q.skip n hn') := by
  refine { h with unread := ?_, room := fun hk => ?_ }
  · rw [unread_skip, unread_skip, h.drop hn]
  · have := h.room hk
    rw [available_eq, unread_skip, length_drop, ← available_eq]
    change p.absoluteOffset + _ + k ≤ u64Max
    omega

theorem advance (hn' : n ≤ q.available) : Grown v b k (p.advance n hn) (q.advance n hn') := by
  refine ⟨?_, ?_, ?_, ?_, ?_, ?_, ?_, ?_, fun hk => ?_, fun hk pending => ?_⟩
  · simp only [options_advance, h.options]
  · simp only [keyProvider_advance, h.keyProvider]
  · simp only [state_advance, h.state]
  · rw [unread_advance, unread_advance, h.drop hn]
  · simp only [finalized_advance, h.finalized]
  · rw [absoluteOffset_advance, absoluteOffset_advance, h.absoluteOffset]
    omega
  · simp only [archive_advance, h.archive]
  · simp only [pendingEntry_advance, h.pendingEntry]
  · have := h.room hk
    rw [absoluteOffset_advance, available_advance]
    omega
  · rw [pendingEntry_advance]
    exact h.placed hk pending

end Grown

/-! ### Runs on a prefix and on the longer input -/

/-- The run on the longer input does the same: `φ` moves its result. -/
structure Tracks {α : Type} (v : Bytes) (b : Bool) (k : ℕ) (φ : α → α)
    (x y : Except SarError α × StreamArchiveParser) : Prop where
  result : y.1 = x.1.map φ
  grown : Grown v b k x.2 y.2

/-- Nothing is left at the end of the input: the parser is done, or its archive is. -/
def Finishes (t : StreamArchiveParser) (y : Except SarError StreamStep × StreamArchiveParser) :
    Prop :=
  t.available = 0 ∧ (t.state = .needGlobalHeader ∧ y = (.ok .complete, t) ∨
    t.state = .needLocalFileHeader ∧ t.archive ≠ none ∧ y = t.finishArchive)

/-- What the end of the input makes of a step that would wait at `t`: without it the step waits,
and with it the step fails for good, unless nothing is left. -/
structure Settles (b : Bool) (needed : Option ℕ) (t : StreamArchiveParser)
    (y : Except SarError StreamStep × StreamArchiveParser) : Prop where
  waits : b = false → y = (.ok (.needMore needed), t)
  ends : b = true → (∃ e u, y = (.error e, u) ∧ u.state = .error) ∨ Finishes t y

/-- The step on the longer input: the same event or ending, or what a step of the waiting parser
does once the bytes are there. -/
inductive Follows (backend : Backend) (v : Bytes) (b : Bool) (k : ℕ) :
    Except SarError StreamStep × StreamArchiveParser →
      Except SarError StreamStep × StreamArchiveParser → Prop
  | ready {e : StreamEvent} {s t : StreamArchiveParser} :
      Grown v b k s t → Follows backend v b k (.ok (.ready e), s) (.ok (.ready (e.shift k)), t)
  | complete {s t : StreamArchiveParser} :
      Grown v b k s t → Follows backend v b k (.ok .complete, s) (.ok .complete, t)
  | error {e : SarError} {s t : StreamArchiveParser} :
      Grown v b k s t → Follows backend v b k (.error e, s) (.error e, t)
  | wait {needed : Option ℕ} {s t : StreamArchiveParser} :
      Grown v b k s t → (v = [] → Settles b needed t (step backend t)) →
        Follows backend v b k (.ok (.needMore needed), s) (step backend t)

section Tracks

variable {α β : Type} {φ : α → α} {ψ : β → β}

theorem Tracks.lift {x y : Result α} (hxy : y = x.map φ) (h : Grown v b k p q) :
    Tracks v b k φ (lift x p) (lift y q) :=
  ⟨hxy, h⟩

theorem Tracks.lift_same (x : Result α) (h : Grown v b k p q) :
    Tracks v b k id (Stateful.lift x p) (Stateful.lift x q) :=
  .lift (congrFun Except.map_id x).symm h

theorem Tracks.update {f g : StreamArchiveParser → StreamArchiveParser}
    (h : Grown v b k (f p) (g q)) : Tracks v b k id (Stateful.update f p) (Stateful.update g q) :=
  ⟨rfl, h⟩

theorem Tracks.andThen {x y : Except SarError α × StreamArchiveParser} {f g : α → StreamM β}
    (hxy : Tracks v b k φ x y)
    (hf : ∀ a s t, x = (.ok a, s) → Grown v b k s t → Tracks v b k ψ (f a s) (g (φ a) t)) :
    Tracks v b k ψ (andThen x f) (andThen y g) := by
  obtain ⟨r, s⟩ := x
  obtain ⟨r', t⟩ := y
  obtain ⟨rfl, hgrown⟩ := hxy
  cases r with
  | error e => exact ⟨rfl, hgrown⟩
  | ok a => exact hf a s t rfl hgrown

theorem Follows.andThen {backend : Backend} {x y : Except SarError α × StreamArchiveParser}
    {f g : α → StreamM StreamStep} (hxy : Tracks v b k φ x y)
    (hf : ∀ a s t, x = (.ok a, s) → Grown v b k s t → Follows backend v b k (f a s) (g (φ a) t)) :
    Follows backend v b k (andThen x f) (andThen y g) := by
  obtain ⟨r, s⟩ := x
  obtain ⟨r', t⟩ := y
  obtain ⟨rfl, hgrown⟩ := hxy
  cases r with
  | error e => exact .error hgrown
  | ok a => exact hf a s t rfl hgrown

end Tracks

/-- Bytes that were already there are consumed on both sides, unless the offset overflows. -/
theorem tracks_consume (hn : n ≤ p.available) (h : Grown v b k p q) :
    Tracks v b k id (consume n p) (consume n q) := by
  have hn' := h.le_available hn
  have hoff := h.absoluteOffset
  have hroom := h.room
  by_cases hover : p.absoluteOffset + n > u64Max
  · have hover' : q.absoluteOffset + n > u64Max := by omega
    rw [consume_of_overflow hn hover, consume_of_overflow hn' hover']
    exact ⟨rfl, h.skip hn hn'⟩
  · have hover' : q.absoluteOffset + n ≤ u64Max := by
      by_cases hk : k = 0
      · omega
      · have := hroom hk
        omega
    rw [consume_of_le hn (Nat.not_lt.mp hover), consume_of_le hn' hover']
    exact ⟨rfl, h.advance hn hn'⟩

/-! ### The phases -/

section Phases

variable (backend : Backend)

theorem decodeParts_shift (hopt : q.options = p.options) (hkey : q.keyProvider = p.keyProvider)
    (archive : ActiveArchive) (lfh : LocalFileHeader) (lfhBytes payload : Bytes) {offset : ℕ}
    (hoff : k ≠ 0 → lfh.headerSize.toNat ≤ offset) :
    decodeParts backend q archive lfh lfhBytes payload (offset + k) =
      (decodeParts backend p archive lfh lfhBytes payload offset).map (EntryReader.shift k) := by
  rw [decodeParts_congr backend hopt hkey]
  change _ = EntryReader.shift k <$> _
  simp only [decodeParts, map_bind]
  refine bind_congr fun _ => bind_congr fun _ => bind_congr fun _ => bind_congr fun _ =>
    bind_congr fun _ => bind_congr fun _ => bind_congr fun named => ?_
  obtain ⟨name, kind, target⟩ := named
  by_cases hlt : offset < lfh.headerSize.toNat
  · have hk : k = 0 := by
      by_contra hne
      have := hoff hne
      omega
    rw [rejectIf_of hlt, rejectIf_of (show offset + k < _ by omega)]
    rfl
  · have hlt' : ¬ offset + k < lfh.headerSize.toNat := by omega
    have hsub : offset + k - lfh.headerSize.toNat = offset - lfh.headerSize.toNat + k := by omega
    simp only [Except.rejectIf_of_not hlt, Except.rejectIf_of_not hlt', ok_bind, hsub]
    rfl

theorem pendingPayload_eq_ok_iff {pending : PendingEntry} {len : ℕ} :
    p.pendingPayload = .ok (pending, len) ↔ p.pendingEntry = some pending ∧
      p.options.limits.allocationLen pending.lfh.payloadSize.toNat "payload length usize" =
        .ok len := by
  simp only [pendingPayload, Except.bind_eq_ok_iff, Except.okOr_eq_ok_iff, pure_eq_ok,
    Except.ok.injEq, Prod.mk.injEq]
  constructor
  · rintro ⟨_, hpending, _, hlen, rfl, rfl⟩
    exact ⟨hpending, hlen⟩
  · rintro ⟨hpending, hlen⟩
    exact ⟨pending, hpending, len, hlen, rfl, rfl⟩

theorem kmsWindow_eq_false_iff (hstate : p.state = .needGlobalHeader) (h8 : 8 ≤ p.available)
    (hn : 8 + headerFlagsSize (p.unread.take 8) ≤ p.available) :
    p.kmsWindow = false ↔
      let n := headerFlagsSize (p.unread.take 8)
      ((p.announcedFlags n).encrypted = true → kmsPrefixStart n (p.announcedFlags n) ≤ p.available →
        kmsPrefixStart n (p.announcedFlags n) + 5 ≤ p.available) := by
  simp only [kmsWindow, hstate, decide_true, Bool.true_and, peek_of_le h8, peek_of_le hn]
  simp only [announcedFlags, Bool.and_eq_false_iff, decide_eq_false_iff_not, not_le, not_lt]
  constructor
  · rintro ((henc | hlt) | hle) henc' hle'
    · exact absurd henc' (by simp [henc])
    · omega
    · exact hle
  · intro hw
    by_cases henc : (flagsOfBytes ((p.unread.take (8 + headerFlagsSize (p.unread.take 8))).drop
        8)).encrypted = true
    · rcases Nat.lt_or_ge p.available (kmsPrefixStart (headerFlagsSize (p.unread.take 8))
        (flagsOfBytes ((p.unread.take (8 + headerFlagsSize (p.unread.take 8))).drop 8))) with
        hlt | hge
      · exact .inl (.inr hlt)
      · exact .inr (hw henc hge)
    · exact .inl (.inl (by simpa using henc))

theorem requiredGlobalHeaderBytes_of_lt (h8 : p.available < 8) :
    p.requiredGlobalHeaderBytes = .ok none := by
  simp only [requiredGlobalHeaderBytes, peek_of_lt h8, pure_eq_ok]

section Grown

variable (h : Grown v b k p q)

include h

theorem tracks_decodePendingEntry :
    Tracks v b k (EntryReader.shift k) (decodePendingEntry backend p)
      (decodePendingEntry backend q) := by
  simp only [decodePendingEntry, bind_apply, current_apply, andThen_ok, h.archive, h.pendingEntry]
  refine Tracks.andThen (.lift_same _ h) fun archive s t _ hst => ?_
  have hpending : ∀ e : SarError, okOr (p.pendingEntry.map (PendingEntry.shift k)) e =
      (okOr p.pendingEntry e).map (PendingEntry.shift k) := by
    intro e
    cases p.pendingEntry <;> rfl
  refine Tracks.andThen (.lift (hpending _) hst) fun pending s t hpend hst => ?_
  have hplaced := (h.placed · pending (Except.okOr_eq_ok_iff.mp (Prod.mk.inj hpend).1))
  have hout : Grown v b k { s with pendingEntry := none } { t with pendingEntry := none } :=
    { hst with pendingEntry := rfl, placed := fun _ _ hnone => by cases hnone }
  refine Tracks.andThen (.update hout) fun _ s t _ hst => ?_
  refine Tracks.andThen (.lift_same _ hst) fun payload s t _ hst => ?_
  have hparts := decodeParts_shift backend h.options h.keyProvider archive pending.lfh
    pending.lfhBytes payload hplaced
  refine Tracks.andThen (.lift hparts hst) fun entry s t _ hst => ?_
  refine Tracks.andThen (.lift_same _ hst) fun _ s t _ hst => ?_
  exact ⟨rfl, { hst with archive := rfl }⟩

theorem follows_stepTransformingEntry :
    Follows backend v b k (stepTransformingEntry backend p) (stepTransformingEntry backend q) := by
  refine Follows.andThen (tracks_decodePendingEntry backend h) fun entry s t _ hst => ?_
  exact .ready { hst with state := rfl }

/-- The archive is over, on both sides. -/
theorem follows_stepArchiveComplete :
    Follows backend v b k (stepArchiveComplete p) (stepArchiveComplete q) := by
  have harch := h.archive
  rcases hp : p.archive with _ | archive
  · rw [stepArchiveComplete_of_none hp, stepArchiveComplete_of_none (harch.trans hp)]
    exact .error h
  · rw [stepArchiveComplete_of_some hp, stepArchiveComplete_of_some (harch.trans hp)]
    exact .ready { h with
      archive := rfl, pendingEntry := rfl, state := rfl, placed := fun _ _ hnone => nomatch hnone }

theorem Grown.announcedFlags {n : ℕ} (hn : 8 + n ≤ p.available) :
    q.announcedFlags n = p.announcedFlags n := by
  rw [StreamArchiveParser.announcedFlags, h.take hn]
  rfl

theorem requiredWithFlags_grown {n : ℕ} (hn : 8 + n ≤ p.available)
    (hwindow : (p.announcedFlags n).encrypted = true → kmsPrefixStart n (p.announcedFlags n) ≤
      p.available → kmsPrefixStart n (p.announcedFlags n) + 5 ≤ p.available) :
    q.requiredWithFlags n = p.requiredWithFlags n ∨
      ∃ needed, p.requiredWithFlags n = .ok needed ∧ p.available < needed := by
  rw [requiredWithFlags_of_le hn, requiredWithFlags_of_le (h.le_available hn),
    h.announcedFlags hn, h.options]
  by_cases henc : (p.announcedFlags n).encrypted = true
  · by_cases hkms : kmsPrefixStart n (p.announcedFlags n) + 5 ≤ p.available
    · left
      simp only [henc, hkms, h.le_available hkms, h.take hkms]
    · right
      refine ⟨kmsPrefixStart n (p.announcedFlags n), ?_, ?_⟩
      · simp only [henc, hkms, decide_false, Bool.and_false, Bool.false_eq_true, if_false,
          pure_eq_ok]
      · exact Nat.not_le.mp fun hle => hkms (hwindow henc hle)
  · left
    simp only [henc, Bool.false_and, Bool.false_eq_true, if_false]

/-- Outside the window the length asked for is either final, or more than is there. -/
theorem requiredGlobalHeaderBytes_grown (hstate : p.state = .needGlobalHeader)
    (hwindow : v ≠ [] → p.kmsWindow = false) :
    q.requiredGlobalHeaderBytes = p.requiredGlobalHeaderBytes ∨
      v ≠ [] ∧ (p.requiredGlobalHeaderBytes = .ok none ∨
        ∃ needed, p.requiredGlobalHeaderBytes = .ok (some needed) ∧ p.available < needed) := by
  by_cases hv : v = []
  · have hunread : q.unread = p.unread := by rw [h.unread, hv, append_nil]
    left
    simp only [requiredGlobalHeaderBytes, requiredWithFlags, peek_eq, available_eq, hunread,
      h.options]
  by_cases h8 : 8 ≤ p.available
  · simp only [requiredGlobalHeaderBytes, h.peek h8, peek_of_le h8, h.options]
    rcases hfixed : checkedFlagsSize p.options.limits (p.unread.take 8) with e | n
    · left
      rfl
    obtain ⟨-, -, -, rfl⟩ := checkedFlagsSize_eq_ok_iff.mp hfixed
    simp only [ok_bind]
    by_cases hn : 8 + headerFlagsSize (p.unread.take 8) ≤ p.available
    · rw [if_pos hn, if_pos (h.le_available hn)]
      have hw := (kmsWindow_eq_false_iff hstate h8 hn).mp (hwindow hv)
      rcases requiredWithFlags_grown h hn hw with heq | ⟨needed, hneeded, hlt⟩
      · exact .inl (by rw [heq])
      · exact .inr ⟨hv, .inr ⟨needed, by rw [hneeded]; rfl, hlt⟩⟩
    · rw [if_neg hn]
      exact .inr ⟨hv, .inr ⟨_, rfl, Nat.not_le.mp hn⟩⟩
  · exact .inr ⟨hv, .inl (requiredGlobalHeaderBytes_of_lt (Nat.not_le.mp h8))⟩

theorem follows_stepReadGlobalHeader (hle : n ≤ p.available) :
    Follows backend v b k (stepReadGlobalHeader n p) (stepReadGlobalHeader n q) := by
  have hle' := h.le_available hle
  have hparse : parseGlobalHeader (q.unread.take n) q.options.limits =
      parseGlobalHeader (p.unread.take n) p.options.limits := by rw [h.take hle, h.options]
  rcases hres : parseGlobalHeader (p.unread.take n) p.options.limits with e | ⟨header, read⟩
  · rw [stepReadGlobalHeader_parse_error hle hres,
      stepReadGlobalHeader_parse_error hle' (hparse.trans hres)]
    exact .error h
  by_cases hread : read = n
  · rw [hread] at hres
    rw [stepReadGlobalHeader_read hle hres, stepReadGlobalHeader_read hle' (hparse.trans hres)]
    refine Follows.andThen (.lift_same _ h) fun _ s t hs hst => ?_
    obtain ⟨-, rfl⟩ := lift_eq_ok_iff.mp hs
    refine Follows.andThen (tracks_consume hle hst) fun _ s t _ hst => ?_
    exact .ready { hst with archive := rfl, state := rfl }
  · rw [stepReadGlobalHeader_length_error hle hres hread,
      stepReadGlobalHeader_length_error hle' (hparse.trans hres) hread]
    exact .error { h with state := rfl }

variable (hfin : p.finalized = true → v = [])

include hfin

/-- Not enough bytes. The longer input may be told that it has ended, or have them. -/
theorem follows_awaitBytes {msg : String}
    (hsame : v = [] → q.finalized = p.finalized → step backend q = awaitBytes n msg q)
    (hend : v = [] → q.finalized = true → step backend q = awaitBytes n msg q ∨ Finishes q (step
      backend q)) :
    Follows backend v b k (awaitBytes n msg p) (step backend q) := by
  have hq := h.finalized
  rcases hp : p.finalized with _ | _
  · rw [awaitBytes_of_not_finalized hp]
    refine .wait h fun hv => ⟨fun hb => ?_, fun hb => ?_⟩
    · have hfalse : q.finalized = false := by rw [hq, hp, hb]; rfl
      rw [hsame hv (hfalse.trans hp.symm), awaitBytes_of_not_finalized hfalse]
    · have htrue : q.finalized = true := by rw [hq, hb, Bool.or_true]
      refine (hend hv htrue).imp_left fun heq => ?_
      exact ⟨_, _, heq.trans (awaitBytes_of_finalized htrue n msg), rfl⟩
  · have htrue : q.finalized = true := by rw [hq, hp, Bool.true_or]
    rw [hsame (hfin hp) (htrue.trans hp.symm), awaitBytes_of_finalized hp,
      awaitBytes_of_finalized htrue]
    exact .error { h with state := rfl }

theorem follows_stepNeedPayload (hstate : p.state = .needPayload) :
    Follows backend v b k (stepNeedPayload backend p) (stepNeedPayload backend q) := by
  have hpending : q.pendingPayload = p.pendingPayload.map fun r => (r.1.shift k, r.2) := by
    simp only [pendingPayload, h.pendingEntry, h.options]
    rcases p.pendingEntry with _ | pending
    · rfl
    · simp only [Option.map_some, Except.okOr_some, ok_bind]
      change (do let len ← p.options.limits.allocationLen pending.lfh.payloadSize.toNat _; _) = _
      cases p.options.limits.allocationLen pending.lfh.payloadSize.toNat
        "payload length usize" <;> rfl
  rcases hres : p.pendingPayload with e | ⟨pending, len⟩ <;> rw [hres] at hpending
  · rw [stepNeedPayload_error backend hres, stepNeedPayload_error backend hpending]
    exact .error h
  have hstep : step backend q = stepNeedPayload backend q :=
    step_of_needPayload backend (h.state.trans hstate)
  by_cases hlen : p.available < len
  · have hwait : v = [] → step backend q =
        awaitBytes len "incomplete payload at end of stream" q := by
      rintro rfl
      exact hstep.trans (stepNeedPayload_wait backend hpending (h.available ▸ hlen))
    rw [stepNeedPayload_wait backend hres hlen, ← hstep]
    exact follows_awaitBytes backend h hfin (fun hv _ => hwait hv) fun hv _ => .inl (hwait hv)
  · have hle := Nat.not_lt.mp hlen
    rw [stepNeedPayload_read backend hres hle,
      stepNeedPayload_read backend hpending (h.le_available hle), h.take hle]
    refine Follows.andThen (tracks_consume hle h) fun _ s t hs hst => ?_
    refine follows_stepTransformingEntry backend
      { hst with state := rfl, pendingEntry := rfl, placed := fun hk found hfound => ?_ }
    obtain rfl := Option.some.inj hfound
    exact h.placed hk pending (pendingPayload_eq_ok_iff.mp hres).1

theorem follows_stepReadLfh {flags : GlobalFlags} (hle : n ≤ p.available) :
    Follows backend v b k (stepReadLfh backend flags n p) (stepReadLfh backend flags n q) := by
  have hle' := h.le_available hle
  have hparse : parseLfh (q.unread.take n) flags q.options.limits =
      parseLfh (p.unread.take n) flags p.options.limits := by rw [h.take hle, h.options]
  rcases hres : parseLfh (p.unread.take n) flags p.options.limits with e | ⟨lfh, read⟩
  · rw [stepReadLfh_parse_error backend hle hres,
      stepReadLfh_parse_error backend hle' (hparse.trans hres)]
    exact .error h
  by_cases hread : read = n
  · rw [hread] at hres
    rw [stepReadLfh_read backend hle hres, stepReadLfh_read backend hle' (hparse.trans hres),
      h.take hle, h.options]
    refine Follows.andThen (tracks_consume hle h) fun _ s t hs hst => ?_
    obtain ⟨_, -, rfl⟩ := consume_eq_ok_iff.mp hs
    -- the limit is checked on the consumed parser, and the same way on both sides
    refine Follows.andThen (.lift_same _ hst) fun len _ t hs hst => ?_
    obtain ⟨-, rfl⟩ := lift_eq_ok_iff.mp hs
    have hoff : lfh.headerSize.toNat ≤ (p.advance n hle).absoluteOffset := by
      rw [(parseLfh_eq_ok hres).1, absoluteOffset_advance]
      omega
    have hpending : Grown v b k ((p.advance n hle).withPending lfh (p.unread.take n))
        (t.withPending lfh (p.unread.take n)) :=
      { hst with
        state := rfl
        pendingEntry := congrArg (fun off => some (PendingEntry.mk lfh _ off none))
          hst.absoluteOffset
        placed := fun _ pending hsome => Option.some.inj hsome ▸ hoff }
    exact follows_stepNeedPayload backend hpending
      (fun htrue => hfin (finalized_advance hle ▸ htrue)) rfl
  · rw [stepReadLfh_length_error backend hle hres hread,
      stepReadLfh_length_error backend hle' (hparse.trans hres) hread]
    exact .error { h with state := rfl }

theorem follows_stepLfhSize {flags : GlobalFlags} {bytes : Bytes}
    (hstep : step backend q = stepLfhSize backend flags bytes q) :
    Follows backend v b k (stepLfhSize backend flags bytes p) (step backend q) := by
  have hlimit : q.options.limits.checkLfhHeaderBytes (leNat bytes) =
      p.options.limits.checkLfhHeaderBytes (leNat bytes) := by rw [h.options]
  rcases hres : p.options.limits.checkLfhHeaderBytes (leNat bytes) with e | _
  · rw [hstep, stepLfhSize_limit_error backend hres,
      stepLfhSize_limit_error backend (hlimit.trans hres)]
    exact .error h
  rw [stepLfhSize_ok backend (hlimit.trans hres)] at hstep
  rw [stepLfhSize_ok backend hres]
  by_cases hsmall : leNat bytes < 4
  · rw [hstep, if_pos hsmall, if_pos hsmall]
    exact .error { h with state := rfl }
  rw [if_neg hsmall] at hstep ⊢
  by_cases hlen : p.available < leNat bytes
  · rw [if_pos hlen]
    have hwait : v = [] → step backend q =
        awaitBytes (leNat bytes) "incomplete LFH at end of stream" q := by
      rintro rfl
      exact hstep.trans (if_pos (h.available ▸ hlen))
    exact follows_awaitBytes backend h hfin (fun hv _ => hwait hv) fun hv _ => .inl (hwait hv)
  · have hle := Nat.not_lt.mp hlen
    rw [hstep, if_neg hlen, if_neg (Nat.not_lt.mpr (h.le_available hle))]
    exact follows_stepReadLfh backend h hfin hle

theorem follows_stepNeedLocalFileHeader (hstate : p.state = .needLocalFileHeader) :
    Follows backend v b k (stepNeedLocalFileHeader backend p)
      (stepNeedLocalFileHeader backend q) := by
  have harch := h.archive
  have hstep := step_of_needLocalFileHeader backend (h.state.trans hstate)
  rcases hres : p.archive with _ | archive
  · rw [stepNeedLocalFileHeader_of_none backend hres,
      stepNeedLocalFileHeader_of_none backend (harch.trans hres)]
    exact .error h
  have hq := stepNeedLocalFileHeader_of_some backend (harch.trans hres)
  rw [stepNeedLocalFileHeader_of_some backend hres]
  by_cases hzero : p.available = 0
  · rw [if_pos hzero]
    have hzero' : v = [] → q.available = 0 := by
      rintro rfl
      exact h.available.trans hzero
    rcases hp : p.finalized with _ | _
    · rw [if_neg (by decide), ← hstep]
      refine .wait h fun hv => ⟨fun hb => ?_, fun hb => .inr ⟨hzero' hv, .inr ⟨?_, ?_, ?_⟩⟩⟩
      · rw [hstep, hq, if_pos (hzero' hv), h.finalized, hp, hb]
        rfl
      · exact h.state.trans hstate
      · simp [harch, hres]
      · rw [hstep, hq, if_pos (hzero' hv), h.finalized, hb, Bool.or_true, if_pos rfl]
    · rw [if_pos rfl, hq, if_pos (hzero' (hfin hp)), h.finalized, hp, Bool.true_or, if_pos rfl]
      exact follows_stepArchiveComplete backend { h with state := rfl }
  rw [if_neg hzero]
  have hzero' : q.available ≠ 0 := by
    rw [h.available]
    omega
  by_cases hfour : 4 ≤ p.available
  · rw [if_neg hzero', if_pos (h.le_available hfour), h.take hfour] at hq
    rw [if_pos hfour]
    by_cases hmagic : p.unread.take 4 = magic
    · rw [hq, if_pos hmagic, if_pos hmagic]
      exact follows_stepArchiveComplete backend { h with state := rfl }
    · rw [if_neg hmagic] at hq ⊢
      rw [← hstep]
      exact follows_stepLfhSize backend h hfin (hstep.trans hq)
  · rw [if_neg hfour, ← hstep]
    have hwait : v = [] → step backend q =
        awaitBytes 4 "incomplete LFH prefix at end of stream" q := by
      rintro rfl
      rw [hstep, hq, if_neg hzero', if_neg (h.available ▸ hfour)]
    exact follows_awaitBytes backend h hfin (fun hv _ => hwait hv) fun hv _ => .inl (hwait hv)

theorem follows_stepNeedGlobalHeader (hstate : p.state = .needGlobalHeader)
    (hwindow : v ≠ [] → p.kmsWindow = false) :
    Follows backend v b k (stepNeedGlobalHeader p) (stepNeedGlobalHeader q) := by
  have hstep := step_of_needGlobalHeader backend (h.state.trans hstate)
  have hgrown := requiredGlobalHeaderBytes_grown h hstate hwindow
  by_cases hend : (p.finalized && p.available == 0) = true
  · -- nothing is left, and nothing can come
    obtain ⟨htrue, hzero⟩ := Bool.and_eq_true_iff.mp hend
    have hend' : (q.finalized && q.available == 0) = true := by
      rw [h.finalized, htrue, h.available, hfin htrue]
      exact hzero
    rw [stepNeedGlobalHeader_of_end hend, stepNeedGlobalHeader_of_end hend']
    exact .complete h
  have hp : (p.finalized && p.available == 0) = false := by simpa using hend
  have hreq : v = [] → q.requiredGlobalHeaderBytes = p.requiredGlobalHeaderBytes :=
    fun hv => hgrown.resolve_right fun hne => hne.1 hv
  have hawait : ∀ n, (v = [] → (q.finalized && q.available == 0) = false →
      stepNeedGlobalHeader q = awaitBytes n "incomplete global header at end of stream" q) →
      Follows backend v b k (awaitBytes n "incomplete global header at end of stream" p)
        (stepNeedGlobalHeader q) := by
    intro n hn
    rw [← hstep] at hn ⊢
    refine follows_awaitBytes backend h hfin (fun hv heq => hn hv ?_) fun hv _ => ?_
    · rw [heq, h.available, hv]
      exact hp
    · by_cases hz : (q.finalized && q.available == 0) = true
      · have hzero : q.available = 0 := by simpa using (Bool.and_eq_true_iff.mp hz).2
        exact .inr ⟨hzero, .inl ⟨h.state.trans hstate, by
          rw [hstep, stepNeedGlobalHeader_of_end hz]⟩⟩
      · exact .inl (hn hv (by simpa using hz))
  have hq : p.requiredGlobalHeaderBytes ≠ .ok none → (q.finalized && q.available == 0) = false := by
    intro hne
    have h8 : 8 ≤ p.available := Nat.not_lt.mp fun hlt => hne (requiredGlobalHeaderBytes_of_lt hlt)
    have h8' := h.le_available h8
    rw [beq_false_of_ne (by omega), Bool.and_false]
  rcases hres : p.requiredGlobalHeaderBytes with e | _ | n
  · -- a rejected start is rejected whatever follows it
    rcases hgrown with heq | ⟨-, hnone | ⟨n, hsome, -⟩⟩
    · rw [stepNeedGlobalHeader_error hp hres,
        stepNeedGlobalHeader_error (hq (by simp [hres])) (heq.trans hres)]
      exact .error h
    · cases hnone.symm.trans hres
    · cases hsome.symm.trans hres
  · rw [stepNeedGlobalHeader_none hp hres]
    exact hawait 8 fun hv hq => stepNeedGlobalHeader_none hq ((hreq hv).trans hres)
  · rw [stepNeedGlobalHeader_some hp hres]
    by_cases hlen : p.available < n
    · rw [if_pos hlen]
      refine hawait n fun hv hq => ?_
      rw [stepNeedGlobalHeader_some hq ((hreq hv).trans hres), h.available, hv]
      exact if_pos hlen
    · have hle := Nat.not_lt.mp hlen
      have hres' : q.requiredGlobalHeaderBytes = .ok (some n) := by
        rcases hgrown with heq | ⟨-, hnone | ⟨k, hsome, hlt⟩⟩
        · exact heq.trans hres
        · cases hnone.symm.trans hres
        · obtain rfl : k = n := by simpa using hsome.symm.trans hres
          exact absurd hlt hlen
      rw [stepNeedGlobalHeader_some (hq (by simp [hres])) hres', if_neg hlen,
        if_neg (Nat.not_lt.mpr (h.le_available hle))]
      exact follows_stepReadGlobalHeader backend h hle

/-- One step, on what has arrived and on more. -/
theorem follows_step (hwindow : v ≠ [] → p.kmsWindow = false) :
    Follows backend v b k (step backend p) (step backend q) := by
  have hstate := h.state
  rcases hres : p.state with _ | _ | _ | _ | _ | _ | _ | _
  · rw [step_of_needGlobalHeader backend hres, step_of_needGlobalHeader backend (hstate.trans hres)]
    exact follows_stepNeedGlobalHeader backend h hfin hres hwindow
  · rw [step_of_needLocalFileHeader backend hres,
      step_of_needLocalFileHeader backend (hstate.trans hres)]
    exact follows_stepNeedLocalFileHeader backend h hfin hres
  · rw [step_of_needPayload backend hres, step_of_needPayload backend (hstate.trans hres)]
    exact follows_stepNeedPayload backend h hfin hres
  · rw [step_of_transformingEntry backend hres,
      step_of_transformingEntry backend (hstate.trans hres)]
    exact follows_stepTransformingEntry backend h
  · rw [step_of_entryReady backend hres, step_of_entryReady backend (hstate.trans hres)]
    exact follows_stepNeedLocalFileHeader backend { h with state := rfl } hfin rfl
  · rw [step_of_needCentralDictionaryOrFooter backend hres,
      step_of_needCentralDictionaryOrFooter backend (hstate.trans hres)]
    exact .error { h with state := rfl }
  · rw [step_of_archiveComplete backend hres, step_of_archiveComplete backend (hstate.trans hres)]
    exact follows_stepArchiveComplete backend h
  · rw [step_of_error backend hres, step_of_error backend (hstate.trans hres)]
    exact .error h

end Grown

/-- `step` depends on the buffer only through the unread bytes. -/
theorem step_congr (h : q.compact = p.compact) :
    (step backend q).1 = (step backend p).1 ∧
      (step backend q).2.compact = (step backend p).2.compact := by
  have hfollows := follows_step backend (grown_nil_iff.mpr h) (fun _ => rfl)
    fun hne => absurd rfl hne
  generalize step backend p = x at hfollows
  generalize hy : step backend q = y at hfollows
  cases hfollows with
  | ready hgrown => exact ⟨by rw [StreamEvent.shift_zero], grown_nil_iff.mp hgrown⟩
  | complete hgrown => exact ⟨rfl, grown_nil_iff.mp hgrown⟩
  | error hgrown => exact ⟨rfl, grown_nil_iff.mp hgrown⟩
  | @wait needed s t hgrown hsettles =>
    rw [(hsettles rfl).waits rfl]
    exact ⟨rfl, grown_nil_iff.mp hgrown⟩

end Phases

end StreamArchiveParser

end Sar
