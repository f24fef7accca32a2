import Sar.Delta.Rfc3284
import Sar.Delta.Vcdiff
import Mathlib.Data.List.GetD

/-!
# VCDIFF decoding against RFC 3284

`apply_vcdiff` follows the decoding procedure of RFC 3284 with three differences: most rows of its
code table are not those of the default code table, a `COPY` may not run into the bytes that it
writes itself, and no instruction may follow once the target window is full. On a delta file that
uses only the rows the two tables share, the decoder returns the target of the RFC exactly if the
other two differences do not matter.

* `readVarint_exact` — integers are read as the RFC defines them.
* `sharedCode_iff` — the instruction codes on which the tables agree.
* `applyInst_writes`, `applyInstLoop_writes` — one instruction, and the instructions of a window,
  next to the procedure of the RFC.
* `applyVcdiff_rfc3284_iff` — whole delta files.
-/

namespace Sar

open ByteParser List
open Except (rejectIf SucceedsIff ok_bind rejectIf_of_not rejectIf_bind)
open Rfc3284 (Cache Instruction Round Sections Template Window Mode Segment IsInteger
  IsIntegerFrom IsSize WritesAll RoundsWrite FileIsWritten SegmentIsWritten execAll templates
  updateAll decodeFile decodeFrom copyLoop_of_le length_of_execAll execAll_append)

/-! ### Integers and addresses -/

theorem readVarintFrom_of_isIntegerFrom {v n : ℕ} {bs : Bytes}
    (h : IsIntegerFrom v bs n) (hn : n ≤ u64Max) (pos : ℕ) (r : Bytes) :
    readVarintFrom v pos (bs ++ r) = .ok (n, ⟨pos + bs.length, r⟩) := by
  induction h generalizing pos with
  | last hb =>
    rename_i v b
    have hfit : ¬ v > u64Max / 128 := by omega
    rw [singleton_append, readVarintFrom, if_neg hfit, if_pos hb]
    rfl
  | more hb hrest ih =>
    rename_i v n b bs
    have hle := hrest.mul_le
    have hfit : ¬ v > u64Max / 128 := by omega
    rw [cons_append, readVarintFrom, if_neg hfit]
    dsimp only
    rw [if_neg hb, ih hn, length_cons]
    congr 3
    omega

/-- An integer of 64 bits is read as the RFC says. -/
theorem reads_varint_of_isInteger {bs : Bytes} {n : ℕ} (h : IsInteger bs n)
    (hn : n ≤ u64Max) : Reads readVarint bs n :=
  fun pos r => readVarintFrom_of_isIntegerFrom h hn pos r

/-- What is read is an integer as the RFC says, below `2 ^ 64`. -/
theorem isIntegerFrom_of_readVarintFrom {v pos n : ℕ} {bs : Bytes} {c : Cursor}
    (h : readVarintFrom v pos bs = .ok (n, c)) :
    ∃ ds, bs = ds ++ c.rest ∧ IsIntegerFrom v ds n ∧ n < 2 ^ 64 := by
  induction bs generalizing v pos with
  | nil => cases h
  | cons b bs ih =>
    rw [readVarintFrom] at h
    split at h
    · cases h
    · rename_i hfit
      dsimp only at h
      split at h
      · rename_i hb
        cases h
        have hdigit : (b &&& 0x7F).toNat < 128 := by
          rw [UInt8.toNat_and]
          exact Nat.and_lt_two_pow _ (by decide : (0x7F : ℕ) < 2 ^ 7)
        have hmax : u64Max = 2 ^ 64 - 1 := rfl
        exact ⟨[b], rfl, .last hb, by omega⟩
      · rename_i hb
        obtain ⟨ds, rfl, hds, hn⟩ := ih h
        exact ⟨b :: ds, rfl, .more hb hds, hn⟩

theorem varintDigit_or : ∀ n < 128,
    ((UInt8.ofNat n ||| 0x80) &&& 0x7F).toNat = n ∧ (UInt8.ofNat n ||| 0x80) &&& 0x80 ≠ 0 := by
  decide

/-- The digits of a number, with their continuation bits, bring a reader to that number. -/
theorem isIntegerFrom_varintDigits {fuel n m : ℕ} {tail : Bytes} (hfuel : n < 128 ^ fuel)
    (htail : IsIntegerFrom n tail m) :
    IsInteger ((varintDigits fuel n).reverse.map (· ||| 0x80) ++ tail) m := by
  induction fuel generalizing n tail with
  | zero =>
    obtain rfl : n = 0 := by simpa using hfuel
    exact htail
  | succ fuel ih =>
    rw [varintDigits]
    split
    · subst n
      exact htail
    · have hdigit := varintDigit_or (n % 128) (Nat.mod_lt n (by decide))
      rw [reverse_cons, map_append, append_assoc]
      refine ih (Nat.div_lt_of_lt_mul (by rwa [pow_succ'] at hfuel)) (.more hdigit.2 ?_)
      rwa [hdigit.1, Nat.div_add_mod']

/-- What `encode_varint` writes is the integer. -/
theorem isInteger_encodeVarint {v : ℕ} (hv : v ≤ u64Max) : IsInteger (encodeVarint v) v := by
  rw [encodeVarint, varintDigits]
  by_cases h0 : v = 0
  · subst h0
    exact .last rfl
  · have hlast := varintDigit_and (v % 128) (Nat.mod_lt v (by decide))
    have hquot : v / 128 < 128 ^ 9 := Nat.div_lt_of_lt_mul (hv.trans_lt (by decide))
    rw [if_neg h0]
    refine isIntegerFrom_varintDigits hquot ?_
    have h := IsIntegerFrom.last (v := v / 128) hlast.2
    rwa [hlast.1, Nat.div_add_mod'] at h

/-- **Varints**: what `encode_varint` writes is read back in front of any bytes, and `read_varint`
reads exactly the integers of the RFC below `2 ^ 64`, redundant leading digits included. -/
theorem readVarint_exact :
    (∀ (v : UInt64) (pos : ℕ) (r : Bytes), readVarint ⟨pos, encodeVarint v.toNat ++ r⟩ =
      .ok (v.toNat, ⟨pos + (encodeVarint v.toNat).length, r⟩)) ∧
    ∀ (pos : ℕ) (bs : Bytes) (v : ℕ), (∃ c, readVarint ⟨pos, bs⟩ = .ok (v, c)) ↔
      ∃ ds r, bs = ds ++ r ∧ IsInteger ds v ∧ v < 2 ^ 64 := by
  refine ⟨fun v pos r => ?_, fun pos bs v => ⟨?_, ?_⟩⟩
  · have hv : v.toNat ≤ u64Max := Nat.le_sub_one_of_lt v.toNat_lt
    exact reads_varint_of_isInteger (isInteger_encodeVarint hv) hv pos r
  · rintro ⟨c, h⟩
    obtain ⟨ds, hbs, hds, hv⟩ := isIntegerFrom_of_readVarintFrom h
    exact ⟨ds, c.rest, hbs, hds, hv⟩
  · rintro ⟨ds, r, rfl, hds, hv⟩
    exact ⟨_, reads_varint_of_isInteger hds (Nat.le_sub_one_of_lt hv) pos r⟩

/-- The number of an address mode. -/
def modeNumber : Mode → ℕ
  | .self => 0
  | .here => 1
  | .near i => 2 + i
  | .same i => 6 + i

/-- The two caches hold the same addresses. -/
structure CacheAgrees (cache : AddrCache) (r : Cache) : Prop where
  near_length : cache.near.length = 4
  same_length : cache.same.length = 768
  near : ∀ i : Fin 4, cache.near.getD i 0 = r.near i
  same : ∀ i : Fin 768, cache.same.getD i 0 = r.same i
  next : cache.nearNext % 4 = r.nextSlot

theorem cacheAgrees_new : CacheAgrees AddrCache.new Cache.init where
  near_length := length_replicate
  same_length := length_replicate
  near i := getD_replicate 0 i.isLt
  same i := getD_replicate 0 i.isLt
  next := rfl

theorem getD_set {l : List ℕ} {i j : ℕ} (hi : i < l.length) (a : ℕ) :
    (l.set j a).getD i 0 = if i = j then a else l.getD i 0 := by
  rw [getD_eq_getElem?_getD, List.getElem?_set, getD_eq_getElem?_getD]
  by_cases heq : j = i
  · rw [if_pos heq, if_pos heq.symm, if_pos (heq ▸ hi), Option.getD_some]
  · rw [if_neg heq, if_neg (Ne.symm heq)]

/-- Both caches note an address in the same slots. -/
theorem CacheAgrees.update {cache : AddrCache} {r : Cache} (h : CacheAgrees cache r)
    (address : ℕ) : CacheAgrees (cache.update address) (r.update address) where
  near_length := length_set.trans h.near_length
  same_length := length_set.trans h.same_length
  near i := by
    change (cache.near.set _ address).getD i 0 = Function.update r.near r.nextSlot address i
    rw [getD_set (i.isLt.trans_eq h.near_length.symm), Function.update_apply, h.next, h.near]
    simp only [Fin.ext_iff]
  same i := by
    change (cache.same.set _ address).getD i 0 =
      Function.update r.same (Fin.ofNat 768 address) address i
    rw [getD_set (i.isLt.trans_eq h.same_length.symm), Function.update_apply, h.same]
    simp only [Fin.ext_iff, Fin.val_ofNat]
  next := by
    change (cache.nearNext + 1) % 4 = (r.nextSlot + 1 : Fin 4)
    rw [Fin.val_add, ← h.next]
    exact Nat.add_mod _ _ _

/-- An address that has been decoded is read as the RFC says. -/
theorem reads_decodeAddress {cache : AddrCache} {r : Cache} {here address : ℕ}
    {mode : Mode} {bs : Bytes} (hcache : CacheAgrees cache r)
    (h : r.IsAddress here mode address bs) (hle : address ≤ here) (hhere : here ≤ u64Max) :
    Reads (cache.decodeAddress (modeNumber mode) here) bs address := by
  cases h with
  | self h => exact reads_varint_of_isInteger h (by omega)
  | here _ h =>
    have hread := reads_varint_of_isInteger h (by omega)
    intro pos
    refine ReadsAt.bind_nil (hread pos) ?_
    refine ReadsAt.check_bind (rejectIf_of_not (by omega)) ?_
    rw [Nat.sub_sub_self hle]
    exact Reads.pure address _
  | near h =>
    rename_i i n
    have hi := i.isLt
    have hread := reads_varint_of_isInteger h (by omega)
    have hnear : cache.near.getD (2 + i - 2) 0 = r.near i := by
      rw [Nat.add_sub_cancel_left, hcache.near]
    rw [modeNumber, AddrCache.decodeAddress, if_neg (by omega), if_neg (by omega),
      if_pos (by omega), hnear]
    intro pos
    refine ReadsAt.bind_nil (hread pos) ?_
    refine ReadsAt.check_bind (rejectIf_of_not (by omega)) ?_
    exact Reads.pure _ _
  | same =>
    rename_i i b
    have hi := i.isLt
    have hb := b.toNat_lt
    have hsame : cache.same.getD ((6 + i - 6) * 256 + b.toNat) 0 =
        r.same (Fin.ofNat 768 (i * 256 + b.toNat)) := by
      rw [← hcache.same, Fin.val_ofNat, Nat.add_sub_cancel_left, Nat.mod_eq_of_lt (by omega)]
    rw [modeNumber, AddrCache.decodeAddress, if_neg (by omega), if_neg (by omega),
      if_neg (by omega), if_pos (by omega)]
    intro pos
    refine ReadsAt.bind_nil (reads_patchU8 b pos) ?_
    rw [hsame]
    exact Reads.pure _ _

/-! ### The code tables -/

/-- A template of the RFC as an instruction of a code entry. -/
def instDef (t : Template) : InstDef :=
  match t.type with
  | .add => ⟨.add, t.size⟩
  | .run => ⟨.run, t.size⟩
  | .copy mode => ⟨.copy (modeNumber mode), t.size⟩

/-- A row of the RFC's table as a code entry. -/
def rowEntry : List Template → CodeEntry
  | [t] => .single (instDef t)
  | [t, t'] => ⟨instDef t, instDef t'⟩
  | _ => .single .noop

/-- The instruction codes whose row is that of the RFC. -/
def sharedCode (code : UInt8) : Prop := code = 1 ∨ 19 ≤ code ∧ code ≤ 165

instance : DecidablePred sharedCode := fun code =>
  inferInstanceAs (Decidable (code = 1 ∨ 19 ≤ code ∧ code ≤ 165))

/-- **The rows that the tables share.** Of the default code table of RFC 3284 the decoder has row
1, rows 19 to 162 and three of the double rows. -/
theorem sharedCode_iff (code : UInt8) :
    sharedCode code ↔ codeEntry code = rowEntry (templates code) := by
  have hall : ∀ i : Fin 256, ((i : ℕ) = 1 ∨ 19 ≤ (i : ℕ) ∧ (i : ℕ) ≤ 165) ↔
      defaultCodeTable.getD i (.single .noop) =
        rowEntry (Rfc3284.defaultCodeTable.getD i []) := by
    decide +kernel
  have hcode := hall ⟨code.toNat, code.toNat_lt⟩
  rw [sharedCode, codeEntry, templates, ← hcode, ← UInt8.toNat_inj, UInt8.le_iff_toNat_le,
    UInt8.le_iff_toNat_le]
  rfl

theorem templates_length (code : UInt8) :
    (templates code).length = 1 ∨ (templates code).length = 2 := by
  have hall : ∀ i : Fin 256, (Rfc3284.defaultCodeTable.getD i []).length = 1 ∨
      (Rfc3284.defaultCodeTable.getD i []).length = 2 := by
    decide +kernel
  exact hall ⟨code.toNat, code.toNat_lt⟩

/-! ### One instruction -/

/-- The state of a window whose sections are still to be read. -/
structure WindowState.At (st : WindowState) (s : Sections) (r : Cache)
    (written : Bytes) : Prop where
  data : st.data.rest = s.data
  inst : st.inst.rest = s.inst
  addr : st.addr.rest = s.addr
  cache : CacheAgrees st.cache r
  written : st.written = written

/-- A `COPY` reads only what was decoded before it. -/
def NoOverlap (here : ℕ) : Instruction → Prop
  | .copy size address => address + size ≤ here
  | _ => True

theorem instSize_of_isSize {size n : ℕ} {ty : InstType} {bs r : Bytes} {c : Cursor}
    (h : IsSize size n bs) (hn : n ≤ u64Max) (hc : c.rest = bs ++ r) :
    ∃ pos, instSize ⟨ty, size⟩ c = .ok (n, ⟨pos, r⟩) := by
  cases h with
  | coded h => exact ⟨_, (reads_varint_of_isInteger h hn).run hc⟩
  | fixed h =>
    obtain ⟨pos, rest⟩ := c
    obtain rfl : rest = r := hc
    exact ⟨pos, if_neg h⟩

theorem WindowState.emit_eq_ok {st : WindowState} {start len size : ℕ} (name : String)
    (hfit : st.written.length + size ≤ len) (hlen : start + len ≤ u64Max) :
    st.emit start len name size = .ok () := by
  rw [emit, rejectIf_bind (by omega), rejectIf_of_not (by omega)]

theorem copyBytes_succ (source written : Bytes) (address size : ℕ) :
    copyBytes source written address (size + 1) =
      copyBytes source written address size >>= fun bytes =>
        copyByte source written (address + size) >>= fun b => pure (bytes ++ [b]) := by
  rw [copyBytes, range_succ, mapM_append]
  simp only [mapM_cons, mapM_nil, copyBytes]
  rcases (List.range size).mapM fun i => copyByte source written (address + i) with e | bytes
  · rfl
  · rcases copyByte source written (address + size) with e | b <;> rfl

/-- The byte loop of a copy gives up where the copy reaches what it writes itself. -/
theorem copyBytes_succeedsIff {source written : Bytes} {address : ℕ}
    (hle : address ≤ source.length + written.length) (size : ℕ) :
    SucceedsIff (address + size ≤ source.length + written.length)
      (· = ((source ++ written).drop address).take size)
      (copyBytes source written address size) := by
  induction size with
  | zero => exact ⟨fun _ => ⟨[], rfl, rfl⟩, fun hnot => absurd hle hnot⟩
  | succ size ih =>
    rw [copyBytes_succ]
    have hbyte : SucceedsIff (address + size < source.length + written.length)
        (fun b => (source ++ written)[address + size]? = some b)
        (copyByte source written (address + size)) := by
      rw [copyByte]
      split
      · next hsource =>
        refine (SucceedsIff.ok ?_).congr (iff_of_true trivial (by omega))
        rw [List.getElem?_append_left hsource, getD_eq_getElem _ _ hsource]
        exact List.getElem?_eq_getElem hsource
      · next hsource =>
        split
        · next hend => exact ⟨fun h => absurd h (by omega), fun _ => ⟨_, rfl⟩⟩
        · next hend =>
          have hin : address + size - source.length < written.length := by omega
          refine (SucceedsIff.ok ?_).congr (iff_of_true trivial (by omega))
          rw [List.getElem?_append_right (by omega), getD_eq_getElem _ _ hin]
          exact List.getElem?_eq_getElem hin
    refine (ih.bind fun bytes _ hbytes => hbyte.bind fun b _ hb => SucceedsIff.ok ?_).congr ?_
    · rw [hbytes, take_add_one, List.getElem?_drop, hb]
      rfl
    · simp only [and_true]
      omega

section Instruction

variable {source : Bytes} {start len : ℕ}

/-- **One instruction.** It is executed as the RFC says, unless it is a `COPY` that runs into what
it writes itself. -/
theorem applyInst_writes (hlen : start + len ≤ u64Max) (hhere : source.length + len ≤ u64Max)
    {t : Template} {i : Instruction} {s more : Sections} {r : Cache} {st : WindowState}
    {written written' : Bytes} (hwrites : t.Writes r (source.length + written.length) i s)
    (hexec : i.exec source written = some written') (hfit : written'.length ≤ len)
    (hst : st.At (s.append more) r written) :
    SucceedsIff (NoOverlap (source.length + written.length) i)
      (fun st' => st'.At more (i.update r) written')
      (applyInst source start len (instDef t) st) := by
  have hsize := Instruction.length_of_exec hexec
  have hsize' : i.size ≤ u64Max := by omega
  have hemit : ∀ name, st.emit start len name i.size = .ok () :=
    fun name => WindowState.emit_eq_ok name (by rw [hst.written]; omega) hlen
  cases hwrites with
  | @add _ bytes _ hsz =>
    obtain rfl := Option.some.inj hexec
    obtain ⟨ipos, hinst⟩ := @instSize_of_isSize _ _ .add _ _ _ hsz hsize' hst.inst
    have hdata := (reads_patchBytes bytes).run hst.data
    simp only [Instruction.size] at hemit
    rw [instDef, applyInst, if_neg (by simp), hinst, ok_bind]
    dsimp only
    rw [hdata, ok_bind]
    dsimp only
    rw [hemit, ok_bind]
    refine (SucceedsIff.ok ⟨rfl, rfl, hst.addr, hst.cache, ?_⟩).congr (iff_of_true trivial trivial)
    dsimp only
    rw [hst.written]
  | @run _ n byte _ hsz =>
    obtain rfl := Option.some.inj hexec
    obtain ⟨ipos, hinst⟩ := @instSize_of_isSize _ _ .run _ _ _ hsz hsize' hst.inst
    have hdata := (reads_patchU8 byte).run hst.data
    simp only [Instruction.size] at hemit
    rw [instDef, applyInst, if_neg (by simp), hinst, ok_bind]
    dsimp only
    rw [hdata, ok_bind]
    dsimp only
    rw [hemit, ok_bind]
    refine (SucceedsIff.ok ⟨rfl, rfl, hst.addr, hst.cache, ?_⟩).congr (iff_of_true trivial trivial)
    dsimp only
    rw [hst.written]
  | @copy _ n address mode _ _ hsz haddress =>
    rw [Instruction.exec] at hexec
    split at hexec
    · next hvalid =>
      obtain ⟨ipos, hinst⟩ :=
        @instSize_of_isSize _ _ (.copy (modeNumber mode)) _ _ _ hsz hsize' hst.inst
      have hread := (reads_decodeAddress hst.cache haddress hvalid.1 (by omega)).run hst.addr
      simp only [Instruction.size] at hemit
      rw [instDef, applyInst, if_neg (by simp), hinst, ok_bind]
      dsimp only
      rw [hst.written, hread, ok_bind]
      dsimp only
      rw [hemit, ok_bind]
      refine (SucceedsIff.of_rejectIf.bind fun _ _ _ =>
        (copyBytes_succeedsIff hvalid.1 n).bind fun bytes hle hbytes => SucceedsIff.ok ?_).congr
          (d := address + n ≤ source.length + written.length) ?_
      · rw [copyLoop_of_le hle] at hexec
        refine ⟨hst.data, rfl, rfl, hst.cache.update address, ?_⟩
        rw [hbytes, Option.some.inj hexec]
      · -- an address that overflows is one that overlaps
        simp only [and_true]
        omega
    · contradiction

/-- No instruction of a list runs into what it writes itself. -/
def NoOverlaps : ℕ → List Instruction → Prop
  | _, [] => True
  | here, i :: is => NoOverlap here i ∧ NoOverlaps (here + i.size) is

/-- The instructions of a row. -/
theorem applyInsts_writes (hlen : start + len ≤ u64Max) (hhere : source.length + len ≤ u64Max)
    {ts : List Template} {is : List Instruction} {s more : Sections} {r : Cache} {st : WindowState}
    {written written' : Bytes} (hwrites : WritesAll r (source.length + written.length) ts is s)
    (hexec : execAll source written is = some written') (hfit : written'.length ≤ len)
    (hst : st.At (s.append more) r written) :
    SucceedsIff (NoOverlaps (source.length + written.length) is)
      (fun st' => st'.At more (updateAll r is) written')
      (ts.foldlM (fun st t => applyInst source start len (instDef t) st) st) := by
  induction ts generalizing is s r st written with
  | nil =>
    cases hwrites
    obtain rfl := Option.some.inj hexec
    exact SucceedsIff.ok hst
  | cons t ts ih =>
    cases hwrites with
    | @cons _ _ _ _ i is s s' head tail =>
      obtain ⟨next, hnext, hrest⟩ := Option.bind_eq_some_iff.mp hexec
      have hlength := length_of_execAll hrest
      have hwritten := Instruction.length_of_exec hnext
      have hst' : st.At (s.append (s'.append more)) r written := by
        simpa only [Sections.append, append_assoc] using hst
      rw [foldlM_cons, NoOverlaps]
      refine (applyInst_writes hlen hhere head hnext (by omega) hst').bind fun st' _ hat => ?_
      rw [Nat.add_assoc, ← hwritten] at tail ⊢
      exact ih tail hrest hat

/-! ### The instructions of a window -/

/-- A code that the tables share is executed template by template. -/
theorem applyEntry_eq {α : Type} {code : UInt8} (hshared : sharedCode code) (st : WindowState)
    (k : WindowState → Except PatchError α) :
    (applyInst source start len (codeEntry code).inst1 st >>= fun st =>
      applyInst source start len (codeEntry code).inst2 st >>= k) =
    (templates code).foldlM (fun st t => applyInst source start len (instDef t) st) st >>=
      k := by
  rw [(sharedCode_iff code).mp hshared]
  have hlength := templates_length code
  generalize templates code = ts at hlength ⊢
  rcases ts with _ | ⟨t, _ | ⟨t', _ | ⟨_, _⟩⟩⟩
  · simp at hlength
  · simp only [rowEntry, CodeEntry.single, foldlM_cons, foldlM_nil, bind_pure]
    rfl
  · simp only [rowEntry, foldlM_cons, foldlM_nil, bind_pure, bind_assoc]
  · simp at hlength

/-- Every round starts before the window is full, and no copy runs into what it writes. -/
def RoundsClear (segmentLen len : ℕ) : ℕ → List Round → Prop
  | _, [] => True
  | n, round :: rounds => n < len ∧ NoOverlaps (segmentLen + n) round.instructions ∧
      RoundsClear segmentLen len (n + round.size) rounds

/-- **The instructions of a window.** They are executed as the RFC says, unless a round starts in
a full window or a copy runs into what it writes itself. -/
theorem applyInstLoop_writes (hlen : start + len ≤ u64Max) (hhere : source.length + len ≤ u64Max)
    {rounds : List Round} {s : Sections} {r : Cache} {st : WindowState} {written target : Bytes}
    {maxCount fuel count : ℕ} (hwrites : RoundsWrite r (source.length + written.length) rounds s)
    (hexec : execAll source written (rounds.flatMap Round.instructions) = some target)
    (hfit : target.length ≤ len) (hshared : ∀ round ∈ rounds, sharedCode round.code)
    (hcount : count + rounds.length ≤ maxCount) (hfuel : s.inst.length ≤ fuel)
    (hst : st.At s r written) :
    SucceedsIff (RoundsClear source.length len written.length rounds)
      (fun st' => st'.data.rest = [] ∧ st'.addr.rest = [] ∧ st'.written = target)
      (applyInstLoop source start len maxCount fuel count st) := by
  induction rounds generalizing s r st written fuel count with
  | nil =>
    cases hwrites
    have hend : isAtEnd st.inst = true := isEmpty_iff.mpr hst.inst
    have hstop : applyInstLoop source start len maxCount fuel count st = .ok st := by
      cases fuel with
      | zero => rfl
      | succ fuel => exact if_pos hend
    rw [hstop]
    exact SucceedsIff.ok ⟨hst.data, hst.addr, hst.written.trans (Option.some.inj hexec)⟩
  | cons round rounds ih =>
    cases hwrites with
    | @cons _ _ _ _ s s' head tail =>
      obtain ⟨next, hnext, hrest⟩ := execAll_append.mp hexec
      have hwritten := length_of_execAll hnext
      have hlength := length_of_execAll hrest
      obtain ⟨fuel, rfl⟩ : ∃ fuel', fuel = fuel' + 1 := by
        simp only [Sections.append, cons_append, length_cons] at hfuel
        exact ⟨fuel - 1, by omega⟩
      have hcode : readPatchU8 st.inst = .ok (round.code, ⟨st.inst.pos + 1, s.inst ++ s'.inst⟩) :=
        (reads_patchU8 round.code).run hst.inst
      have hmore : ¬ isAtEnd st.inst = true := by
        rw [isAtEnd, hst.inst]
        exact Bool.false_ne_true
      rw [length_cons] at hcount
      rw [applyInstLoop, if_neg hmore, RoundsClear]
      refine (SucceedsIff.of_rejectIf.bind fun _ _ _ => ?_).congr
        (and_congr_left' (by rw [hst.written]; exact Nat.not_le))
      rw [rejectIf_bind (by omega), hcode, ok_bind]
      dsimp only
      rw [applyEntry_eq (hshared round mem_cons_self)]
      have hread : WindowState.At { st with inst := ⟨st.inst.pos + 1, s.inst ++ s'.inst⟩ }
          (s.append s') r written := ⟨hst.data, rfl, hst.addr, hst.cache, hst.written⟩
      refine (applyInsts_writes hlen hhere head hnext (by omega) hread).bind fun st' _ hat => ?_
      rw [Round.size] at tail ⊢
      rw [Nat.add_assoc, ← hwritten] at tail
      rw [← hwritten]
      refine ih tail hrest (fun round hmem => hshared round (mem_cons_of_mem _ hmem))
        (by omega) ?_ hat
      simp only [Sections.append, cons_append, length_cons, length_append] at hfuel
      omega

/-- `apply_instructions` on the sections of a window. -/
theorem applyInstructions_writes {target : Bytes} (hlen : start + target.length ≤ u64Max)
    (hhere : source.length + target.length ≤ u64Max) {rounds : List Round} {s : Sections}
    {limits : VcdiffLimits} (hwrites : RoundsWrite Cache.init source.length rounds s)
    (hexec : execAll source [] (rounds.flatMap Round.instructions) = some target)
    (hshared : ∀ round ∈ rounds, sharedCode round.code)
    (hcount : rounds.length ≤ limits.maxInstructionCount) :
    SucceedsIff (RoundsClear source.length target.length 0 rounds) (· = target)
      (applyInstructions source s.data s.inst s.addr start target.length limits) := by
  rw [applyInstructions, rejectIf_bind (by omega)]
  refine (SucceedsIff.bind (applyInstLoop_writes hlen hhere hwrites hexec le_rfl hshared
    (by omega) le_rfl ⟨rfl, rfl, rfl, cacheAgrees_new, rfl⟩) fun st _ hst => ?_).congr
      (and_iff_left trivial)
  obtain ⟨hdata, haddr, hwritten⟩ := hst
  rw [hwritten, isAtEnd, hdata, isAtEnd, haddr, rejectIf_bind (by simp),
    rejectIf_bind (by simp), rejectIf_of_not (by simp)]
  exact SucceedsIff.ok rfl

end Instruction

/-! ### Windows and files -/

/-- The source segment of a window, as the decoder reads it. -/
theorem sourceSegment_writes {w : Window} {base output bytes source : Bytes}
    (h : SegmentIsWritten w.segment bytes) (hsource : w.source base output = some source)
    (hbase : base.length ≤ isizeMax) (houtput : output.length ≤ isizeMax) :
    ∃ indicator fields size position, bytes = [indicator] ++ fields ∧
      ¬ (indicator &&& vcdSource ≠ 0 ∧ indicator &&& vcdTarget ≠ 0) ∧
      ¬ indicator &&& ~~~(vcdSource ||| vcdTarget) ≠ 0 ∧
      Reads (sourceSegment indicator) fields (size, position) ∧
      checkSourceSegment indicator size position base.length output.length = .ok () ∧
      sourceBytes indicator size position base output = source ∧
      source.length = w.segmentSize ∧ source.length ≤ isizeMax := by
  have hmax : isizeMax ≤ u64Max := by decide
  obtain ⟨segment, rounds⟩ := w
  cases h with
  | none =>
    obtain rfl := Option.some.inj hsource
    exact ⟨0, [], 0, 0, rfl, by decide, by decide, Reads.pure _, rfl, rfl, rfl, Nat.zero_le _⟩
  | @some s size position hsize hposition =>
    obtain ⟨hle, rfl, hlength⟩ := Segment.bytes_eq_some hsource
    obtain ⟨origin, n, p⟩ := s
    have hfields : ∀ indicator : UInt8, indicator &&& (vcdSource ||| vcdTarget) ≠ 0 →
        n ≤ u64Max → p ≤ u64Max → Reads (sourceSegment indicator) (size ++ position) (n, p) := by
      intro indicator hind hn hp
      rw [sourceSegment, if_pos hind]
      refine Reads.bind (reads_varint_of_isInteger hsize hn) fun pos => ?_
      exact ReadsAt.bind_nil (reads_varint_of_isInteger hposition hp pos) (Reads.pure _ _)
    have hinside : ∀ {file : Bytes} (e e' : PatchError), p + n ≤ file.length →
        file.length ≤ u64Max → (rejectIf (p + n > u64Max) e >>= fun _ =>
          rejectIf (p + n > file.length) e') = .ok () := by
      intro file e e' hfile hmax
      rw [rejectIf_bind (by omega), rejectIf_of_not (by omega)]
    cases origin with
    | source =>
      change p + n ≤ base.length at hle
      exact ⟨1, _, n, p, rfl, by decide, by decide, hfields 1 (by decide) (by omega) (by omega),
        hinside _ _ hle (hbase.trans hmax), rfl, hlength, by rw [hlength]; dsimp only; omega⟩
    | target =>
      change p + n ≤ output.length at hle
      exact ⟨2, _, n, p, rfl, by decide, by decide, hfields 2 (by decide) (by omega) (by omega),
        hinside _ _ hle (houtput.trans hmax), rfl, hlength, by rw [hlength]; dsimp only; omega⟩

/-- The decoder treats a window as the RFC does. -/
def WindowClear (w : Window) : Prop := RoundsClear w.segmentSize w.size 0 w.rounds

/-- What the limits and the memory allow of a window. -/
structure WindowFits (limits : VcdiffLimits) (w : Window) : Prop where
  rounds : w.rounds.length ≤ limits.maxInstructionCount
  codes : ∀ round ∈ w.rounds, sharedCode round.code

/-- **One window.** -/
theorem decodeWindow_writes {w : Window} {base output window bytes : Bytes} {limits : VcdiffLimits}
    (hbase : base.length ≤ isizeMax) (houtput : output.length + window.length ≤ isizeMax)
    (hbytes : bytes.length ≤ u64Max) (hlimit : output.length + window.length ≤ limits.maxOutputSize)
    (hfits : WindowFits limits w) (hwritten : w.IsWritten bytes)
    (hdecode : w.decode base output = some window) (pos : ℕ) (rest : Bytes) :
    SucceedsIff (WindowClear w) (· = (window, ⟨pos + bytes.length, rest⟩))
      (decodeWindow base output limits ⟨pos, bytes ++ rest⟩) := by
  have hmax : isizeMax + isizeMax ≤ u64Max := by decide
  obtain ⟨source, hsource, hexec⟩ := Option.bind_eq_some_iff.mp hdecode
  have hsize : window.length = w.size :=
    (length_of_execAll hexec).trans (Nat.zero_add _)
  cases hwritten with
  | @mk s segment length sizeBytes dataLen instLen addrLen delta hsegment hrounds hdelta heq
      hlength =>
    obtain ⟨indicator, fields, n, p, rfl, hboth, hreserved, hfields, hcheck, hbytesOf,
      hsegmentSize, hsourceLen⟩ := sourceSegment_writes hsegment hsource hbase (by omega)
    subst heq
    simp only [length_append, length_singleton] at hbytes
    have hsum : (sizeBytes ++ ([0x00] ++ (dataLen ++ (instLen ++ (addrLen ++ (s.data ++
        (s.inst ++ s.addr))))))).length = sizeBytes.length + (1 + (dataLen.length +
        (instLen.length + (addrLen.length + (s.data.length + (s.inst.length +
        s.addr.length)))))) := by
      simp only [length_append, length_singleton]
    rw [hsum] at hlength
    have happly := @applyInstructions_writes source output.length window (by omega) (by omega) _ s
      limits (hsegmentSize ▸ hrounds) hexec hfits.codes hfits.rounds
    rw [WindowClear, ← hsegmentSize, ← hsize]
    simp only [append_assoc]
    rw [decodeWindow, (reads_patchU8 indicator _).bind_run, check_bind_run (rejectIf_of_not hboth),
      check_bind_run (rejectIf_of_not hreserved), (hfields _).bind_run]
    dsimp only
    rw [check_bind_run hcheck,
      (reads_varint_of_isInteger hlength (by omega) _).bind_run, bind_apply, remaining_apply,
      ok_bind, check_bind_run (rejectIf_of_not (by
        simp only [length_append, length_singleton]; omega)),
      bind_apply, position_apply, ok_bind,
      (reads_varint_of_isInteger hdelta.size (by omega) _).bind_run,
      check_bind_run (rejectIf_of_not (by omega)),
      check_bind_run (rejectIf_of_not (by omega)),
      (reads_patchU8 0 _).bind_run, check_bind_run (rejectIf_of_not (by decide)),
      (reads_varint_of_isInteger hdelta.dataLen (by omega) _).bind_run,
      (reads_varint_of_isInteger hdelta.instLen (by omega) _).bind_run,
      (reads_varint_of_isInteger hdelta.addrLen (by omega) _).bind_run,
      (reads_patchBytes s.data _).bind_run, (reads_patchBytes s.inst _).bind_run,
      (reads_patchBytes s.addr _).bind_run, bind_apply, position_apply, ok_bind,
      check_bind_run (rejectIf_of_not (by
        simp only [length_singleton]; omega)), check_apply, hbytesOf]
    rw [← hsize]
    refine happly.map fun bytes heq => ?_
    rw [heq]
    refine congrArg (Prod.mk window) (Cursor.ext ?_ rfl)
    simp only [length_append, length_singleton]
    omega

/-- The limits do not bind on a delta file. -/
structure VcdiffLimits.Admit (limits : VcdiffLimits) (windows : List Window)
    (patch target : Bytes) : Prop where
  patchSize : patch.length ≤ limits.maxPatchSize
  windowCount : windows.length ≤ limits.maxWindowCount
  instructionCount : ∀ w ∈ windows, w.rounds.length ≤ limits.maxInstructionCount
  outputSize : target.length ≤ limits.maxOutputSize

theorem length_le_of_decodeFrom {base output target : Bytes} {windows : List Window}
    (h : decodeFrom base output windows = some target) : output.length ≤ target.length := by
  induction windows generalizing output with
  | nil => exact (congrArg List.length (Option.some.inj h)).le
  | cons w windows ih =>
    obtain ⟨window, -, hrest⟩ := Option.bind_eq_some_iff.mp h
    exact (length_append ▸ Nat.le_add_right _ _).trans (ih hrest)

theorem one_le_of_isWritten {w : Window} {bytes : Bytes} (h : w.IsWritten bytes) :
    1 ≤ bytes.length := by
  obtain ⟨segment, rounds⟩ := w
  cases h with
  | mk hsegment =>
    cases hsegment <;> simp only [length_append, length_cons] <;> omega

/-- **The windows of a delta file.** -/
theorem decodeWindows_writes {base output target : Bytes} {limits : VcdiffLimits}
    {windows : List Window} {parts : List Bytes} (hbase : base.length ≤ isizeMax)
    (htarget : target.length ≤ isizeMax) (hlimit : target.length ≤ limits.maxOutputSize)
    (hbytes : parts.flatten.length ≤ u64Max) (hfits : ∀ w ∈ windows, WindowFits limits w)
    (hparts : List.Forall₂ Window.IsWritten windows parts)
    (hdecode : decodeFrom base output windows = some target) {fuel count : ℕ}
    (hfuel : parts.flatten.length ≤ fuel) (hcount : count + windows.length ≤ limits.maxWindowCount)
    (pos : ℕ) :
    SucceedsIff (∀ w ∈ windows, WindowClear w) (fun r => r.1 = target)
      (decodeWindows base limits fuel count output ⟨pos, parts.flatten⟩) := by
  induction hparts generalizing output fuel count pos with
  | nil =>
    obtain rfl := Option.some.inj hdecode
    rw [flatten_nil, decodeWindows_atEnd]
    exact ⟨fun _ => ⟨_, rfl, rfl⟩, fun hnot => absurd (fun _ h => nomatch h) hnot⟩
  | @cons w part windows parts hpart hparts ih =>
    obtain ⟨window, hwindow, hrest⟩ := Option.bind_eq_some_iff.mp hdecode
    have hlength := length_le_of_decodeFrom hrest
    rw [length_append] at hlength
    have hone := one_le_of_isWritten hpart
    rw [flatten_cons, length_append] at hfuel hbytes
    rw [length_cons] at hcount
    obtain ⟨fuel, rfl⟩ : ∃ fuel', fuel = fuel' + 1 := ⟨fuel - 1, by omega⟩
    rw [decodeWindows, bind_apply, remaining_apply, ok_bind, flatten_cons,
      if_neg (by rw [length_append]; omega),
      check_bind_run (rejectIf_of_not (by omega)), bind_apply]
    refine ((decodeWindow_writes hbase (by omega) (by omega) (by omega)
      (hfits w mem_cons_self) hpart hwindow pos _).bind fun r _ hr => ?_).congr
        forall_mem_cons.symm
    subst hr
    dsimp only
    rw [check_bind_run (rejectIf_of_not (by rw [length_append]; omega))]
    exact ih (by omega) (fun w hw => hfits w (mem_cons_of_mem _ hw)) hrest (by omega)
      (by omega) _

/-- **Interoperability.** A delta file of RFC 3284 whose instruction codes are among those that
the tables share is decoded to its target exactly if no instruction starts in a full window and no
copy runs into the bytes that it writes itself. -/
theorem applyVcdiff_rfc3284_iff {base patch target : Bytes} {windows : List Window}
    {limits : VcdiffLimits} (hfile : FileIsWritten windows patch)
    (htarget : decodeFile base windows = some target)
    (hmemory : base.length ≤ isizeMax ∧ patch.length ≤ isizeMax ∧ target.length ≤ isizeMax)
    (hlimits : limits.Admit windows patch target)
    (hcodes : ∀ w ∈ windows, ∀ round ∈ w.rounds, sharedCode round.code) :
    applyVcdiff base patch target.length limits = .ok target ↔ ∀ w ∈ windows, WindowClear w := by
  obtain ⟨parts, hparts, rfl⟩ := hfile
  obtain ⟨hbase, hpatch, hlength⟩ := hmemory
  have hmax : isizeMax ≤ u64Max := by decide
  have hheader := vcdiffHeader_eq parts.flatten
  rw [applyVcdiff, rejectIf_bind (Nat.not_lt.mpr hlimits.patchSize)]
  rw [length_append] at hpatch
  refine SucceedsIff.eq_ok_iff ?_
  change SucceedsIff _ _ (vcdiffHeader (Cursor.ofBytes (vcdiffStreamHeader ++ ([0x00] ++
    parts.flatten))) >>= _)
  rw [hheader, ok_bind]
  refine ((decodeWindows_writes hbase hlength hlimits.outputSize (by omega) (fun w hw =>
    ⟨hlimits.instructionCount w hw, hcodes w hw⟩) hparts htarget (by rw [length_append]; omega)
    (by have := hlimits.windowCount; omega) 5).bind fun r _ hr => ?_).congr (and_iff_left trivial)
  obtain ⟨output, c⟩ := r
  obtain rfl : output = target := hr
  dsimp only
  rw [rejectIf_of_not (not_not.mpr rfl)]
  exact SucceedsIff.ok rfl

theorem isInteger_digit {n : ℕ} (hn : n < 128) : IsInteger [UInt8.ofNat n] n := by
  have h := IsIntegerFrom.last (v := 0) (varintDigit_and n hn).2
  rwa [(varintDigit_and n hn).1, Nat.zero_mul, Nat.zero_add] at h

/-- The delta file of one window with the sections `s` and the size `n`. -/
def onePatch (n : ℕ) (s : Sections) : Bytes :=
  let delta := [UInt8.ofNat n] ++ ([0x00] ++ ([UInt8.ofNat s.data.length] ++
    ([UInt8.ofNat s.inst.length] ++ ([UInt8.ofNat s.addr.length] ++
      (s.data ++ (s.inst ++ s.addr))))))
  [0xD6, 0xC3, 0xC4, 0x00, 0x00] ++ [[0x00] ++ ([UInt8.ofNat delta.length] ++ delta)].flatten

theorem fileIsWritten_onePatch {rounds : List Round} {s : Sections}
    (hrounds : RoundsWrite Cache.init 0 rounds s) (hsize : Window.size ⟨none, rounds⟩ < 128)
    (hsections : s.data.length + s.inst.length + s.addr.length < 100) :
    FileIsWritten [⟨none, rounds⟩]
      (onePatch (Window.size ⟨none, rounds⟩) s) := by
  refine ⟨[_], .cons (.mk .none hrounds ⟨isInteger_digit hsize, isInteger_digit (by omega),
    isInteger_digit (by omega), isInteger_digit (by omega)⟩ rfl (isInteger_digit ?_)) .nil, rfl⟩
  simp only [length_append, length_singleton]
  omega

/-- One byte, and `n` copies of it. -/
def repeatRounds (n : ℕ) : List Round := [⟨1, [.add [97]]⟩, ⟨19, [.copy n 0]⟩]

/-- The sections of `repeatRounds`. -/
def repeatSections (n : ℕ) : Sections := ⟨[97], [1, 1, 19, UInt8.ofNat n], [0]⟩

theorem roundsWrite_repeat {n : ℕ} (hn : n < 128) :
    RoundsWrite Cache.init 0 (repeatRounds n) (repeatSections n) := by
  have hadd : WritesAll Cache.init 0 (templates 1) [.add [97]]
      ⟨[97], [1], []⟩ :=
    .cons (.add (.coded (isInteger_digit (by decide)))) .nil
  have hcopy : WritesAll Cache.init 1 (templates 19) [.copy n 0]
      ⟨[], [UInt8.ofNat n], [0]⟩ :=
    .cons (.copy (.coded (isInteger_digit hn)) (.self (isInteger_digit (by decide)))) .nil
  exact @RoundsWrite.cons _ _ ⟨1, _⟩ _ _ _ hadd
    (@RoundsWrite.cons _ _ ⟨19, _⟩ _ _ _ hcopy .nil)

/-- A copy that overlaps the byte it writes. -/
theorem applyVcdiff_rfc3284_iff_repeat :
    applyVcdiff [] (onePatch 2 (repeatSections 1)) 2 .default = .ok [97, 97] := by
  have hfile := fileIsWritten_onePatch (roundsWrite_repeat (n := 1) (by decide)) (by decide)
    (by decide)
  have htarget : decodeFile [] [⟨none, repeatRounds 1⟩] = some [97, 97] := rfl
  refine (applyVcdiff_rfc3284_iff hfile htarget (by decide)
    ⟨by decide, by decide, by decide, by decide⟩ (by decide)).mpr ?_
  simp only [mem_singleton, forall_eq]
  exact ⟨by decide, ⟨trivial, trivial⟩, by decide, ⟨Nat.le_refl 1, trivial⟩, trivial⟩

/-- **Delta files that are decoded otherwise.** The first uses code 2, which adds one byte; the
second repeats a byte with a copy that reads what it has just written. -/
theorem applyVcdiff_differs :
    (FileIsWritten [⟨none, [⟨2, [.add [97]]⟩]⟩] (onePatch 1 ⟨[97], [2], []⟩) ∧
      decodeFile [] [⟨none, [⟨2, [.add [97]]⟩]⟩] = some [97] ∧
      applyVcdiff [] (onePatch 1 ⟨[97], [2], []⟩) 1 .default =
        .error (.patchFailed "VCDIFF: truncated varint in patch stream")) ∧
    FileIsWritten [⟨none, repeatRounds 3⟩] (onePatch 4 (repeatSections 3)) ∧
      decodeFile [] [⟨none, repeatRounds 3⟩] = some [97, 97, 97, 97] ∧
      applyVcdiff [] (onePatch 4 (repeatSections 3)) 4 .default =
        .error (.patchFailed "VCDIFF: COPY references unwritten target bytes") := by
  have hsize : IsSize 1 [(97 : UInt8)].length [] := .fixed (by decide)
  have hadd : WritesAll Cache.init 0 (templates 2) [.add [97]]
      ⟨[97], [], []⟩ := .cons (.add hsize) .nil
  refine ⟨⟨?_, rfl, by decide +kernel⟩, ?_, rfl, by decide +kernel⟩
  · exact fileIsWritten_onePatch (@RoundsWrite.cons _ _ ⟨2, _⟩ _ _ _ hadd .nil)
      (by decide) (by decide)
  · exact fileIsWritten_onePatch (roundsWrite_repeat (by decide)) (by decide) (by decide)

end Sar
