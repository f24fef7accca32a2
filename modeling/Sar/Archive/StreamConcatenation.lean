import Sar.Archive.StreamChunking

/-!
# Concatenated archives in one stream

The parser recognises the end of an archive by the magic number of the next one, so a stream may
hold several archives. Two byte strings that the parser accepts on their own are accepted one
behind the other, with the events of both; only the positions recorded for the entries of the
second one are moved (`runChunks_append`).

The run on the first string ends in a wait with nothing left unread (`handover`). From there the
parser that goes on with the second string is a fresh one, moved down the stream (`Grown`), and
moved parsers emit moved events (`Grown.machine_step`).
-/

namespace Sar

open Except (rejectIf liftError okOr)
open Stateful LittleEndian Resumable List

namespace StreamArchiveParser

variable {p q r : StreamArchiveParser} {backend : Backend} {es es' : List StreamEvent} {why : Stop}
  {k : ℕ}

/-! ### Moved parsers -/

/-- A moved parser emits moved events, and stops when the other one stops. -/
theorem Grown.machine_step (h : Grown [] false k p q) :
    ((machine backend).step q).1 = ((machine backend).step p).1.map (StreamEvent.shift k) ∧
      Grown [] false k ((machine backend).step p).2 ((machine backend).step q).2 := by
  have hfollows := follows_step backend h (fun _ => rfl) fun hne => absurd rfl hne
  change moveOf (step backend q).1 = (moveOf (step backend p).1).map _ ∧
    Grown [] false k (step backend p).2 (step backend q).2
  generalize step backend p = x at hfollows ⊢
  generalize hy : step backend q = y at hfollows
  cases hfollows with
  | ready hgrown => exact ⟨rfl, hgrown⟩
  | complete hgrown => exact ⟨rfl, hgrown⟩
  | error hgrown => exact ⟨rfl, hgrown⟩
  | wait hgrown hsettles =>
    rw [(hsettles rfl).waits rfl]
    exact ⟨rfl, hgrown⟩

theorem Grown.finalizeInput (h : Grown [] false k p q) :
    Grown [] false k p.finalizeInput q.finalizeInput :=
  { h with finalized := rfl }

/-! ### Invariants of a run -/

/-- No archive is open, and no entry is pending, where a Global Header is expected. -/
def Clean (p : StreamArchiveParser) : Prop :=
  p.state = .needGlobalHeader → p.archive = none ∧ p.pendingEntry = none

theorem Clean.machine_step {move : Move StreamEvent} (h : p.Clean)
    (hstep : (machine backend).step p = (move, q)) (hmove : move ≠ .stop .failed) : q.Clean := by
  obtain ⟨hres, hq⟩ := Prod.mk.inj hstep
  have hout := outcome_step backend p
  rw [← Prod.mk.eta (p := step backend p)] at hout
  change (step backend p).2 = q at hq
  rw [hq] at hout
  generalize (step backend p).1 = x at hout hres
  cases hout with
  | complete => exact h
  | wait _ _ _ hneed =>
    intro hstate
    exact hneed (.inl hstate) ▸ h (hneed (.inl hstate) ▸ hstate)
  | @header header _ hle =>
    intro hstate
    change (if header.flags.noIndex then _ else _) = StreamParseState.needGlobalHeader at hstate
    split at hstate <;> cases hstate
  | entry _ _ hstate => exact fun hneed => nomatch hstate.symm.trans hneed
  | summary => exact fun _ => ⟨rfl, rfl⟩
  | failed => exact absurd hres.symm hmove

theorem Drains.clean (hd : Drains (machine backend) (fun _ => True) p es why q)
    (hwhy : why ≠ .failed) (h : p.Clean) : q.Clean := by
  induction hd with
  | stop _ hstep => exact h.machine_step hstep fun hmove => hwhy (Move.stop.inj hmove)
  | ready _ hstep _ ih => exact ih hwhy (h.machine_step hstep nofun)

/-- A run that does not fail takes no step in the key-management window. -/
theorem Drains.early (hd : Drains (machine backend) (fun _ => True) p es why q)
    (hwhy : why ≠ .failed) (hfin : p.finalized = false) :
    Drains (machine backend) Early p es why q := by
  have hwindow : ∀ {s t : StreamArchiveParser} {move}, (machine backend).step s = (move, t) →
      move ≠ .stop .failed → s.kmsWindow = false := by
    intro s t move hstep hmove
    refine Bool.eq_false_iff.mpr fun hw => ?_
    obtain ⟨e, he⟩ := step_of_kmsWindow backend hw
    have hfailed := (machine_step_failed_iff backend).mpr ⟨e, he⟩
    exact hmove (Prod.mk.inj (hstep.symm.trans hfailed)).1
  induction hd with
  | stop _ hstep =>
    exact .stop ⟨hfin, hwindow hstep fun hmove => hwhy (Move.stop.inj hmove)⟩ hstep
  | ready _ hstep _ ih =>
    have hintake := step_intake backend ((machine_step_ready_iff backend).mp hstep)
    exact .ready ⟨hfin, hwindow hstep nofun⟩ hstep
      (ih hwhy ((congrArg (·.2.2.2) hintake).trans hfin))

/-! ### Between two archives -/

/-- The parser behind the end of an archive. -/
def restart (p : StreamArchiveParser) : StreamArchiveParser :=
  { p with archive := none, pendingEntry := none, state := .needGlobalHeader }

/-- A wait that the end of the input turns into a success: nothing is left, and either a Global
Header is expected or the open archive is over. -/
theorem finishes_of_wait (hd : Drains (machine backend) Early p es .wait q)
    (hend : Drains (machine backend) (fun _ => True) q.finalizeInput es' .done r) :
    ∃ t, Grown [] false 0 q.finalizeInput t ∧ Finishes t (step backend t) := by
  have hok : ((machine backend).step q.finalizeInput).1 ≠ .stop .failed := by
    intro hfailed
    cases hend with
    | stop _ hstep => cases (congrArg Prod.fst hstep).symm.trans hfailed
    | ready _ hstep => cases (congrArg Prod.fst hstep).symm.trans hfailed
  clear hend
  generalize hw : Stop.wait = w at hd
  induction hd with
  | @stop p q _ hearly hstep =>
    subst hw
    obtain ⟨n, hstep⟩ := (machine_step_wait_iff backend).mp hstep
    have hfollows := hearly.follows backend [] true
    rw [hstep] at hfollows
    generalize step backend _ = y at hfollows
    cases hfollows with
    | @wait _ _ t hgrown hsettles =>
      have hcompact : t.compact = q.finalizeInput.compact := by
        rw [← more_nil_true]
        exact grown_zero_iff.mp hgrown
      refine ⟨t, grown_nil_iff.mpr hcompact, ((hsettles rfl).ends rfl).resolve_left ?_⟩
      rintro ⟨e, u, he, -⟩
      have hsame := (step_congr backend hcompact).1
      rw [he] at hsame
      exact hok (congrArg moveOf hsame).symm
  | ready _ _ _ ih => exact ih hok hw

theorem four_le_of_magic {bytes : Bytes} (h : bytes.take 4 = magic) : 4 ≤ bytes.length := by
  have hlen := congrArg List.length h
  rw [length_take, show magic.length = 4 from rfl] at hlen
  omega

/-- What is emitted at the end of the first input is emitted at the magic number of the second
one, and the parser starts again. -/
theorem handover {bytes : Bytes} (hclean : q.Clean)
    (hd : Drains (machine backend) Early p es .wait q)
    (hend : Drains (machine backend) (fun _ => True) q.finalizeInput es' .done r)
    (hmagic : bytes.take 4 = magic) :
    ∃ s, Reaches (machine backend) (fun _ => True) (q.more bytes false) es' s ∧
      s.compact = (q.more bytes false).restart.compact := by
  obtain ⟨t, hgrown, hzero, hfinish⟩ := finishes_of_wait hd hend
  obtain ⟨hres, hleft⟩ := step_congr backend (grown_nil_iff.mp hgrown)
  have hav : q.available = 0 := hgrown.available.symm.trans hzero
  rcases hfinish with ⟨hstate, hstep⟩ | ⟨hstate, hopen, hstep⟩ <;> rw [hstep] at hres hleft
  · -- nothing has been read: the second input starts the stream
    have hq : q.state = .needGlobalHeader := hgrown.state.symm.trans hstate
    obtain ⟨harch, hpend⟩ := hclean hq
    have hdone : ((machine backend).step q.finalizeInput).1 = .stop .done :=
      congrArg moveOf hres.symm
    cases hend with
    | stop => exact ⟨_, .refl _, compact_ext rfl rfl hq rfl rfl rfl harch hpend⟩
    | ready _ hready => cases (congrArg Prod.fst hready).symm.trans hdone
  · have hq : q.state = .needLocalFileHeader := hgrown.state.symm.trans hstate
    obtain ⟨archive, harch⟩ := Option.ne_none_iff_exists'.mp hopen
    have harch' : q.archive = some archive := hgrown.archive.symm.trans harch
    rw [finishArchive_of_some harch] at hres hleft
    have hfirst : ((machine backend).step q.finalizeInput).1 = .ready _ :=
      congrArg moveOf hres.symm
    have hlen : 4 ≤ (q.more bytes false).available := by
      rw [available_more, hav, Nat.zero_add]
      exact four_le_of_magic hmagic
    have hunread : (q.more bytes false).unread = bytes := by
      have hnil : q.unread = [] := length_eq_zero_iff.mp (available_eq q ▸ hav)
      rw [unread_more, hnil, nil_append]
    have hnext : step backend (q.more bytes false) = _ :=
      step_of_needLocalFileHeader backend (p := q.more bytes false) hq
    rw [stepNeedLocalFileHeader_of_some backend (p := q.more bytes false) harch',
      if_neg (by omega), if_pos hlen, hunread, if_pos hmagic,
      finishArchive_of_some (p := q.more bytes false) harch'] at hnext
    cases hend with
    | stop _ hstop => cases (congrArg Prod.fst hstop).symm.trans hfirst
    | @ready _ t' _ _ _ _ _ hready hrest =>
      obtain rfl := Move.ready.inj ((congrArg Prod.fst hready).symm.trans hfirst)
      have ht' : (step backend q.finalizeInput).2 = t' := (congrArg Prod.snd hready :)
      refine ⟨_, .ready trivial ((machine_step_ready_iff backend).mpr hnext) ?_, rfl⟩
      -- at the end of the first input nothing follows the summary
      have hagain := grown_nil_iff.mpr hleft.symm
      rw [ht'] at hagain
      have hover := stepNeedGlobalHeader_of_end (Bool.and_eq_true_iff.mpr
        ⟨hagain.finalized.trans (congrArg (· || false) hgrown.finalized),
          beq_iff_eq.mpr (hagain.available.trans hzero)⟩)
      rw [← step_of_needGlobalHeader backend hagain.state, ← machine_step_done_iff] at hover
      cases hrest with
      | stop => exact .refl _
      | ready _ hmore => cases hmore.symm.trans hover

/-! ### Two inputs in one -/

/-- Only a parser that knows the end of the input is done. -/
theorem Drains.finalized_of_done
    (hd : Drains (machine backend) (fun _ => True) p es .done q) : p.finalized = true := by
  generalize hw : Stop.done = w at hd
  induction hd with
  | @stop p _ _ _ hstep =>
    subst hw
    have hout := outcome_step backend p
    rw [(machine_step_done_iff backend).mp hstep] at hout
    cases hout with
    | complete _ hfin => exact hfin
  | ready _ hstep _ ih =>
    have hintake := step_intake backend ((machine_step_ready_iff backend).mp hstep)
    exact (congrArg (·.2.2.2) hintake).symm.trans (ih hw)

/-- A chunk that is parsed completely: the run on it waits, and the end of the input completes
it. -/
theorem exists_drains_of_complete {bytes : Bytes} (hacc : p.Accepts bytes)
    (h : runChunks backend p [bytes] = some (es, .complete)) :
    ∃ es₁ es₂ q r, Drains (machine backend) (fun _ => True) (p.more bytes false) es₁ .wait q ∧
      Drains (machine backend) (fun _ => True) q.finalizeInput es₂ .done r ∧ es = es₁ ++ es₂ := by
  have hacc' : p.Accepts [bytes].flatten := by rwa [flatten_singleton]
  obtain ⟨es₁, why, q, hd, -⟩ := exists_drains (fun _ => True) (progress_machine backend)
    (p := p.more bytes false) fun _ _ => trivial
  cases why with
  | wait =>
    obtain ⟨es₂, why₂, r, hd₂, hdrain⟩ := exists_drains (fun _ => True) (progress_machine backend)
      (p := q.finalizeInput) fun _ _ => trivial
    rw [runChunks_cons_wait hacc' hd, runChunks, hdrain] at h
    obtain ⟨hes, hwhy⟩ := Prod.mk.inj (Option.some.inj h)
    obtain rfl := endOf_eq_complete_iff.mp hwhy
    exact ⟨es₁, es₂, q, r, hd, hd₂, hes.symm⟩
  | done =>
    have hfin : (p.finalized || false) = true := Drains.finalized_of_done hd
    rw [hacc.finalized] at hfin
    cases hfin
  | failed =>
    rw [runChunks_cons_halt hacc' hd (by decide)] at h
    cases (Prod.mk.inj (Option.some.inj h)).2

/-- An input that is not empty and is parsed completely starts with an archive. -/
theorem magic_of_complete (hstate : p.state = .needGlobalHeader) (hne : p.unread ≠ [])
    (hd : Drains (machine backend) Early p es .wait q)
    (hend : Drains (machine backend) (fun _ => True) q.finalizeInput es' .done r) :
    p.unread.take 4 = magic := by
  obtain ⟨t, hgrown, hzero, -⟩ := finishes_of_wait hd hend
  have hav : q.available = 0 := hgrown.available.symm.trans hzero
  cases hd with
  | stop _ hstep =>
    -- a parser that waits for a Global Header has read nothing
    obtain ⟨n, hstep⟩ := (machine_step_wait_iff backend).mp hstep
    have hout := outcome_step backend p
    rw [hstep] at hout
    cases hout with
    | wait _ _ _ hneed =>
      rw [hneed (.inr hstate), available_eq] at hav
      exact absurd (length_eq_zero_iff.mp hav) hne
  | ready _ hstep =>
    obtain ⟨header, n, hparse, -⟩ :=
      (step_header_iff backend hstate).mp ((machine_step_ready_iff backend).mp hstep)
    exact (parseGlobalHeader_shape hparse).magic_eq

/-- A parser that has read all of the first string and starts again. -/
theorem grown_fresh {options : ArchiveReaderOptions} {keyProvider : Option KeyProvider}
    {a b : Bytes} {s : StreamArchiveParser}
    (hacc : (withOptions options keyProvider).Accepts (a ++ b))
    (hintake : q.intake = ((withOptions options keyProvider).more a false).intake)
    (hzero : q.available = 0) (hs : s.compact = (q.more b false).restart.compact) :
    Grown [] false a.length ((withOptions options keyProvider).more b false) s := by
  obtain ⟨htotal, hopt, hkey, hfin⟩ : _ ∧ _ ∧ _ ∧ _ := by
    simpa only [intake, Prod.mk.injEq] using hintake
  have hgrown := grown_nil_iff.mpr hs
  have hunread : q.unread = [] := length_eq_zero_iff.mp (available_eq q ▸ hzero)
  have hroom := hacc.total_le
  rw [hzero, available_more] at htotal
  rw [length_append] at hroom
  refine ⟨hgrown.options.trans hopt, hgrown.keyProvider.trans hkey, hgrown.state, ?_, ?_, ?_,
    hgrown.archive, hgrown.pendingEntry, fun _ => ?_, fun _ _ hnone => by cases hnone⟩
  · rw [hgrown.unread, unread_more]
    change (q.more b false).unread ++ [] = [] ++ b ++ []
    rw [unread_more, hunread]
  · rw [hgrown.finalized]
    change ((q.finalized || false) || false) = _
    rw [hfin]
    rfl
  · rw [hgrown.absoluteOffset]
    change q.absoluteOffset + 0 = 0 + a.length
    change q.absoluteOffset + 0 = 0 + (0 + a.length) at htotal
    omega
  · rw [available_more]
    change 0 + (0 + b.length) + a.length ≤ u64Max
    change 0 + 0 + (a.length + b.length) ≤ u64Max at hroom
    omega

/-- **Concatenated archives.** Two byte strings that are parsed completely are parsed completely
one behind the other, with the events of both; the entries of the second one are found further
down by the length of the first one. -/
theorem runChunks_append (backend : Backend) (options : ArchiveReaderOptions)
    (keyProvider : Option KeyProvider) {a b : Bytes} {ea eb : List StreamEvent}
    (ha : runChunks backend (withOptions options keyProvider) [a] = some (ea, .complete))
    (hb : runChunks backend (withOptions options keyProvider) [b] = some (eb, .complete))
    (hne : b ≠ []) (hpush : (pushBytes (a ++ b) (withOptions options keyProvider)).1 = .ok ()) :
    runChunks backend (withOptions options keyProvider) [a ++ b] =
      some (ea ++ eb.map (StreamEvent.shift a.length), .complete) := by
  set fresh := withOptions options keyProvider
  have hacc : fresh.Accepts (a ++ b) := accepts_of_pushBytes rfl hpush
  have hlen : (a ++ b).length = a.length + b.length := length_append
  obtain ⟨ea₁, ea₂, qa, ra, hda, hda', rfl⟩ :=
    exists_drains_of_complete (hacc.mono (by omega)) ha
  obtain ⟨eb₁, eb₂, qb, rb, hdb, hdb', rfl⟩ :=
    exists_drains_of_complete (hacc.mono (by omega)) hb
  have hearly := Drains.early hda (by decide) rfl
  have hunread : (fresh.more b false).unread = b := unread_more b false fresh
  have hmagic := magic_of_complete rfl (hunread ▸ hne) (Drains.early hdb (by decide) rfl) hdb'
  rw [hunread] at hmagic
  -- behind the first string the parser is a fresh one, moved by its length
  obtain ⟨s, hreach, hs⟩ :=
    handover (Drains.clean hda (by decide) fun _ => ⟨rfl, rfl⟩) hearly hda' hmagic
  have hmoved : Grown [] false a.length (fresh.more b false) s := by
    obtain ⟨t, hgrown, hzero, -⟩ := finishes_of_wait hearly hda'
    exact grown_fresh hacc (Drains.intake hearly) (hgrown.available.symm.trans hzero) hs
  obtain ⟨qb', hdb₁, hqb'⟩ := hdb.simulate Grown.machine_step hmoved
  obtain ⟨rb', hdb₂, -⟩ := hdb'.simulate Grown.machine_step hqb'.finalizeInput
  -- the three parts of the run, joined
  have hlaw := lawful_machine backend
  obtain ⟨r₁, hd₁, hr₁⟩ := hlaw.drains_resume hearly (hreach.drains hdb₁)
  obtain ⟨r₂, hd₂, hr₂⟩ := hlaw.drains_congr hd₁ (compact_more_more a b false fresh)
  have hend : qb'.finalizeInput.compact = r₂.finalizeInput.compact := by
    rw [← more_nil_true, ← more_nil_true]
    exact compact_more_congr [] true (hr₁.trans hr₂)
  obtain ⟨_, hd₃, -⟩ := hlaw.drains_congr hdb₂ hend
  rw [runChunks_cons_wait (by rwa [flatten_singleton]) hd₂, runChunks,
    hd₃.drain_eq (progress_machine backend)]
  simp only [Option.map_some, map_append, append_assoc, endOf]

/-- An archive without index that holds one empty file with the name `b`. -/
def exampleArchive : Bytes :=
  [0x53, 0x41, 0x52, 0x21, 1, 0, 4, 0, 0x02, 0, 0, 0] ++
    [21, 0, 0, 0, 0, 0, 0, 0, 0, 0, 0, 0, 0, 0, 0, 0, 0, 0, 1, 0, 98]

/-- That archive, sent twice. -/
theorem runChunks_append_twice :
    ∃ events, runChunks .plain (withOptions ⟨.default, none⟩ none) [exampleArchive] =
        some (events, .complete) ∧ events.length = 3 ∧
      runChunks .plain (withOptions ⟨.default, none⟩ none) [exampleArchive ++ exampleArchive] =
        some (events ++ events.map (StreamEvent.shift 33), .complete) := by
  have hrun : (runChunks .plain (withOptions ⟨.default, none⟩ none) [exampleArchive]).map
      (fun outcome => (outcome.1.length, outcome.2)) = some (3, .complete) := by decide +kernel
  obtain ⟨⟨events, ending⟩, hevents, houtcome⟩ := Option.map_eq_some_iff.mp hrun
  obtain ⟨hlength, rfl⟩ := Prod.mk.inj houtcome
  exact ⟨events, hevents, hlength,
    runChunks_append .plain ⟨.default, none⟩ none hevents hevents (by decide) (by decide)⟩

end StreamArchiveParser

end Sar
