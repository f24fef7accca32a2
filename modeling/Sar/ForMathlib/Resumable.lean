import Mathlib.Algebra.Order.Ring.Nat
import Mathlib.Data.List.Basic
import Mathlib.Tactic.Ring

/-!
# Resumable machines

A machine that is fed its input piece by piece: each step emits an event, or stops, because it
has to wait for more input, because it is done, or because it failed. The client delivers a
piece, steps until the machine stops, and goes on with the next piece if it waits.

The question is when the way the input is cut does not matter. `Lawful` lists what a step has
to satisfy at the states where it is taken early: an event does not depend on input that has
not arrived, a failure stays one, and a wait can be resumed. `Feeds.single` then says that
feeding piece by piece gives the events and the ending of feeding everything at once.

## Main definitions and results

* `Machine.drain` — the client's loop; `exists_drains` — it returns when steps make progress.
* `Drains`, `Feeds` — one delivery, and a whole run, as relations.
* `Feeds.single` — the pieces of a run can be joined.
-/

namespace Resumable

open List

/-- Why a machine stops. -/
inductive Stop where
  /-- It needs input that has not been delivered. -/
  | wait
  /-- It has nothing left to do. -/
  | done
  /-- It failed. -/
  | failed
  deriving DecidableEq

/-- What one step comes to. -/
inductive Move (ε : Type) where
  | ready (event : ε)
  | stop (why : Stop)

/-- The step with its event changed. -/
def Move.map {ε ε' : Type} (φ : ε → ε') : Move ε → Move ε'
  | .ready event => .ready (φ event)
  | .stop why => .stop why

theorem Move.map_id {ε : Type} (move : Move ε) : move.map id = move := by
  cases move <;> rfl

/-- A machine with states `σ`, input symbols `β` and events `ε`. -/
structure Machine (σ β ε : Type) where
  step : σ → Move ε × σ
  /-- Deliver input, and say whether it was the last. -/
  more : List β → Bool → σ → σ
  /-- A bound on the number of events a state can emit before it stops. -/
  rank : σ → ℕ

variable {σ β ε ν : Type} (m : Machine σ β ε)

/-! ### The client's loop -/

/-- Step until the machine stops, for at most the given number of steps. -/
def Machine.drainFrom : ℕ → σ → Option (List ε × Stop × σ)
  | 0, _ => none
  | fuel + 1, p =>
    match m.step p with
    | (.stop why, q) => some ([], why, q)
    | (.ready e, q) => (Machine.drainFrom fuel q).map fun r => (e :: r.1, r.2)

/-- Step until the machine stops. -/
def Machine.drain (p : σ) : Option (List ε × Stop × σ) := m.drainFrom (m.rank p + 1) p

/-- The states on which that loop takes a step. -/
def Machine.callsFrom : ℕ → σ → List σ
  | 0, _ => []
  | fuel + 1, p =>
    p :: match m.step p with
      | (.stop _, _) => []
      | (.ready _, q) => Machine.callsFrom fuel q

/-- The states on which the client's loop takes a step. -/
def Machine.calls (p : σ) : List σ := m.callsFrom (m.rank p + 1) p

/-- Every event uses up rank. -/
def Machine.Progress : Prop := ∀ {p q : σ} {e : ε}, m.step p = (.ready e, q) → m.rank q < m.rank p

/-! ### Runs as relations -/

/-- From `p` the machine emits `es` and stops for the reason `why` at `q`; every state on which
a step was taken satisfies `ok`. -/
inductive Drains (ok : σ → Prop) : σ → List ε → Stop → σ → Prop
  | stop {p q : σ} {why : Stop} : ok p → m.step p = (.stop why, q) → Drains ok p [] why q
  | ready {p q r : σ} {e : ε} {es : List ε} {why : Stop} :
      ok p → m.step p = (.ready e, q) → Drains ok q es why r → Drains ok p (e :: es) why r

/-- Feeding the pieces `cs` and then the end of the input gives the events `es` and the ending
`why`. States reached while input is still to come satisfy `ok`. -/
inductive Feeds (ok : σ → Prop) : σ → List (List β) → List ε → Stop → Prop
  | last {p q : σ} {es : List ε} {why : Stop} :
      Drains m (fun _ => True) (m.more [] true p) es why q → Feeds ok p [] es why
  | resume {p q : σ} {c : List β} {cs : List (List β)} {es es' : List ε} {why : Stop} :
      Drains m ok (m.more c false p) es .wait q → Feeds ok q cs es' why →
        Feeds ok p (c :: cs) (es ++ es') why
  | halt {p q : σ} {c : List β} {cs : List (List β)} {es : List ε} {why : Stop} :
      Drains m ok (m.more c false p) es why q → why ≠ .wait → Feeds ok p (c :: cs) es why

variable {m} {ok : σ → Prop}

variable {p : σ}

theorem step_eq_of_move {move : Move ε} (h : (m.step p).1 = move) :
    m.step p = (move, (m.step p).2) :=
  Prod.ext h rfl

theorem Drains.mono {ok' : σ → Prop} (h : ∀ p, ok p → ok' p) {p q : σ} {es : List ε} {why : Stop}
    (hd : Drains m ok p es why q) : Drains m ok' p es why q := by
  induction hd with
  | stop hok hstep => exact .stop (h _ hok) hstep
  | ready hok hstep _ ih => exact .ready (h _ hok) hstep ih

variable {q : σ} {es : List ε} {why : Stop} {fuel : ℕ}

/-- The loop computes the relation. -/
theorem Drains.drainFrom_eq (hprogress : m.Progress) (hd : Drains m ok p es why q)
    (hfuel : m.rank p < fuel) : m.drainFrom fuel p = some (es, why, q) := by
  induction hd generalizing fuel with
  | stop _ hstep =>
    obtain ⟨fuel, rfl⟩ : ∃ n, fuel = n + 1 := ⟨fuel - 1, by omega⟩
    simp only [Machine.drainFrom, hstep]
  | ready _ hstep _ ih =>
    obtain ⟨fuel, rfl⟩ : ∃ n, fuel = n + 1 := ⟨fuel - 1, by omega⟩
    have hlt := hprogress hstep
    simp only [Machine.drainFrom, hstep, ih (show _ < fuel by omega), Option.map_some]

theorem Drains.drain_eq (hprogress : m.Progress) (hd : Drains m ok p es why q) :
    m.drain p = some (es, why, q) :=
  hd.drainFrom_eq hprogress (Nat.lt_succ_self _)

/-- With enough fuel the loop returns. -/
theorem exists_drains_from (hprogress : m.Progress) {fuel : ℕ} {p : σ} (hfuel : m.rank p < fuel)
    (hok : ∀ q ∈ m.callsFrom fuel p, ok q) : ∃ es why q, Drains m ok p es why q := by
  induction fuel generalizing p with
  | zero => exact absurd hfuel (Nat.not_lt_zero _)
  | succ fuel ih =>
    rw [Machine.callsFrom] at hok
    have hp := hok p mem_cons_self
    rcases hstep : m.step p with ⟨e | why, q⟩
    · have hlt := hprogress hstep
      obtain ⟨es, why, r, hd⟩ := ih (show m.rank q < fuel by omega) fun x hx =>
        hok x (mem_cons_of_mem _ (by rw [hstep]; exact hx))
      exact ⟨e :: es, why, r, .ready hp hstep hd⟩
    · exact ⟨[], why, q, .stop hp hstep⟩

variable (ok) in
/-- The client's loop returns, and does what the relation says. -/
theorem exists_drains (hprogress : m.Progress) (hok : ∀ q ∈ m.calls p, ok q) :
    ∃ es why q, Drains m ok p es why q ∧ m.drain p = some (es, why, q) := by
  obtain ⟨es, why, q, hd⟩ := exists_drains_from hprogress (Nat.lt_succ_self _) hok
  exact ⟨es, why, q, hd, hd.drain_eq hprogress⟩

theorem Drains.calls_ok (hprogress : m.Progress) (hd : Drains m ok p es why q)
    (hfuel : m.rank p < fuel) : ∀ x ∈ m.callsFrom fuel p, ok x := by
  induction hd generalizing fuel with
  | stop hok hstep =>
    obtain ⟨fuel, rfl⟩ : ∃ n, fuel = n + 1 := ⟨fuel - 1, by omega⟩
    intro x hx
    rw [Machine.callsFrom, hstep, mem_singleton] at hx
    exact hx ▸ hok
  | ready hok hstep _ ih =>
    obtain ⟨fuel, rfl⟩ : ∃ n, fuel = n + 1 := ⟨fuel - 1, by omega⟩
    have hlt := hprogress hstep
    intro x hx
    rw [Machine.callsFrom, hstep, mem_cons] at hx
    rcases hx with rfl | hx
    · exact hok
    · exact ih (by omega) x hx

/-! ### Partial runs -/

/-- From `p` the machine emits `es` and is then at `q`. -/
inductive Reaches (m : Machine σ β ε) (ok : σ → Prop) : σ → List ε → σ → Prop
  | refl (p : σ) : Reaches m ok p [] p
  | ready {p q r : σ} {e : ε} {es : List ε} :
      ok p → m.step p = (.ready e, q) → Reaches m ok q es r → Reaches m ok p (e :: es) r

variable {r : σ} {es' : List ε}

theorem Reaches.drains (hr : Reaches m ok p es q) (hd : Drains m (fun _ => True) q es' why r) :
    Drains m (fun _ => True) p (es ++ es') why r := by
  induction hr with
  | refl p => exact hd
  | ready _ hstep _ ih => exact .ready trivial hstep (ih hd)

variable (ok) in
/-- The loop either stays within the good states or gets to one that is not. -/
theorem drains_or_reaches (hprogress : m.Progress) (p : σ) :
    (∃ es why q, Drains m ok p es why q) ∨ ∃ es s, Reaches m ok p es s ∧ ¬ ok s := by
  generalize hn : m.rank p = n
  induction n using Nat.strong_induction_on generalizing p with
  | _ n ih =>
    by_cases hok : ok p
    · rcases hstep : m.step p with ⟨e | why, q⟩
      · have hlt := hprogress hstep
        rcases ih (m.rank q) (hn ▸ hlt) q rfl with ⟨es, why, r, hd⟩ | ⟨es, s, hr, hs⟩
        · exact .inl ⟨e :: es, why, r, .ready hok hstep hd⟩
        · exact .inr ⟨e :: es, s, .ready hok hstep hr, hs⟩
      · exact .inl ⟨[], why, q, .stop hok hstep⟩
    · exact .inr ⟨[], p, .refl p, hok⟩

/-- The calls of a run that stops at a given state. -/
theorem Reaches.mem_calls (hprogress : m.Progress) {s t : σ} (hr : Reaches m ok p es s)
    (hstop : m.step s = (.stop why, t)) (hfuel : m.rank p < fuel) :
    s ∈ m.callsFrom fuel p ∧ ∀ x ∈ m.callsFrom fuel p, ok x ∨ x = s := by
  induction hr generalizing fuel with
  | refl p =>
    obtain ⟨fuel, rfl⟩ : ∃ n, fuel = n + 1 := ⟨fuel - 1, by omega⟩
    rw [Machine.callsFrom, hstop]
    exact ⟨mem_singleton_self p, fun x hx => .inr (mem_singleton.mp hx)⟩
  | ready hok hstep _ ih =>
    obtain ⟨fuel, rfl⟩ : ∃ n, fuel = n + 1 := ⟨fuel - 1, by omega⟩
    have hlt := hprogress hstep
    obtain ⟨hmem, hall⟩ := ih hstop (show _ < fuel by omega)
    rw [Machine.callsFrom, hstep]
    refine ⟨mem_cons_of_mem _ hmem, fun x hx => ?_⟩
    rcases mem_cons.mp hx with rfl | hx
    · exact .inl hok
    · exact hall x hx

/-! ### Joining the pieces -/

/-- What makes early steps harmless. `norm` forgets how a state stores what it has not read;
`ok` marks the states at which a step may be taken before all input has arrived. -/
structure Lawful (m : Machine σ β ε) (norm : σ → ν) (ok : σ → Prop) : Prop where
  step_congr : ∀ {p q}, norm p = norm q →
    (m.step p).1 = (m.step q).1 ∧ norm (m.step p).2 = norm (m.step q).2
  more_congr : ∀ {p q} (v : List β) (b : Bool), norm p = norm q →
    norm (m.more v b p) = norm (m.more v b q)
  more_more : ∀ (v w : List β) (b : Bool) (p : σ),
    norm (m.more w b (m.more v false p)) = norm (m.more (v ++ w) b p)
  ready : ∀ {p q e} (v : List β) (b : Bool), ok p → m.step p = (.ready e, q) →
    (m.step (m.more v b p)).1 = .ready e ∧ norm (m.step (m.more v b p)).2 = norm (m.more v b q)
  wait : ∀ {p q} (v : List β) (b : Bool), ok p → m.step p = (.stop .wait, q) →
    (m.step (m.more v b p)).1 = (m.step (m.more v b q)).1 ∧
      norm (m.step (m.more v b p)).2 = norm (m.step (m.more v b q)).2
  halt : ∀ {p q why} (v : List β) (b : Bool), ok p → m.step p = (.stop why, q) → why ≠ .wait →
    (m.step (m.more v b p)).1 = .stop why

variable {norm : σ → ν}

variable {p' : σ}

/-- States that are related, by a relation that steps preserve, emit corresponding events and
stop for the same reason. -/
theorem Drains.simulate {R : σ → σ → Prop} {φ : ε → ε}
    (hR : ∀ {p p'}, R p p' → (m.step p').1 = (m.step p).1.map φ ∧ R (m.step p).2 (m.step p').2)
    (hd : Drains m (fun _ => True) p es why q) (hp : R p p') :
    ∃ q', Drains m (fun _ => True) p' (es.map φ) why q' ∧ R q q' := by
  induction hd generalizing p' with
  | stop _ hstep =>
    obtain ⟨hmove, hnext⟩ := hR hp
    rw [hstep] at hmove hnext
    exact ⟨_, .stop trivial (step_eq_of_move hmove), hnext⟩
  | ready _ hstep _ ih =>
    obtain ⟨hmove, hnext⟩ := hR hp
    rw [hstep] at hmove hnext
    obtain ⟨q', hd', hq'⟩ := ih hnext
    exact ⟨q', .ready trivial (step_eq_of_move hmove) hd', hq'⟩

/-- States with the same normal form run alike. -/
theorem Lawful.drains_congr (h : Lawful m norm ok) (hd : Drains m (fun _ => True) p es why q)
    (hp : norm p = norm p') : ∃ q', Drains m (fun _ => True) p' es why q' ∧ norm q = norm q' := by
  have hsim := @Drains.simulate _ _ _ m p q es why p' (fun p p' => norm p = norm p') id
    (fun {p p'} hp => ⟨(h.step_congr hp).1.symm.trans (Move.map_id _).symm, (h.step_congr hp).2⟩)
    hd hp
  rwa [map_id] at hsim

/-- The next steps of two states come to the same. -/
def StepAlike (m : Machine σ β ε) (norm : σ → ν) (p q : σ) : Prop :=
  (m.step p).1 = (m.step q).1 ∧ norm (m.step p).2 = norm (m.step q).2

theorem Lawful.reaches_congr (h : Lawful m norm ok) (hr : Reaches m (fun _ => True) p es q)
    (hp : norm p = norm p') : ∃ q', Reaches m (fun _ => True) p' es q' ∧ norm q = norm q' := by
  induction hr generalizing p' with
  | refl p => exact ⟨p', .refl p', hp⟩
  | ready _ hstep _ ih =>
    obtain ⟨hmove, hnorm⟩ := h.step_congr hp
    rw [hstep] at hmove hnorm
    obtain ⟨q', hr', hq'⟩ := ih hnorm
    exact ⟨q', .ready trivial (step_eq_of_move hmove.symm) hr', hq'⟩

theorem Lawful.reaches_more (h : Lawful m norm ok) (v : List β) (b : Bool)
    (hr : Reaches m ok p es q) :
    ∃ q', Reaches m (fun _ => True) (m.more v b p) es q' ∧ norm q' = norm (m.more v b q) := by
  induction hr with
  | refl p => exact ⟨_, .refl _, rfl⟩
  | ready hok hstep _ ih =>
    obtain ⟨hmove, hnorm⟩ := h.ready v b hok hstep
    obtain ⟨r₁, hr₁, hn₁⟩ := ih
    obtain ⟨r₂, hr₂, hn₂⟩ := h.reaches_congr hr₁ hnorm.symm
    exact ⟨r₂, .ready trivial (step_eq_of_move hmove) hr₂, hn₂.symm.trans hn₁⟩

/-- A delivery that ended in a wait, and a partial run of what comes next. -/
theorem Lawful.reaches_resume (h : Lawful m norm ok) {v : List β} {b : Bool}
    (hd : Drains m ok p es .wait q) (hnext : Reaches m (fun _ => True) (m.more v b q) es' r) :
    ∃ r', Reaches m (fun _ => True) (m.more v b p) (es ++ es') r' ∧ StepAlike m norm r' r := by
  generalize hw : Stop.wait = w at hd
  induction hd with
  | stop hok hstep =>
    subst hw
    have halike := h.wait v b hok hstep
    cases hnext with
    | refl => exact ⟨_, .refl _, halike⟩
    | ready _ hstep' hrest =>
      obtain ⟨hmove, hnorm⟩ := halike
      rw [hstep'] at hmove hnorm
      obtain ⟨r', hr', hn'⟩ := h.reaches_congr hrest hnorm.symm
      exact ⟨r', .ready trivial (step_eq_of_move hmove) hr', h.step_congr hn'.symm⟩
  | ready hok hstep _ ih =>
    obtain ⟨hmove, hnorm⟩ := h.ready v b hok hstep
    obtain ⟨r₁, hr₁, ha₁⟩ := ih hnext hw
    obtain ⟨r₂, hr₂, hn₂⟩ := h.reaches_congr hr₁ hnorm.symm
    obtain ⟨hm₂, hm₂'⟩ := h.step_congr hn₂
    exact ⟨r₂, .ready trivial (step_eq_of_move hmove) hr₂, hm₂.symm.trans ha₁.1,
      hm₂'.symm.trans ha₁.2⟩

/-- Feeding the pieces `cs` gets, after the events `es`, to a step at `s` which is not `ok`,
with the input `rest` still to come. -/
inductive Stuck (m : Machine σ β ε) (ok : σ → Prop) :
    σ → List (List β) → List ε → σ → List β → Prop
  | here {p s : σ} {c : List β} {cs : List (List β)} {es : List ε} :
      Reaches m ok (m.more c false p) es s → ¬ ok s → Stuck m ok p (c :: cs) es s cs.flatten
  | later {p q s : σ} {c : List β} {cs : List (List β)} {es es' : List ε} {rest : List β} :
      Drains m ok (m.more c false p) es .wait q → Stuck m ok q cs es' s rest →
        Stuck m ok p (c :: cs) (es ++ es') s rest

variable (ok) in
/-- Feeding either stays within the good states or gets stuck. -/
theorem feeds_or_stuck (hprogress : m.Progress) (p : σ) (cs : List (List β)) :
    (∃ es why, Feeds m ok p cs es why) ∨ ∃ es s rest, Stuck m ok p cs es s rest := by
  induction cs generalizing p with
  | nil =>
    obtain ⟨es, why, q, hd, -⟩ := exists_drains (fun _ => True) hprogress
      (p := m.more [] true p) fun _ _ => trivial
    exact .inl ⟨es, why, .last hd⟩
  | cons c cs ih =>
    rcases drains_or_reaches ok hprogress (m.more c false p) with
      ⟨es, why, q, hd⟩ | ⟨es, s, hr, hs⟩
    · by_cases hwhy : why = .wait
      · subst hwhy
        rcases ih q with ⟨es', why, hf⟩ | ⟨es', s, rest, hst⟩
        · exact .inl ⟨es ++ es', why, .resume hd hf⟩
        · exact .inr ⟨es ++ es', s, rest, .later hd hst⟩
      · exact .inl ⟨es, why, .halt hd hwhy⟩
    · exact .inr ⟨es, s, _, .here hr hs⟩

variable {cs : List (List β)}

variable (h : Lawful m norm ok)
include h

/-- With all input delivered at once, the run gets to a step that does what `s` does with the
input it is still missing. -/
theorem Lawful.stuck_single {s : σ} {rest : List β} (hs : Stuck m ok p cs es s rest) :
    ∃ s', Reaches m (fun _ => True) (m.more cs.flatten false p) es s' ∧
      StepAlike m norm s' (m.more rest false s) := by
  induction hs with
  | here hr _ =>
    obtain ⟨s₁, hr₁, hn₁⟩ := h.reaches_more _ false hr
    obtain ⟨s₂, hr₂, hn₂⟩ := h.reaches_congr hr₁ (h.more_more _ _ false _)
    exact ⟨s₂, hr₂, h.step_congr (hn₂.symm.trans hn₁)⟩
  | later hd _ ih =>
    obtain ⟨s₀, hr₀, ha₀⟩ := ih
    obtain ⟨s₁, hr₁, ha₁⟩ := h.reaches_resume hd hr₀
    obtain ⟨s₂, hr₂, hn₂⟩ := h.reaches_congr hr₁ (h.more_more _ _ false _)
    obtain ⟨hm₂, hm₂'⟩ := h.step_congr hn₂
    exact ⟨s₂, hr₂, hm₂.symm.trans (ha₁.1.trans ha₀.1), hm₂'.symm.trans (ha₁.2.trans ha₀.2)⟩

/-- A delivery that ended in a wait is continued by what comes next. -/
theorem Lawful.drains_resume {v : List β} {b : Bool} (hd : Drains m ok p es .wait q)
    (hnext : Drains m (fun _ => True) (m.more v b q) es' why r) :
    ∃ r', Drains m (fun _ => True) (m.more v b p) (es ++ es') why r' ∧ norm r = norm r' := by
  generalize hw : Stop.wait = w at hd
  induction hd with
  | stop hok hstep =>
    subst hw
    obtain ⟨hmove, hnorm⟩ := h.wait v b hok hstep
    -- the first step of the continuation is the first step of the joined run
    cases hnext with
    | stop _ hstep' =>
      rw [hstep'] at hmove hnorm
      exact ⟨_, .stop trivial (step_eq_of_move hmove), hnorm.symm⟩
    | ready _ hstep' hrest =>
      rw [hstep'] at hmove hnorm
      obtain ⟨r', hd', hr'⟩ := h.drains_congr hrest hnorm.symm
      exact ⟨r', .ready trivial (step_eq_of_move hmove) hd', hr'⟩
  | ready hok hstep _ ih =>
    obtain ⟨hmove, hnorm⟩ := h.ready v b hok hstep
    obtain ⟨r₁, hd₁, hr₁⟩ := ih hnext hw
    obtain ⟨r₂, hd₂, hr₂⟩ := h.drains_congr hd₁ hnorm.symm
    exact ⟨r₂, .ready trivial (step_eq_of_move hmove) hd₂, hr₁.trans hr₂⟩

/-- A delivery that ended otherwise ends so whatever would come next. -/
theorem Lawful.drains_halt (v : List β) (b : Bool) (hd : Drains m ok p es why q)
    (hwhy : why ≠ .wait) : ∃ r, Drains m (fun _ => True) (m.more v b p) es why r := by
  induction hd with
  | stop hok hstep =>
    exact ⟨_, .stop trivial (step_eq_of_move (h.halt v b hok hstep hwhy))⟩
  | ready hok hstep _ ih =>
    obtain ⟨hmove, hnorm⟩ := h.ready v b hok hstep
    obtain ⟨r₁, hd₁⟩ := ih hwhy
    obtain ⟨r₂, hd₂, -⟩ := h.drains_congr hd₁ hnorm.symm
    exact ⟨r₂, .ready trivial (step_eq_of_move hmove) hd₂⟩

theorem Lawful.feeds_congr (hf : Feeds m (fun _ => True) p cs es why) (hp : norm p = norm p') :
    Feeds m (fun _ => True) p' cs es why := by
  induction hf generalizing p' with
  | last hd =>
    obtain ⟨q', hd', -⟩ := h.drains_congr hd (h.more_congr [] true hp)
    exact .last hd'
  | resume hd _ ih =>
    obtain ⟨q', hd', hq'⟩ := h.drains_congr hd (h.more_congr _ false hp)
    exact .resume hd' (ih hq')
  | halt hd hwhy =>
    obtain ⟨q', hd', -⟩ := h.drains_congr hd (h.more_congr _ false hp)
    exact .halt hd' hwhy

/-- The first piece of a run can be joined to the second. -/
theorem Lawful.feeds_join {c w : List β} (hd : Drains m ok (m.more c false p) es .wait q)
    (hf : Feeds m (fun _ => True) q [w] es' why) :
    Feeds m (fun _ => True) p [c ++ w] (es ++ es') why := by
  cases hf with
  | resume hd₁ hf₁ =>
    obtain ⟨r, hdr, hr⟩ := h.drains_resume hd hd₁
    obtain ⟨r', hdr', hr'⟩ := h.drains_congr hdr (h.more_more c w false p)
    rw [← append_assoc]
    exact .resume hdr' (h.feeds_congr hf₁ (hr.trans hr'))
  | halt hd₁ hwhy =>
    obtain ⟨r, hdr, -⟩ := h.drains_resume hd hd₁
    obtain ⟨r', hdr', -⟩ := h.drains_congr hdr (h.more_more c w false p)
    exact .halt hdr' hwhy

/-- Feeding piece by piece gives the events and the ending of feeding everything at once. -/
theorem Feeds.single {c : List β} (hf : Feeds m ok p (c :: cs) es why) :
    Feeds m (fun _ => True) p [(c :: cs).flatten] es why := by
  induction cs generalizing p c es with
  | nil =>
    rw [flatten_cons, flatten_nil, append_nil]
    cases hf with
    | resume hd hlast =>
      cases hlast with
      | last hd' => exact .resume (hd.mono fun _ _ => trivial) (.last hd')
    | halt hd hwhy => exact .halt (hd.mono fun _ _ => trivial) hwhy
  | cons c' cs ih =>
    rw [flatten_cons]
    cases hf with
    | resume hd hrest => exact h.feeds_join hd (ih hrest)
    | halt hd hwhy =>
      -- a failure in the first piece is there whatever follows it
      obtain ⟨r, hdr⟩ := h.drains_halt (c' :: cs).flatten false hd hwhy
      obtain ⟨r', hdr', -⟩ := h.drains_congr hdr (h.more_more c _ false p)
      exact .halt hdr' hwhy

end Resumable
