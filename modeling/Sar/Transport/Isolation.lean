import Sar.Transport.Steps

/-!
# The binding of one SAR stream id

The tables are keyed by SAR stream ids while every transport stream runs a session manager of its
own. A call on one transport stream is meant to leave the ids of the others alone. It does so
except in two places: a `SESSION_CLOSE` clears whatever id it names, also when the session behind
it was refused by the transport, and closing or resetting a stream clears the id the stream
remembers, also when that id is bound elsewhere by now.

`Stepped.rebinds` lists all that a step does to the bindings: it keeps them, binds a free id, or
clears one id. From it, **`sameBinding_of_run`** takes the ids of other streams through whole runs.
-/

namespace Sar

open Stateful

namespace InMemoryTransport

variable {id : TransportStreamId} {t t' t'' : InMemoryTransport} {k : UInt16}

/-- All that the tables say of one SAR stream id. -/
structure SameBinding (k : UInt16) (t t' : InMemoryTransport) : Prop where
  active : t'.activeSarStreams.lookup k = t.activeSarStreams.lookup k
  uuid : t'.activeSessionUuids.lookup k = t.activeSessionUuids.lookup k
  header : t'.activeGlobalHeaders.lookup k = t.activeGlobalHeaders.lookup k
  tls : k ∈ t'.tlsExporterBound ↔ k ∈ t.tlsExporterBound

theorem SameBinding.refl (k : UInt16) (t : InMemoryTransport) : SameBinding k t t :=
  ⟨rfl, rfl, rfl, Iff.rfl⟩

theorem SameBinding.trans (h : SameBinding k t t') (h' : SameBinding k t' t'') :
    SameBinding k t t'' :=
  ⟨h'.active.trans h.active, h'.uuid.trans h.uuid, h'.header.trans h.header, h'.tls.trans h.tls⟩

theorem SameTables.sameBinding (h : SameTables t t') (k : UInt16) : SameBinding k t t' := by
  refine ⟨?_, ?_, ?_, ?_⟩
  · rw [h.active]
  · rw [h.uuids]
  · rw [h.headers]
  · rw [h.tls]

/-- One id is bound anew. -/
structure Bound (sar : UInt16) (t t' : InMemoryTransport) : Prop where
  others : ∀ k, k ≠ sar → SameBinding k t t'
  active : sar ∈ t'.activeSarStreams
  tls : sar ∈ t'.tlsExporterBound → sar ∈ t.tlsExporterBound ∨
    ∃ header, t'.activeGlobalHeaders.lookup sar = some header ∧ usesTlsExporter header

/-- One id is cleared; its Global Header may stay. -/
structure Cleared (sar : UInt16) (t t' : InMemoryTransport) : Prop where
  others : ∀ k, k ≠ sar → SameBinding k t t'
  active : sar ∉ t'.activeSarStreams
  tls : sar ∉ t'.tlsExporterBound

theorem bound_activated (sar : UInt16) (uuid : Octets 16) (t : InMemoryTransport) :
    Bound sar t (activated id sar uuid t) := by
  rw [activated, bindSarStream]
  dsimp only
  split
  · next header _ =>
    refine ⟨fun k hk => ⟨AList.lookup_insert_ne hk, AList.lookup_insert_ne hk,
      AList.lookup_insert_ne hk, ?_⟩, (AList.mem_insert _).mpr (Or.inl rfl), fun htls => ?_⟩
    · dsimp only
      split
      · rw [Finset.mem_insert, or_iff_right hk]
      · rfl
    · dsimp only at htls
      split at htls
      · next hexporter => exact Or.inr ⟨header, AList.lookup_insert _, hexporter⟩
      · exact Or.inl htls
  · exact ⟨fun k hk => ⟨AList.lookup_insert_ne hk, AList.lookup_insert_ne hk, rfl, Iff.rfl⟩,
      (AList.mem_insert _).mpr (Or.inl rfl), Or.inl⟩

theorem cleared_deactivated (sar : UInt16) (state : TransportStreamState)
    (t : InMemoryTransport) : Cleared sar t (deactivated id sar state t) :=
  ⟨fun _ hk => ⟨AList.lookup_erase_ne hk, AList.lookup_erase_ne hk, AList.lookup_erase_ne hk,
    Finset.mem_erase.trans (and_iff_right hk)⟩, fun hmem => (AList.mem_erase.mp hmem).1 rfl,
    fun hmem => (Finset.mem_erase.mp hmem).1 rfl⟩

/-- Closing or resetting a stream clears the id it remembers, unless it is a control stream. -/
theorem cleared_detach (bound : Option UInt16) (t : InMemoryTransport) :
    (∀ k, SameBinding k t (detach id bound t)) ∨
      ∃ sar, bound = some sar ∧ t.controlStreamAttachments.lookup id = none ∧
        Cleared sar t (detach id bound t) := by
  rcases detach_cases id bound t with heq | ⟨sar, hbound, hplain, heq⟩
  · rw [heq]
    exact Or.inl fun k => ⟨rfl, rfl, rfl, Iff.rfl⟩
  · rw [heq]
    exact Or.inr ⟨sar, hbound, hplain, fun _ hk => ⟨AList.lookup_erase_ne hk,
      AList.lookup_erase_ne hk, rfl, Finset.mem_erase.trans (and_iff_right hk)⟩,
      fun hmem => (AList.mem_erase.mp hmem).1 rfl, fun hmem => (Finset.mem_erase.mp hmem).1 rfl⟩

/-- What happens between two transports happens between transports with the same bindings. -/
theorem Cleared.congr {t₁ : InMemoryTransport} {sar : UInt16} (h : Cleared sar t' t'')
    (hbefore : ∀ k, SameBinding k t t') (hafter : ∀ k, SameBinding k t'' t₁) :
    Cleared sar t t₁ := by
  refine ⟨fun k hk => (hbefore k).trans ((h.others k hk).trans (hafter k)), ?_, ?_⟩
  · rw [← AList.lookup_isSome, (hafter sar).active, AList.lookup_isSome]
    exact h.active
  · rw [(hafter sar).tls]
    exact h.tls

/-- The event is a `SESSION_CLOSE` for the id. -/
def ClosesId (k : UInt16) (event : LoopEvent) : Prop :=
  ∃ seq uuid actions, event = .sessionResult seq (.ok ⟨[.sessionClosed k uuid], actions⟩)

section Steps

variable {before after : Call}

/-- The start of a feed binds and clears nothing. -/
theorem Routed.sameBinding {bytes : Bytes} {r : Result Route × Call} (h : Routed id bytes before r)
    (k : UInt16) : SameBinding k before.transport r.2.transport := by
  have hset : ∀ context, SameBinding k before.transport (setContext id context before).transport :=
    fun context => (touched_setContext before context).tables.sameBinding k
  cases h with
  | failed error => exact .refl k _
  | pushed => exact hset _
  | control => exact hset _
  | buffered => exact hset _
  | started => exact hset _
  | refused _ _ _ _ hreject =>
    exact (hset _).trans (hreject.maybeRejected.sameTables.sameBinding k)
  | attached _ _ _ _ _ htouched =>
    obtain ⟨hactive, huuid, hheader, htls⟩ := htouched.tables.sameBinding k
    exact ⟨hactive, huuid, hheader, htls⟩

theorem Opened.sameBinding (h : Opened id before after) (k : UInt16) :
    SameBinding k before.transport after.transport := by
  cases h with
  | failed hafter =>
    rw [hafter]
    exact .refl k _
  | entered _ _ htouched _ hend =>
    exact (htouched.tables.sameBinding k).trans (hend.sameTables.sameBinding k)

end Steps

end InMemoryTransport

/-! ### Runs -/

namespace Connection

open InMemoryTransport

variable {backend : Backend} {c c' : Connection} {s : Step} {id other : TransportStreamId}
  {k : UInt16}

/-- The step clears no id that is bound to another stream. -/
def ClosesOwn (backend : Backend) (c : Connection) : Step → Prop
  | .start (.close id) | .start (.reset id _) => ∀ context sar other,
    c.transport.streams.lookup id = some context → context.boundSarStreamId = some sar →
    c.transport.controlStreamAttachments.lookup id = none →
    c.transport.activeSarStreams.lookup sar = some other → other = id
  | .start _ => True
  | .turn => ∀ id nowMs event found sar other, c.phase = .feeding id nowMs →
    feedEvent backend id nowMs c.call = (.ok event, found) → ClosesId sar event →
    c.transport.activeSarStreams.lookup sar = some other → other = id

/-- The step clears the id on the stream: by its `SESSION_CLOSE`, or by closing or resetting a
stream that remembers it and is no control stream. -/
def Clears (backend : Backend) (c : Connection) (id : TransportStreamId) (sar : UInt16) :
    Step → Prop
  | .start (.close i) | .start (.reset i _) => i = id ∧ ∃ context,
    c.transport.streams.lookup id = some context ∧ context.boundSarStreamId = some sar ∧
    c.transport.controlStreamAttachments.lookup id = none
  | .start _ => False
  | .turn => ∃ nowMs event found, c.phase = .feeding id nowMs ∧
    feedEvent backend id nowMs c.call = (.ok event, found) ∧ ClosesId sar event

/-- An id that such a step clears is not bound to another stream. -/
theorem ClosesOwn.eq_of_clears (h : c.ClosesOwn backend s) {sar : UInt16}
    (hclears : c.Clears backend id sar s)
    (hbound : c.transport.activeSarStreams.lookup sar = some other) : other = id := by
  match s, h, hclears with
  | .start (.close _), h, ⟨rfl, context, hlookup, hremembers, hplain⟩ =>
    exact h context sar other hlookup hremembers hplain hbound
  | .start (.reset _ _), h, ⟨rfl, context, hlookup, hremembers, hplain⟩ =>
    exact h context sar other hlookup hremembers hplain hbound
  | .turn, h, ⟨nowMs, event, found, hphase, hfind, hcloses⟩ =>
    exact h id nowMs event found sar other hphase hfind hcloses hbound

/-- All that a step on a stream does to the bindings. -/
inductive Rebinds (backend : Backend) (c : Connection) (id : TransportStreamId)
    (t' : InMemoryTransport) : Step → Prop where
  | kept {s : Step} (h : ∀ k, SameBinding k c.transport t') : Rebinds backend c id t' s
  /-- An accepted `SESSION_INIT` for an id that is not bound. -/
  | bound {nowMs : Option UInt64} {found : Call} {seq sar : UInt16} {uuid : Octets 16}
      {flags : SessionFlags} (hphase : c.phase = .feeding id nowMs)
      (hfind : feedEvent backend id nowMs c.call =
        (.ok (.sessionResult seq (.ok (.single (.sessionActivated sar uuid flags)))), found))
      (hsame : SameTables c.transport found.transport)
      (haccept : found.transport.activationRefusal sar flags = none)
      (h : Bound sar found.transport t') : Rebinds backend c id t' .turn
  | cleared {s : Step} {sar : UInt16} (hclears : c.Clears backend id sar s)
      (h : Cleared sar c.transport t') : Rebinds backend c id t' s

/-- Closing and resetting clear at most the id that the stream remembers. -/
theorem Detached.rebinds {state : TransportStreamState} {after : Call}
    (h : Detached id state ⟨c.transport, [], []⟩ after)
    (hstart : ∀ sar context, c.transport.streams.lookup id = some context →
      context.boundSarStreamId = some sar → c.transport.controlStreamAttachments.lookup id = none →
      c.Clears backend id sar s) : Rebinds backend c id after.transport s := by
  cases h with
  | failed hafter =>
    rw [hafter]
    exact .kept fun k => .refl k _
  | @detached context hlookup htouched _ =>
    have hafter := htouched.tables.sameBinding
    rcases @cleared_detach id context.boundSarStreamId c.transport with
      hkept | ⟨sar, hremembers, hplain, hcleared⟩
    · exact .kept fun k => (hkept k).trans (hafter k)
    · exact .cleared (hstart sar context hlookup hremembers hplain)
        (hcleared.congr (fun k => .refl k _) hafter)

/-- **The bindings in one step.** -/
theorem Stepped.rebinds (h : Stepped backend c id s c') : Rebinds backend c id c'.transport s := by
  cases h with
  | opened h => exact .kept h.sameBinding
  | routed h => exact .kept h.sameBinding
  | closed h => exact Detached.rebinds h fun sar context hl hr hp => ⟨rfl, context, hl, hr, hp⟩
  | reset h => exact Detached.rebinds h fun sar context hl hr hp => ⟨rfl, context, hl, hr, hp⟩
  | controlled _ _ h => exact .kept h.sameTables.sameBinding
  | @fed nowMs r hphase _ h =>
    change Rebinds backend c id r.2.transport .turn
    cases h with
    | missing hafter =>
      rw [hafter]
      exact .kept fun k => .refl k _
    | @found event found _ _ hfind _ htouched _ _ hhandled =>
      have hbefore := htouched.tables.sameBinding
      cases hhandled with
      | quiet hquiet => exact .kept fun k => (hbefore k).trans (hquiet.sameTables.sameBinding k)
      | rejected _ htransport _ =>
        rw [htransport]
        exact .kept fun k => (hbefore k).trans ((sameTables_markRejected id _ _).sameBinding k)
      | @activated seq sar uuid flags haccept htransport _ =>
        rw [htransport]
        exact .bound hphase hfind htouched.tables haccept (bound_activated sar uuid _)
      | @closed seq sar uuid actions rejected state _ htransport _ =>
        rw [htransport]
        refine .cleared ⟨nowMs, _, found, hphase, hfind, seq, uuid, actions, rfl⟩
          ((cleared_deactivated sar state _).congr (fun k => ?_) fun k => .refl k _)
        exact (hbefore k).trans ⟨rfl, rfl, rfl, Iff.rfl⟩

/-- A step keeps the binding of a bound id, unless it clears it. -/
theorem Rebinds.sameBinding {t' : InMemoryTransport} (h : Rebinds backend c id t' s)
    (hbound : c.transport.activeSarStreams.lookup k = some other)
    (hkeeps : ¬ c.Clears backend id k s) : SameBinding k c.transport t' := by
  cases h with
  | kept h => exact h k
  | bound _ _ hsame haccept h =>
    refine (hsame.sameBinding k).trans (h.others k ?_)
    rintro rfl
    -- an id that is bound is not activated again
    have hfresh := (activationRefusal_eq_none haccept).2.1
    rw [hsame.active, hbound] at hfresh
    exact nomatch hfresh
  | cleared hclears h =>
    refine h.others k ?_
    rintro rfl
    exact hkeeps hclears

/-- A step on one stream keeps the binding of an id of another stream. -/
theorem Stepped.sameBinding (h : Stepped backend c id s c') (hown : c.ClosesOwn backend s)
    (hbound : c.transport.activeSarStreams.lookup k = some other) (hother : other ≠ id) :
    SameBinding k c.transport c'.transport :=
  h.rebinds.sameBinding hbound fun hclears => hother (hown.eq_of_clears hclears hbound)

/-- The step is a `SESSION_CLOSE` for the id on the stream, or it closes or resets the stream. -/
def Releases (backend : Backend) (c : Connection) (id : TransportStreamId) (k : UInt16) :
    Step → Prop
  | .start (.close i) | .start (.reset i _) => i = id
  | .start _ => False
  | .turn => ∃ nowMs event found, c.phase = .feeding id nowMs ∧
    feedEvent backend id nowMs c.call = (.ok event, found) ∧ ClosesId k event

theorem Clears.releases (h : c.Clears backend id k s) : c.Releases backend id k s := by
  match s, h with
  | .start (.close _), h => exact h.1
  | .start (.reset _ _), h => exact h.1
  | .turn, h => exact h

/-- The tables say the same of a bound id until it is closed or its stream is closed or reset. -/
theorem sameBinding_or_releases (henabled : c.Enabled s) (hown : c.ClosesOwn backend s)
    (hbound : c.transport.activeSarStreams.lookup k = some id) :
    SameBinding k c.transport (c.step backend s).transport ∨ c.Releases backend id k s := by
  obtain ⟨i, -, hstep⟩ := step_stepped backend henabled
  by_cases hclears : c.Clears backend i k s
  · obtain rfl := hown.eq_of_clears hclears hbound
    exact Or.inr hclears.releases
  · exact Or.inl (hstep.rebinds.sameBinding hbound hclears)

/-- **Calls on one stream leave the ids of the others alone**, when their steps clear no id that
is bound to another stream: the binding, the session, the Global Header and the need for
encryption of such an id stay. -/
theorem sameBinding_of_run
    (hrun : Run backend (fun c s => c.streamOf s = some id ∧ c.ClosesOwn backend s) c c')
    (hbound : c.transport.activeSarStreams.lookup k = some other) (hother : other ≠ id) :
    SameBinding k c.transport c'.transport := by
  refine hrun.invariant (P := fun c' => SameBinding k c.transport c'.transport) ?_ (.refl k _)
  rintro d s henabled ⟨hstream, hown⟩ hsame
  obtain ⟨i, hi, hstep⟩ := step_stepped backend henabled
  obtain rfl := Option.some.inj (hstream.symm.trans hi)
  exact hsame.trans (hstep.sameBinding hown (hsame.active.trans hbound) hother)

/-- The id that an accepted `SESSION_CLOSE` names. -/
def closedId : Result LoopEvent → Option UInt16
  | .ok (.sessionResult _ (.ok ⟨[.sessionClosed sar _], _⟩)) => some sar
  | _ => none

/-- A check that can be evaluated: a `SESSION_CLOSE` names an id that no other stream is bound to,
and a stream that is closed or reset remembers no id. -/
def closesOnlyOwn (backend : Backend) (c : Connection) : Step → Bool
  | .start (.close id) | .start (.reset id _) =>
    ((c.transport.streams.lookup id).bind (·.boundSarStreamId)).isNone
  | .start _ => true
  | .turn => match c.phase with
    | .feeding id nowMs => (closedId (feedEvent backend id nowMs c.call).1).all fun sar =>
      (c.transport.activeSarStreams.lookup sar).all (· == id)
    | _ => true

theorem closesOwn_of_check (c : Connection) (s : Step) (h : closesOnlyOwn backend c s = true) :
    c.ClosesOwn backend s := by
  have hstart : ∀ {id}, ((c.transport.streams.lookup id).bind (·.boundSarStreamId)).isNone →
      ∀ context sar other, c.transport.streams.lookup id = some context →
      context.boundSarStreamId = some sar → c.transport.controlStreamAttachments.lookup id = none →
      c.transport.activeSarStreams.lookup sar = some other → other = id := by
    intro id hnone context sar other hlookup hremembers
    rw [hlookup, Option.bind_some, hremembers] at hnone
    exact nomatch hnone
  match s, h with
  | .start (.openStream _), _ | .start (.feed _ _ _), _ => trivial
  | .start (.close id), h => exact hstart h
  | .start (.reset id _), h => exact hstart h
  | .turn, h =>
    rintro id nowMs event found sar other hphase hfind ⟨seq, uuid, actions, rfl⟩ hbound
    rw [closesOnlyOwn, hphase] at h
    dsimp only at h
    rw [hfind, closedId, Option.all_some, hbound, Option.all_some] at h
    exact eq_of_beq h

/-- Two streams, the first of which has a session. -/
def exampleTwoStreams : List Step :=
  [.start (.openStream 1), .start (.openStream 2),
    .start (.feed 1 (exampleHeader ++ exampleInit 1) none), .turn, .turn, .turn]

/-- A session on the second stream, which is closed again, and so is the stream. -/
def exampleOtherStream : List Step :=
  [.start (.feed 2 (exampleHeader ++ exampleInit 2 ++ exampleEntry 1 2 1 []) none), .turn, .turn,
    .turn, .turn, .start (.close 2)]

/-- What is done on the second stream leaves the session of the first one alone. -/
theorem sameBinding_exampleTwoStreams :
    let c := (initial (InMemoryTransport.new .quic .default none)).after .plain exampleTwoStreams
    c.transport.activeSarStreams.lookup 1 = some 1 ∧
      (c.after .plain (exampleOtherStream.take 3)).transport.activeSarStreams.lookup 2 = some 2 ∧
      SameBinding 1 c.transport (c.after .plain exampleOtherStream).transport := by
  intro c
  have hbound : c.transport.activeSarStreams.lookup 1 = some 1 := by decide +kernel
  have hchecked : Follows .plain
      (fun c s => c.streamOf s = some 2 ∧ closesOnlyOwn .plain c s = true) c
      exampleOtherStream := by decide +kernel
  exact ⟨hbound, by decide +kernel, sameBinding_of_run
    (run_after _ (hchecked.imp fun c s h => ⟨h.1, closesOwn_of_check c s h.2⟩)) hbound
    (by decide : (1 : TransportStreamId) ≠ 2)⟩

/-- On the second stream a `SESSION_INIT` for the id of the first one is refused, and a
`SESSION_CLOSE` for it then clears the binding of the first one. -/
theorem not_sameBinding_after_duplicate :
    ∃ c, Run .plain (fun _ _ => True) (initial (InMemoryTransport.new .quic .default none)) c ∧
      c.transport.activeSarStreams.lookup 1 = some 1 ∧
      (feedBytes .plain 2 (exampleHeader ++ exampleInit 1 ++ exampleEntry 1 1 1 []) none
        c.transport).2.activeSarStreams.lookup 1 = none := by
  refine ⟨(initial (InMemoryTransport.new .quic .default none)).after .plain exampleTwoStreams,
    run_after _ (by decide +kernel), by decide +kernel, by decide +kernel⟩

end Connection

end Sar
