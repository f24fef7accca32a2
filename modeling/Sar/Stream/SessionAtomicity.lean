import Sar.Stream.SessionRuns

/-!
# What a refused entry leaves behind

An entry that is refused leaves the sessions as they were, with one exception
(`AdvancesFirst`): when an entry is the next one of its session and its content is only checked
behind the advance, the session has taken its sequence number before the entry is refused. A
corrected entry with the same number is then out of sequence.

* `processEntry_atomic_iff`: the exception is the only one.
-/

namespace Sar

open Except (rejectIf okOr)
open Stateful

namespace SessionManager

/-- What can be seen of a session. -/
structure SessionView where
  sessionUuid : Octets 16
  lastSequenceNo : UInt16
  peerCapabilities : CapabilityFlags
  metadata : Option SessionMetadataState
  deriving DecidableEq

/-- What can be seen of the sessions of a manager. -/
def view (self : SessionManager) (streamId : UInt16) : Option SessionView :=
  (self.activeSessions.lookup streamId).map fun session =>
    ⟨session.sessionUuid, session.lastSequenceNo, session.peerCapabilities, session.metadata⟩

/-- A refused entry changes nothing that can be seen. -/
def Atomic (m : SessionManager) (entry : SessionEntry) : Prop :=
  ∀ e, (processEntry entry m).1 = .error e → (processEntry entry m).2.view = m.view

/-- The entry is the next one of its session, and the reason to refuse it is only looked at after
its number was taken: a tick that overflows, a resumption of another session or without support
for it, or metadata that the memory limit does not allow. -/
def AdvancesFirst (m : SessionManager) (entry : SessionEntry) : Prop :=
  ∃ globalFlags frame session, Reads m entry globalFlags frame ∧ IsNext m entry frame session ∧
    (u64Max < session.lastActivityTick + 1 ∨
      frame.RefusedLate m.config m.totalSessionMemory session)

section Views

variable {m : SessionManager} {entry : SessionEntry} {session : ActiveSession}

/-- To store a session with another number can be seen. -/
theorem view_setSession_ne {streamId : UInt16} {session' : ActiveSession}
    (h : m.activeSessions.lookup streamId = some session)
    (hne : session'.lastSequenceNo ≠ session.lastSequenceNo) :
    (m.setSession streamId (some session')).view ≠ m.view := by
  intro heq
  have hat := congrFun heq streamId
  rw [view, view, lookup_setSession, if_pos rfl, h, Option.map_some, Option.map_some] at hat
  exact hne (congrArg SessionView.lastSequenceNo (Option.some.inj hat))

end Views

section Atomic

variable {m : SessionManager} {entry : SessionEntry}

/-- An entry that advances first is refused, and can be seen to have advanced. -/
theorem AdvancesFirst.not_atomic (h : AdvancesFirst m entry) : ¬ Atomic m entry := by
  obtain ⟨globalFlags, frame, session, hreads, ⟨hinit, hsome, hsequence⟩, hlate⟩ := h
  have hrun := hreads.processEntry_eq
  have hnext : session.lastSequenceNo + 1 ≠ session.lastSequenceNo := by simp
  intro hatomic
  by_cases htick : u64Max < session.lastActivityTick + 1
  · have hover := processFrame_of_overflow globalFlags hinit hsome hsequence htick
    rw [← hrun] at hover
    have hview := hatomic _ (congrArg Prod.fst hover)
    rw [hover] at hview
    refine view_setSession_ne hsome ?_ hview
    rw [hsequence]
    exact hnext
  · obtain ⟨e, hrefused⟩ := processFrame_of_refusedLate globalFlags hsome hsequence
      (not_lt.mp htick) (hlate.resolve_left htick)
    rw [← hrun] at hrefused
    have hview := hatomic _ (congrArg Prod.fst hrefused)
    rw [hrefused] at hview
    exact view_setSession_ne hsome hnext hview

/-- **Refused entries.** A refused entry leaves what can be seen of the sessions, exactly if it is
not one of those that advance their session first. -/
theorem processEntry_atomic_iff (m : SessionManager) (entry : SessionEntry) :
    Atomic m entry ↔ ¬ AdvancesFirst m entry := by
  refine ⟨fun hatomic hfirst => hfirst.not_atomic hatomic, fun hnot e herror => ?_⟩
  have hturn := processEntry_turn m entry
  rw [← Prod.mk.eta (p := processEntry entry m), herror] at hturn
  generalize (processEntry entry m).2 = m' at hturn ⊢
  cases hturn with
  | rejected => rfl
  | discontinuous hsome _ =>
    -- a session that looks the same is stored
    funext k
    rw [view, view, lookup_setSession]
    split
    · next hk => rw [hk, hsome]
    · rfl
  | overflowed hreads hnext htick => exact absurd ⟨_, _, _, hreads, hnext, .inl htick⟩ hnot
  | refused hreads hnext hlate => exact absurd ⟨_, _, _, hreads, hnext, .inr hlate⟩ hnot

end Atomic

/-- A manager with one session, which was opened with the UUID of ones and the number zero. -/
def oneSession : SessionManager :=
  (runCalls [.observeGlobalHeader (plainHeader true), .processEntry (initEntry 1 5 0)]
    (new ⟨.default, .none, true⟩)).2

/-- `SESSION_RESUME` with the given octet as UUID. -/
def resumeEntry (uuid : UInt8) (streamId sequenceNo : UInt16) : SessionEntry :=
  plainEntry 0x2200 streamId sequenceNo (List.replicate 16 uuid)

/-- The resumption of another session is refused, but it has taken its number: the corrected entry
with this number, which would have been accepted, is out of sequence. -/
theorem resume_other_not_atomic :
    (processEntry (resumeEntry 2 5 1) oneSession).1 =
        .error (.streamState "SESSION_RESUME UUID does not match active session") ∧
      oneSession.view 5 = some ⟨⟨List.replicate 16 1, rfl⟩, 0, .none, none⟩ ∧
      (processEntry (resumeEntry 2 5 1) oneSession).2.view 5 =
        some ⟨⟨List.replicate 16 1, rfl⟩, 1, .none, none⟩ ∧
      (processEntry (resumeEntry 1 5 1) oneSession).1.isOk = true ∧
      (processEntry (resumeEntry 1 5 1) (processEntry (resumeEntry 2 5 1) oneSession).2).1 =
        .error (.streamState "sequence discontinuity detected") := by
  refine ⟨?_, ?_, ?_, ?_, ?_⟩ <;> decide +kernel

end SessionManager

end Sar
