import Sar.Stream.SessionRuns

/-!
# What the sessions take

The manager adds up the memory of its sessions with saturation (`totalSessionMemory`), whenever it
opens one or changes the metadata of one. As no sum beyond `u64::MAX` is ever admitted, the
saturated sum is the real one (`sessionMemory`) in every state that can be reached.

* `Within` — the number of sessions and their memory are within the limits.
* `runCalls_within` — they are after every run.
-/

namespace Sar

open Except (rejectIf okOr)
open Stateful

namespace SessionManager

/-- The memory that all sessions take together. -/
def sessionMemory (self : SessionManager) : ℕ :=
  Table.sumValues ActiveSession.memoryUsage self.activeSessions

/-- A saturating sum is the sum, cut off. -/
theorem foldl_saturating {α : Type} (f : α → ℕ) (bound : ℕ) (xs : List α) :
    ∀ acc, acc ≤ bound →
      xs.foldl (fun acc x => min (acc + f x) bound) acc = min (acc + (xs.map f).sum) bound := by
  induction xs with
  | nil =>
    intro acc hacc
    exact (min_eq_left hacc).symm
  | cons x xs ih =>
    intro acc hacc
    rw [List.foldl_cons, ih _ (min_le_right _ _), List.map_cons, List.sum_cons]
    omega

theorem totalSessionMemory_eq (m : SessionManager) :
    m.totalSessionMemory = min m.sessionMemory u64Max := by
  rw [totalSessionMemory, foldl_saturating _ _ _ 0 (Nat.zero_le _), Nat.zero_add]
  rfl

/-- The sessions are within the limits. -/
structure Within (m : SessionManager) : Prop where
  streams : m.activeSessions.size ≤ m.config.limits.maxActiveStreams
  memory : m.sessionMemory ≤ m.config.limits.maxSessionMemoryBytes
  memory_le : m.sessionMemory ≤ u64Max

section Changes

variable {m : SessionManager} {streamId : UInt16} {session : ActiveSession}
  (f : ActiveSession → ℕ)

/-- A measure of the sessions, when one of them is replaced. -/
theorem sumValues_replace (hsome : m.activeSessions.lookup streamId = some session)
    (session' : ActiveSession) :
    Table.sumValues f (m.setSession streamId (some session')).activeSessions + f session =
      Table.sumValues f m.activeSessions + f session' := by
  have hbefore := Table.sumValues_of_lookup (f := f) hsome
  have hafter := Table.sumValues_insert f streamId session' m.activeSessions
  change Table.sumValues f (m.activeSessions.insert streamId session') + _ = _
  omega

/-- A measure of the sessions, when one is added. -/
theorem sumValues_add (hnone : m.activeSessions.lookup streamId = none) (session' : ActiveSession) :
    Table.sumValues f (m.setSession streamId (some session')).activeSessions =
      Table.sumValues f m.activeSessions + f session' := by
  have hafter := Table.sumValues_insert f streamId session' m.activeSessions
  rw [Table.erase_of_lookup_eq_none hnone] at hafter
  exact hafter.trans (Nat.add_comm _ _)

/-- A measure of the sessions, when one is removed. -/
theorem sumValues_remove (hsome : m.activeSessions.lookup streamId = some session) :
    Table.sumValues f (m.setSession streamId none).activeSessions + f session =
      Table.sumValues f m.activeSessions :=
  (Nat.add_comm _ _).trans (Table.sumValues_of_lookup (f := f) hsome).symm

end Changes

section Steps

variable {m : SessionManager} {entry : SessionEntry} {streamId : UInt16}
  {session session' : ActiveSession}

/-- To replace a session by one that takes no more than there is room for. -/
theorem Within.replace (h : Within m)
    (hsome : m.activeSessions.lookup streamId = some session)
    (hmemory : m.sessionMemory - session.memoryUsage + session'.memoryUsage ≤
      m.config.limits.maxSessionMemoryBytes)
    (hmemory_le : m.sessionMemory - session.memoryUsage + session'.memoryUsage ≤ u64Max) :
    Within (m.setSession streamId (some session')) := by
  have hsize := sumValues_replace (fun _ => 1) hsome session'
  have hsum := sumValues_replace ActiveSession.memoryUsage hsome session'
  have hle : session.memoryUsage ≤ m.sessionMemory := Table.le_sumValues hsome
  have hnew : (m.setSession streamId (some session')).sessionMemory =
      m.sessionMemory - session.memoryUsage + session'.memoryUsage := by
    change _ + _ = m.sessionMemory + _ at hsum
    change Table.sumValues _ _ = _
    omega
  refine ⟨?_, ?_, ?_⟩
  · rw [Table.size_eq_sumValues, Nat.add_right_cancel hsize, ← Table.size_eq_sumValues]
    exact h.streams
  · rw [hnew]
    exact hmemory
  · rw [hnew]
    exact hmemory_le

/-- To replace a session by one that takes as much. -/
theorem Within.replace_same (h : Within m) (hsome : m.activeSessions.lookup streamId = some session)
    (heq : session'.memoryUsage = session.memoryUsage) :
    Within (m.setSession streamId (some session')) := by
  have hle : session.memoryUsage ≤ m.sessionMemory := Table.le_sumValues hsome
  refine h.replace hsome ?_ ?_
  · rw [heq, Nat.sub_add_cancel hle]
    exact h.memory
  · rw [heq, Nat.sub_add_cancel hle]
    exact h.memory_le

theorem Within.remove (h : Within m) (hsome : m.activeSessions.lookup streamId = some session) :
    Within (m.setSession streamId none) := by
  have hsize := sumValues_remove (fun _ => 1) hsome
  have hsum := sumValues_remove ActiveSession.memoryUsage hsome
  have hless : (m.setSession streamId none).sessionMemory ≤ m.sessionMemory :=
    Nat.le.intro hsum
  refine ⟨?_, hless.trans h.memory, hless.trans h.memory_le⟩
  have hstreams := h.streams
  rw [Table.size_eq_sumValues] at hstreams ⊢
  exact (Nat.le.intro hsize).trans hstreams

/-- A new session was admitted by its limits. -/
theorem Within.activated (h : Within m) (hadmits : m.Admits) {globalFlags : GlobalFlags}
    {frame : SessionInitFrame} (hnone : m.activeSessions.lookup entry.header.streamId = none) :
    Within (m.activated globalFlags entry frame) := by
  have hnew := fun f => @sumValues_add { m with activityTick := m.activityTick + 1 }
    entry.header.streamId f hnone
    (initialSession globalFlags entry frame (m.activityTick + 1))
  have htotal : m.totalSessionMemory = m.sessionMemory :=
    (totalSessionMemory_eq m).trans (min_eq_left h.memory_le)
  have hsum : (m.activated globalFlags entry frame).sessionMemory =
      m.sessionMemory + activeSessionBaseMemoryBytes := hnew ActiveSession.memoryUsage
  refine ⟨?_, ?_, ?_⟩
  · rw [Table.size_eq_sumValues]
    refine (hnew fun _ => 1).trans_le ?_
    rw [← Table.size_eq_sumValues]
    exact hadmits.streams
  · rw [hsum, ← htotal]
    exact hadmits.memory
  · rw [hsum, ← htotal]
    exact hadmits.memory_le

/-- What an accepted frame leaves was admitted by the limits. -/
theorem Within.accepted (h : Within m) {frame : SessionFrame}
    (hsome : m.activeSessions.lookup streamId = some session)
    (hlate : ¬ frame.RefusedLate m.config m.totalSessionMemory session) :
    Within (m.setSession streamId (afterFrame session.advanced frame)) := by
  have htotal : m.totalSessionMemory = m.sessionMemory :=
    (totalSessionMemory_eq m).trans (min_eq_left h.memory_le)
  rw [htotal] at hlate
  cases frame with
  | close => exact h.remove hsome
  | metadata frame =>
    obtain ⟨-, hlimit, hmemory⟩ := by simpa only [SessionFrame.RefusedLate, not_or] using hlate
    exact h.replace hsome (not_lt.mp hmemory) (not_lt.mp hlimit)
  | _ => exact h.replace_same hsome rfl

theorem within_run (call : SessionCall) : Preserves Within call.run := by
  intro m hm
  by_cases hcall : ∃ entry, call = .processEntry entry
  · obtain ⟨entry, rfl⟩ := hcall
    have hturn := processEntry_turn m entry
    change Within (processEntry entry m).2
    generalize processEntry entry m = r at hturn
    cases hturn with
    | rejected | inactive => exact hm
    | activated _ hnone hadmits => exact hm.activated hadmits hnone
    | discontinuous hsome _ => exact hm.replace_same hsome rfl
    | overflowed _ hnext _ | refused _ hnext _ => exact hm.replace_same hnext.lookup_eq rfl
    | accepted _ hnext _ hlate => exact hm.accepted hnext.lookup_eq hlate
  · obtain ⟨hsessions, hconfig, -⟩ := run_sessions_eq (not_exists.mp hcall) m
    refine ⟨?_, ?_, ?_⟩
    · rw [hsessions, hconfig]
      exact hm.streams
    · rw [sessionMemory, hsessions, hconfig]
      exact hm.memory
    · rw [sessionMemory, hsessions]
      exact hm.memory_le

end Steps

/-- No call changes the configuration. -/
theorem runCalls_config (config : SessionManagerConfig) (calls : List SessionCall) :
    (runCalls calls (new config)).2.config = config := by
  refine runCalls_induction (P := fun m => m.config = config) (fun call m hm => ?_) calls rfl
  by_cases hcall : ∃ entry, call = .processEntry entry
  · obtain ⟨entry, rfl⟩ := hcall
    exact (processEntry_processed m entry).config_eq.trans hm
  · exact (run_sessions_eq (not_exists.mp hcall) m).2.1.trans hm

/-- **The limits of the sessions** hold after every run. -/
theorem runCalls_within (config : SessionManagerConfig) (calls : List SessionCall) :
    Within (runCalls calls (new config)).2 :=
  runCalls_induction within_run calls ⟨Nat.zero_le _, Nat.zero_le _, Nat.zero_le _⟩

end SessionManager

end Sar
