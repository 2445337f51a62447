import ServingLifecycle.Proofs.System.Returns
/-!
# The lock table

The table of locks does not grow with the slots that were ever worked on. A task that ends drops every lock that nobody
has a handle on; as no lock is under two slots, what is left then is under slots of operations in flight, and nothing is
left when it was the last of them. A task whose program broke off drops no lock, so its own may stay behind until the next
task ends.
-/
namespace ServingLifecycle

namespace Phase

theorem isOver_of_handle {phase : Phase} {lock : LockId} (h : phase.handle = some lock) : phase.isOver = false := by
  cases phase <;> cases h <;> rfl

/-- Why the lock may still be in the table: the task has a handle on it, is yet to drop locks, or broke off before it
did. -/
def Keeps (lock : LockId) : Phase → Prop
  | leaving _ => True
  | crashed _ => True
  | phase => phase.handle = some lock

theorem keeps_of_handle {phase : Phase} {lock : LockId} (h : phase.handle = some lock) : phase.Keeps lock := by
  cases phase <;> cases h <;> rfl

theorem Keeps.not_over_or_crashed {phase : Phase} {lock : LockId} (h : phase.Keeps lock) :
    phase.isOver = false ∨ ∃ fault, phase = .crashed fault := by
  cases phase with
  | crashed fault => exact Or.inr ⟨fault, rfl⟩
  | finished verdict => cases h
  | _ => exact Or.inl rfl

end Phase

namespace System

/-- A task of the slot keeps the lock in the table. -/
def KeptFor (s : System) (i : Identity) (lock : LockId) : Prop :=
  ∃ (t : TaskId) (task : Task), s.tasks[t]? = some task ∧ task.operation.identity = i ∧ task.phase.Keeps lock

/-- Every lock of the table is under one slot, and a task of that slot keeps it there. -/
structure Tended (s : System) : Prop extends Locked s, Apart s where
  kept : ∀ {i : Identity} {lock : LockId}, (i, lock) ∈ s.locks → s.KeptFor i lock

/-- The task ends between the two, and its program did not break off. -/
def Finishes (s s' : System) (t : TaskId) : Prop :=
  ∃ task task' verdict, s.tasks[t]? = some task ∧ task.phase.isOver = false
    ∧ s'.tasks[t]? = some task' ∧ task'.phase = .finished verdict

variable {s s' : System} {t : TaskId} {task : Task} {i : Identity} {lock : LockId}

/-- A task may go on, if it goes on keeping the lock. -/
theorem KeptFor.setPhase (h : s.KeptFor i lock) (ht : s.tasks[t]? = some task) {phase : Phase}
    (keeps : task.phase.Keeps lock → phase.Keeps lock) : (s.setPhase t phase).KeptFor i lock := by
  obtain ⟨u, other, hu, own, kept⟩ := h
  by_cases same : u = t
  · subst same
    obtain rfl := Option.some.inj (ht.symm.trans hu)
    exact ⟨u, _, getElem?_setPhase_self ht phase, own, keeps kept⟩
  · exact ⟨u, other, (getElem?_setPhase_of_ne same phase).trans hu, own, kept⟩

theorem of_mem_locks_lookUp {entry : Identity × LockId} (h : entry ∈ (s.lookUp i).2.locks) :
    entry ∈ s.locks ∨ entry = (i, (s.lookUp i).1) := by
  unfold lookUp at h ⊢
  cases hl : s.locks.lookup i with
  | some lock =>
    rw [hl] at h
    exact Or.inl h
  | none =>
    rw [hl] at h
    exact (List.mem_append.mp h).imp id List.mem_singleton.mp

theorem tended_startingFrom (settings : Settings) (metrics : Option Metrics) (registry : Registry) :
    (startingFrom settings metrics registry).Tended where
  toLocked := (ordered_startingFrom settings metrics registry).locked
  toApart := apart_startingFrom settings metrics registry
  kept := nofun

namespace Tended

/-- What is left in the table when locks are dropped is the locks of those who have a handle on one. -/
theorem mem_locks_prune (h : s.Tended) : (i, lock) ∈ s.prune.locks ↔
    ∃ (t : TaskId) (task : Task), s.tasks[t]? = some task ∧ task.operation.identity = i
      ∧ task.phase.handle = some lock := by
  constructor
  · intro left
    obtain ⟨entry, used⟩ := List.mem_filter.mp left
    obtain ⟨task, hm, hl⟩ := List.any_eq_true.mp used
    obtain ⟨t, ht⟩ := List.getElem?_of_mem hm
    have handle : task.phase.handle = some lock := by simpa using hl
    exact ⟨t, task, ht, h.toApart.identity_eq h.toLocked entry ht handle, handle⟩
  · rintro ⟨t, task, ht, rfl, handle⟩
    refine List.mem_filter.mpr ⟨h.handled ht handle, List.any_eq_true.mpr ⟨task, List.mem_of_getElem? ht, ?_⟩⟩
    simpa using handle

/-- After a task has left, the locks that remain are those on which operations in flight have a handle. -/
theorem mem_locks_leave (h : s.Tended) (ht : s.tasks[t]? = some task) {verdict : Verdict}
    (hp : task.phase = .leaving verdict) : (i, lock) ∈ (s.prune.setPhase t (.finished verdict)).locks ↔
      ∃ other ∈ (s.prune.setPhase t (.finished verdict)).tasks, other.operation.identity = i
        ∧ other.phase.handle = some lock ∧ other.phase.isOver = false := by
  constructor
  · intro left
    obtain ⟨u, other, hu, own, handle⟩ := h.mem_locks_prune.mp left
    -- the task that leaves has no handle, so it is another one
    have apart : u ≠ t := by
      rintro rfl
      obtain rfl := Option.some.inj (ht.symm.trans hu)
      rw [hp] at handle
      cases handle
    have hu' : (s.prune.setPhase t (.finished verdict)).tasks[u]? = some other :=
      (getElem?_setPhase_of_ne apart _).trans hu
    exact ⟨other, List.mem_of_getElem? hu', own, handle, Phase.isOver_of_handle handle⟩
  · rintro ⟨other, hm, own, handle, _⟩
    obtain ⟨u, hu⟩ := List.getElem?_of_mem hm
    rcases of_getElem?_setPhase (s := s.prune) ht hu with ⟨_, rfl⟩ | ⟨_, hu⟩
    · cases handle
    · exact h.mem_locks_prune.mpr ⟨u, other, hu, own, handle⟩

theorem keptFor_of_turn {o : Option Observation} (h : s.Tended) (ht : s.tasks[t]? = some task)
    (turn : s.Turn t task o s') (entry : (i, lock) ∈ s'.locks) : s'.KeptFor i lock := by
  cases turn with
  | arrive hp =>
    have ht' : (s.lookUp task.operation.identity).2.tasks[t]? = some task := by rw [tasks_lookUp]; exact ht
    rcases of_mem_locks_lookUp entry with entry | e
    · have kept : (s.lookUp task.operation.identity).2.KeptFor i lock := by
        rw [KeptFor, tasks_lookUp]
        exact h.kept entry
      exact kept.setPhase ht' fun hk => by rw [hp] at hk; cases hk
    · obtain ⟨rfl, rfl⟩ := Prod.mk.inj e
      exact ⟨t, _, getElem?_setPhase_self ht' _, rfl, rfl⟩
  | enter hp => exact (h.kept entry).setPhase ht fun hk => by rw [hp] at hk; exact hk
  | access hp => exact (h.kept entry).setPhase ht fun hk => by rw [hp] at hk; exact hk
  | breakOff hp => exact (h.kept entry).setPhase ht fun hk => by rw [hp] at hk; exact hk
  | count hp => exact (h.kept entry).setPhase ht fun hk => by rw [hp] at hk; exact hk
  | abort hp => exact (h.kept entry).setPhase ht fun hk => by rw [hp] at hk; exact hk
  | release hp => exact (h.kept entry).setPhase ht fun hk => by rw [hp] at hk; exact hk
  | giveUp => exact (h.kept entry).setPhase ht fun _ => trivial
  | leave hp =>
    obtain ⟨other, hm, own, handle, _⟩ := (h.mem_locks_leave ht hp).mp entry
    obtain ⟨u, hu⟩ := List.getElem?_of_mem hm
    exact ⟨u, other, hu, own, Phase.keeps_of_handle handle⟩
  | unlock hp => exact (h.kept entry).setPhase ht fun hk => by rw [hp] at hk; exact hk
  | crash => exact (h.kept entry).setPhase ht fun _ => trivial

theorem step {e : Event} (h : s.Tended) (step : s.step e = some s') : s'.Tended where
  toLocked := h.toLocked.step step
  toApart := h.toApart.step step
  kept entry := by
    rcases turn_of_step step with ⟨operation, _, rfl⟩ | ⟨t, task, o, _, ht, turn, _⟩
    · obtain ⟨t, task, ht, own, kept⟩ := h.kept entry
      exact ⟨t, task, getElem?_submit_of_some operation ht, own, kept⟩
    · exact h.keptFor_of_turn ht turn entry

theorem run {events : List Event} (h : s.Tended) (run : s.run events = some s') : s'.Tended := by
  induction events generalizing s with
  | nil => exact Option.some.inj run ▸ h
  | cons e es ih =>
    obtain ⟨s₁, step, run⟩ := Option.bind_eq_some_iff.mp run
    exact ih (h.step step) run

end Tended

/-- Only a task that leaves can end in a turn of its own without having broken off. -/
theorem Turn.eq_leave {o : Option Observation} {task' : Task} {verdict : Verdict} (turn : s.Turn t task o s')
    (ht : s.tasks[t]? = some task) (ht' : s'.tasks[t]? = some task') (hp' : task'.phase = .finished verdict) :
    task.phase = .leaving verdict ∧ s' = s.prune.setPhase t (.finished verdict) := by
  -- the phase after the turn is `finished` for no other turn
  have after (s₀ : System) {phase : Phase} (tasks : s₀.tasks = s.tasks) (e : s' = s₀.setPhase t phase) :
      phase = .finished verdict := by
    rw [e, getElem?_setPhase_self (tasks ▸ ht)] at ht'
    rw [← hp', ← Option.some.inj ht']
  cases turn with
  | leave hp =>
    cases after s.prune rfl rfl
    exact ⟨hp, rfl⟩
  | arrive => cases after _ (tasks_lookUp s _) rfl
  | @access lock p q a r => cases after { s with registry := r } rfl rfl
  | count => cases after (s.count _ _) rfl rfl
  | _ => cases after s rfl rfl

theorem exists_leaving {e : Event} (step : s.step e = some s') (finishes : Finishes s s' t) :
    ∃ task verdict, s.tasks[t]? = some task ∧ task.phase = .leaving verdict
      ∧ s' = s.prune.setPhase t (.finished verdict) := by
  obtain ⟨task, task', verdict, ht, flight, ht', hp'⟩ := finishes
  have unchanged (h : s'.tasks[t]? = s.tasks[t]?) : False := by
    rw [h, ht] at ht'
    rw [Option.some.inj ht', hp'] at flight
    cases flight
  rcases turn_of_step step with ⟨operation, _, rfl⟩ | ⟨u, other, o, _, hu, turn, _⟩
  · exact (unchanged ((getElem?_submit_of_some operation ht).trans ht.symm)).elim
  · by_cases same : t = u
    · subst same
      obtain ⟨hp, e⟩ := turn.eq_leave hu ht' hp'
      exact ⟨other, verdict, hu, hp, e⟩
    · exact (unchanged (turn.getElem?_eq same)).elim

/-- When an operation ends and has not broken off, locks are dropped: what is left is the locks on which operations in
flight have a handle, each under the slot of such an operation, and nothing if none is in flight any more. At any time,
a lock is under a slot with an operation in flight, or with one that broke off. -/
theorem unused_locks_dropped {settings : Settings} {metrics : Option Metrics} {registry : Registry}
    {events : List Event} {s : System} (run : (startingFrom settings metrics registry).run events = some s) :
    (∀ {e : Event} {s' : System} {t : TaskId}, s.step e = some s' → Finishes s s' t →
      s'.locks = s.prune.locks
      ∧ (∀ i lock, (i, lock) ∈ s'.locks ↔ ∃ task ∈ s'.tasks, task.operation.identity = i
        ∧ task.phase.handle = some lock ∧ task.phase.isOver = false)
      ∧ ((∀ task ∈ s'.tasks, task.phase.isOver = true) → s'.locks = []))
    ∧ ∀ i lock, (i, lock) ∈ s.locks → ∃ task ∈ s.tasks, task.operation.identity = i
      ∧ (task.phase.isOver = false ∨ ∃ fault, task.phase = .crashed fault) := by
  have tended := (tended_startingFrom settings metrics registry).run run
  refine ⟨fun {e s' t} step finishes => ?_, fun i lock entry => ?_⟩
  · obtain ⟨task, verdict, ht, hp, rfl⟩ := exists_leaving step finishes
    refine ⟨rfl, fun i lock => tended.mem_locks_leave ht hp, fun rest => ?_⟩
    refine List.eq_nil_iff_forall_not_mem.mpr fun ⟨i, lock⟩ entry => ?_
    obtain ⟨other, hm, _, _, flight⟩ := (tended.mem_locks_leave ht hp).mp entry
    rw [rest other hm] at flight
    cases flight
  · obtain ⟨t, task, ht, own, kept⟩ := tended.kept entry
    exact ⟨task, List.mem_of_getElem? ht, own, kept.not_over_or_crashed⟩

/-- A stop whose call breaks off while a deletion of another slot is on its way, which then goes on. -/
def stopBrokenOff (i j : Identity) : List Event :=
  [.submit (.stop i), .submit (.delete j), .advance 0 0, .advance 0 0, .advance 0 0, .advance 1 0, .breakOff 0 "gone",
    .advance 0 0, .advance 0 0] ++ .replicate 6 (.advance 1 0)

theorem unused_locks_dropped_brokenOff : ∃ s s',
    (startingFrom .default none ⟨[.sample 1 .running]⟩).run
        (stopBrokenOff (Service.sample 1 .running).identity ⟨"p", "s", "other"⟩) = some s
      ∧ s.locks = [((Service.sample 1 .running).identity, 0), (⟨"p", "s", "other"⟩, 1)]
      ∧ s.step (.advance 1 0) = some s' ∧ s'.locks = [] := by
  have run : (startingFrom .default none ⟨[.sample 1 .running]⟩).run
      (stopBrokenOff (Service.sample 1 .running).identity ⟨"p", "s", "other"⟩) = some _ := rfl
  have ends := (unused_locks_dropped run).1 (t := 1) (show System.step _ (.advance 1 0) = some _ from rfl)
  obtain ⟨_, _, emptied⟩ := ends ⟨_, _, _, rfl, rfl, rfl, rfl⟩
  exact ⟨_, _, run, rfl, rfl, emptied (by decide)⟩

end System
end ServingLifecycle
