import Mathlib.Data.List.Nodup
import ServingLifecycle.Proofs.System.Turn
/-!
# Locks

The lock table has one entry for each slot, and a task with a handle on a lock finds that very lock under
its slot: an entry is dropped only when nobody has a handle on it. So the tasks of a slot that have handles
all have them on the same lock, and only one of them holds it.
-/
namespace ServingLifecycle.System

/-- The discipline of the lock table. -/
structure Locked (s : System) : Prop where
  keys : (s.locks.map Prod.fst).Nodup
  handled : ∀ {t : TaskId} {task : Task} {lock : LockId}, s.tasks[t]? = some task →
    task.phase.handle = some lock → (task.operation.identity, lock) ∈ s.locks
  exclusive : ∀ {t t' : TaskId} {task task' : Task} {lock : LockId}, s.tasks[t]? = some task →
    s.tasks[t']? = some task' → task.phase.held = some lock → task'.phase.held = some lock → t = t'

variable {s : System} {t t' : TaskId} {task task' : Task}

theorem getElem?_setPhase (phase : Phase) : (s.setPhase t phase).tasks[t']? =
    if t = t' then (s.tasks[t']?).map fun task => { task with phase := phase } else s.tasks[t']? := by
  unfold setPhase
  rw [List.getElem?_modify]
  by_cases h : t = t' <;> simp [h]

theorem getElem?_setPhase_self (ht : s.tasks[t]? = some task) (phase : Phase) :
    (s.setPhase t phase).tasks[t]? = some { task with phase := phase } := by
  rw [getElem?_setPhase, if_pos rfl, ht]
  rfl

theorem getElem?_setPhase_of_ne (h : t' ≠ t) (phase : Phase) :
    (s.setPhase t phase).tasks[t']? = s.tasks[t']? := by
  rw [getElem?_setPhase, if_neg (Ne.symm h)]

/-- A task after a change of phase is the one that changed, or was there before. -/
theorem of_getElem?_setPhase {phase : Phase} (ht : s.tasks[t]? = some task)
    (h : (s.setPhase t phase).tasks[t']? = some task') :
    (t' = t ∧ task' = { task with phase := phase }) ∨ (t' ≠ t ∧ s.tasks[t']? = some task') := by
  rw [getElem?_setPhase] at h
  split at h
  · rename_i e
    subst e
    rw [ht] at h
    exact Or.inl ⟨rfl, (Option.some.inj h).symm⟩
  · exact Or.inr ⟨fun e => ‹¬ t = t'› e.symm, h⟩

theorem getElem?_submit (operation : Operation) : (s.submit operation).tasks[t]? =
    if t = s.tasks.length then some ⟨operation, .arriving⟩ else s.tasks[t]? := by
  unfold submit
  rcases Nat.lt_trichotomy t s.tasks.length with h | h | h
  · rw [if_neg (Nat.ne_of_lt h)]
    exact List.getElem?_append_left h
  · simp [h]
  · rw [if_neg (Nat.ne_of_gt h), List.getElem?_eq_none (Nat.le_of_lt h)]
    exact List.getElem?_eq_none (by rw [List.length_append]; exact h)

theorem getElem?_submit_of_some (operation : Operation) (h : s.tasks[t]? = some task) :
    (s.submit operation).tasks[t]? = some task := by
  have hlt : t < s.tasks.length := (List.getElem?_eq_some_iff.mp h).1
  rw [getElem?_submit, if_neg (Nat.ne_of_lt hlt)]
  exact h

theorem of_getElem?_submit {operation : Operation} (h : (s.submit operation).tasks[t]? = some task) :
    (t = s.tasks.length ∧ task = ⟨operation, .arriving⟩) ∨ s.tasks[t]? = some task := by
  rw [getElem?_submit] at h
  split at h
  · exact Or.inl ⟨‹_›, (Option.some.inj h).symm⟩
  · exact Or.inr h

theorem Locked.lock_eq (h : s.Locked) (ht : s.tasks[t]? = some task) (ht' : s.tasks[t']? = some task')
    (hi : task.operation.identity = task'.operation.identity) {lock lock' : LockId}
    (hl : task.phase.handle = some lock) (hl' : task'.phase.handle = some lock') : lock = lock' := by
  have hm := h.handled ht hl
  rw [hi] at hm
  exact (Prod.mk.inj (List.inj_on_of_nodup_map h.keys hm (h.handled ht' hl') rfl)).2

/-- Of the tasks of one slot at most one is in its critical section. -/
theorem Locked.held_unique (h : s.Locked) (ht : s.tasks[t]? = some task)
    (ht' : s.tasks[t']? = some task') (hi : task.operation.identity = task'.operation.identity)
    (hl : task.phase.held.isSome = true) (hl' : task'.phase.held.isSome = true) : t = t' := by
  obtain ⟨lock, hl⟩ := Option.isSome_iff_exists.mp hl
  obtain ⟨lock', hl'⟩ := Option.isSome_iff_exists.mp hl'
  have he := h.lock_eq ht ht' hi (Phase.handle_of_held hl) (Phase.handle_of_held hl')
  exact h.exclusive ht ht' hl (he ▸ hl')

/-- While somebody waits for a free lock, nobody is in the critical section of that slot. -/
theorem Locked.held_eq_none (h : s.Locked) (ht : s.tasks[t]? = some task) {lock : LockId}
    (hp : task.phase = .waiting lock) (free : s.isFree lock = true) (ht' : s.tasks[t']? = some task')
    (hi : task'.operation.identity = task.operation.identity) : task'.phase.held = none := by
  cases hl : task'.phase.held with
  | none => rfl
  | some lock' =>
    have e := h.lock_eq ht' ht hi (Phase.handle_of_held hl)
      (show task.phase.handle = some lock by rw [hp]; rfl)
    have hf := List.all_eq_true.mp free _ (List.mem_of_getElem? ht')
    rw [hl, e] at hf
    simp at hf

theorem locked_initial (settings : Settings) (metrics : Option Metrics) :
    (initial settings metrics).Locked :=
  ⟨List.nodup_nil, fun h => by simp [initial] at h, fun h => by simp [initial] at h⟩

theorem Locked.submit (h : s.Locked) (operation : Operation) : (s.submit operation).Locked where
  keys := h.keys
  handled ht hl := by
    rcases of_getElem?_submit ht with ⟨_, rfl⟩ | ht
    · cases hl
    · exact h.handled ht hl
  exclusive ht ht' hl hl' := by
    rcases of_getElem?_submit ht with ⟨_, rfl⟩ | ht
    · cases hl
    · rcases of_getElem?_submit ht' with ⟨_, rfl⟩ | ht'
      · cases hl'
      · exact h.exclusive ht ht' hl hl'

theorem Locked.setPhase (h : s.Locked) (ht : s.tasks[t]? = some task) {phase : Phase}
    (handle : ∀ lock, phase.handle = some lock → (task.operation.identity, lock) ∈ s.locks)
    (held : ∀ lock, phase.held = some lock →
      ∀ {t' task'}, s.tasks[t']? = some task' → task'.phase.held = some lock → t' = t) :
    (s.setPhase t phase).Locked where
  keys := h.keys
  handled hu hl := by
    rcases of_getElem?_setPhase ht hu with ⟨_, rfl⟩ | ⟨_, hu⟩
    · exact handle _ hl
    · exact h.handled hu hl
  exclusive hu hu' hl hl' := by
    rcases of_getElem?_setPhase ht hu with ⟨e, rfl⟩ | ⟨_, hv⟩
    · rcases of_getElem?_setPhase ht hu' with ⟨e', _⟩ | ⟨_, hv'⟩
      · exact e.trans e'.symm
      · exact e.trans (held _ hl hv' hl').symm
    · rcases of_getElem?_setPhase ht hu' with ⟨e', rfl⟩ | ⟨_, hv'⟩
      · exact (held _ hl' hv hl).trans e'.symm
      · exact h.exclusive hv hv' hl hl'

/-- A task may let go of what it has. -/
theorem Locked.setPhase_of_le (h : s.Locked) (ht : s.tasks[t]? = some task) {phase : Phase}
    (handle : ∀ lock, phase.handle = some lock → task.phase.handle = some lock)
    (held : ∀ lock, phase.held = some lock → task.phase.held = some lock) :
    (s.setPhase t phase).Locked :=
  h.setPhase ht (fun _ hl => h.handled ht (handle _ hl))
    fun _ hl _ _ hu hl' => h.exclusive hu ht hl' (held _ hl)

theorem mem_locks_lookUp (s : System) (i : Identity) : (i, (s.lookUp i).1) ∈ (s.lookUp i).2.locks := by
  unfold lookUp
  split
  · rename_i lock h
    obtain ⟨before, after, e, _⟩ := List.lookup_eq_some_iff.mp h
    simp [e]
  · simp

theorem Locked.lookUp (h : s.Locked) (i : Identity) : (s.lookUp i).2.Locked := by
  unfold System.lookUp
  split
  · exact h
  · rename_i hn
    refine ⟨?_, fun ht hl => List.mem_append_left _ (h.handled ht hl), h.exclusive⟩
    rw [List.map_append, List.nodup_append]
    refine ⟨h.keys, by simp, ?_⟩
    rintro j hj k hk rfl
    obtain ⟨e, he, rfl⟩ := List.mem_map.mp hj
    have := List.lookup_eq_none_iff.mp hn e he
    simp_all

theorem tasks_lookUp (s : System) (i : Identity) : (s.lookUp i).2.tasks = s.tasks := by
  unfold lookUp
  split <;> rfl

theorem Locked.prune (h : s.Locked) : s.prune.Locked where
  keys := (h.keys.sublist ((List.filter_sublist).map _))
  handled ht hl := by
    refine List.mem_filter.mpr ⟨h.handled ht hl, List.any_eq_true.mpr ⟨_, List.mem_of_getElem? ht, ?_⟩⟩
    simpa using hl
  exclusive := h.exclusive

theorem Locked.turn {o : Option Observation} {s' : System} (h : s.Locked)
    (ht : s.tasks[t]? = some task) (turn : s.Turn t task o s') : s'.Locked := by
  cases turn with
  | arrive hp =>
    refine (h.lookUp _).setPhase (by rw [tasks_lookUp]; exact ht) (fun lock hl => ?_) fun lock hl => by cases hl
    cases hl
    exact mem_locks_lookUp s _
  | @enter lock hp free =>
    refine h.setPhase ht (fun l hl => ?_) fun l hl u task' hu hl' => ?_
    · cases hl
      exact h.handled ht (by rw [hp]; rfl)
    · cases hl
      have := List.all_eq_true.mp free _ (List.mem_of_getElem? hu)
      simp_all
  | @access lock p q a r hp step =>
    have hr : ({ s with registry := r } : System).Locked := ⟨h.keys, h.handled, h.exclusive⟩
    exact hr.setPhase_of_le ht (fun l hl => by rw [hp]; exact hl) fun l hl => by rw [hp]; exact hl
  | breakOff hp step =>
    exact h.setPhase_of_le ht (fun l hl => by rw [hp]; exact hl) fun l hl => by rw [hp]; exact hl
  | @count lock verdict seconds hp =>
    have hc : (s.count verdict seconds).Locked := ⟨h.keys, h.handled, h.exclusive⟩
    exact hc.setPhase_of_le ht (fun l hl => by rw [hp]; exact hl) fun l hl => by rw [hp]; exact hl
  | abort hp =>
    exact h.setPhase_of_le ht (fun l hl => by rw [hp]; exact hl) fun l hl => by rw [hp]; exact hl
  | release hp => exact h.setPhase_of_le ht (fun l hl => by rw [hp]; exact hl) fun l hl => by cases hl
  | giveUp hp => exact h.setPhase_of_le ht (fun l hl => by cases hl) fun l hl => by cases hl
  | leave hp => exact h.prune.setPhase_of_le ht (fun l hl => by cases hl) fun l hl => by cases hl
  | unlock hp => exact h.setPhase_of_le ht (fun l hl => by rw [hp]; exact hl) fun l hl => by cases hl
  | crash hp => exact h.setPhase_of_le ht (fun l hl => by cases hl) fun l hl => by cases hl

theorem Locked.answered (h : s.Locked) {op : Operation} {lock : LockId} {c : Call}
    {next : c.Reply → Program Verdict} (ht : s.tasks[t]? = some ⟨op, .inside lock (.call c next)⟩)
    (reply : c.Reply) : (s.setPhase t (.inside lock (next reply))).Locked :=
  h.turn ht (.access (r := s.registry) rfl (.call reply))

theorem Locked.step {s' : System} {e : Event} (h : s.Locked) (step : s.step e = some s') : s'.Locked := by
  rcases turn_of_step step with ⟨operation, _, rfl⟩ | ⟨t, task, o, _, ht, turn, _⟩
  · exact h.submit operation
  · exact h.turn ht turn

end ServingLifecycle.System
