import ServingLifecycle.Proofs.Operation.Reuse
import ServingLifecycle.Proofs.System.Serialisable
/-!
# Tasks that are left to themselves

No two slots have the same lock, so a task whose slot nobody else is in gets its lock. Inside, a program that only
consults its slot waits for nobody, and neither does a task that is through with its program: by its own turns such a
task comes to its end.
-/
namespace ServingLifecycle.System
open Program

/-- No two slots have the same lock, and a lock that is made is a new one. -/
structure Apart (s : System) : Prop where
  distinct : (s.locks.map Prod.snd).Nodup
  made : ∀ entry ∈ s.locks, entry.2 < s.made

variable {s s' : System} {t : TaskId} {task : Task}

theorem Apart.lookUp (h : s.Apart) (i : Identity) : (s.lookUp i).2.Apart := by
  unfold System.lookUp
  split
  · exact h
  · refine ⟨?_, fun entry he => ?_⟩
    · rw [List.map_append, List.nodup_append]
      refine ⟨h.distinct, List.nodup_singleton _, ?_⟩
      rintro lock hl new hn rfl
      obtain ⟨entry, he, rfl⟩ := List.mem_map.mp hl
      exact absurd (List.mem_singleton.mp hn) (Nat.ne_of_lt (h.made entry he))
    · rcases List.mem_append.mp he with he | he
      · exact Nat.lt_succ_of_lt (h.made entry he)
      · rw [List.mem_singleton.mp he]
        exact Nat.lt_succ_self _

theorem Apart.prune (h : s.Apart) : s.prune.Apart where
  distinct := h.distinct.sublist (List.filter_sublist.map _)
  made entry he := h.made entry (List.mem_filter.mp he).1

theorem Apart.step (h : s.Apart) {e : Event} (step : s.step e = some s') : s'.Apart := by
  rcases turn_of_step step with ⟨operation, _, rfl⟩ | ⟨t, task, o, _, ht, turn, _⟩
  · exact ⟨h.distinct, h.made⟩
  · cases turn with
    | arrive =>
      have looked := h.lookUp task.operation.identity
      exact ⟨looked.distinct, looked.made⟩
    | leave => exact ⟨h.prune.distinct, h.prune.made⟩
    | _ => exact ⟨h.distinct, h.made⟩

theorem Apart.run (h : s.Apart) {events : List Event} (run : s.run events = some s') : s'.Apart := by
  induction events generalizing s with
  | nil => exact Option.some.inj run ▸ h
  | cons e es ih =>
    obtain ⟨s₁, step, run⟩ := Option.bind_eq_some_iff.mp run
    exact ih (h.step step) run

theorem apart_startingFrom (settings : Settings) (metrics : Option Metrics) (registry : Registry) :
    (startingFrom settings metrics registry).Apart :=
  ⟨List.nodup_nil, fun _ h => by cases h⟩

/-- A lock is under the slot of whoever has a handle on it, and under no other. -/
theorem Apart.identity_eq (apart : s.Apart) (locked : s.Locked) {i : Identity} {lock : LockId}
    (entry : (i, lock) ∈ s.locks) (ht : s.tasks[t]? = some task) (handle : task.phase.handle = some lock) :
    task.operation.identity = i :=
  (Prod.mk.inj (List.inj_on_of_nodup_map apart.distinct (locked.handled ht handle) entry rfl)).1

/-- Nobody is in the critical section of the slot. -/
def Vacant (s : System) (i : Identity) : Prop :=
  ∀ {u : TaskId} {task : Task}, s.tasks[u]? = some task → task.operation.identity = i → task.phase.held = none

/-- The lock of a slot that nobody is in can be had. -/
theorem isFree_of_vacant (locked : s.Locked) (apart : s.Apart) (ht : s.tasks[t]? = some task) {lock : LockId}
    (waiting : task.phase = .waiting lock) (vacant : s.Vacant task.operation.identity) : s.isFree lock = true := by
  refine List.all_eq_true.mpr fun other hm => decide_eq_true fun held => ?_
  obtain ⟨u, hu⟩ := List.mem_iff_getElem?.mp hm
  have handle : task.phase.handle = some lock := by rw [waiting]; rfl
  have same := apart.identity_eq locked (locked.handled ht handle) hu (Phase.handle_of_held held)
  rw [vacant hu same] at held
  cases held

/-- The task comes to its end by its own turns alone, with an outcome as `post` says. -/
def Returns (s : System) (t : TaskId) (post : Verdict → Prop) : Prop :=
  ∃ n s' task verdict, s.run (.replicate n (.advance t 0)) = some s' ∧ s'.tasks[t]? = some task
    ∧ task.phase = .finished verdict ∧ post verdict

variable {post : Verdict → Prop} {op : Operation} {i : Identity} {services : List Service}

theorem Returns.of_advance (turn : s.advance t 0 = some s') (h : s'.Returns t post) : s.Returns t post := by
  obtain ⟨n, s'', task, verdict, run, ended⟩ := h
  refine ⟨n + 1, s'', task, verdict, ?_, ended⟩
  rw [List.replicate_succ, System.run, System.step, turn]
  exact run

/-- Who is through with its program lets go of its lock and of its handle, and leaves. -/
theorem returns_of_done {phase : Phase} {verdict : Verdict} (h : post verdict)
    (ht : s.tasks[t]? = some ⟨op, phase⟩) (done : phase.program? = some (.done verdict)) : s.Returns t post := by
  have finished : ∀ {s : System}, s.tasks[t]? = some ⟨op, .finished verdict⟩ → s.Returns t post :=
    fun ht => ⟨0, _, _, verdict, rfl, ht, rfl, h⟩
  have leaving : ∀ {s : System}, s.tasks[t]? = some ⟨op, .leaving verdict⟩ → s.Returns t post := by
    intro s ht
    have turn : s.advance t 0 = some (s.prune.setPhase t (.finished verdict)) := by simp only [advance, ht]
    exact .of_advance turn (finished (getElem?_setPhase_self ht _))
  have released : ∀ {s : System} {lock}, s.tasks[t]? = some ⟨op, .released lock verdict⟩ → s.Returns t post := by
    intro s lock ht
    have turn : s.advance t 0 = some (s.setPhase t (.leaving verdict)) := by simp only [advance, ht]
    exact .of_advance turn (leaving (getElem?_setPhase_self ht _))
  have counted : ∀ {s : System} {lock}, s.tasks[t]? = some ⟨op, .counted lock verdict⟩ → s.Returns t post := by
    intro s lock ht
    have turn : s.advance t 0 = some (s.setPhase t (.released lock verdict)) := by simp only [advance, ht]
    exact .of_advance turn (released (getElem?_setPhase_self ht _))
  cases phase <;> cases done
  case inside lock =>
    have turn : s.advance t 0 = some ((s.count verdict 0).setPhase t (.counted lock verdict)) := by
      simp only [advance, ht]
    exact .of_advance turn (counted (getElem?_setPhase_self ht _))
  case counted lock => exact counted ht
  case released lock => exact released ht
  case leaving => exact leaving ht
  case finished => exact finished ht

theorem returns_of_inside {lock : LockId} {p : Program Verdict} (h : p.Consults i services post)
    (found : s.registry.find i = services) (ht : s.tasks[t]? = some ⟨op, .inside lock p⟩) : s.Returns t post := by
  induction p generalizing s with
  | done verdict => exact returns_of_done h ht rfl
  | read j next ih =>
    obtain ⟨rfl, h⟩ := h
    have turn : s.advance t 0 = some (s.setPhase t (.inside lock (next services))) := by
      simp only [advance, ht, found]
    exact .of_advance turn (ih services h found (getElem?_setPhase_self ht _))
  | _ => exact h.elim

theorem returns_of_waiting {lock : LockId} (locked : s.Locked) (apart : s.Apart)
    (h : (op.program s.settings).Consults op.identity services post)
    (found : s.registry.find op.identity = services) (vacant : s.Vacant op.identity)
    (ht : s.tasks[t]? = some ⟨op, .waiting lock⟩) : s.Returns t post := by
  have free := isFree_of_vacant locked apart ht rfl vacant
  have turn : s.advance t 0 = some (s.setPhase t (.inside lock (op.program s.settings))) := by
    simp only [advance, ht, if_pos free]
  exact .of_advance turn (returns_of_inside h found (getElem?_setPhase_self ht _))

/-- Who has not been inside, and whose slot is vacant, goes in and comes to its end. -/
theorem returns_of_vacant {phase : Phase} (locked : s.Locked) (apart : s.Apart)
    (h : (op.program s.settings).Consults op.identity services post)
    (found : s.registry.find op.identity = services) (vacant : s.Vacant op.identity)
    (ht : s.tasks[t]? = some ⟨op, phase⟩) (outside : phase.program? = none) : s.Returns t post := by
  cases phase with
  | arriving =>
    have turn : s.step (.advance t 0) =
        some ((s.lookUp op.identity).2.setPhase t (.waiting (s.lookUp op.identity).1)) := by
      simp only [step, advance, ht]
    obtain ⟨settings, registry⟩ : (s.lookUp op.identity).2.settings = s.settings
        ∧ (s.lookUp op.identity).2.registry = s.registry := by
      unfold lookUp
      split <;> exact ⟨rfl, rfl⟩
    have ht' : (s.lookUp op.identity).2.tasks[t]? = some ⟨op, .arriving⟩ := by
      rw [tasks_lookUp]
      exact ht
    rw [← settings] at h
    rw [← registry] at found
    refine .of_advance turn (returns_of_waiting (locked.step turn) (apart.step turn) h found
      (fun {u v} hu hi => ?_) (getElem?_setPhase_self ht' _))
    rcases of_getElem?_setPhase ht' hu with ⟨_, rfl⟩ | ⟨_, hu⟩
    · rfl
    · rw [tasks_lookUp] at hu
      exact vacant hu hi
  | waiting lock => exact returns_of_waiting locked apart h found vacant ht
  | _ => cases outside

end ServingLifecycle.System
