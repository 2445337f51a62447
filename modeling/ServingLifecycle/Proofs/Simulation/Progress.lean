import ServingLifecycle.Proofs.Operation.Punctual
import ServingLifecycle.Proofs.Simulation.Homes
/-!
# Progress

No task waits for ever. Whoever is in the critical section of a slot can go on to the end of its program, since
every call is answered at once or has a time at which its wait is over, and then lets go of the lock. So whoever
waits for the lock can get it, and come to the end of its own program.
-/
namespace ServingLifecycle

/-- How many steps a task that is through with its program is from its end, at most. -/
def Phase.distance : Phase → Nat
  | inside .. => 4
  | counted .. => 3
  | released .. => 2
  | leaving _ => 1
  | broken .. => 2
  | unwinding .. => 1
  | _ => 0

theorem Phase.held_of_isOver {phase : Phase} (h : phase.isOver = true) : phase.held = none := by
  cases phase <;> first | rfl | cases h

namespace Simulation
open Program

/-- Every wait is over at some time, and so will be those that are to come. -/
structure Timely (s : Simulation) : Prop where
  punctual : ∀ {t : TaskId} {task : Task} {lock : LockId} {p : Program Verdict},
    s.system.tasks[t]? = some task → task.phase = .inside lock p → p.Punctual
  ends : ∀ f ∈ s.inFlight, f.wakeAt.isSome = true

variable {s s' s₁ s₂ : Simulation} {incident : Incident} {may : Simulation → Incident → Prop} {t u : TaskId}
  {op : Operation} {lock : LockId} {p q : Program Verdict} {c : Call} {next : c.Reply → Program Verdict}
  {bc : BackendCall}

theorem timely_fresh (settings : Settings) (metrics : Option Metrics) (locator : Locator StorageWorld)
    (world : StorageWorld) (birth : Nat → Birth) : (fresh settings metrics locator world birth).Timely where
  punctual ht := by simp [fresh, System.initial] at ht
  ends f hf := by cases hf

theorem Timely.turn {task : Task} {o : Option System.Observation} {system : System} (h : s.Timely)
    (ht : s.system.tasks[t]? = some task) (turn : s.system.Turn t task o system) {task' : Task}
    (hu : system.tasks[u]? = some task') (hp : task'.phase = .inside lock p) : p.Punctual := by
  obtain ⟨phase, tasks, _, effect⟩ := turn.effect
  rw [tasks] at hu
  rcases System.of_getElem?_setPhase ht hu with ⟨_, rfl⟩ | ⟨_, hu⟩
  · replace hp : phase = .inside lock p := hp
    cases effect with
    | silent program held same =>
      have hl : task.phase.held = some lock := held lock (by rw [hp]; rfl)
      have hq : task.phase.program? = some p := by rw [← program, hp]; rfl
      rcases Phase.inside_or_isOver hq hl with hp | hover
      · exact h.punctual ht hp
      · exact punctual_of_isOver hover
    | entered hp' free hphase same =>
      obtain ⟨-, rfl⟩ := Phase.inside.inj (hp.symm.trans hphase)
      exact Operation.punctual_program _
    | accessed hp' step hq hl inside =>
      obtain rfl := inside hp
      exact (h.punctual ht hp').step step
  · exact h.punctual hu hp

theorem Timely.answer (h : s.Timely) (ht : s.system.tasks[t]? = some ⟨op, .inside lock (.call c next)⟩)
    (reply : c.Reply) {task : Task} {lock' : LockId}
    (hu : (s.system.setPhase t (.inside lock (next reply))).tasks[u]? = some task)
    (hp : task.phase = .inside lock' p) : p.Punctual := by
  rcases System.of_getElem?_setPhase ht hu with ⟨_, rfl⟩ | ⟨_, hu⟩
  · cases hp
    exact (h.punctual ht rfl).2 reply
  · exact h.punctual hu hp

/-- A call that nobody answers has a deadline, for only calls that wait for a service hang. -/
theorem deadline_of_hanging (hc : c.backendCall? = some bc) (hp : c.Punctual) (hang : s.response bc = .hanging) :
    c.deadline?.isSome = true := by
  refine hp bc hc ?_
  cases bc with
  | deploy | start => rfl
  | stop | status => cases hang

theorem Timely.move (h : s.Timely) (move : Move s incident s') : s'.Timely := by
  cases move with
  | submitted op =>
    refine ⟨fun hu hp => ?_, h.ends⟩
    rcases System.of_getElem?_submit hu with ⟨_, rfl⟩ | hu
    · cases hp
    · exact h.punctual hu hp
  | refused op => exact h
  | turned ht turn free plain staged => exact ⟨fun hu hp => h.turn ht turn hu hp, h.ends⟩
  | answered ht free hc ha hr => exact ⟨fun hu hp => h.answer ht _ hu hp, h.ends⟩
  | suspended ht free hc hf hst cut ends served late =>
    refine ⟨h.punctual, fun g hg => ?_⟩
    rcases List.mem_append.mp hg with hg | hg
    · exact h.ends g hg
    · rw [List.mem_singleton.mp hg]
      refine ends.resolve_right fun ⟨hang, endless⟩ => ?_
      have deadline := deadline_of_hanging hc (h.punctual ht rfl).1 hang
      rw [endless] at deadline
      cases deadline
  | finished hf ht hst hr =>
    exact ⟨fun hu hp => h.answer ht _ hu hp, fun g hg => h.ends g (List.mem_filter.mp hg).1⟩
  | late hf ht hst hr =>
    exact ⟨fun hu hp => h.answer ht _ hu hp, fun g hg => h.ends g (List.mem_filter.mp hg).1⟩
  | disturbed d => exact ⟨h.punctual, h.ends⟩
  | stored world => exact ⟨h.punctual, h.ends⟩

theorem Timely.reaches (h : s.Timely) (regular : s.Regular) (run : Reaches may s s') : s'.Timely := by
  induction run with
  | refl => exact h
  | snoc prior allowed last ih => exact ih.move ((regular.reaches prior).move_of_after last)

/-- The task holds the lock, and that is left of its program. -/
def IsAt (s : Simulation) (t : TaskId) (op : Operation) (lock : LockId) (p : Program Verdict) : Prop :=
  ∃ phase, s.system.tasks[t]? = some ⟨op, phase⟩ ∧ phase.held = some lock ∧ phase.program? = some p

theorem IsAt.inside (h : s.IsAt t op lock p) (unfinished : p.isOver = false) :
    s.system.tasks[t]? = some ⟨op, .inside lock p⟩ :=
  System.IsAt.inside h unfinished

theorem isAt_of_inside (ht : s.system.tasks[t]? = some ⟨op, .inside lock p⟩) : s.IsAt t op lock p :=
  ⟨_, ht, rfl, rfl⟩

/-- All but one task are as they were. -/
def SameBut (t : TaskId) (s s' : Simulation) : Prop :=
  ∀ u, u ≠ t → s'.system.tasks[u]? = s.system.tasks[u]?

theorem SameBut.trans (first : SameBut t s s₁) (second : SameBut t s₁ s₂) : SameBut t s s₂ :=
  fun u hu => (second u hu).trans (first u hu)

/-- Nothing keeps the tasks from taking their steps, nor the waits from ending, from now on. -/
structure Unhindered (may : Simulation → Incident → Prop) (s : Simulation) : Prop where
  regular : s.Regular
  timely : s.Timely
  steps : ∀ {s' : Simulation} (u : TaskId), Reaches may s s' → may s' (.step u)
  wakes : ∀ {s' : Simulation} (u : TaskId), Reaches may s s' → may s' (.wake 0 u)

theorem Unhindered.later (h : Unhindered may s) (run : Reaches may s s₁) : Unhindered may s₁ where
  regular := h.regular.reaches run
  timely := h.timely.reaches h.regular run
  steps u rest := h.steps u (run.trans rest)
  wakes u rest := h.wakes u (run.trans rest)

/-- The task can take a step of what it has left to do, while all others stay as they are. -/
def CanAdvance (may : Simulation → Incident → Prop) (s : Simulation) (t : TaskId) (op : Operation) (lock : LockId)
    (p : Program Verdict) : Prop :=
  ∃ s' q, Reaches may s s' ∧ (∃ r a r', Step p r a q r') ∧ s'.IsAt t op lock q ∧ SameBut t s s'

/-- Whoever has a call in flight goes on with its reply when the wait is over. -/
theorem Unhindered.wake (h : Unhindered may s) (isAt : s.IsAt t op lock p) (flies : ∃ f ∈ s.inFlight, f.task = t) :
    s.CanAdvance may t op lock p := by
  obtain ⟨f, hf⟩ : ∃ f, s.inFlight.find? (fun call => call.task = t) = some f := by
    rw [← Option.isSome_iff_exists, List.find?_isSome]
    simpa using flies
  have last : s.after (.wake 0 t) = some (s.wakeAt 0 f) := by
    unfold after
    dsimp only
    rw [hf]
    exact if_pos (h.timely.ends f (List.mem_of_find?_eq_some hf))
  obtain ⟨phase, ht, held, program⟩ := isAt
  have move := h.regular.move_of_after last
  have run := Reaches.refl.snoc (h.wakes t .refl) last
  generalize s.wakeAt 0 f = s' at move run
  generalize hi : Incident.wake 0 t = incident at move
  cases move with
  | finished hf ht' hst hr | late hf ht' hst hr =>
    obtain ⟨rfl, rfl⟩ := Incident.wake.inj hi
    obtain ⟨rfl, rfl⟩ := Task.mk.inj (Option.some.inj (ht.symm.trans ht'))
    cases held
    cases program
    exact ⟨_, _, run, ⟨s.system.registry, _, _, .call _⟩, isAt_of_inside (System.getElem?_setPhase_self ht _),
      fun u hu => System.getElem?_setPhase_of_ne hu _⟩
  | _ => cases hi

/-- A task inside can take a step unless it has a call in flight. -/
theorem exists_after_step (ht : s.system.tasks[t]? = some ⟨op, .inside lock p⟩) (free : ∀ f ∈ s.inFlight, f.task ≠ t) :
    ∃ s', s.after (.step t) = some s' := by
  have landed : s.inFlight.any (·.task == t) = false := by simpa using free
  simp only [after, stepTask, landed, System.call?, System.advance, ht]
  cases p <;> exact ⟨_, rfl⟩

/-- What the turn of a task inside does that is not through with its program. -/
theorem step_of_turn {o : Option System.Observation} {system : System}
    (turn : s.system.Turn t ⟨op, .inside lock p⟩ o system) (unfinished : p.isOver = false) :
    ∃ phase q, system.tasks = (s.system.setPhase t phase).tasks ∧ phase.held = some lock ∧
      phase.program? = some q ∧ ∃ r a r', Step p r a q r' := by
  cases turn with
  | access h step | breakOff h step =>
    cases h
    exact ⟨_, _, rfl, rfl, rfl, _, _, _, step⟩
  | count h | abort h =>
    cases h
    cases unfinished
  | arrive h | enter h | release h | giveUp h | leave h | unlock h | crash h => cases h

theorem Unhindered.advance (h : Unhindered may s) (isAt : s.IsAt t op lock p) (unfinished : p.isOver = false) :
    s.CanAdvance may t op lock p := by
  by_cases flies : ∃ f ∈ s.inFlight, f.task = t
  · exact h.wake isAt flies
  have ht := isAt.inside unfinished
  obtain ⟨s', last⟩ := exists_after_step ht (by simpa using flies)
  have run := Reaches.refl.snoc (h.steps t .refl) last
  have later := h.later run
  cases h.regular.move_of_after last with
  | turned ht' turn free plain staged =>
    obtain rfl := Option.some.inj (ht.symm.trans ht')
    obtain ⟨phase, q, tasks, held, program, step⟩ := step_of_turn turn unfinished
    refine ⟨_, q, run, step, ⟨phase, ?_, held, program⟩, fun u hu => ?_⟩
    · exact tasks ▸ System.getElem?_setPhase_self ht phase
    · exact tasks ▸ System.getElem?_setPhase_of_ne hu phase
  | answered ht' free hc ha hr =>
    cases ht.symm.trans ht'
    exact ⟨_, _, run, ⟨s.system.registry, _, _, .call _⟩, isAt_of_inside (System.getElem?_setPhase_self ht _),
      fun u hu => System.getElem?_setPhase_of_ne hu _⟩
  | suspended ht' free hc hf hst cut ends served late =>
    -- the call is in flight now, and goes on when it is woken
    obtain ⟨s₂, q, rest, step, isAt, same⟩ := later.wake (isAt_of_inside ht)
      ⟨_, List.mem_append_right _ (List.mem_singleton_self _), hf⟩
    exact ⟨s₂, q, run.trans rest, step, isAt, same⟩

/-- Whoever holds its lock can go on to the end of its program. -/
theorem Unhindered.finish (h : Unhindered may s) (isAt : s.IsAt t op lock p) :
    ∃ s' q, Reaches may s s' ∧ s'.IsAt t op lock q ∧ q.isOver = true ∧ SameBut t s s' := by
  induction p using step_induction generalizing s with | step p ih =>
  cases hover : p.isOver with
  | true => exact ⟨s, p, .refl, isAt, hover, fun _ _ => rfl⟩
  | false =>
    obtain ⟨s₁, q₁, first, ⟨r, a, r', step⟩, isAt₁, same⟩ := h.advance isAt hover
    obtain ⟨s', q, rest, isAt', hover', same'⟩ := ih step (h.later first) isAt₁
    exact ⟨s', q, first.trans rest, isAt', hover', same.trans same'⟩

/-- A task that is through with its program takes a step towards its end, and stays through with it. -/
theorem exists_advance {system : System} {phase : Phase} (ht : system.tasks[t]? = some ⟨op, phase⟩)
    (program : phase.program? = some p) (hover : p.isOver = true) (underway : phase.isOver = false) :
    ∃ system' phase', system.call? t = none ∧ system.advance t 0.0 = some system' ∧
      system'.tasks = (system.setPhase t phase').tasks ∧ phase'.program? = some p ∧
      phase'.distance < phase.distance := by
  simp only [System.call?, System.advance, ht]
  cases phase with
  | inside lock rest =>
    obtain rfl := Option.some.inj program
    cases rest with
    | done | abort => exact ⟨_, _, rfl, rfl, rfl, rfl, by simp [Phase.distance]⟩
    | read | write | call => cases hover
  | counted | released | leaving | broken | unwinding =>
    exact ⟨_, _, rfl, rfl, rfl, program, by simp [Phase.distance]⟩
  | arriving | waiting => cases program
  | finished | crashed => cases underway

/-- A task that is not at a call takes the step that the system allows it. -/
theorem Unhindered.step {system : System} {phase : Phase} (h : Unhindered may s)
    (ht : s.system.tasks[t]? = some ⟨op, phase⟩) (hcall : s.system.call? t = none)
    (advances : s.system.advance t 0.0 = some system) : Reaches may s { s with system := system } := by
  have landed : s.inFlight.any (·.task == t) = false := by
    refine List.any_eq_false.mpr fun f hf e => ?_
    obtain rfl := beq_iff_eq.mp e
    obtain ⟨op', lock', c, next, ht', _⟩ := h.regular.awaited f hf
    simp [System.call?, ht'] at hcall
  exact Reaches.refl.snoc (h.steps t .refl) (by simp [after, stepTask, landed, hcall, advances])

/-- Whoever is through with its program can return. -/
theorem Unhindered.leave {phase : Phase} (h : Unhindered may s) (ht : s.system.tasks[t]? = some ⟨op, phase⟩)
    (program : phase.program? = some p) (hover : p.isOver = true) :
    ∃ s' phase', Reaches may s s' ∧ s'.system.tasks[t]? = some ⟨op, phase'⟩ ∧ phase'.isOver = true ∧
      SameBut t s s' := by
  induction hd : phase.distance using Nat.strongRecOn generalizing s phase with | ind n ih =>
  cases underway : phase.isOver with
  | true => exact ⟨s, phase, .refl, ht, underway, fun _ _ => rfl⟩
  | false =>
    obtain ⟨system, phase₁, hcall, advances, tasks, program₁, nearer⟩ := exists_advance ht program hover underway
    have first := h.step ht hcall advances
    have ht₁ : system.tasks[t]? = some ⟨op, phase₁⟩ := tasks ▸ System.getElem?_setPhase_self ht phase₁
    have same : SameBut t s { s with system := system } :=
      fun u hu => tasks ▸ System.getElem?_setPhase_of_ne hu phase₁
    obtain ⟨s', phase', rest, ht', returned, same'⟩ := ih _ (hd ▸ nearer) (h.later first) ht₁ program₁ rfl
    exact ⟨s', phase', first.trans rest, ht', returned, same.trans same'⟩

theorem Unhindered.enter_free (h : Unhindered may s) (ht : s.system.tasks[t]? = some ⟨op, .waiting lock⟩)
    (free : s.system.isFree lock = true) : ∃ s' p, Reaches may s s' ∧ s'.IsAt t op lock p := by
  have hcall : s.system.call? t = none := by simp [System.call?, ht]
  have advances : s.system.advance t 0.0 =
      some (s.system.setPhase t (.inside lock (op.program s.system.settings))) := by
    simp [System.advance, ht, free]
  exact ⟨_, _, h.step ht hcall advances, isAt_of_inside (System.getElem?_setPhase_self ht _)⟩

/-- Whoever waits for a lock can get it, for the one that holds it can come to its end and let go. -/
theorem Unhindered.enter (h : Unhindered may s) (ht : s.system.tasks[t]? = some ⟨op, .waiting lock⟩) :
    ∃ s' p, Reaches may s s' ∧ s'.IsAt t op lock p := by
  by_cases free : s.system.isFree lock = true
  · exact h.enter_free ht free
  obtain ⟨⟨op', phase⟩, hm, held⟩ : ∃ task ∈ s.system.tasks, task.phase.held = some lock := by
    simpa [System.isFree] using free
  obtain ⟨u, hu⟩ := List.getElem?_of_mem hm
  have hne : t ≠ u := by
    rintro rfl
    cases ht.symm.trans hu
    cases held
  obtain ⟨p, program⟩ := Phase.exists_program held
  obtain ⟨s₁, q, first, isAt, hover, same₁⟩ := h.finish ⟨phase, hu, held, program⟩
  obtain ⟨phase₁, hu₁, _, program₁⟩ := isAt
  obtain ⟨s₂, phase₂, second, hu₂, returned, same₂⟩ := (h.later first).leave hu₁ program₁ hover
  have run := first.trans second
  have same := same₁.trans same₂
  have free₂ : s₂.system.isFree lock = true := by
    refine List.all_eq_true.mpr fun task hm => ?_
    obtain ⟨v, hv⟩ := List.getElem?_of_mem hm
    by_cases e : v = u
    · subst e
      cases hu₂.symm.trans hv
      simp [Phase.held_of_isOver returned]
    · rw [same v e] at hv
      refine decide_eq_true fun hl => e ?_
      exact h.regular.locked.exclusive hv hu hl held
  obtain ⟨s', p', rest, isAt'⟩ := (h.later run).enter_free ((same t hne).trans ht) free₂
  exact ⟨s', p', run.trans rest, isAt'⟩

/-- The operation has returned, or has broken off for good. -/
def HasReturned (s : Simulation) (t : TaskId) : Prop :=
  ∃ task, s.system.tasks[t]? = some task ∧ task.phase.isOver = true

theorem Unhindered.returns_of_over {phase : Phase} (h : Unhindered may s) (ht : s.system.tasks[t]? = some ⟨op, phase⟩)
    (program : phase.program? = some p) (hover : p.isOver = true) : ∃ s', Reaches may s s' ∧ s'.HasReturned t := by
  obtain ⟨s', phase', run, ht', returned, _⟩ := h.leave ht program hover
  exact ⟨s', run, _, ht', returned⟩

theorem Unhindered.returns_of_isAt (h : Unhindered may s) (isAt : s.IsAt t op lock p) :
    ∃ s', Reaches may s s' ∧ s'.HasReturned t := by
  obtain ⟨s₁, q, first, ⟨phase, ht, _, program⟩, hover, _⟩ := h.finish isAt
  obtain ⟨s', rest, returned⟩ := (h.later first).returns_of_over ht program hover
  exact ⟨s', first.trans rest, returned⟩

theorem Unhindered.returns_of_waiting (h : Unhindered may s) (ht : s.system.tasks[t]? = some ⟨op, .waiting lock⟩) :
    ∃ s', Reaches may s s' ∧ s'.HasReturned t := by
  obtain ⟨s₁, p, first, isAt⟩ := h.enter ht
  obtain ⟨s', rest, returned⟩ := (h.later first).returns_of_isAt isAt
  exact ⟨s', first.trans rest, returned⟩

/-- Every operation can come to its end. -/
theorem Unhindered.returns {task : Task} (h : Unhindered may s) (ht : s.system.tasks[t]? = some task) :
    ∃ s', Reaches may s s' ∧ s'.HasReturned t := by
  obtain ⟨op, phase⟩ := task
  cases hp : phase.program? with
  | some p =>
    cases held : phase.held with
    | some lock => exact h.returns_of_isAt ⟨phase, ht, held, hp⟩
    | none => exact h.returns_of_over ht hp (Phase.isOver_of_not_held hp held)
  | none =>
    cases phase with
    | waiting lock => exact h.returns_of_waiting ht
    | arriving =>
      have hcall : s.system.call? t = none := by simp [System.call?, ht]
      have advances : s.system.advance t 0.0 = some ((s.system.lookUp op.identity).2.setPhase t
          (.waiting (s.system.lookUp op.identity).1)) := by simp [System.advance, ht]
      have first := h.step ht hcall advances
      have ht' : (s.system.lookUp op.identity).2.tasks[t]? = some ⟨op, .arriving⟩ := by
        rw [System.tasks_lookUp]
        exact ht
      obtain ⟨s', rest, returned⟩ := (h.later first).returns_of_waiting (System.getElem?_setPhase_self ht' _)
      exact ⟨s', first.trans rest, returned⟩
    | _ => cases hp

end Simulation
end ServingLifecycle
