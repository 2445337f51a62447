import ServingLifecycle.Proofs.Program.Steps
import ServingLifecycle.System
/-!
# Turns

Whatever happens in a system is the arrival of an operation or the turn of one task. `Turn` says once what
each turn does to the system and what can be seen of it. `program?` is what a task still has to do of its
program, whichever phase it is in.
-/
namespace ServingLifecycle

/-- What is left of the program of a task that has been inside. -/
def Phase.program? : Phase → Option (Program Verdict)
  | inside _ rest => some rest
  | counted _ verdict => some (.done verdict)
  | released _ verdict => some (.done verdict)
  | leaving verdict => some (.done verdict)
  | finished verdict => some (.done verdict)
  | broken _ fault => some (.abort fault)
  | unwinding _ fault => some (.abort fault)
  | crashed fault => some (.abort fault)
  | _ => none

theorem Phase.handle_of_held {phase : Phase} {lock : LockId} (h : phase.held = some lock) :
    phase.handle = some lock := by
  cases phase <;> simp_all [held, handle]

/-- Who has been inside and holds no lock is through with its program. -/
theorem Phase.isOver_of_not_held {phase : Phase} {p : Program Verdict} (h : phase.program? = some p)
    (hn : phase.held = none) : p.isOver = true := by
  cases phase <;> cases hn <;> cases h <;> rfl

theorem Phase.exists_program {phase : Phase} {lock : LockId} (h : phase.held = some lock) :
    ∃ p, phase.program? = some p := by
  cases phase <;> cases h <;> exact ⟨_, rfl⟩

/-- Who holds a lock is inside, or through with its program. -/
theorem Phase.inside_or_isOver {phase : Phase} {p : Program Verdict} {lock : LockId}
    (h : phase.program? = some p) (hl : phase.held = some lock) :
    phase = .inside lock p ∨ p.isOver = true := by
  cases phase <;> cases hl <;> cases h
  · exact Or.inl rfl
  · exact Or.inr rfl
  · exact Or.inr rfl

namespace System

/-- What can be seen of a turn: that the task has got its lock, or an access of its program. -/
inductive Observation
  | entered
  | access (a : Access)

/-- What can be seen of an event, and of which task. -/
def observe (s : System) : Event → Option (TaskId × Observation)
  | .submit _ => none
  | .advance t _ =>
    match s.tasks[t]? with
    | some ⟨_, .waiting _⟩ => some (t, .entered)
    | some ⟨_, .inside _ (.read i _)⟩ => some (t, .access (.read i (s.registry.find i)))
    | some ⟨_, .inside _ (.write change _)⟩ => some (t, .access (.write change))
    | _ => none
  | .answer t a =>
    match s.tasks[t]? with
    | some ⟨_, .inside _ (.call c _)⟩ => (c.reply? a).map fun reply => (t, .access (.call c reply))
    | _ => none
  | .breakOff t text =>
    match s.tasks[t]? with
    | some ⟨_, .inside _ (.call c _)⟩ => some (t, .access (.brokenOff c text))
    | _ => none

/-- The turn of the task `t`: what is seen of it, and the system afterwards. -/
inductive Turn (s : System) (t : TaskId) (task : Task) : Option Observation → System → Prop
  | arrive (h : task.phase = .arriving) :
      Turn s t task none
        ((s.lookUp task.operation.identity).2.setPhase t
          (.waiting (s.lookUp task.operation.identity).1))
  | enter {lock : LockId} (h : task.phase = .waiting lock) (free : s.isFree lock = true) :
      Turn s t task (some .entered)
        (s.setPhase t (.inside lock (task.operation.program s.settings)))
  | access {lock : LockId} {p q : Program Verdict} {a : Access} {r : Registry}
      (h : task.phase = .inside lock p) (step : Program.Step p s.registry a q r) :
      Turn s t task (some (.access a)) ({ s with registry := r }.setPhase t (.inside lock q))
  | breakOff {lock : LockId} {p : Program Verdict} {a : Access} {fault : Fault}
      (h : task.phase = .inside lock p) (step : Program.Step p s.registry a (.abort fault) s.registry) :
      Turn s t task (some (.access a)) (s.setPhase t (.broken lock fault))
  | count {lock : LockId} {verdict : Verdict} {seconds : Float}
      (h : task.phase = .inside lock (.done verdict)) :
      Turn s t task none ((s.count verdict seconds).setPhase t (.counted lock verdict))
  | abort {lock : LockId} {fault : Fault} (h : task.phase = .inside lock (.abort fault)) :
      Turn s t task none (s.setPhase t (.broken lock fault))
  | release {lock : LockId} {verdict : Verdict} (h : task.phase = .counted lock verdict) :
      Turn s t task none (s.setPhase t (.released lock verdict))
  | giveUp {lock : LockId} {verdict : Verdict} (h : task.phase = .released lock verdict) :
      Turn s t task none (s.setPhase t (.leaving verdict))
  | leave {verdict : Verdict} (h : task.phase = .leaving verdict) :
      Turn s t task none (s.prune.setPhase t (.finished verdict))
  | unlock {lock : LockId} {fault : Fault} (h : task.phase = .broken lock fault) :
      Turn s t task none (s.setPhase t (.unwinding lock fault))
  | crash {lock : LockId} {fault : Fault} (h : task.phase = .unwinding lock fault) :
      Turn s t task none (s.setPhase t (.crashed fault))

theorem turn_of_advance {s s' : System} {t : TaskId} {seconds : Float}
    (h : s.advance t seconds = some s') :
    ∃ task o, s.tasks[t]? = some task ∧ s.Turn t task o s' ∧
      s.observe (.advance t seconds) = o.map (t, ·) := by
  unfold advance at h
  unfold observe
  cases ht : s.tasks[t]? with
  | none => simp [ht] at h
  | some task =>
    obtain ⟨operation, phase⟩ := task
    simp only [ht] at h ⊢
    cases phase with
    | arriving => cases h; exact ⟨_, _, rfl, .arrive rfl, rfl⟩
    | waiting lock =>
      dsimp only at h
      split at h
      · cases h; exact ⟨_, _, rfl, .enter rfl ‹_›, rfl⟩
      · cases h
    | inside lock p =>
      cases p with
      | done verdict => cases h; exact ⟨_, _, rfl, .count rfl, rfl⟩
      | abort fault => cases h; exact ⟨_, _, rfl, .abort rfl, rfl⟩
      | read i next => cases h; exact ⟨_, _, rfl, .access rfl .read, rfl⟩
      | write change next => cases h; exact ⟨_, _, rfl, .access rfl .write, rfl⟩
      | call c next => cases h
    | counted lock verdict => cases h; exact ⟨_, _, rfl, .release rfl, rfl⟩
    | released lock verdict => cases h; exact ⟨_, _, rfl, .giveUp rfl, rfl⟩
    | leaving verdict => cases h; exact ⟨_, _, rfl, .leave rfl, rfl⟩
    | finished verdict => cases h
    | broken lock fault => cases h; exact ⟨_, _, rfl, .unlock rfl, rfl⟩
    | unwinding lock fault => cases h; exact ⟨_, _, rfl, .crash rfl, rfl⟩
    | crashed fault => cases h

theorem turn_of_answer {s s' : System} {t : TaskId} {a : Answer} (h : s.answer t a = some s') :
    ∃ task o, s.tasks[t]? = some task ∧ s.Turn t task o s' ∧
      s.observe (.answer t a) = o.map (t, ·) := by
  unfold answer at h
  unfold observe
  split at h
  · rename_i lock c next ht
    obtain ⟨reply, hr, rfl⟩ := Option.map_eq_some_iff.mp h
    exact ⟨_, _, ht, .access rfl (.call reply), by simp [ht, hr]⟩
  · cases h

theorem turn_of_breakOff {s s' : System} {t : TaskId} {text : String}
    (h : s.breakOff t text = some s') :
    ∃ task o, s.tasks[t]? = some task ∧ s.Turn t task o s' ∧
      s.observe (.breakOff t text) = o.map (t, ·) := by
  unfold breakOff at h
  unfold observe
  split at h
  · rename_i lock c next ht
    cases h
    exact ⟨_, _, ht, .breakOff rfl (.breakOff text), by simp [ht]⟩
  · cases h

/-- The task that an event is the turn of. -/
def Event.task? : Event → Option TaskId
  | .submit _ => none
  | .advance t _ => some t
  | .answer t _ => some t
  | .breakOff t _ => some t

/-- An event is the arrival of an operation, or the turn of a task. -/
theorem turn_of_step {s s' : System} {e : Event} (h : s.step e = some s') :
    (∃ operation, e = .submit operation ∧ s' = s.submit operation) ∨
      ∃ t task o, e.task? = some t ∧ s.tasks[t]? = some task ∧ s.Turn t task o s' ∧
        s.observe e = o.map (t, ·) := by
  cases e with
  | submit operation => exact Or.inl ⟨operation, rfl, (Option.some.inj h).symm⟩
  | advance t seconds =>
    obtain ⟨task, o, h⟩ := turn_of_advance h
    exact Or.inr ⟨t, task, o, rfl, h⟩
  | answer t a =>
    obtain ⟨task, o, h⟩ := turn_of_answer h
    exact Or.inr ⟨t, task, o, rfl, h⟩
  | breakOff t text =>
    obtain ⟨task, o, h⟩ := turn_of_breakOff h
    exact Or.inr ⟨t, task, o, rfl, h⟩

/-- The task holds the lock, and that is left of its program. -/
def IsAt (s : System) (t : TaskId) (op : Operation) (lock : LockId) (p : Program Verdict) : Prop :=
  ∃ phase, s.tasks[t]? = some ⟨op, phase⟩ ∧ phase.held = some lock ∧ phase.program? = some p

theorem IsAt.inside {s : System} {t : TaskId} {op : Operation} {lock : LockId} {p : Program Verdict}
    (h : s.IsAt t op lock p) (unfinished : p.isOver = false) : s.tasks[t]? = some ⟨op, .inside lock p⟩ := by
  obtain ⟨phase, ht, held, program⟩ := h
  rcases Phase.inside_or_isOver program held with rfl | hover
  · exact ht
  · rw [unfinished] at hover
    cases hover

end System
end ServingLifecycle
