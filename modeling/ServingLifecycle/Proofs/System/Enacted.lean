import ServingLifecycle.Proofs.System.Serialisable
/-!
# Programs in a running system

A task that is inside can take every step that its program can take, whoever else there is, for each access of a
program is an event. So what an operation can do over a registry it does in a system, and that is all that is seen of
its slot then.
-/
namespace ServingLifecycle
open Program

/-- The answer that a reply comes as. -/
def Call.answer : (c : Call) → c.Reply → Answer
  | .stage .., result => .staged result
  | .ask (.deploy ..), result => .served result
  | .ask (.start ..), result => .served result
  | .ask (.stop _), result => .stopped result
  | .ask (.status _), result => .told result
  | .askWithin (.deploy ..) _, some result => .served result
  | .askWithin (.start ..) _, some result => .served result
  | .askWithin (.stop _) _, some result => .stopped result
  | .askWithin (.status _) _, some result => .told result
  | .askWithin .., none => .late

theorem Call.reply?_answer (c : Call) (reply : c.Reply) : c.reply? (c.answer reply) = some reply := by
  cases c with
  | stage => rfl
  | ask c => cases c <;> rfl
  | askWithin c deadline => cases c <;> cases reply <;> rfl

/-- The event in which a task makes an access. -/
def Access.event (t : TaskId) : Access → System.Event
  | read .. => .advance t 0
  | write _ => .advance t 0
  | call c reply => .answer t (c.answer reply)
  | brokenOff _ text => .breakOff t text

namespace System

variable {s s' : System} {t : TaskId} {op : Operation} {lock : LockId} {p q : Program Verdict} {r r' : Registry}
  {a : Access} {seen : List Access}

/-- A task that is inside takes the next step of its program. If a call broke off, so has the task. -/
theorem step_of_inside (ht : s.tasks[t]? = some ⟨op, .inside lock p⟩) (step : Step p s.registry a q r) :
    ∃ phase, s.step (a.event t) = some ({ s with registry := r }.setPhase t phase)
      ∧ s.observe (a.event t) = some (t, .access a) ∧ phase.held = some lock ∧ phase.program? = some q := by
  cases step with
  | read =>
    refine ⟨.inside lock _, ?_, ?_, rfl, rfl⟩
    · simp only [System.step, Access.event, advance, ht]
    · simp only [observe, Access.event, ht]
  | write =>
    refine ⟨.inside lock _, ?_, ?_, rfl, rfl⟩
    · simp only [System.step, Access.event, advance, ht]
    · simp only [observe, Access.event, ht]
  | call reply =>
    refine ⟨.inside lock _, ?_, ?_, rfl, rfl⟩
    · simp only [System.step, Access.event, answer, ht, Call.reply?_answer, Option.map_some]
    · simp only [observe, Access.event, ht, Call.reply?_answer, Option.map_some]
  | breakOff text =>
    refine ⟨.broken lock _, ?_, ?_, rfl, rfl⟩
    · simp only [System.step, Access.event, breakOff, ht]
    · simp only [observe, Access.event, ht]

theorem IsAt.call?_eq {c : Call} {next : c.Reply → Program Verdict} (h : s.IsAt t op lock (.call c next)) :
    s.call? t = some c := by
  simp only [call?, h.inside rfl]

/-- A task takes all the steps of its program. They are what is seen of its slot meanwhile, and of others nothing is. -/
theorem IsAt.run (h : s.IsAt t op lock p) (steps : Steps p s.registry seen q r) :
    ∃ s', s.run (seen.map (Access.event t)) = some s' ∧ s'.registry = r ∧ s'.IsAt t op lock q
      ∧ ∀ i, watch i s (seen.map (Access.event t)) =
        if op.identity = i then seen.map fun a => (t, .access a) else [] := by
  generalize hr : s.registry = r₀ at steps
  induction steps generalizing s with
  | refl p r => exact ⟨s, rfl, hr, h, fun i => by split <;> rfl⟩
  | @head p q p' r r₁ r' a as first rest ih =>
    subst hr
    -- a program that has a step to take is not over, so the task is still inside
    have ht := h.inside (by cases first <;> rfl)
    obtain ⟨phase, step, observed, held, left⟩ := step_of_inside ht first
    have there : { s with registry := r₁ }.tasks[t]? = some ⟨op, .inside lock p⟩ := ht
    have own : ({ s with registry := r₁ }.setPhase t phase).tasks[t]? = some ⟨op, phase⟩ :=
      getElem?_setPhase_self there phase
    obtain ⟨s', run, registry, isAt, watched⟩ := ih ⟨phase, own, held, left⟩ rfl
    refine ⟨s', ?_, registry, isAt, fun i => ?_⟩
    · rw [List.map_cons, System.run, step]
      exact run
    · simp only [List.map_cons, watch, step, watched i, glimpse, observed]
      by_cases hi : op.identity = i <;> simp [isOf_eq ht, hi]

section Alone

variable {settings : Settings}

/-- The events in which an operation that is alone gets its lock. -/
def entering (op : Operation) : List Event :=
  [.submit op, .advance 0 0, .advance 0 0]

/-- The events in which an operation that is alone makes the given accesses. -/
def enacting (op : Operation) (seen : List Access) : List Event :=
  entering op ++ seen.map (Access.event 0)

theorem run_entering (settings : Settings) (metrics : Option Metrics) (r : Registry) (op : Operation) :
    ∃ s, (startingFrom settings metrics r).run (entering op) = some s ∧ s.registry = r
      ∧ s.IsAt 0 op 0 (op.program settings)
      ∧ ∀ i, watch i (startingFrom settings metrics r) (entering op) =
        if op.identity = i then [(0, .entered)] else [] := by
  have watched : ∀ i, watch i (startingFrom settings metrics r) (entering op) =
      [(0, .entered)].filter (fun _ => op.identity = i) ++ [] := fun i => rfl
  refine ⟨_, rfl, rfl, ⟨_, rfl, rfl, rfl⟩, fun i => ?_⟩
  rw [watched]
  by_cases hi : op.identity = i <;> simp [hi]

/-- All that the program of an operation can do over a registry it does in a system that begins with the registry. -/
theorem run_enacting (metrics : Option Metrics) (steps : Steps (op.program settings) r seen p r') :
    ∃ s, (startingFrom settings metrics r).run (enacting op seen) = some s ∧ s.registry = r' ∧ s.IsAt 0 op 0 p
      ∧ ∀ i, watch i (startingFrom settings metrics r) (enacting op seen) =
        if op.identity = i then (0, .entered) :: seen.map fun a => (0, .access a) else [] := by
  obtain ⟨s₀, enters, rfl, inside, entered⟩ := run_entering settings metrics r op
  obtain ⟨s, run, registry, isAt, watched⟩ := inside.run steps
  refine ⟨s, ?_, registry, isAt, fun i => ?_⟩
  · rw [enacting, run_append, enters]
    exact run
  · rw [enacting, watch_append enters, entered, watched]
    split <;> rfl

theorem faithful_enacting (metrics : Option Metrics) (steps : Steps (op.program settings) r seen p r')
    (faithful : ∀ a ∈ seen, a.Faithful) :
    ∀ i, ∀ x ∈ watch i (startingFrom settings metrics r) (enacting op seen), x.2.Faithful := by
  obtain ⟨_, _, _, _, watched⟩ := run_enacting metrics steps
  intro i x hx
  rw [watched i] at hx
  split at hx
  · rcases List.mem_cons.mp hx with rfl | hx
    · trivial
    · obtain ⟨a, ha, rfl⟩ := List.mem_map.mp hx
      exact faithful a ha
  · cases hx

end Alone

/-- How long a start without a timeout of its own is waited for by default. -/
def sampleDeadline : Duration :=
  (defaultStartTimeout.add? Settings.default.backendGrace).getD .zero

end System
end ServingLifecycle
