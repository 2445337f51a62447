import ServingLifecycle.Simulation.Clock
/-!
# Incidents

Everything that can happen in a simulation when its clock does not say in which order: operations arrive,
tasks take steps and waits end as they like, and between any two steps the backend changes its ways, a
service crashes or the stored files change.
-/
namespace ServingLifecycle

/-- A change of the backend that no call makes. -/
inductive Disturbance
  | setStartDelay (delay : Duration)
  | setOffline (offline : Bool)
  | setUnresponsive (unresponsive : Bool)
  | crash (service : Uuid)

def SimulatedBackend.disturb (b : SimulatedBackend) : Disturbance → SimulatedBackend
  | .setStartDelay delay => { b with startDelay := delay }
  | .setOffline offline => { b with offline := offline }
  | .setUnresponsive unresponsive => { b with unresponsive := unresponsive }
  | .crash uuid => b.crash uuid

inductive Incident
  | submit (operation : Operation)
  | step (task : TaskId)
  /-- the end of the wait for the call of a task -/
  | wake (moment : Nat) (task : TaskId)
  | disturb (disturbance : Disturbance)
  | store (world : StorageWorld)

namespace Simulation

/-- A simulation in which nothing has happened, over a fresh registry and a fresh backend. -/
def fresh (settings : Settings) (metrics : Option Metrics) (locator : Locator StorageWorld)
    (world : StorageWorld) (birth : Nat → Birth) : Simulation where
  system := System.initial settings metrics
  backend := .fresh
  faults := []
  world := world
  locator := locator
  now := 0
  inFlight := []
  birth := birth
  births := 0

/-- The simulation after an incident, if it can happen. -/
def after (s : Simulation) : Incident → Option Simulation
  | .submit operation => some (s.submit operation).2
  | .step t => s.stepTask t
  | .wake moment t =>
    match s.inFlight.find? fun call => call.task = t with
    | some call => if call.wakeAt.isSome then some (s.wakeAt moment call) else none
    | none => none
  | .disturb disturbance => some { s with backend := s.backend.disturb disturbance }
  | .store world => some { s with world := world }

/-- What comes of a simulation by incidents that may happen where they happen. -/
inductive Reaches (may : Simulation → Incident → Prop) (s : Simulation) : Simulation → Prop
  | refl : Reaches may s s
  | snoc {s₁ s₂ : Simulation} {incident : Incident} (prior : Reaches may s s₁)
      (allowed : may s₁ incident) (last : s₁.after incident = some s₂) : Reaches may s s₂

/-- The simulation after some incidents, if they can happen one after the other. -/
def run (s : Simulation) : List Incident → Option Simulation
  | [] => some s
  | incident :: rest => (s.after incident).bind fun s => s.run rest

/-- No operation on the slot is in its critical section. -/
def IsQuiet (s : Simulation) (i : Identity) : Prop :=
  ∀ task ∈ s.system.tasks, task.operation.identity = i → task.phase.held = none

end Simulation
end ServingLifecycle
