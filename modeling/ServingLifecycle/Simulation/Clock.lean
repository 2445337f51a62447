import ServingLifecycle.Simulation
/-!
# The clock of a simulation

Lets tasks take steps and time pass: until nothing can happen without time passing, until a moment, or
until a task is over.
-/
namespace ServingLifecycle.Simulation

/-- The first task that can take a step, after that step. -/
def stepFirst (s : Simulation) : Option Simulation :=
  (List.range s.system.tasks.length).findSome? s.stepTask

/-- More steps than all tasks together can take before they are over or wait. -/
def stepBound (s : Simulation) : Nat :=
  let tasks := s.system.tasks.length
  tasks * (32 + 4 * (s.system.registry.services.length + 2 * tasks)) + 1

def settleWithin : (steps : Nat) → Simulation → Simulation
  | 0, s => s
  | steps + 1, s =>
    match s.stepFirst with
    | some s => settleWithin steps s
    | none => s

/-- Takes steps until no task can take one. -/
def settle (s : Simulation) : Simulation :=
  settleWithin s.stepBound s

/-- The call in flight whose wait is over first; of two that are over together, the one made first. -/
def nextWake (s : Simulation) : Option (Nat × InFlight) :=
  s.inFlight.foldl (fun best call =>
    match call.wakeAt, best with
    | none, best => best
    | some at', none => some (at', call)
    | some at', some (first, _) => if at' < first then some (at', call) else best) none

/-- Wakes a call in flight at a moment. -/
def wakeAt (s : Simulation) (moment : Nat) (call : InFlight) : Simulation :=
  { s with
    now := moment
    inFlight := s.inFlight.filter fun other => other.task ≠ call.task }.wake call

def isOver (s : Simulation) (t : TaskId) : Bool :=
  match s.system.tasks[t]? with
  | some task => task.phase.isOver
  | none => true

def runWithin (until' : Option Nat) (stop : Simulation → Bool) : (waits : Nat) → Simulation → Simulation
  | 0, s => s
  | waits + 1, s =>
    let s := s.settle
    if stop s then s
    else
      match s.nextWake, until' with
      | some (moment, call), none => runWithin until' stop waits (s.wakeAt moment call)
      | some (moment, call), some limit =>
        if moment ≤ limit then runWithin until' stop waits (s.wakeAt moment call)
        else { s with now := limit }
      | none, some limit => { s with now := limit }
      | none, none => s

/-- Lets time pass until the condition holds, but not past the moment if one is given. A task waits at
most once, so there are no more waits than tasks. -/
def runUntil (s : Simulation) (moment : Option Nat) (stop : Simulation → Bool) : Simulation :=
  runWithin moment stop (s.system.tasks.length + 1) s

/-- Lets time pass until a task is over, but no longer than the given time. -/
def await (s : Simulation) (t : TaskId) (limit : Option Duration) : Simulation :=
  s.runUntil (limit.map fun d => s.now + d.nanos) fun s => s.isOver t

/-- Lets time pass until all of some tasks are over. -/
def awaitAll (s : Simulation) (ts : List TaskId) : Simulation :=
  s.runUntil none fun s => ts.all s.isOver

def pass (s : Simulation) (time : Duration) : Simulation :=
  s.runUntil (some (s.now + time.nanos)) fun _ => false

/-- Submits an operation as a new task, unless it is turned away. -/
def submit (s : Simulation) (operation : Operation) : Except DeployError TaskId × Simulation :=
  match operation.refusal with
  | some error => (.error error, s)
  | none => (.ok s.system.tasks.length, { s with system := s.system.submit operation })

/-- Calls the backend itself, past the plan of faults, and waits for the answer. There is none if the
backend does not answer. -/
def askDirectly (s : Simulation) (call : BackendCall) : Option Answer × Simulation :=
  match s.begin call with
  | (.answered a, s) => (some a, s)
  | (.waiting startup, s) =>
    let s := s.pass startup.wait
    let (reply, backend) := s.backend.finish startup
    (some (.served reply), { s with backend := backend })
  | (.hanging, s) => (none, s)
  | (.brokenOff _, s) => (none, s)

end ServingLifecycle.Simulation
