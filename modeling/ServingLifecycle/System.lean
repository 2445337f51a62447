import ServingLifecycle.Metrics
import ServingLifecycle.Operation
/-!
# The system of operations

Operations run side by side, each as a task of its own; on one slot they run one at a time. A task
looks the lock of its slot up in a table, where it is made on demand, waits for it, and holds it from
the first access of its program until its outcome has been counted. Then it lets go of the lock, gives
up its handle on it, and drops every lock from the table that nobody has a handle on. A task whose
program breaks off lets go of lock and handle, and neither counts nor drops anything.

Each of these is one step, and every access to the registry and every call is one. The steps of
different tasks may come in any order.
-/
namespace ServingLifecycle

abbrev TaskId : Type := Nat

abbrev LockId : Type := Nat

/-- How far a task has come. -/
inductive Phase
  /-- it has not looked its lock up -/
  | arriving
  /-- it has a handle on its lock and waits for it -/
  | waiting (lock : LockId)
  /-- it holds its lock and runs its program -/
  | inside (lock : LockId) (rest : Program Verdict)
  /-- its outcome is counted and it still holds its lock -/
  | counted (lock : LockId) (verdict : Verdict)
  /-- it has let go of its lock and has a handle on it -/
  | released (lock : LockId) (verdict : Verdict)
  /-- it has no handle any more -/
  | leaving (verdict : Verdict)
  | finished (verdict : Verdict)
  /-- its program broke off and it still holds its lock -/
  | broken (lock : LockId) (fault : Fault)
  /-- its program broke off and it has a handle on its lock -/
  | unwinding (lock : LockId) (fault : Fault)
  | crashed (fault : Fault)

namespace Phase

/-- The lock that a task in this phase holds. -/
def held : Phase → Option LockId
  | inside lock _ => some lock
  | counted lock _ => some lock
  | broken lock _ => some lock
  | _ => none

/-- The lock that a task in this phase has a handle on. -/
def handle : Phase → Option LockId
  | waiting lock => some lock
  | released lock _ => some lock
  | unwinding lock _ => some lock
  | phase => phase.held

def isOver : Phase → Bool
  | finished _ => true
  | crashed _ => true
  | _ => false

end Phase

structure Task where
  operation : Operation
  phase : Phase

/-- What storage and backend may answer to a call. -/
inductive Answer
  | staged (result : Except StorageError Layout)
  | served (result : Except BackendError Service)
  | stopped (result : Except BackendError Unit)
  | told (result : Except BackendError ServiceState)
  /-- the deadline of the call is over -/
  | late

/-- The reply that an answer is to a call, if it is one. -/
def Call.reply? : (c : Call) → Answer → Option c.Reply
  | .stage .., .staged r => some r
  | .ask (.deploy ..), .served r => some r
  | .ask (.start ..), .served r => some r
  | .ask (.stop _), .stopped r => some r
  | .ask (.status _), .told r => some r
  | .askWithin (.deploy ..) _, .served r => some (some r)
  | .askWithin (.start ..) _, .served r => some (some r)
  | .askWithin (.stop _) _, .stopped r => some (some r)
  | .askWithin (.status _) _, .told r => some (some r)
  | .askWithin .., .late => some none
  | _, _ => none

structure System where
  settings : Settings
  registry : Registry
  metrics : Option Metrics
  /-- the locks of the slots -/
  locks : List (Identity × LockId)
  /-- how many locks have been made -/
  made : Nat
  /-- the tasks, by their ids -/
  tasks : List Task

namespace System

def initial (settings : Settings) (metrics : Option Metrics) : System :=
  ⟨settings, .empty, metrics, [], 0, []⟩

def submit (s : System) (operation : Operation) : System :=
  { s with tasks := s.tasks ++ [⟨operation, .arriving⟩] }

def setPhase (s : System) (t : TaskId) (phase : Phase) : System :=
  { s with tasks := s.tasks.modify t fun task => { task with phase := phase } }

/-- Looks the lock of a slot up, making it if there is none. -/
def lookUp (s : System) (i : Identity) : LockId × System :=
  match s.locks.lookup i with
  | some lock => (lock, s)
  | none => (s.made, { s with locks := s.locks ++ [(i, s.made)], made := s.made + 1 })

def isFree (s : System) (lock : LockId) : Bool :=
  s.tasks.all fun task => task.phase.held ≠ some lock

/-- Drops the locks that nobody has a handle on. -/
def prune (s : System) : System :=
  { s with
    locks := s.locks.filter fun entry => s.tasks.any fun task => task.phase.handle = some entry.2 }

/-- Counts an outcome: a success under what was attempted, a failure under what its error names. -/
def count (s : System) (verdict : Verdict) (seconds : Float) : System :=
  { s with
    metrics := s.metrics.map fun m =>
      match verdict.result with
      | .ok _ => m.recordSuccess verdict.attempted seconds
      | .error e => m.recordFailure e.action e.failure.label seconds }

/-- One step of a task that waits for no answer. The duration is that of its time inside, for the
outcome to be counted with. -/
def advance (s : System) (t : TaskId) (seconds : Float) : Option System :=
  match s.tasks[t]? with
  | none => none
  | some task =>
    match task.phase with
    | .arriving =>
      let (lock, s) := s.lookUp task.operation.identity
      some (s.setPhase t (.waiting lock))
    | .waiting lock =>
      if s.isFree lock then
        some (s.setPhase t (.inside lock (task.operation.program s.settings)))
      else none
    | .inside lock (.read i next) => some (s.setPhase t (.inside lock (next (s.registry.find i))))
    | .inside lock (.write change next) =>
      some ({ s with registry := s.registry.apply change }.setPhase t (.inside lock next))
    | .inside _ (.call _ _) => none
    | .inside lock (.abort fault) => some (s.setPhase t (.broken lock fault))
    | .inside lock (.done verdict) =>
      some ((s.count verdict seconds).setPhase t (.counted lock verdict))
    | .counted lock verdict => some (s.setPhase t (.released lock verdict))
    | .released _ verdict => some (s.setPhase t (.leaving verdict))
    | .leaving verdict => some (s.prune.setPhase t (.finished verdict))
    | .finished _ => none
    | .broken lock fault => some (s.setPhase t (.unwinding lock fault))
    | .unwinding _ fault => some (s.setPhase t (.crashed fault))
    | .crashed _ => none

def call? (s : System) (t : TaskId) : Option Call :=
  match s.tasks[t]? with
  | some ⟨_, .inside _ (.call c _)⟩ => some c
  | _ => none

def answer (s : System) (t : TaskId) (a : Answer) : Option System :=
  match s.tasks[t]? with
  | some ⟨_, .inside lock (.call c next)⟩ =>
    (c.reply? a).map fun reply => s.setPhase t (.inside lock (next reply))
  | _ => none

/-- The call that a task waits for breaks off. -/
def breakOff (s : System) (t : TaskId) (text : String) : Option System :=
  match s.tasks[t]? with
  | some ⟨_, .inside lock (.call _ _)⟩ => some (s.setPhase t (.broken lock (.backend text)))
  | _ => none

inductive Event
  | submit (operation : Operation)
  | advance (task : TaskId) (seconds : Float)
  | answer (task : TaskId) (answer : Answer)
  | breakOff (task : TaskId) (text : String)

/-- The system after an event, if the event can happen. -/
def step (s : System) : Event → Option System
  | .submit operation => some (s.submit operation)
  | .advance t seconds => s.advance t seconds
  | .answer t a => s.answer t a
  | .breakOff t text => s.breakOff t text

/-- The system after some events, if they can happen one after the other. -/
def run (s : System) : List Event → Option System
  | [] => some s
  | e :: es => (s.step e).bind fun s => s.run es

end System
end ServingLifecycle
