import ServingLifecycle.Backend
import ServingLifecycle.Registry
import ServingLifecycle.Storage.Error
/-!
# Programs

An operation is a program that reads and changes the registry and calls storage and backend, one step
after the other. A program says what it does next, and how it goes on from the answer. It can also
break off, when a number leaves its range.
-/
namespace ServingLifecycle

/-- What a program asks of the world outside the registry. -/
inductive Call
  | stage (uri : String) (kind : PredictorKind) (root : String)
  /-- call the backend and wait for the answer, however long it takes -/
  | ask (call : BackendCall)
  /-- call the backend and wait for the answer, but no longer than the deadline -/
  | askWithin (call : BackendCall) (deadline : Duration)
deriving DecidableEq

/-- The answer to a call. There is none to a call that was cut off by its deadline. -/
def Call.Reply : Call → Type
  | stage .. => Except StorageError Layout
  | ask call => call.Reply
  | askWithin call _ => Option call.Reply

/-- Why an operation breaks off without an answer. -/
inductive Fault
  /-- a sum of durations left its range -/
  | durationOverflow
  /-- the backend broke off -/
  | backend (text : String)
deriving DecidableEq, Repr

def Fault.message : Fault → String
  | durationOverflow => "overflow when adding durations"
  | backend text => text

inductive Program (α : Type) : Type
  | done (a : α)
  | abort (fault : Fault)
  | read (identity : Identity) (next : List Service → Program α)
  | write (change : Registry.Change) (next : Program α)
  | call (c : Call) (next : c.Reply → Program α)

namespace Program

variable {α β : Type}

def bind : Program α → (α → Program β) → Program β
  | done a, f => f a
  | abort fault, _ => abort fault
  | read i next, f => read i fun services => (next services).bind f
  | write change next, f => write change (next.bind f)
  | call c next, f => call c fun reply => (next reply).bind f

def map (f : α → β) (p : Program α) : Program β :=
  p.bind fun a => done (f a)

end Program
end ServingLifecycle
