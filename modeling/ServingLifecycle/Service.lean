import ServingLifecycle.Identity
import ServingLifecycle.Instant
import ServingLifecycle.PredictorKind
import ServingLifecycle.Uuid
/-!
# Services

A service is one instance of a model server, as the serving backend describes it. The backend owns
it; everyone else keeps descriptors.
-/
namespace ServingLifecycle

/-- Where a model is served from, and by which runtime. -/
structure Layout where
  servedUri : String
  kind : PredictorKind
deriving DecidableEq

inductive ServiceState
  | absent | starting | running | stopped | failed
deriving DecidableEq, Repr

namespace ServiceState

def name : ServiceState → String
  | absent => "absent"
  | starting => "starting"
  | running => "running"
  | stopped => "stopped"
  | failed => "failed"

/-- A stopped or failed service needs no further stop. -/
def isDown : ServiceState → Bool
  | stopped | failed => true
  | _ => false

end ServiceState

structure Service where
  uuid : Uuid
  identity : Identity
  runId : String
  servedUri : String
  kind : PredictorKind
  url : Option String
  state : ServiceState
  createdAt : Instant
deriving DecidableEq

/-- What is drawn when a service comes into being: its id and its time. -/
structure Birth where
  uuid : Uuid
  createdAt : Instant
deriving DecidableEq, Repr

namespace Service

/-- A service of a layout that has not been started. -/
def ofLayout (birth : Birth) (identity : Identity) (runId : String) (layout : Layout) : Service where
  uuid := birth.uuid
  identity := identity
  runId := runId
  servedUri := layout.servedUri
  kind := layout.kind
  url := none
  state := .absent
  createdAt := birth.createdAt

def isRunning (s : Service) : Bool :=
  s.state == .running

def withState (s : Service) (state : ServiceState) : Service :=
  { s with state := state }

@[simp] theorem uuid_withState (s : Service) (x : ServiceState) : (s.withState x).uuid = s.uuid := rfl

@[simp] theorem identity_withState (s : Service) (x : ServiceState) :
    (s.withState x).identity = s.identity := rfl

@[simp] theorem state_withState (s : Service) (x : ServiceState) : (s.withState x).state = x := rfl

@[simp] theorem createdAt_withState (s : Service) (x : ServiceState) :
    (s.withState x).createdAt = s.createdAt := rfl

theorem isRunning_iff (s : Service) : s.isRunning = true ↔ s.state = .running := by
  simp [isRunning]

end Service
end ServingLifecycle
