import ServingLifecycle.Backend
/-!
# The simulated backend

A backend inside the program. A service that is started becomes running after the start delay; if that
is longer than the caller's timeout, the caller is told so when the timeout is over and the service
stays starting. Offline, the backend refuses every call. Unresponsive, it never answers a call that
waits for a service. A service that replaces others is running before they are torn down.
-/
namespace ServingLifecycle

inductive CallRecord
  | deploy (identity : Identity) (servedUri : String) (replace : Bool)
  | start (service : Uuid)
  | stop (service : Uuid)
  | status (service : Uuid)
deriving DecidableEq, Repr

structure SimulatedBackend where
  services : List Service
  calls : List CallRecord
  startDelay : Duration
  offline : Bool
  unresponsive : Bool
deriving DecidableEq

/-- A service on its way up. -/
structure Startup where
  service : Service
  /-- the services that go when it runs -/
  replaced : List Uuid
  /-- how long until the caller has an answer -/
  wait : Duration
  /-- whether the service runs by then -/
  inTime : Bool
deriving DecidableEq

/-- What a call that waits for a service comes to at first. -/
inductive Beginning
  | answered (reply : Except BackendError Service)
  | waiting (startup : Startup)
  /-- no answer will ever come -/
  | hanging

namespace SimulatedBackend

def fresh : SimulatedBackend where
  services := []
  calls := []
  startDelay := .zero
  offline := false
  unresponsive := false

def offlineError : BackendError := .unavailable "mock backend is offline"

def find? (b : SimulatedBackend) (uuid : Uuid) : Option Service :=
  b.services.find? fun s => s.uuid = uuid

def servicesOf (b : SimulatedBackend) (i : Identity) : List Service :=
  b.services.filter fun s => s.identity = i

/-- Keeps a service, in the place of the one with its id. -/
def put (b : SimulatedBackend) (service : Service) : SimulatedBackend :=
  if (b.find? service.uuid).isSome then
    { b with services := b.services.map fun s => if s.uuid = service.uuid then service else s }
  else { b with services := b.services ++ [service] }

def setState (b : SimulatedBackend) (uuid : Uuid) (state : ServiceState) : SimulatedBackend :=
  { b with services := b.services.map fun s => if s.uuid = uuid then s.withState state else s }

/-- Stops a service behind everyone's back. -/
def crash (b : SimulatedBackend) (uuid : Uuid) : SimulatedBackend :=
  b.setState uuid .stopped

def see (b : SimulatedBackend) (call : CallRecord) : SimulatedBackend :=
  { b with calls := b.calls ++ [call] }

def predictionUrl (i : Identity) : String :=
  "http://" ++ i.pipeline ++ "." ++ i.step ++ ".mock.local/v1/models/" ++ i.model ++ ":predict"

def launch (b : SimulatedBackend) (service : Service) (replaced : List Uuid) (timeout : Duration) :
    Beginning × SimulatedBackend :=
  let service := service.withState .starting
  let inTime : Bool := b.startDelay ≤ timeout
  (if b.unresponsive then .hanging
    else .waiting ⟨service, replaced, if inTime then b.startDelay else timeout, inTime⟩,
    b.put service)

def finish (b : SimulatedBackend) (s : Startup) : Except BackendError Service × SimulatedBackend :=
  if s.inTime then
    let service := s.service.withState .running
    let b := b.put service
    (.ok service, { b with services := b.services.filter fun t => !s.replaced.contains t.uuid })
  else (.error (.startTimeout (some s.service)), b)

def deploy (b : SimulatedBackend) (birth : Birth) (layout : Layout) (i : Identity) (runId : String)
    (replace : Bool) (timeout : Duration) : Beginning × SimulatedBackend :=
  let b := b.see (.deploy i layout.servedUri replace)
  if b.offline then (.answered (.error offlineError), b)
  else
    let replaced := if replace then (b.servicesOf i).map Service.uuid else []
    let service := { Service.ofLayout birth i runId layout with url := some (predictionUrl i) }
    b.launch service replaced timeout

def start (b : SimulatedBackend) (service : Service) (timeout : Duration) :
    Beginning × SimulatedBackend :=
  let b := b.see (.start service.uuid)
  if b.offline then (.answered (.error offlineError), b)
  else
    match b.find? service.uuid with
    | none => (.answered (.error (.rejected ("unknown service " ++ service.uuid.text))), b)
    | some current =>
      if current.isRunning then (.answered (.ok current), b) else b.launch current [] timeout

def stop (b : SimulatedBackend) (service : Service) : Except BackendError Unit × SimulatedBackend :=
  let b := b.see (.stop service.uuid)
  if b.offline then (.error offlineError, b) else (.ok (), b.setState service.uuid .stopped)

def status (b : SimulatedBackend) (service : Service) :
    Except BackendError ServiceState × SimulatedBackend :=
  let b := b.see (.status service.uuid)
  if b.offline then (.error offlineError, b)
  else
    (.ok (match b.find? service.uuid with
      | some current => current.state
      | none => .absent), b)

def deployCalls (b : SimulatedBackend) : Nat :=
  b.calls.countP fun
    | .deploy .. => true
    | _ => false

def startCalls (b : SimulatedBackend) : Nat :=
  b.calls.countP fun
    | .start _ => true
    | _ => false

end SimulatedBackend
end ServingLifecycle
