import ServingLifecycle.Backend.Faults
import ServingLifecycle.Staging.Configured
import ServingLifecycle.Storage.Scripted
import ServingLifecycle.System
/-!
# Simulations

A system of operations together with everything its calls go to: a simulated backend with planned
faults, storage on a disk, and a clock. The clock stands still while any task can take a step; when
all of them wait it jumps to the moment when the first wait is over. Of several tasks that can take a
step the one that was submitted first does.
-/
namespace ServingLifecycle

structure StorageWorld where
  disk : Disk
  calls : List StorageCall

namespace StorageWorld

/-- A filesystem of the disk, as one of the whole. -/
def onDisk (fs : Filesystem Disk) : Filesystem StorageWorld :=
  fs.within StorageWorld.disk fun w d => { w with disk := d }

/-- A scripted filesystem, as one of the whole. -/
def scripted (script : Script) : Filesystem StorageWorld :=
  script.filesystem.within StorageWorld.calls fun w calls => { w with calls := calls }

end StorageWorld

structure InFlight where
  task : TaskId
  /-- when the wait is over; `none` if it never is -/
  wakeAt : Option Nat
  /-- the service that is on its way up; `none` if only a deadline can end the wait -/
  startup : Option Startup

structure Simulation where
  system : System
  backend : SimulatedBackend
  faults : List PlannedFault
  world : StorageWorld
  locator : Locator StorageWorld
  /-- the time in nanoseconds since the start -/
  now : Nat
  inFlight : List InFlight
  /-- the id and time of each service, in the order in which they come into being -/
  birth : Nat → Birth
  /-- how many services have come into being -/
  births : Nat

/-- Services that come into being one nanosecond after the other. -/
def Birth.nth (n : Nat) : Birth :=
  ⟨Uuid.ofNat (Nat.pow 2 127 + n), ⟨2026, 1, 1, 0, 0, n / 1000000000, n % 1000000000⟩⟩

namespace Simulation

def draw (s : Simulation) : Birth × Simulation :=
  (s.birth s.births, { s with births := s.births + 1 })

/-- What a call to the backend comes to at first. -/
inductive Response
  | answered (answer : Answer)
  | waiting (startup : Startup)
  | hanging
  | brokenOff (text : String)

/-- The response when the backend itself takes a call that waits for a service. -/
def Response.ofBeginning : Beginning → Response
  | .answered reply => .answered (.served reply)
  | .waiting startup => .waiting startup
  | .hanging => .hanging

def begin (s : Simulation) : BackendCall → Response × Simulation
  | .deploy layout i runId replace timeout =>
    let (birth, s) := s.draw
    let (beginning, b) := s.backend.deploy birth layout i runId replace timeout
    (.ofBeginning beginning, { s with backend := b })
  | .start service timeout =>
    let (beginning, b) := s.backend.start service timeout
    (.ofBeginning beginning, { s with backend := b })
  | .stop service =>
    let (reply, b) := s.backend.stop service
    (.answered (.stopped reply), { s with backend := b })
  | .status service =>
    let (reply, b) := s.backend.status service
    (.answered (.told reply), { s with backend := b })

/-- The service of a call; that of a deploy call comes into being now. -/
def serviceOf (s : Simulation) : BackendCall → Service × Simulation
  | .deploy layout i runId _ _ =>
    let (birth, s) := s.draw
    (Service.ofLayout birth i runId layout, s)
  | .start service _ => (service, s)
  | .stop service => (service, s)
  | .status service => (service, s)

def errorAnswer (method : BackendMethod) (error : BackendError) : Answer :=
  match method with
  | .deploy | .start => .served (.error error)
  | .stop => .stopped (.error error)
  | .status => .told (.error error)

/-- A success as the answer to a call of a method. -/
def stateAnswer (method : BackendMethod) (service : Service) (state : ServiceState) : Answer :=
  match method with
  | .deploy | .start => .served (.ok (service.withState state))
  | .stop => .stopped (.ok ())
  | .status => .told (.ok state)

def faultResponse (method : BackendMethod) (service : Service) : FaultReply → Response
  | .unavailable text => .answered (errorAnswer method (.unavailable text))
  | .rejected text => .answered (errorAnswer method (.rejected text))
  | .startTimeout state =>
    .answered (errorAnswer method (.startTimeout (state.map service.withState)))
  | .hang => .hanging
  | .breakOff text => .brokenOff text
  | .state state => .answered (stateAnswer method service state)

/-- Hands a call to the plan of faults, and to the backend if no fault takes it. -/
def ask (s : Simulation) (call : BackendCall) : Response × Simulation :=
  match interceptCall call.method s.faults with
  | (none, faults) => { s with faults := faults }.begin call
  | (some reply, faults) =>
    let (service, s) := { s with faults := faults }.serviceOf call
    (faultResponse call.method service reply, s)

def deliver (s : Simulation) (t : TaskId) (a : Answer) : Simulation :=
  match s.system.answer t a with
  | some system => { s with system := system }
  | none => s

def suspend (s : Simulation) (t : TaskId) (wait : Option Duration) (startup : Option Startup) :
    Simulation :=
  { s with inFlight := s.inFlight ++ [⟨t, wait.map fun d => s.now + d.nanos, startup⟩] }

/-- Puts a response to the call of a task to work, with the deadline of the call. -/
def respond (s : Simulation) (t : TaskId) (deadline : Option Duration) : Response → Simulation
  | .answered a => s.deliver t a
  | .brokenOff text =>
    match s.system.breakOff t text with
    | some system => { s with system := system }
    | none => s
  | .waiting startup =>
    if deadline.all (startup.wait ≤ ·) then s.suspend t (some startup.wait) (some startup)
    else s.suspend t deadline none
  | .hanging => s.suspend t deadline none

def place (s : Simulation) (t : TaskId) : Call → Simulation
  | .stage uri kind root =>
    let (layout, world) := s.locator.locate uri kind root s.world
    { s with world := world }.deliver t (.staged layout)
  | .ask call =>
    let (response, s) := s.ask call
    s.respond t none response
  | .askWithin call deadline =>
    let (response, s) := s.ask call
    s.respond t (some deadline) response

/-- One step of a task, if it can take one. -/
def stepTask (s : Simulation) (t : TaskId) : Option Simulation :=
  if s.inFlight.any (·.task == t) then none
  else
    match s.system.call? t with
    | some call => some (s.place t call)
    | none => (s.system.advance t 0.0).map fun system => { s with system := system }

/-- The wait of a call is over. -/
def wake (s : Simulation) (call : InFlight) : Simulation :=
  match call.startup with
  | none => s.deliver call.task .late
  | some startup =>
    let (reply, backend) := s.backend.finish startup
    { s with backend := backend }.deliver call.task (.served reply)

end Simulation
end ServingLifecycle
