import ServingLifecycle.DeployError
import ServingLifecycle.Program
import ServingLifecycle.Settings
/-!
# Operations

The five things that can be done to a slot, each as a program. Deploying follows the plan that the
decision policy makes from the recorded services. Starting and reusing make sure that the newest
service runs, then stop the others of the slot and drop them. Nothing is tried twice; a failed
operation may be asked for again as a whole.
-/
namespace ServingLifecycle

inductive Outcome
  | service (service : Service)
  | services (services : List Service)
  | deleted
deriving DecidableEq

/-- How an operation ended, and what it was trying. -/
structure Verdict where
  attempted : Action
  result : Except DeployError Outcome

inductive Operation
  | deploy (request : Request)
  /-- without a timeout the one of the settings holds -/
  | start (identity : Identity) (timeout : Option Duration)
  | stop (identity : Identity)
  | delete (identity : Identity)
  | refresh (identity : Identity)
deriving DecidableEq

namespace Operation

def identity : Operation → Identity
  | deploy request => request.identity
  | start i _ => i
  | stop i => i
  | delete i => i
  | refresh i => i

/-- The error of an operation that is turned away before it begins. -/
def refusal : Operation → Option DeployError
  | deploy request =>
    if request.Valid then none
    else some ⟨request.identity, .deploy, .invalidRequest (Violation.report request.violations)⟩
  | _ => none

/-- Asks the backend with a deadline: the timeout that the backend was given, and the grace. -/
def askWithGrace {α : Type} (grace : Duration) (timeout : Duration) (call : BackendCall)
    (next : Option call.Reply → Program α) : Program α :=
  match timeout.add? grace with
  | none => .abort .durationOverflow
  | some deadline => .call (.askWithin call deadline) next

/-- Records the service that a failure handed over, and turns the failure into an error. -/
def backendFailure {α : Type} (i : Identity) (action : Action) (timeout : Duration)
    (error : BackendError) : Program (Except DeployError α) :=
  let failed : Program (Except DeployError α) :=
    .done (.error ⟨i, action, .ofBackend timeout error⟩)
  match error with
  | .startTimeout (some service) => .write (.record service) failed
  | _ => failed

/-- Stops the services that are neither stopped nor failed, in order. -/
def stopAll (i : Identity) (action : Action) (stopped : List Service) :
    List Service → Program (Except DeployError (List Service))
  | [] => .done (.ok stopped)
  | service :: rest =>
    if service.state.isDown then stopAll i action (stopped ++ [service]) rest
    else
      .call (.ask (.stop service)) fun reply =>
        match reply with
        | .error error => .done (.error ⟨i, action, .ofBackend .zero error⟩)
        | .ok _ =>
          let service := service.withState .stopped
          .write (.record service) (stopAll i action (stopped ++ [service]) rest)

/-- Stops every other service of the slot and drops it from the registry. -/
def retireOthers (current : Service) (action : Action) : Program (Except DeployError Service) :=
  .read current.identity fun services =>
    let others := services.filter fun s => s.uuid ≠ current.uuid
    if others.isEmpty then .done (.ok current)
    else
      (stopAll current.identity action [] others).bind fun
        | .error error => .done (.error error)
        | .ok _ => .write (.supersede current) (.done (.ok current))

/-- Starts a service that is not running, then retires the others. -/
def ensureRunning (grace : Duration) (service : Service) (timeout : Duration) (action : Action) :
    Program (Except DeployError Service) :=
  if service.isRunning then retireOthers service action
  else
    askWithGrace grace timeout (.start service timeout) fun reply =>
      match (reply.getD (.error (.startTimeout none)) : Except BackendError Service) with
      | .ok started => .write (.record started) (retireOthers started action)
      | .error error => backendFailure service.identity action timeout error

/-- Where the copies of a request are staged. -/
def stagingRoot (settings : Settings) (request : Request) : String :=
  request.servedRoot.getD (settings.servedRoot request.identity request.runId)

/-- Stages the artifact and creates a service, in the place of the others if `replace`. -/
def deployNew (settings : Settings) (request : Request) (replace : Bool) :
    Program (Except DeployError Service) :=
  let action : Action := if replace then .replace else .deploy
  .call (.stage request.artifactUri request.kind (stagingRoot settings request)) fun staged =>
    match (staged : Except StorageError Layout) with
    | .error error => .done (.error ⟨request.identity, action, .ofStorage error⟩)
    | .ok layout =>
      askWithGrace settings.backendGrace request.startTimeout
        (.deploy layout request.identity request.runId replace request.startTimeout) fun reply =>
        match (reply.getD (.error (.startTimeout none)) : Except BackendError Service) with
        | .ok service =>
          .write (if replace then .supersede service else .record service) (.done (.ok service))
        | .error error => backendFailure request.identity action request.startTimeout error

def carryOut (settings : Settings) (request : Request) :
    Plan → Program (Except DeployError Service)
  | .deployNew => deployNew settings request false
  | .replace _ => deployNew settings request true
  | .reuse service => ensureRunning settings.backendGrace service request.startTimeout .reuse

/-- Reads the state of each service from the backend and records it, in order. -/
def refreshAll (i : Identity) (refreshed : List Service) :
    List Service → Program (Except DeployError (List Service))
  | [] => .done (.ok refreshed)
  | service :: rest =>
    .call (.ask (.status service)) fun reply =>
      match (reply : Except BackendError ServiceState) with
      | .error error => .done (.error ⟨i, .reuse, .ofBackend .zero error⟩)
      | .ok state =>
        let service := service.withState state
        .write (.record service) (refreshAll i (refreshed ++ [service]) rest)

/-- The error of an operation that needs a service and finds none. -/
def notFound (i : Identity) (action : Action) : DeployError :=
  ⟨i, action, .serviceNotFound⟩

/-- The program of an operation, inside the critical section of its slot. -/
def program (settings : Settings) : Operation → Program Verdict
  | deploy request =>
    .read request.identity fun services =>
      let plan := Plan.decide request.decision services
      (carryOut settings request plan).map fun result => ⟨plan.action, result.map .service⟩
  | start i timeout =>
    .read i fun
      | [] => .done ⟨.start, .error (notFound i .start)⟩
      | newest :: _ =>
        (ensureRunning settings.backendGrace newest (timeout.getD settings.defaultStartTimeout)
          .start).map fun result => ⟨.start, result.map .service⟩
  | stop i =>
    .read i fun services =>
      if services.isEmpty then .done ⟨.stop, .error (notFound i .stop)⟩
      else (stopAll i .stop [] services).map fun result => ⟨.stop, result.map .services⟩
  | delete i =>
    .read i fun services =>
      (stopAll i .delete [] services).bind fun
        | .error error => .done ⟨.delete, .error error⟩
        | .ok _ => .write (.forget i) (.done ⟨.delete, .ok .deleted⟩)
  | refresh i =>
    .read i fun services =>
      (refreshAll i [] services).map fun result => ⟨.reuse, result.map .services⟩

end Operation
end ServingLifecycle
