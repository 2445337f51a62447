import ServingLifecycle.Backend
import ServingLifecycle.Decision
import ServingLifecycle.Duration.Brief
import ServingLifecycle.Storage.Error
/-!
# Deployment errors

Every failure of an operation names the slot, what was being done to it, and what went wrong. Failures
of storage and backend are turned into one of these six kinds where they are met.
-/
namespace ServingLifecycle

inductive DeployFailure
  /-- the artifact is not where the policy of its kind expects it -/
  | artifactMissing (path : String)
  | stagingIo (error : StorageError)
  | backendUnavailable (text : String)
  /-- the service may still come up later -/
  | startTimeout (timeout : Duration)
  | serviceNotFound
  | invalidRequest (text : String)
deriving DecidableEq, Repr

namespace DeployFailure

def label : DeployFailure → String
  | artifactMissing _ => "artifact_missing"
  | stagingIo _ => "staging_io"
  | backendUnavailable _ => "backend_unavailable"
  | startTimeout _ => "start_timeout"
  | serviceNotFound => "service_not_found"
  | invalidRequest _ => "invalid_request"

def message : DeployFailure → String
  | artifactMissing path => "model artifact not found at " ++ path
  | stagingIo error => "staging failed: " ++ error.message
  | backendUnavailable text => "serving backend unavailable: " ++ text
  | startTimeout timeout =>
    "service did not reach the running state within " ++ timeout.brief
  | serviceNotFound => "no deployment service found"
  | invalidRequest text => "invalid deployment request: " ++ text

/-- A missing source is a missing artifact, anything else a fault of staging. -/
def ofStorage : StorageError → DeployFailure
  | .notFound path => artifactMissing path
  | error => stagingIo error

/-- A backend that refuses counts as unavailable. -/
def ofBackend (timeout : Duration) : BackendError → DeployFailure
  | .startTimeout _ => startTimeout timeout
  | .unavailable text => backendUnavailable text
  | .rejected text => backendUnavailable text

/-- The messages of the failure and of what lies beneath it, outermost first. -/
def causes : DeployFailure → List String
  | stagingIo error =>
    message (stagingIo error) :: error.message :: (error.cause.map SystemFault.text).toList
  | failure => [failure.message]

end DeployFailure

structure DeployError where
  identity : Identity
  action : Action
  failure : DeployFailure
deriving DecidableEq, Repr

def DeployError.message (e : DeployError) : String :=
  e.action.name ++ " failed for " ++ e.identity.text ++ ": " ++ e.failure.message

end ServingLifecycle
