import ServingLifecycle.Duration
import ServingLifecycle.Service
/-!
# Backends

What runs the model servers. It can be asked to deploy, start and stop a service and to tell the state
of one. Every answer may instead be that the backend is unavailable, that it rejected the request, or
that the service did not start in time; then it may hand over the instance that is still starting.
-/
namespace ServingLifecycle

inductive BackendError
  | unavailable (text : String)
  | rejected (text : String)
  | startTimeout (service : Option Service)
deriving DecidableEq

def BackendError.message : BackendError → String
  | unavailable text => "backend unavailable: " ++ text
  | rejected text => "backend rejected the request: " ++ text
  | startTimeout _ => "service did not start in time"

inductive BackendCall
  /-- create a service, wait for it to run, and with `replace` tear the others of its slot down -/
  | deploy (layout : Layout) (identity : Identity) (runId : String) (replace : Bool)
      (timeout : Duration)
  /-- start a service and wait for it to run -/
  | start (service : Service) (timeout : Duration)
  | stop (service : Service)
  | status (service : Service)
deriving DecidableEq

namespace BackendCall

/-- What a call answers when it does not fail. -/
def Answer : BackendCall → Type
  | deploy .. => Service
  | start .. => Service
  | stop _ => Unit
  | status _ => ServiceState

abbrev Reply (c : BackendCall) : Type :=
  Except BackendError c.Answer

def identity : BackendCall → Identity
  | deploy _ identity .. => identity
  | start service _ => service.identity
  | stop service => service.identity
  | status service => service.identity

end BackendCall
end ServingLifecycle
