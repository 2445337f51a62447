import ServingLifecycle.Request
import ServingLifecycle.Service
/-!
# Decisions

The always-on policy. An empty slot is filled whatever the quality gate says; a negative decision
keeps the newest service of a slot, a positive one replaces it.
-/
namespace ServingLifecycle

/-- What an operation was doing, as errors and metrics name it. -/
inductive Action
  | reuse | deploy | replace | start | stop | delete
deriving DecidableEq, Repr

def Action.name : Action → String
  | reuse => "reuse"
  | deploy => "deploy"
  | replace => "replace"
  | start => "start"
  | stop => "stop"
  | delete => "delete"

inductive Plan
  | deployNew
  | reuse (service : Service)
  | replace (service : Service)
deriving DecidableEq

def Plan.action : Plan → Action
  | deployNew => .deploy
  | reuse _ => .reuse
  | replace _ => .replace

/-- The plan for a decision, given the services of the slot, newest first. -/
def Plan.decide (decision : Bool) : List Service → Plan
  | [] => .deployNew
  | newest :: _ => if decision then .replace newest else .reuse newest

end ServingLifecycle
