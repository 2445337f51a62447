import ServingLifecycle.Backend.Simulated
/-!
# Planned faults

A plan says how some calls to a backend are answered in its place. A call looks at the first planned
fault of its method: one that is to be skipped lets the call through and is skipped once less; any
other is used up and answers the call.
-/
namespace ServingLifecycle

inductive BackendMethod
  | deploy | start | stop | status
deriving DecidableEq, Repr

def BackendCall.method : BackendCall → BackendMethod
  | deploy .. => .deploy
  | start .. => .start
  | stop _ => .stop
  | status _ => .status

/-- How a planned fault answers. Where it answers with a service, it is the service of the call. -/
inductive FaultReply
  | unavailable (text : String)
  | rejected (text : String)
  | startTimeout (state : Option ServiceState)
  | hang
  | breakOff (text : String)
  /-- a success with the service in a state, or the state itself where a state is asked for -/
  | state (state : ServiceState)
deriving DecidableEq, Repr

structure PlannedFault where
  method : BackendMethod
  skip : Nat
  reply : FaultReply
deriving DecidableEq, Repr

/-- The fault that answers a call of a method, and the plan after the call. -/
def interceptCall (method : BackendMethod) :
    List PlannedFault → Option FaultReply × List PlannedFault
  | [] => (none, [])
  | fault :: rest =>
    if fault.method = method then
      if 0 < fault.skip then (none, { fault with skip := fault.skip - 1 } :: rest)
      else (some fault.reply, rest)
    else
      let (reply, rest) := interceptCall method rest
      (reply, fault :: rest)

end ServingLifecycle
