import Mathlib.Logic.Function.Basic
import ServingLifecycle.Proofs.Backend.Calls
import ServingLifecycle.Proofs.Registry.Entries
import ServingLifecycle.Simulation.Incident
/-!
# The view of a slot

What one slot sees of a simulation: its entries, its share of the backend, and the one operation that is in
the critical section. All that other slots do is invisible, apart from disturbances of the backend.
-/
namespace ServingLifecycle

/-- Who is in the critical section of a slot. -/
inductive Stage
  | idle
  | busy (task : TaskId) (rest : Program Verdict)
  /-- the call that the program has come to is in flight; without a startup only a deadline ends it -/
  | waiting (task : TaskId) (rest : Program Verdict) (startup : Option Startup)

structure SlotView where
  entries : List Service
  /-- the backend with the services of the slot alone -/
  backend : SimulatedBackend
  stage : Stage
  /-- what the operations that have left the critical section came to -/
  ended : TaskId → Option (Program Verdict)

namespace SlotView

/-- What comes to a slot from outside. -/
inductive Occurrence
  | disturbed (d : Disturbance)
  | entered (task : TaskId) (operation : Operation)
  | staged (task : TaskId) (uri : String) (kind : PredictorKind) (root : String)
      (reply : Except StorageError Layout)

/-- What can happen to a slot, if `may` says what can come to it from outside. -/
inductive Step (may : SlotView → Occurrence → Prop) (settings : Settings) (i : Identity) (σ : SlotView) :
    SlotView → Prop
  | disturbed {d : Disturbance} (allowed : may σ (.disturbed d)) :
      Step may settings i σ { σ with backend := σ.backend.disturb d }
  | entered {t : TaskId} {op : Operation} (h : σ.stage = .idle) (new : σ.ended t = none)
      (own : op.identity = i) (allowed : may σ (.entered t op)) :
      Step may settings i σ { σ with stage := .busy t (op.program settings) }
  | read {t : TaskId} {next : List Service → Program Verdict} (h : σ.stage = .busy t (.read i next)) :
      Step may settings i σ { σ with stage := .busy t (next σ.entries) }
  | write {t : TaskId} {change : Registry.Change} {next : Program Verdict}
      (h : σ.stage = .busy t (.write change next)) (own : change.identity = i) :
      Step may settings i σ { σ with entries := change.on σ.entries, stage := .busy t next }
  | staged {t : TaskId} {uri : String} {kind : PredictorKind} {root : String}
      {next : Except StorageError Layout → Program Verdict}
      (h : σ.stage = .busy t (.call (.stage uri kind root) next)) (reply : Except StorageError Layout)
      (allowed : may σ (.staged t uri kind root reply)) :
      Step may settings i σ { σ with stage := .busy t (next reply) }
  | answered {t : TaskId} {c : Call} {next : c.Reply → Program Verdict} {bc : BackendCall} {birth : Birth}
      {a : Answer} {reply : c.Reply} (h : σ.stage = .busy t (.call c next))
      (hc : c.backendCall? = some bc) (own : bc.identity = i)
      (ha : (σ.backend.take birth bc).1 = .answered a) (hr : c.reply? a = some reply) :
      Step may settings i σ
        { σ with backend := (σ.backend.take birth bc).2.share i, stage := .busy t (next reply) }
  | suspended {t : TaskId} {c : Call} {next : c.Reply → Program Verdict} {bc : BackendCall} {birth : Birth}
      {startup : Option Startup} (h : σ.stage = .busy t (.call c next)) (hc : c.backendCall? = some bc)
      (own : bc.identity = i) (unused : σ.backend.Unused birth bc)
      (hst : ∀ st ∈ startup, (σ.backend.take birth bc).1 = .waiting st)
      (cut : startup = none → (σ.backend.take birth bc).1 = .hanging ∨
        ∃ st, (σ.backend.take birth bc).1 = .waiting st ∧ ∃ deadline ∈ c.deadline?, ¬ st.wait ≤ deadline) :
      Step may settings i σ
        { σ with
          backend := (σ.backend.take birth bc).2.share i
          stage := .waiting t (.call c next) startup }
  | finished {t : TaskId} {c : Call} {next : c.Reply → Program Verdict} {st : Startup} {reply : c.Reply}
      (h : σ.stage = .waiting t (.call c next) (some st))
      (hr : c.reply? (.served (σ.backend.finish st).1) = some reply) :
      Step may settings i σ
        { σ with backend := (σ.backend.finish st).2.share i, stage := .busy t (next reply) }
  | late {t : TaskId} {c : Call} {next : c.Reply → Program Verdict} {reply : c.Reply}
      (h : σ.stage = .waiting t (.call c next) none) (hr : c.reply? .late = some reply) :
      Step may settings i σ { σ with stage := .busy t (next reply) }
  | left {t : TaskId} {p : Program Verdict} (h : σ.stage = .busy t p) (hover : p.isOver = true) :
      Step may settings i σ { σ with stage := .idle, ended := Function.update σ.ended t (some p) }

end SlotView
end ServingLifecycle
