import ServingLifecycle.Duration
import ServingLifecycle.PredictorKind
import ServingLifecycle.Violation
/-!
# Deployment requests

A request asks that a slot serve a model. It is drafted field by field; a draft becomes a request when
its required fields are there and its timeout is not zero. Whether the texts in it make sense is asked
separately.
-/
namespace ServingLifecycle

structure Request where
  identity : Identity
  runId : String
  artifactUri : String
  kind : PredictorKind
  /-- the outcome of the quality gate -/
  decision : Bool
  startTimeout : Duration
  /-- where staged copies go, if not where the settings say -/
  servedRoot : Option String
deriving DecidableEq

structure RequestDraft where
  identity : Option Identity := none
  runId : Option String := none
  artifactUri : Option String := none
  kind : Option PredictorKind := none
  decision : Option Bool := none
  startTimeout : Option Duration := none
  servedRoot : Option String := none

inductive DraftFault
  | zeroTimeout
  | missing (field : String)
deriving DecidableEq, Repr

def DraftFault.message : DraftFault → String
  | zeroTimeout => "start_timeout must be greater than zero"
  | missing field => "`" ++ field ++ "` must be initialized"

/-- The time that a request without a timeout gives a service to start. -/
def defaultStartTimeout : Duration := Duration.ofSeconds 300

namespace RequestDraft

/-- The value of a required field. -/
def require {α : Type} (field : String) : Option α → Except DraftFault α
  | some a => .ok a
  | none => .error (.missing field)

/-- Completes a draft. A zero timeout is reported before a missing field. -/
def build (d : RequestDraft) : Except DraftFault Request :=
  if d.startTimeout.any Duration.isZero then .error .zeroTimeout
  else do
    let identity ← require "identity" d.identity
    let runId ← require "pipeline_run_id" d.runId
    let artifactUri ← require "model_artifact_uri" d.artifactUri
    let kind ← require "predictor_kind" d.kind
    let decision ← require "deploy_decision" d.decision
    .ok ⟨identity, runId, artifactUri, kind, decision, d.startTimeout.getD defaultStartTimeout,
      d.servedRoot⟩

end RequestDraft

/-- The violations of a request, in the order of their field paths. -/
def Request.violations (r : Request) : List Violation :=
  r.identity.violations "identity."
    ++ Violation.ofText "model_artifact_uri" r.artifactUri
    ++ Violation.ofText "pipeline_run_id" r.runId

/-- A request that nothing is wrong with. -/
def Request.Valid (r : Request) : Prop :=
  r.violations = []

instance (r : Request) : Decidable r.Valid :=
  inferInstanceAs (Decidable (r.violations = []))

end ServingLifecycle
