import ServingLifecycle.Decision
import ServingLifecycle.Instant.Timestamp
import ServingLifecycle.Value.Reader
/-!
# Services as values

The value forms of identities, layouts, states, actions and services: what is written, and what is
read back. A predictor kind is brought to its normal form when it is read.
-/
namespace ServingLifecycle

namespace Identity

def toValue (i : Identity) : Value :=
  .table [("model_name", .text i.model), ("pipeline_name", .text i.pipeline),
    ("step_name", .text i.step)]

structure Draft where
  pipeline : Option String := none
  step : Option String := none
  model : Option String := none

def ofValue (strict : Strictness) (v : Value) : Reads Identity := do
  let fields ← GivenFields.of strict ["pipeline_name", "step_name", "model_name"] v
  let d ← fields.readInto ({} : Draft) fun d name v =>
    match name with
    | "pipeline_name" => return { d with pipeline := some (← v.asText) }
    | "step_name" => return { d with step := some (← v.asText) }
    | _ => return { d with model := some (← v.asText) }
  return ⟨← fields.require "pipeline_name" d.pipeline, ← fields.require "step_name" d.step,
    ← fields.require "model_name" d.model⟩

end Identity

namespace PredictorKind

def toValue (k : PredictorKind) : Value := .text k.name

def ofValue (v : Value) : Reads PredictorKind :=
  v.asText.map ofText

end PredictorKind

namespace Layout

def toValue (l : Layout) : Value :=
  .table [("predictor_kind", l.kind.toValue), ("served_uri", .text l.servedUri)]

structure Draft where
  servedUri : Option String := none
  kind : Option PredictorKind := none

def ofValue (strict : Strictness) (v : Value) : Reads Layout := do
  let fields ← GivenFields.of strict ["served_uri", "predictor_kind"] v
  let d ← fields.readInto ({} : Draft) fun d name v =>
    match name with
    | "served_uri" => return { d with servedUri := some (← v.asText) }
    | _ => return { d with kind := some (← PredictorKind.ofValue v) }
  return ⟨← fields.require "served_uri" d.servedUri, ← fields.require "predictor_kind" d.kind⟩

end Layout

namespace ServiceState

def toValue (s : ServiceState) : Value := .text s.name

def choices : List (String × ServiceState) :=
  [absent, starting, running, stopped, failed].map fun s => (s.name, s)

def ofValue (strict : Strictness) (v : Value) : Reads ServiceState :=
  v.asChoice strict choices

end ServiceState

namespace Action

def toValue (a : Action) : Value := .text a.name

def choices : List (String × Action) :=
  [reuse, deploy, replace, start, stop, delete].map fun a => (a.name, a)

def ofValue (strict : Strictness) (v : Value) : Reads Action :=
  v.asChoice strict choices

end Action

namespace Uuid

def ofValue (v : Value) : Reads Uuid := do
  match parse? (← v.asText) with
  | some u => return u
  | none => Reads.fail (.message "invalid uuid")

end Uuid

namespace Instant

def ofValue (v : Value) : Reads Instant := do
  match parse? (← v.asText) with
  | some i => return i
  | none => Reads.fail (.message "invalid timestamp")

end Instant

namespace Service

def toValue (s : Service) : Value :=
  .table [("created_at", .text s.createdAt.timestamp), ("identity", s.identity.toValue),
    ("pipeline_run_id", .text s.runId),
    ("prediction_url", match s.url with
      | some url => .text url
      | none => .null),
    ("predictor_kind", s.kind.toValue), ("served_uri", .text s.servedUri),
    ("state", s.state.toValue), ("uuid", .text s.uuid.text)]

structure Draft where
  uuid : Option Uuid := none
  identity : Option Identity := none
  runId : Option String := none
  servedUri : Option String := none
  kind : Option PredictorKind := none
  url : Option (Option String) := none
  state : Option ServiceState := none
  createdAt : Option Instant := none

def fieldNames : List String :=
  ["uuid", "identity", "pipeline_run_id", "served_uri", "predictor_kind", "prediction_url", "state",
    "created_at"]

def ofValue (strict : Strictness) (v : Value) : Reads Service := do
  let fields ← GivenFields.of strict fieldNames v
  let d ← fields.readInto ({} : Draft) fun d name v =>
    match name with
    | "uuid" => return { d with uuid := some (← Uuid.ofValue v) }
    | "identity" => return { d with identity := some (← Identity.ofValue strict v) }
    | "pipeline_run_id" => return { d with runId := some (← v.asText) }
    | "served_uri" => return { d with servedUri := some (← v.asText) }
    | "predictor_kind" => return { d with kind := some (← PredictorKind.ofValue v) }
    | "prediction_url" => return { d with url := some (← v.asOptionalText) }
    | "state" => return { d with state := some (← ServiceState.ofValue strict v) }
    | _ => return { d with createdAt := some (← Instant.ofValue v) }
  let url ← if fields.inList then fields.require "prediction_url" d.url else pure (d.url.getD none)
  return {
    uuid := ← fields.require "uuid" d.uuid
    identity := ← fields.require "identity" d.identity
    runId := ← fields.require "pipeline_run_id" d.runId
    servedUri := ← fields.require "served_uri" d.servedUri
    kind := ← fields.require "predictor_kind" d.kind
    url := url
    state := ← fields.require "state" d.state
    createdAt := ← fields.require "created_at" d.createdAt }

end Service
end ServingLifecycle
