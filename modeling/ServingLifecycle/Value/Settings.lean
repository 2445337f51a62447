import ServingLifecycle.Duration.Human
import ServingLifecycle.Settings
import ServingLifecycle.Value.Reader
/-!
# Settings as values

The value forms of staging policies, filesystems and settings. Durations are written in words and
read back from them.
-/
namespace ServingLifecycle

namespace StagingPolicy

def toValue : StagingPolicy → Value
  | versionedDirectory version =>
    .table [("type", .text "versioned_directory"), ("version", .text version)]
  | singleFile source target =>
    .table [("source", .text source), ("target", .text target), ("type", .text "single_file")]
  | passthrough => .table [("type", .text "passthrough")]

/-- The kinds of policies, as the tag of a policy names them. -/
inductive Tag
  | versionedDirectory | singleFile | passthrough
deriving DecidableEq, Repr

def Tag.choices : List (String × Tag) :=
  [("versioned_directory", .versionedDirectory), ("single_file", .singleFile),
    ("passthrough", .passthrough)]

structure Draft where
  first : Option String := none
  second : Option String := none

/-- Reads a policy of a kind from what stands beside the tag. Lists are read exactly. -/
def ofContent (content : Value) : Tag → Reads StagingPolicy
  | .versionedDirectory => do
    let fields ← GivenFields.of ⟨true, true⟩ ["version"] content
    let d ← fields.readInto ({} : Draft) fun d _ v => return { d with first := some (← v.asText) }
    return .versionedDirectory (← fields.require "version" d.first)
  | .singleFile => do
    let fields ← GivenFields.of ⟨true, true⟩ ["source", "target"] content
    let d ← fields.readInto ({} : Draft) fun d name v =>
      match name with
      | "source" => return { d with first := some (← v.asText) }
      | _ => return { d with second := some (← v.asText) }
    return .singleFile (← fields.require "source" d.first) (← fields.require "target" d.second)
  | .passthrough =>
    match content with
    | .list (_ :: rest) => Reads.fail (.invalidLength (rest.length + 1))
    | _ => .ok .passthrough

/-- Reads a policy from a table with a tag, or from a list that starts with the tag. Errors beside the
tag do not tell their place. -/
def ofValue : Value → Reads StagingPolicy
  | .table entries =>
    match entries.lookup "type" with
    | none => Reads.fail (.missingField "type")
    | some v => do
      let tag ← (v.asTag Tag.choices).under "type"
      (ofContent (.table (entries.filter fun e => e.1 ≠ "type")) tag).shallow
  | .list [] => Reads.fail (.missingField "type")
  | .list (v :: rest) => do
    let tag ← (v.asTag Tag.choices).under "0"
    (ofContent (.list rest) tag).shallow
  | _ => Reads.fail .invalidType

end StagingPolicy

namespace FilesystemConfig

def toValue (c : FilesystemConfig) : Value :=
  .table [("kind", .text "local"), ("priority", .integer c.priority)]

structure Draft where
  kind : Option Unit := none
  priority : Option Int := none

def ofValue (strict : Strictness) (v : Value) : Reads FilesystemConfig := do
  let fields ← GivenFields.of strict ["kind", "priority"] v
  let d ← fields.readInto ({} : Draft) fun d name v =>
    match name with
    | "kind" => return { d with kind := some (← v.asChoice strict [("local", ())]) }
    | _ => return { d with priority := some (← v.asInteger (-2147483648) 2147483647) }
  let _ ← fields.require "kind" d.kind
  return ⟨d.priority.getD Storage.defaultPriority⟩

end FilesystemConfig

namespace LogFormat

def name : LogFormat → String
  | compact => "compact"
  | json => "json"

def toValue (f : LogFormat) : Value := .text f.name

def ofValue (strict : Strictness) (v : Value) : Reads LogFormat :=
  v.asChoice strict ([compact, json].map fun f => (f.name, f))

end LogFormat

namespace BackendKind

def name : BackendKind → String
  | simulated => "mock"

def toValue (k : BackendKind) : Value := .text k.name

def ofValue (strict : Strictness) (v : Value) : Reads BackendKind :=
  v.asChoice strict ([simulated].map fun k => (k.name, k))

end BackendKind

namespace Duration

def toValue (d : Duration) : Value := .text (Human.format d)

def ofValue (v : Value) : Reads Duration := do
  match Human.parse (← v.asText) with
  | .ok d => return d
  | .error .carriedOver => Reads.fail (.brokenOff Human.Fault.carriedOver.message)
  | .error fault => Reads.fail (.message fault.message)

end Duration

namespace Settings

/-- The settings of where and how artifacts are staged. -/
structure LocatorPart where
  stagingRoot : String
  policies : List (String × StagingPolicy)

structure LocatorDraft where
  stagingRoot : Option String := none
  policies : Option (List (String × StagingPolicy)) := none

def LocatorPart.ofValue (strict : Strictness) (v : Value) : Reads LocatorPart := do
  let fields ← GivenFields.of strict ["staging_root", "policies"] v
  let d ← fields.readInto ({} : LocatorDraft) fun d name v =>
    match name with
    | "staging_root" => return { d with stagingRoot := some (← v.asText) }
    | _ => return { d with policies := some (← v.asEntries StagingPolicy.ofValue) }
  return ⟨← fields.require "staging_root" d.stagingRoot, d.policies.getD []⟩

def toValue (s : Settings) : Value :=
  .table [("backend", s.backend.toValue), ("backend_grace", s.backendGrace.toValue),
    ("default_start_timeout", s.defaultStartTimeout.toValue),
    ("locator", .table [
      ("policies", .table (Value.sorted (s.policies.map fun p => (p.1, p.2.toValue)))),
      ("staging_root", .text s.stagingRoot)]),
    ("log_format", s.logFormat.toValue),
    ("storage", .list (s.storage.map FilesystemConfig.toValue))]

def fieldNames : List String :=
  ["default_start_timeout", "backend_grace", "backend", "log_format", "storage", "locator"]

structure Draft where
  defaultStartTimeout : Option Duration := none
  backendGrace : Option Duration := none
  backend : Option BackendKind := none
  logFormat : Option LogFormat := none
  storage : Option (List FilesystemConfig) := none
  locator : Option LocatorPart := none

def ofValue (strict : Strictness) (v : Value) : Reads Settings := do
  let fields ← GivenFields.of strict fieldNames v
  let d ← fields.readInto ({} : Draft) fun d name v =>
    match name with
    | "default_start_timeout" => return { d with defaultStartTimeout := some (← Duration.ofValue v) }
    | "backend_grace" => return { d with backendGrace := some (← Duration.ofValue v) }
    | "backend" => return { d with backend := some (← BackendKind.ofValue strict v) }
    | "log_format" => return { d with logFormat := some (← LogFormat.ofValue strict v) }
    | "storage" =>
      return { d with storage := some (← v.asItems (FilesystemConfig.ofValue strict)) }
    | _ => return { d with locator := some (← LocatorPart.ofValue strict v) }
  let defaultStartTimeout ← fields.require "default_start_timeout" d.defaultStartTimeout
  let backendGrace ← fields.require "backend_grace" d.backendGrace
  let backend ← fields.require "backend" d.backend
  let logFormat ← fields.require "log_format" d.logFormat
  let storage ← fields.require "storage" d.storage
  let locator ← fields.require "locator" d.locator
  return ⟨defaultStartTimeout, backendGrace, backend, logFormat, storage, locator.stagingRoot,
    locator.policies⟩

end Settings
end ServingLifecycle
