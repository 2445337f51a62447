import ServingLifecycle.Identity
import ServingLifecycle.Text.Quoted
/-!
# Violations

What is wrong with a value that was read without trouble: the field and the broken rule.
-/
namespace ServingLifecycle

inductive Rule
  /-- an identity segment that is empty or holds a slash or a blank -/
  | segment (value : String)
  | nonEmptyText
  | nonEmptyList
  | positiveDuration
deriving DecidableEq, Repr

structure Violation where
  field : String
  rule : Rule
deriving DecidableEq, Repr

namespace Rule

def code : Rule → String
  | segment _ => "invalid_segment"
  | nonEmptyText | nonEmptyList => "length"
  | positiveDuration => "zero_duration"

/-- The parameters of the rule as a message shows them, by name. -/
def parameters : Rule → List (String × String)
  | segment value => [("value", "String(" ++ Text.quoted value ++ ")")]
  | nonEmptyText => [("min", "Number(1)"), ("value", "String(\"\")")]
  | nonEmptyList => [("min", "Number(1)"), ("value", "Array []")]
  | positiveDuration => [("value", "Object \x7b\"nanos\": Number(0), \"secs\": Number(0)\x7d")]

end Rule

namespace Violation

/-- One line about a violation. -/
def line (v : Violation) : String :=
  v.field ++ ": Validation error: " ++ v.rule.code ++ " [\x7b"
    ++ ", ".intercalate (v.rule.parameters.map fun p => Text.quoted p.1 ++ ": " ++ p.2) ++ "\x7d]"

def report (vs : List Violation) : String :=
  "\n".intercalate (vs.map line)

/-- The violation of a field that has to be a segment. -/
def ofSegment (field value : String) : List Violation :=
  if Identity.isSegment value then [] else [⟨field, .segment value⟩]

/-- The violation of a field that has to hold a text. -/
def ofText (field value : String) : List Violation :=
  if value = "" then [⟨field, .nonEmptyText⟩] else []

end Violation

/-- The violations of an identity, by the names of its fields. -/
def Identity.violations (i : Identity) (path : String) : List Violation :=
  Violation.ofSegment (path ++ "model_name") i.model
    ++ Violation.ofSegment (path ++ "pipeline_name") i.pipeline
    ++ Violation.ofSegment (path ++ "step_name") i.step

end ServingLifecycle
