import ServingLifecycle.Text.Blank
/-!
# Identities

An identity names a serving slot: the model that one step of one pipeline serves. It does not change
from run to run. Its segments become parts of staging paths, so a proper segment is not empty and has
neither slashes nor blanks.
-/
namespace ServingLifecycle

structure Identity where
  pipeline : String
  step : String
  model : String
deriving DecidableEq, Repr

namespace Identity

/-- The three segments with slashes between them. -/
def text (i : Identity) : String :=
  i.pipeline ++ "/" ++ i.step ++ "/" ++ i.model

/-- A text that may be a segment of an identity. -/
def isSegment (s : String) : Bool :=
  !s.toList.isEmpty && s.toList.all fun c => c != '/' && !Text.isBlank c

end Identity
end ServingLifecycle
