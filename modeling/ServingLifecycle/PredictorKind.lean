import ServingLifecycle.Text.Lowercase
/-!
# Predictor kinds

The runtime that a model is packaged for. Kinds differ neither by letter case nor by blanks around
them: a kind is the trimmed, lower-cased form of some text. Kinds are ordered by their code points.
-/
namespace ServingLifecycle

namespace PredictorKind

def normalize (text : String) : String :=
  String.ofList (Text.lowercase (Text.trim text.toList))

end PredictorKind

structure PredictorKind where
  name : String
  isNormal : ∃ text, PredictorKind.normalize text = name
deriving DecidableEq

namespace PredictorKind

def ofText (text : String) : PredictorKind :=
  ⟨normalize text, text, rfl⟩

def tensorflow : PredictorKind := ofText "tensorflow"

def sklearn : PredictorKind := ofText "sklearn"

instance : Ord PredictorKind := ⟨fun a b => compare a.name b.name⟩

theorem ext_name {a b : PredictorKind} (h : a.name = b.name) : a = b := by
  cases a; cases b; cases h; rfl

end PredictorKind
end ServingLifecycle
