import ServingLifecycle.PredictorKind
/-!
# Staging policies

How an artifact is brought into the layout that its runtime expects. A policy is chosen by predictor
kind: TensorFlow wants numbered version directories, scikit-learn a single file, and every other kind
serves the artifact where it is stored, unless a policy was set for it.
-/
namespace ServingLifecycle

inductive StagingPolicy
  /-- copy the artifact directory to `<served root>/<version>` -/
  | versionedDirectory (version : String)
  /-- copy `<artifact>/<source>` to `<served root>/<target>` -/
  | singleFile (source target : String)
  | passthrough
deriving DecidableEq, Repr

/-- Policies by predictor kind, the latest first. -/
abbrev PolicyTable : Type := List (PredictorKind × StagingPolicy)

namespace PolicyTable

def builtin : PolicyTable :=
  [(.tensorflow, .versionedDirectory "1"), (.sklearn, .singleFile "model" "model.joblib")]

def set (t : PolicyTable) (kind : PredictorKind) (policy : StagingPolicy) : PolicyTable :=
  (kind, policy) :: t

def policy (t : PolicyTable) (kind : PredictorKind) : StagingPolicy :=
  match t.find? (·.1 = kind) with
  | some (_, policy) => policy
  | none => .passthrough

/-- Sets policies by the texts of their kinds, one after the other. -/
def setAll (t : PolicyTable) (policies : List (String × StagingPolicy)) : PolicyTable :=
  policies.foldl (fun t p => t.set (.ofText p.1) p.2) t

@[simp] theorem policy_set (t : PolicyTable) (kind other : PredictorKind) (p : StagingPolicy) :
    (t.set kind p).policy other = if other = kind then p else t.policy other := by
  unfold policy set
  by_cases h : kind = other
  · subst h; simp
  · simp [h, Ne.symm h]

end PolicyTable
end ServingLifecycle
