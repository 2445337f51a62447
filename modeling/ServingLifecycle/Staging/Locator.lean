import ServingLifecycle.Service
import ServingLifecycle.Staging.Policy
import ServingLifecycle.Storage
/-!
# Locating artifacts

A locator stages an artifact as the policy of its kind says and answers the layout to serve. The
source is looked for before anything is written.
-/
namespace ServingLifecycle

structure Locator (σ : Type) where
  storage : Storage σ
  policies : PolicyTable

namespace Locator

variable {σ : Type}

def ofStorage (storage : Storage σ) : Locator σ :=
  ⟨storage, .builtin⟩

def withPolicy (l : Locator σ) (kind : PredictorKind) (policy : StagingPolicy) : Locator σ :=
  { l with policies := l.policies.set kind policy }

/-- Copies an artifact directory into a version slot below the served root. -/
def stageDirectory (storage : Storage σ) (uri version root : String) : StorageEffect σ Unit :=
  fun s =>
    match storage.isDirectory uri s with
    | (.error error, s) => (.error error, s)
    | (.ok false, s) => (.error (.notFound uri), s)
    | (.ok true, s) =>
      let slot := Uri.join root version
      match storage.makeDirectories slot s with
      | (.error error, s) => (.error error, s)
      | (.ok (), s) => storage.copyDirectory uri slot s

/-- Copies one file of an artifact into the served root. -/
def stageFile (storage : Storage σ) (uri source target root : String) : StorageEffect σ Unit :=
  fun s =>
    let file := Uri.join uri source
    match storage.present file s with
    | (.error error, s) => (.error error, s)
    | (.ok false, s) => (.error (.notFound file), s)
    | (.ok true, s) =>
      match storage.makeDirectories root s with
      | (.error error, s) => (.error error, s)
      | (.ok (), s) => storage.copyFile file (Uri.join root target) s

/-- Stages the artifact at `uri` under `root`. -/
def locate (l : Locator σ) (uri : String) (kind : PredictorKind) (root : String) :
    StorageEffect σ Layout :=
  fun s =>
    match l.policies.policy kind with
    | .versionedDirectory version =>
      let (answer, s) := stageDirectory l.storage uri version root s
      (answer.map fun _ => ⟨root, kind⟩, s)
    | .singleFile source target =>
      let (answer, s) := stageFile l.storage uri source target root s
      (answer.map fun _ => ⟨root, kind⟩, s)
    | .passthrough => (.ok ⟨uri, kind⟩, s)

end Locator
end ServingLifecycle
