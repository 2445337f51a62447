import ServingLifecycle.Request
import ServingLifecycle.Staging.Policy
import ServingLifecycle.Storage.Local
/-!
# Settings

What is configured once and holds for every operation.
-/
namespace ServingLifecycle

inductive LogFormat
  | compact | json
deriving DecidableEq, Repr

inductive BackendKind
  | simulated
deriving DecidableEq, Repr

structure Settings where
  /-- for calls that set no start timeout -/
  defaultStartTimeout : Duration
  /-- how long past a start timeout the backend may still answer -/
  backendGrace : Duration
  backend : BackendKind
  logFormat : LogFormat
  storage : List FilesystemConfig
  /-- where staged copies go -/
  stagingRoot : String
  /-- further staging policies, by the texts of their kinds -/
  policies : List (String × StagingPolicy)
deriving DecidableEq

namespace Settings

/-- What holds where nothing is configured, with the given directory for temporary files. -/
def default (temporary : String := "/tmp") : Settings where
  defaultStartTimeout := ServingLifecycle.defaultStartTimeout
  backendGrace := Duration.ofSeconds 5
  backend := .simulated
  logFormat := .compact
  storage := [⟨Storage.defaultPriority⟩]
  stagingRoot := Path.child temporary "triton-model-deployer"
  policies := []

/-- Where the run of a slot is staged: one directory for each segment and one for the run. -/
def servedRoot (s : Settings) (i : Identity) (runId : String) : String :=
  Uri.join (Uri.join (Uri.join (Uri.join s.stagingRoot i.pipeline) i.step) i.model) runId

/-- The violations of settings, in the order of their field paths. -/
def violations (s : Settings) : List Violation :=
  (if s.defaultStartTimeout.isZero then [⟨"default_start_timeout", .positiveDuration⟩] else [])
    ++ Violation.ofText "locator.staging_root" s.stagingRoot
    ++ (if s.storage.isEmpty then [⟨"storage", .nonEmptyList⟩] else [])

/-- Settings that nothing is wrong with. -/
def Valid (s : Settings) : Prop :=
  s.violations = []

instance (s : Settings) : Decidable s.Valid :=
  inferInstanceAs (Decidable (s.violations = []))

end Settings
end ServingLifecycle
