import ServingLifecycle.Proofs.Operation.Performs
/-!
# What a deployment stages

Whatever a deployment finds and is answered, the one thing that it ever has staged is the artifact of its request,
under the root that the request or the settings give.
-/
namespace ServingLifecycle.Operation
open Program

/-- Nothing is staged but one artifact under one root. -/
def staging (settings : Settings) (request : Request) : Licence where
  change _ _ _ := True
  call _ _ c := ∀ {uri kind root}, c = .stage uri kind root →
    uri = request.artifactUri ∧ kind = request.kind ∧ root = stagingRoot settings request

variable {settings : Settings} {request : Request} {seen : List Access} {r r' : Registry} {trusted : Access → Prop}

theorem stopAll_staging {i : Identity} {action : Action} {stopped services : List Service} :
    (stopAll i action stopped services).Respects trusted (staging settings request) (fun _ _ _ => True) seen r := by
  induction services generalizing stopped seen r with
  | nil => trivial
  | cons service rest ih =>
    unfold stopAll
    split
    · exact ih
    · refine ⟨nofun, fun reply _ => ?_⟩
      cases reply with
      | error e => trivial
      | ok _ => exact ⟨trivial, ih⟩

theorem retireOthers_staging {current : Service} {action : Action} :
    (retireOthers current action).Respects trusted (staging settings request) (fun _ _ _ => True) seen r := by
  dsimp only [retireOthers, Respects]
  split
  · trivial
  · refine respects_bind.mpr (stopAll_staging.mono fun result seen r _ => ?_)
    cases result with
    | error e => trivial
    | ok services => exact ⟨trivial, trivial⟩

theorem ensureRunning_staging {grace timeout : Duration} {service : Service} {action : Action} :
    (ensureRunning grace service timeout action).Respects trusted (staging settings request) (fun _ _ _ => True)
      seen r := by
  unfold ensureRunning
  split
  · exact retireOthers_staging
  · refine respects_askWithGrace (fun _ => nofun) fun deadline reply _ => ?_
    rcases reply with _ | error | started
    · trivial
    · exact respects_backendFailure (fun _ => trivial) fun _ _ => ⟨trivial, trivial⟩
    · exact ⟨trivial, retireOthers_staging⟩

theorem deployNew_staging {replace : Bool} :
    (deployNew settings request replace).Respects trusted (staging settings request) (fun _ _ _ => True) seen r := by
  dsimp only [deployNew, Respects]
  refine ⟨fun e => ?_, fun reply _ => ?_⟩
  · cases e
    exact ⟨rfl, rfl, rfl⟩
  · rcases reply with error | layout
    · trivial
    · refine respects_askWithGrace (fun _ => nofun) fun deadline reply _ => ?_
      rcases reply with _ | error | service
      · trivial
      · exact respects_backendFailure (fun _ => trivial) fun _ _ => ⟨trivial, trivial⟩
      · exact ⟨trivial, trivial⟩

/-- A deployment stages the artifact of its request and nothing else. -/
theorem deploy_stages {p : Program Verdict} {a : Access} {uri root : String} {kind : PredictorKind}
    (steps : Steps ((Operation.deploy request).program settings) r seen p r') (ha : a ∈ seen)
    (asked : a.asked = some (.stage uri kind root)) :
    uri = request.artifactUri ∧ kind = request.kind ∧ root = stagingRoot settings request := by
  have respects : ((Operation.deploy request).program settings).Respects (fun _ => True) (staging settings request)
      (fun _ _ _ => True) [] r := by
    refine respects_map.mpr ?_
    unfold carryOut
    split
    · exact deployNew_staging
    · exact deployNew_staging
    · exact ensureRunning_staging
  obtain ⟨_, _, licensed⟩ := respects.licensed steps (fun _ _ => trivial) ha asked
  exact licensed rfl

end ServingLifecycle.Operation
