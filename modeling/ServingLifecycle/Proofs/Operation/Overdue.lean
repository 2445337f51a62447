import ServingLifecycle.Proofs.Operation.Performs
import ServingLifecycle.Proofs.Program.Heeds
import ServingLifecycle.Proofs.Registry.Entries
/-!
# Operations and overdue services

A service that a call reports as overdue ends the operation at once, and with a timeout. A deployment or a start
records its descriptor before that. A stop and a look at the state do not: there the registry stays as it was.
-/
namespace ServingLifecycle

/-- The call deploys or starts a service. -/
def Call.brings : Call → Bool
  | ask (.deploy ..) => true
  | ask (.start ..) => true
  | askWithin (.deploy ..) _ => true
  | askWithin (.start ..) _ => true
  | _ => false

namespace Operation
open Program Registry

variable {α β : Type}

/-- The operation was too late, and has recorded the overdue service if it was deploying or starting it. -/
def Heeded (c : Call) (s : Service) (before : Registry) (result : Except DeployError α) (r : Registry) : Prop :=
  (∃ e timeout, result = .error e ∧ e.failure = .startTimeout timeout)
    ∧ if c.brings then s ∈ r.find s.identity else r = before

variable {c : Call} {i : Identity} {action : Action} {r before : Registry}

/-- What went wrong is passed on as it is. -/
theorem Heeded.error {s : Service} {e : DeployError} (h : Heeded (α := α) c s before (.error e) r) :
    Heeded (α := β) c s before (.error e) r := by
  obtain ⟨⟨e, timeout, ⟨⟩, late⟩, kept⟩ := h
  exact ⟨⟨e, timeout, rfl, late⟩, kept⟩

theorem heeds_askWithGrace {heeded : Call → Service → Registry → α → Registry → Prop}
    {grace timeout : Duration} {c : BackendCall} {next : Option c.Reply → Program α}
    (h : ∀ deadline, Program.Heeds heeded (.call (.askWithin c deadline) next) r) :
    (askWithGrace grace timeout c next).Heeds heeded r := by
  unfold askWithGrace
  split
  · trivial
  · exact h _

theorem backendFailure_heeds {heeded : Call → Service → Registry → Except DeployError α → Registry → Prop}
    {timeout : Duration} {error : BackendError} :
    (backendFailure i action timeout error).Heeds heeded r := by
  rcases error with text | text | _ | service <;> trivial

/-- The overdue service is recorded. -/
theorem backendFailure_concludes {timeout : Duration} {error : BackendError} {s : Service}
    (brings : c.brings = true) (hs : s ∈ error.handedOver) :
    (backendFailure (α := α) i action timeout error).Concludes (Heeded c s before) r := by
  obtain rfl := BackendError.eq_startTimeout hs
  refine ⟨⟨_, timeout, rfl, rfl⟩, ?_⟩
  rw [if_pos brings]
  exact mem_find_record_self r s

theorem stopAll_heeds {stopped services : List Service} :
    (stopAll i action stopped services).Heeds Heeded r := by
  induction services generalizing stopped r with
  | nil => trivial
  | cons service rest ih =>
    unfold stopAll
    split
    · exact ih
    · intro reply
      cases reply with
      | error e =>
        refine ⟨fun s hs => ?_, fun _ => trivial⟩
        obtain rfl := BackendError.eq_startTimeout hs
        exact ⟨⟨_, _, rfl, rfl⟩, rfl⟩
      | ok u => exact ⟨fun s hs => (by cases hs), fun _ => ih⟩

theorem retireOthers_heeds {current : Service} : (retireOthers current action).Heeds Heeded r := by
  dsimp only [retireOthers, Heeds]
  split
  · trivial
  · refine stopAll_heeds.bind (fun result r => ?_) fun c s r₁ result r h => ?_
    · cases result <;> trivial
    · cases result with
      | error e => exact h.error
      | ok l =>
        obtain ⟨⟨e, timeout, ⟨⟩, _⟩, _⟩ := h

theorem ensureRunning_heeds {grace timeout : Duration} {service : Service} :
    (ensureRunning grace service timeout action).Heeds Heeded r := by
  unfold ensureRunning
  split
  · exact retireOthers_heeds
  · refine heeds_askWithGrace fun deadline reply => ?_
    rcases reply with _ | error | started
    · exact ⟨fun s hs => (by cases hs), fun _ => trivial⟩
    · exact ⟨fun s hs => backendFailure_concludes rfl hs, fun _ => backendFailure_heeds⟩
    · exact ⟨fun s hs => (by cases hs), fun _ => retireOthers_heeds⟩

theorem deployNew_heeds {settings : Settings} {request : Request} {replace : Bool} :
    (deployNew settings request replace).Heeds Heeded r := by
  intro staged
  refine ⟨fun s hs => (by cases hs), fun _ => ?_⟩
  cases staged with
  | error e => trivial
  | ok layout =>
    refine heeds_askWithGrace fun deadline reply => ?_
    rcases reply with _ | error | service
    · exact ⟨fun s hs => (by cases hs), fun _ => trivial⟩
    · exact ⟨fun s hs => backendFailure_concludes rfl hs, fun _ => backendFailure_heeds⟩
    · exact ⟨fun s hs => (by cases hs), fun _ => trivial⟩

theorem refreshAll_heeds {refreshed services : List Service} :
    (refreshAll i refreshed services).Heeds Heeded r := by
  induction services generalizing refreshed r with
  | nil => trivial
  | cons service rest ih =>
    intro reply
    cases reply with
    | error e =>
      refine ⟨fun s hs => ?_, fun _ => trivial⟩
      obtain rfl := BackendError.eq_startTimeout hs
      exact ⟨⟨_, _, rfl, rfl⟩, rfl⟩
    | ok state => exact ⟨fun s hs => (by cases hs), fun _ => ih⟩

/-- What a verdict says of its result. -/
def HeededVerdict (c : Call) (s : Service) (before : Registry) (verdict : Verdict) (r : Registry) : Prop :=
  Heeded c s before verdict.result r

theorem Heeds.verdict {action : Action} {f : α → Outcome} {p : Program (Except DeployError α)}
    (h : p.Heeds Heeded r) :
    (p.map fun result => (⟨action, result.map f⟩ : Verdict)).Heeds HeededVerdict r := by
  refine Program.Heeds.bind h (fun _ _ => trivial) fun c s r₁ result r heeded => ?_
  cases result with
  | error e => exact heeded.error
  | ok a =>
    obtain ⟨⟨e, timeout, ⟨⟩, _⟩, _⟩ := heeded

theorem program_heeds (settings : Settings) (op : Operation) (r : Registry) :
    (op.program settings).Heeds HeededVerdict r := by
  cases op with
  | deploy request =>
    refine Heeds.verdict ?_
    cases Plan.decide request.decision (r.find request.identity) with
    | deployNew => exact deployNew_heeds
    | reuse service => exact ensureRunning_heeds
    | replace service => exact deployNew_heeds
  | start i timeout =>
    dsimp only [program, Program.Heeds]
    split
    · trivial
    · exact Heeds.verdict ensureRunning_heeds
  | stop i =>
    dsimp only [program, Program.Heeds]
    split
    · trivial
    · exact Heeds.verdict stopAll_heeds
  | delete i =>
    refine Program.Heeds.bind stopAll_heeds (fun result r => ?_) fun c s r₁ result r heeded => ?_
    · cases result <;> trivial
    · cases result with
      | error e => exact heeded.error
      | ok l => obtain ⟨⟨e, timeout, ⟨⟩, _⟩, _⟩ := heeded
  | refresh i => exact Heeds.verdict refreshAll_heeds

/-- Once a call of an operation has reported an overdue service of its slot, the operation only concludes, with a
timeout. Then the service is recorded, if the call was a deployment or a start; else nothing is. -/
theorem overdue_service_concludes {settings : Settings} {op : Operation} {r r' : Registry} {p : Program Verdict}
    {seen : List Access} {c : Call} {reply : c.Reply} {s : Service}
    (steps : Steps (op.program settings) r seen p r') (reported : .call c reply ∈ seen)
    (hs : s ∈ c.overdue reply) (hi : s.identity = op.identity) :
    ∃ earlier p₁ r₁ later, seen = earlier ++ .call c reply :: later
      ∧ Steps (op.program settings) r earlier p₁ r₁
      ∧ p.Concludes (fun verdict r'' =>
          (∃ e timeout, verdict.result = .error e ∧ e.failure = .startTimeout timeout)
            ∧ if c.brings then s ∈ r''.find op.identity else r'' = r₁) r' := by
  rw [← hi]
  exact (program_heeds settings op r).concludes steps reported hs

/-- A start is too late, and the service that is still starting takes the place of the stopped one. -/
theorem overdue_service_concludes_start : ∃ seen r' e,
    (Operation.start (Service.sample 1 .stopped).identity none).Performs .default ⟨[.sample 1 .stopped]⟩ seen r'
        (.error e)
      ∧ .sample 1 .starting ∈ r'.find (Service.sample 1 .stopped).identity := by
  have steps : Steps ((Operation.start (Service.sample 1 .stopped).identity none).program .default)
      ⟨[.sample 1 .stopped]⟩ _ (.done ⟨.start, .error _⟩) _ :=
    .head .read (.head (.call (c := .askWithin (.start (.sample 1 .stopped) _) _)
      (some (Except.error (.startTimeout (some (.sample 1 .starting)))))) (.head .write (.refl _ _)))
  obtain ⟨_, _, _, _, _, _, _, recorded⟩ :=
    overdue_service_concludes (s := .sample 1 .starting) steps (List.mem_cons_of_mem _ List.mem_cons_self) rfl rfl
  exact ⟨_, _, _, .performed rfl steps, recorded⟩

/-- A stop that reports the service as still starting leaves it recorded as running. -/
theorem stop_ignores_overdue_service : ∃ seen r' e,
    (Operation.stop (Service.sample 1 .running).identity).Performs .default ⟨[.sample 1 .running]⟩ seen r'
        (.error e)
      ∧ .call (.ask (.stop (.sample 1 .running))) (.error (.startTimeout (some (.sample 1 .starting)))) ∈ seen
      ∧ .sample 1 .starting ∉ r'.find (Service.sample 1 .running).identity := by
  have steps : Steps ((Operation.stop (Service.sample 1 .running).identity).program .default)
      ⟨[.sample 1 .running]⟩ _ (.done ⟨.stop, .error _⟩) _ :=
    .head .read (.head (.call (c := .ask (.stop (.sample 1 .running)))
      (Except.error (.startTimeout (some (.sample 1 .starting))))) (.refl _ _))
  exact ⟨_, _, _, .performed rfl steps, by simp, by decide⟩

end Operation
end ServingLifecycle
