import ServingLifecycle.Proofs.Operation.Continuity
import ServingLifecycle.Proofs.Operation.Success
/-!
# What a success shows, and what it may displace

A deployment or a start comes to have one current service: the one that the backend handed over when it deployed
or started it, or the newest of the slot if that is kept and recorded as running. It answers with its current
service, and displaces the others for that one alone: nothing is stopped, and no id leaves the registry, before
there is one. Nothing looks at the state of what the backend handed over. So the current service runs as long as
the backend deploys and starts only what runs, and may be in any state without that.
-/
namespace ServingLifecycle

/-- The service that a deployment or a start succeeded with. -/
def BackendCall.granted : (c : BackendCall) → c.Reply → Option Service
  | deploy .., .ok service => some service
  | start .., .ok service => some service
  | _, _ => none

/-- The service that the backend is told to stop. -/
def Call.stops : Call → Option Service
  | ask (.stop service) => some service
  | askWithin (.stop service) _ => some service
  | _ => none

namespace Access

/-- The service that a deployment or a start succeeded with in time. -/
def granted : Access → Option Service
  | call (.ask c) reply => c.granted reply
  | call (.askWithin c _) (some reply) => c.granted reply
  | _ => none

/-- The backend deploys and starts only what runs then. -/
def Upright (a : Access) : Prop :=
  ∀ s ∈ a.granted, s.isRunning = true

end Access

namespace Operation
open Program Registry

/-- The service that the backend has deployed or started last. -/
def granted? (seen : List Access) : Option Service :=
  (seen.filterMap Access.granted).getLast?

/-- The service that the operation is to leave alone in its slot, by all that it has seen: the one that the backend
has granted, or else the newest one, if that is kept and recorded as running. -/
def Current (op : Operation) (seen : List Access) (s : Service) : Prop :=
  match granted? seen with
  | some granted => s = granted
  | none => op.keepsNewest = true ∧ s.isRunning = true ∧ ∃ rest more, seen = .read op.identity (s :: rest) :: more

/-- The id leaves its slot. -/
def Drops (r r' : Registry) (d : Service) : Prop :=
  ∃ i, d ∈ r.find i ∧ ∀ t ∈ r'.find i, t.uuid ≠ d.uuid

/-- Services are stopped and dropped only beside another one, which is the current one. -/
def displacing (op : Operation) : Licence where
  change seen r change := ∀ d, Drops r (r.apply change) d → ∃ s, op.Current seen s ∧ s.uuid ≠ d.uuid
  call seen _ c := ∀ d ∈ c.stops, ∃ s, op.Current seen s ∧ s.uuid ≠ d.uuid

variable {op : Operation} {r r' : Registry} {seen : List Access} {a : Access} {action : Action}
  {current s t d : Service}

theorem granted?_snoc : granted? (seen ++ [a]) = a.granted.or (granted? seen) := by
  unfold granted?
  cases h : a.granted <;> simp [h]

/-- An operation has one current service at most. -/
theorem Current.unique (hs : op.Current seen s) (ht : op.Current seen t) : s = t := by
  unfold Current at hs ht
  cases h : granted? seen with
  | some granted =>
    simp only [h] at hs ht
    exact hs.trans ht.symm
  | none =>
    simp only [h] at hs ht
    obtain ⟨-, -, rest, more, rfl⟩ := hs
    obtain ⟨-, -, rest', more', same⟩ := ht
    cases same
    rfl

theorem current_granted (h : a.granted = some s) : op.Current (seen ++ [a]) s := by
  unfold Current
  rw [granted?_snoc, h]
  rfl

/-- What is seen besides leaves the current service. -/
theorem Current.snoc (hs : op.Current seen s) (h : a.granted = none) : op.Current (seen ++ [a]) s := by
  unfold Current at hs ⊢
  rw [granted?_snoc, h, Option.none_or]
  split at hs
  · exact hs
  · obtain ⟨keeps, running, rest, more, rfl⟩ := hs
    exact ⟨keeps, running, rest, more ++ [a], rfl⟩

/-- The newest service of the slot is the current one, if it is kept and runs. -/
theorem current_newest {newest : Service} {rest : List Service} (keeps : op.keepsNewest = true)
    (running : newest.isRunning = true) : op.Current [.read op.identity (newest :: rest)] newest :=
  ⟨keeps, running, rest, [], rfl⟩

theorem Current.isRunning (hs : op.Current seen s) (upright : ∀ a ∈ seen, a.Upright) : s.isRunning = true := by
  unfold Current at hs
  split at hs
  · rename_i granted h
    obtain ⟨a, ha, hg⟩ := List.mem_filterMap.mp (List.mem_of_getLast? h)
    subst hs
    exact upright a ha _ hg
  · exact hs.2.1

/-- Recording drops nothing. -/
theorem not_drops_record {new : Service} : ¬Drops r (r.apply (.record new)) d := by
  rintro ⟨i, hd, gone⟩
  obtain ⟨t, ht, same⟩ := uuid_mem_find_record new hd
  exact gone t ht same

/-- Superseding drops no service with the id of the new one. -/
theorem ne_of_drops_supersede (h : Drops r (r.apply (.supersede s)) d) : s.uuid ≠ d.uuid := by
  obtain ⟨i, hd, gone⟩ := h
  by_cases hi : i = s.identity
  · exact gone s (by simp [apply, find_supersede, hi])
  · refine absurd rfl (gone d ?_)
    simpa [apply, find_supersede, hi] using hd

/-- The change is a licensed one. -/
theorem displacing_record {new : Service} : (displacing op).change seen r (.record new) :=
  fun _ h => absurd h not_drops_record

theorem displacing_call {c : Call} (h : c.stops = none) : (displacing op).call seen r c :=
  fun d hd => by rw [h] at hd; cases hd

theorem displacing_supersede (h : op.Current seen s) : (displacing op).change seen r (.supersede s) :=
  fun _ drops => ⟨s, h, ne_of_drops_supersede drops⟩

/-- If the result is a service, it is the current one. -/
def AnswersCurrent (op : Operation) (result : Except DeployError Service) (seen : List Access)
    (_ : Registry) : Prop :=
  ∀ s, result = .ok s → op.Current seen s

theorem answersCurrent_error {e : DeployError} : AnswersCurrent op (.error e) seen r :=
  fun _ h => by cases h

variable {i : Identity}

theorem stopAll_displacing {stopped services : List Service} (hc : op.Current seen current)
    (others : ∀ s ∈ services, s.uuid ≠ current.uuid) :
    (stopAll i action stopped services).Respects (fun _ => True) (displacing op)
      (fun _ seen _ => op.Current seen current) seen r := by
  induction services generalizing stopped seen r with
  | nil => exact hc
  | cons service rest ih =>
    have hrest : ∀ s ∈ rest, s.uuid ≠ current.uuid := fun s hs => others s (List.mem_cons_of_mem _ hs)
    have hne : current.uuid ≠ service.uuid := (others service List.mem_cons_self).symm
    unfold stopAll
    split
    · exact ih hc hrest
    · refine ⟨?_, fun reply _ => ?_⟩
      · rintro d ⟨⟩
        exact ⟨current, hc, hne⟩
      · cases reply with
        | error e => exact hc.snoc rfl
        | ok u => exact ⟨displacing_record, ih ((hc.snoc rfl).snoc rfl) hrest⟩

theorem retireOthers_displacing (hc : op.Current seen current) :
    (retireOthers current action).Respects (fun _ => True) (displacing op) (AnswersCurrent op) seen r := by
  have hc' : op.Current (seen ++ [.read current.identity (r.find current.identity)]) current := hc.snoc rfl
  dsimp only [retireOthers, Respects]
  split
  · rintro s ⟨⟩
    exact hc'
  · refine respects_bind.mpr ((stopAll_displacing hc' fun s hs => ?_).mono fun result seen r h => ?_)
    · simpa using (List.mem_filter.mp hs).2
    · cases result with
      | error e => exact answersCurrent_error
      | ok l =>
        refine ⟨displacing_supersede h, ?_⟩
        rintro s ⟨⟩
        exact h.snoc rfl

theorem backendFailure_displacing {timeout : Duration} {error : BackendError} :
    (backendFailure i action timeout error).Respects (fun _ => True) (displacing op) (AnswersCurrent op) seen r :=
  respects_backendFailure (fun _ => answersCurrent_error)
    (fun _ _ => ⟨displacing_record, answersCurrent_error⟩)

theorem ensureRunning_displacing {grace timeout : Duration} {service : Service}
    (hs : service.isRunning = true → op.Current seen service) :
    (ensureRunning grace service timeout action).Respects (fun _ => True) (displacing op) (AnswersCurrent op)
      seen r := by
  unfold ensureRunning
  split
  · exact retireOthers_displacing (hs ‹_›)
  · refine respects_askWithGrace (fun _ => displacing_call rfl) fun deadline reply _ => ?_
    rcases reply with _ | error | started
    · exact backendFailure_displacing
    · exact backendFailure_displacing
    · have granted : op.Current (seen ++ [.call (.askWithin (.start service timeout) deadline)
          (some (.ok started))]) started := current_granted rfl
      exact ⟨displacing_record, retireOthers_displacing (granted.snoc rfl)⟩

theorem deployNew_displacing {settings : Settings} {request : Request} {replace : Bool} :
    (deployNew settings request replace).Respects (fun _ => True) (displacing op) (AnswersCurrent op) seen r := by
  dsimp only [deployNew, Respects]
  refine ⟨displacing_call rfl, fun staged _ => ?_⟩
  cases staged with
  | error e => exact answersCurrent_error
  | ok layout =>
    refine respects_askWithGrace (fun _ => displacing_call rfl) fun deadline reply _ => ?_
    rcases reply with _ | error | service
    · exact backendFailure_displacing
    · exact backendFailure_displacing
    · have granted : op.Current (seen ++ [.call (.stage request.artifactUri request.kind
            (stagingRoot settings request)) (.ok layout)]
          ++ [.call (.askWithin (.deploy layout request.identity request.runId replace
            request.startTimeout) deadline) (some (.ok service))]) service := current_granted rfl
      refine ⟨?_, ?_⟩
      · cases replace with
        | true => exact displacing_supersede granted
        | false => exact displacing_record
      · rintro s ⟨⟩
        exact granted.snoc rfl

/-- A success is with the current service. -/
def SucceedsWithCurrent (op : Operation) (verdict : Verdict) (seen : List Access) (_ : Registry) : Prop :=
  ∀ outcome, verdict.result = .ok outcome → ∃ s, outcome = .service s ∧ op.Current seen s

theorem AnswersCurrent.succeeds {result : Except DeployError Service}
    (h : AnswersCurrent op result seen r) : SucceedsWithCurrent op ⟨action, result.map .service⟩ seen r := by
  intro outcome ho
  cases result with
  | error e => cases ho
  | ok s => exact ⟨s, (Except.ok.inj ho).symm, h s rfl⟩

theorem program_displacing {settings : Settings} (answers : op.answersService = true) :
    (op.program settings).Respects (fun _ => True) (displacing op) (SucceedsWithCurrent op) [] r := by
  cases op with
  | deploy request =>
    refine respects_map.mpr (Respects.mono (fun _ _ _ h => AnswersCurrent.succeeds h) ?_)
    cases hc : r.find request.identity with
    | nil => exact deployNew_displacing
    | cons newest rest =>
      cases hd : request.decision with
      | true => exact deployNew_displacing
      | false => exact ensureRunning_displacing (current_newest (by simp [keepsNewest, hd]))
  | start i timeout =>
    dsimp only [program, Respects]
    cases hc : r.find i with
    | nil => exact fun outcome ho => by cases ho
    | cons newest rest =>
      have serves : newest.isRunning = true →
          (Operation.start i timeout).Current [.read i (newest :: rest)] newest := current_newest rfl
      refine respects_map.mpr (Respects.mono (fun _ _ _ h => AnswersCurrent.succeeds h) ?_)
      exact ensureRunning_displacing serves
  | stop i => cases answers
  | delete i => cases answers
  | refresh i => cases answers

/-- A deployment or a start succeeds only with its current service, and stops or drops a service only when it has
another one as the current one. That one runs as long as the backend deploys and starts only what runs. -/
theorem only_serving_displaces {settings : Settings} {op : Operation} {r : Registry}
    (answers : op.answersService = true) :
    (∀ {seen : List Access} {r' : Registry} {outcome : Outcome},
      op.Performs settings r seen r' (.ok outcome) →
      ∃ s, outcome = .service s ∧ op.Current seen s ∧ ((∀ a ∈ seen, a.Upright) → s.isRunning = true))
    ∧ (∀ {seen : List Access} {p q : Program Verdict} {r₁ r₂ : Registry} {a : Access} {d : Service},
      Steps (op.program settings) r seen p r₁ → Step p r₁ a q r₂ →
      (∃ c ∈ a.asked, d ∈ c.stops) ∨ Drops r₁ r₂ d →
      ∃ s, op.Current seen s ∧ s.uuid ≠ d.uuid ∧ ((∀ x ∈ seen, x.Upright) → s.isRunning = true)) := by
  have respects : (op.program settings).Respects (fun _ => True) (displacing op) (SucceedsWithCurrent op) [] r :=
    program_displacing answers
  refine ⟨fun {seen r' outcome} performs => ?_, fun {seen p q r₁ r₂ a d} steps step displaced => ?_⟩
  · generalize hres : Except.ok outcome = result at performs
    cases performs with
    | refused h => cases hres
    | performed h steps =>
      obtain ⟨s, ho, hs⟩ := respects.steps steps (fun _ _ => trivial) outcome hres.symm
      exact ⟨s, ho, hs, hs.isRunning⟩
  · have now := respects.steps steps fun _ _ => trivial
    have licensed : ∃ s, op.Current seen s ∧ s.uuid ≠ d.uuid := by
      rcases displaced with ⟨c, hc, hd⟩ | drops
      · cases step with
        | read => cases hc
        | write => cases hc
        | call reply =>
          cases hc
          exact now.1 d hd
        | breakOff text =>
          cases hc
          exact now.1 d hd
      · cases step with
        | write => exact now.1 d drops
        | _ =>
          obtain ⟨i, hd, gone⟩ := drops
          exact absurd rfl (gone d hd)
    obtain ⟨s, hs, hne⟩ := licensed
    exact ⟨s, hs, hne, hs.isRunning⟩

/-- A request for the slot of the sample services. -/
def sampleRequest (decision : Bool) : Request :=
  ⟨(Service.sample 1 .running).identity, "run", "/models/iris", .sklearn, decision, defaultStartTimeout, none⟩

/-- A running service is about to be replaced by what the backend has deployed, in whatever state that is. -/
theorem steps_replacement (state : ServiceState) : ∃ seen,
    Steps ((Operation.deploy (sampleRequest true)).program .default) ⟨[.sample 1 .running]⟩ seen
        (.write (.supersede (.sample 2 state)) (.done ⟨.replace, .ok (.service (.sample 2 state))⟩))
        ⟨[.sample 1 .running]⟩
      ∧ (Operation.deploy (sampleRequest true)).Current seen (.sample 2 state)
      ∧ ((Service.sample 2 state).isRunning = true → ∀ a ∈ seen, a.Upright) := by
  refine ⟨_, .head .read (.head (.call (c := .stage "/models/iris" .sklearn _)
      (Except.ok ⟨"/served/iris", .sklearn⟩))
    (.head (.call (c := .askWithin (.deploy ⟨"/served/iris", .sklearn⟩ (sampleRequest true).identity "run" true
      defaultStartTimeout) _) (some (Except.ok (.sample 2 state)))) (.refl _ _))), rfl, fun running => ?_⟩
  simp [Access.Upright, Access.granted, BackendCall.granted, running]

theorem drops_replaced (state : ServiceState) :
    Drops ⟨[.sample 1 .running]⟩ (Registry.apply ⟨[.sample 1 .running]⟩ (.supersede (.sample 2 state)))
      (.sample 1 .running) :=
  ⟨(Service.sample 1 .running).identity, by cases state <;> decide⟩

/-- A running service is dropped for the current one, which runs. -/
theorem only_serving_displaces_replacement : ∃ seen p q r₁ r₂ a,
    Steps ((Operation.deploy (sampleRequest true)).program .default) ⟨[.sample 1 .running]⟩ seen p r₁
      ∧ Step p r₁ a q r₂ ∧ Drops r₁ r₂ (.sample 1 .running)
      ∧ (Operation.deploy (sampleRequest true)).Current seen (.sample 2 .running)
      ∧ (Service.sample 2 .running).uuid ≠ (Service.sample 1 .running).uuid
      ∧ (Service.sample 2 .running).isRunning = true := by
  obtain ⟨seen, steps, current, upright⟩ := steps_replacement .running
  have drops := drops_replaced .running
  obtain ⟨s, hs, hne, running⟩ := (only_serving_displaces rfl).2 steps .write (.inr drops)
  obtain rfl := hs.unique current
  exact ⟨seen, _, _, _, _, _, steps, .write, drops, hs, hne, running (upright rfl)⟩

/-- A running service is dropped for one that is still starting, which the deployment answers with. -/
theorem starting_displaces_running : ∃ seen r' s,
    (Operation.deploy (sampleRequest true)).Performs .default ⟨[.sample 1 .running]⟩ seen r' (.ok (.service s))
      ∧ s.state = .starting ∧ Drops ⟨[.sample 1 .running]⟩ r' (.sample 1 .running) := by
  obtain ⟨seen, steps, _, _⟩ := steps_replacement .starting
  exact ⟨_, _, _, .performed rfl (steps.snoc .write), rfl, drops_replaced .starting⟩

end Operation
end ServingLifecycle
