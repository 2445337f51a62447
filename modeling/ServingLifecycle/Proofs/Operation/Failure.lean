import ServingLifecycle.Proofs.Operation.Performs
import ServingLifecycle.Proofs.Registry.Entries
/-!
# Failed operations

An operation may fail at any of its calls. Then the ids that were recorded are still recorded, and every
entry is one from before, one from before in the state that the backend acknowledged or told, or a
descriptor that the backend handed over. Other slots are as they were. A failure before the first call to
the backend leaves everything as it was.
-/
namespace ServingLifecycle.Operation
open Program Registry

/-- How an entry came about, from the entries before and from what was seen since. -/
inductive Derived (before : List Service) (seen : List Access) : Service → Prop
  | same {s : Service} (h : s ∈ before) : Derived before seen s
  | stopped {s : Service} (h : s ∈ before) (stop : .call (.ask (.stop s)) (.ok ()) ∈ seen) :
      Derived before seen (s.withState .stopped)
  | told {s : Service} {state : ServiceState} (h : s ∈ before)
      (status : .call (.ask (.status s)) (.ok state) ∈ seen) : Derived before seen (s.withState state)
  | started {s t : Service} {timeout deadline : Duration}
      (start : .call (.askWithin (.start t timeout) deadline) (some (.ok s)) ∈ seen) :
      Derived before seen s
  | startedLate {s t : Service} {timeout deadline : Duration}
      (start : .call (.askWithin (.start t timeout) deadline)
        (some (.error (.startTimeout (some s)))) ∈ seen) :
      Derived before seen s
  | deployedLate {s : Service} {layout : Layout} {i : Identity} {runId : String} {replace : Bool}
      {timeout deadline : Duration}
      (deploy : .call (.askWithin (.deploy layout i runId replace timeout) deadline)
        (some (.error (.startTimeout (some s)))) ∈ seen) :
      Derived before seen s

theorem Derived.mono {before : List Service} {seen seen' : List Access} {s : Service}
    (h : Derived before seen s) (sub : seen ⊆ seen') : Derived before seen' s := by
  cases h with
  | same h => exact .same h
  | stopped h stop => exact .stopped h (sub stop)
  | told h status => exact .told h (sub status)
  | started start => exact .started (sub start)
  | startedLate start => exact .startedLate (sub start)
  | deployedLate deploy => exact .deployedLate (sub deploy)

/-- Nothing of the slot is lost, nothing in it is made up, and no other slot is touched. -/
structure Intact (i : Identity) (before : Registry) (seen : List Access) (r : Registry) : Prop where
  kept : ∀ s ∈ before.find i, ∃ t ∈ r.find i, t.uuid = s.uuid
  derived : ∀ s ∈ r.find i, Derived (before.find i) seen s
  others : ∀ j, j ≠ i → r.find j = before.find j

variable {i : Identity} {before r : Registry} {seen seen' : List Access}

theorem Intact.refl (i : Identity) (r : Registry) (seen : List Access) : Intact i r seen r :=
  ⟨fun s h => ⟨s, h, rfl⟩, fun _ h => .same h, fun _ _ => rfl⟩

theorem Intact.mono (h : Intact i before seen r) (sub : seen ⊆ seen') : Intact i before seen' r :=
  ⟨h.kept, fun s hs => (h.derived s hs).mono sub, h.others⟩

theorem Intact.append (h : Intact i before seen r) (more : List Access) :
    Intact i before (seen ++ more) r :=
  h.mono (List.subset_append_left _ _)

theorem Intact.record (h : Intact i before seen r) {s : Service} (hi : s.identity = i)
    (hs : Derived (before.find i) seen s) : Intact i before seen (r.record s) where
  kept t ht := by
    obtain ⟨u, hu, e⟩ := h.kept t ht
    obtain ⟨v, hv, e'⟩ := uuid_mem_find_record s hu
    exact ⟨v, hv, e'.trans e⟩
  derived t ht := by
    rcases mem_of_mem_find_record ht with rfl | ht
    · exact hs
    · exact h.derived t ht
  others j hj := by
    rw [← h.others j hj, find_record, if_neg (hi ▸ hj)]

/-- The kinds of failure that are met before the backend is called. -/
def isEarly : DeployFailure → Bool
  | .invalidRequest _ => true
  | .artifactMissing _ => true
  | .stagingIo _ => true
  | .serviceNotFound => true
  | .backendUnavailable _ => false
  | .startTimeout _ => false

theorem isEarly_ofBackend (timeout : Duration) (error : BackendError) :
    isEarly (.ofBackend timeout error) = false := by
  cases error <;> rfl

/-- If the result is an error, the slot is intact; if it is an early one, nothing has happened at all. -/
def FailsIntact {α : Type} (i : Identity) (before : Registry) (result : Except DeployError α)
    (seen : List Access) (r : Registry) : Prop :=
  ∀ e, result = .error e → Intact i before seen r ∧
    (isEarly e.failure = true → r = before ∧ ∀ a ∈ seen, a.reachesBackend = false)

theorem Intact.fails_late {α : Type} (h : Intact i before seen r) {i' : Identity} {action : Action}
    {timeout : Duration} {error : BackendError} :
    FailsIntact (α := α) i before (.error ⟨i', action, .ofBackend timeout error⟩) seen r := by
  rintro e ⟨⟩
  exact ⟨h, fun early => by rw [isEarly_ofBackend] at early; cases early⟩

theorem failsIntact_ok {α : Type} {a : α} : FailsIntact i before (.ok a) seen r :=
  fun _ h => by cases h

theorem FailsIntact.error {α β : Type} {e : DeployError}
    (h : FailsIntact (α := α) i before (.error e) seen r) :
    FailsIntact (α := β) i before (.error e) seen r := by
  rintro _ ⟨⟩
  exact h e rfl

theorem stopAll_failsIntact {action : Action} {stopped services : List Service}
    (hs : ∀ s ∈ services, s ∈ before.find i) (h : Intact i before seen r) :
    (stopAll i action stopped services).Ensures (FailsIntact i before) seen r := by
  induction services generalizing stopped seen r with
  | nil => exact failsIntact_ok
  | cons service rest ih =>
    have hm := hs service List.mem_cons_self
    have hr : ∀ s ∈ rest, s ∈ before.find i := fun s hs' => hs s (List.mem_cons_of_mem _ hs')
    unfold stopAll
    split
    · exact ih hr h
    · intro reply _
      cases reply with
      | error e => exact (h.append _).fails_late
      | ok u =>
        have hi : (service.withState .stopped).identity = i :=
          (service.identity_withState _).trans (identity_of_mem_find hm)
        have hd : Derived (before.find i) (seen ++ [.call (.ask (.stop service)) (.ok u)])
            (service.withState .stopped) :=
          .stopped hm (List.mem_append_right _ List.mem_cons_self)
        exact ih hr (((h.append _).record hi hd).append _)

theorem retireOthers_failsIntact {current : Service} {action : Action} (hi : current.identity = i)
    (hr : ∀ s ∈ r.find i, s.uuid ≠ current.uuid → s ∈ before.find i) (h : Intact i before seen r) :
    (retireOthers current action).Ensures (FailsIntact i before) seen r := by
  subst hi
  unfold retireOthers
  dsimp only [Ensures]
  split
  · exact failsIntact_ok
  · rw [ensures_bind]
    have hs : ∀ s ∈ (r.find current.identity).filter fun s => s.uuid ≠ current.uuid,
        s ∈ before.find current.identity := fun s hs =>
      hr s (List.mem_filter.mp hs).1 (by simpa using (List.mem_filter.mp hs).2)
    refine (stopAll_failsIntact hs (h.append _)).mono fun result seen r hf => ?_
    cases result with
    | error e => exact hf.error
    | ok l => exact failsIntact_ok

theorem backendFailure_failsIntact {α : Type} {action : Action} {timeout : Duration}
    {error : BackendError} (hi : ∀ s ∈ error.handedOver, s.identity = i)
    (hd : ∀ s ∈ error.handedOver, Derived (before.find i) seen s) (h : Intact i before seen r) :
    (backendFailure (α := α) i action timeout error).Ensures (FailsIntact i before) seen r := by
  apply ensures_backendFailure
  · exact fun _ => h.fails_late
  · exact fun s hs => ((h.record (hi s hs) (hd s hs)).append _).fails_late

theorem ensureRunning_failsIntact {grace timeout : Duration} {service : Service} {action : Action}
    (hi : service.identity = i) (seen : List Access) :
    (ensureRunning grace service timeout action).Ensures (FailsIntact i before) seen before := by
  subst hi
  have h := Intact.refl service.identity before
  unfold ensureRunning
  split
  · exact retireOthers_failsIntact rfl (fun s hs _ => hs) (h seen)
  · refine ensures_askWithGrace fun deadline reply hf => ?_
    rcases reply with _ | error | started
    · exact (h _).fails_late
    · refine backendFailure_failsIntact (fun s hs => ?_) (fun s hs => ?_) (h _)
      · exact (Option.some.inj (hf s hs)).symm
      · obtain rfl := BackendError.eq_startTimeout hs
        exact .startedLate (List.mem_append_right _ List.mem_cons_self)
    · have hi : started.identity = service.identity := (Option.some.inj (hf started rfl)).symm
      refine retireOthers_failsIntact hi (fun s hs hne => ?_) (((h _).record hi ?_).append _)
      · exact (mem_of_mem_find_record hs).resolve_left fun e => hne (e ▸ rfl)
      · exact .started (List.mem_append_right _ List.mem_cons_self)

theorem deployNew_failsIntact {settings : Settings} {request : Request} {replace : Bool}
    (hi : request.identity = i) (hseen : ∀ a ∈ seen, a.reachesBackend = false) :
    (deployNew settings request replace).Ensures (FailsIntact i before) seen before := by
  subst hi
  have h := Intact.refl request.identity before
  dsimp only [deployNew, Ensures]
  intro staged _
  cases staged with
  | error e =>
    rintro _ ⟨⟩
    refine ⟨h _, fun _ => ⟨rfl, fun a ha => ?_⟩⟩
    rcases List.mem_append.mp ha with ha | ha
    · exact hseen a ha
    · rw [List.mem_singleton.mp ha]
      rfl
  | ok layout =>
    refine ensures_askWithGrace fun deadline reply hf => ?_
    rcases reply with _ | error | service
    · exact (h _).fails_late
    · refine backendFailure_failsIntact (fun s hs => ?_) (fun s hs => ?_) (h _)
      · exact (Option.some.inj (hf s hs)).symm
      · obtain rfl := BackendError.eq_startTimeout hs
        exact .deployedLate (List.mem_append_right _ List.mem_cons_self)
    · exact failsIntact_ok

theorem refreshAll_failsIntact {refreshed services : List Service}
    (hs : ∀ s ∈ services, s ∈ before.find i) (h : Intact i before seen r) :
    (refreshAll i refreshed services).Ensures (FailsIntact i before) seen r := by
  induction services generalizing refreshed seen r with
  | nil => exact failsIntact_ok
  | cons service rest ih =>
    have hm := hs service List.mem_cons_self
    have hr : ∀ s ∈ rest, s ∈ before.find i := fun s hs' => hs s (List.mem_cons_of_mem _ hs')
    intro reply _
    cases reply with
    | error e => exact (h.append _).fails_late
    | ok state =>
      have hi : (service.withState state).identity = i :=
        (service.identity_withState _).trans (identity_of_mem_find hm)
      have hd : Derived (before.find i) (seen ++ [.call (.ask (.status service)) (.ok state)])
          (service.withState state) :=
        .told hm (List.mem_append_right _ List.mem_cons_self)
      exact ih hr (((h.append _).record hi hd).append _)

theorem FailsIntact.verdict {α : Type} {result : Except DeployError α} {f : α → Outcome}
    (h : FailsIntact i before result seen r) : FailsIntact i before (result.map f) seen r := by
  intro e he
  cases result with
  | error e' => exact h e (by cases he; rfl)
  | ok a => cases he

theorem notFound_failsIntact {α : Type} {action : Action} (hseen : ∀ a ∈ seen, a.reachesBackend = false) :
    FailsIntact (α := α) i before (.error (notFound i action)) seen before := by
  rintro _ ⟨⟩
  exact ⟨.refl _ _ _, fun _ => ⟨rfl, hseen⟩⟩

theorem program_failsIntact (settings : Settings) (op : Operation) (before : Registry) :
    (op.program settings).Ensures (fun v => FailsIntact op.identity before v.result) [] before := by
  have hread : ∀ i services, ∀ a ∈ ([] : List Access) ++ [.read i services], a.reachesBackend = false := by
    intro i services a ha
    rw [List.mem_singleton.mp ha]
    rfl
  cases op with
  | deploy request =>
    refine ensures_map.mpr (Ensures.mono (fun _ _ _ hf => FailsIntact.verdict hf) ?_)
    cases hc : before.find request.identity with
    | nil => exact deployNew_failsIntact rfl (hread _ _)
    | cons newest rest =>
      have hi : newest.identity = request.identity :=
        identity_of_mem_find (hc ▸ List.mem_cons_self)
      cases hd : request.decision
      · exact ensureRunning_failsIntact hi _
      · exact deployNew_failsIntact rfl (hread _ _)
  | start i timeout =>
    dsimp only [program, Ensures]
    cases hc : before.find i with
    | nil => exact notFound_failsIntact (hread _ _)
    | cons newest rest =>
      have hi : newest.identity = i := identity_of_mem_find (hc ▸ List.mem_cons_self)
      exact ensures_map.mpr ((ensureRunning_failsIntact hi _).mono fun _ _ _ hf => hf.verdict)
  | stop i =>
    dsimp only [program, Ensures]
    split
    · exact notFound_failsIntact (hread _ _)
    · exact ensures_map.mpr ((stopAll_failsIntact (fun s hs => hs) (.refl _ _ _)).mono
        fun _ _ _ hf => hf.verdict)
  | delete i =>
    refine ensures_bind.mpr ((stopAll_failsIntact (fun s hs => hs) (.refl _ _ _)).mono
      fun result _ _ hf => ?_)
    cases result with
    | error e => exact hf.error
    | ok l => exact failsIntact_ok
  | refresh i =>
    exact ensures_map.mpr ((refreshAll_failsIntact (fun s hs => hs) (.refl _ _ _)).mono
      fun _ _ _ hf => hf.verdict)

/-- A failed operation loses nothing and makes nothing up, at whichever of its calls it failed. -/
theorem failure_leaves_slot_intact {settings : Settings} {op : Operation} {r r' : Registry}
    {seen : List Access} {e : DeployError} (h : op.Performs settings r seen r' (.error e))
    (faithful : ∀ a ∈ seen, a.Faithful) :
    (∀ s ∈ r.find op.identity, ∃ t ∈ r'.find op.identity, t.uuid = s.uuid)
      ∧ (∀ t ∈ r'.find op.identity, Derived (r.find op.identity) seen t)
      ∧ (∀ j, j ≠ op.identity → r'.find j = r.find j)
      ∧ (isEarly e.failure = true → r' = r ∧ ∀ a ∈ seen, a.reachesBackend = false) := by
  generalize hres : Except.error e = result at h
  cases h with
  | refused h => exact ⟨fun s hs => ⟨s, hs, rfl⟩, fun _ hs => .same hs, fun _ _ => rfl, fun _ => ⟨rfl, by simp⟩⟩
  | performed h steps =>
    have hf := (program_failsIntact settings op r).of_steps steps faithful
    obtain ⟨intact, early⟩ := hf e hres.symm
    exact ⟨intact.kept, intact.derived, intact.others, early⟩

/-- A stop that fails at its second service. -/
theorem failure_leaves_slot_intact_second_stop : ∃ seen r' e,
    (Operation.stop (Service.sample 1 .running).identity).Performs .default
        ⟨[.sample 1 .running, .sample 2 .running]⟩ seen r' (.error e)
      ∧ ∀ s ∈ [Service.sample 1 .running, .sample 2 .running],
        ∃ t ∈ r'.find (Service.sample 1 .running).identity, t.uuid = s.uuid := by
  have steps : Steps ((Operation.stop (Service.sample 1 .running).identity).program .default)
      ⟨[.sample 1 .running, .sample 2 .running]⟩ _ (.done ⟨.stop, .error _⟩) _ :=
    .head .read (.head (.call (c := .ask (.stop (.sample 1 .running))) (Except.ok ())) (.head .write
      (.head (.call (c := .ask (.stop (.sample 2 .running)))
        (Except.error (.unavailable "offline"))) (.refl _ _))))
  have performs := Performs.performed rfl steps
  refine ⟨_, _, _, performs, (failure_leaves_slot_intact performs ?_).1⟩
  simp [Access.Faithful, Access.descriptor, Call.descriptor, BackendCall.descriptor]

end ServingLifecycle.Operation
