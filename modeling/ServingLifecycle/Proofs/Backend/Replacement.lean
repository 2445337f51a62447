import ServingLifecycle.Proofs.Backend.Running
/-!
# Replacement in the simulated backend

A deployment that replaces is all or nothing. Until its service runs, all that the backend had before is there as it
was, next to at most one service that is starting; once it runs, the others of its slot are gone. It does not matter
where the call is cut off.
-/
namespace ServingLifecycle.SimulatedBackend

/-- How a deployment may go when the backend is asked for nothing else meanwhile, and what it leaves. Who asked may
stop waiting before the call began, during a wait, or where no answer will ever come; then there is no reply. -/
inductive Deployment (b : SimulatedBackend) (birth : Birth) (layout : Layout) (i : Identity) (runId : String)
    (replace : Bool) (timeout : Duration) : Option (Except BackendError Service) → SimulatedBackend → Prop
  | unbegun : Deployment b birth layout i runId replace timeout none b
  | answered {reply : Except BackendError Service} {b' : SimulatedBackend}
      (begun : b.deploy birth layout i runId replace timeout = (.answered reply, b')) :
      Deployment b birth layout i runId replace timeout (some reply) b'
  | waited {startup : Startup} {b' : SimulatedBackend}
      (begun : b.deploy birth layout i runId replace timeout = (.waiting startup, b')) :
      Deployment b birth layout i runId replace timeout (some (b'.finish startup).1) (b'.finish startup).2
  | abandoned {startup : Startup} {b' : SimulatedBackend}
      (begun : b.deploy birth layout i runId replace timeout = (.waiting startup, b')) :
      Deployment b birth layout i runId replace timeout none b'
  | hung {b' : SimulatedBackend} (begun : b.deploy birth layout i runId replace timeout = (.hanging, b')) :
      Deployment b birth layout i runId replace timeout none b'

variable {b b' : SimulatedBackend} {birth : Birth} {layout : Layout} {i : Identity} {runId : String} {replace : Bool}
  {timeout : Duration} {reply : Option (Except BackendError Service)} {service new : Service} {services : List Service}

theorem put_of_fresh (fresh : ∀ s ∈ b.services, s.uuid ≠ service.uuid) :
    (b.put service).services = b.services ++ [service] := by
  have unknown : b.find? service.uuid = none := List.find?_eq_none.mpr fun s hs => by simpa using fresh s hs
  simp [put, unknown]

/-- A service that is put again takes its own place. -/
theorem put_of_concat (held : b.services = services ++ [service]) (fresh : ∀ s ∈ services, s.uuid ≠ service.uuid)
    (same : new.uuid = service.uuid) : (b.put new).services = services ++ [new] := by
  have known : (b.find? new.uuid).isSome = true :=
    List.find?_isSome.mpr ⟨service, by simp [held], by simp [same]⟩
  have others : services.map (fun s => if s.uuid = new.uuid then new else s) = services := by
    refine (List.map_congr_left fun s hs => ?_).trans (List.map_id services)
    simp [same, fresh s hs]
  rw [put, if_pos known]
  simp [held, others, ← same]

/-- All services are there as they were, next to at most one new one of the slot, which is starting. -/
def Keeps (b : SimulatedBackend) (i : Identity) (b' : SimulatedBackend) : Prop :=
  ∃ new : Option Service, b'.services = b.services ++ new.toList
    ∧ ∀ s ∈ new, s.identity = i ∧ s.state = .starting

/-- The ids of the services that a deployment is to take the place of. -/
def displaced (b : SimulatedBackend) (i : Identity) (replace : Bool) : List Uuid :=
  if replace then (b.servicesOf i).map Service.uuid else []

/-- What a deployment begins with: it is turned away, or a new service is starting and the others are as they were. -/
theorem deploy_begins {beginning : Beginning} (fresh : ∀ s ∈ b.services, s.uuid ≠ birth.uuid)
    (begun : b.deploy birth layout i runId replace timeout = (beginning, b')) :
    (∃ error, beginning = .answered (.error error) ∧ b'.services = b.services)
    ∨ ∃ service : Service, b'.services = b.services ++ [service]
      ∧ service.uuid = birth.uuid ∧ service.identity = i ∧ service.state = .starting
      ∧ (beginning = .hanging ∨ ∃ startup, beginning = .waiting startup
        ∧ startup.service = service ∧ startup.replaced = b.displaced i replace) := by
  rw [deploy_eq] at begun
  split at begun
  · obtain ⟨rfl, rfl⟩ := Prod.mk.inj begun
    exact .inl ⟨_, rfl, rfl⟩
  · obtain ⟨rfl, rfl⟩ := Prod.mk.inj begun
    refine .inr ⟨(newService birth layout i runId).withState .starting, ?_, rfl, rfl, rfl, ?_⟩
    · exact put_of_fresh (b := b.see (.deploy i layout.servedUri replace)) fresh
    · by_cases unresponsive : b.unresponsive = true
      · exact .inl (if_pos unresponsive)
      · exact .inr ⟨_, if_neg unresponsive, rfl, rfl⟩

theorem not_mem_displaced (fresh : ∀ s ∈ b.services, s.uuid ≠ birth.uuid) : birth.uuid ∉ b.displaced i replace := by
  unfold displaced
  split
  · intro h
    obtain ⟨s, hs, e⟩ := List.mem_map.mp h
    exact fresh s (List.mem_filter.mp hs).1 e
  · exact List.not_mem_nil

/-- When the new service comes up in time, the displaced ones go and all others stay. -/
theorem services_finish {startup : Startup} (inTime : startup.inTime = true)
    (held : b'.services = b.services ++ [startup.service]) (uuid : startup.service.uuid = birth.uuid)
    (fresh : ∀ s ∈ b.services, s.uuid ≠ birth.uuid) (displaced : startup.replaced = b.displaced i replace) :
    (b'.finish startup).2.services =
      (b.services.filter fun s => s.uuid ∉ b.displaced i replace) ++ [startup.service.withState .running] := by
  have put : (b'.put (startup.service.withState .running)).services =
      b.services ++ [startup.service.withState .running] :=
    put_of_concat held (fun s hs => uuid ▸ fresh s hs) rfl
  rw [finish_inTime inTime, without, put, displaced, List.filter_append]
  simp [uuid, not_mem_displaced fresh]

/-- The displaced services are those of the slot. -/
theorem mem_displaced_iff (distinct : b.Distinct) (hs : service ∈ b.services) :
    service.uuid ∈ b.displaced i true ↔ service.identity = i := by
  constructor
  · intro h
    obtain ⟨t, ht, e⟩ := List.mem_map.mp h
    obtain ⟨ht, own⟩ := List.mem_filter.mp ht
    obtain rfl := List.inj_on_of_nodup_map distinct ht hs e
    simpa using own
  · exact fun own => List.mem_map_of_mem (List.mem_filter.mpr ⟨hs, by simpa using own⟩)

theorem servicesOf_replaced (distinct : b.Distinct) (own : new.identity = i)
    (services : b'.services = (b.services.filter fun s => s.uuid ∉ b.displaced i true) ++ [new]) :
    b'.servicesOf i = [new] ∧ ∀ j ≠ i, b'.servicesOf j = b.servicesOf j := by
  have others : (b.services.filter fun s => s.uuid ∉ b.displaced i true) =
      b.services.filter fun s => s.identity ≠ i :=
    List.filter_congr fun s hs => by simp [mem_displaced_iff distinct hs]
  rw [others] at services
  refine ⟨?_, fun j hj => ?_⟩
  · simp [servicesOf, services, own]
  · have kept : ((b.services.filter fun s => s.identity ≠ i).filter fun s => s.identity = j) = b.servicesOf j := by
      rw [List.filter_filter]
      refine List.filter_congr fun s _ => ?_
      by_cases hs : s.identity = j <;> simp [hs, hj]
    rw [servicesOf, services, List.filter_append, kept]
    simp [own, hj.symm]

/-- A deployment that does not succeed, cut off or not, leaves all services as they were, next to at most one that is
starting. One that succeeds answers with a service of its slot that runs: if it replaces, that is all its slot has
afterwards and the other slots are as they were; if it does not, it is added to what was there. -/
theorem replaces_all_or_nothing (distinct : b.Distinct) (fresh : ∀ s ∈ b.services, s.uuid ≠ birth.uuid)
    (deployment : b.Deployment birth layout i runId replace timeout reply b') :
    ((∀ s, reply ≠ some (.ok s)) → b.Keeps i b')
    ∧ ∀ s, reply = some (.ok s) → s.isRunning = true ∧ s.identity = i
      ∧ (replace = true → b'.servicesOf i = [s] ∧ ∀ j ≠ i, b'.servicesOf j = b.servicesOf j)
      ∧ (replace = false → b'.services = b.services ++ [s]) := by
  -- where the new service is not awaited to its end there is no success, and nothing has gone
  have begun_keeps : ∀ {beginning b'}, b.deploy birth layout i runId replace timeout = (beginning, b') →
      b.Keeps i b' ∧ ∀ s, beginning ≠ .answered (.ok s) := by
    intro beginning b' begun
    rcases deploy_begins fresh begun with ⟨error, rfl, same⟩ | ⟨service, held, _, own, starting, later⟩
    · exact ⟨⟨none, by simp [same], by simp⟩, by simp⟩
    · refine ⟨⟨some service, held, by simp [own, starting]⟩, ?_⟩
      rcases later with rfl | ⟨startup, rfl, _⟩ <;> simp
  cases deployment with
  | unbegun => exact ⟨fun _ => ⟨none, by simp, by simp⟩, by simp⟩
  | answered begun =>
    obtain ⟨keeps, failed⟩ := begun_keeps begun
    exact ⟨fun _ => keeps, fun s hs => absurd (congrArg Beginning.answered (Option.some.inj hs)) (failed s)⟩
  | abandoned begun => exact ⟨fun _ => (begun_keeps begun).1, by simp⟩
  | hung begun => exact ⟨fun _ => (begun_keeps begun).1, by simp⟩
  | @waited startup b₁ begun =>
    rcases deploy_begins fresh begun with ⟨error, e, _⟩ | ⟨service, held, uuid, own, starting, later⟩
    · cases e
    obtain ⟨startup', e, rfl, displaced⟩ := later.resolve_left (by simp)
    cases e
    cases inTime : startup.inTime with
    | false =>
      rw [finish_late inTime]
      exact ⟨fun _ => (begun_keeps begun).1, by simp⟩
    | true =>
      have services := services_finish inTime held uuid fresh displaced
      have answer : (b₁.finish startup).1 = .ok (startup.service.withState .running) := by rw [finish_inTime inTime]
      rw [answer]
      refine ⟨fun failed => absurd rfl (failed _), ?_⟩
      rintro s ⟨⟩
      refine ⟨rfl, own, fun replaces => ?_, fun adds => ?_⟩
      · subst replaces
        exact servicesOf_replaced distinct own services
      · subst adds
        simpa [SimulatedBackend.displaced] using services

/-- A backend with a service in each of two slots. -/
def sampleBeside : SimulatedBackend :=
  { fresh with services :=
      [.sample 1 .running, { Service.sample 2 .stopped with identity := ⟨"iris", "train", "regressor"⟩ }] }

theorem replaces_all_or_nothing_beside : ∃ s b',
    sampleBeside.Deployment ⟨Uuid.ofNat 3, ⟨2026, 1, 2, 0, 0, 0, 0⟩⟩ ⟨"/served/iris", .sklearn⟩
        (Service.sample 1 .running).identity "rerun" true .zero (some (.ok s)) b'
      ∧ s.isRunning = true ∧ b'.servicesOf (Service.sample 1 .running).identity = [s]
      ∧ b'.servicesOf ⟨"iris", "train", "regressor"⟩ = sampleBeside.servicesOf ⟨"iris", "train", "regressor"⟩ := by
  have begun : sampleBeside.deploy ⟨Uuid.ofNat 3, ⟨2026, 1, 2, 0, 0, 0, 0⟩⟩ ⟨"/served/iris", .sklearn⟩
      (Service.sample 1 .running).identity "rerun" true .zero = (.waiting _, _) := rfl
  have deployment := Deployment.waited begun
  have distinct : sampleBeside.Distinct := by
    unfold Distinct
    decide
  obtain ⟨running, _, replaced, _⟩ := (replaces_all_or_nothing distinct (by decide) deployment).2 _ rfl
  obtain ⟨only, others⟩ := replaced rfl
  exact ⟨_, _, deployment, running, only, others _ (by decide)⟩

end ServingLifecycle.SimulatedBackend
