import ServingLifecycle.Proofs.Simulation.Projection
import ServingLifecycle.Proofs.Slot.Single
/-!
# At most one running service in every simulation

Whatever happens to a fresh simulation, a service of a slot that runs is recorded as running whenever no
operation is in the critical section of the slot. At most one does, unless an outage came or went in the middle
of an operation that failed, and the next operation that answers with a service makes up for it.
-/
namespace ServingLifecycle.Simulation
open SlotView

/-- At most one service of the slot runs, and at most one is recorded as running. -/
structure Single (s : Simulation) (i : Identity) : Prop where
  backend : ((s.backend.servicesOf i).filter Service.isRunning).length ≤ 1
  registry : ((s.system.registry.find i).filter Service.isRunning).length ≤ 1

/-- Every service of the slot that runs is recorded as running. -/
def Mirrored (s : Simulation) (i : Identity) : Prop :=
  ∀ service ∈ s.backend.servicesOf i, service.isRunning = true →
    ∃ entry ∈ s.system.registry.find i, entry.uuid = service.uuid ∧ entry.isRunning = true

/-- The task of an operation on the slot has left its critical section with an error. -/
def HasFailed (s : Simulation) (i : Identity) (t : TaskId) : Prop :=
  ∃ task action error, s.system.tasks[t]? = some task ∧ task.operation.identity = i ∧
    task.phase.held = none ∧ task.phase.program? = some (.done ⟨action, .error error⟩)

/-- The task of an operation on the slot is about to leave its critical section with a service for an answer,
as deployments and starts do when they succeed. -/
def HasServed (s : Simulation) (i : Identity) (t : TaskId) : Prop :=
  ∃ task action service, s.system.tasks[t]? = some task ∧ task.operation.identity = i ∧
    task.phase.held.isSome = true ∧ task.phase.program? = some (.done ⟨action, .ok (.service service)⟩)

/-- Outages come and go only while no operation on the slot is in its critical section. -/
def SteadyFor (i : Identity) (s : Simulation) (incident : Incident) : Prop :=
  ∀ offline, incident = .disturb (.setOffline offline) → s.IsQuiet i

variable {s s' : Simulation} {i : Identity} {σ : SlotView} {t : TaskId} {steady : Bool} {old : Set TaskId}
  {home : Uuid → Identity}

theorem length_filter_le_one {services : List Service} (nodup : (services.map Service.uuid).Nodup)
    (lone : (runningIn services).Subsingleton) : (services.filter Service.isRunning).length ≤ 1 := by
  have hnodup : ((services.filter Service.isRunning).map Service.uuid).Nodup :=
    nodup.sublist (List.filter_sublist.map Service.uuid)
  have hmem : ∀ a ∈ services.filter Service.isRunning, a.uuid ∈ runningIn services := fun a ha =>
    ⟨a, (List.mem_filter.mp ha).1, rfl, (List.mem_filter.mp ha).2⟩
  rcases hl : services.filter Service.isRunning with _ | ⟨a, _ | ⟨b, rest⟩⟩
  · exact Nat.zero_le _
  · exact Nat.le_refl _
  · rw [hl] at hnodup hmem
    have e := lone (hmem a (by simp)) (hmem b (by simp))
    simp [e] at hnodup

theorem Views.mirrored (h : s.Views i σ) (mirrors : Mirrors σ.entries (runningIn σ.backend.services)) :
    s.Mirrored i := by
  intro service hs hr
  rw [h.entries, h.backend] at mirrors
  exact mirrors.recorded ⟨service, hs, rfl, hr⟩

theorem Views.single (h : s.Views i σ) (distinct : σ.backend.Distinct)
    (mirrors : Mirrors σ.entries (runningIn σ.backend.services)) (lone : (runningIn σ.entries).Subsingleton) :
    s.Single i := by
  have backend := length_filter_le_one distinct (lone.anti mirrors.recorded)
  have registry := length_filter_le_one mirrors.nodup lone
  rw [h.backend] at backend
  rw [h.entries] at registry
  exact ⟨backend, registry⟩

theorem Views.hasFailed (h : s.Views i σ) : σ.HasFailed t ↔ s.HasFailed i t := by
  constructor
  · rintro ⟨action, error, he⟩
    obtain ⟨task, ht, hi, hx⟩ := exists_of_glance ((h.ended t _).mp he)
    obtain ⟨held, program⟩ := Prod.mk.inj hx
    exact ⟨task, action, error, ht, hi, by simpa using held.symm, program.symm⟩
  · rintro ⟨task, action, error, ht, hi, held, program⟩
    refine ⟨action, error, (h.ended t _).mpr ?_⟩
    rw [glance_self ht hi, held, program]
    rfl

/-- When a slot is quiet, all that runs is recorded, and at most one service runs unless that is excused. -/
theorem Views.of_quiet (h : s.Views i σ) (sound : σ.Sound steady old i) (quiet : s.IsQuiet i) :
    s.Mirrored i ∧ (s.Single i ∨ (steady = false ∧ ∃ t ∉ old, σ.HasFailed t)) := by
  obtain ⟨mirrors, bound⟩ := sound.of_idle (h.idle (isQuiet_iff.mp quiet))
  exact ⟨h.mirrored mirrors, bound.imp_left (h.single sound.distinct mirrors)⟩

theorem views_fresh (settings : Settings) (metrics : Option Metrics) (locator : Locator StorageWorld)
    (world : StorageWorld) (birth : Nat → Birth) (i : Identity) :
    (fresh settings metrics locator world birth).Views i ⟨[], SimulatedBackend.fresh.share i, .idle, fun _ => none⟩ := by
  have hg : ∀ t, (fresh settings metrics locator world birth).glance i t = none := by
    intro t
    simp [glance, fresh, System.initial]
  refine ⟨rfl, rfl, fun t rest h => ?_, fun t p => ?_⟩
  · rw [hg] at h
    cases h
  · rw [hg]
    simp

/-- The invariant of a slot outlasts every run, in which outages are as steady as it takes them to be. -/
theorem Views.sound {may : Simulation → Incident → Prop} (h : s.Views i σ) (sound : σ.Sound steady old i)
    (regular : s.Regular) (athome : s.AtHome home)
    (run : Reaches (fun s incident => may s incident ∧ BornAtHome home s incident) s s')
    (steadily : ∀ {s₁ incident}, may s₁ incident → steady = true → SteadyFor i s₁ incident) :
    ∃ σ', s'.Views i σ' ∧ σ'.Sound steady old i := by
  have admits : ∀ {s₁ : Simulation} {σ₁ : SlotView} {incident : Incident}, Reaches may s s₁ → s₁.Views i σ₁ →
      may s₁ incident → Admits (Allows steady) s₁ i σ₁ incident := by
    rintro s₁ σ₁ incident _ views allowed _ ⟨⟩ offline ho hs
    · cases ho
      exact views.idle (isQuiet_iff.mp (steadily allowed hs offline rfl))
    · cases ho
    · cases ho
  obtain ⟨_, σ', steps, views⟩ := h.reaches regular athome run admits
  exact ⟨σ', views, sound.steps steps⟩

/-- A task that has served is through with its program, so the slot is busy with it and no call is in flight. -/
theorem Views.busy_of_served (h : s.Views i σ) (regular : s.Regular) (served : s.HasServed i t) :
    ∃ action service, σ.stage = .busy t (.done ⟨action, .ok (.service service)⟩) := by
  obtain ⟨task, action, service, ht, hi, held, program⟩ := served
  exact ⟨action, service, h.busy_of_over regular ht hi held program rfl⟩

section Fresh

variable {settings : Settings} {metrics : Option Metrics} {locator : Locator StorageWorld} {world : StorageWorld}
  {birth : Nat → Birth} {may : Simulation → Incident → Prop}

/-- Nothing is asked of outages that may come and go at any time. -/
theorem unsteadily {s₁ : Simulation} {incident : Incident} : may s₁ incident → false = true →
    SteadyFor i s₁ incident :=
  fun _ hs => by cases hs

theorem sound_of_fresh
    (run : Reaches (fun s incident => may s incident ∧ BornAtHome home s incident)
      (fresh settings metrics locator world birth) s)
    (steadily : ∀ {s₁ incident}, may s₁ incident → steady = true → SteadyFor i s₁ incident) :
    ∃ σ, s.Views i σ ∧ σ.Sound steady ∅ i :=
  (views_fresh settings metrics locator world birth i).sound (sound_empty rfl rfl rfl)
    (regular_fresh settings metrics locator world birth) (atHome_fresh settings metrics locator world birth)
    run steadily

/-- Every state of a run is seen by its slot as a sound one, before and after a service was served. -/
theorem sound_of_run (run : Reaches may (fresh settings metrics locator world birth) s)
    (distinct : s.DistinctBirths)
    (steadily : ∀ {s₁ incident}, may s₁ incident → steady = true → SteadyFor i s₁ incident) :
    ∃ σ, s.Views i σ ∧ σ.Sound steady ∅ i := by
  have regular := regular_fresh settings metrics locator world birth
  obtain ⟨home, _, run⟩ := run.exists_home regular distinct fun _ => i
  exact sound_of_fresh run steadily

theorem sound_of_served {may' : Simulation → Incident → Prop}
    (run : Reaches may (fresh settings metrics locator world birth) s) (served : s.HasServed i t)
    (later : Reaches may' s s') (distinct : s'.DistinctBirths) :
    s.Single i ∧ s.Mirrored i ∧ ∃ σ σ', s.Views i σ ∧ s'.Views i σ' ∧
      σ'.Sound false { u | (σ.ended u).isSome = true } i := by
  have fresh := regular_fresh settings metrics locator world birth
  have regular := fresh.reaches run
  obtain ⟨home, run', later⟩ := run.exists_common_home fresh later distinct fun _ => i
  obtain ⟨σ, views, sound⟩ := sound_of_fresh run' (unsteadily (i := i))
  obtain ⟨action, service, busy⟩ := views.busy_of_served regular served
  obtain ⟨mirrors, lone, sound'⟩ := sound.of_served busy
  have athome := (atHome_fresh settings metrics locator world birth).reaches fresh run'
  obtain ⟨σ', views', sound''⟩ := views.sound sound' regular athome later unsteadily
  exact ⟨views.single sound.distinct mirrors lone, views.mirrored mirrors, σ, σ', views, views', sound''⟩

/-- Whenever no operation on a slot is in its critical section, every service of it that runs is recorded as
running. At most one runs and at most one is recorded so, if outages come and go only at such times. If they may
come and go at any time, more of them need an operation that has failed; and after an operation that answers with
a service, one that has failed since. -/
theorem single_running_service (settings : Settings) (metrics : Option Metrics)
    (locator : Locator StorageWorld) (world : StorageWorld) (birth : Nat → Birth) (i : Identity) :
    (∀ s, Reaches (SteadyFor i) (fresh settings metrics locator world birth) s → s.DistinctBirths →
      s.IsQuiet i → s.Single i ∧ s.Mirrored i)
    ∧ (∀ may s, Reaches may (fresh settings metrics locator world birth) s → s.DistinctBirths →
      (((s.backend.servicesOf i).filter Service.isRunning).length ≤ 1 ∨ ∃ t, s.HasFailed i t) ∧
        (s.IsQuiet i → s.Mirrored i ∧ (s.Single i ∨ ∃ t, s.HasFailed i t)))
    ∧ (∀ may s s' t, Reaches may (fresh settings metrics locator world birth) s → s.HasServed i t →
      Reaches may s s' → s'.DistinctBirths → (s.Single i ∧ s.Mirrored i) ∧
        (s'.IsQuiet i → s'.Mirrored i ∧ (s'.Single i ∨ ∃ u, s'.HasFailed i u ∧ ¬ s.HasFailed i u))) := by
  refine ⟨fun s run distinct quiet => ?_, fun may s run distinct => ⟨?_, fun quiet => ?_⟩,
    fun may s s' t run served later distinct => ?_⟩
  · have steadily : ∀ {s₁ incident}, SteadyFor i s₁ incident → true = true → SteadyFor i s₁ incident :=
      fun allowed _ => allowed
    obtain ⟨σ, views, sound⟩ := sound_of_run run distinct steadily
    obtain ⟨mirrored, single | ⟨unsteady, _⟩⟩ := views.of_quiet sound quiet
    · exact ⟨single, mirrored⟩
    · cases unsteady
  · obtain ⟨σ, views, sound⟩ := sound_of_run run distinct (unsteadily (i := i))
    refine sound.lone.imp (fun lone => ?_) fun ⟨t, failed⟩ => ⟨t, views.hasFailed.mp failed⟩
    have backend := length_filter_le_one sound.distinct lone
    rw [views.backend] at backend
    exact backend
  · obtain ⟨σ, views, sound⟩ := sound_of_run run distinct (unsteadily (i := i))
    obtain ⟨mirrored, bound⟩ := views.of_quiet sound quiet
    exact ⟨mirrored, bound.imp_right fun ⟨_, t, _, failed⟩ => ⟨t, views.hasFailed.mp failed⟩⟩
  · obtain ⟨single, mirrored, σ, σ', views, views', sound⟩ := sound_of_served run served later distinct
    refine ⟨⟨single, mirrored⟩, fun quiet => ?_⟩
    obtain ⟨mirrored', bound⟩ := views'.of_quiet sound quiet
    refine ⟨mirrored', bound.imp_right fun ⟨_, u, hu, failed⟩ => ⟨u, views'.hasFailed.mp failed, fun old => hu ?_⟩⟩
    obtain ⟨action, e, he⟩ := views.hasFailed.mpr old
    simp [he]

/-- Incidents that may happen wherever a run comes to make it longer. -/
theorem Reaches.run_along {s₁ : Simulation} {incidents : List Incident} (prior : Reaches may s s₁)
    (h : s₁.run incidents = some s')
    (allowed : ∀ s₂, Reaches may s s₂ → ∀ incident ∈ incidents, may s₂ incident) : Reaches may s s' := by
  induction incidents generalizing s₁ with
  | nil =>
    cases h
    exact prior
  | cons incident rest ih =>
    obtain ⟨s₂, last, h⟩ := Option.bind_eq_some_iff.mp h
    exact ih (prior.snoc (allowed s₁ prior incident List.mem_cons_self) last) h
      fun s₁ run x hx => allowed s₁ run x (List.mem_cons_of_mem _ hx)

theorem Reaches.run {s₁ : Simulation} {incidents : List Incident} (prior : Reaches may s s₁)
    (h : s₁.run incidents = some s') (allowed : ∀ s₁, ∀ incident ∈ incidents, may s₁ incident) :
    Reaches may s s' :=
  prior.run_along h fun s₁ _ => allowed s₁

/-- A deployment to the slot of the samples. -/
def sampleDeployment : Operation :=
  .deploy ⟨(Service.sample 1 .running).identity, "run", "/models/iris", .sklearn, true, defaultStartTimeout, none⟩

def sampleStart : Simulation :=
  fresh .default none ⟨.empty, []⟩ ⟨⟨[], [], ⟨none, none⟩⟩, []⟩ Birth.nth

/-- The deployment has succeeded and still holds its lock. -/
def sampleServed : Simulation :=
  (sampleStart.run (.submit sampleDeployment :: .replicate 5 (.step 0) ++ [.wake 0 0, .step 0])).get rfl

/-- The deployment has let go of its lock. -/
def sampleLeft : Simulation :=
  (sampleServed.run [.step 0, .step 0]).get rfl

theorem single_running_service_deployed :
    sampleServed.HasServed sampleDeployment.identity 0 ∧ sampleServed.Single sampleDeployment.identity
      ∧ sampleLeft.IsQuiet sampleDeployment.identity
      ∧ (sampleLeft.backend.servicesOf sampleDeployment.identity).map Service.isRunning = [true]
      ∧ sampleLeft.Single sampleDeployment.identity ∧ sampleLeft.Mirrored sampleDeployment.identity := by
  obtain ⟨steady, _, restored⟩ := single_running_service .default none ⟨.empty, []⟩
    ⟨⟨[], [], ⟨none, none⟩⟩, []⟩ Birth.nth sampleDeployment.identity
  have first : Reaches (SteadyFor sampleDeployment.identity) sampleStart sampleServed := by
    refine Reaches.refl.run (Option.some_get _).symm fun s₁ incident hm offline hd => ?_
    subst hd
    simp at hm
  have second : Reaches (SteadyFor sampleDeployment.identity) sampleStart sampleLeft := by
    refine first.run (Option.some_get _).symm fun s₁ incident hm offline hd => ?_
    subst hd
    simp at hm
  have served : sampleServed.HasServed sampleDeployment.identity 0 := ⟨_, _, _, rfl, rfl, rfl, rfl⟩
  have distinct : ∀ s : Simulation, s.births = 1 → s.DistinctBirths := by
    intro s hb m n hm hn _
    omega
  have quiet : sampleLeft.IsQuiet sampleDeployment.identity := by
    intro task ht _
    have hheld : sampleLeft.system.tasks.map (fun task => task.phase.held) = [none] := rfl
    simpa [hheld] using List.mem_map_of_mem (f := fun task : Task => task.phase.held) ht
  obtain ⟨⟨single, _⟩, _⟩ := restored _ _ _ _ first served .refl (distinct _ rfl)
  exact ⟨served, single, quiet, rfl, steady _ second (distinct _ rfl) quiet⟩

end Fresh

end ServingLifecycle.Simulation
