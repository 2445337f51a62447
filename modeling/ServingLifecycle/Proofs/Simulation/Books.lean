import ServingLifecycle.Proofs.Simulation.Single
import ServingLifecycle.Proofs.Slot.Books
/-!
# The registry and the backend

The books of a slot, carried over to simulations. As long as no service of the slot crashes and no call hangs,
the registry has every service of the slot just as the backend has it, and misses none that is starting or
running.
-/
namespace ServingLifecycle.SlotView
open SimulatedBackend

variable {x : Terms} {i : Identity} {σ : SlotView}

/-- In an empty slot nothing is out of order. -/
theorem kept_empty (entries : σ.entries = []) (services : σ.backend.services = []) (stage : σ.stage = .idle)
    (responsive : σ.backend.unresponsive = false) (plain : x.favourite = none) :
    σ.Kept x i := by
  have nothing : ∀ u, σ.backend.find? u = none := fun u =>
    find?_eq_none_iff.mpr fun s hs => by rw [services] at hs; cases hs
  refine ⟨fun s hs => ?_, fun _ => responsive, fun f hf => ?_, fun f hf => ?_, ?_⟩
  · rw [services] at hs
    cases hs
  · rw [plain] at hf
    cases hf
  · rw [plain] at hf
    cases hf
  · rw [stage]
    refine .idle (holds_self x.fidelity σ.backend) fun g _ => ?_
    rw [entries]
    refine ⟨List.nodup_nil, by simp, fun _ u y hy => ?_⟩
    rw [nothing u] at hy
    cases hy

theorem Kept.records (h : σ.Kept x i) (idle : σ.stage = .idle) : ∃ stock, σ.backend.Holds x.fidelity stock ∧
    ∀ g, x.Vouches σ g → Records g σ.entries stock := by
  have stage := h.stage
  rw [idle] at stage
  cases stage with | idle holds records =>
  exact ⟨_, holds, records⟩

/-- What is recorded exactly, in a stock that is held exactly, is what the backend has. -/
theorem mirrors_of_exact {stock : Stock} (distinct : σ.backend.Distinct) (holds : σ.backend.Holds .exact stock)
    (records : Records .exact σ.entries stock) : (∀ d ∈ σ.entries, d ∈ σ.backend.services) ∧
      ∀ s ∈ σ.backend.services, s.state = .starting ∨ s.state = .running → s ∈ σ.entries := by
  have found : ∀ u s, stock u = some s → σ.backend.find? u = some s := by
    intro u s hs
    obtain ⟨t, ht, rfl⟩ := holds.kept u s hs
    exact ht
  have recorded : ∀ d ∈ σ.entries, stock d.uuid = some d := by
    intro d hd
    obtain ⟨s, hs, rfl⟩ := records.kept d hd
    exact hs
  refine ⟨fun d hd => (mem_of_find? (found d.uuid d (recorded d hd))).1, fun s hs up => ?_⟩
  obtain ⟨t, ht⟩ := find?_of_mem hs
  obtain ⟨hm, e⟩ := mem_of_find? ht
  obtain rfl : t = s := List.inj_on_of_nodup_map distinct hm hs e
  have hstock : stock t.uuid = some t := by
    cases hu : stock t.uuid with
    | none =>
      rw [holds.complete rfl t.uuid hu] at ht
      cases ht
    | some r => exact (found t.uuid r hu).symm.trans ht
  obtain ⟨d, hd, e⟩ := records.covered rfl t.uuid t hstock up
  have hd' := recorded d hd
  rw [e, hstock] at hd'
  exact Option.some.inj hd' ▸ hd

end ServingLifecycle.SlotView

namespace ServingLifecycle.Simulation
open SlotView

/-- No service of the slot crashes. -/
def Spares (i : Identity) (s : Simulation) (incident : Incident) : Prop :=
  ∀ u, incident = .disturb (.crash u) → ∀ d ∈ s.backend.servicesOf i, d.uuid ≠ u

variable {s s' : Simulation} {i : Identity} {σ : SlotView} {x : Terms} {home : Uuid → Identity}
  {may may' : Simulation → Incident → Prop}

/-- The books stay in order in a run that brings only what the terms allow for. -/
theorem Views.kept (h : s.Views i σ) (kept : σ.Kept x i)
    (inRange : ∀ f ∈ x.favourite, (f.2.startTimeout.add? s.system.settings.backendGrace).isSome = true)
    (regular : s.Regular) (athome : s.AtHome home)
    (run : Reaches (fun s incident => may s incident ∧ BornAtHome home s incident) s s')
    (allows : ∀ {s₁ σ₁ incident}, Reaches may s s₁ → s₁.Views i σ₁ → may s₁ incident →
      Admits x.Allows s₁ i σ₁ incident) : ∃ σ', s'.Views i σ' ∧ σ'.Kept x i := by
  obtain ⟨_, σ', steps, views⟩ := h.reaches regular athome run allows
  exact ⟨σ', views, kept.steps inRange steps⟩

/-- What comes to a slot where no operation is favoured: nothing is asked but that services do not crash and calls
do not hang, as far as the stock is to be relied on. -/
theorem Views.admits_plain {incident : Incident} {fidelity level : Fidelity} {refresh : Option TaskId}
    (h : s.Views i σ) (spared : ∀ u, incident = .disturb (.crash u) →
      fidelity = .known ∨ ∀ d ∈ s.backend.servicesOf i, d.uuid ≠ u)
    (responsive : fidelity = .exact → incident ≠ .disturb (.setUnresponsive true))
    (refreshes : ∀ {t task}, t ∈ refresh → s.system.tasks[t]? = some task → ∃ j, task.operation = .refresh j) :
    Admits (Terms.Allows ⟨fidelity, level, refresh, none⟩) s i σ incident := by
  intro o occurs
  cases occurs with
  | disturbed d =>
    refine ⟨fun u hd => ?_, fun hf hd => responsive hf (congrArg _ hd), fun f hf => by cases hf⟩
    rw [h.backend]
    exact spared u (congrArg _ hd)
  | entered ht hi => exact ⟨fun hm => refreshes hm ht, fun f hf => by cases hf⟩
  | staged hcall => exact fun f hf => by cases hf

section Fresh

variable {settings : Settings} {metrics : Option Metrics} {locator : Locator StorageWorld} {world : StorageWorld}
  {birth : Nat → Birth}

/-- The books of every slot are in order in every state of a run. -/
theorem kept_of_run (plain : x.favourite = none)
    (run : Reaches may (fresh settings metrics locator world birth) s) (distinct : s.DistinctBirths)
    (allows : ∀ {s₁ σ₁ incident}, Reaches may (fresh settings metrics locator world birth) s₁ → s₁.Views i σ₁ →
      may s₁ incident → Admits x.Allows s₁ i σ₁ incident) : ∃ σ, s.Views i σ ∧ σ.Kept x i := by
  have regular := regular_fresh settings metrics locator world birth
  obtain ⟨home, _, run⟩ := run.exists_home regular distinct fun _ => i
  exact (views_fresh settings metrics locator world birth i).kept
    (kept_empty rfl rfl rfl rfl plain) (fun f hf => by rw [plain] at hf; cases hf) regular
    (atHome_fresh settings metrics locator world birth) run allows

/-- Whenever no operation on a slot is in its critical section, every service that is recorded for it is in the
backend just as it is recorded, and every service of it that the backend has starting or running is recorded. -/
theorem registry_mirrors_backend
    (run : Reaches (fun s incident => Spares i s incident ∧ incident ≠ .disturb (.setUnresponsive true))
      (fresh settings metrics locator world birth) s)
    (distinct : s.DistinctBirths) (quiet : s.IsQuiet i) :
    (∀ d ∈ s.system.registry.find i, d ∈ s.backend.servicesOf i)
    ∧ (∀ d ∈ s.backend.servicesOf i, d.state = .starting ∨ d.state = .running →
      d ∈ s.system.registry.find i) := by
  obtain ⟨σ, views, kept⟩ := kept_of_run (i := i) (x := ⟨.exact, .exact, none, none⟩) rfl run distinct
    fun _ views ⟨spares, responsive⟩ =>
      views.admits_plain (fun u hu => Or.inr (spares u hu)) (fun _ => responsive) nofun
  obtain ⟨σ₁, views₁, sound⟩ : ∃ σ, s.Views i σ ∧ σ.Sound false ∅ i :=
    sound_of_run run distinct fun _ hs => by cases hs
  obtain ⟨stock, holds, records⟩ := kept.records (views.idle (isQuiet_iff.mp quiet))
  have distinct := sound.distinct
  rw [views₁.backend, ← views.backend] at distinct
  have mirrors := mirrors_of_exact distinct holds (records .exact (Or.inl rfl))
  rw [views.entries, views.backend] at mirrors
  exact mirrors

/-- The deployment of the samples has run into its timeout and has let go of its lock. -/
def sampleOverdue : Simulation :=
  (sampleStart.run (.disturb (.setStartDelay (.ofSeconds 100000)) :: .submit sampleDeployment ::
    .replicate 5 (.step 0) ++ .wake 0 0 :: .replicate 3 (.step 0))).get rfl

theorem registry_mirrors_backend_overdue :
    (sampleOverdue.backend.servicesOf sampleDeployment.identity).map Service.state = [.starting]
      ∧ ∃ d ∈ sampleOverdue.system.registry.find sampleDeployment.identity, d.state = .starting := by
  have run : Reaches (fun s incident => Spares sampleDeployment.identity s incident ∧
      incident ≠ .disturb (.setUnresponsive true)) sampleStart sampleOverdue := by
    refine Reaches.refl.run (Option.some_get _).symm fun s incident hm => ⟨fun u hu => ?_, fun hu => ?_⟩
    · subst hu
      simp at hm
    · subst hu
      simp at hm
  have distinct : sampleOverdue.DistinctBirths := by
    intro m n hm hn _
    have hb : sampleOverdue.births = 1 := rfl
    omega
  have quiet : sampleOverdue.IsQuiet sampleDeployment.identity := by
    intro task ht _
    have hheld : sampleOverdue.system.tasks.map (fun task => task.phase.held) = [none] := rfl
    simpa [hheld] using List.mem_map_of_mem (f := fun task : Task => task.phase.held) ht
  have states : (sampleOverdue.backend.servicesOf sampleDeployment.identity).map Service.state = [.starting] := rfl
  obtain ⟨_, recorded⟩ := registry_mirrors_backend run distinct quiet
  obtain ⟨d, hd, state⟩ : ∃ d ∈ sampleOverdue.backend.servicesOf sampleDeployment.identity,
      d.state = .starting := List.mem_map.mp (by rw [states]; simp)
  exact ⟨states, d, recorded d hd (Or.inl state), state⟩

end Fresh

end ServingLifecycle.Simulation
