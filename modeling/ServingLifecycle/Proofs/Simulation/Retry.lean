import ServingLifecycle.Proofs.Simulation.Books
import ServingLifecycle.Proofs.Simulation.Progress
/-!
# Retries

Whatever has failed before, a deployment that nothing stands in the way of succeeds. Every service that is recorded
for its slot is still known to the backend, so it can be stopped or started again, and whoever is in the critical
section comes to an end. What the deployment answers with is recorded alone; and if the slot has not crashed since
it was refreshed, that service and no other runs.
-/
namespace ServingLifecycle.SlotView
open SimulatedBackend

variable {x : Terms} {i : Identity} {σ : SlotView} {t : TaskId} {action : Action} {d : Service}

/-- If the entries can be relied on for what runs, the service that an operation is about to answer with does. -/
theorem Kept.serves (h : σ.Kept x i) (busy : σ.stage = .busy t (.done ⟨action, .ok (.service d)⟩))
    (current : x.fidelity = .current) (vouches : x.Vouches σ .current) :
    ∃ y ∈ σ.backend.services, y.uuid = d.uuid ∧ y.isRunning = true := by
  obtain ⟨op, stock, holds, work⟩ := h.working busy
  have concludes : Operation.Concludes (x.favoured t) .current op ⟨action, .ok (.service d)⟩ σ.entries stock :=
    work.tracks .current vouches
  obtain ⟨running, alone⟩ := concludes.answered d rfl
  obtain ⟨z, hz, agree⟩ := concludes.records.kept d (by rw [alone]; exact List.mem_singleton_self d)
  obtain ⟨y, hy, agree'⟩ := holds.kept d.uuid z hz
  rw [current] at agree'
  obtain ⟨hm, e⟩ := mem_of_find? hy
  exact ⟨y, hm, e, agree' (agree running)⟩

end ServingLifecycle.SlotView

namespace ServingLifecycle.Simulation
open SlotView

/-- The task is about to stage what cannot be staged. -/
def CannotStage (s : Simulation) (t : TaskId) : Prop :=
  ∃ uri kind root e, s.system.call? t = some (.stage uri kind root) ∧
    (s.locator.locate uri kind root s.world).1 = .error e

/-- Nothing stands in the way of the deployment of the task: the backend stays ready for it, and what it stages can
be staged. -/
def Favourably (request : Request) (t : TaskId) (s : Simulation) (incident : Incident) : Prop :=
  (∀ d, incident = .disturb d → (s.backend.disturb d).Favours request.startTimeout) ∧
    (incident = .step t → ¬ s.CannotStage t)

/-- A task takes a step, or the wait for a call ends. -/
def IsInternal : Incident → Prop
  | .step _ => True
  | .wake .. => True
  | _ => False

/-- No service of the slot has crashed since the start, or since a refresh of the slot that has succeeded. -/
inductive Uncrashed (start : Simulation) (i : Identity) (s : Simulation) : Prop
  | ever (run : Reaches (Spares i) start s)
  | refreshed {s₁ : Simulation} {u : TaskId} {phase : Phase} (before : Reaches (fun _ _ => True) start s₁)
      (quiet : s₁.IsQuiet i) (hu : s₁.system.tasks[u]? = some ⟨.refresh i, phase⟩) (yet : phase.program? = none)
      (since : Reaches (Spares i) s₁ s)
      (done : ∃ phase' action o, s.system.tasks[u]? = some ⟨.refresh i, phase'⟩ ∧ phase'.held = none ∧
        phase'.program? = some (.done ⟨action, .ok o⟩))

variable {s s' s₁ s₂ : Simulation} {i : Identity} {σ : SlotView} {t u : TaskId} {task : Task} {incident : Incident}
  {may may' : Simulation → Incident → Prop} {request : Request} {phase : Phase}

/-- What comes to a slot in a run that favours a deployment to it. -/
theorem Views.admits_favourably (h : s.Views request.identity σ)
    (ht : s.system.tasks[t]? = some ⟨.deploy request, phase⟩) (allowed : Favourably request t s incident) :
    Admits (Terms.Allows ⟨.known, .known, none, some (t, request)⟩) s request.identity σ incident := by
  obtain ⟨ready, staging⟩ := allowed
  intro o occurs
  cases occurs with
  | disturbed d =>
    refine ⟨fun _ _ => Or.inl rfl, nofun, fun f hf => ?_⟩
    cases hf
    rw [h.backend, ← share_disturb]
    exact ⟨(ready d rfl).online, (ready d rfl).responsive, (ready d rfl).prompt⟩
  | entered ht' hi =>
    refine ⟨nofun, fun f hf e => ?_⟩
    cases hf
    subst e
    cases ht.symm.trans ht'
    rfl
  | @staged u uri kind root hcall =>
    intro f hf e
    cases hf
    subst e
    cases hl : (s.locator.locate uri kind root s.world).1 with
    | ok layout => exact ⟨layout, rfl⟩
    | error e => exact absurd ⟨uri, kind, root, e, hcall, hl⟩ (staging rfl)

/-- Left to itself, a task whose way is clear comes to its end. -/
theorem Regular.can_return (regular : s.Regular) (timely : s.Timely) (ht : s.system.tasks[t]? = some task) :
    ∃ s', Reaches (fun s incident => Favourably request t s incident ∧ IsInternal incident) s s' ∧
      (s'.HasReturned t ∨ s'.CannotStage t) := by
  by_cases hindered : ∃ s', Reaches (fun s incident => Favourably request t s incident ∧ IsInternal incident) s s' ∧
      s'.CannotStage t
  · obtain ⟨s', run, hs⟩ := hindered
    exact ⟨s', run, Or.inr hs⟩
  have unhindered : Unhindered (fun s incident => Favourably request t s incident ∧ IsInternal incident) s :=
    ⟨regular, timely, fun u run => ⟨⟨nofun, fun _ hs => hindered ⟨_, run, hs⟩⟩, trivial⟩,
      fun u run => ⟨⟨nofun, nofun⟩, trivial⟩⟩
  obtain ⟨s', run, returned⟩ := unhindered.returns ht
  exact ⟨s', run, Or.inl returned⟩

theorem Reaches.submit (prior : Reaches may s s₁) (op : Operation) (allowed : may s₁ (.submit op)) :
    Reaches may s (s₁.submit op).2 :=
  prior.snoc allowed rfl

theorem submit_of_valid (valid : request.Valid) :
    (s.submit (.deploy request)).2 = { s with system := s.system.submit (.deploy request) } := by
  have accepted : (Operation.deploy request).refusal = none := if_pos valid
  simp only [submit, accepted]

section Fresh

variable {settings : Settings} {metrics : Option Metrics} {locator : Locator StorageWorld} {world : StorageWorld}
  {birth : Nat → Birth}

/-- After any run at all, the books may be kept on other terms. -/
theorem kept_anew {x : Terms} (first : Reaches may (fresh settings metrics locator world birth) s₁)
    (second : Reaches may' s₁ s₂) (distinct : s₂.DistinctBirths)
    (inRange : ∀ f ∈ x.favourite, (f.2.startTimeout.add? settings.backendGrace).isSome = true)
    (anew : ∀ {σ}, s₁.Views i σ → σ.Kept ⟨.known, .known, none, none⟩ i → σ.Kept x i)
    (allows : ∀ {s σ incident}, Reaches may' s₁ s → s.Views i σ → may' s incident → Admits x.Allows s i σ incident) :
    ∃ σ, s₂.Views i σ ∧ σ.Kept x i := by
  have start := regular_fresh settings metrics locator world birth
  have regular := start.reaches first
  obtain ⟨home, first, second⟩ := first.exists_common_home start second distinct fun _ => i
  have athome : (fresh settings metrics locator world birth).AtHome home :=
    atHome_fresh settings metrics locator world birth
  have views := views_fresh settings metrics locator world birth i
  -- nothing is asked of the first run
  have anything : ∀ {s σ incident}, Reaches may (fresh settings metrics locator world birth) s → s.Views i σ →
      may s incident → Admits (Terms.Allows ⟨.known, .known, none, none⟩) s i σ incident :=
    fun _ views _ => views.admits_plain (fun _ _ => Or.inl rfl) nofun nofun
  obtain ⟨settings_eq, σ, steps, views'⟩ := views.reaches start athome first anything
  have kept : σ.Kept ⟨.known, .known, none, none⟩ i := (kept_empty rfl rfl rfl rfl rfl).steps
    (fun f hf => by cases hf) steps
  refine views'.kept (anew views' kept) ?_ regular (athome.reaches start first) second allows
  rw [settings_eq]
  exact inRange

/-- If a slot has not crashed since it was refreshed, its entries can be relied on for what runs. -/
theorem Uncrashed.kept (h : Uncrashed (fresh settings metrics locator world birth) i s)
    (distinct : s.DistinctBirths) : ∃ σ x, s.Views i σ ∧ σ.Kept x i ∧ x.fidelity = .current ∧ x.Vouches σ .current := by
  cases h with
  | ever run =>
    obtain ⟨σ, views, kept⟩ := kept_of_run (x := ⟨.current, .current, none, none⟩) (i := i) rfl run distinct
      fun _ views spares => views.admits_plain (fun u hu => Or.inr (spares u hu)) nofun nofun
    exact ⟨σ, _, views, kept, rfl, Or.inl rfl⟩
  | @refreshed s₁ u phase before quiet hu yet since done =>
    have regular := (regular_fresh settings metrics locator world birth).reaches before
    obtain ⟨σ, views, kept⟩ : ∃ σ, s.Views i σ ∧ σ.Kept ⟨.current, .known, some u, none⟩ i := by
      refine kept_anew before since distinct (fun f hf => by cases hf) (fun views kept => ?_)
        fun run views spares => views.admits_plain (fun u hu => Or.inr (spares u hu)) nofun fun {t task} hm ht => ?_
      · exact kept.reopen (views.idle (isQuiet_iff.mp quiet)) (views.unseen hu yet).1
      · cases hm
        obtain ⟨phase', hu'⟩ := run.exists_phase regular hu
        obtain rfl := Option.some.inj (hu'.symm.trans ht)
        exact ⟨i, rfl⟩
    obtain ⟨phase', action, o, hu', unheld, program⟩ := done
    refine ⟨σ, _, views, kept, rfl, Or.inr ⟨rfl, u, rfl, action, o, (views.ended u _).mpr ?_⟩⟩
    have hg := glance_self hu' (i := i) rfl
    rw [unheld, program] at hg
    exact hg

/-- The deployment of a slot that nothing stands in the way of ends with a service that runs, and as long as it
holds the lock nothing else is recorded. -/
theorem Views.answered {x : Terms} (h : s.Views request.identity σ) (kept : σ.Kept x request.identity)
    (favourite : x.favourite = some (t, request)) (regular : s.Regular)
    (ht : s.system.tasks[t]? = some ⟨.deploy request, phase⟩) {p : Program Verdict} (program : phase.program? = some p)
    (hover : p.isOver = true) : ∃ action d, p = .done ⟨action, .ok (.service d)⟩ ∧ d.isRunning = true ∧
      (phase.held.isSome = true → s.system.registry.find request.identity = [d]) := by
  cases held : phase.held with
  | none =>
    have ended : σ.ended t = some p := by
      refine (h.ended t p).mpr ?_
      have hg := glance_self ht (i := request.identity) rfl
      rw [held, program] at hg
      exact hg
    obtain ⟨action, d, rfl, running⟩ := kept.served _ favourite p ended
    exact ⟨action, d, rfl, running, nofun⟩
  | some lock =>
    have busy := h.busy_of_over regular ht rfl (by rw [held]; rfl) program hover
    obtain ⟨op, stock, holds, work⟩ := kept.working busy
    have favoured : (x.favoured t).isSome = true := by
      rw [show x.favoured t = _ from Terms.favoured_eq favourite]
      rfl
    obtain ⟨action, d, rfl, running, alone⟩ := work.answered hover favoured
    exact ⟨action, d, rfl, running, fun _ => h.entries ▸ alone⟩

/-- A service that an operation is about to answer with runs alone, if its slot has not crashed since it was
refreshed. -/
theorem Uncrashed.runs_alone (h : Uncrashed (fresh settings metrics locator world birth) i s)
    (run : Reaches may (fresh settings metrics locator world birth) s) (distinct : s.DistinctBirths)
    (ht : s.system.tasks[t]? = some task) (hi : task.operation.identity = i) (held : task.phase.held.isSome = true)
    {action : Action} {d : Service} (program : task.phase.program? = some (.done ⟨action, .ok (.service d)⟩)) :
    ∃ y, y.uuid = d.uuid ∧ (s.backend.servicesOf i).filter Service.isRunning = [y] := by
  have regular := (regular_fresh settings metrics locator world birth).reaches run
  obtain ⟨σ, x, views, kept, current, vouches⟩ := h.kept distinct
  have busy := views.busy_of_over regular ht hi held program rfl
  obtain ⟨y, hy, e, running⟩ := kept.serves busy current vouches
  have still : Reaches may s s := .refl
  obtain ⟨single, _⟩ := sound_of_served run ⟨task, action, d, ht, hi, held, program⟩ still distinct
  rw [views.backend] at hy
  have hm : y ∈ (s.backend.servicesOf i).filter Service.isRunning := List.mem_filter.mpr ⟨hy, running⟩
  obtain ⟨z, hz⟩ := List.length_eq_one_iff.mp (Nat.le_antisymm single.backend (List.length_pos_of_mem hm))
  rw [hz] at hm ⊢
  exact ⟨z, List.mem_singleton.mp hm ▸ e, rfl⟩

/-- Whatever has happened before, a valid deployment that is submitted when the backend is ready for it, and is
favoured from then on, can always come to its end, and ends with a service that runs, the only one that is recorded
when it leaves. If the slot has not crashed since it was refreshed, that service is the only one that runs. -/
theorem deployment_succeeds (valid : request.Valid)
    (inRange : (request.startTimeout.add? settings.backendGrace).isSome = true)
    (past : Reaches may (fresh settings metrics locator world birth) s)
    (ready : s.backend.Favours request.startTimeout) (new : t = s.system.tasks.length)
    (run : Reaches (Favourably request t) (s.submit (.deploy request)).2 s') :
    (∃ s'', Reaches (fun s incident => Favourably request t s incident ∧ IsInternal incident) s' s'' ∧
        (s''.HasReturned t ∨ s''.CannotStage t))
    ∧ (s'.DistinctBirths → ∀ task p, s'.system.tasks[t]? = some task → task.phase.program? = some p →
      p.isOver = true → ∃ action d, p = .done ⟨action, .ok (.service d)⟩ ∧ d.isRunning = true ∧
        (task.phase.held.isSome = true → s'.system.registry.find request.identity = [d] ∧
          (Uncrashed (fresh settings metrics locator world birth) request.identity s' →
            ∃ y, y.uuid = d.uuid ∧
              (s'.backend.servicesOf request.identity).filter Service.isRunning = [y]))) := by
  have start := regular_fresh settings metrics locator world birth
  have first : Reaches (fun _ _ => True) (fresh settings metrics locator world birth)
      (s.submit (.deploy request)).2 := (past.mono fun _ _ _ => trivial).submit _ trivial
  have whole := first.trans (run.mono fun _ _ _ => trivial)
  rw [submit_of_valid valid] at first run
  have submitted : (s.system.submit (.deploy request)).tasks[t]? = some ⟨.deploy request, .arriving⟩ := by
    rw [System.getElem?_submit, if_pos new]
  have regular := start.reaches first
  have regular' := start.reaches whole
  obtain ⟨phase, ht⟩ := run.exists_phase regular submitted
  refine ⟨regular'.can_return ((timely_fresh settings metrics locator world birth).reaches start whole) ht,
    fun distinct task p ht' program hover => ?_⟩
  obtain rfl := Option.some.inj (ht.symm.trans ht')
  obtain ⟨σ, views, kept⟩ : ∃ σ, s'.Views request.identity σ ∧
      σ.Kept ⟨.known, .known, none, some (t, request)⟩ request.identity := by
    refine kept_anew first run distinct (fun f hf => ?_) (fun views kept => ?_) fun before views allowed => ?_
    · cases hf
      exact inRange
    · obtain ⟨unfinished, away⟩ := views.unseen submitted rfl
      refine kept.favour rfl ?_ unfinished away
      rw [views.backend]
      exact ⟨ready.online, ready.responsive, ready.prompt⟩
    · obtain ⟨phase, ht⟩ := before.exists_phase regular submitted
      exact views.admits_favourably ht allowed
  obtain ⟨action, d, rfl, running, recorded⟩ := views.answered kept rfl regular' ht program hover
  exact ⟨action, d, rfl, running, fun held => ⟨recorded held, fun uncrashed =>
    uncrashed.runs_alone whole distinct ht rfl held program⟩⟩

/-- What is served where it is stored can always be staged. -/
theorem not_cannotStage (passthrough : s.locator.policies = []) : ¬ s.CannotStage t := by
  rintro ⟨uri, kind, root, e, _, he⟩
  simp [Locator.locate, PolicyTable.policy, passthrough] at he

/-- A deployment to the slot of the samples, with the gate closed. -/
def sampleRetry : Request :=
  ⟨sampleDeployment.identity, "run", "/models/iris", .sklearn, false, defaultStartTimeout, none⟩

/-- The deployment of the samples has failed in an outage, which is over. -/
def sampleFailed : Simulation :=
  (sampleStart.run (.disturb (.setOffline true) :: .submit sampleDeployment ::
    .replicate 7 (.step 0) ++ [.disturb (.setOffline false)])).get rfl

/-- The deployment that came after it has succeeded and still holds its lock. -/
def sampleRetried : Simulation :=
  ((sampleFailed.submit (.deploy sampleRetry)).2.run (.replicate 5 (.step 1) ++ [.wake 0 1, .step 1])).get rfl

theorem deployment_succeeds_after_outage :
    sampleFailed.HasFailed sampleDeployment.identity 0
      ∧ ∃ d, d.isRunning = true ∧ sampleRetried.system.registry.find sampleRetry.identity = [d]
        ∧ ∃ y, y.uuid = d.uuid
          ∧ (sampleRetried.backend.servicesOf sampleRetry.identity).filter Service.isRunning = [y] := by
  have past : Reaches (Spares sampleRetry.identity) sampleStart sampleFailed := by
    refine Reaches.refl.run (Option.some_get _).symm fun s incident hm u hu => ?_
    subst hu
    simp at hm
  have regular := (regular_fresh _ _ _ _ _).reaches (past.submit (.deploy sampleRetry) fun _ => nofun)
  have run : Reaches (Favourably sampleRetry 1) (sampleFailed.submit (.deploy sampleRetry)).2 sampleRetried := by
    refine Reaches.refl.run_along (Option.some_get _).symm fun s run incident hm => ⟨fun d hd => ?_, fun _ => ?_⟩
    · subst hd
      simp at hm
    · exact not_cannotStage (by rw [run.locator_eq regular]; rfl)
  have distinct : sampleRetried.DistinctBirths := by
    intro m n hm hn e
    have hb : sampleRetried.births = 2 := rfl
    have hne : (sampleRetried.birth 0).uuid ≠ (sampleRetried.birth 1).uuid := by decide
    obtain rfl | rfl : m = 0 ∨ m = 1 := by omega
    · obtain rfl | rfl : n = 0 ∨ n = 1 := by omega
      · rfl
      · exact absurd e hne
    · obtain rfl | rfl : n = 0 ∨ n = 1 := by omega
      · exact absurd e.symm hne
      · rfl
  have uncrashed : Uncrashed sampleStart sampleRetry.identity sampleRetried := by
    refine .ever ((past.submit (.deploy sampleRetry) fun _ => nofun).run (Option.some_get _).symm
      fun s incident hm u hu => ?_)
    subst hu
    simp at hm
  have ready : sampleFailed.backend.Favours sampleRetry.startTimeout := ⟨rfl, rfl, by decide⟩
  obtain ⟨_, succeeds⟩ := deployment_succeeds (by decide) rfl past ready rfl run
  obtain ⟨action, d, _, running, recorded⟩ := succeeds distinct _ _ rfl rfl rfl
  obtain ⟨alone, serves⟩ := recorded rfl
  exact ⟨⟨_, _, _, rfl, rfl, rfl, rfl⟩, d, running, alone, serves uncrashed⟩

end Fresh

end ServingLifecycle.Simulation
