import ServingLifecycle.Proofs.Simulation.Single
import ServingLifecycle.Proofs.Slot.Survey
/-!
# What a stop leaves up

A stop or a deletion that succeeds leaves no service up that was recorded when it began, whatever has happened
before, but for one kind. Where a start was cut off by its deadline and the entry has stood unchanged since, the
service may still be on its way up; if the entry says that it is down, it is not asked to stop.
-/
namespace ServingLifecycle.Simulation
open SlotView

/-- A start of the service was cut off by its deadline while the service was recorded for the slot, and it has
been recorded just as it is ever since. -/
inductive Adrift (may : Simulation → Incident → Prop) (s₀ : Simulation) (i : Identity) (d : Service) :
    Simulation → Prop
  | cut {s s' : Simulation} {f : InFlight} {moment : Nat} {timeout deadline : Duration} (run : Reaches may s₀ s)
      (recorded : d ∈ s.system.registry.find i) (waits : f ∈ s.inFlight) (unheard : f.startup = none)
      (asked : s.system.call? f.task = some (.askWithin (.start d timeout) deadline))
      (allowed : may s (.wake moment f.task)) (last : s.after (.wake moment f.task) = some s') :
      Adrift may s₀ i d s'
  | kept {s s' : Simulation} {incident : Incident} (prior : Adrift may s₀ i d s)
      (recorded : d ∈ s.system.registry.find i) (allowed : may s incident) (last : s.after incident = some s') :
      Adrift may s₀ i d s'

variable {s₀ s s' : Simulation} {i : Identity} {σ σ' : SlotView} {t : TaskId} {incident : Incident}
  {may : Simulation → Incident → Prop} {home : Uuid → Identity} {pledge : Option Pledge}

/-- Only the end of its wait makes a task go on from a call in flight. -/
theorem Move.wakes (move : Move s incident s') {f : InFlight} (hf : f ∈ s.inFlight)
    (free : ∀ g ∈ s'.inFlight, g.task ≠ f.task) : ∃ moment, incident = .wake moment f.task := by
  have woken : ∀ {moment : Nat} {g : InFlight},
      s'.inFlight = (s.inFlight.filter fun other => other.task ≠ g.task) →
        ∃ moment', Incident.wake moment g.task = .wake moment' f.task := by
    intro moment g inFlight
    by_cases e : f.task = g.task
    · exact ⟨moment, by rw [e]⟩
    · refine absurd rfl (free f ?_)
      rw [inFlight]
      exact List.mem_filter.mpr ⟨hf, by simpa using e⟩
  cases move with
  | submitted | refused | turned | answered | disturbed | stored => exact absurd rfl (free f hf)
  | suspended => exact absurd rfl (free f (List.mem_append_left _ hf))
  | finished | late => exact woken rfl

/-- A slot that waits for a call has it in flight. -/
theorem Views.exists_inFlight {p : Program Verdict} {startup : Option Startup} (h : s.Views i σ)
    (regular : s.Regular) (hs : σ.stage = .waiting t p startup) :
    ∃ f ∈ s.inFlight, f.task = t ∧ f.startup = startup ∧
      ∀ {c : Call} {next : c.Reply → Program Verdict}, p = .call c next → s.system.call? t = some c := by
  have stage := h.stage
  rw [hs] at stage
  obtain ⟨hg, ⟨f, hf, rfl⟩, only⟩ := stage
  refine ⟨f, hf, rfl, only f hf rfl, fun {c next} hp => ?_⟩
  obtain ⟨op, lock, c', next', ht, _⟩ := regular.awaited f hf
  obtain ⟨task, ht', _, hx⟩ := exists_of_glance hg
  obtain rfl := Option.some.inj (ht.symm.trans ht')
  subst hp
  cases (Prod.mk.inj hx).2
  exact call?_of_task ht

/-- A survey outlasts every run. The entries that are adrift in the slot are so in the simulation. -/
theorem Views.surveyed (h : s.Views i σ) (surveyed : σ.Surveyed (fun d => Adrift may s₀ i d s) pledge i)
    (past : Reaches may s₀ s) (regular : s.Regular) (athome : s.AtHome home)
    (run : Reaches (fun s incident => may s incident ∧ BornAtHome home s incident) s s') :
    ∃ σ', s'.Views i σ' ∧ σ'.Surveyed (fun d => Adrift may s₀ i d s') pledge i := by
  induction run with
  | refl => exact ⟨σ, h, surveyed⟩
  | @snoc s₁ s₂ incident prior allowed last ih =>
    obtain ⟨σ₁, views, surveyed⟩ := ih
    have regular₁ := regular.reaches prior
    have move := regular₁.move_of_after last
    have past₁ := past.trans (prior.mono fun _ _ h => h.1)
    have admits : Admits (fun _ _ => True) s₁ i σ₁ incident := fun _ _ => trivial
    obtain ⟨σ₂, step, views'⟩ := views.move regular₁ (athome.reaches regular prior) allowed.2 admits move
    have surveyed' : σ₁.Surveyed (fun d => Adrift may s₀ i d s₂) pledge i :=
      surveyed.mono fun d hd adrift => .kept adrift (views.entries ▸ hd) allowed.1 last
    rcases step with _ | step
    · exact ⟨σ₁, views', surveyed'⟩
    · refine ⟨σ₂, views', surveyed'.step step fun {t asked timeout deadline p next} hs hs' recorded => ?_⟩
      obtain ⟨f, hf, rfl, unheard, asks⟩ := views.exists_inFlight regular₁ hs
      have stage := views'.stage
      rw [hs'] at stage
      obtain ⟨moment, rfl⟩ := move.wakes hf stage.2
      exact .cut past₁ (views.entries ▸ recorded) hf unheard (asks rfl) allowed.1 last

/-- A task that waits for its lock and takes a step has found its slot idle, and runs its program from then on. -/
theorem Views.begins {op : Operation} {lock : LockId} (h : s.Views i σ) (regular : s.Regular)
    (ht : s.system.tasks[t]? = some ⟨op, .waiting lock⟩) (hi : op.identity = i) (move : Move s (.step t) s') :
    σ.stage = .idle ∧ s'.Views i { σ with stage := .busy t (op.program s.system.settings) } := by
  cases move with
  | turned ht' turn free plain staged =>
    obtain rfl := Option.some.inj (ht.symm.trans ht')
    cases turn with
    | enter hp lockFree =>
      cases hp
      suffices entered : σ.stage = .idle ∧ σ.ended t = none ∧ _ from ⟨entered.1, entered.2.2⟩
      exact h.enter regular ht hi rfl lockFree rfl rfl rfl free
    | arrive hp | access hp | breakOff hp | count hp | abort hp | release hp | giveUp hp | leave hp | unlock hp
    | crash hp => cases hp
  | answered ht' | suspended ht' => cases ht.symm.trans ht'

/-- A stop or a deletion of the slot gets its lock in the state `s` of a run, and in the state `s'` it has
succeeded and is about to let go of it. -/
inductive ShutsDown (may : Simulation → Incident → Prop) (s₀ : Simulation) (i : Identity) (s s' : Simulation) : Prop
  | intro {t : TaskId} {op : Operation} {lock : LockId} {begun : Simulation} {phase : Phase} {verdict : Verdict}
      {o : Outcome} (run : Reaches may s₀ s) (which : op = .stop i ∨ op = .delete i)
      (waits : s.system.tasks[t]? = some ⟨op, .waiting lock⟩) (allowed : may s (.step t))
      (enters : s.after (.step t) = some begun) (later : Reaches may begun s')
      (through : s'.system.tasks[t]? = some ⟨op, phase⟩) (held : phase.held.isSome = true)
      (program : phase.program? = some (.done verdict)) (ok : verdict.result = .ok o)

section Fresh

variable {settings : Settings} {metrics : Option Metrics} {locator : Locator StorageWorld} {world : StorageWorld}
  {birth : Nat → Birth}

/-- When a stop or a deletion has succeeded, no service that was recorded when it began is running, and the only
ones starting are of entries that are recorded as down since before a start of them was cut off. -/
theorem shutdown_brings_down (shut : ShutsDown may (fresh settings metrics locator world birth) i s s')
    (distinct : s'.DistinctBirths) :
    ∀ d ∈ s.system.registry.find i, ∃ service, s'.backend.find? d.uuid = some service ∧
      service.state ≠ .running ∧ (service.state = .starting →
        d.state.isDown = true ∧ Adrift may (fresh settings metrics locator world birth) i d s) := by
  obtain ⟨run, which, waits, allowed, enters, later, through, held, program, ok⟩ := shut
  rename_i t op lock begun phase verdict o
  have hi : op.identity = i := by rcases which with rfl | rfl <;> rfl
  have halts : op.halts = true := by rcases which with rfl | rfl <;> rfl
  have regular₀ := regular_fresh settings metrics locator world birth
  have regular := regular₀.reaches run
  have move := regular.move_of_after enters
  have regular' := regular.move move
  -- all services are at home, those of before and those of after the operation has got its lock
  obtain ⟨home₁, _, run'⟩ := run.exists_home regular₀
    (move.distinctBirths (later.distinctBirths regular' distinct)) fun _ => i
  obtain ⟨home, same, later'⟩ := later.exists_home regular' distinct home₁
  have run' : Reaches (fun s incident => may s incident ∧ BornAtHome home s incident)
      (fresh settings metrics locator world birth) s := by
    refine run'.bornAtHome_congr regular₀ fun n hn => ?_
    rw [← move.birth_eq]
    exact same n (Nat.lt_of_lt_of_le hn move.births_le)
  have athome := (atHome_fresh settings metrics locator world birth).reaches regular₀ run'
  have born : BornAtHome home s (.step t) := by
    rintro _ c bc ⟨⟩ hcall
    simp [System.call?, waits] at hcall
  have athome' := athome.move regular born move
  obtain ⟨σ, views, surveyed⟩ := (views_fresh settings metrics locator world birth i).surveyed
    (surveyed_empty rfl rfl rfl) .refl regular₀ (atHome_fresh settings metrics locator world birth) run'
  obtain ⟨idle, views'⟩ := views.begins regular waits hi move
  obtain ⟨adrift, strays, watched⟩ := surveyed.watch idle op
  obtain ⟨σ', views'', surveyed'⟩ := views'.surveyed
    (watched.mono fun d hd adrift => .kept adrift (views.entries ▸ hd) allowed enters)
    (run.snoc allowed enters) regular' athome' later'
  obtain ⟨w, covers, kept⟩ := surveyed'.fulfilled
    (views''.busy_of_over (regular'.reaches later) through hi held program rfl)
  intro d hd
  obtain ⟨x, hx, level⟩ := kept halts o ok d (views.entries.symm ▸ hd)
  obtain ⟨service, hservice, le⟩ := covers d.uuid x hx
  rw [views''.backend, (athome'.reaches regular' later').backend.find?_share (athome.registry i d hd).2] at hservice
  have le : service.state.level ≤ x.state.level := le
  refine ⟨service, hservice, fun running => ?_, fun starting => ?_⟩
  · have two : service.state.level = 2 := by rw [running]; rfl
    omega
  · have one : service.state.level = 1 := by rw [starting]; rfl
    obtain ⟨_, down, hd⟩ := level.resolve_left (by omega)
    exact ⟨down, strays d hd⟩

end Fresh

/-- The service that the deployment of the samples has made. -/
def sampleService : Service :=
  (sampleLeft.backend.services[0]?).get rfl

def withRegistry (s : Simulation) (r : Registry) : Simulation :=
  { s with system := { s.system with registry := r } }

theorem Reaches.withRegistry {r : Registry} (run : Reaches may s₀ s) (h : s.system.registry = r) :
    Reaches may s₀ (s.withRegistry r) := by
  subst h
  exact run

/-- A stop of the deployed service waits for its lock. -/
def sampleStopping : Simulation :=
  ((sampleLeft.withRegistry ⟨[sampleService]⟩).run [.submit (.stop sampleDeployment.identity), .step 1]).get rfl

/-- The stop has succeeded and still holds its lock. -/
def sampleStopped : Simulation :=
  (sampleStopping.run (.replicate 4 (.step 1))).get rfl

theorem reaches_sampleStopping : Reaches (fun _ _ => True) sampleStart sampleStopping := by
  have deployed : Reaches (fun _ _ => True) sampleStart sampleLeft :=
    (Reaches.refl.run (Option.some_get _).symm fun _ _ _ => trivial : Reaches _ _ sampleServed).run
      (Option.some_get _).symm fun _ _ _ => trivial
  exact (deployed.withRegistry (Registry.record_empty sampleService)).run (Option.some_get _).symm
    fun _ _ _ => trivial

theorem shutsDown_sampleStopped :
    ShutsDown (fun _ _ => True) sampleStart sampleDeployment.identity sampleStopping sampleStopped := by
  have later : Reaches (fun _ _ => True) ((sampleStopping.after (.step 1)).get rfl) sampleStopped :=
    Reaches.refl.run (show run _ (.replicate 3 (.step 1)) = _ from rfl) fun _ _ _ => trivial
  exact .intro reaches_sampleStopping (Or.inl rfl) rfl trivial (Option.some_get _).symm later rfl rfl rfl rfl

theorem distinctBirths_of_births {s : Simulation} (h : s.births = 1) : s.DistinctBirths := by
  intro m n hm hn _
  omega

theorem shutdown_brings_down_deployed :
    sampleStopping.system.registry.find sampleDeployment.identity = [sampleService] ∧
      sampleService.state = .running ∧ ∃ service, sampleStopped.backend.find? sampleService.uuid = some service ∧
        service.state ≠ .running ∧ service.state ≠ .starting := by
  have recorded : sampleStopping.system.registry.find sampleDeployment.identity = [sampleService] := rfl
  obtain ⟨service, hservice, down, starting⟩ := shutdown_brings_down shutsDown_sampleStopped
    (distinctBirths_of_births rfl) sampleService (by rw [recorded]; exact List.mem_singleton_self _)
  exact ⟨recorded, rfl, service, hservice, down, fun hs => nomatch (starting hs).1⟩

/-- A start of the stopped service has been cut off by its deadline, and another stop waits for its lock. -/
def sampleMissing : Simulation :=
  ((sampleStopped.withRegistry ⟨[sampleService.withState .stopped]⟩).run
    (.replicate 2 (.step 1) ++ .disturb (.setUnresponsive true) :: .submit (.start sampleDeployment.identity none) ::
      .replicate 4 (.step 2) ++ .wake 0 2 :: .replicate 2 (.step 2) ++
      [.disturb (.setUnresponsive false), .submit (.stop sampleDeployment.identity), .step 3])).get rfl

/-- That stop has succeeded and still holds its lock. -/
def sampleMissed : Simulation :=
  (sampleMissing.run (.replicate 2 (.step 3))).get rfl

/-- A service whose entry is adrift outlasts a stop that succeeds. -/
theorem shutdown_misses_starting :
    ShutsDown (fun _ _ => True) sampleStart sampleDeployment.identity sampleMissing sampleMissed ∧
      sampleMissed.DistinctBirths ∧
      ∃ d ∈ sampleMissing.system.registry.find sampleDeployment.identity, ∃ service,
        sampleMissed.backend.find? d.uuid = some service ∧ service.state = .starting := by
  have stopped : Reaches (fun _ _ => True) sampleStart sampleStopped :=
    reaches_sampleStopping.run (Option.some_get _).symm fun _ _ _ => trivial
  have missing : Reaches (fun _ _ => True) sampleStart sampleMissing :=
    (stopped.withRegistry (Registry.record_singleton (s := sampleService) rfl rfl)).run (Option.some_get _).symm
      fun _ _ _ => trivial
  have later : Reaches (fun _ _ => True) ((sampleMissing.after (.step 3)).get rfl) sampleMissed :=
    Reaches.refl.run (show run _ [.step 3] = _ from rfl) fun _ _ _ => trivial
  have recorded : sampleService.withState .stopped ∈
      sampleMissing.system.registry.find sampleDeployment.identity := by
    rw [show sampleMissing.system.registry.find sampleDeployment.identity =
      [sampleService.withState .stopped] from rfl]
    exact List.mem_singleton_self _
  exact ⟨.intro missing (Or.inl rfl) rfl trivial (Option.some_get _).symm later rfl rfl rfl rfl,
    distinctBirths_of_births rfl, _, recorded, _, rfl, rfl⟩

end ServingLifecycle.Simulation
