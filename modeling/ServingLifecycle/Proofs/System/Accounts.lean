import ServingLifecycle.Proofs.Operation.Attribution
import ServingLifecycle.Proofs.Operation.Displacement
import ServingLifecycle.Proofs.System.Retained
import ServingLifecycle.Simulation.Clock
/-!
# Accounts

The metrics count the outcome of every operation once, under the action that the operation attempted: the totals
are those of the outcomes, however the operations interleave. Operations that are turned away are not counted.
-/
namespace ServingLifecycle
open Program Operation

/-- The outcome of a task, from when it has been counted. -/
def Phase.verdict? : Phase → Option Verdict
  | counted _ verdict => some verdict
  | released _ verdict => some verdict
  | leaving verdict => some verdict
  | finished verdict => some verdict
  | _ => none

namespace Verdict

def succeededAs (action : Action) (v : Verdict) : Bool :=
  match v.result with
  | .ok _ => v.attempted = action
  | .error _ => false

def failedAs (action : Action) (v : Verdict) : Bool :=
  match v.result with
  | .ok _ => false
  | .error e => e.action = action

def failedFor (action : Action) (label : String) (v : Verdict) : Bool :=
  match v.result with
  | .ok _ => false
  | .error e => (e.action, e.failure.label) = (action, label)

end Verdict

namespace Metrics

/-- The metrics after an outcome. -/
def counted (m : Metrics) (verdict : Verdict) (seconds : Float) : Metrics :=
  match verdict.result with
  | .ok _ => m.recordSuccess verdict.attempted seconds
  | .error e => m.recordFailure e.action e.failure.label seconds

/-- The metrics are those of some outcomes. -/
structure Balanced (m : Metrics) (outcomes : List Verdict) : Prop where
  successes : ∀ action, m.actions.count action = outcomes.countP (·.succeededAs action)
  failures : ∀ action label, m.failures.count (action, label) = outcomes.countP (·.failedFor action label)
  samples : ∀ action, (m.samples action).length =
    outcomes.countP (·.succeededAs action) + outcomes.countP (·.failedAs action)

theorem balanced_empty : empty.Balanced [] :=
  ⟨fun _ => rfl, fun _ _ => rfl, fun _ => rfl⟩

variable {m : Metrics} {outcomes outcomes' : List Verdict}

theorem Balanced.perm (h : m.Balanced outcomes) (same : outcomes.Perm outcomes') : m.Balanced outcomes' where
  successes action := (h.successes action).trans (same.countP_eq _)
  failures action label := (h.failures action label).trans (same.countP_eq _)
  samples action := by rw [h.samples, same.countP_eq, same.countP_eq]

theorem length_samples_of_durations {m' : Metrics} {action : Action} {seconds : Float}
    (h : m'.durations = m.durations ++ [(action, seconds)]) (other : Action) :
    (m'.samples other).length = (m.samples other).length + if action = other then 1 else 0 := by
  by_cases same : action = other <;> simp [Metrics.samples, h, same]

/-- Every outcome is counted in one series and timed in one. -/
theorem Balanced.counted (h : m.Balanced outcomes) (verdict : Verdict) (seconds : Float) :
    (m.counted verdict seconds).Balanced (verdict :: outcomes) := by
  obtain ⟨attempted, result⟩ := verdict
  cases result with
  | ok outcome =>
    refine ⟨fun action => ?_, fun action label => ?_, fun action => ?_⟩
    · simp [Metrics.counted, recordSuccess, Counters.count_add, h.successes, List.countP_cons,
        Verdict.succeededAs]
    · simp [Metrics.counted, recordSuccess, h.failures, Verdict.failedFor]
    · have timed : (m.recordSuccess attempted seconds).durations = m.durations ++ [(attempted, seconds)] := rfl
      simp only [Metrics.counted, length_samples_of_durations timed, h.samples]
      simp only [List.countP_cons, Verdict.succeededAs, Verdict.failedAs, decide_eq_true_eq, Bool.false_eq_true,
        if_false]
      omega
  | error e =>
    refine ⟨fun action => ?_, fun action label => ?_, fun action => ?_⟩
    · simp [Metrics.counted, recordFailure, h.successes, Verdict.succeededAs]
    · simp [Metrics.counted, recordFailure, Counters.count_add, h.failures, List.countP_cons,
        Verdict.failedFor]
    · have timed : (m.recordFailure e.action e.failure.label seconds).durations =
          m.durations ++ [(e.action, seconds)] := rfl
      simp only [Metrics.counted, length_samples_of_durations timed, h.samples]
      simp only [List.countP_cons, Verdict.succeededAs, Verdict.failedAs, decide_eq_true_eq, Bool.false_eq_true,
        if_false]
      omega

end Metrics

namespace System

/-- The outcomes that have been counted. -/
def outcomes (s : System) : List Verdict :=
  s.tasks.filterMap fun task => task.phase.verdict?

/-- There are metrics, and they are those of the outcomes. -/
def Balanced (s : System) : Prop :=
  ∃ m, s.metrics = some m ∧ m.Balanced s.outcomes

variable {s s' : System} {t : TaskId} {task : Task} {phase : Phase}

/-- The place of a task among all. -/
theorem exists_tasks_eq (ht : s.tasks[t]? = some task) : ∃ before after,
    s.tasks = before ++ task :: after
      ∧ ∀ phase, (s.setPhase t phase).tasks = before ++ { task with phase := phase } :: after := by
  obtain ⟨lt, rfl⟩ := List.getElem?_eq_some_iff.mp ht
  refine ⟨s.tasks.take t, s.tasks.drop (t + 1), ?_, fun phase => ?_⟩
  · rw [List.getElem_cons_drop, List.take_append_drop]
  · exact List.modify_eq_take_cons_drop lt

theorem outcomes_setPhase_of_same (ht : s.tasks[t]? = some task)
    (same : phase.verdict? = task.phase.verdict?) : (s.setPhase t phase).outcomes = s.outcomes := by
  obtain ⟨before, after, tasks, tasks'⟩ := exists_tasks_eq ht
  unfold outcomes
  rw [tasks, tasks', List.filterMap_append, List.filterMap_append, List.filterMap_cons, List.filterMap_cons, same]

theorem outcomes_setPhase_of_counted {verdict : Verdict} (ht : s.tasks[t]? = some task)
    (uncounted : task.phase.verdict? = none) (counted : phase.verdict? = some verdict) :
    (verdict :: s.outcomes).Perm (s.setPhase t phase).outcomes := by
  obtain ⟨before, after, tasks, tasks'⟩ := exists_tasks_eq ht
  unfold outcomes
  simp only [tasks, tasks', List.filterMap_append, List.filterMap_cons, uncounted, counted]
  exact List.perm_middle.symm

/-- What a turn does to the outcomes and to the metrics. -/
inductive Tally (s : System) (task : Task) (phase : Phase) (metrics : Option Metrics) : Prop
  | same (outcome : phase.verdict? = task.phase.verdict?) (metrics : metrics = s.metrics)
  | counted {verdict : Verdict} {seconds : Float} (before : task.phase.verdict? = none)
      (after : phase.verdict? = some verdict) (metrics : metrics = s.metrics.map (·.counted verdict seconds))

theorem Turn.tally {o : Option Observation} (turn : s.Turn t task o s') :
    ∃ phase, s'.tasks = (s.setPhase t phase).tasks ∧ s.Tally task phase s'.metrics := by
  cases turn with
  | arrive h =>
    have hm : (s.lookUp task.operation.identity).2.metrics = s.metrics := by
      unfold lookUp
      split <;> rfl
    exact ⟨_, congrArg (List.modify · t _) (tasks_lookUp s _), .same (by rw [h]; rfl) hm⟩
  | enter h free => exact ⟨_, rfl, .same (by rw [h]; rfl) rfl⟩
  | access h step => exact ⟨_, rfl, .same (by rw [h]; rfl) rfl⟩
  | breakOff h step => exact ⟨_, rfl, .same (by rw [h]; rfl) rfl⟩
  | count h => exact ⟨_, rfl, .counted (by rw [h]; rfl) rfl rfl⟩
  | abort h => exact ⟨_, rfl, .same (by rw [h]; rfl) rfl⟩
  | release h => exact ⟨_, rfl, .same (by rw [h]; rfl) rfl⟩
  | giveUp h => exact ⟨_, rfl, .same (by rw [h]; rfl) rfl⟩
  | leave h => exact ⟨_, rfl, .same (by rw [h]; rfl) rfl⟩
  | unlock h => exact ⟨_, rfl, .same (by rw [h]; rfl) rfl⟩
  | crash h => exact ⟨_, rfl, .same (by rw [h]; rfl) rfl⟩

theorem Balanced.step (h : s.Balanced) {e : Event} (step : s.step e = some s') : s'.Balanced := by
  obtain ⟨m, hm, balanced⟩ := h
  rcases turn_of_step step with ⟨operation, rfl, rfl⟩ | ⟨t, task, o, _, ht, turn, _⟩
  · have same : (s.submit operation).outcomes = s.outcomes := by
      simp [outcomes, submit, Phase.verdict?]
    exact ⟨m, hm, same ▸ balanced⟩
  · obtain ⟨phase, tasks, tally⟩ := turn.tally
    have outcomes_eq : s'.outcomes = (s.setPhase t phase).outcomes := congrArg (List.filterMap _) tasks
    cases tally with
    | same outcome metrics =>
      refine ⟨m, metrics.trans hm, ?_⟩
      rw [outcomes_eq, outcomes_setPhase_of_same ht outcome]
      exact balanced
    | @counted verdict seconds before after metrics =>
      refine ⟨m.counted verdict seconds, by rw [metrics, hm]; rfl, ?_⟩
      rw [outcomes_eq]
      exact (balanced.counted _ _).perm (outcomes_setPhase_of_counted ht before after)

theorem Balanced.run (h : s.Balanced) {events : List Event} (run : s.run events = some s') : s'.Balanced := by
  induction events generalizing s with
  | nil => exact Option.some.inj run ▸ h
  | cons e es ih =>
    obtain ⟨s₁, step, run⟩ := Option.bind_eq_some_iff.mp run
    exact ih (h.step step) run

/-- What each operation yields by itself holds of the tasks so far, by what was seen of them. -/
structure Followed (post : Operation → Verdict → List Access → Prop) (s : System)
    (seen : Identity → List (TaskId × Observation)) : Prop where
  unseen : ∀ {t : TaskId}, (∀ task, s.tasks[t]? = some task → task.phase.program? = none) →
    ∀ i, accessesOf t (seen i) = []
  yields : ∀ {t : TaskId} {task : Task} {p : Program Verdict}, s.tasks[t]? = some task →
    task.phase.program? = some p → p.Yields (post task.operation) (accessesOf t (seen task.operation.identity))

variable {post : Operation → Verdict → List Access → Prop} {seen : Identity → List (TaskId × Observation)}

theorem Followed.submit (h : Followed post s seen) (operation : Operation) :
    Followed post (s.submit operation) seen where
  unseen unentered := h.unseen fun task ht => unentered task (getElem?_submit_of_some operation ht)
  yields ht hp := by
    rcases of_getElem?_submit ht with ⟨_, rfl⟩ | ht
    · cases hp
    · exact h.yields ht hp

/-- What is seen of a turn is seen of its task alone. -/
theorem accessesOf_of_ne {u : TaskId} (h : u ≠ t) (o : Option Observation) (f : TaskId × Observation → Bool) :
    accessesOf u ((o.map (t, ·)).toList.filter f) = [] := by
  refine List.filterMap_eq_nil_iff.mpr fun x hx => ?_
  obtain ⟨y, rfl, rfl⟩ := Option.map_eq_some_iff.mp (Option.mem_toList.mp (List.mem_filter.mp hx).1)
  cases y with
  | entered => rfl
  | access a => exact if_neg (Ne.symm h)

theorem Followed.turn (h : Followed post s seen) (ht : s.tasks[t]? = some task) {o : Option Observation}
    (turn : s.Turn t task o s') (enters : ∀ op : Operation, (op.program s.settings).Yields (post op) []) :
    Followed post s' fun i => seen i ++ ((o.map (t, ·)).toList.filter fun o => s.isOf i o.1) := by
  obtain ⟨phase, tasks, _, effect⟩ := turn.effect
  have self : s'.tasks[t]? = some { task with phase := phase } := by
    rw [tasks]
    exact getElem?_setPhase_self ht phase
  refine ⟨fun {u} unentered i => ?_, fun {u v p} hu hp => ?_⟩
  · rw [accessesOf_append]
    by_cases hut : u = t
    · subst hut
      have out : phase.program? = none := unentered _ self
      cases effect with
      | silent program held same =>
        rw [h.unseen (fun v hv => ?_) i]
        · rfl
        · obtain rfl := Option.some.inj (ht.symm.trans hv)
          exact program.symm.trans out
      | entered hp free hp' same =>
        rw [hp'] at out
        cases out
      | accessed hp step hq held inside =>
        rw [hq] at out
        cases out
    · rw [accessesOf_of_ne hut, List.append_nil]
      exact h.unseen (fun v hv => unentered v (by rwa [turn.getElem?_eq hut])) i
  · rw [tasks] at hu
    rcases of_getElem?_setPhase ht hu with ⟨rfl, rfl⟩ | ⟨hut, hu⟩
    · replace hp : phase.program? = some p := hp
      cases effect with
      | silent program held same =>
        simpa using h.yields ht (program.symm.trans hp)
      | entered hw free hp' same =>
        have none : ∀ v, s.tasks[u]? = some v → v.phase.program? = none := by
          intro v hv
          obtain rfl := Option.some.inj (ht.symm.trans hv)
          rw [hw]
          rfl
        rw [hp'] at hp
        cases hp
        change Yields (post task.operation) _ _
        rw [accessesOf_append, h.unseen none task.operation.identity]
        simpa [isOf_eq ht, accessesOf] using enters task.operation
      | @accessed lock p' q a hw step hq held inside =>
        obtain rfl := Option.some.inj (hq.symm.trans hp)
        have stepped := (h.yields ht (by rw [hw]; rfl)).step step
        simpa [accessesOf_append, isOf_eq ht, accessesOf] using stepped
    · rw [accessesOf_append, accessesOf_of_ne hut, List.append_nil]
      exact h.yields hu hp

theorem Followed.run {settings : Settings} {metrics : Option Metrics} {registry : Registry} {events : List Event}
    (enters : ∀ op : Operation, (op.program settings).Yields (post op) [])
    (run : (startingFrom settings metrics registry).run events = some s) :
    Followed post s fun i => watch i (startingFrom settings metrics registry) events := by
  induction events using List.reverseRecOn generalizing s with
  | nil =>
    cases run
    exact ⟨fun _ _ => rfl, fun ht => by simp [startingFrom, initial] at ht⟩
  | append_singleton es e ih =>
    rw [run_concat] at run
    obtain ⟨s₁, hs₁, hstep⟩ := Option.bind_eq_some_iff.mp run
    have settings_eq := settings_of_run hs₁
    simp only [watch_concat hs₁]
    rcases turn_of_step hstep with ⟨operation, rfl, rfl⟩ | ⟨t, task, o, _, ht, turn, ho⟩
    · simpa [glimpse, observe] using (ih hs₁).submit operation
    · simp only [glimpse, ho]
      exact (ih hs₁).turn ht turn fun op => settings_eq ▸ enters op

/-- An operation that is turned away names its slot, and a deployment as the action. -/
theorem attributed_of_refusal {op : Operation} {e : DeployError} (h : op.refusal = some e) :
    e.action = .deploy ∧ e.identity = op.identity := by
  cases op with
  | deploy request =>
    dsimp only [refusal] at h
    split at h
    · cases h
    · obtain rfl := Option.some.inj h
      exact ⟨rfl, rfl⟩
  | _ => cases h

/-- When all operations of a run are over and none broke off, the totals and the numbers of samples are those of
their outcomes. Each outcome names the action that was decided on, or that belongs to the operation, and so does
its error, which names the slot of the operation or that of a service that a start was answered with. What is
turned away does not come to be counted. -/
theorem outcomes_accounted {settings : Settings} {registry : Registry} {events : List Event} {s : System}
    {verdicts : List Verdict}
    (run : (startingFrom settings (some .empty) registry).run events = some s)
    (ended : s.tasks.map Task.phase = verdicts.map Phase.finished) :
    (∃ m, s.metrics = some m
      ∧ (∀ action, (m.actionsTotal action).1 = verdicts.countP (·.succeededAs action))
      ∧ (∀ action label, (m.failuresTotal action label).1 = verdicts.countP (·.failedFor action label))
      ∧ ∀ action, (m.samples action).length =
        verdicts.countP (·.succeededAs action) + verdicts.countP (·.failedAs action))
    ∧ (∀ {t : TaskId} {task : Task} {verdict : Verdict}, s.tasks[t]? = some task → verdicts[t]? = some verdict →
      Accountable task.operation verdict (accessesOf t
        (watch task.operation.identity (startingFrom settings (some .empty) registry) events)))
    ∧ ∀ {op : Operation} {e : DeployError}, op.refusal = some e →
      e.action = .deploy ∧ e.identity = op.identity
        ∧ ∀ simulation : Simulation, simulation.submit op = (.error e, simulation) := by
  refine ⟨?_, fun {t task verdict} ht hv => ?_, fun {op e} refused => ?_⟩
  · have start : (startingFrom settings (some .empty) registry).Balanced :=
      ⟨_, rfl, Metrics.balanced_empty⟩
    obtain ⟨m, hm, balanced⟩ := start.run run
    have outcomes_eq : s.outcomes = verdicts := by
      have h := congrArg (List.filterMap Phase.verdict?) ended
      simpa [List.filterMap_map, outcomes, Function.comp_def, Phase.verdict?] using h
    rw [outcomes_eq] at balanced
    exact ⟨m, hm, balanced.successes, balanced.failures, balanced.samples⟩
  · have finished : task.phase = .finished verdict := by
      have h := congrArg (·[t]?) ended
      simpa [ht, hv] using h
    exact (Followed.run (program_accountable settings) run).yields ht (by rw [finished]; rfl)
  · obtain ⟨action, identity⟩ := attributed_of_refusal refused
    exact ⟨action, identity, fun simulation => by simp [Simulation.submit, refused]⟩

/-- A deployment that is decided on as a replacement and that the backend does not carry out, with a deletion that waits
for it. -/
def failedReplacement : List Event :=
  [.submit (.deploy (sampleRequest true)), .submit (.delete (sampleRequest true).identity), .advance 0 0, .advance 0 0,
      .advance 1 0, .advance 0 0, .answer 0 (.staged (.ok ⟨"/served/iris", .sklearn⟩)),
      .answer 0 (.served (.error (.unavailable "offline")))]
    ++ .replicate 4 (.advance 0 0) ++ .replicate 2 (.advance 1 0) ++ [.answer 1 (.stopped (.ok ()))]
    ++ .replicate 6 (.advance 1 0)

/-- The failure is counted under the action that was decided on, the deletion beside it, and a request that names no run
is turned away. -/
theorem outcomes_accounted_failedReplacement : ∃ s m e,
    (startingFrom .default (some .empty) ⟨[.sample 1 .running]⟩).run failedReplacement = some s
      ∧ s.metrics = some m ∧ (m.failuresTotal .replace "backend_unavailable").1 = 1
      ∧ (m.actionsTotal .delete).1 = 1 ∧ (m.samples .replace).length = 1
      ∧ Accountable (.deploy (sampleRequest true)) ⟨.replace, .error e⟩ (accessesOf 0
        (watch (sampleRequest true).identity (startingFrom .default (some .empty) ⟨[.sample 1 .running]⟩)
          failedReplacement))
      ∧ e.identity = (sampleRequest true).identity
      ∧ ∀ simulation : Simulation,
        (simulation.submit (.deploy { sampleRequest true with runId := "" })).2 = simulation := by
  have run : (startingFrom .default (some .empty) ⟨[.sample 1 .running]⟩).run failedReplacement = some _ := rfl
  have ended : _ = [⟨.replace, .error ⟨(sampleRequest true).identity, .replace, .backendUnavailable "offline"⟩⟩,
      ⟨.delete, .ok .deleted⟩].map Phase.finished := rfl
  obtain ⟨⟨m, hm, successes, failures, samples⟩, accounts, refusals⟩ := outcomes_accounted run ended
  have accounted := @accounts 0 ⟨.deploy (sampleRequest true), .finished _⟩ _ rfl rfl
  have refused : (Operation.deploy { sampleRequest true with runId := "" }).refusal = some _ := rfl
  obtain ⟨_, _, unchanged⟩ := refusals refused
  exact ⟨_, m, _, run, hm, failures _ _, successes _, samples _, accounted, rfl,
    fun simulation => congrArg Prod.snd (unchanged simulation)⟩

end System
end ServingLifecycle
