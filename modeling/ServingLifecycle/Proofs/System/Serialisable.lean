import Mathlib.Data.List.Induction
import ServingLifecycle.Proofs.System.Sessions
/-!
# Serialisability

Whatever the order in which the tasks of a system take their steps, and whatever storage and backend answer
or break off, the operations on one slot go one after the other: what is seen of the slot is a sequence of
sessions. No update is lost, and no operation touches the entries of another slot.
-/
namespace ServingLifecycle.System
open Session

/-- The operation of the task is on the slot. -/
def isOf (s : System) (i : Identity) (t : TaskId) : Bool :=
  (s.tasks[t]?).any fun task => task.operation.identity = i

/-- The slot of a task. -/
theorem isOf_eq {s : System} {i : Identity} {t : TaskId} {task : Task} (ht : s.tasks[t]? = some task) :
    s.isOf i t = decide (task.operation.identity = i) := by
  simp [isOf, ht]

/-- What is seen of a slot when an event happens. -/
def glimpse (s : System) (i : Identity) (e : Event) : List (TaskId × Observation) :=
  (s.observe e).toList.filter fun o => s.isOf i o.1

/-- What is seen of a slot while events happen, from the lock being got by one task to the next. -/
def watch (i : Identity) : System → List Event → List (TaskId × Observation)
  | _, [] => []
  | s, e :: es =>
    s.glimpse i e ++ match s.step e with
      | some s' => watch i s' es
      | none => []

/-- An answer that was seen is faithful. -/
def Observation.Faithful : Observation → Prop
  | entered => True
  | access a => a.Faithful

/-- A system in which nothing has happened, over a registry. -/
def startingFrom (settings : Settings) (metrics : Option Metrics) (registry : Registry) : System :=
  { initial settings metrics with registry := registry }

theorem run_append (s : System) (es fs : List Event) : s.run (es ++ fs) = (s.run es).bind (·.run fs) := by
  induction es generalizing s with
  | nil => rfl
  | cons e es ih =>
    simp only [List.cons_append, run]
    cases s.step e with
    | none => rfl
    | some s' => exact ih s'

theorem run_concat (s : System) (es : List Event) (e : Event) :
    s.run (es ++ [e]) = (s.run es).bind (·.step e) := by
  simp [run_append, run]

theorem watch_append {s s' : System} {es : List Event} (h : s.run es = some s') (i : Identity)
    (fs : List Event) : watch i s (es ++ fs) = watch i s es ++ watch i s' fs := by
  induction es generalizing s with
  | nil =>
    obtain rfl := Option.some.inj h
    rfl
  | cons e es ih =>
    obtain ⟨s₁, step, h⟩ := Option.bind_eq_some_iff.mp h
    simp only [List.cons_append, watch, step, List.append_assoc, ih h]

theorem watch_concat {s s' : System} {es : List Event} (h : s.run es = some s') (i : Identity)
    (e : Event) : watch i s (es ++ [e]) = watch i s es ++ s'.glimpse i e := by
  rw [watch_append h]
  cases he : s'.step e <;> simp [watch, he]

/-- What is trusted of a run is trusted of its beginning. -/
theorem faithful_of_append {s s' : System} {es fs : List Event} (h : s.run es = some s')
    (faithful : ∀ i, ∀ x ∈ watch i s (es ++ fs), x.2.Faithful) : ∀ i, ∀ x ∈ watch i s es, x.2.Faithful := by
  intro i x hx
  refine faithful i x ?_
  rw [watch_append h]
  exact List.mem_append_left _ hx

/-- The last step of what happens later, in a run that may be trusted. -/
theorem exists_last_step {s₀ s s' : System} {events es : List Event} {e : Event} (run : s₀.run events = some s)
    (later : s.run (es ++ [e]) = some s')
    (faithful : ∀ i, ∀ x ∈ watch i s₀ (events ++ (es ++ [e])), x.2.Faithful) :
    ∃ s₁, s.run es = some s₁ ∧ s₁.step e = some s' ∧ s₀.run (events ++ es) = some s₁
      ∧ ∀ i, ∀ x ∈ watch i s₀ (events ++ es), x.2.Faithful := by
  rw [run_concat] at later
  obtain ⟨s₁, later, step⟩ := Option.bind_eq_some_iff.mp later
  have run₁ : s₀.run (events ++ es) = some s₁ := by
    rw [run_append, run]
    exact later
  rw [← List.append_assoc] at faithful
  exact ⟨s₁, later, step, run₁, faithful_of_append run₁ faithful⟩

/-- All slots of a system are in order. -/
structure Ordered (r₀ : Registry) (s : System) (seen : Identity → List (TaskId × Observation)) :
    Prop where
  locked : s.Locked
  about : ∀ {t : TaskId} {task : Task} {lock : LockId} {p : Program Verdict},
    s.tasks[t]? = some task → task.phase = .inside lock p →
    p.About (fun _ => task.operation.identity) task.operation.identity
  chronicle : ∀ i, ∃ xs, Chronicle r₀ s i (seen i) xs

variable {r₀ : Registry} {s s' : System} {seen : Identity → List (TaskId × Observation)}

theorem ordered_startingFrom (settings : Settings) (metrics : Option Metrics) (registry : Registry) :
    Ordered registry (startingFrom settings metrics registry) fun _ => [] where
  locked := ⟨List.nodup_nil, fun h => by simp [startingFrom, initial] at h,
    fun h => by simp [startingFrom, initial] at h⟩
  about h := by simp [startingFrom, initial] at h
  chronicle i := ⟨[], .nil, rfl, List.nodup_nil, fun _ h => (by cases h),
    fun h => (by simp [startingFrom, initial] at h), fun h => (by simp [startingFrom, initial] at h)⟩

theorem Ordered.submit (h : Ordered r₀ s seen) (operation : Operation) :
    Ordered r₀ (s.submit operation) seen where
  locked := h.locked.submit operation
  about ht hp := by
    rcases of_getElem?_submit ht with ⟨_, rfl⟩ | ht
    · cases hp
    · exact h.about ht hp
  chronicle i := by
    obtain ⟨xs, hx⟩ := h.chronicle i
    exact ⟨xs, hx.submit operation⟩

variable {t : TaskId} {task : Task} {o : Option Observation}

theorem Ordered.turn (h : Ordered r₀ s seen) (ht : s.tasks[t]? = some task)
    (turn : s.Turn t task o s') (faithful : ∀ x ∈ o, x.Faithful) :
    Ordered r₀ s' fun i =>
      seen i ++ ((o.map (t, ·)).toList.filter fun o => s.isOf i o.1) := by
  obtain ⟨phase, tasks, settings, effect⟩ := turn.effect
  refine ⟨h.locked.turn ht turn, fun {u v lock p} hu hv => ?_, fun i => ?_⟩
  · rw [tasks] at hu
    rcases of_getElem?_setPhase ht hu with ⟨_, rfl⟩ | ⟨_, hu⟩
    · replace hv : phase = .inside lock p := hv
      change p.About (fun _ => task.operation.identity) task.operation.identity
      exact effect.about (h.about ht) (fun d hd => ⟨Registry.identity_of_mem_find hd, rfl⟩)
        (fun ho about step => about.belongsTo_of_faithful step (faithful _ ho)) hv
    · exact h.about hu hv
  · obtain ⟨xs, hx⟩ := h.chronicle i
    by_cases hi : task.operation.identity = i
    · cases effect with
      | silent program held same =>
        refine ⟨xs, ?_⟩
        simpa using hx.keep_turn ht tasks settings (by rw [same]) fun _ => ⟨program, held⟩
      | entered hp free hp' same =>
        refine ⟨xs ++ [⟨t, task.operation, [], task.operation.program s.settings⟩], ?_⟩
        simpa [isOf_eq ht, hi] using hx.enter h.locked ht hi tasks settings same hp free hp'
      | accessed hp step hq _ _ =>
        obtain ⟨ys, hy⟩ := hx.access h.locked ht hi tasks settings hp (hi ▸ h.about ht hp) step hq
        refine ⟨ys, ?_⟩
        simpa [isOf_eq ht, hi] using hy
    · refine ⟨xs, ?_⟩
      have := hx.keep_turn ht tasks settings (turn.find_eq (h.about ht) (Ne.symm hi))
        fun e => absurd e hi
      cases o <;> simpa [isOf_eq ht, hi] using this

theorem Ordered.step {e : Event} (h : Ordered r₀ s seen) (step : s.step e = some s')
    (faithful : ∀ i, ∀ x ∈ s.glimpse i e, x.2.Faithful) :
    Ordered r₀ s' fun i => seen i ++ s.glimpse i e := by
  rcases turn_of_step step with ⟨operation, rfl, rfl⟩ | ⟨t, task, o, _, ht, turn, ho⟩
  · simpa [glimpse, observe] using h.submit operation
  · simp only [glimpse, ho] at faithful ⊢
    refine h.turn ht turn fun x hx => ?_
    obtain rfl := Option.mem_def.mp hx
    exact faithful task.operation.identity (t, x) (by simp [isOf_eq ht])

theorem Ordered.run {settings : Settings} {metrics : Option Metrics} {events : List Event}
    (run : (startingFrom settings metrics r₀).run events = some s)
    (faithful : ∀ i, ∀ x ∈ watch i (startingFrom settings metrics r₀) events, x.2.Faithful) :
    Ordered r₀ s fun i => watch i (startingFrom settings metrics r₀) events := by
  induction events using List.reverseRecOn generalizing s with
  | nil =>
    cases run
    exact ordered_startingFrom settings metrics r₀
  | append_singleton es e ih =>
    rw [run_concat] at run
    obtain ⟨s₁, hs₁, hstep⟩ := Option.bind_eq_some_iff.mp run
    simp only [watch_concat hs₁] at faithful ⊢
    exact (ih hs₁ fun i x hx => faithful i x (List.mem_append_left _ hx)).step hstep
      fun i x hx => faithful i x (List.mem_append_right _ hx)

theorem observe_of_mem_watch {i : Identity} {s : System} {es : List Event} {x : TaskId × Observation}
    (h : x ∈ watch i s es) : ∃ s' : System, ∃ e ∈ es, s'.observe e = some x := by
  induction es generalizing s with
  | nil => cases h
  | cons e es ih =>
    rcases List.mem_append.mp h with h | h
    · have ho := (List.mem_filter.mp h).1
      exact ⟨s, e, List.mem_cons_self, by simpa using ho⟩
    · cases hs : s.step e with
      | none => simp [hs] at h
      | some s₁ =>
        obtain ⟨s', e', he', ho⟩ := ih (by simpa [hs] using h)
        exact ⟨s', e', List.mem_cons_of_mem _ he', ho⟩

/-- Only an answer that hands over a descriptor can be unfaithful. -/
theorem faithful_of_observe {s : System} {e : Event} {x : TaskId × Observation}
    (h : s.observe e = some x) (he : ∀ t result, e ≠ .answer t (.served result)) : x.2.Faithful := by
  cases e with
  | submit operation => cases h
  | advance t seconds =>
    dsimp only [observe] at h
    split at h <;> cases h <;> simp [Observation.Faithful, Access.Faithful, Access.descriptor]
  | answer t a =>
    dsimp only [observe] at h
    split at h
    · rename_i c next _
      obtain ⟨reply, hr, rfl⟩ := Option.map_eq_some_iff.mp h
      intro d hd
      have hs : ∀ result, a ≠ .served result := fun result e => he t result (e ▸ rfl)
      rcases c with _ | c | ⟨c, deadline⟩
      · cases hd
      · cases c <;> cases a <;> cases hr <;> first | exact absurd rfl (hs _) | cases hd
      · cases c <;> cases a <;> cases hr <;> first | exact absurd rfl (hs _) | cases hd
    · cases h
  | breakOff t text =>
    dsimp only [observe] at h
    split at h <;> cases h
    simp [Observation.Faithful, Access.Faithful, Access.descriptor]

theorem settings_of_step {e : Event} (step : s.step e = some s') : s'.settings = s.settings := by
  rcases turn_of_step step with ⟨operation, rfl, rfl⟩ | ⟨t, task, o, _, ht, turn, ho⟩
  · rfl
  · obtain ⟨phase, _, settings, _⟩ := turn.effect
    exact settings

theorem settings_of_run {events : List Event} (run : s.run events = some s') :
    s'.settings = s.settings := by
  induction events generalizing s with
  | nil => rw [Option.some.inj run]
  | cons e es ih =>
    obtain ⟨s₁, step, run⟩ := Option.bind_eq_some_iff.mp run
    exact (ih run).trans (settings_of_step step)

/-- Of two operations on one slot at most one is in its critical section. What is seen of a slot is the
sessions of its operations in the order in which they got the lock: each is complete before the next one
begins and finds the entries that the one before left, and all it does is on its own slot. -/
theorem operations_serialisable {settings : Settings} {metrics : Option Metrics} {registry : Registry}
    {events : List Event} {s : System}
    (run : (startingFrom settings metrics registry).run events = some s)
    (faithful : ∀ i, ∀ x ∈ watch i (startingFrom settings metrics registry) events, x.2.Faithful) :
    (∀ {t u : TaskId} {task task' : Task}, s.tasks[t]? = some task → s.tasks[u]? = some task' →
      task.operation.identity = task'.operation.identity →
      task.phase.held.isSome = true → task'.phase.held.isSome = true → t = u)
    ∧ (∀ i, ∃ xs,
      Chronicle registry s i (watch i (startingFrom settings metrics registry) events) xs
        ∧ ∀ x ∈ xs, ∀ a ∈ x.accesses, ∀ j, a.slot = some j → j = i)
    ∧ (∀ {e : Event} {s' : System} {t : TaskId} {task : Task} {i : Identity}, s.step e = some s' →
      e.task? = some t → s.tasks[t]? = some task → i ≠ task.operation.identity →
      s'.registry.find i = s.registry.find i)
    ∧ s.settings = settings := by
  have ordered := Ordered.run run faithful
  refine ⟨ordered.locked.held_unique, fun i => ?_, fun {e s' t task i} step he ht hi => ?_,
    settings_of_run run⟩
  · obtain ⟨xs, h⟩ := ordered.chronicle i
    refine ⟨xs, h, fun x hx a ha j hj => ?_⟩
    obtain ⟨before, after, steps⟩ := h.serial.steps_of_mem hx
    have about := Operation.about_program (fun _ => i) s.settings x.operation
    rw [h.serial.own hx] at about
    refine about.slot_of_steps steps (fun b hb => ?_) a ha j hj
    exact faithful i (x.task, .access b) (h.seen_eq ▸ mem_observations hx hb)
  · rcases turn_of_step step with ⟨operation, rfl, rfl⟩ | ⟨u, v, o, hu', hu, turn, _⟩
    · cases he
    · obtain rfl := Option.some.inj (hu'.symm.trans he)
      obtain rfl := Option.some.inj (hu.symm.trans ht)
      exact turn.find_eq (ordered.about hu) hi

/-- A stop and a refresh of one slot, with the turns of one in between those of the other. -/
def stopAndRefresh (i : Identity) : List Event :=
  [.submit (.stop i), .submit (.refresh i), .advance 0 0, .advance 1 0, .advance 0 0, .advance 0 0,
    .answer 0 (.stopped (.ok ())), .advance 0 0, .advance 0 0, .advance 0 0, .advance 1 0]

theorem operations_serialisable_stopAndRefresh : ∃ s xs,
    (startingFrom .default none ⟨[.sample 1 .running]⟩).run
        (stopAndRefresh (Service.sample 1 .running).identity) = some s
      ∧ Serial .default (Service.sample 1 .running).identity [.sample 1 .running] xs
        (s.registry.find (Service.sample 1 .running).identity) := by
  have run : (startingFrom .default none ⟨[.sample 1 .running]⟩).run
      (stopAndRefresh (Service.sample 1 .running).identity) = some _ := rfl
  obtain ⟨_, serialised, _, settings⟩ := operations_serialisable run fun i x hx => by
    obtain ⟨s, e, he, ho⟩ := observe_of_mem_watch hx
    refine faithful_of_observe ho ?_
    rintro t result rfl
    simp [stopAndRefresh] at he
  obtain ⟨xs, h, _⟩ := serialised (Service.sample 1 .running).identity
  have hs := h.serial
  rw [settings] at hs
  exact ⟨_, xs, run, hs⟩

/-- What a task in its critical section has done so far, over the entries that it found. -/
theorem steps_of_held {settings : Settings} {metrics : Option Metrics} {registry : Registry}
    {events : List Event} (distinct : registry.Distinct)
    (run : (startingFrom settings metrics registry).run events = some s)
    (faithful : ∀ i, ∀ x ∈ watch i (startingFrom settings metrics registry) events, x.2.Faithful)
    {t : TaskId} {task : Task} {p : Program Verdict} (ht : s.tasks[t]? = some task)
    (held : task.phase.held.isSome = true) (hp : task.phase.program? = some p) :
    ∃ (before after : Registry) (accesses : List Access),
      Program.Steps (task.operation.program settings) before accesses p after
        ∧ (∀ a ∈ accesses, a.Faithful)
        ∧ ((before.find task.operation.identity).map Service.uuid).Nodup
        ∧ after.find task.operation.identity = s.registry.find task.operation.identity := by
  obtain ⟨xs, h⟩ := (Ordered.run run faithful).chronicle task.operation.identity
  obtain ⟨ys, x, rfl, rfl⟩ := h.last ht rfl held
  obtain ⟨task', ht', hop, hrest⟩ := h.known x (by simp)
  obtain rfl := Option.some.inj (ht.symm.trans ht')
  obtain rfl := Option.some.inj (hp.symm.trans hrest)
  obtain ⟨before, after, prior, _, _, steps, hf⟩ := h.serial.of_snoc
  rw [settings_of_run run, ← hop] at steps
  refine ⟨before, after, x.accesses, steps, fun a ha => ?_, prior.nodup (distinct _), hf.symm⟩
  exact faithful _ (x.task, .access a) (h.seen_eq ▸ mem_observations (by simp) ha)

end ServingLifecycle.System
