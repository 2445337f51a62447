import ServingLifecycle.Proofs.Operation.Displacement
import ServingLifecycle.Proofs.Operation.Success
import ServingLifecycle.Proofs.System.Retained
import ServingLifecycle.Proofs.System.Returns
/-!
# Reuse changes nothing

Once a deployment or a start has answered with a running service, the slot rests: as long as only operations that
keep the newest service get its lock, each of them answers with that very service. None of them asks storage or the
backend for anything or changes the registry, whatever goes on in other slots.
-/
namespace ServingLifecycle.System
open Program Operation

/-- The task has been inside the slot of the service, and all that it has left to do there is to consult it. -/
def Consulting (s : System) (d : Service) (t : TaskId) : Prop :=
  ∃ task p, s.tasks[t]? = some task ∧ task.operation.identity = d.identity ∧ task.phase.program? = some p
    ∧ p.Consults d.identity [d] fun verdict => verdict.result = .ok (.service d)

/-- The slot of the service holds it alone. Whoever is inside or has been seen to enter consults it, and nothing else
was seen of the slot but that it was read. -/
structure Rests (d : Service) (s : System) (seen : List (TaskId × Observation)) : Prop where
  alone : s.registry.find d.identity = [d]
  reads : ∀ x ∈ seen, x.2 = .entered ∨ x.2 = .access (.read d.identity [d])
  inside : ∀ {t : TaskId} {task : Task}, s.tasks[t]? = some task → task.operation.identity = d.identity →
    task.phase.held.isSome = true → s.Consulting d t
  entered : ∀ {t : TaskId}, (t, .entered) ∈ seen → s.Consulting d t

variable {d : Service} {s s' : System} {t u : TaskId} {task : Task} {o : Option Observation} {e : Event}
  {seen : List (TaskId × Observation)}

/-- A turn of a task that consults its slot can be seen, if at all, to read it, and leaves the registry as it is. -/
theorem Consulting.turn (h : s.Consulting d t) (alone : s.registry.find d.identity = [d])
    (ht : s.tasks[t]? = some task) (turn : s.Turn t task o s') :
    s'.Consulting d t ∧ s'.registry = s.registry ∧ ∀ x ∈ o, x = .access (.read d.identity [d]) := by
  obtain ⟨task', p, ht', own, hp, consults⟩ := h
  obtain rfl := Option.some.inj (ht.symm.trans ht')
  obtain ⟨phase, tasks, _, effect⟩ := turn.effect
  have self : s'.tasks[t]? = some { task with phase := phase } := by
    rw [tasks]
    exact getElem?_setPhase_self ht phase
  cases effect with
  | silent program held same => exact ⟨⟨_, p, self, own, program.trans hp, consults⟩, same, by simp⟩
  | entered waiting free hp' same =>
    rw [waiting] at hp
    cases hp
  | accessed hin step hq held inside =>
    rw [hin] at hp
    obtain rfl := Option.some.inj hp
    obtain ⟨rfl, same, rest⟩ := consults.step step alone
    exact ⟨⟨_, _, self, own, hq, rest⟩, same, by simp⟩

theorem Consulting.step (h : s.Consulting d u) (alone : s.registry.find d.identity = [d])
    (step : s.step e = some s') : s'.Consulting d u := by
  rcases turn_of_step step with ⟨operation, rfl, rfl⟩ | ⟨t, task, o, _, ht, turn, _⟩
  · obtain ⟨task, p, hu, rest⟩ := h
    exact ⟨task, p, getElem?_submit_of_some operation hu, rest⟩
  · by_cases hut : u = t
    · subst hut
      exact (h.turn alone ht turn).1
    · obtain ⟨task, p, hu, rest⟩ := h
      exact ⟨task, p, by rwa [turn.getElem?_eq hut], rest⟩

/-- A task that consults its slot waits for nobody. -/
theorem Consulting.returns (h : s.Consulting d t) (alone : s.registry.find d.identity = [d]) :
    s.Returns t fun verdict => verdict.result = .ok (.service d) := by
  obtain ⟨⟨op, phase⟩, p, ht, _, hp, consults⟩ := h
  have through : p.isOver = true → s.Returns t fun verdict => verdict.result = .ok (.service d) := by
    intro ended
    obtain ⟨verdict, rfl, answer⟩ := consults.done_of_isOver ended
    exact returns_of_done answer ht hp
  cases held : phase.held with
  | none => exact through (Phase.isOver_of_not_held hp held)
  | some lock =>
    rcases Phase.inside_or_isOver hp held with inside | ended
    · obtain rfl : phase = .inside lock p := inside
      exact returns_of_inside consults alone ht
    · exact through ended

/-- A turn is seen in the slot of its task only. -/
theorem glimpse_of_observe {i : Identity} (ht : s.tasks[t]? = some task) (ho : s.observe e = o.map (t, ·)) :
    s.glimpse i e = if task.operation.identity = i then (o.map (t, ·)).toList else [] := by
  rw [glimpse, ho]
  cases o with
  | none => simp
  | some x => simp [List.filter_cons, isOf_eq ht]

theorem Rests.submit (h : Rests d s seen) (operation : Operation) : Rests d (s.submit operation) seen where
  alone := h.alone
  reads := h.reads
  inside ht own held := by
    rcases of_getElem?_submit ht with ⟨_, rfl⟩ | ht
    · cases held
    · exact (h.inside ht own held).step h.alone (e := .submit operation) rfl
  entered hm := (h.entered hm).step h.alone (e := .submit operation) rfl

/-- A turn of a task of the slot leaves the registry as it is. -/
theorem Rests.registry_of_turn (h : Rests d s seen) (ht : s.tasks[t]? = some task)
    (own : task.operation.identity = d.identity) (turn : s.Turn t task o s') : s'.registry = s.registry := by
  obtain ⟨phase, _, _, effect⟩ := turn.effect
  cases effect with
  | silent program held same => exact same
  | entered waiting free hp same => exact same
  | accessed hin => exact ((h.inside ht own (by rw [hin]; rfl)).turn h.alone ht turn).2.1

/-- All that can be seen of such a turn is that the slot is entered or read. -/
theorem Rests.reads_of_turn (h : Rests d s seen) (ht : s.tasks[t]? = some task)
    (own : task.operation.identity = d.identity) (turn : s.Turn t task o s') :
    ∀ x ∈ o, x = .entered ∨ x = .access (.read d.identity [d]) := by
  obtain ⟨phase, _, _, effect⟩ := turn.effect
  cases effect with
  | silent => simp
  | entered => simp
  | accessed hin =>
    exact fun x hx => .inr (((h.inside ht own (by rw [hin]; rfl)).turn h.alone ht turn).2.2 x hx)

/-- Whoever is inside after its turn consults the slot, if it was to keep the newest service when it entered. -/
theorem Rests.consulting_of_turn (h : Rests d s seen) (ht : s.tasks[t]? = some task)
    (own : task.operation.identity = d.identity) (turn : s.Turn t task o s')
    (keeps : o = some .entered → task.operation.keepsNewest = true) (running : d.isRunning = true) :
    (o = some .entered → s'.Consulting d t)
    ∧ ∀ {task' : Task}, s'.tasks[t]? = some task' → task'.phase.held.isSome = true → s'.Consulting d t := by
  obtain ⟨phase, tasks, _, effect⟩ := turn.effect
  have self : s'.tasks[t]? = some { task with phase := phase } := by
    rw [tasks]
    exact getElem?_setPhase_self ht phase
  cases effect with
  | silent program held same =>
    refine ⟨by simp, fun {task'} ht' holds => ?_⟩
    obtain rfl := Option.some.inj (self.symm.trans ht')
    obtain ⟨lock, hl⟩ := Option.isSome_iff_exists.mp holds
    exact ((h.inside ht own (by rw [held lock hl]; rfl)).turn h.alone ht turn).1
  | entered waiting free hp same =>
    have consults : (task.operation.program s.settings).Consults task.operation.identity [d] _ :=
      program_consults (keeps rfl) own.symm running
    have consulting : s'.Consulting d t := ⟨_, _, self, own, by rw [hp]; rfl, own ▸ consults⟩
    exact ⟨fun _ => consulting, fun _ _ => consulting⟩
  | accessed hin =>
    exact ⟨by simp, fun _ _ => ((h.inside ht own (by rw [hin]; rfl)).turn h.alone ht turn).1⟩

theorem Rests.step (h : Rests d s seen) (step : s.step e = some s')
    (about : ∀ {t : TaskId} {task : Task} {lock : LockId} {p : Program Verdict}, s.tasks[t]? = some task →
      task.phase = .inside lock p → p.About (fun _ => task.operation.identity) task.operation.identity)
    (keeps : ∀ {t : TaskId} {task : Task}, s.tasks[t]? = some task → (t, .entered) ∈ s.glimpse d.identity e →
      task.operation.keepsNewest = true) (running : d.isRunning = true) :
    Rests d s' (seen ++ s.glimpse d.identity e) := by
  rcases turn_of_step step with ⟨operation, rfl, rfl⟩ | ⟨t, task, o, _, ht, turn, ho⟩
  · simpa [glimpse, observe] using h.submit operation
  have old : ∀ {u}, s.Consulting d u → s'.Consulting d u := fun hu => hu.step h.alone step
  have others : ∀ {u : TaskId} {v : Task}, u ≠ t → s'.tasks[u]? = some v → v.operation.identity = d.identity →
      v.phase.held.isSome = true → s'.Consulting d u :=
    fun hut hu hi held => old (h.inside (turn.getElem?_eq hut ▸ hu) hi held)
  by_cases own : task.operation.identity = d.identity
  · rw [glimpse_of_observe ht ho, if_pos own] at keeps ⊢
    obtain ⟨entered, inside⟩ := h.consulting_of_turn ht own turn (fun e => keeps ht (by simp [e])) running
    refine ⟨h.registry_of_turn ht own turn ▸ h.alone, fun x hx => ?_, fun {u v} hu hi held => ?_, fun {u} hm => ?_⟩
    · rcases List.mem_append.mp hx with hx | hx
      · exact h.reads x hx
      · obtain ⟨y, hy, rfl⟩ := Option.map_eq_some_iff.mp (Option.mem_toList.mp hx)
        exact h.reads_of_turn ht own turn y hy
    · by_cases hut : u = t
      · subst hut
        exact inside hu held
      · exact others hut hu hi held
    · rcases List.mem_append.mp hm with hm | hm
      · exact old (h.entered hm)
      · obtain ⟨y, hy, e⟩ := Option.map_eq_some_iff.mp (Option.mem_toList.mp hm)
        obtain ⟨rfl, rfl⟩ := Prod.mk.inj e
        exact entered hy
  · rw [glimpse_of_observe ht ho, if_neg own, List.append_nil]
    refine ⟨?_, h.reads, fun {u v} hu hi held => ?_, fun hm => old (h.entered hm)⟩
    · rw [turn.find_eq (about ht) (Ne.symm own)]
      exact h.alone
    · refine others (fun hut => own ?_) hu hi held
      obtain ⟨phase, tasks, _⟩ := turn.effect
      rw [hut, tasks, getElem?_setPhase_self ht] at hu
      obtain rfl := Option.some.inj hu
      exact hi

/-- A task keeps its operation. -/
theorem operation_of_step (step : s.step e = some s') (hu : s.tasks[u]? = some task) :
    ∃ task', s'.tasks[u]? = some task' ∧ task'.operation = task.operation := by
  rcases turn_of_step step with ⟨operation, rfl, rfl⟩ | ⟨t, turned, o, _, ht, turn, _⟩
  · exact ⟨task, getElem?_submit_of_some operation hu, rfl⟩
  · by_cases hut : u = t
    · subst hut
      obtain rfl := Option.some.inj (ht.symm.trans hu)
      obtain ⟨phase, tasks, _⟩ := turn.effect
      exact ⟨{ turned with phase := phase }, by rw [tasks]; exact getElem?_setPhase_self ht phase, rfl⟩
    · exact ⟨task, by rwa [turn.getElem?_eq hut], rfl⟩

section Run

variable {settings : Settings} {metrics : Option Metrics} {registry : Registry} {events more : List Event}

theorem Rests.run (h : Rests d s []) (run : (startingFrom settings metrics registry).run events = some s)
    (later : s.run more = some s') (running : d.isRunning = true)
    (faithful : ∀ i, ∀ x ∈ watch i (startingFrom settings metrics registry) (events ++ more), x.2.Faithful)
    (keeps : ∀ {t : TaskId} {task : Task}, s'.tasks[t]? = some task → (t, .entered) ∈ watch d.identity s more →
      task.operation.keepsNewest = true) :
    Rests d s' (watch d.identity s more) := by
  induction more using List.reverseRecOn generalizing s' with
  | nil =>
    obtain rfl := Option.some.inj later
    exact h
  | append_singleton es e ih =>
    obtain ⟨s₁, later, step, run₁, faithful₁⟩ := exists_last_step run later faithful
    rw [watch_concat later] at keeps ⊢
    have kept : ∀ {t : TaskId} {task : Task}, s₁.tasks[t]? = some task →
        (t, .entered) ∈ watch d.identity s es ++ s₁.glimpse d.identity e → task.operation.keepsNewest = true := by
      intro t task ht hm
      obtain ⟨task', ht', same⟩ := operation_of_step step ht
      exact same ▸ keeps ht' hm
    refine (ih later faithful₁ fun ht hm => kept ht (List.mem_append_left _ hm)).step step ?_ ?_ running
    · exact (Ordered.run run₁ faithful₁).about
    · exact fun ht hm => kept ht (List.mem_append_right _ hm)

end Run

/-- Once a deployment or a start has answered with a running service, it stays all that its slot holds while only
operations that keep the newest service get into the slot, whatever goes on in other slots. All that is seen of the
slot is that it is entered and read, and no turn of a task of the slot changes the registry. Whoever has entered
answers with that same service and comes to its end by its own turns alone; so does whoever finds the slot vacant. -/
theorem reuse_changes_nothing {settings : Settings} {metrics : Option Metrics} {changes : List Registry.Change}
    {events more : List Event} {s s' : System} {t : TaskId} {task : Task} {verdict : Verdict} {d : Service}
    (run : (startingFrom settings metrics (.after changes)).run events = some s)
    (ht : s.tasks[t]? = some task) (held : task.phase.held.isSome = true)
    (ended : task.phase.program? = some (.done verdict)) (serving : task.operation.answersService = true)
    (success : verdict.result = .ok (.service d)) (running : d.isRunning = true) (later : s.run more = some s')
    (faithful : ∀ i, ∀ x ∈ watch i (startingFrom settings metrics (.after changes)) (events ++ more), x.2.Faithful)
    (keeps : ∀ {u : TaskId} {other : Task}, s'.tasks[u]? = some other →
      (u, .entered) ∈ watch task.operation.identity s more → other.operation.keepsNewest = true) :
    s'.registry.find task.operation.identity = [d]
    ∧ (∀ x ∈ watch task.operation.identity s more,
      x.2 = .entered ∨ x.2 = .access (.read task.operation.identity [d]))
    ∧ (∀ {e : Event} {s'' : System} {u : TaskId} {other : Task}, s'.step e = some s'' → e.task? = some u →
      s'.tasks[u]? = some other → other.operation.identity = task.operation.identity →
      s''.registry = s'.registry)
    ∧ (∀ {u : TaskId}, (u, .entered) ∈ watch task.operation.identity s more →
      (∀ {other : Task} {outcome : Verdict}, s'.tasks[u]? = some other →
        other.phase.program? = some (.done outcome) → outcome.result = .ok (.service d))
      ∧ s'.Returns u fun outcome => outcome.result = .ok (.service d))
    ∧ (s'.Vacant task.operation.identity → ∀ {u : TaskId} {other : Task}, s'.tasks[u]? = some other →
      other.operation.identity = task.operation.identity → other.phase.program? = none →
      other.operation.keepsNewest = true → s'.Returns u fun outcome => outcome.result = .ok (.service d)) := by
  have faithful₀ := faithful_of_append run faithful
  obtain ⟨before, after, accesses, steps, trusted, nodup, same⟩ :=
    steps_of_held (Registry.distinct_after changes) run faithful₀ ht held ended
  obtain ⟨d', hd, alone⟩ :=
    (program_leavesAnswer nodup).of_steps steps trusted serving (.service d) success
  cases hd
  rw [same] at alone
  have own : d.identity = task.operation.identity :=
    Registry.identity_of_mem_find (alone ▸ List.mem_singleton_self d)
  rw [← own] at keeps alone ⊢
  have ordered := Ordered.run run faithful₀
  have start : Rests d s [] := by
    refine ⟨alone, by simp, fun {u other} hu hi held' => ?_, by simp⟩
    obtain rfl := ordered.locked.held_unique hu ht (hi.trans own) held' held
    exact ⟨task, _, ht, own.symm, ended, success⟩
  have rests := start.run run later running faithful keeps
  have run' : (startingFrom settings metrics (.after changes)).run (events ++ more) = some s' := by
    rw [run_append, run]
    exact later
  have ordered' := Ordered.run run' faithful
  refine ⟨rests.alone, rests.reads, fun {e s'' u other} step he hu hi => ?_, fun {u} entered => ?_,
    fun vacant {u other} hu hi outside keepsNewest => ?_⟩
  · rcases turn_of_step step with ⟨operation, rfl, rfl⟩ | ⟨v, turned, o, he', hv, turn, _⟩
    · rfl
    · obtain rfl := Option.some.inj (he.symm.trans he')
      obtain rfl := Option.some.inj (hu.symm.trans hv)
      exact rests.registry_of_turn hu hi turn
  · refine ⟨fun {other outcome} hu hp => ?_, (rests.entered entered).returns rests.alone⟩
    obtain ⟨other', p, hu', _, hp', consults⟩ := rests.entered entered
    obtain rfl := Option.some.inj (hu.symm.trans hu')
    obtain rfl := Option.some.inj (hp.symm.trans hp')
    exact consults
  · have apart := (apart_startingFrom settings metrics (.after changes)).run run'
    have consults : (other.operation.program s'.settings).Consults other.operation.identity [d] _ :=
      program_consults keepsNewest hi.symm running
    exact returns_of_vacant ordered'.locked apart consults (hi ▸ rests.alone) (hi ▸ vacant) hu outside

/-- A start of the service that runs, up to where its outcome has been counted. -/
def sampleStart : List Event :=
  .submit (.start (Service.sample 1 .running).identity none) :: .replicate 5 (.advance 0 0)

def sampleAnswered : System :=
  (sampleSystem.run sampleStart).get rfl

/-- A deployment with a negative decision and a stop in another slot, while the start leaves. -/
def deployBesideStop : List Event :=
  [.submit (.deploy (sampleRequest false)), .submit (.stop ⟨"iris", "train", "regressor"⟩), .advance 1 0,
    .advance 2 0, .advance 0 0, .advance 2 0, .advance 1 0, .advance 0 0, .advance 2 0, .advance 1 0]

theorem reuse_changes_nothing_deployBesideStop : ∃ s', sampleAnswered.run deployBesideStop = some s'
    ∧ s'.registry.find (Service.sample 1 .running).identity = [.sample 1 .running]
    ∧ s'.Returns 1 fun outcome => outcome.result = .ok (.service (.sample 1 .running)) := by
  have run : sampleSystem.run sampleStart = some sampleAnswered := (Option.some_get _).symm
  have later : sampleAnswered.run deployBesideStop = some _ := rfl
  have seen : watch (Service.sample 1 .running).identity sampleAnswered deployBesideStop =
      [(1, .entered), (1, .access (.read (Service.sample 1 .running).identity [.sample 1 .running]))] := rfl
  obtain ⟨alone, _, _, entered, _⟩ := reuse_changes_nothing (t := 0) run rfl rfl rfl rfl rfl rfl later
    (fun i x hx => by
      obtain ⟨s, e, he, ho⟩ := observe_of_mem_watch hx
      refine faithful_of_observe ho ?_
      rintro t result rfl
      simp [sampleStart, deployBesideStop] at he)
    (fun {u other} hu hm => by
      have hm : (u, Observation.entered) ∈ [(1, .entered), (1, .access _)] := seen ▸ hm
      obtain rfl : u = 1 := by simpa using hm
      obtain rfl := Option.some.inj hu
      rfl)
  have deployed : (1, Observation.entered) ∈ watch _ sampleAnswered deployBesideStop :=
    seen ▸ List.mem_cons_self
  exact ⟨_, later, alone, (entered deployed).2⟩

end ServingLifecycle.System
