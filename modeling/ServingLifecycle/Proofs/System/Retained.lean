import ServingLifecycle.Proofs.Operation.Retention
import ServingLifecycle.Proofs.System.Serialisable
/-!
# No service is forgotten

Amid any other operations, and at every step as a reader of the registry sees it, a recorded service goes only for
a reason that can be seen in what its own slot's operation did: a replacement was deployed just before, or the
service is settled. A slot becomes empty only by a deletion.
-/
namespace ServingLifecycle.System
open Session Program Operation

/-- What was seen of the program of a task. -/
def accessesOf (t : TaskId) (seen : List (TaskId × Observation)) : List Access :=
  seen.filterMap fun
    | (u, .access a) => if u = t then some a else none
    | (_, .entered) => none

variable {t : TaskId} {x : Session} {xs : List Session} {i : Identity}

theorem accessesOf_append (a b : List (TaskId × Observation)) :
    accessesOf t (a ++ b) = accessesOf t a ++ accessesOf t b := by
  simp [accessesOf]

theorem accessesOf_observations (x : Session) :
    accessesOf t x.observations = if x.task = t then x.accesses else [] := by
  unfold accessesOf observations
  rw [List.filterMap_cons, List.filterMap_map]
  by_cases h : x.task = t <;> simp [h]

theorem accessesOf_of_not_mem (h : t ∉ xs.map Session.task) :
    accessesOf t (xs.flatMap observations) = [] := by
  induction xs with
  | nil => rfl
  | cons y ys ih =>
    rw [List.map_cons, List.mem_cons, not_or] at h
    rw [List.flatMap_cons, accessesOf_append, accessesOf_observations, if_neg (Ne.symm h.1), ih h.2]
    rfl

/-- Each task has one session, so what was seen of it is that session. -/
theorem accessesOf_sessions (nodup : (xs.map Session.task).Nodup) (hx : x ∈ xs) :
    accessesOf x.task (xs.flatMap observations) = x.accesses := by
  induction xs with
  | nil => cases hx
  | cons y ys ih =>
    obtain ⟨hnew, hrest⟩ := List.nodup_cons.mp nodup
    rw [List.flatMap_cons, accessesOf_append, accessesOf_observations]
    rcases List.mem_cons.mp hx with rfl | hx
    · rw [if_pos rfl, accessesOf_of_not_mem hnew, List.append_nil]
    · have hne : y.task ≠ x.task := fun e => hnew (e ▸ List.mem_map_of_mem hx)
      rw [if_neg hne, ih hrest hx, List.nil_append]

/-- Every session begins over a slot without double ids, if the first one does. -/
theorem steps_of_session {settings : Settings} {entries entries' : List Service}
    (h : Serial settings i entries xs entries') (nodup : (entries.map Service.uuid).Nodup) (hx : x ∈ xs) :
    ∃ before after : Registry, Steps (x.operation.program settings) before x.accesses x.rest after ∧
      ((before.find i).map Service.uuid).Nodup := by
  induction h with
  | nil => cases hx
  | snoc prior complete own steps ih =>
    rcases List.mem_append.mp hx with hx | hx
    · exact ih hx
    · rw [List.mem_singleton.mp hx]
      exact ⟨_, _, steps, prior.nodup nodup⟩

section Run

variable {settings : Settings} {metrics : Option Metrics} {changes : List Registry.Change}
  {events : List Event} {s : System}

/-- What was seen of a task that has been inside, over the entries of its slot that it found. -/
theorem session_of_task (run : (startingFrom settings metrics (.after changes)).run events = some s)
    (faithful : ∀ i, ∀ x ∈ watch i (startingFrom settings metrics (.after changes)) events, x.2.Faithful)
    {task : Task} {p : Program Verdict} (ht : s.tasks[t]? = some task)
    (hp : task.phase.program? = some p) :
    ∃ before after : Registry, Steps (task.operation.program settings) before
        (accessesOf t (watch task.operation.identity (startingFrom settings metrics (.after changes)) events))
        p after
      ∧ ((before.find task.operation.identity).map Service.uuid).Nodup
      ∧ ∀ a ∈ accessesOf t (watch task.operation.identity (startingFrom settings metrics (.after changes))
        events), a.Faithful := by
  have distinct := Registry.distinct_after changes
  obtain ⟨xs, h⟩ := (Ordered.run run faithful).chronicle task.operation.identity
  obtain ⟨x, hx, rfl⟩ := h.covered ht rfl (by rw [hp]; rfl)
  obtain ⟨task', ht', hop, hrest⟩ := h.known x hx
  obtain rfl := Option.some.inj (ht.symm.trans ht')
  obtain rfl := Option.some.inj (hp.symm.trans hrest)
  obtain ⟨before, after, steps, nodup⟩ := steps_of_session h.serial (distinct _) hx
  rw [h.seen_eq, accessesOf_sessions h.nodup hx, hop]
  rw [settings_of_run run] at steps
  refine ⟨before, after, steps, hop ▸ nodup, fun a ha => ?_⟩
  exact faithful _ (x.task, .access a) (h.seen_eq ▸ mem_observations hx ha)

/-- Who holds the lock of its slot has got to the entries as they are. -/
theorem session_of_held (run : (startingFrom settings metrics (.after changes)).run events = some s)
    (faithful : ∀ i, ∀ x ∈ watch i (startingFrom settings metrics (.after changes)) events, x.2.Faithful)
    {task : Task} {p : Program Verdict} (ht : s.tasks[t]? = some task)
    (held : task.phase.held.isSome = true) (hp : task.phase.program? = some p) :
    ∃ before after : Registry, Steps (task.operation.program settings) before
        (accessesOf t (watch task.operation.identity (startingFrom settings metrics (.after changes)) events))
        p after
      ∧ ((before.find task.operation.identity).map Service.uuid).Nodup
      ∧ after.find task.operation.identity = s.registry.find task.operation.identity := by
  have distinct := Registry.distinct_after changes
  obtain ⟨xs, h⟩ := (Ordered.run run faithful).chronicle task.operation.identity
  obtain ⟨ys, x, rfl, rfl⟩ := h.last ht rfl held
  obtain ⟨task', ht', hop, hrest⟩ := h.known x (by simp)
  obtain rfl := Option.some.inj (ht.symm.trans ht')
  obtain rfl := Option.some.inj (hp.symm.trans hrest)
  obtain ⟨before, after, prior, _, _, steps, same⟩ := h.serial.of_snoc
  rw [h.seen_eq, accessesOf_sessions h.nodup (by simp)]
  rw [settings_of_run run, ← hop] at steps
  exact ⟨before, after, steps, prior.nodup (distinct _), same.symm⟩

/-- Amid others a program keeps to its licence over the entries of its slot as they are. -/
theorem respects_of_held {licence : Operation → Licence} {post : Operation → Verdict → List Access → Registry → Prop}
    (respects : ∀ {op : Operation} {r : Registry}, ((r.find op.identity).map Service.uuid).Nodup →
      (op.program settings).Respects Access.Faithful (licence op) (post op) [] r)
    (run : (startingFrom settings metrics (.after changes)).run events = some s)
    (faithful : ∀ i, ∀ x ∈ watch i (startingFrom settings metrics (.after changes)) events, x.2.Faithful)
    {task : Task} {p : Program Verdict} (ht : s.tasks[t]? = some task)
    (held : task.phase.held.isSome = true) (hp : task.phase.program? = some p) :
    ∃ after : Registry, after.find task.operation.identity = s.registry.find task.operation.identity
      ∧ p.Respects Access.Faithful (licence task.operation) (post task.operation)
        (accessesOf t (watch task.operation.identity (startingFrom settings metrics (.after changes)) events))
        after := by
  obtain ⟨_, _, _, _, trusted⟩ := session_of_task run faithful ht hp
  obtain ⟨before, after, steps, nodup, same⟩ := session_of_held run faithful ht held hp
  exact ⟨after, same, (respects nodup).steps steps trusted⟩

/-- A step leaves the entries of a slot as they are, or it is a change by the operation on the slot, which that does
as it is licensed to. -/
theorem change_of_step {licence : Operation → Licence} {post : Operation → Verdict → List Access → Registry → Prop}
    (respects : ∀ {op : Operation} {r : Registry}, ((r.find op.identity).map Service.uuid).Nodup →
      (op.program settings).Respects Access.Faithful (licence op) (post op) [] r)
    (run : (startingFrom settings metrics (.after changes)).run events = some s)
    (faithful : ∀ i, ∀ x ∈ watch i (startingFrom settings metrics (.after changes)) events, x.2.Faithful)
    {e : Event} {s' : System} (step : s.step e = some s') (i : Identity) :
    s'.registry.find i = s.registry.find i ∨ ∃ t task change after, e.task? = some t ∧
      s.tasks[t]? = some task ∧ task.operation.identity = i ∧ s'.registry = s.registry.apply change ∧
      Registry.find after i = s.registry.find i ∧ (licence task.operation).change
        (accessesOf t (watch i (startingFrom settings metrics (.after changes)) events)) after change := by
  rcases turn_of_step step with ⟨operation, rfl, rfl⟩ | ⟨t, task, o, he, ht, turn, _⟩
  · exact Or.inl rfl
  · by_cases hi : i = task.operation.identity
    · subst hi
      obtain ⟨phase, _, _, effect⟩ := turn.effect
      cases effect with
      | silent program held same => exact Or.inl (by rw [same])
      | entered hp free hp' same => exact Or.inl (by rw [same])
      | @accessed lock p q a hp access hq hl inside =>
        obtain ⟨after, same, licensed⟩ :=
          respects_of_held respects run faithful ht (by rw [hp]; rfl) (by rw [hp]; rfl)
        generalize s'.registry = r at access ⊢
        cases access with
        | @write change => exact Or.inr ⟨t, task, change, after, he, ht, rfl, rfl, same, licensed.1⟩
        | _ => exact Or.inl rfl
    · exact Or.inl (turn.find_eq ((Ordered.run run faithful).about ht) hi)

/-- A service goes from its slot only as the operation on the slot dismisses it. -/
theorem retained_of_step (run : (startingFrom settings metrics (.after changes)).run events = some s)
    (faithful : ∀ i, ∀ x ∈ watch i (startingFrom settings metrics (.after changes)) events, x.2.Faithful)
    {e : Event} {s' : System} (step : s.step e = some s') {d : Service} (hd : d ∈ s.registry.find i) :
    (∃ d' ∈ s'.registry.find i, d'.uuid = d.uuid) ∨ ∃ t task change, e.task? = some t ∧
      s.tasks[t]? = some task ∧ task.operation.identity = i ∧ s'.registry = s.registry.apply change ∧
      Dismissed task.operation
        (accessesOf t (watch i (startingFrom settings metrics (.after changes)) events)) d change := by
  rcases change_of_step program_retaining run faithful step i with
    keep | ⟨t, task, change, after, he, ht, rfl, hr, same, retaining⟩
  · exact Or.inl ⟨d, keep ▸ hd, rfl⟩
  · rcases retaining d (same ▸ hd) with ⟨d', hd', e'⟩ | dismissed
    · refine Or.inl ⟨d', ?_, e'⟩
      rw [hr, ← Registry.find_apply_congr same]
      exact hd'
    · exact Or.inr ⟨t, task, change, he, ht, rfl, hr, dismissed⟩

/-- A recorded service goes at a step of a run only as the operation on its slot dismisses it, and a slot that
holds something becomes empty only by a deletion of its own. What an operation answers with was never asked to
stop by it. -/
theorem services_retained
    (run : (startingFrom settings metrics (.after changes)).run events = some s)
    (faithful : ∀ i, ∀ x ∈ watch i (startingFrom settings metrics (.after changes)) events, x.2.Faithful)
    (i : Identity) :
    (∀ {e : Event} {s' : System}, s.step e = some s' → ∀ d ∈ s.registry.find i,
      (∃ d' ∈ s'.registry.find i, d'.uuid = d.uuid) ∨ ∃ t task change, e.task? = some t ∧
        s.tasks[t]? = some task ∧ task.operation.identity = i ∧ s'.registry = s.registry.apply change ∧
        Dismissed task.operation
          (accessesOf t (watch i (startingFrom settings metrics (.after changes)) events)) d change)
    ∧ (∀ {e : Event} {s' : System}, s.step e = some s' → s.registry.find i ≠ [] → s'.registry.find i = [] →
      ∃ t task, e.task? = some t ∧ s.tasks[t]? = some task ∧ task.operation = .delete i ∧
        s'.registry = s.registry.forget i)
    ∧ (∀ {t : TaskId} {task : Task} {verdict : Verdict} {d : Service}, s.tasks[t]? = some task →
      task.operation.identity = i → task.phase.program? = some (.done verdict) →
      verdict.result = .ok (.service d) → ∀ (stopped : Service) reply, .call (.ask (.stop stopped)) reply ∈
        accessesOf t (watch i (startingFrom settings metrics (.after changes)) events) →
      stopped.uuid ≠ d.uuid) := by
  refine ⟨fun step d hd => retained_of_step run faithful step hd, fun {e s'} step filled empty => ?_,
    fun {t task verdict d} ht hi hp answered stopped reply asked => ?_⟩
  · obtain ⟨d, hd⟩ := List.exists_mem_of_ne_nil _ filled
    rcases retained_of_step run faithful step hd with ⟨d', hd', _⟩ | ⟨t, task, change, he, ht, hi, hr, dismissed⟩
    · rw [empty] at hd'
      cases hd'
    · cases dismissed with
      | deleted delete settled =>
        rw [delete] at hi
        exact ⟨t, task, he, ht, hi ▸ delete, hi ▸ hr⟩
      | @replaced new | @retired new =>
        -- the service that comes in their place is there
        rw [hr, show s.registry.apply (.supersede new) = s.registry.supersede new from rfl,
          Registry.find_supersede] at empty
        split at empty
        · cases empty
        · exact absurd empty filled
  · subst hi
    obtain ⟨before, after, steps, nodup, trusted⟩ := session_of_task run faithful ht hp
    have spares := (program_retaining nodup).steps steps trusted
    exact spares d answered stopped reply asked

end Run

/-- A system with a service that runs. -/
def sampleSystem : System :=
  startingFrom .default none (.after [.supersede (.sample 1 .running)])

/-- The deletion of that service, up to where it is recorded as stopped. -/
def sampleDeletion : List Event :=
  .submit (.delete (Service.sample 1 .running).identity) :: .replicate 3 (.advance 0 0)
    ++ [.answer 0 (.stopped (.ok ())), .advance 0 0]

def sampleStopped : System :=
  (sampleSystem.run sampleDeletion).get rfl

theorem services_retained_deletion :
    ∃ s' change, sampleStopped.step (.advance 0 0) = some s'
      ∧ s'.registry = sampleStopped.registry.apply change
      ∧ Dismissed (.delete (Service.sample 1 .running).identity)
        (accessesOf 0 (watch (Service.sample 1 .running).identity sampleSystem sampleDeletion))
        (.sample 1 .stopped) change := by
  obtain ⟨retained, _, _⟩ := services_retained (s := sampleStopped) (Option.some_get _).symm (fun i x hx => by
    obtain ⟨s, e, he, ho⟩ := observe_of_mem_watch hx
    refine faithful_of_observe ho ?_
    rintro t result rfl
    simp [sampleDeletion] at he) (Service.sample 1 .running).identity
  have filled : Service.sample 1 .stopped ∈ sampleStopped.registry.find (Service.sample 1 .running).identity :=
    Registry.mem_find_record_self _ (.sample 1 .stopped)
  obtain ⟨s', step⟩ : ∃ s', sampleStopped.step (.advance 0 0) = some s' := ⟨_, rfl⟩
  have empty : s'.registry = sampleStopped.registry.forget (Service.sample 1 .running).identity := by
    cases step
    rfl
  rcases retained step (.sample 1 .stopped) filled with ⟨d, hd, _⟩ | ⟨t, task, change, he, ht, _, hr, dismissed⟩
  · rw [empty, Registry.find_forget, if_pos rfl] at hd
    cases hd
  · cases he
    cases ht
    exact ⟨s', change, step, hr, dismissed⟩

end ServingLifecycle.System
