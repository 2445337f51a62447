import ServingLifecycle.Proofs.Operation.Success
import ServingLifecycle.Proofs.Registry.History
import ServingLifecycle.Proofs.System.Enacted
/-!
# Answers in a running system

What the program of an operation ensures by itself holds when its task ends amid others, for nobody else
changes the entries of its slot meanwhile.
-/
namespace ServingLifecycle.System
open Program

/-- When a deployment or a start has succeeded, the service that it answers with is all that its slot holds
until the task leaves its critical section, whichever registry the system began with. -/
theorem success_leaves_answer {settings : Settings} {metrics : Option Metrics}
    {changes : List Registry.Change} {events : List Event} {s : System}
    (run : (startingFrom settings metrics (.after changes)).run events = some s)
    (faithful : ∀ i, ∀ x ∈ watch i (startingFrom settings metrics (.after changes)) events, x.2.Faithful)
    {t : TaskId} {task : Task} {verdict : Verdict} {outcome : Outcome} (ht : s.tasks[t]? = some task)
    (held : task.phase.held.isSome = true) (ended : task.phase.program? = some (.done verdict))
    (serving : task.operation.answersService = true) (success : verdict.result = .ok outcome) :
    ∃ d, outcome = .service d ∧ s.registry.find task.operation.identity = [d] := by
  have distinct := Registry.distinct_after changes
  obtain ⟨before, after, accesses, steps, hf, nodup, same⟩ :=
    steps_of_held distinct run faithful ht held ended
  have leaves := (Operation.program_leavesAnswer nodup).of_steps steps hf
  obtain ⟨d, hd, only⟩ := leaves serving outcome success
  exact ⟨d, hd, same.symm.trans only⟩

/-- What a start sees when the backend starts the newest service of its slot and stops the other one. -/
def startAndRetire : List Access :=
  [.read (Service.sample 2 .stopped).identity [.sample 2 .stopped, .sample 1 .running],
    .call (.askWithin (.start (.sample 2 .stopped) defaultStartTimeout) sampleDeadline)
      (some (Except.ok (.sample 2 .running))),
    .write (.record (.sample 2 .running)),
    .read (Service.sample 2 .stopped).identity [.sample 2 .running, .sample 1 .running],
    .call (.ask (.stop (.sample 1 .running))) (Except.ok ()),
    .write (.record (.sample 1 .stopped)),
    .write (.supersede (.sample 2 .running))]

theorem steps_startAndRetire :
    Steps ((Operation.start (Service.sample 2 .stopped).identity none).program .default)
      (.after [.record (.sample 2 .stopped), .record (.sample 1 .running)]) startAndRetire
      (.done ⟨.start, .ok (.service (.sample 2 .running))⟩) ⟨[.sample 2 .running]⟩ := by
  have started : Registry.record ⟨[.sample 2 .stopped, .sample 1 .running]⟩ (.sample 2 .running) =
      ⟨[.sample 2 .running, .sample 1 .running]⟩ := Registry.record_eq (by decide)
  have stopped : Registry.record ⟨[.sample 2 .running, .sample 1 .running]⟩ (.sample 1 .stopped) =
      ⟨[.sample 2 .running, .sample 1 .stopped]⟩ := Registry.record_eq (by decide)
  rw [Registry.after_pair (a := .sample 2 .stopped) (b := .sample 1 .running) (by decide) rfl (by decide)]
  exact .head .read (.head (.call (c := .askWithin (.start (.sample 2 .stopped) _) _)
      (some (Except.ok (.sample 2 .running))))
    (.head (.record started) (.head .read (.head (.call (c := .ask (.stop (.sample 1 .running))) (Except.ok ()))
      (.head (.record stopped) (.head .write (.refl _ _)))))))

theorem faithful_startAndRetire : ∀ a ∈ startAndRetire, a.Faithful := by
  have plain : ∀ {a : Access}, a.descriptor = none → a.Faithful := Access.faithful_of_descriptor
  simp only [startAndRetire, List.forall_mem_cons]
  refine ⟨plain rfl, ?_, plain rfl, plain rfl, plain rfl, plain rfl, plain rfl, by simp⟩
  rintro s ⟨⟩
  rfl

/-- The newest service of a slot is started while an older one runs, and is all that the slot holds at last. -/
theorem success_leaves_answer_startAndRetire : ∃ s,
    (startingFrom .default none (.after [.record (.sample 2 .stopped), .record (.sample 1 .running)])).run
        (enacting (.start (Service.sample 2 .stopped).identity none) startAndRetire) = some s
      ∧ s.registry.find (Service.sample 2 .stopped).identity = [.sample 2 .running] := by
  have steps := steps_startAndRetire
  obtain ⟨s, run, -, ⟨phase, ht, held, ended⟩, -⟩ := run_enacting none steps
  obtain ⟨d, answered, only⟩ := success_leaves_answer run (faithful_enacting none steps faithful_startAndRetire) ht
    (Option.isSome_iff_exists.mpr ⟨_, held⟩) ended rfl rfl
  cases answered
  exact ⟨s, run, only⟩

end ServingLifecycle.System
