import ServingLifecycle.Proofs.Operation.Revival
import ServingLifecycle.Proofs.System.Enacted
import ServingLifecycle.Proofs.System.Retained
import ServingLifecycle.Proofs.System.Reuse
/-!
# Failed services

A service that is recorded as failed stays so, at every step of a run, until the operation of its slot records what
the backend has just granted for its id. A slot comes to serve in that way only. A failed service is started if it is
the newest of its slot, though, as any other that does not run.
-/
namespace ServingLifecycle.System
open Program Operation

section Run

variable {settings : Settings} {metrics : Option Metrics} {changes : List Registry.Change}
  {events more : List Event} {s s' : System} {e : Event} {i : Identity} {d : Service}

theorem nodup_of_run (run : (startingFrom settings metrics (.after changes)).run events = some s)
    (faithful : ∀ i, ∀ x ∈ watch i (startingFrom settings metrics (.after changes)) events, x.2.Faithful)
    (i : Identity) : ((s.registry.find i).map Service.uuid).Nodup := by
  obtain ⟨xs, h⟩ := (Ordered.run run faithful).chronicle i
  exact h.serial.nodup (Registry.distinct_after changes i)

/-- What stands in a slot after a step stood there before, or is a service that was up and is stopped, or was just
obtained by the operation whose turn it was. -/
theorem entry_of_step (run : (startingFrom settings metrics (.after changes)).run events = some s)
    (faithful : ∀ i, ∀ x ∈ watch i (startingFrom settings metrics (.after changes)) events, x.2.Faithful)
    (step : s.step e = some s') (hd : d ∈ s'.registry.find i) :
    d ∈ s.registry.find i
    ∨ (∃ x ∈ s.registry.find i, x.state.isDown = false ∧ d = x.withState .stopped)
    ∨ ∃ t task, e.task? = some t ∧ s.tasks[t]? = some task ∧ task.operation.identity = i ∧ Obtained task.operation
      (accessesOf t (watch i (startingFrom settings metrics (.after changes)) events)) d := by
  rcases change_of_step program_reviving run faithful step i with
    keep | ⟨t, task, change, after, he, ht, rfl, hr, same, reviving⟩
  · exact .inl (keep ▸ hd)
  · rw [hr, Registry.mem_find_apply (nodup_of_run run faithful _)] at hd
    rcases hd with ⟨_, given⟩ | ⟨old, _⟩
    · have licensed := reviving d given
      rw [same] at licensed
      exact licensed.imp_right (·.imp_right fun obtained => ⟨t, task, he, ht, rfl, obtained⟩)
    · exact .inl old

/-- A service that is started is the newest of its slot, does not run, and the operation is to keep the newest. -/
theorem newest_of_starts (run : (startingFrom settings metrics (.after changes)).run events = some s)
    (faithful : ∀ i, ∀ x ∈ watch i (startingFrom settings metrics (.after changes)) events, x.2.Faithful)
    {t : TaskId} {task : Task} {c : Call} (ht : s.tasks[t]? = some task) (called : s.call? t = some c)
    (starts : d ∈ c.starts) : task.operation.keepsNewest = true ∧ d.isRunning = false
      ∧ ∃ rest, s.registry.find task.operation.identity = d :: rest := by
  unfold call? at called
  split at called
  · rename_i op lock c' next ht'
    obtain rfl := Option.some.inj (ht.symm.trans ht')
    obtain rfl := Option.some.inj called
    obtain ⟨after, same, respects⟩ := respects_of_held program_reviving run faithful ht rfl rfl
    rw [← same]
    exact respects.1 d starts
  · cases called

/-- While `more` happens after `events`, an operation of the slot is about to record what it has just obtained. -/
def Obtains (s : System) (events more : List Event) (i : Identity) (d : Service) : Prop :=
  ∃ earlier e later s' t task, more = earlier ++ e :: later ∧ s.run (events ++ earlier) = some s' ∧ e.task? = some t
    ∧ s'.tasks[t]? = some task ∧ task.operation.identity = i
    ∧ Obtained task.operation (accessesOf t (watch i s (events ++ earlier))) d

theorem Obtains.concat (h : s.Obtains events more i d) (e : Event) : s.Obtains events (more ++ [e]) i d := by
  obtain ⟨earlier, e', later, s', t, task, rfl, obtained⟩ := h
  exact ⟨earlier, e', later ++ [e], s', t, task, by simp, obtained⟩

/-- What stands in a slot at the end of a run stood there before or was obtained meanwhile, and if it was up it may
have been stopped since. -/
theorem entry_of_run (run : (startingFrom settings metrics (.after changes)).run events = some s)
    (later : s.run more = some s')
    (faithful : ∀ i, ∀ x ∈ watch i (startingFrom settings metrics (.after changes)) (events ++ more), x.2.Faithful)
    (hd : d ∈ s'.registry.find i) :
    (∃ x ∈ s.registry.find i, d = x ∨ x.state.isDown = false ∧ d = x.withState .stopped)
    ∨ ∃ x, (startingFrom settings metrics (.after changes)).Obtains events more i x
      ∧ (d = x ∨ d = x.withState .stopped) := by
  induction more using List.reverseRecOn generalizing s' d with
  | nil =>
    obtain rfl := Option.some.inj later
    exact .inl ⟨d, hd, .inl rfl⟩
  | append_singleton es e ih =>
    obtain ⟨s₁, later, step, run₁, faithful₁⟩ := exists_last_step run later faithful
    have before : ∀ {d}, d ∈ s₁.registry.find i →
        (∃ x ∈ s.registry.find i, d = x ∨ x.state.isDown = false ∧ d = x.withState .stopped)
        ∨ ∃ x, (startingFrom settings metrics (.after changes)).Obtains events (es ++ [e]) i x
          ∧ (d = x ∨ d = x.withState .stopped) :=
      fun hd => (ih later faithful₁ hd).imp_right fun ⟨x, obtains, hx⟩ => ⟨x, obtains.concat e, hx⟩
    rcases entry_of_step run₁ faithful₁ step hd with old | ⟨z, hz, up, rfl⟩ | ⟨t, task, he, ht, hi, obtained⟩
    · exact before old
    · rcases before hz with ⟨x, hx, rfl | ⟨_, rfl⟩⟩ | ⟨x, obtains, rfl | rfl⟩
      · exact .inl ⟨z, hx, .inr ⟨up, rfl⟩⟩
      · cases up
      · exact .inr ⟨z, obtains, .inr rfl⟩
      · cases up
    · exact .inr ⟨d, ⟨es, e, [], s₁, t, task, rfl, run₁, he, ht, hi, obtained⟩, .inl rfl⟩

/-- A service that is recorded as failed stays so, whatever happens, until what the backend has granted for its id is
recorded. A slot where nothing runs comes to serve only by what was obtained from the backend: for a deployment, for
the start of its newest service, or by a refresh. A start is asked for only of the newest service of a slot, and only
by an operation that keeps the newest. -/
theorem failed_until_obtained (run : (startingFrom settings metrics (.after changes)).run events = some s)
    (hd : d ∈ s.registry.find i) (failed : d.state = .failed) (later : s.run more = some s')
    (faithful : ∀ i, ∀ x ∈ watch i (startingFrom settings metrics (.after changes)) (events ++ more), x.2.Faithful) :
    (∀ d' ∈ s'.registry.find i, d'.uuid = d.uuid → d' = d ∨ ∃ x, x.uuid = d.uuid
      ∧ (startingFrom settings metrics (.after changes)).Obtains events more i x)
    ∧ ((∀ x ∈ s.registry.find i, x.isRunning = false) → ∀ x ∈ s'.registry.find i, x.isRunning = true →
      (startingFrom settings metrics (.after changes)).Obtains events more i x)
    ∧ ∀ {t : TaskId} {task : Task} {c : Call} {x : Service}, s'.tasks[t]? = some task →
      task.operation.identity = i → s'.call? t = some c → x ∈ c.starts →
      task.operation.keepsNewest = true ∧ x.isRunning = false ∧ ∃ rest, s'.registry.find i = x :: rest := by
  have faithful₀ := faithful_of_append run faithful
  refine ⟨fun d' hd' same => ?_, fun idle x hx running => ?_, fun {t task c x} ht hi called starts => ?_⟩
  · rcases entry_of_run run later faithful hd' with ⟨x, hx, hx'⟩ | ⟨x, obtains, hx'⟩
    · have same : x.uuid = d.uuid := by rcases hx' with rfl | ⟨_, rfl⟩ <;> exact same
      obtain rfl := Registry.eq_of_uuid (nodup_of_run run faithful₀ i) hx hd same
      rcases hx' with rfl | ⟨up, _⟩
      · exact .inl rfl
      · rw [failed] at up
        cases up
    · exact .inr ⟨x, by rcases hx' with rfl | rfl <;> exact same, obtains⟩
  · rcases entry_of_run run later faithful hx with ⟨y, hy, rfl | ⟨_, rfl⟩⟩ | ⟨y, obtains, rfl | rfl⟩
    · rw [idle x hy] at running
      cases running
    · cases running
    · exact obtains
    · cases running
  · subst hi
    have run' : (startingFrom settings metrics (.after changes)).run (events ++ more) = some s' := by
      rw [run_append, run]
      exact later
    exact newest_of_starts run' faithful ht called starts

end Run

/-- A system with a service that has failed. -/
def sampleFailed : System :=
  startingFrom .default none (.after [.supersede (.sample 1 .failed)])

/-- What a start of that service sees until the backend's answer is recorded. -/
def startFailed : List Access :=
  [.read (Service.sample 1 .failed).identity [.sample 1 .failed],
    .call (.askWithin (.start (.sample 1 .failed) defaultStartTimeout) sampleDeadline)
      (some (Except.ok (.sample 1 .running))),
    .write (.record (.sample 1 .running))]

theorem faithful_startFailed : ∀ a ∈ startFailed, a.Faithful := by
  simp only [startFailed, List.forall_mem_cons]
  refine ⟨Access.faithful_of_descriptor rfl, ?_, Access.faithful_of_descriptor rfl, by simp⟩
  rintro s ⟨⟩
  rfl

theorem step_record {α : Type} {next : Program α} {s new : Service} (hu : s.uuid = new.uuid)
    (hi : s.identity = new.identity) :
    Step (.write (.record new) next) ⟨[s]⟩ (.write (.record new)) next ⟨[new]⟩ :=
  .record (Registry.record_singleton hu hi)

/-- A start of that service: when the backend is about to be called, the service is the newest of its slot, and when
it is recorded as running, that is what the backend has just handed over. -/
theorem failed_until_obtained_start : ∃ s s' c,
    sampleFailed.run (enacting (.start (Service.sample 1 .failed).identity none) (startFailed.take 1)) = some s
      ∧ s.call? 0 = some c ∧ Service.sample 1 .failed ∈ c.starts
      ∧ (∃ rest, s.registry.find (Service.sample 1 .failed).identity = .sample 1 .failed :: rest)
      ∧ sampleFailed.run (enacting (.start (Service.sample 1 .failed).identity none) startFailed) = some s'
      ∧ s'.registry.find (Service.sample 1 .failed).identity = [.sample 1 .running]
      ∧ sampleFailed.Obtains [] (enacting (.start (Service.sample 1 .failed).identity none) startFailed)
        (Service.sample 1 .failed).identity (.sample 1 .running) := by
  have recorded : Service.sample 1 .failed ∈ sampleFailed.registry.find (Service.sample 1 .failed).identity :=
    List.mem_cons_self
  have idle : ∀ x ∈ sampleFailed.registry.find (Service.sample 1 .failed).identity, x.isRunning = false := by
    rintro x (_ | ⟨_, ⟨⟩⟩)
    rfl
  have asks : Steps ((Operation.start (Service.sample 1 .failed).identity none).program .default)
      (.after [.supersede (.sample 1 .failed)]) (startFailed.take 1) (.call (.askWithin _ _) _) _ :=
    .head .read (.refl _ _)
  have records : Steps ((Operation.start (Service.sample 1 .failed).identity none).program .default)
      (.after [.supersede (.sample 1 .failed)]) startFailed _ ⟨[.sample 1 .running]⟩ :=
    .head .read (.head (.call (c := .askWithin (.start (.sample 1 .failed) _) _)
      (some (Except.ok (.sample 1 .running)))) (.head (step_record rfl rfl) (.refl _ _)))
  obtain ⟨s, run, -, isAt, -⟩ := run_enacting none asks
  obtain ⟨s', run', registry, -, -⟩ := run_enacting none records
  have found : s'.registry.find (Service.sample 1 .failed).identity = [.sample 1 .running] := by
    rw [registry]
    rfl
  have called := isAt.call?_eq
  obtain ⟨phase, ht, -, -⟩ := isAt
  have at_first : sampleFailed.run [] = some sampleFailed := rfl
  obtain ⟨-, -, newest⟩ := failed_until_obtained at_first recorded rfl run
    (faithful_enacting none asks fun a ha => faithful_startFailed a (List.mem_of_mem_take ha))
  obtain ⟨-, serves, -⟩ := failed_until_obtained at_first recorded rfl run'
    (faithful_enacting none records faithful_startFailed)
  obtain ⟨-, -, first⟩ := newest ht rfl called rfl
  exact ⟨s, s', _, run, called, rfl, first, run', found, serves idle _ (found ▸ List.mem_cons_self) rfl⟩

/-- A refresh records a service as failed, and then a start has the backend start it and records it as running. -/
theorem failed_service_starts : ∃ seen seen' r r',
    (Operation.refresh (Service.sample 1 .running).identity).Performs .default
        (.after [.supersede (.sample 1 .running)]) seen r (.ok (.services [.sample 1 .failed]))
      ∧ r.find (Service.sample 1 .running).identity = [.sample 1 .failed]
      ∧ (Operation.start (Service.sample 1 .running).identity none).Performs .default r seen' r'
        (.ok (.service (.sample 1 .running)))
      ∧ (∃ a ∈ seen', ∃ c ∈ a.asked, Service.sample 1 .failed ∈ c.starts)
      ∧ r'.find (Service.sample 1 .running).identity = [.sample 1 .running] := by
  have refreshing : Steps ((Operation.refresh (Service.sample 1 .running).identity).program .default)
      (.after [.supersede (.sample 1 .running)]) _ (.done ⟨.reuse, .ok (.services [.sample 1 .failed])⟩)
      ⟨[.sample 1 .failed]⟩ :=
    .head .read (.head (.call (c := .ask (.status (.sample 1 .running))) (Except.ok .failed))
      (.head (step_record rfl rfl) (.refl _ _)))
  have starting : Steps ((Operation.start (Service.sample 1 .running).identity none).program .default)
      ⟨[.sample 1 .failed]⟩ _ (.done ⟨.start, .ok (.service (.sample 1 .running))⟩) ⟨[.sample 1 .running]⟩ :=
    .head .read (.head (.call (c := .askWithin (.start (.sample 1 .failed) _) _)
      (some (Except.ok (.sample 1 .running)))) (.head (step_record rfl rfl) (.head .read (.refl _ _))))
  refine ⟨_, _, _, _, .performed rfl refreshing, rfl, .performed rfl starting, ?_, rfl⟩
  exact ⟨_, List.mem_cons_of_mem _ List.mem_cons_self, _, rfl, rfl⟩

end ServingLifecycle.System
