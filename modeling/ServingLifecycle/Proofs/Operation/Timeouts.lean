import ServingLifecycle.Proofs.Backend.Calls
import ServingLifecycle.Proofs.Operation.Answering
/-!
# The timeout of an operation

A deployment and a start give every service that they wait for one and the same time to start. It goes to the backend,
the grace is added to it for the deadline, and it is named in the error of a service that was too late. A start that
sets no timeout takes that of the settings. A request that sets none takes one of its own, whatever the settings say.
-/
namespace ServingLifecycle

namespace Operation
open Program

/-- A call that waits for a service gives it the timeout to start, and is itself waited for no longer than that and
the grace. -/
def Allots (timeout grace : Duration) : Call → Prop
  | .stage .. => True
  | .ask c => c.timeout? = none
  | .askWithin c deadline => c.timeout? = some timeout ∧ timeout.add? grace = some deadline

/-- A service that was too late is reported with the timeout. Only a stop or a look at the state, which have no timeout,
may be reported as too late with none. -/
def Reports {α : Type} (timeout : Duration) (result : Except DeployError α) (seen : List Access) : Prop :=
  ∀ e late, result = .error e → e.failure = .startTimeout late →
    late = timeout ∨ late = .zero ∧ ∃ c service, .call (.ask c) (.error (.startTimeout service)) ∈ seen

/-- Over the registry `r` the operation waits for services with this timeout, whatever is replied. -/
def WaitsFor (settings : Settings) (op : Operation) (timeout : Duration) (r : Registry) : Prop :=
  ∀ {r' : Registry} {seen : List Access} {p : Program Verdict}, Steps (op.program settings) r seen p r' →
    (∀ a ∈ seen, ∀ c, a.asked = some c → Allots timeout settings.backendGrace c)
      ∧ ∀ verdict, p = .done verdict → Reports timeout verdict.result seen

/-- Whatever is changed, every call gives a service the timeout. -/
def allotting (timeout grace : Duration) : Licence where
  change _ _ _ := True
  call _ _ c := Allots timeout grace c

variable {α β : Type} {i : Identity} {action : Action} {settings : Settings} {request : Request} {service : Service}
  {timeout waited grace : Duration} {seen : List Access} {r r' : Registry}

theorem reports_ok {a : α} : Reports waited (.ok a) seen := by
  intro e late h
  cases h

/-- A failure of a call that has the timeout is reported with it. -/
theorem reports_ofBackend {error : BackendError} :
    Reports waited (.error ⟨i, action, .ofBackend waited error⟩ : Except DeployError α) seen := by
  rintro e late ⟨⟩ he
  cases error <;> cases he
  exact Or.inl rfl

/-- A failure of a call without a timeout is reported without one. -/
theorem reports_ofBackend_zero {c : BackendCall} {error : BackendError} :
    Reports waited (.error ⟨i, action, .ofBackend .zero error⟩ : Except DeployError α)
      (seen ++ [.call (.ask c) (.error error)]) := by
  rintro e late ⟨⟩ he
  cases error with
  | startTimeout service =>
    cases he
    exact Or.inr ⟨rfl, c, service, List.mem_append_right _ List.mem_cons_self⟩
  | unavailable text => cases he
  | rejected text => cases he

/-- What went wrong is passed on as it is. -/
theorem Reports.error {e : DeployError} (h : Reports (α := α) waited (.error e) seen) :
    Reports (α := β) waited (.error e) seen := by
  rintro _ late ⟨⟩
  exact h e late rfl

theorem stopAll_allotting {stopped services : List Service} : (stopAll i action stopped services).Respects
    (fun _ => True) (allotting waited grace) (fun result seen _ => Reports waited result seen) seen r := by
  induction services generalizing stopped seen r with
  | nil => exact reports_ok
  | cons service rest ih =>
    unfold stopAll
    split
    · exact ih
    · refine ⟨rfl, fun reply _ => ?_⟩
      cases reply with
      | error e => exact reports_ofBackend_zero
      | ok u => exact ⟨trivial, ih⟩

theorem retireOthers_allotting {current : Service} : (retireOthers current action).Respects
    (fun _ => True) (allotting waited grace) (fun result seen _ => Reports waited result seen) seen r := by
  dsimp only [retireOthers, Respects]
  split
  · exact reports_ok
  · refine respects_bind.mpr (stopAll_allotting.mono fun result seen r reports => ?_)
    cases result with
    | error e => exact reports.error
    | ok services => exact ⟨trivial, reports_ok⟩

/-- A call that is made with the timeout waits for it; one whose deadline is out of range is not made. -/
theorem askWithGrace_allotting {post : α → List Access → Registry → Prop} {c : BackendCall}
    {next : Option c.Reply → Program α} (given : c.timeout? = some timeout)
    (h : waited = timeout ∨ timeout.add? grace = none)
    (answered : waited = timeout → ∀ deadline reply, (next reply).Respects (fun _ => True) (allotting waited grace) post
      (seen ++ [.call (.askWithin c deadline) reply]) r) :
    (askWithGrace grace timeout c next).Respects (fun _ => True) (allotting waited grace) post seen r := by
  unfold askWithGrace
  split
  · trivial
  · rename_i deadline hd
    rcases h with rfl | overflow
    · exact ⟨⟨given, hd⟩, fun reply _ => answered rfl deadline reply⟩
    · rw [hd] at overflow
      cases overflow

theorem backendFailure_allotting {error : BackendError} : (backendFailure (α := α) i action waited error).Respects
    (fun _ => True) (allotting waited grace) (fun result seen _ => Reports waited result seen) seen r :=
  respects_backendFailure (fun _ => reports_ofBackend) fun _ _ => ⟨trivial, reports_ofBackend⟩

theorem ensureRunning_allotting
    (h : waited = timeout ∨ timeout.add? grace = none ∨ service.isRunning = true) :
    (ensureRunning grace service timeout action).Respects (fun _ => True) (allotting waited grace)
      (fun result seen _ => Reports waited result seen) seen r := by
  unfold ensureRunning
  split
  · exact retireOthers_allotting
  · rename_i stopped
    have h : waited = timeout ∨ timeout.add? grace = none :=
      h.imp_right fun h => h.resolve_right stopped
    refine askWithGrace_allotting rfl h fun same deadline reply => ?_
    subst same
    rcases reply with _ | error | started
    · exact backendFailure_allotting
    · exact backendFailure_allotting
    · exact ⟨trivial, retireOthers_allotting⟩

theorem deployNew_allotting {replace : Bool}
    (h : waited = request.startTimeout ∨ request.startTimeout.add? settings.backendGrace = none) :
    (deployNew settings request replace).Respects (fun _ => True) (allotting waited settings.backendGrace)
      (fun result seen _ => Reports waited result seen) seen r := by
  dsimp only [deployNew, Respects]
  refine ⟨trivial, fun staged _ => ?_⟩
  rcases staged with error | layout
  · rintro e late ⟨⟩ he
    cases error <;> cases he
  · refine askWithGrace_allotting rfl h fun same deadline reply => ?_
    subst same
    rcases reply with _ | error | service
    · exact backendFailure_allotting
    · exact backendFailure_allotting
    · exact ⟨trivial, reports_ok⟩

/-- A verdict reports what its result does. -/
theorem Respects.verdict {p : Program (Except DeployError α)} {f : α → Outcome} {licence : Licence}
    (h : p.Respects (fun _ => True) licence (fun result seen _ => Reports waited result seen) seen r) :
    (p.map fun result => (⟨action, result.map f⟩ : Verdict)).Respects (fun _ => True) licence
      (fun verdict seen _ => Reports waited verdict.result seen) seen r := by
  refine respects_map.mpr (h.mono fun result seen r reports => ?_)
  cases result with
  | error e => exact reports.error
  | ok a => exact reports_ok

/-- An operation that keeps to the timeout waits for it. -/
theorem waitsFor_of_respects {op : Operation} (h : (op.program settings).Respects (fun _ => True)
      (allotting waited settings.backendGrace) (fun verdict seen _ => Reports waited verdict.result seen) [] r) :
    op.WaitsFor settings waited r := by
  intro r' seen p steps
  constructor
  · intro a ha c hc
    obtain ⟨_, _, licensed⟩ := h.licensed steps (fun _ _ => trivial) ha hc
    exact licensed
  · rintro verdict rfl
    exact h.steps steps fun _ _ => trivial

/-- A deployment waits for the timeout of its request. Where it calls for none, any other is as good. -/
theorem deploy_waitsFor (h : waited = request.startTimeout ∨ request.startTimeout.add? settings.backendGrace = none
      ∨ ∃ s, Plan.decide request.decision (r.find request.identity) = .reuse s ∧ s.isRunning = true) :
    (deploy request).WaitsFor settings waited r := by
  refine waitsFor_of_respects (Respects.verdict ?_)
  unfold carryOut
  split
  · rename_i plan
    refine deployNew_allotting (h.imp_right fun h => h.resolve_right ?_)
    rintro ⟨s, reused, -⟩
    cases plan.symm.trans reused
  · rename_i plan
    refine deployNew_allotting (h.imp_right fun h => h.resolve_right ?_)
    rintro ⟨s, reused, -⟩
    cases plan.symm.trans reused
  · rename_i service plan
    refine ensureRunning_allotting (h.imp_right (Or.imp_right ?_))
    rintro ⟨s, reused, running⟩
    cases plan.symm.trans reused
    exact running

/-- A start waits for the timeout that it was given, or else for that of the settings. -/
theorem start_waitsFor (settings : Settings) (i : Identity) (timeout : Option Duration) (r : Registry) :
    (start i timeout).WaitsFor settings (timeout.getD settings.defaultStartTimeout) r := by
  refine waitsFor_of_respects ?_
  dsimp only [program, Respects]
  split
  · rintro e late ⟨⟩ he
    cases he
  · exact Respects.verdict (ensureRunning_allotting (Or.inl rfl))

/-! ### Calls that set no timeout -/

/-- A request whose draft sets no timeout has one of its own. -/
theorem startTimeout_of_build {d : RequestDraft} (unset : d.startTimeout = none) (built : d.build = .ok request) :
    request.startTimeout = defaultStartTimeout := by
  rw [RequestDraft.build, unset] at built
  cases hi : d.identity <;> cases hr : d.runId <;> cases ha : d.artifactUri <;> cases hk : d.kind
    <;> cases hd : d.decision <;> simp only [hi, hr, ha, hk, hd] at built <;> cases built
  rfl

/-- The program can come to a call that is waited for up to the deadline and gives a service the timeout. -/
def Asks (p : Program α) (timeout deadline : Duration) (r : Registry) : Prop :=
  ∃ seen q c reply, Steps p r seen q r ∧ .call (.askWithin c deadline) reply ∈ seen ∧ c.timeout? = some timeout

theorem Asks.map {p : Program α} {deadline : Duration} (h : Asks p timeout deadline r) (f : α → β) :
    Asks (p.map f) timeout deadline r := by
  obtain ⟨seen, q, c, reply, steps, asked, given⟩ := h
  exact ⟨seen, _, c, reply, steps.bind _, asked, given⟩

theorem Asks.head {p q : Program α} {a : Access} {deadline : Duration} (first : Step p r a q r)
    (h : Asks q timeout deadline r) : Asks p timeout deadline r := by
  obtain ⟨seen, q, c, reply, steps, asked, given⟩ := h
  exact ⟨a :: seen, q, c, reply, .head first steps, List.mem_cons_of_mem _ asked, given⟩

theorem askWithGrace_asks {c : BackendCall} {next : Option c.Reply → Program α} {deadline : Duration}
    (given : c.timeout? = some timeout) (hd : timeout.add? grace = some deadline) :
    Asks (askWithGrace grace timeout c next) timeout deadline r := by
  unfold askWithGrace
  rw [hd]
  exact ⟨_, _, c, none, .head (.call (c := .askWithin c deadline) none) (.refl _ _), List.mem_cons_self, given⟩

theorem deployNew_asks {replace : Bool} {deadline : Duration}
    (hd : request.startTimeout.add? settings.backendGrace = some deadline) :
    Asks (deployNew settings request replace) request.startTimeout deadline r :=
  .head (.call (c := .stage _ _ _) (Except.ok ⟨request.artifactUri, request.kind⟩)) (askWithGrace_asks rfl hd)

/-- A deployment that does not find its service running gives the backend the timeout of its request, if the deadline
is in range. -/
theorem deploy_asks {deadline : Duration} (hd : request.startTimeout.add? settings.backendGrace = some deadline)
    (h : ∀ s, Plan.decide request.decision (r.find request.identity) = .reuse s → s.isRunning = false) :
    Asks ((deploy request).program settings) request.startTimeout deadline r := by
  refine .head .read (.map ?_ _)
  cases plan : Plan.decide request.decision (r.find request.identity) with
  | deployNew => exact deployNew_asks hd
  | replace service => exact deployNew_asks hd
  | reuse service =>
    dsimp only [carryOut]
    rw [ensureRunning, if_neg (by simp [h service plan])]
    exact askWithGrace_asks rfl hd

/-- An operation that gives the backend one timeout waits for no other. -/
theorem not_waitsFor_of_asks {op : Operation} {deadline : Duration}
    (h : Asks (op.program settings) timeout deadline r) (differs : waited ≠ timeout) :
    ¬op.WaitsFor settings waited r := by
  obtain ⟨seen, q, c, reply, steps, asked, given⟩ := h
  intro waits
  have allots := (waits steps).1 _ asked _ rfl
  exact differs (Option.some.inj (allots.1.symm.trans given))

/-- A start without a timeout waits for that of the settings. A deployment whose request sets none waits for one that
no settings change, so it waits for that of the settings exactly if the two are the same, or if it comes to no call that
waits: since the service to reuse runs, or since the deadline would be out of range. -/
theorem unset_timeout_configured_iff (settings : Settings) {d : RequestDraft} (unset : d.startTimeout = none)
    (built : d.build = .ok request) (r : Registry) :
    (∀ i, (start i none).WaitsFor settings settings.defaultStartTimeout r)
      ∧ (deploy request).WaitsFor settings defaultStartTimeout r
      ∧ ((deploy request).WaitsFor settings settings.defaultStartTimeout r ↔
          settings.defaultStartTimeout = defaultStartTimeout
            ∨ defaultStartTimeout.add? settings.backendGrace = none
            ∨ ∃ s, Plan.decide request.decision (r.find request.identity) = .reuse s ∧ s.isRunning = true) := by
  have own := startTimeout_of_build unset built
  refine ⟨fun i => start_waitsFor settings i none r, deploy_waitsFor (Or.inl own.symm), fun waits => ?_, fun h => ?_⟩
  · by_contra differs
    simp only [not_or, not_exists, not_and, Bool.not_eq_true] at differs
    obtain ⟨differs, inRange, notRunning⟩ := differs
    rw [← own] at inRange differs
    obtain ⟨deadline, hd⟩ := Option.ne_none_iff_exists'.mp inRange
    exact not_waitsFor_of_asks (deploy_asks hd notRunning) differs waits
  · rw [← own] at h
    exact deploy_waitsFor h

/-- A draft with everything that a request needs but a timeout. -/
def hastyDraft (decision : Bool) : RequestDraft where
  identity := some (Service.sample 0 .running).identity
  runId := some "run"
  artifactUri := some "/models/iris"
  kind := some .sklearn
  decision := some decision

def hastyRequest (decision : Bool) : Request :=
  ⟨(Service.sample 0 .running).identity, "run", "/models/iris", .sklearn, decision, defaultStartTimeout, none⟩

/-- With the default settings the two timeouts are the same. -/
theorem unset_timeout_configured_iff_default : (hastyDraft true).startTimeout = none
    ∧ (hastyDraft true).build = .ok (hastyRequest true)
    ∧ (deploy (hastyRequest true)).WaitsFor .default Settings.default.defaultStartTimeout .empty :=
  ⟨rfl, rfl, (unset_timeout_configured_iff .default (d := hastyDraft true) rfl rfl .empty).2.2.mpr (Or.inl rfl)⟩

/-- Settings that give services a second to start. -/
def hastySettings : Settings :=
  { Settings.default with defaultStartTimeout := Duration.ofSeconds 1 }

/-- The settings give a second, but a request that sets no timeout has five minutes: its deployment waits for these, be
it to create a service, to replace one, or to start one that is kept. -/
theorem unset_timeout_ignores_settings : hastySettings.Valid
    ∧ (∀ decision, (hastyDraft decision).startTimeout = none ∧ (hastyDraft decision).build = .ok (hastyRequest decision)
        ∧ (hastyRequest decision).Valid ∧ (hastyRequest decision).startTimeout = Duration.ofSeconds 300)
    ∧ ¬(deploy (hastyRequest true)).WaitsFor hastySettings hastySettings.defaultStartTimeout .empty
    ∧ ¬(deploy (hastyRequest true)).WaitsFor hastySettings hastySettings.defaultStartTimeout ⟨[.sample 0 .running]⟩
    ∧ ¬(deploy (hastyRequest false)).WaitsFor hastySettings hastySettings.defaultStartTimeout
        ⟨[.sample 0 .stopped]⟩ := by
  have found (state : ServiceState) : (Registry.mk [.sample 0 state]).find (Service.sample 0 .running).identity
      = [.sample 0 state] := by
    simp [Registry.find, Service.sample]
  have fits : defaultStartTimeout.add? hastySettings.backendGrace = some (Duration.ofSeconds 305) :=
    Duration.add?_eq_some_iff.mpr rfl
  have hasty : hastySettings.defaultStartTimeout ≠ defaultStartTimeout := by decide
  have waits (decision : Bool) (r : Registry)
      (h : ∀ s, Plan.decide decision (r.find (Service.sample 0 .running).identity) = .reuse s → s.isRunning = false) :
      ¬(deploy (hastyRequest decision)).WaitsFor hastySettings hastySettings.defaultStartTimeout r := by
    have asks : Asks ((deploy (hastyRequest decision)).program hastySettings) (hastyRequest decision).startTimeout
        (Duration.ofSeconds 305) r := deploy_asks fits h
    exact not_waitsFor_of_asks asks hasty
  have kept (services : List Service) (s : Service) : Plan.decide true services ≠ .reuse s := by
    cases services <;> simp [Plan.decide]
  refine ⟨by decide, by decide, waits true _ fun s h => absurd h (kept _ s),
    waits true _ fun s h => absurd h (kept _ s), waits false _ ?_⟩
  rw [found]
  rintro s ⟨⟩
  rfl

end Operation
end ServingLifecycle
