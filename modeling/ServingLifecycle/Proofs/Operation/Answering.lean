import ServingLifecycle.Proofs.Operation.Performs
import ServingLifecycle.Proofs.Registry.Entries
/-!
# Operations that always answer

A program completes if it comes to an answer of its own whatever it finds and whatever is replied: it never breaks
off, and it can be run to its end from wherever it has come. Every operation does, unless it gives a service so long
to start that the timeout and the grace of the backend together leave the range of durations. Then the operation
breaks off where it would have called the backend.
-/
namespace ServingLifecycle

/-- The reply of storage that has nothing and of a backend that is away. -/
def Call.refusal : (c : Call) → c.Reply
  | stage uri _ _ => Except.error (.notFound uri)
  | ask _ => Except.error (.unavailable "offline")
  | askWithin _ _ => some (Except.error (.unavailable "offline"))

namespace Access

/-- It is no call that broke off. -/
def isWhole : Access → Bool
  | brokenOff .. => false
  | _ => true

/-- A call is answered by these replies. -/
def AnsweredBy (replies : (c : Call) → c.Reply) : Access → Prop
  | call c reply => reply = replies c
  | brokenOff .. => False
  | _ => True

end Access

namespace Program

variable {α β : Type} {p q : Program α} {r r' : Registry} {a : Access} {seen : List Access}

def Completes : Program α → Prop
  | done _ => True
  | abort _ => False
  | read _ next => ∀ services, (next services).Completes
  | write _ next => next.Completes
  | call _ next => ∀ reply, (next reply).Completes

theorem completes_bind {f : α → Program β} (hp : p.Completes) (hf : ∀ a, (f a).Completes) :
    (p.bind f).Completes := by
  induction p with
  | done a => exact hf a
  | abort fault => exact hp.elim
  | read i next ih => exact fun services => ih services (hp services)
  | write change next ih => exact ih hp
  | call c next ih => exact fun reply => ih reply (hp reply)

theorem completes_map (hp : p.Completes) (f : α → β) : (p.map f).Completes :=
  completes_bind hp fun _ => trivial

theorem Completes.step (h : p.Completes) (step : Step p r a q r') (whole : a.isWhole = true) : q.Completes := by
  cases step with
  | read => exact h _
  | write => exact h
  | call reply => exact h reply
  | breakOff text => cases whole

theorem Completes.steps (h : p.Completes) (steps : Steps p r seen q r') (whole : ∀ a ∈ seen, a.isWhole = true) :
    q.Completes := by
  induction steps with
  | refl p r => exact h
  | head first rest ih =>
    exact ih (h.step first (whole _ List.mem_cons_self)) fun a ha => whole a (List.mem_cons_of_mem _ ha)

/-- With any replies a program that completes runs to its end. -/
theorem Completes.exists_steps (h : p.Completes) (replies : (c : Call) → c.Reply) (r : Registry) :
    ∃ seen a r', Steps p r seen (.done a) r' ∧ ∀ x ∈ seen, x.AnsweredBy replies := by
  induction p generalizing r with
  | done a => exact ⟨[], a, r, .refl _ _, by simp⟩
  | abort fault => exact h.elim
  | read i next ih =>
    obtain ⟨seen, a, r', steps, answered⟩ := ih (r.find i) (h (r.find i)) r
    exact ⟨_, a, r', .head .read steps, List.forall_mem_cons.mpr ⟨trivial, answered⟩⟩
  | write change next ih =>
    obtain ⟨seen, a, r', steps, answered⟩ := ih h (r.apply change)
    exact ⟨_, a, r', .head .write steps, List.forall_mem_cons.mpr ⟨trivial, answered⟩⟩
  | call c next ih =>
    obtain ⟨seen, a, r', steps, answered⟩ := ih (replies c) (h (replies c)) r
    exact ⟨_, a, r', .head (.call (replies c)) steps, List.forall_mem_cons.mpr ⟨rfl, answered⟩⟩

theorem Steps.ends {q' : Program α} (h : Steps p r seen q r') (e : q = q') : Steps p r seen q' r' :=
  e ▸ h

end Program

namespace Operation
open Program

variable {i : Identity} {action : Action} {grace timeout : Duration} {settings : Settings}

/-- How long an operation gives the backend to start a service. -/
def patience (settings : Settings) : Operation → Option Duration
  | deploy request => some request.startTimeout
  | start _ timeout => some (timeout.getD settings.defaultStartTimeout)
  | _ => none

/-- However the operation has come along without a call that broke off, it goes on from there to a verdict, whatever
is replied. -/
def AlwaysAnswers (settings : Settings) (op : Operation) : Prop :=
  ∀ {r r' : Registry} {seen : List Access} {p : Program Verdict}, Steps (op.program settings) r seen p r' →
    (∀ a ∈ seen, a.isWhole = true) → ∀ replies : (c : Call) → c.Reply,
      ∃ more verdict r'', Steps p r' more (.done verdict) r'' ∧ ∀ a ∈ more, a.AnsweredBy replies

theorem completes_askWithGrace {α : Type} {c : BackendCall} {next : Option c.Reply → Program α}
    (fits : (timeout.add? grace).isSome = true) (h : ∀ reply, (next reply).Completes) :
    (askWithGrace grace timeout c next).Completes := by
  obtain ⟨deadline, hd⟩ := Option.isSome_iff_exists.mp fits
  unfold askWithGrace
  rw [hd]
  exact h

theorem completes_backendFailure {α : Type} (error : BackendError) :
    (backendFailure (α := α) i action timeout error).Completes := by
  rcases error with text | text | _ | service <;> trivial

theorem completes_stopAll {stopped services : List Service} : (stopAll i action stopped services).Completes := by
  induction services generalizing stopped with
  | nil => trivial
  | cons service rest ih =>
    unfold stopAll
    split
    · exact ih
    · intro reply
      cases reply with
      | error e => trivial
      | ok u => exact ih

theorem completes_retireOthers {current : Service} : (retireOthers current action).Completes := by
  intro services
  dsimp only
  split
  · trivial
  · refine completes_bind completes_stopAll fun result => ?_
    cases result <;> trivial

theorem completes_ensureRunning {service : Service} (fits : (timeout.add? grace).isSome = true) :
    (ensureRunning grace service timeout action).Completes := by
  unfold ensureRunning
  split
  · exact completes_retireOthers
  · refine completes_askWithGrace fits fun reply => ?_
    rcases reply with _ | error | started
    · exact completes_backendFailure _
    · exact completes_backendFailure error
    · exact completes_retireOthers

theorem completes_deployNew {request : Request} {replace : Bool}
    (fits : (request.startTimeout.add? settings.backendGrace).isSome = true) :
    (deployNew settings request replace).Completes := by
  intro staged
  cases staged with
  | error e => trivial
  | ok layout =>
    refine completes_askWithGrace fits fun reply => ?_
    rcases reply with _ | error | service
    · exact completes_backendFailure _
    · exact completes_backendFailure error
    · trivial

theorem completes_refreshAll {refreshed services : List Service} : (refreshAll i refreshed services).Completes := by
  induction services generalizing refreshed with
  | nil => trivial
  | cons service rest ih =>
    intro reply
    cases reply with
    | error e => trivial
    | ok state => exact ih

theorem completes_program {op : Operation}
    (fits : ∀ timeout ∈ op.patience settings, (timeout.add? settings.backendGrace).isSome = true) :
    (op.program settings).Completes := by
  cases op with
  | deploy request =>
    have fits := fits _ rfl
    refine fun services => completes_map ?_ _
    rcases services with _ | ⟨newest, rest⟩
    · exact completes_deployNew fits
    · cases hd : request.decision
      · exact completes_ensureRunning fits
      · exact completes_deployNew fits
  | start i timeout =>
    rintro (_ | ⟨newest, rest⟩)
    · trivial
    · exact completes_map (completes_ensureRunning (fits _ rfl)) _
  | stop i =>
    intro services
    dsimp only
    split
    · trivial
    · exact completes_map completes_stopAll _
  | delete i =>
    refine fun services => completes_bind completes_stopAll fun result => ?_
    cases result <;> trivial
  | refresh i => exact fun services => completes_map completes_refreshAll _

/-! ### Too long a timeout -/

theorem askWithGrace_overflow {α : Type} {c : BackendCall} {next : Option c.Reply → Program α}
    (overflow : timeout.add? grace = none) : askWithGrace grace timeout c next = .abort .durationOverflow := by
  unfold askWithGrace
  rw [overflow]

/-- With nothing recorded a deployment stages its artifact and then breaks off. -/
theorem deploy_breaks_off {request : Request} (overflow : request.startTimeout.add? settings.backendGrace = none)
    (layout : Layout) : Steps ((deploy request).program settings) .empty
      [.read request.identity [],
        .call (.stage request.artifactUri request.kind (stagingRoot settings request)) (.ok layout)]
      (.abort .durationOverflow) .empty := by
  refine (Steps.head .read (.head (.call (c := .stage _ _ _) (Except.ok layout)) (.refl _ _))).ends ?_
  dsimp only
  rw [askWithGrace_overflow overflow]
  rfl

/-- A start of a stopped service breaks off before it calls the backend. -/
theorem start_breaks_off (service : Service) {timeout : Option Duration} (stopped : service.isRunning = false)
    (overflow : (timeout.getD settings.defaultStartTimeout).add? settings.backendGrace = none) :
    Steps ((start service.identity timeout).program settings) ⟨[service]⟩ [.read service.identity [service]]
      (.abort .durationOverflow) ⟨[service]⟩ := by
  have found : (Registry.mk [service]).find service.identity = [service] := by simp [Registry.find]
  have first : Steps ((start service.identity timeout).program settings) ⟨[service]⟩
      [.read service.identity ((Registry.mk [service]).find service.identity)] _ ⟨[service]⟩ := .head .read (.refl _ _)
  rw [found] at first
  refine first.ends ?_
  dsimp only
  rw [ensureRunning, if_neg (by simp [stopped]), askWithGrace_overflow overflow]
  rfl

/-- An operation comes to a verdict in every way, whatever it finds and is replied, exactly if the time that it gives
a service to start is in range together with the grace of the backend. -/
theorem answers_iff_deadline_fits (settings : Settings) (op : Operation) : op.AlwaysAnswers settings ↔
    ∀ timeout ∈ op.patience settings, (timeout.add? settings.backendGrace).isSome = true := by
  constructor
  · intro answers
    have goesOn {r r' : Registry} {seen : List Access} (steps : Steps (op.program settings) r seen
        (.abort .durationOverflow) r') (whole : ∀ a ∈ seen, a.isWhole = true) : False := by
      obtain ⟨more, verdict, r'', rest, -⟩ := answers steps whole Call.refusal
      exact not_steps_of_abort rest
    cases op with
    | deploy request =>
      rintro _ ⟨⟩
      refine Option.isSome_iff_ne_none.mpr fun overflow => goesOn (deploy_breaks_off overflow ⟨"", request.kind⟩) ?_
      simp [Access.isWhole]
    | start i timeout =>
      rintro _ ⟨⟩
      refine Option.isSome_iff_ne_none.mpr fun overflow => ?_
      exact goesOn (start_breaks_off { Service.sample 0 .stopped with identity := i } rfl overflow)
        (by simp [Access.isWhole])
    | stop i => nofun
    | delete i => nofun
    | refresh i => nofun
  · intro fits r r' seen p steps whole replies
    exact ((completes_program fits).steps steps whole).exists_steps replies r'

/-- The longest duration that there is. -/
def longestWait : Duration := ⟨Nat.pow 2 64 * Nat.pow 10 9 - 1, by decide⟩

/-- A draft with everything that a request needs, and the longest timeout. -/
def patientDraft : RequestDraft where
  identity := some ⟨"p1", "s1", "m1"⟩
  runId := some "run-1"
  artifactUri := some "art"
  kind := some .sklearn
  decision := some true
  startTimeout := some longestWait

def patientRequest : Request :=
  ⟨⟨"p1", "s1", "m1"⟩, "run-1", "art", .sklearn, true, longestWait, none⟩

/-- A valid request with the longest timeout, under the default settings: its deployment breaks off once its artifact
is staged, though every call was answered. -/
theorem longest_wait_breaks_off : Settings.default.Valid ∧ patientDraft.build = .ok patientRequest
    ∧ patientRequest.Valid ∧ ∃ seen, Steps ((deploy patientRequest).program .default) .empty seen
        (.abort .durationOverflow) .empty
      ∧ .call (.stage "art" .sklearn (stagingRoot .default patientRequest)) (.ok ⟨"served", .sklearn⟩) ∈ seen
      ∧ ∀ a ∈ seen, a.isWhole = true := by
  refine ⟨by decide, rfl, by decide, _, deploy_breaks_off rfl ⟨"served", .sklearn⟩, ?_, ?_⟩
  · exact List.mem_cons_of_mem _ List.mem_cons_self
  · simp [Access.isWhole]

end Operation
end ServingLifecycle
