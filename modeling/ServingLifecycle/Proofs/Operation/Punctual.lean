import ServingLifecycle.Operation
import ServingLifecycle.Proofs.Backend.Calls
/-!
# Punctual operations

A call that the backend may leave unanswered is never made without a deadline, whatever was read and replied
before. So no operation waits for ever.
-/
namespace ServingLifecycle

/-- A call that waits for a service has a deadline. -/
def Call.Punctual (c : Call) : Prop :=
  ∀ bc ∈ c.backendCall?, bc.timeout?.isSome = true → c.deadline?.isSome = true

namespace Program

variable {α β : Type} {p q : Program α}

/-- Every call that the program may come to is punctual. -/
def Punctual : Program α → Prop
  | done _ => True
  | abort _ => True
  | read _ next => ∀ services, (next services).Punctual
  | write _ next => next.Punctual
  | call c next => c.Punctual ∧ ∀ reply, (next reply).Punctual

theorem punctual_bind {f : α → Program β} (hp : p.Punctual) (hf : ∀ a, (f a).Punctual) :
    (p.bind f).Punctual := by
  induction p with
  | done a => exact hf a
  | abort fault => trivial
  | read i next ih => exact fun services => ih services (hp services)
  | write change next ih => exact ih hp
  | call c next ih => exact ⟨hp.1, fun reply => ih reply (hp.2 reply)⟩

theorem punctual_map (hp : p.Punctual) (f : α → β) : (p.map f).Punctual :=
  punctual_bind hp fun _ => trivial

theorem Punctual.step {r r' : Registry} {a : Access} (hp : p.Punctual) (step : Step p r a q r') : q.Punctual := by
  cases step with
  | read => exact hp _
  | write => exact hp
  | call reply => exact hp.2 reply
  | breakOff text => trivial

theorem punctual_of_isOver (hover : p.isOver = true) : p.Punctual := by
  cases p with
  | done | abort => trivial
  | read | write | call => cases hover

end Program

namespace Operation
open Program

variable {i : Identity} {action : Action} {grace timeout : Duration} {settings : Settings}

theorem punctual_askWithGrace {α : Type} {c : BackendCall} {next : Option c.Reply → Program α}
    (h : ∀ reply, (next reply).Punctual) : (askWithGrace grace timeout c next).Punctual := by
  unfold askWithGrace
  split
  · trivial
  · exact ⟨fun _ _ _ => rfl, h⟩

theorem punctual_backendFailure {α : Type} (error : BackendError) :
    (backendFailure (α := α) i action timeout error).Punctual := by
  rcases error with text | text | _ | service <;> trivial

theorem punctual_stopAll {stopped services : List Service} : (stopAll i action stopped services).Punctual := by
  induction services generalizing stopped with
  | nil => trivial
  | cons service rest ih =>
    unfold stopAll
    split
    · exact ih
    · refine ⟨fun bc hbc waits => ?_, fun reply => ?_⟩
      · cases hbc
        cases waits
      · cases reply with
        | error e => trivial
        | ok u => exact ih

theorem punctual_retireOthers {current : Service} : (retireOthers current action).Punctual := by
  intro services
  dsimp only
  split
  · trivial
  · refine punctual_bind punctual_stopAll fun result => ?_
    cases result <;> trivial

theorem punctual_ensureRunning {service : Service} : (ensureRunning grace service timeout action).Punctual := by
  unfold ensureRunning
  split
  · exact punctual_retireOthers
  · refine punctual_askWithGrace fun reply => ?_
    rcases reply with _ | error | started
    · exact punctual_backendFailure _
    · exact punctual_backendFailure error
    · exact punctual_retireOthers

theorem punctual_deployNew {request : Request} {replace : Bool} : (deployNew settings request replace).Punctual := by
  refine ⟨fun bc hbc => (by cases hbc), fun staged => ?_⟩
  cases staged with
  | error e => trivial
  | ok layout =>
    refine punctual_askWithGrace fun reply => ?_
    rcases reply with _ | error | service
    · exact punctual_backendFailure _
    · exact punctual_backendFailure error
    · trivial

theorem punctual_refreshAll {refreshed services : List Service} : (refreshAll i refreshed services).Punctual := by
  induction services generalizing refreshed with
  | nil => trivial
  | cons service rest ih =>
    refine ⟨fun bc hbc waits => ?_, fun reply => ?_⟩
    · cases hbc
      cases waits
    · cases reply with
      | error e => trivial
      | ok state => exact ih

theorem punctual_program (op : Operation) : (op.program settings).Punctual := by
  cases op with
  | deploy request =>
    refine fun services => punctual_map ?_ _
    rcases services with _ | ⟨newest, rest⟩
    · exact punctual_deployNew
    · cases hd : request.decision
      · exact punctual_ensureRunning
      · exact punctual_deployNew
  | start i timeout =>
    rintro (_ | ⟨newest, rest⟩)
    · trivial
    · exact punctual_map punctual_ensureRunning _
  | stop i =>
    intro services
    dsimp only
    split
    · trivial
    · exact punctual_map punctual_stopAll _
  | delete i =>
    refine fun services => punctual_bind punctual_stopAll fun result => ?_
    cases result <;> trivial
  | refresh i => exact fun services => punctual_map punctual_refreshAll _

end Operation
end ServingLifecycle
