import ServingLifecycle.Operation
import ServingLifecycle.Proofs.Program.Licence
/-!
# Operations as their callers see them

`op.Performs settings r seen r' result`: asked for over the registry `r`, the operation `op` did `seen`,
left `r'` and answered `result`. An operation that is turned away does nothing.
-/
namespace ServingLifecycle.Operation
open Program

inductive Performs (settings : Settings) (op : Operation) :
    Registry → List Access → Registry → Except DeployError Outcome → Prop
  | refused {r : Registry} {error : DeployError} (h : op.refusal = some error) :
      Performs settings op r [] r (.error error)
  | performed {r r' : Registry} {seen : List Access} {verdict : Verdict} (h : op.refusal = none)
      (steps : Steps (op.program settings) r seen (.done verdict) r') :
      Performs settings op r seen r' verdict.result

/-- What succeeds has gone through its program. -/
theorem Performs.steps {settings : Settings} {op : Operation} {r r' : Registry} {seen : List Access}
    {outcome : Outcome} (h : op.Performs settings r seen r' (.ok outcome)) :
    ∃ verdict, Steps (op.program settings) r seen (.done verdict) r' ∧ verdict.result = .ok outcome := by
  generalize hres : Except.ok outcome = result at h
  cases h with
  | refused h => cases hres
  | performed h steps => exact ⟨_, steps, rfl⟩

variable {α : Type} {post : α → List Access → Registry → Prop} {seen : List Access} {r : Registry}

theorem ensures_askWithGrace {grace timeout : Duration} {c : BackendCall}
    {next : Option c.Reply → Program α}
    (h : ∀ deadline reply, Access.Faithful (.call (.askWithin c deadline) reply) →
      (next reply).Ensures post (seen ++ [.call (.askWithin c deadline) reply]) r) :
    (askWithGrace grace timeout c next).Ensures post seen r := by
  unfold askWithGrace
  split
  · trivial
  · exact fun reply hf => h _ reply hf

theorem ensures_backendFailure {β : Type} {post : Except DeployError β → List Access → Registry → Prop}
    {i : Identity} {action : Action} {timeout : Duration} {error : BackendError}
    (plain : error.handedOver = none → post (.error ⟨i, action, .ofBackend timeout error⟩) seen r)
    (recorded : ∀ s, error.handedOver = some s → post (.error ⟨i, action, .ofBackend timeout error⟩)
      (seen ++ [.write (.record s)]) (r.record s)) :
    (backendFailure i action timeout error).Ensures post seen r := by
  rcases error with text | text | _ | service
  · exact plain rfl
  · exact plain rfl
  · exact plain rfl
  · exact recorded service rfl

variable {trusted : Access → Prop} {licence : Licence}

theorem respects_askWithGrace {grace timeout : Duration} {c : BackendCall}
    {next : Option c.Reply → Program α} (called : ∀ deadline, licence.call seen r (.askWithin c deadline))
    (h : ∀ deadline reply, trusted (.call (.askWithin c deadline) reply) →
      (next reply).Respects trusted licence post (seen ++ [.call (.askWithin c deadline) reply]) r) :
    (askWithGrace grace timeout c next).Respects trusted licence post seen r := by
  unfold askWithGrace
  split
  · trivial
  · exact ⟨called _, fun reply ht => h _ reply ht⟩

theorem respects_backendFailure {β : Type} {post : Except DeployError β → List Access → Registry → Prop}
    {i : Identity} {action : Action} {timeout : Duration} {error : BackendError}
    (plain : error.handedOver = none → post (.error ⟨i, action, .ofBackend timeout error⟩) seen r)
    (recorded : ∀ s, error.handedOver = some s → licence.change seen r (.record s) ∧
      post (.error ⟨i, action, .ofBackend timeout error⟩) (seen ++ [.write (.record s)]) (r.record s)) :
    (backendFailure i action timeout error).Respects trusted licence post seen r := by
  rcases error with text | text | _ | service
  · exact plain rfl
  · exact plain rfl
  · exact plain rfl
  · exact recorded service rfl

end ServingLifecycle.Operation
