import ServingLifecycle.Proofs.Operation.Performs
import ServingLifecycle.Proofs.Registry.Entries
/-!
# Successful operations

A deployment or a start that succeeds leaves the service that it answers with, and nothing else, in the
slot, along whichever branch it went and however many services were there.
-/
namespace ServingLifecycle.Operation
open Program Registry

variable {i : Identity} {r : Registry} {seen : List Access}

/-- If the result is a service, it is all that the slot holds. -/
def LeavesResult (i : Identity) (result : Except DeployError Service) (_ : List Access)
    (r : Registry) : Prop :=
  ∀ s, result = .ok s → r.find i = [s]

theorem leavesResult_error {e : DeployError} : LeavesResult i (.error e) seen r :=
  fun _ h => by cases h

theorem retireOthers_leavesResult {current : Service} {action : Action}
    (hr : ((r.find i).map Service.uuid).Nodup) (hc : current ∈ r.find i) :
    (retireOthers current action).Ensures (LeavesResult i) seen r := by
  obtain rfl := identity_of_mem_find hc
  dsimp only [retireOthers, Ensures]
  split
  · rename_i he
    rintro s ⟨⟩
    refine find_eq_singleton hr hc fun t ht => ?_
    by_contra hne
    have hm : t ∈ (r.find current.identity).filter fun s => s.uuid ≠ current.uuid := by
      simp [ht, hne]
    rw [List.isEmpty_iff.mp he] at hm
    cases hm
  · refine ensures_bind.mpr (ensures_of_forall fun result seen r => ?_)
    cases result with
    | error e => exact leavesResult_error
    | ok l =>
      rintro s ⟨⟩
      exact (find_supersede r current _).trans (if_pos rfl)

theorem backendFailure_leavesResult {action : Action} {timeout : Duration} {error : BackendError}
    {i' : Identity} :
    (backendFailure i' action timeout error).Ensures (LeavesResult i) seen r :=
  ensures_backendFailure (fun _ => leavesResult_error) (fun _ _ => leavesResult_error)

theorem ensureRunning_leavesResult {grace timeout : Duration} {service : Service} {action : Action}
    (hr : ((r.find i).map Service.uuid).Nodup) (hs : service ∈ r.find i) :
    (ensureRunning grace service timeout action).Ensures (LeavesResult i) seen r := by
  unfold ensureRunning
  split
  · exact retireOthers_leavesResult hr hs
  · refine ensures_askWithGrace fun deadline reply hf => ?_
    rcases reply with _ | error | started
    · exact backendFailure_leavesResult
    · exact backendFailure_leavesResult
    · have hi : started.identity = i :=
        (Option.some.inj (hf started rfl)).symm.trans (identity_of_mem_find hs)
      subst hi
      exact retireOthers_leavesResult (nodup_find_apply hr (.record started))
        (mem_find_record_self r started)

theorem deployNew_leavesResult {settings : Settings} {request : Request} {replace : Bool}
    (hempty : replace = false → r.find request.identity = []) :
    (deployNew settings request replace).Ensures (LeavesResult request.identity) seen r := by
  dsimp only [deployNew, Ensures]
  intro staged _
  cases staged with
  | error e => exact leavesResult_error
  | ok layout =>
    refine ensures_askWithGrace fun deadline reply hf => ?_
    rcases reply with _ | error | service
    · exact backendFailure_leavesResult
    · exact backendFailure_leavesResult
    · have hi : request.identity = service.identity := Option.some.inj (hf service rfl)
      rintro s ⟨⟩
      rw [hi] at hempty ⊢
      cases replace with
      | true => exact (find_supersede r service _).trans (if_pos rfl)
      | false => exact find_record_of_find_nil (hempty rfl)

/-- The operations that answer with a service. -/
def answersService : Operation → Bool
  | deploy _ => true
  | start _ _ => true
  | _ => false

/-- A success of an operation that answers with a service leaves it, and nothing else, in the slot. -/
def LeavesAnswer (op : Operation) (verdict : Verdict) (_ : List Access) (r : Registry) : Prop :=
  op.answersService = true → ∀ outcome, verdict.result = .ok outcome →
    ∃ s, outcome = .service s ∧ r.find op.identity = [s]

theorem LeavesResult.answer {op : Operation} {action : Action} {result : Except DeployError Service}
    (h : LeavesResult op.identity result seen r) :
    LeavesAnswer op ⟨action, result.map .service⟩ seen r := by
  intro _ outcome ho
  cases result with
  | error e => cases ho
  | ok s => exact ⟨s, (Except.ok.inj ho).symm, h s rfl⟩

theorem program_leavesAnswer {settings : Settings} {op : Operation}
    (hr : ((r.find op.identity).map Service.uuid).Nodup) :
    (op.program settings).Ensures (LeavesAnswer op) [] r := by
  cases op with
  | deploy request =>
    refine ensures_map.mpr (Ensures.mono (fun _ _ _ h => LeavesResult.answer h) ?_)
    cases hc : r.find request.identity with
    | nil => exact deployNew_leavesResult fun _ => hc
    | cons newest rest =>
      cases hd : request.decision
      · exact ensureRunning_leavesResult hr (hc ▸ List.mem_cons_self)
      · exact deployNew_leavesResult fun h => by cases h
  | start i timeout =>
    dsimp only [program, Ensures]
    cases hc : r.find i with
    | nil => exact fun _ outcome ho => by cases ho
    | cons newest rest =>
      exact ensures_map.mpr ((ensureRunning_leavesResult hr (hc ▸ List.mem_cons_self)).mono
        fun _ _ _ h => LeavesResult.answer h)
  | _ => exact ensures_of_forall fun _ _ _ h => by cases h

end ServingLifecycle.Operation
