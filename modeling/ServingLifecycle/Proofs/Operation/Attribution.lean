import ServingLifecycle.Proofs.Operation.Performs
import ServingLifecycle.Proofs.Program.Yields
/-!
# What an operation accounts for

An operation attempts one action: a deployment the one that was decided on from the services that it found. Each
of its errors names that action, and the slot of the operation. Only where the backend answers a start with a
service of another slot may an error name another, and it is the slot of that service then.
-/
namespace ServingLifecycle.Operation
open Program

/-- A start was answered with a service of this slot. -/
def AnsweredFrom (j : Identity) (seen : List Access) : Prop :=
  ∃ service timeout deadline started,
    .call (.askWithin (.start service timeout) deadline) (some (.ok started)) ∈ seen ∧ started.identity = j

/-- A slot that stands for `i` in errors, by all that was seen. -/
def Stands (i : Identity) (seen : List Access) (j : Identity) : Prop :=
  j = i ∨ AnsweredFrom j seen

/-- If the result is an error, it names the action and a slot that stands for the one of the operation. -/
def Attributed {α : Type} (i : Identity) (action : Action) (result : Except DeployError α)
    (seen : List Access) : Prop :=
  ∀ e, result = .error e → e.action = action ∧ Stands i seen e.identity

variable {α β : Type} {i j : Identity} {action : Action} {seen : List Access}

theorem AnsweredFrom.append (h : AnsweredFrom j seen) (more : List Access) : AnsweredFrom j (seen ++ more) := by
  obtain ⟨service, timeout, deadline, started, hm, hi⟩ := h
  exact ⟨service, timeout, deadline, started, List.mem_append_left _ hm, hi⟩

theorem Stands.append (h : Stands i seen j) (more : List Access) : Stands i (seen ++ more) j :=
  h.imp_right fun answered => answered.append more

theorem attributed_ok {a : α} : Attributed i action (.ok a) seen :=
  fun _ h => by cases h

theorem attributed_error {failure : DeployFailure} (h : Stands i seen j) :
    Attributed (α := α) i action (.error ⟨j, action, failure⟩) seen := by
  rintro e ⟨⟩
  exact ⟨rfl, h⟩

/-- What went wrong is passed on as it is. -/
theorem Attributed.error {e : DeployError} (h : Attributed (α := α) i action (.error e) seen) :
    Attributed (α := β) i action (.error e) seen := by
  rintro _ ⟨⟩
  exact h e rfl

theorem yields_askWithGrace {post : α → List Access → Prop} {grace timeout : Duration} {c : BackendCall}
    {next : Option c.Reply → Program α}
    (h : ∀ deadline reply, (next reply).Yields post (seen ++ [.call (.askWithin c deadline) reply])) :
    (askWithGrace grace timeout c next).Yields post seen := by
  unfold askWithGrace
  split
  · trivial
  · exact h _

theorem backendFailure_attributed {timeout : Duration} {error : BackendError} (h : Stands i seen j) :
    (backendFailure (α := α) j action timeout error).Yields (Attributed i action) seen := by
  rcases error with text | text | _ | service
  · exact attributed_error h
  · exact attributed_error h
  · exact attributed_error h
  · exact attributed_error (h.append _)

theorem stopAll_attributed {stopped services : List Service} (h : Stands i seen j) :
    (stopAll j action stopped services).Yields (Attributed i action) seen := by
  induction services generalizing stopped seen with
  | nil => exact attributed_ok
  | cons service rest ih =>
    unfold stopAll
    split
    · exact ih h
    · intro reply
      cases reply with
      | error e => exact attributed_error (h.append _)
      | ok u => exact ih ((h.append _).append _)

theorem retireOthers_attributed {current : Service} (h : Stands i seen current.identity) :
    (retireOthers current action).Yields (Attributed i action) seen := by
  dsimp only [retireOthers, Yields]
  intro services _
  split
  · exact attributed_ok
  · refine yields_bind.mpr ((stopAll_attributed (h.append _)).mono fun result _ _ ha => ?_)
    cases result with
    | error e => exact ha.error
    | ok l => exact attributed_ok

theorem ensureRunning_attributed {grace timeout : Duration} {service : Service} (hi : service.identity = i) :
    (ensureRunning grace service timeout action).Yields (Attributed i action) seen := by
  have own : ∀ {seen}, Stands i seen service.identity := fun {_} => .inl hi
  unfold ensureRunning
  split
  · exact retireOthers_attributed own
  · refine yields_askWithGrace fun deadline reply => ?_
    rcases reply with _ | error | started
    · exact backendFailure_attributed own
    · exact backendFailure_attributed own
    · exact retireOthers_attributed (.inr ⟨service, timeout, deadline, started, by simp, rfl⟩)

theorem deployNew_attributed {settings : Settings} {request : Request} (replace : Bool) :
    (deployNew settings request replace).Yields
      (Attributed request.identity (if replace then .replace else .deploy)) seen := by
  intro staged
  cases staged with
  | error e => exact attributed_error (.inl rfl)
  | ok layout =>
    refine yields_askWithGrace fun deadline reply => ?_
    rcases reply with _ | error | service
    · exact backendFailure_attributed (.inl rfl)
    · exact backendFailure_attributed (.inl rfl)
    · exact attributed_ok

theorem refreshAll_attributed {refreshed services : List Service} :
    (refreshAll i refreshed services).Yields (Attributed i .reuse) seen := by
  induction services generalizing refreshed seen with
  | nil => exact attributed_ok
  | cons service rest ih =>
    intro reply
    cases reply with
    | error e => exact attributed_error (.inl rfl)
    | ok state => exact ih

/-- The services of a plan that was made from those of a slot are of that slot. -/
theorem carryOut_attributed {settings : Settings} {request : Request} {services : List Service}
    (hs : ∀ s ∈ services, s.identity = request.identity) :
    (carryOut settings request (Plan.decide request.decision services)).Yields
      (Attributed request.identity (Plan.decide request.decision services).action) seen := by
  cases services with
  | nil => exact deployNew_attributed false
  | cons newest rest =>
    cases hd : request.decision with
    | true => exact deployNew_attributed true
    | false => exact ensureRunning_attributed (hs newest List.mem_cons_self)

/-- What the operation was to do, given what it found. -/
def Intends (op : Operation) (action : Action) (seen : List Access) : Prop :=
  match op with
  | deploy request => ∃ services rest, seen = .read request.identity services :: rest
      ∧ action = (Plan.decide request.decision services).action
  | start .. => action = .start
  | stop _ => action = .stop
  | delete _ => action = .delete
  | refresh _ => action = .reuse

/-- The verdict names what the operation was to do, and so does its error. -/
def Accountable (op : Operation) (verdict : Verdict) (seen : List Access) : Prop :=
  Intends op verdict.attempted seen ∧ Attributed op.identity verdict.attempted verdict.result seen

theorem Attributed.map {result : Except DeployError α} (h : Attributed i action result seen)
    (f : α → β) : Attributed i action (result.map f) seen := by
  cases result with
  | error e => exact h.error
  | ok a => exact attributed_ok

theorem program_accountable (settings : Settings) (op : Operation) :
    (op.program settings).Yields (Accountable op) [] := by
  cases op with
  | deploy request =>
    intro services hs
    refine yields_map.mpr ((carryOut_attributed hs).mono fun result seen more ha => ⟨?_, ha.map _⟩)
    obtain ⟨rest, rfl⟩ := more
    exact ⟨services, rest, rfl, rfl⟩
  | start i timeout =>
    intro services hs
    cases services with
    | nil => exact ⟨rfl, attributed_error (.inl rfl)⟩
    | cons newest rest =>
      exact yields_map.mpr ((ensureRunning_attributed (hs newest List.mem_cons_self)).mono
        fun result _ _ ha => ⟨rfl, ha.map _⟩)
  | stop i =>
    dsimp only [program, Yields]
    intro services hs
    split
    · exact ⟨rfl, attributed_error (.inl rfl)⟩
    · exact yields_map.mpr ((stopAll_attributed (.inl rfl)).mono fun result _ _ ha => ⟨rfl, ha.map _⟩)
  | delete i =>
    intro services hs
    refine yields_bind.mpr ((stopAll_attributed (.inl rfl)).mono fun result _ _ ha => ?_)
    cases result with
    | error e => exact ⟨rfl, ha.error⟩
    | ok l => exact ⟨rfl, attributed_ok⟩
  | refresh i =>
    intro services hs
    exact yields_map.mpr (refreshAll_attributed.mono fun result _ _ ha => ⟨rfl, ha.map _⟩)

/-- Retiring fails when the first of the others cannot be stopped, and the error names the slot of the service
that stays. -/
theorem steps_retireOthers {current other : Service} {rest : List Service} {r : Registry} (action : Action)
    (error : BackendError)
    (others : (r.find current.identity).filter (fun s => s.uuid ≠ current.uuid) = other :: rest)
    (up : other.state.isDown = false) :
    Steps (retireOthers current action) r
      [.read current.identity (r.find current.identity), .call (.ask (.stop other)) (.error error)]
      (.done (.error ⟨current.identity, action, .ofBackend .zero error⟩)) r := by
  refine .head .read ?_
  simp only [others, List.isEmpty_cons, Bool.false_eq_true, if_false, stopAll, up]
  exact .head (.call (c := .ask (.stop other)) (Except.error error)) (.refl _ _)

/-- A service of another slot than the samples. -/
def strayed (n : Nat) : Service :=
  { Service.sample n .running with identity := ⟨"iris", "train", "regressor"⟩ }

/-- A start that is answered with a service of another slot fails when it stops the other services there, and its
error names that slot. -/
theorem start_names_other_slot : ∃ seen r' e,
    (Operation.start (Service.sample 1 .stopped).identity none).Performs .default ⟨[.sample 1 .stopped, strayed 3]⟩
        seen r' (.error e)
      ∧ e.identity ≠ (Service.sample 1 .stopped).identity := by
  have others : ((Registry.record ⟨[.sample 1 .stopped, strayed 3]⟩ (strayed 2)).find
      (strayed 2).identity).filter (fun s => s.uuid ≠ (strayed 2).uuid) = [strayed 3] := by
    rw [Registry.find_record, if_pos rfl]
    exact List.perm_singleton.mp ((List.mergeSort_perm _ _).filter _)
  have retired := steps_retireOthers .start (.unavailable "offline") others rfl
  have steps : Steps ((Operation.start (Service.sample 1 .stopped).identity none).program .default)
      ⟨[.sample 1 .stopped, strayed 3]⟩ _ (.done ⟨.start, .error ⟨(strayed 2).identity, _, _⟩⟩) _ :=
    .head .read (.head (.call (c := .askWithin (.start (.sample 1 .stopped) _) _)
      (some (Except.ok (strayed 2)))) (.head .write (retired.bind _)))
  exact ⟨_, _, _, .performed rfl steps, by decide⟩

end ServingLifecycle.Operation
