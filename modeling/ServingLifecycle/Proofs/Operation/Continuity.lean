import ServingLifecycle.Proofs.Operation.Performs
import ServingLifecycle.Proofs.Registry.Entries
/-!
# Continuity of serving

A start, and a deployment whose decision is negative, keep the newest service of the slot. They stop the others
only once it is recorded as running, so a slot with a running service has one at every moment, whichever of the
starts and stops fail. They neither stage anything nor create a service.
-/
namespace ServingLifecycle

/-- The call stages an artifact or creates a service. -/
def Call.builds : Call → Bool
  | stage .. => true
  | ask (.deploy ..) => true
  | askWithin (.deploy ..) _ => true
  | _ => false

/-- The service that a start hands over is the one that was asked for, and it runs if the start succeeded. -/
def BackendCall.Loyal : (c : BackendCall) → c.Reply → Prop
  | start asked _, .ok s => s.uuid = asked.uuid ∧ s.identity = asked.identity ∧ s.isRunning = true
  | start asked _, .error e => ∀ s ∈ e.handedOver, s.uuid = asked.uuid ∧ s.identity = asked.identity
  | _, _ => True

/-- If a start was answered, it was answered loyally. -/
def Access.Loyal : Access → Prop
  | call (.ask c) reply => c.Loyal reply
  | call (.askWithin c _) (some reply) => c.Loyal reply
  | _ => True

namespace Registry

/-- Some service of the slot is recorded as running. -/
def Serves (r : Registry) (i : Identity) : Prop :=
  ∃ s ∈ r.find i, s.isRunning = true

/-- A service that is recorded takes the place of the first one, if that has its id. -/
theorem mem_find_record_of_head {r : Registry} {i : Identity} {new first s : Service} {rest : List Service}
    (h : r.find i = first :: rest) (same : first.uuid = new.uuid) (hs : s ∈ rest) :
    s ∈ (r.record new).find i := by
  rw [find_record]
  split
  · rw [h, List.mem_mergeSort, update, if_pos same]
    exact List.mem_cons_of_mem _ hs
  · rw [h]
    exact List.mem_cons_of_mem _ hs

end Registry

namespace Operation
open Program Registry

/-- The operation keeps the newest service of its slot. -/
def keepsNewest : Operation → Bool
  | deploy request => !request.decision
  | start .. => true
  | _ => false

/-- The slot serves after every change, and nothing is built. -/
def serving (i : Identity) : Licence where
  change _ r change := (r.apply change).Serves i
  call _ _ c := c.builds = false

variable {i : Identity} {r r' : Registry} {seen : List Access} {action : Action} {current : Service}

/-- Stopping other services leaves the one that runs recorded. -/
theorem stopAll_serving {stopped services : List Service} (hc : current ∈ r.find i)
    (running : current.isRunning = true) (others : ∀ s ∈ services, s.uuid ≠ current.uuid) :
    (stopAll i action stopped services).Respects Access.Loyal (serving i) (fun _ _ r => current ∈ r.find i)
      seen r := by
  induction services generalizing stopped seen r with
  | nil => exact hc
  | cons service rest ih =>
    have hrest : ∀ s ∈ rest, s.uuid ≠ current.uuid := fun s hs => others s (List.mem_cons_of_mem _ hs)
    have hne : current.uuid ≠ (service.withState .stopped).uuid := (others service List.mem_cons_self).symm
    unfold stopAll
    split
    · exact ih hc hrest
    · refine ⟨rfl, fun reply _ => ?_⟩
      cases reply with
      | error e => exact hc
      | ok u =>
        have hc' := mem_find_record_of_ne hc hne
        exact ⟨⟨current, hc', running⟩, ih hc' hrest⟩

theorem retireOthers_serving (hc : current ∈ r.find i) (running : current.isRunning = true) :
    (retireOthers current action).Respects Access.Loyal (serving i) (fun _ _ _ => True) seen r := by
  obtain rfl := identity_of_mem_find hc
  dsimp only [retireOthers, Respects]
  split
  · trivial
  · refine respects_bind.mpr ((stopAll_serving hc running fun s hs => ?_).mono fun result seen r _ => ?_)
    · simpa using (List.mem_filter.mp hs).2
    · cases result with
      | error e => trivial
      | ok l =>
        refine ⟨⟨current, ?_, running⟩, trivial⟩
        change current ∈ (r.supersede current).find current.identity
        rw [find_supersede, if_pos rfl]
        exact List.mem_cons_self

/-- The newest service of a slot that serves runs, or one of the others does. -/
theorem ensureRunning_serving {grace timeout : Duration} {service : Service} {rest : List Service}
    (h : r.find i = service :: rest) (serves : r.Serves i) :
    (ensureRunning grace service timeout action).Respects Access.Loyal (serving i) (fun _ _ _ => True)
      seen r := by
  have hs : service ∈ r.find i := h ▸ List.mem_cons_self
  obtain rfl := identity_of_mem_find hs
  unfold ensureRunning
  split
  · exact retireOthers_serving hs ‹_›
  · rename_i down
    obtain ⟨s, hm, running⟩ := serves
    have hrest : s ∈ rest := by
      rw [h] at hm
      refine (List.mem_cons.mp hm).resolve_left fun e => down ?_
      exact e ▸ running
    refine respects_askWithGrace (fun _ => rfl) fun deadline reply loyal => ?_
    rcases reply with _ | error | started
    · trivial
    · refine respects_backendFailure (fun _ => trivial) fun d hd => ⟨⟨s, ?_, running⟩, trivial⟩
      obtain ⟨same, _⟩ := loyal d hd
      exact mem_find_record_of_head h same.symm hrest
    · obtain ⟨_, hi, up⟩ := loyal
      have hc : started ∈ (r.record started).find service.identity := hi ▸ mem_find_record_self r started
      exact ⟨⟨started, hc, up⟩, retireOthers_serving hc up⟩

theorem program_serving {settings : Settings} {op : Operation} (keeps : op.keepsNewest = true)
    (serves : r.Serves op.identity) :
    (op.program settings).Respects Access.Loyal (serving op.identity) (fun _ _ _ => True) [] r := by
  obtain ⟨newest, rest, h⟩ : ∃ newest rest, r.find op.identity = newest :: rest := by
    obtain ⟨s, hs, _⟩ := serves
    exact List.exists_cons_of_ne_nil (List.ne_nil_of_mem hs)
  cases op with
  | deploy request =>
    have hd : request.decision = false := by simpa [keepsNewest] using keeps
    have hr : r.find request.identity = newest :: rest := h
    refine respects_map.mpr ?_
    rw [hr, hd]
    exact ensureRunning_serving h serves
  | start i timeout =>
    have hr : r.find i = newest :: rest := h
    dsimp only [program, Respects]
    rw [hr]
    exact respects_map.mpr (ensureRunning_serving h serves)
  | stop i => cases keeps
  | delete i => cases keeps
  | refresh i => cases keeps

/-- A start, and a deployment with a negative decision, leave a slot that serves serving at every moment and
with whatever answer, and they neither touch storage nor create a service. -/
theorem reuse_keeps_serving {settings : Settings} {op : Operation} {r : Registry}
    (keeps : op.keepsNewest = true) (serves : r.Serves op.identity) :
    (∀ {seen : List Access} {p : Program Verdict} {r' : Registry},
      Steps (op.program settings) r seen p r' → (∀ a ∈ seen, a.Loyal) →
      r'.Serves op.identity ∧ ∀ a ∈ seen, ∀ c ∈ a.asked, c.builds = false)
    ∧ (∀ {seen : List Access} {r' : Registry} {result : Except DeployError Outcome},
      op.Performs settings r seen r' result → (∀ a ∈ seen, a.Loyal) →
      r'.Serves op.identity ∧ ∀ a ∈ seen, ∀ c ∈ a.asked, c.builds = false) := by
  have respects : (op.program settings).Respects Access.Loyal (serving op.identity) (fun _ _ _ => True) [] r :=
    program_serving keeps serves
  have along : ∀ {seen : List Access} {p : Program Verdict} {r' : Registry},
      Steps (op.program settings) r seen p r' → (∀ a ∈ seen, a.Loyal) →
      r'.Serves op.identity ∧ ∀ a ∈ seen, ∀ c ∈ a.asked, c.builds = false := by
    intro seen p r' steps loyal
    refine ⟨respects.invariant (·.Serves op.identity) (fun licensed _ => licensed) serves steps loyal,
      fun a ha c hc => ?_⟩
    obtain ⟨_, _, licensed⟩ := respects.licensed steps loyal ha hc
    exact licensed
  refine ⟨along, fun {seen r' result} performs loyal => ?_⟩
  cases performs with
  | refused h => exact ⟨serves, fun a ha => by cases ha⟩
  | performed h steps => exact along steps loyal

/-- A start of the newest service that does not come up in time, beside an older one that runs. -/
theorem reuse_keeps_serving_late_start : ∃ seen r' e,
    (Operation.start (Service.sample 2 .stopped).identity none).Performs .default
        ⟨[.sample 2 .stopped, .sample 1 .running]⟩ seen r' (.error e)
      ∧ r'.Serves (Service.sample 2 .stopped).identity := by
  have steps : Steps ((Operation.start (Service.sample 2 .stopped).identity none).program .default)
      ⟨[.sample 2 .stopped, .sample 1 .running]⟩ _ (.done ⟨.start, .error _⟩) _ :=
    .head .read (.head (.call (c := .askWithin (.start (.sample 2 .stopped) _) _)
      (some (Except.error (.startTimeout (some (.sample 2 .starting)))))) (.head .write (.refl _ _)))
  have performs := Performs.performed rfl steps
  refine ⟨_, _, _, performs, ((reuse_keeps_serving rfl ⟨.sample 1 .running, ?_, rfl⟩).2 performs ?_).1⟩
  · decide
  · simp [Access.Loyal, BackendCall.Loyal, BackendError.handedOver, Service.sample]

end Operation
end ServingLifecycle
