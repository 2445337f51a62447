import ServingLifecycle.Proofs.Operation.Continuity
/-!
# Retention of services

The services of a slot go from the registry in bulk, and far from where they are stopped. Still each of them goes
for a reason of its own: a service that replaces it was deployed just before, or it is down, because the operation
found it so or because its stop was acknowledged to the operation. What an operation answers with it never stops.
-/
namespace ServingLifecycle

/-- The stop of a service with this id was acknowledged. -/
def StopAcknowledged (seen : List Access) (u : Uuid) : Prop :=
  ∃ s : Service, s.uuid = u ∧ .call (.ask (.stop s)) (.ok ()) ∈ seen

/-- The service is recorded as stopped or failed, because its stop was acknowledged or because it was found so. -/
def Settled (i : Identity) (seen : List Access) (d : Service) : Prop :=
  d.state.isDown = true ∧ (StopAcknowledged seen d.uuid ∨ ∃ services, .read i services ∈ seen ∧ d ∈ services)

/-- No service was asked to stop. -/
def Unstopped (seen : List Access) : Prop :=
  ∀ (d : Service) reply, .call (.ask (.stop d)) reply ∉ seen

theorem Unstopped.snoc {seen : List Access} {a : Access} (h : Unstopped seen)
    (ha : ∀ (d : Service) reply, .call (.ask (.stop d)) reply ≠ a) : Unstopped (seen ++ [a]) := by
  intro d reply hm
  rcases List.mem_append.mp hm with hm | hm
  · exact h d reply hm
  · exact ha d reply (List.mem_singleton.mp hm)

namespace Operation
open Program Registry

/-- Why a recorded service goes with a change, after what was seen of the operation. -/
inductive Dismissed (op : Operation) (seen : List Access) (d : Service) : Registry.Change → Prop
  | replaced {new : Service} {layout : Layout} {runId : String} {timeout deadline : Duration}
      {earlier : List Access}
      (deployed : seen = earlier ++
        [.call (.askWithin (.deploy layout op.identity runId true timeout) deadline) (some (.ok new))]) :
      Dismissed op seen d (.supersede new)
  | retired {current : Service} (keeps : op.keepsNewest = true) (settled : Settled op.identity seen d) :
      Dismissed op seen d (.supersede current)
  | deleted {i : Identity} (delete : op = .delete i) (settled : Settled i seen d) :
      Dismissed op seen d (.forget i)

/-- No service of the slot goes without a reason. -/
def retaining (op : Operation) : Licence where
  change seen r change := ∀ d ∈ r.find op.identity,
    (∃ d' ∈ (r.apply change).find op.identity, d'.uuid = d.uuid) ∨ Dismissed op seen d change
  call _ _ _ := True

variable {op : Operation} {i : Identity} {r r' : Registry} {seen seen' : List Access} {action : Action}
  {trusted : Access → Prop}

theorem retaining_record (s : Service) : (retaining op).change seen r (.record s) :=
  fun _ hd => Or.inl (uuid_mem_find_record s hd)

/-- How some services are left by stopping them all: every entry of the slot is another one, as it was, or is
settled. -/
structure StopsAll (i : Identity) (services : List Service) (seen : List Access) (r : Registry)
    (seen' : List Access) (r' : Registry) : Prop where
  more : seen ⊆ seen'
  entries : ∀ d ∈ r'.find i, (d ∈ r.find i ∧ ∀ s ∈ services, s.uuid ≠ d.uuid) ∨ Settled i seen' d
  stops : ∀ (d : Service) reply, .call (.ask (.stop d)) reply ∈ seen' →
    .call (.ask (.stop d)) reply ∈ seen ∨ d ∈ services

theorem StopsAll.nil : StopsAll i [] seen r seen r where
  more := List.Subset.refl seen
  entries _ hd := Or.inl ⟨hd, by simp⟩
  stops _ _ h := Or.inl h

/-- A service that was found down needs no stop. -/
theorem StopsAll.down {service : Service} {rest : List Service}
    (h : StopsAll i rest seen r seen' r') (nodup : ((r.find i).map Service.uuid).Nodup)
    (hs : service ∈ r.find i) (down : service.state.isDown = true)
    (found : ∃ services, .read i services ∈ seen ∧ service ∈ services) :
    StopsAll i (service :: rest) seen r seen' r' where
  more := h.more
  entries d hd := by
    rcases h.entries d hd with ⟨hm, others⟩ | settled
    · by_cases e : service.uuid = d.uuid
      · obtain rfl := eq_of_uuid nodup hs hm e
        obtain ⟨services, hread, hin⟩ := found
        exact Or.inr ⟨down, Or.inr ⟨services, h.more hread, hin⟩⟩
      · exact Or.inl ⟨hm, List.forall_mem_cons.mpr ⟨e, others⟩⟩
    · exact Or.inr settled
  stops d reply hm := (h.stops d reply hm).imp_right (List.mem_cons_of_mem _)

/-- A service whose stop was acknowledged is recorded as stopped before the others are stopped. -/
theorem StopsAll.stopped {service : Service} {rest : List Service}
    (h : StopsAll i rest
      (seen ++ [.call (.ask (.stop service)) (.ok ())] ++ [.write (.record (service.withState .stopped))])
      (r.record (service.withState .stopped)) seen' r')
    (nodup : ((r.find i).map Service.uuid).Nodup) (hi : service.identity = i) :
    StopsAll i (service :: rest) seen r seen' r' where
  more := by
    refine List.Subset.trans ?_ h.more
    rw [List.append_assoc]
    exact List.subset_append_left _ _
  entries d hd := by
    have acknowledged : Access.call (.ask (.stop service)) (.ok ()) ∈ seen' := h.more (by simp)
    have self : Settled i seen' (service.withState .stopped) := ⟨rfl, Or.inl ⟨service, rfl, acknowledged⟩⟩
    rcases h.entries d hd with ⟨hm, others⟩ | settled
    · by_cases e : service.uuid = d.uuid
      · have hnew : service.withState .stopped ∈ (r.record (service.withState .stopped)).find i :=
          hi ▸ mem_find_record_self r (service.withState .stopped)
        obtain rfl := eq_of_uuid (nodup_find_apply nodup (.record (service.withState .stopped))) hnew hm e
        exact Or.inr self
      · have hold : d ∈ r.find i := (mem_of_mem_find_record hm).resolve_left fun hd => e (hd ▸ rfl)
        exact Or.inl ⟨hold, List.forall_mem_cons.mpr ⟨e, others⟩⟩
    · exact Or.inr settled
  stops d reply hm := by
    rcases h.stops d reply hm with hm | hm
    · simp only [List.mem_append, List.mem_singleton, reduceCtorEq, or_false] at hm
      rcases hm with hm | hm
      · exact Or.inl hm
      · cases hm
        exact Or.inr List.mem_cons_self
    · exact Or.inr (List.mem_cons_of_mem _ hm)

theorem stopAll_retaining {stopped services : List Service}
    (nodup : ((r.find i).map Service.uuid).Nodup) (hs : ∀ s ∈ services, s ∈ r.find i)
    (distinct : (services.map Service.uuid).Nodup) (found : ∃ l, .read i l ∈ seen ∧ services ⊆ l) :
    (stopAll i action stopped services).Respects trusted (retaining op)
      (fun result seen' r' => ∀ l, result = .ok l → StopsAll i services seen r seen' r') seen r := by
  induction services generalizing stopped seen r with
  | nil => exact fun _ _ => .nil
  | cons service rest ih =>
    have hm := hs service List.mem_cons_self
    have hrest : ∀ s ∈ rest, s ∈ r.find i := fun s hs' => hs s (List.mem_cons_of_mem _ hs')
    obtain ⟨hnew, hdistinct⟩ := List.nodup_cons.mp distinct
    obtain ⟨l, hread, sub⟩ := found
    obtain ⟨hin, subrest⟩ := List.cons_subset.mp sub
    unfold stopAll
    split
    · rename_i down
      exact (ih nodup hrest hdistinct ⟨l, hread, subrest⟩).mono fun result seen' r' h a ha =>
        (h a ha).down nodup hm down ⟨l, hread, hin⟩
    · refine ⟨trivial, fun reply _ => ?_⟩
      cases reply with
      | error e => exact fun _ ha => by cases ha
      | ok u =>
        refine ⟨retaining_record _, (ih (nodup_find_apply nodup (.record _)) (fun s hs' => ?_) hdistinct
          ⟨l, by simp [hread], subrest⟩).mono fun result seen' r' h a ha =>
            (h a ha).stopped nodup (identity_of_mem_find hm)⟩
        refine mem_find_record_of_ne (hrest s hs') fun e => hnew ?_
        exact e ▸ List.mem_map_of_mem hs'

/-- A service that is answered with was not stopped on the way. -/
def SparesResult (result : Except DeployError Service) (seen : List Access) (_ : Registry) : Prop :=
  ∀ s, result = .ok s → ∀ (d : Service) reply, .call (.ask (.stop d)) reply ∈ seen → d.uuid ≠ s.uuid

theorem sparesResult_error {e : DeployError} : SparesResult (.error e) seen r :=
  fun _ h => by cases h

theorem sparesResult_of_unstopped {result : Except DeployError Service} (h : Unstopped seen) :
    SparesResult result seen r :=
  fun _ _ d reply hm => absurd hm (h d reply)

theorem retireOthers_retaining {current : Service} (hi : current.identity = op.identity)
    (keeps : op.keepsNewest = true) (nodup : ((r.find op.identity).map Service.uuid).Nodup)
    (unstopped : Unstopped seen) :
    (retireOthers current action).Respects trusted (retaining op) SparesResult seen r := by
  dsimp only [retireOthers, Respects]
  rw [hi]
  have unstopped' := unstopped.snoc (a := .read op.identity (r.find op.identity)) fun _ _ h => by cases h
  split
  · exact sparesResult_of_unstopped unstopped'
  · have distinct : (((r.find op.identity).filter fun s => s.uuid ≠ current.uuid).map Service.uuid).Nodup :=
      nodup.sublist (List.filter_sublist.map Service.uuid)
    refine respects_bind.mpr ((stopAll_retaining nodup (fun s hs => (List.mem_filter.mp hs).1) distinct
      ⟨_, List.mem_append_right _ List.mem_cons_self, List.filter_sublist.subset⟩).mono fun result seen' r' h => ?_)
    cases result with
    | error e => exact sparesResult_error
    | ok l =>
      have stopsAll := h l rfl
      refine ⟨fun d hd => ?_, ?_⟩
      · by_cases e : current.uuid = d.uuid
        · refine Or.inl ⟨current, ?_, e⟩
          change current ∈ (r'.supersede current).find op.identity
          rw [find_supersede, if_pos hi.symm]
          exact List.mem_cons_self
        · refine Or.inr (.retired keeps ?_)
          -- whatever has another id was among the services that were stopped
          refine (stopsAll.entries d hd).resolve_left fun ⟨hold, others⟩ => ?_
          exact others d (List.mem_filter.mpr ⟨hold, by simpa using Ne.symm e⟩) rfl
      · rintro s ⟨⟩ d reply hm
        simp only [List.mem_append, List.mem_singleton, reduceCtorEq, or_false] at hm
        rcases stopsAll.stops d reply hm with hm | hm
        · exact absurd hm (unstopped' d reply)
        · simpa using (List.mem_filter.mp hm).2

theorem ensureRunning_retaining {grace timeout : Duration} {service : Service}
    (hi : service.identity = op.identity) (keeps : op.keepsNewest = true)
    (nodup : ((r.find op.identity).map Service.uuid).Nodup) (unstopped : Unstopped seen) :
    (ensureRunning grace service timeout action).Respects Access.Faithful (retaining op) SparesResult
      seen r := by
  unfold ensureRunning
  split
  · exact retireOthers_retaining hi keeps nodup unstopped
  · refine respects_askWithGrace (fun _ => trivial) fun deadline reply faithful => ?_
    have unstopped' := unstopped.snoc (a := .call (.askWithin (.start service timeout) deadline) reply)
      fun _ _ h => by cases h
    rcases reply with _ | error | started
    · exact sparesResult_of_unstopped unstopped'
    · exact respects_backendFailure (fun _ => sparesResult_error) fun s _ =>
        ⟨retaining_record s, sparesResult_error⟩
    · have hi' : started.identity = op.identity := (Option.some.inj (faithful started rfl)).symm.trans hi
      refine ⟨retaining_record started, ?_⟩
      exact retireOthers_retaining hi' keeps (nodup_find_apply nodup (.record started))
        (unstopped'.snoc fun _ _ h => by cases h)

theorem deployNew_retaining {settings : Settings} {request : Request} {replace : Bool}
    (hi : request.identity = op.identity) (unstopped : Unstopped seen) :
    (deployNew settings request replace).Respects trusted (retaining op) SparesResult seen r := by
  dsimp only [deployNew, Respects]
  refine ⟨trivial, fun staged _ => ?_⟩
  have unstopped := unstopped.snoc (a := .call (.stage request.artifactUri request.kind
    (stagingRoot settings request)) staged) fun _ _ h => by cases h
  cases staged with
  | error e => exact sparesResult_error
  | ok layout =>
    refine respects_askWithGrace (fun _ => trivial) fun deadline reply _ => ?_
    have unstopped := unstopped.snoc (a := .call (.askWithin (.deploy layout request.identity request.runId
      replace request.startTimeout) deadline) reply) fun _ _ h => by cases h
    rcases reply with _ | error | service
    · exact sparesResult_of_unstopped unstopped
    · exact respects_backendFailure (fun _ => sparesResult_error) fun s _ =>
        ⟨retaining_record s, sparesResult_error⟩
    · refine ⟨?_, sparesResult_of_unstopped (unstopped.snoc fun _ _ h => by cases h)⟩
      cases replace with
      | true =>
        rw [hi]
        exact fun d _ => Or.inr (.replaced rfl)
      | false => exact retaining_record service

theorem refreshAll_retaining {refreshed services : List Service} :
    (refreshAll i refreshed services).Respects trusted (retaining op) (fun _ _ _ => True) seen r := by
  induction services generalizing refreshed seen r with
  | nil => trivial
  | cons service rest ih =>
    refine ⟨trivial, fun reply _ => ?_⟩
    cases reply with
    | error e => trivial
    | ok state => exact ⟨retaining_record _, ih⟩

/-- The service that an operation answers with was not stopped by it. -/
def SparesAnswer (verdict : Verdict) (seen : List Access) (_ : Registry) : Prop :=
  ∀ s, verdict.result = .ok (.service s) →
    ∀ (d : Service) reply, .call (.ask (.stop d)) reply ∈ seen → d.uuid ≠ s.uuid

theorem SparesResult.answer {result : Except DeployError Service} (h : SparesResult result seen r) :
    SparesAnswer ⟨action, result.map .service⟩ seen r := by
  intro s hs
  cases result with
  | error e => cases hs
  | ok s' =>
    cases hs
    exact h s rfl

theorem program_retaining {settings : Settings} (nodup : ((r.find op.identity).map Service.uuid).Nodup) :
    (op.program settings).Respects Access.Faithful (retaining op) SparesAnswer [] r := by
  have unstopped : ∀ {i services}, Unstopped ([] ++ [.read i services]) := by
    intro i services d reply hm
    simp at hm
  have silent : ∀ {α : Type} {f : α → Outcome} {result : Except DeployError α},
      (∀ a s, f a ≠ .service s) → ∀ s, result.map f ≠ .ok (.service s) := by
    intro α f result hf s hs
    cases result with
    | error e => cases hs
    | ok a => exact hf a s (Except.ok.inj hs)
  cases op with
  | deploy request =>
    refine respects_map.mpr (Respects.mono (fun _ _ _ h => SparesResult.answer h) ?_)
    cases hc : r.find request.identity with
    | nil => exact deployNew_retaining rfl unstopped
    | cons newest rest =>
      cases hd : request.decision
      · have hi : newest.identity = request.identity := identity_of_mem_find (hc ▸ List.mem_cons_self)
        exact ensureRunning_retaining hi (by simp [keepsNewest, hd]) nodup unstopped
      · exact deployNew_retaining rfl unstopped
  | start i timeout =>
    dsimp only [program, Respects]
    cases hc : r.find i with
    | nil => exact fun s hs => by cases hs
    | cons newest rest =>
      have hi : newest.identity = i := identity_of_mem_find (hc ▸ List.mem_cons_self)
      exact respects_map.mpr ((ensureRunning_retaining hi rfl nodup unstopped).mono fun _ _ _ h => h.answer)
  | stop i =>
    dsimp only [program, Respects]
    split
    · exact fun s hs => by cases hs
    · exact respects_map.mpr ((stopAll_retaining nodup (fun s hs => hs) nodup
        ⟨_, List.mem_append_right _ List.mem_cons_self, List.Subset.refl _⟩).mono fun _ _ _ _ s hs =>
          absurd hs (silent (fun _ _ h => by cases h) s))
  | delete i =>
    refine respects_bind.mpr ((stopAll_retaining nodup (fun s hs => hs) nodup
      ⟨_, List.mem_append_right _ List.mem_cons_self, List.Subset.refl _⟩).mono fun result seen' r' h => ?_)
    cases result with
    | error e => exact fun s hs => by cases hs
    | ok l =>
      refine ⟨fun d hd => Or.inr (.deleted rfl ?_), fun s hs => by cases hs⟩
      exact ((h l rfl).entries d hd).resolve_left fun held => held.2 d held.1 rfl
  | refresh i =>
    exact respects_map.mpr (refreshAll_retaining.mono fun _ _ _ _ s hs =>
      absurd hs (silent (fun _ _ h => by cases h) s))

end Operation
end ServingLifecycle
