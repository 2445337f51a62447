import ServingLifecycle.Proofs.Operation.Resumption
/-!
# What a stop and a refresh report

Both go through the services of a slot as they found them, and rewrite the entries one by one on the way. What they
report in the end is what the slot then holds: the services that were found, in their order, each in the state that
the backend told or in which it is down.
-/
namespace ServingLifecycle

/-- The id of a service whose state the backend told, with that state. -/
def Access.told? : Access → Option (Uuid × ServiceState)
  | .call (.ask (.status s)) (.ok state) => some (s.uuid, state)
  | _ => none

namespace Service

/-- The second is the first, in whatever state. -/
def Becomes (s t : Service) : Prop :=
  t = s.withState t.state

variable {s : Service} {services services' : List Service}

theorem becomes_withState (s : Service) (state : ServiceState) : s.Becomes (s.withState state) := rfl

theorem becomes_broughtDown (s : Service) : s.Becomes s.broughtDown := by
  unfold broughtDown
  split <;> rfl

theorem Becomes.uuid_eq {t : Service} (h : s.Becomes t) : t.uuid = s.uuid := by
  rw [h, uuid_withState]

theorem map_uuid_of_becomes (h : List.Forall₂ Becomes services services') :
    services'.map Service.uuid = services.map Service.uuid := by
  induction h with
  | nil => rfl
  | cons first _ ih => rw [List.map_cons, List.map_cons, first.uuid_eq, ih]

theorem state_of_not_isUp (h : s.isUp = false) : s.state = .stopped ∨ s.state = .failed := by
  obtain ⟨_, _, _, _, _, _, state, _⟩ := s
  cases state <;> simp_all [isUp, ServiceState.isDown]

end Service

namespace Operation
open Program

variable {settings : Settings} {changes : List Registry.Change} {op : Operation} {i : Identity} {r r' : Registry}
  {services refreshed told rest : List Service} {seen : List Access} {outcome : Outcome}

/-- Services are asked for their states one after the other, and each is recorded in its state before the next one
is asked for. -/
inductive Retold : List Service → Registry → List Access → List Service → Registry → Prop
  | nil {r : Registry} : Retold [] r [] [] r
  | cons {s : Service} {state : ServiceState} {services told : List Service} {r r' : Registry} {seen : List Access}
      (later : Retold services (r.record (s.withState state)) seen told r') :
      Retold (s :: services) r
        (.call (.ask (.status s)) (.ok state) :: .write (.record (s.withState state)) :: seen)
        (s.withState state :: told) r'

theorem refreshAll_steps_iff {result : List Service} :
    Steps (refreshAll i refreshed services) r seen (.done (.ok result)) r'
      ↔ ∃ told, result = refreshed ++ told ∧ Retold services r seen told r' := by
  constructor
  · intro h
    induction services generalizing refreshed r seen with
    | nil =>
      obtain ⟨rfl, e, rfl⟩ := h.of_done
      cases e
      exact ⟨[], (List.append_nil _).symm, .nil⟩
    | cons s services ih =>
      cases h with | head first rest =>
      cases first with
      | breakOff text => exact absurd rest not_steps_of_abort
      | call reply =>
        cases reply with
        | error error =>
          obtain ⟨-, e, -⟩ := rest.of_done
          cases e
        | ok state =>
          cases rest with | head first rest =>
          cases first with | write =>
          obtain ⟨told, e, later⟩ := ih rest
          exact ⟨s.withState state :: told, by rw [e, List.append_assoc, List.singleton_append], .cons later⟩
  · rintro ⟨told, rfl, retold⟩
    induction retold generalizing refreshed with
    | nil =>
      rw [List.append_nil]
      exact .refl _ _
    | @cons s state services told r r' seen later ih =>
      rw [List.append_cons refreshed]
      exact .head (.call (c := .ask (.status s)) (Except.ok state)) (.head .write ih)

/-- Each service is recorded in its place, and those around them stay as they are. -/
theorem Retold.find (h : Retold services r seen told r') (front : List Service)
    (nodup : ((r.find i).map Service.uuid).Nodup) (newest : NewestFirst (r.find i))
    (split : r.find i = front ++ services ++ rest) : r'.find i = front ++ told ++ rest := by
  induction h generalizing front with
  | nil => exact split
  | @cons s state services told r r' seen later ih =>
    have hs : s ∈ r.find i := by simp [split]
    rw [List.append_assoc, List.cons_append] at split
    have recorded : (r.record (s.withState state)).find i = front ++ s.withState state :: (services ++ rest) :=
      Registry.find_record_of_split nodup newest split (Registry.identity_of_mem_find (s := s) hs) rfl rfl
    rw [List.append_cons front]
    refine ih _ (Registry.nodup_find_apply nodup (.record (s.withState state)))
      (Registry.newestFirst_find_apply newest (.record (s.withState state))) ?_
    rw [recorded, List.append_assoc, List.append_assoc]
    rfl

theorem Retold.becomes (h : Retold services r seen told r') : List.Forall₂ Service.Becomes services told := by
  induction h with
  | nil => exact .nil
  | @cons s state services told r r' seen later ih => exact .cons (s.becomes_withState state) ih

/-- The states are those that the backend told, in that order. -/
theorem Retold.states (h : Retold services r seen told r') :
    seen.filterMap Access.told? = told.map fun s => (s.uuid, s.state) := by
  induction h with
  | nil => rfl
  | @cons s state services told r r' seen later ih =>
    have asked : Access.told? (.call (.ask (.status s)) (.ok state)) = some (s.uuid, state) := rfl
    have recorded : Access.told? (.write (.record (s.withState state))) = none := rfl
    rw [List.filterMap_cons_some asked, List.filterMap_cons_none recorded, ih]
    rfl

theorem refresh_performs_iff : (refresh i).Performs settings r seen r' (.ok outcome) ↔
    ∃ told more, outcome = .services told ∧ seen = .read i (r.find i) :: more ∧ Retold (r.find i) r more told r' := by
  constructor
  · intro h
    obtain ⟨verdict, steps, success⟩ := h.steps
    cases steps with | head first rest =>
    cases first with | read =>
    obtain ⟨result, first, last, r₁, refreshed, concluded, rfl⟩ := rest.of_bind
    obtain ⟨rfl, e, rfl⟩ := concluded.of_done
    cases e
    cases result with
    | error e => cases success
    | ok told =>
      cases success
      obtain ⟨told, rfl, retold⟩ := refreshAll_steps_iff.mp refreshed
      exact ⟨told, first, rfl, by rw [List.append_nil], retold⟩
  · rintro ⟨told, more, rfl, rfl, retold⟩
    have refreshed : Steps (refreshAll i [] (r.find i)) r more (.done (.ok told)) r' :=
      refreshAll_steps_iff.mpr ⟨told, rfl, retold⟩
    have steps : Steps ((refresh i).program settings) r (.read i (r.find i) :: more)
        (.done ⟨.reuse, .ok (.services told)⟩) r' :=
      .head .read (refreshed.bind _)
    exact .performed rfl steps

/-- A stop of a slot that holds nothing does not succeed. -/
theorem find_ne_nil_of_performs (h : (stop i).Performs settings r seen r' (.ok outcome)) : r.find i ≠ [] := by
  intro empty
  obtain ⟨verdict, steps, success⟩ := h.steps
  cases steps with | head first rest =>
  cases first with | read =>
  simp only [empty, List.isEmpty_nil, if_true] at rest
  obtain ⟨-, e, -⟩ := rest.of_done
  cases e
  cases success

theorem stop_of_performs (h : (stop i).Performs settings r seen r' (.ok outcome)) :
    outcome = .services ((r.find i).map Service.broughtDown) ∧ r' = r.bringDown (r.find i) := by
  have recorded := find_ne_nil_of_performs h
  generalize hres : Except.ok outcome = result at h
  cases (performs_iff_course (.inl rfl) recorded).mp h with
  | through =>
    cases hres
    exact ⟨rfl, rfl⟩
  | cutShort split up => cases hres

/-- What a stop or a refresh reports is what its slot then holds: the services that it found there, in their order
and the same but for their states. After a refresh these are the states that the backend told, after a stop every
service is down. -/
theorem reports_what_slot_holds (ends : op = .stop i ∨ op = .refresh i)
    (performs : op.Performs settings (.after changes) seen r' (.ok outcome)) :
    outcome = .services (r'.find i)
      ∧ (r'.find i).map Service.uuid = ((Registry.after changes).find i).map Service.uuid
      ∧ List.Forall₂ Service.Becomes ((Registry.after changes).find i) (r'.find i)
      ∧ (op = .refresh i → seen.filterMap Access.told? = (r'.find i).map fun s => (s.uuid, s.state))
      ∧ (op = .stop i → ∀ s ∈ r'.find i, s.state = .stopped ∨ s.state = .failed) := by
  have nodup := Registry.distinct_after changes i
  have newest := Registry.newestFirst_find_after changes i
  generalize Registry.after changes = r at *
  have whole : r.find i = [] ++ r.find i ++ [] := by simp
  rcases ends with rfl | rfl
  · obtain ⟨rfl, rfl⟩ := stop_of_performs performs
    have found : (r.bringDown (r.find i)).find i = (r.find i).map Service.broughtDown := by
      simpa using Registry.find_bringDown [] nodup newest whole
    have becomes : List.Forall₂ Service.Becomes (r.find i) ((r.find i).map Service.broughtDown) :=
      List.forall₂_map_right_iff.mpr (List.forall₂_same.mpr fun s _ => s.becomes_broughtDown)
    rw [found]
    refine ⟨rfl, Service.map_uuid_of_becomes becomes, becomes, nofun, fun _ s hs => ?_⟩
    obtain ⟨t, -, rfl⟩ := List.mem_map.mp hs
    exact Service.state_of_not_isUp t.isUp_broughtDown
  · obtain ⟨told, more, rfl, rfl, retold⟩ := refresh_performs_iff.mp performs
    have found : r'.find i = told := by simpa using retold.find [] nodup newest whole
    have becomes := retold.becomes
    rw [found]
    refine ⟨rfl, Service.map_uuid_of_becomes becomes, becomes, fun _ => ?_, nofun⟩
    rw [List.filterMap_cons_none rfl]
    exact retold.states

/-- A service of the sample slot that is of the same time as another one. -/
def sampleTwin : Service :=
  { Service.sample 1 .stopped with createdAt := (Service.sample 2 .running).createdAt }

/-- Of two services of one time the backend tells that one has failed and the other one runs. -/
theorem reports_what_slot_holds_twins : ∃ seen r',
    (refresh sampleTwin.identity).Performs .default (.after [.record (.sample 2 .running), .record sampleTwin]) seen r'
        (.ok (.services (r'.find sampleTwin.identity)))
      ∧ (r'.find sampleTwin.identity).map (fun s => (s.uuid, s.state))
        = [(Uuid.ofNat 2, .failed), (Uuid.ofNat 1, .running)] := by
  have one : (Registry.empty.record (.sample 2 .running)).find sampleTwin.identity = [.sample 2 .running] :=
    Registry.find_record_of_find_nil rfl
  have both : (Registry.after [.record (.sample 2 .running), .record sampleTwin]).find sampleTwin.identity
      = [.sample 2 .running, sampleTwin] := by
    refine (Registry.find_record_of_fresh (r := Registry.empty.record (.sample 2 .running)) ?_ rfl ?_).trans
      (congrArg (· ++ [sampleTwin]) one)
    · rw [one]
      decide
    · rw [one]
      simp [NewestFirst, sampleTwin]
  have retold (r : Registry) : Retold [.sample 2 .running, sampleTwin] r _
      [(Service.sample 2 .running).withState .failed, sampleTwin.withState .running] _ :=
    .cons (.cons .nil)
  have performs : (refresh sampleTwin.identity).Performs .default
      (.after [.record (.sample 2 .running), .record sampleTwin]) _ _ (.ok (.services _)) :=
    refresh_performs_iff.mpr ⟨_, _, rfl, rfl, both.symm ▸ retold _⟩
  obtain ⟨report, -, -, states, -⟩ := reports_what_slot_holds (.inr rfl) performs
  exact ⟨_, _, Outcome.services.inj report ▸ performs, (states rfl).symm.trans rfl⟩

end Operation
end ServingLifecycle
