import ServingLifecycle.Proofs.Operation.Continuity
import ServingLifecycle.Proofs.Registry.History
/-!
# How a service comes to run again

Nothing that an operation records is its own invention, but for the stop of a service that was up: each descriptor
that is new to a slot was obtained from the backend just before, for a deployment, for the start of the newest service
of the slot, or as what a refresh was told. A start is asked for only right after the slot has been read, and only of
its newest service, whatever state but running that is in.
-/
namespace ServingLifecycle

/-- The service that a call is to start. -/
def Call.starts : Call → Option Service
  | ask (.start s _) => some s
  | askWithin (.start s _) _ => some s
  | _ => none

namespace Operation
open Program Registry

/-- The descriptor is what the operation has obtained from the backend by the last that was seen of it. -/
inductive Obtained (op : Operation) : List Access → Service → Prop
  | created {earlier : List Access} {layout : Layout} {runId : String} {replace : Bool} {timeout deadline : Duration}
      {reply : Option (BackendCall.deploy layout op.identity runId replace timeout).Reply} {d : Service}
      (handed : d ∈ (Call.askWithin (.deploy layout op.identity runId replace timeout) deadline).descriptor reply) :
      Obtained op
        (earlier ++ [.call (.askWithin (.deploy layout op.identity runId replace timeout) deadline) reply]) d
  | started {newest : Service} {rest : List Service} {timeout deadline : Duration}
      {reply : Option (BackendCall.start newest timeout).Reply} {d : Service} (keeps : op.keepsNewest = true)
      (down : newest.isRunning = false)
      (handed : d ∈ (Call.askWithin (.start newest timeout) deadline).descriptor reply) :
      Obtained op
        [.read op.identity (newest :: rest), .call (.askWithin (.start newest timeout) deadline) reply] d
  | told {i : Identity} {earlier : List Access} {s : Service} {state : ServiceState} (refreshes : op = .refresh i) :
      Obtained op (earlier ++ [.call (.ask (.status s)) (.ok state)]) (s.withState state)

/-- What an operation records is there already, or is a service of the slot that was up and is stopped, or was just
obtained. It starts the newest service of its slot, when that does not run, and no other. -/
def reviving (op : Operation) : Licence where
  change seen r change := ∀ d ∈ change.given, d ∈ r.find op.identity
    ∨ (∃ s ∈ r.find op.identity, s.state.isDown = false ∧ d = s.withState .stopped) ∨ Obtained op seen d
  call _ r c := ∀ s ∈ c.starts, op.keepsNewest = true ∧ s.isRunning = false ∧ ∃ rest, r.find op.identity = s :: rest

variable {op : Operation} {i : Identity} {r r' : Registry} {seen : List Access} {action : Action}
  {trusted : Access → Prop}

theorem reviving_call {c : Call} (h : c.starts = none) : (reviving op).call seen r c := by
  intro s hs
  rw [h] at hs
  cases hs

/-- Stopping some services leaves the entries of the others. -/
theorem stopAll_reviving {stopped services : List Service} (hs : ∀ s ∈ services, s ∈ r.find op.identity)
    (distinct : (services.map Service.uuid).Nodup) :
    (stopAll op.identity action stopped services).Respects trusted (reviving op)
      (fun _ _ r' => ∀ d ∈ r.find op.identity, (∀ s ∈ services, s.uuid ≠ d.uuid) → d ∈ r'.find op.identity) seen r := by
  induction services generalizing stopped seen r with
  | nil => exact fun d hd _ => hd
  | cons service rest ih =>
    obtain ⟨hm, hrest⟩ := List.forall_mem_cons.mp hs
    obtain ⟨hnew, hdistinct⟩ := List.nodup_cons.mp distinct
    unfold stopAll
    split
    · exact (ih hrest hdistinct).mono fun _ _ _ h d hd others => h d hd (List.forall_mem_cons.mp others).2
    · rename_i up
      refine ⟨reviving_call rfl, fun reply _ => ?_⟩
      cases reply with
      | error e => exact fun d hd _ => hd
      | ok u =>
        refine ⟨?_, (ih (fun s hs' => ?_) hdistinct).mono fun _ _ _ h d hd others => ?_⟩
        · rintro d ⟨⟩
          exact .inr (.inl ⟨service, hm, by simpa using up, rfl⟩)
        · refine mem_find_record_of_ne (hrest s hs') fun e => hnew ?_
          exact e ▸ List.mem_map_of_mem hs'
        · obtain ⟨hne, others⟩ := List.forall_mem_cons.mp others
          exact h d (mem_find_record_of_ne hd hne.symm) others

theorem retireOthers_reviving {current : Service} (nodup : ((r.find op.identity).map Service.uuid).Nodup)
    (hc : current ∈ r.find op.identity) :
    (retireOthers current action).Respects trusted (reviving op) (fun _ _ _ => True) seen r := by
  dsimp only [retireOthers, Respects]
  rw [identity_of_mem_find hc]
  split
  · trivial
  · have distinct : (((r.find op.identity).filter fun s => s.uuid ≠ current.uuid).map Service.uuid).Nodup :=
      nodup.sublist (List.filter_sublist.map Service.uuid)
    refine respects_bind.mpr ((stopAll_reviving (fun s hs => (List.mem_filter.mp hs).1) distinct).mono
      fun result seen' r' kept => ?_)
    cases result with
    | error e => trivial
    | ok l =>
      refine ⟨?_, trivial⟩
      rintro d ⟨⟩
      exact .inl (kept current hc fun s hs => by simpa using (List.mem_filter.mp hs).2)

theorem ensureRunning_reviving {grace timeout : Duration} {newest : Service} {rest : List Service}
    (keeps : op.keepsNewest = true) (nodup : ((r.find op.identity).map Service.uuid).Nodup)
    (found : r.find op.identity = newest :: rest) :
    (ensureRunning grace newest timeout action).Respects Access.Faithful (reviving op) (fun _ _ _ => True)
      [.read op.identity (newest :: rest)] r := by
  have hn : newest ∈ r.find op.identity := found ▸ List.mem_cons_self
  unfold ensureRunning
  split
  · exact retireOthers_reviving nodup hn
  · rename_i hr
    have down : newest.isRunning = false := by simpa using hr
    refine respects_askWithGrace (fun deadline => ?_) fun deadline reply faithful => ?_
    · rintro s ⟨⟩
      exact ⟨keeps, down, rest, found⟩
    · rcases reply with _ | error | started
      · trivial
      · refine respects_backendFailure (fun _ => trivial) fun d hd => ⟨?_, trivial⟩
        rintro _ ⟨⟩
        exact .inr (.inr (.started keeps down hd))
      · refine ⟨?_, retireOthers_reviving (nodup_find_apply nodup (.record started)) ?_⟩
        · rintro _ ⟨⟩
          exact .inr (.inr (.started keeps down rfl))
        · have own : started.identity = op.identity :=
            (Option.some.inj (faithful started rfl)).symm.trans (identity_of_mem_find hn)
          exact own ▸ mem_find_record_self r started

theorem deployNew_reviving {settings : Settings} {request : Request} {replace : Bool}
    (hi : request.identity = op.identity) :
    (deployNew settings request replace).Respects trusted (reviving op) (fun _ _ _ => True) seen r := by
  dsimp only [deployNew, Respects]
  refine ⟨reviving_call rfl, fun staged _ => ?_⟩
  cases staged with
  | error e => trivial
  | ok layout =>
    rw [hi]
    refine respects_askWithGrace (fun _ => reviving_call rfl) fun deadline reply _ => ?_
    rcases reply with _ | error | service
    · trivial
    · refine respects_backendFailure (fun _ => trivial) fun d hd => ⟨?_, trivial⟩
      rintro _ ⟨⟩
      exact .inr (.inr (.created hd))
    · refine ⟨fun d hd => .inr (.inr (.created ?_)), trivial⟩
      cases replace <;> exact hd

theorem refreshAll_reviving {refreshed services : List Service} (refreshes : op = .refresh i) :
    (refreshAll i refreshed services).Respects trusted (reviving op) (fun _ _ _ => True) seen r := by
  induction services generalizing refreshed seen r with
  | nil => trivial
  | cons service rest ih =>
    refine ⟨reviving_call rfl, fun reply _ => ?_⟩
    cases reply with
    | error e => trivial
    | ok state =>
      refine ⟨?_, ih⟩
      rintro d ⟨⟩
      exact .inr (.inr (.told refreshes))

theorem program_reviving {settings : Settings} (nodup : ((r.find op.identity).map Service.uuid).Nodup) :
    (op.program settings).Respects Access.Faithful (reviving op) (fun _ _ _ => True) [] r := by
  cases op with
  | deploy request =>
    refine respects_map.mpr ?_
    cases found : r.find request.identity with
    | nil => exact deployNew_reviving rfl
    | cons newest rest =>
      cases hd : request.decision
      · exact ensureRunning_reviving (by simp [keepsNewest, hd]) nodup found
      · exact deployNew_reviving rfl
  | start i timeout =>
    dsimp only [program, Respects]
    cases found : r.find i with
    | nil => trivial
    | cons newest rest =>
      exact respects_map.mpr (ensureRunning_reviving rfl nodup found)
  | stop i =>
    dsimp only [program, Respects]
    split
    · trivial
    · exact respects_map.mpr (Respects.mono (fun _ _ _ _ => trivial) (stopAll_reviving (fun s hs => hs) nodup))
  | delete i =>
    refine respects_bind.mpr (Respects.mono (fun result seen' r' _ => ?_)
      (stopAll_reviving (fun s hs => hs) nodup))
    cases result with
    | error e => trivial
    | ok l =>
      refine ⟨fun d hd => ?_, trivial⟩
      cases hd
  | refresh i => exact respects_map.mpr (refreshAll_reviving rfl)

end Operation
end ServingLifecycle
