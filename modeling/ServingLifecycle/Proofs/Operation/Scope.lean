import ServingLifecycle.Operation
import ServingLifecycle.Proofs.Program.About
/-!
# The scope of an operation

Every step of an operation is about its own slot, as long as the backend hands over descriptors that
belong to the slot that it was asked about.
-/
namespace ServingLifecycle.Operation
open Program

variable {α : Type} {home : Uuid → Identity} {i : Identity}

theorem about_askWithGrace {grace timeout : Duration} {c : BackendCall} (hc : c.BelongsTo home i)
    {next : Option c.Reply → Program α}
    (hnext : ∀ reply, (∀ s ∈ reply.bind c.descriptor, s.BelongsTo home i) → (next reply).About home i) :
    (askWithGrace grace timeout c next).About home i := by
  unfold askWithGrace
  split
  · trivial
  · refine ⟨hc, fun reply hr => ?_⟩
    apply hnext
    cases reply with
    | none => intro s hs; cases hs
    | some reply => exact hr

theorem about_backendFailure {i' : Identity} {action : Action} {timeout : Duration} {error : BackendError}
    (h : ∀ s ∈ error.handedOver, s.BelongsTo home i) :
    (backendFailure (α := α) i' action timeout error).About home i := by
  rcases error with text | text | _ | service
  · trivial
  · trivial
  · trivial
  · exact ⟨h service rfl, trivial⟩

theorem about_stopAll {action : Action} {stopped services : List Service}
    (h : ∀ s ∈ services, s.BelongsTo home i) : (stopAll i action stopped services).About home i := by
  induction services generalizing stopped with
  | nil => trivial
  | cons service rest ih =>
    have hs := h service List.mem_cons_self
    have hr : ∀ s ∈ rest, s.BelongsTo home i := fun s hm => h s (List.mem_cons_of_mem _ hm)
    unfold stopAll
    split
    · exact ih hr
    · refine ⟨hs, fun reply _ => ?_⟩
      cases reply with
      | error e => trivial
      | ok u => exact ⟨hs, ih hr⟩

theorem about_retireOthers {current : Service} {action : Action} (h : current.BelongsTo home i) :
    (retireOthers current action).About home i := by
  refine ⟨h.1, fun services hs => ?_⟩
  dsimp only
  split
  · trivial
  · apply About.bind
    · rw [h.1]
      exact about_stopAll fun s hm => hs s (List.mem_filter.mp hm).1
    · intro result
      cases result with
      | error e => trivial
      | ok l => exact ⟨h, trivial⟩

theorem about_ensureRunning {grace timeout : Duration} {service : Service} {action : Action}
    (h : service.BelongsTo home i) : (ensureRunning grace service timeout action).About home i := by
  unfold ensureRunning
  split
  · exact about_retireOthers h
  · refine about_askWithGrace (c := .start service timeout) h fun reply hr => ?_
    rcases reply with _ | e | started
    · exact about_backendFailure fun s hs => by cases hs
    · exact about_backendFailure hr
    · exact ⟨hr started rfl, about_retireOthers (hr started rfl)⟩

theorem about_deployNew {settings : Settings} {request : Request} {replace : Bool}
    (h : request.identity = i) : (deployNew settings request replace).About home i := by
  subst h
  dsimp only [deployNew]
  refine ⟨trivial, fun staged _ => ?_⟩
  cases staged with
  | error e => trivial
  | ok layout =>
    refine about_askWithGrace (c := .deploy ..) rfl fun reply hr => ?_
    rcases reply with _ | e | service
    · exact about_backendFailure fun s hs => by cases hs
    · exact about_backendFailure hr
    · refine ⟨?_, trivial⟩
      cases replace <;> exact hr service rfl

theorem about_refreshAll {refreshed services : List Service} (h : ∀ s ∈ services, s.BelongsTo home i) :
    (refreshAll i refreshed services).About home i := by
  induction services generalizing refreshed with
  | nil => trivial
  | cons service rest ih =>
    have hs := h service List.mem_cons_self
    refine ⟨hs, fun reply _ => ?_⟩
    cases reply with
    | error e => trivial
    | ok state => exact ⟨hs, ih fun s hm => h s (List.mem_cons_of_mem _ hm)⟩

theorem about_program (home : Uuid → Identity) (settings : Settings) (op : Operation) :
    (op.program settings).About home op.identity := by
  cases op with
  | deploy request =>
    refine ⟨rfl, fun services hs => About.map ?_ _⟩
    rcases services with _ | ⟨newest, rest⟩
    · exact about_deployNew rfl
    · cases h : request.decision
      · exact about_ensureRunning (hs newest List.mem_cons_self)
      · exact about_deployNew rfl
  | start i timeout =>
    refine ⟨rfl, fun services hs => ?_⟩
    rcases services with _ | ⟨newest, rest⟩
    · trivial
    · exact (about_ensureRunning (hs newest List.mem_cons_self)).map _
  | stop i =>
    refine ⟨rfl, fun services hs => ?_⟩
    dsimp only
    split
    · trivial
    · exact (about_stopAll hs).map _
  | delete i =>
    refine ⟨rfl, fun services hs => (about_stopAll hs).bind fun result => ?_⟩
    cases result with
    | error e => trivial
    | ok l => exact ⟨rfl, trivial⟩
  | refresh i => exact ⟨rfl, fun services hs => (about_refreshAll hs).map _⟩

end ServingLifecycle.Operation
