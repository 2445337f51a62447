import ServingLifecycle.Operation
import ServingLifecycle.Proofs.Slot.Outlook
/-!
# Operations reckon with what is up

However the backend replies, an operation leaves every entry saying how far up its service is at most, but for
those whose start was cut off. A stop or a deletion that succeeds leaves nothing up of what was recorded before,
but for the services of entries that were adrift by then and are recorded as down: it takes those at their word.
-/
namespace ServingLifecycle.Operation
open Program

variable {α : Type} {entries services : List Service} {w w' : Outlook}
  {post : α → List Service → Outlook → Prop} {broken : List Service → Outlook → Prop}
  {i : Identity} {action : Action} {grace timeout : Duration}

/-- How some services are left by stopping them all. -/
structure Halts (services : List Service) (before : Outlook) {β : Type} (result : Except DeployError β)
    (entries : List Service) (w : Outlook) : Prop where
  reckons : Reckons entries w
  below : w.Below before
  halted : ∀ a, result = .ok a → ∀ d ∈ services, w.Halted before.adrift d

theorem stopAll_minds {stopped : List Service} (h : Reckons entries w) (hs : ∀ s ∈ services, s ∈ entries)
    (distinct : (services.map Service.uuid).Nodup) :
    (stopAll i action stopped services).Minds (Halts services w) broken entries w := by
  induction services generalizing stopped entries w with
  | nil => exact ⟨h, .refl w, fun _ _ d hd => (List.not_mem_nil hd).elim⟩
  | cons service rest ih =>
    have hm := hs service List.mem_cons_self
    have hrest : ∀ s ∈ rest, s ∈ entries := fun s hs' => hs s (List.mem_cons_of_mem _ hs')
    obtain ⟨hnew, hdistinct⟩ := List.nodup_cons.mp distinct
    unfold stopAll
    split
    · rename_i down
      -- it is not asked to stop, so all that is known of it is what is recorded
      have halted := (h.caps service hm).halted down
      refine (ih h hrest hdistinct).mono fun result entries' w' hr => ⟨hr.reckons, hr.below, fun a ha => ?_⟩
      exact List.forall_mem_cons.mpr ⟨halted.mono hr.below Set.Subset.rfl, hr.halted a ha⟩
    · refine ⟨fun _ _ _ hc => (by cases hc), fun reply w' shows => ?_⟩
      cases shows with | told yields =>
      cases yields with | asked yields =>
      cases yields with
      | refused plain excused => exact ⟨h, .refl _, fun a ha => by cases ha⟩
      | overdue waits excused => cases waits
      | stopped =>
        have reckons := h.settle ⟨service, hm, rfl⟩ .stopped
        have below := w.below_stop service.uuid ((Registry.Change.record (service.withState .stopped)).on entries)
        have hrest' : ∀ s ∈ rest, s ∈ (Registry.Change.record (service.withState .stopped)).on entries := by
          intro s hs'
          refine Registry.mem_on_record.mpr (Registry.mem_update_of_ne (hrest s hs') fun e => hnew ?_)
          exact e ▸ List.mem_map_of_mem hs'
        have halted := (h.caps service hm).halted_stop
          ((Registry.Change.record (service.withState .stopped)).on entries) w.adrift
        refine (ih reckons hrest' hdistinct).mono fun result entries' w'' hr =>
          ⟨hr.reckons, hr.below.trans below, fun a ha => ?_⟩
        exact List.forall_mem_cons.mpr ⟨halted.mono hr.below Set.Subset.rfl,
          fun d hd => (hr.halted a ha d hd).mono (.refl _) below.adrift⟩

theorem retireOthers_minds {current : Service} (h : Reckons entries w) (hc : current ∈ entries)
    (running : current.isRunning = true) :
    (retireOthers current action).Minds (fun _ => Reckons) broken entries w := by
  dsimp only [retireOthers, Minds]
  split
  · exact h
  · refine minds_bind.mpr ((stopAll_minds h (fun s hs => (List.mem_filter.mp hs).1)
      (h.nodup.sublist (List.filter_sublist.map Service.uuid))).mono fun result entries' w' hr => ?_)
    cases result with
    | error e => exact hr.reckons
    | ok l =>
      obtain ⟨x, hx, _⟩ := h.caps current hc
      obtain ⟨x', hx', _⟩ := hr.below.stock current.uuid x hx
      refine reckons_singleton hx' ?_ _
      rw [(Service.isRunning_iff _).mp running]
      exact x'.state.level_le_two

/-- A call with a deadline is answered, or the deadline shows that it may have gone through. -/
theorem minds_askWithGrace {c : BackendCall} {next : Option c.Reply → Program α} (h : Reckons entries w)
    (recorded : ∀ asked timeout, c = .start asked timeout → asked ∈ entries)
    (abort : broken entries w) (late : ∀ w', Reckons entries w' → (next none).Minds post broken entries w')
    (answered : ∀ reply stock, c.Yields none w.stock reply stock →
      (next (some reply)).Minds post broken entries ⟨stock, w.adrift⟩) :
    (askWithGrace grace timeout c next).Minds post broken entries w := by
  unfold askWithGrace
  split
  · exact abort
  · rename_i deadline hadd
    have recorded' : ∀ asked timeout deadline',
        Call.askWithin c deadline = .askWithin (.start asked timeout) deadline' → asked ∈ entries := by
      rintro asked timeout _ ⟨⟩
      exact recorded asked timeout rfl
    refine ⟨recorded', fun reply w' shows => ?_⟩
    cases shows with
    | told yields =>
      cases yields with
      | answered yields => exact answered _ _ yields
      | late => exact late w h
    | unheard => exact late _ (h.unheard recorded')

theorem backendFailure_minds {c : BackendCall} {error : BackendError} {stock : Stock} (h : Reckons entries w)
    (yields : c.Yields none w.stock (.error error) stock) :
    (backendFailure i action timeout error : Program (Except DeployError α)).Minds
      (fun _ => Reckons) broken entries ⟨stock, w.adrift⟩ := by
  generalize hr : (Except.error error : c.Reply) = reply at yields
  cases yields with
  | refused plain =>
    cases hr
    rcases error with text | text | _ | service
    · exact h
    · exact h
    · exact h
    · cases plain
  | @overdue _ s =>
    cases hr
    exact h.put s
  | deployed | started | stopped | told => cases hr

theorem ensureRunning_minds {service : Service} (h : Reckons entries w) (hs : service ∈ entries) :
    (ensureRunning grace service timeout action).Minds (fun _ => Reckons) Reckons entries w := by
  unfold ensureRunning
  split
  · exact retireOthers_minds h hs ‹_›
  · refine minds_askWithGrace h (fun asked _ hc => (by cases hc; exact hs)) h (fun _ h' => h')
      fun reply stock yields => ?_
    cases reply with
    | error error => exact backendFailure_minds h yields
    | ok started =>
      cases yields with | started running =>
      have hself : started ∈ (Registry.Change.record started).on entries :=
        Registry.mem_on_record.mpr (Registry.mem_update_self _ entries)
      exact retireOthers_minds (h.put started) hself running

theorem deployNew_minds {settings : Settings} {request : Request} {replace : Bool} (h : Reckons entries w) :
    (deployNew settings request replace).Minds (fun _ => Reckons) Reckons entries w := by
  refine ⟨fun _ _ _ hc => (by cases hc), fun reply w' shows => ?_⟩
  cases shows with | told yields =>
  cases yields with | staged succeeds =>
  cases reply with
  | error error => exact h
  | ok layout =>
    refine minds_askWithGrace h (fun _ _ hc => by cases hc) h (fun _ h' => h') fun reply stock yields => ?_
    cases reply with
    | error error => exact backendFailure_minds h yields
    | ok service =>
      cases yields with | deployed running =>
      cases replace with
      | true => exact reckons_singleton (if_pos rfl) (Nat.le_refl _) _
      | false => exact h.put service

theorem refreshAll_minds {refreshed : List Service} (h : Reckons entries w)
    (hs : ∀ s ∈ services, s.uuid ∈ idsIn entries) :
    (refreshAll i refreshed services).Minds (fun _ => Reckons) broken entries w := by
  induction services generalizing refreshed entries w with
  | nil => exact h
  | cons service rest ih =>
    refine ⟨fun _ _ _ hc => (by cases hc), fun reply w' shows => ?_⟩
    cases shows with | told yields =>
    cases yields with | asked yields =>
    cases yields with
    | refused plain excused => exact h
    | overdue waits excused => cases waits
    | @told _ state =>
      refine ih (h.settle (hs service List.mem_cons_self) state) fun s hm => ?_
      exact mem_idsIn_record.mpr (Or.inr (hs s (List.mem_cons_of_mem _ hm)))

/-- An operation that is to leave nothing up. -/
def halts : Operation → Bool
  | stop _ | delete _ => true
  | _ => false

/-- How an operation leaves its slot, and what becomes of the services recorded before if it is to leave nothing
up. -/
structure Leaves (op : Operation) (before : List Service) (w₀ : Outlook) (verdict : Verdict)
    (entries : List Service) (w : Outlook) : Prop where
  reckons : Reckons entries w
  halted : op.halts = true → ∀ o, verdict.result = .ok o → ∀ d ∈ before, w.Halted w₀.adrift d

theorem leaves_error {op : Operation} {w₀ : Outlook} {before : List Service} {e : DeployError}
    (h : Reckons entries w) : Leaves op before w₀ ⟨action, .error e⟩ entries w :=
  ⟨h, fun _ o ho => by cases ho⟩

theorem program_minds (settings : Settings) (op : Operation) (h : Reckons entries w) :
    (op.program settings).Minds (Leaves op entries w) Reckons entries w := by
  cases op with
  | deploy request =>
    refine minds_map.mpr (Minds.mono (fun _ _ _ hr => ⟨hr, fun halts => by cases halts⟩) ?_)
    cases entries with
    | nil => exact deployNew_minds h
    | cons newest rest =>
      cases hd : request.decision
      · exact ensureRunning_minds h List.mem_cons_self
      · exact deployNew_minds h
  | start i timeout =>
    dsimp only [program, Minds]
    cases entries with
    | nil => exact leaves_error h
    | cons newest rest =>
      exact minds_map.mpr ((ensureRunning_minds h List.mem_cons_self).mono fun _ _ _ hr =>
        ⟨hr, fun halts => by cases halts⟩)
  | stop i =>
    dsimp only [program, Minds]
    split
    · exact leaves_error h
    · refine minds_map.mpr ((stopAll_minds h (fun s hs => hs) h.nodup).mono fun result entries' w' hr => ?_)
      cases result with
      | error e => exact leaves_error hr.reckons
      | ok l => exact ⟨hr.reckons, fun _ _ _ => hr.halted l rfl⟩
  | delete i =>
    refine minds_bind.mpr ((stopAll_minds h (fun s hs => hs) h.nodup).mono fun result entries' w' hr => ?_)
    cases result with
    | error e => exact leaves_error hr.reckons
    | ok l => exact ⟨⟨List.nodup_nil, fun d hd => (List.not_mem_nil hd).elim⟩, fun _ _ _ => hr.halted l rfl⟩
  | refresh i =>
    refine minds_map.mpr ((refreshAll_minds h fun s hs => ⟨s, hs, rfl⟩).mono fun result entries' w' hr =>
      ⟨hr, fun halts => by cases halts⟩)

end ServingLifecycle.Operation
