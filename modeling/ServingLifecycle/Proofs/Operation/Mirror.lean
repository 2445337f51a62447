import ServingLifecycle.Operation
import ServingLifecycle.Proofs.Slot.Running
/-!
# Operations keep the mirror

However the backend answers, an operation leaves every service that may run recorded as running. It records
a second one as running only if it fails because the backend has gone offline in the middle, and a service
that it answers with is the only one. In a slot with a single service no second one may run at any time.
-/
namespace ServingLifecycle.Operation
open Program

variable {α : Type} {offline : Option Bool} {before entries : List Service} {up up' : Set Uuid}
  {along : Set Uuid → Prop} {post : α → List Service → Set Uuid → Prop}
  {broken : List Service → Set Uuid → Prop} {i : Identity} {action : Action}

/-- No more services are recorded than before, and no more as running. -/
structure Spared (before entries : List Service) (up : Set Uuid) : Prop where
  mirrors : Mirrors entries up
  running : runningIn entries ⊆ runningIn before
  ids : idsIn entries ⊆ idsIn before

theorem Spared.of_mirrors (h : Mirrors entries up) : Spared entries entries up :=
  ⟨h, Set.Subset.rfl, Set.Subset.rfl⟩

theorem Spared.trans {middle : List Service} (h : Spared middle entries up)
    (prior : Spared before middle up') : Spared before entries up :=
  ⟨h.mirrors, h.running.trans prior.running, h.ids.trans prior.ids⟩

/-- An entry that is recorded anew spares the slot, if it is not running from now on only. -/
theorem spared_record (h : Mirrors entries up) {s : Service} (known : s.uuid ∈ idsIn entries) (sub : up' ⊆ up)
    (running : s.isRunning = true → s.uuid ∈ runningIn entries) (self : s.uuid ∈ up' → s.isRunning = true) :
    Spared entries ((Registry.Change.record s).on entries) up' where
  mirrors := h.record (fun _ hu _ => sub hu) self
  running := runningIn_record_subset h.nodup running
  ids := by
    intro u hu
    rcases mem_idsIn_record.mp hu with rfl | hu
    · exact known
    · exact hu

/-- How services are left by stopping them: none runs any more, or the backend may be offline. -/
structure Stops (offline : Option Bool) (services before : List Service) {β : Type}
    (result : Except DeployError β) (entries : List Service) (up : Set Uuid) : Prop where
  spared : Spared before entries up
  stopped : ∀ a, result = .ok a → ∀ s ∈ services, s.uuid ∉ runningIn entries
  failed : ∀ e, result = .error e → offline ≠ some false

theorem not_mem_runningIn_of_isDown (nodup : (entries.map Service.uuid).Nodup) {s : Service} (hs : s ∈ entries)
    (down : s.state.isDown = true) : s.uuid ∉ runningIn entries := by
  intro hu
  have hr := (s.isRunning_iff).mp (isRunning_of_mem_runningIn nodup hs hu)
  rw [hr] at down
  cases down

theorem stopAll_keeps {stopped services : List Service} (h : Mirrors entries up)
    (hs : ∀ s ∈ services, s ∈ entries) (distinct : (services.map Service.uuid).Nodup)
    (halong : ∀ up' ⊆ up, along up') :
    (stopAll i action stopped services).Keeps offline along (Stops offline services entries) broken
      entries up := by
  induction services generalizing stopped entries up with
  | nil =>
    exact ⟨.of_mirrors h, fun _ _ s hs => (List.not_mem_nil hs).elim, fun e he => by cases he⟩
  | cons service rest ih =>
    have hm := hs service List.mem_cons_self
    have hrest : ∀ s ∈ rest, s ∈ entries := fun s hs' => hs s (List.mem_cons_of_mem _ hs')
    obtain ⟨hnew, hdistinct⟩ := List.nodup_cons.mp distinct
    unfold stopAll
    split
    · rename_i down
      refine (ih h hrest hdistinct halong).mono fun r entries' up' hr =>
        ⟨hr.spared, fun a ha s hs' => ?_, hr.failed⟩
      rcases List.mem_cons.mp hs' with rfl | hs'
      · exact fun hu => not_mem_runningIn_of_isDown h.nodup hm down (hr.spared.running hu)
      · exact hr.stopped a ha s hs'
    · intro reply up' told
      cases told with | asked told =>
      cases told with
      | failed settled possible =>
        refine ⟨halong _ (Set.sep_subset _ _), .of_mirrors (h.mono (Set.sep_subset _ _)), fun a ha => ?_,
          fun _ _ => possible rfl⟩
        cases ha
      | stopped =>
        have hsub : up \ {service.uuid} ⊆ up := fun u hu => hu.1
        -- the services that are left have other ids, so they are still recorded as they were
        have hrest' : ∀ s ∈ rest, s ∈ (Registry.Change.record (service.withState .stopped)).on entries := by
          intro s hs'
          refine Registry.mem_on_record.mpr (Registry.mem_update_of_ne (hrest s hs') fun e => hnew ?_)
          exact e ▸ List.mem_map_of_mem hs'
        have spared : Spared entries ((Registry.Change.record (service.withState .stopped)).on entries)
            (up \ {service.uuid}) :=
          spared_record h ⟨service, hm, rfl⟩ hsub (fun hr => by cases hr) fun hu => absurd rfl hu.2
        have hdown : service.uuid ∉
            runningIn ((Registry.Change.record (service.withState .stopped)).on entries) := by
          intro hu
          rw [mem_runningIn_record h.nodup, Service.uuid_withState, if_pos rfl] at hu
          cases hu
        refine ⟨halong _ hsub, (ih spared.mirrors hrest' hdistinct fun _ hu => halong _ (hu.trans hsub)).mono
          fun r entries' up' hr => ⟨hr.spared.trans spared, fun a ha s hs' => ?_, hr.failed⟩⟩
        rcases List.mem_cons.mp hs' with rfl | hs'
        · exact fun hu => hdown (hr.spared.running hu)
        · exact hr.stopped a ha s hs'

/-- How a slot is left by retiring all services but one: that one is recorded alone, or the backend may be
offline. -/
structure Retires (offline : Option Bool) (before : List Service) (result : Except DeployError Service)
    (entries : List Service) (up : Set Uuid) : Prop where
  mirrors : Mirrors entries up
  alone : ∀ s, result = .ok s → (idsIn entries).Subsingleton
  failed : ∀ e, result = .error e → offline ≠ some false ∧ runningIn entries ⊆ runningIn before

theorem retireOthers_keeps {current : Service} (h : Mirrors entries up) (running : current.isRunning = true)
    (halong : ∀ up' ⊆ up, along up') :
    (retireOthers current action).Keeps offline along (Retires offline entries) broken entries up := by
  have hothers : ∀ {u}, u ∈ idsIn entries → u ≠ current.uuid →
      ∃ s ∈ entries.filter (fun s => s.uuid ≠ current.uuid), s.uuid = u := by
    rintro u ⟨s, hs, rfl⟩ hu
    exact ⟨s, List.mem_filter.mpr ⟨hs, by simpa using hu⟩, rfl⟩
  dsimp only [retireOthers, Keeps]
  split
  · rename_i he
    refine ⟨h, fun _ _ u hu v hv => ?_, fun e he => by cases he⟩
    have honly : ∀ {u}, u ∈ idsIn entries → u = current.uuid := by
      intro u hu
      by_contra hne
      obtain ⟨s, hs, _⟩ := hothers hu hne
      rw [List.isEmpty_iff.mp he] at hs
      cases hs
    rw [honly hu, honly hv]
  · refine keeps_bind.mpr ((stopAll_keeps h (fun s hs => (List.mem_filter.mp hs).1) ?_ halong).mono
      fun r entries' up' hr => ?_)
    · exact h.nodup.sublist (List.filter_sublist.map Service.uuid)
    cases r with
    | error e =>
      exact ⟨hr.spared.mirrors, fun s hs => (by cases hs), fun _ _ => ⟨hr.failed e rfl, hr.spared.running⟩⟩
    | ok l =>
      refine ⟨mirrors_supersede running fun u hu => ?_, fun _ _ => idsIn_singleton_subsingleton _,
        fun e he => by cases he⟩
      have hu' := hr.spared.mirrors.recorded hu
      by_contra hne
      obtain ⟨s, hs, rfl⟩ := hothers (hr.spared.ids (runningIn_subset_idsIn hu')) hne
      exact hr.stopped l rfl s hs hu'

/-- How a slot is left where a service is to run: by a success with that service alone, by a failure with no
more running than before, unless the backend may have gone offline. -/
structure Serves (offline : Option Bool) (before : List Service) (result : Except DeployError Service)
    (entries : List Service) (up : Set Uuid) : Prop where
  mirrors : Mirrors entries up
  alone : ∀ s, result = .ok s → (idsIn entries).Subsingleton
  failed : ∀ e, result = .error e → offline = none ∨ runningIn entries ⊆ runningIn before

theorem serves_error (h : Mirrors entries up) (running : runningIn entries ⊆ runningIn before)
    {e : DeployError} : Serves offline before (.error e) entries up :=
  ⟨h, fun s hs => (by cases hs), fun _ _ => Or.inr running⟩

theorem keeps_askWithGrace {grace timeout : Duration} {c : BackendCall} {next : Option c.Reply → Program α}
    (abort : broken entries up) (halong : along up) (late : (next none).Keeps offline along post broken entries up)
    (answered : ∀ reply up', c.Tells offline up reply up' →
      along up' ∧ (next (some reply)).Keeps offline along post broken entries up') :
    (askWithGrace grace timeout c next).Keeps offline along post broken entries up := by
  unfold askWithGrace
  split
  · exact abort
  · intro reply up' told
    cases told with
    | answered told => exact answered _ _ told
    | late => exact ⟨halong, late⟩

theorem backendFailure_keeps {timeout : Duration} {error : BackendError} (h : Mirrors entries up)
    (sub : up' ⊆ up) (handed : ∀ s ∈ error.handedOver, s.isRunning = false ∧ s.uuid ∉ up') :
    (backendFailure i action timeout error).Keeps offline along (Serves offline entries) broken entries up' := by
  rcases error with text | text | _ | service
  · exact serves_error (h.mono sub) Set.Subset.rfl
  · exact serves_error (h.mono sub) Set.Subset.rfl
  · exact serves_error (h.mono sub) Set.Subset.rfl
  · obtain ⟨settled, gone⟩ := handed service rfl
    have mirrors : Mirrors ((Registry.Change.record service).on entries) up' :=
      h.record (fun _ hu _ => sub hu) fun hu => absurd hu gone
    exact serves_error mirrors (runningIn_record_subset h.nodup fun hr => by rw [settled] at hr; cases hr)

/-- What a failure hands over does not run, so nothing that runs is recorded otherwise. -/
theorem failedReply_keeps {timeout : Duration} {error : BackendError} (h : Mirrors entries up)
    (settled : ∀ s ∈ error.handedOver, s.isRunning = false) :
    Calm entries { u ∈ up | ∀ s ∈ error.handedOver, u ≠ s.uuid } ∧
      (backendFailure i action timeout error).Keeps offline (Calm entries) (Serves offline entries)
        (Spared entries) entries { u ∈ up | ∀ s ∈ error.handedOver, u ≠ s.uuid } :=
  ⟨h.calm (Set.sep_subset _ _), backendFailure_keeps h (Set.sep_subset _ _) fun s hs =>
    ⟨settled s hs, fun hu => hu.2 s hs rfl⟩⟩

theorem ensureRunning_keeps {grace timeout : Duration} {service : Service} (h : Mirrors entries up)
    (hs : service ∈ entries) :
    (ensureRunning grace service timeout action).Keeps offline (Calm entries) (Serves offline entries)
      (Spared entries) entries up := by
  unfold ensureRunning
  split
  · rename_i running
    exact (retireOthers_keeps h running fun _ sub => h.calm sub).mono fun r entries' up' hr =>
      ⟨hr.mirrors, hr.alone, fun e he => Or.inr (hr.failed e he).2⟩
  · refine keeps_askWithGrace (.of_mirrors h) (h.calm Set.Subset.rfl) ?_ fun reply up' told => ?_
    · exact serves_error h Set.Subset.rfl
    · cases told with
      | failed settled possible => exact failedReply_keeps h settled
      | @started _ started _ online same running =>
        have mirrors : Mirrors ((Registry.Change.record started).on entries) (insert started.uuid up) :=
          h.record (fun u hu hne => (Set.mem_insert_iff.mp hu).resolve_left hne) fun _ => running
        have halong : ∀ up' ⊆ insert started.uuid up, Calm entries up' := by
          refine fun up' sub few => few.anti (sub.trans (Set.insert_subset ⟨service, hs, same.symm⟩ ?_))
          exact h.recorded.trans runningIn_subset_idsIn
        -- the backend was online when it started the service
        refine ⟨halong _ Set.Subset.rfl, (retireOthers_keeps mirrors running halong).mono fun r entries' up' hr =>
          ⟨hr.mirrors, hr.alone, fun e he => Or.inl ?_⟩⟩
        have hoffline := (hr.failed e he).1
        cases offline with
        | none => rfl
        | some o => cases o <;> simp_all

theorem deployNew_keeps {settings : Settings} {request : Request} {replace : Bool} (h : Mirrors entries up)
    (empty : replace = false → entries = []) :
    (deployNew settings request replace).Keeps offline (Calm entries) (Serves offline entries)
      (Spared entries) entries up := by
  intro reply up' told
  cases told with | staged reply =>
  refine ⟨h.calm Set.Subset.rfl, ?_⟩
  cases reply with
  | error e => exact serves_error h Set.Subset.rfl
  | ok layout =>
    refine keeps_askWithGrace (.of_mirrors h) (h.calm Set.Subset.rfl) ?_ fun reply up' told => ?_
    · exact serves_error h Set.Subset.rfl
    · cases told with
      | failed settled possible => exact failedReply_keeps h settled
      | @deployed _ _ _ _ _ service online running =>
        cases replace with
        | true =>
          exact ⟨fun _ => Set.subsingleton_singleton, mirrors_supersede running Set.Subset.rfl,
            fun _ _ => idsIn_singleton_subsingleton _, fun e he => by cases he⟩
        | false =>
          obtain rfl := empty rfl
          have mirrors : Mirrors ((Registry.Change.record service).on []) (insert service.uuid up) :=
            h.record (fun u hu hne => (Set.mem_insert_iff.mp hu).resolve_left hne) fun _ => running
          have alone : (idsIn ((Registry.Change.record service).on [])).Subsingleton := by
            simpa [Registry.Change.on, Registry.update] using idsIn_singleton_subsingleton service
          exact ⟨fun _ => alone.anti (mirrors.recorded.trans runningIn_subset_idsIn), mirrors,
            fun _ _ => alone, fun e he => by cases he⟩

theorem refreshAll_keeps {refreshed services : List Service} (h : Mirrors entries up)
    (hs : ∀ s ∈ services, s.uuid ∈ idsIn entries) (halong : ∀ up' ⊆ up, along up') :
    (refreshAll i refreshed services).Keeps offline along (fun _ => Spared entries) broken entries up := by
  induction services generalizing refreshed entries up with
  | nil => exact .of_mirrors h
  | cons service rest ih =>
    intro reply up' told
    cases told with | asked told =>
    cases told with
    | failed settled possible =>
      exact ⟨halong _ (Set.sep_subset _ _), .of_mirrors (h.mono (Set.sep_subset _ _))⟩
    | @told _ state running =>
      have hsub : { u ∈ up | u = service.uuid → state = .running } ⊆ up := Set.sep_subset _ _
      have spared : Spared entries ((Registry.Change.record (service.withState state)).on entries)
          { u ∈ up | u = service.uuid → state = .running } :=
        spared_record h (hs service List.mem_cons_self) hsub
          (fun hr => h.recorded (running ((Service.isRunning_iff _).mp hr)))
          fun hu => (Service.isRunning_iff _).mpr (hu.2 rfl)
      have hrest : ∀ s ∈ rest,
          s.uuid ∈ idsIn ((Registry.Change.record (service.withState state)).on entries) := fun s hm =>
        mem_idsIn_record.mpr (Or.inr (hs s (List.mem_cons_of_mem _ hm)))
      exact ⟨halong _ hsub, (ih spared.mirrors hrest fun _ hu => halong _ (hu.trans hsub)).mono
        fun _ _ _ hr => hr.trans spared⟩

/-- How an operation leaves its slot. The services recorded as running are at most one, or no more than
before, or it has failed and the backend may have gone offline. -/
structure Settles (offline : Option Bool) (before : List Service) (verdict : Verdict)
    (entries : List Service) (up : Set Uuid) : Prop where
  mirrors : Mirrors entries up
  bounded : (runningIn entries).Subsingleton ∨ runningIn entries ⊆ runningIn before ∨
    (offline = none ∧ ∃ e, verdict.result = .error e)
  few : (idsIn entries).Subsingleton ∨ idsIn entries ⊆ idsIn before ∨ ∃ e, verdict.result = .error e
  alone : ∀ s, verdict.result = .ok (.service s) → (idsIn entries).Subsingleton

theorem Serves.settles {result : Except DeployError Service} (h : Serves offline before result entries up) :
    Settles offline before ⟨action, result.map .service⟩ entries up := by
  cases result with
  | error e =>
    refine ⟨h.mirrors, ?_, Or.inr (Or.inr ⟨e, rfl⟩), fun s hs => by cases hs⟩
    rcases h.failed e rfl with unsure | running
    · exact Or.inr (Or.inr ⟨unsure, e, rfl⟩)
    · exact Or.inr (Or.inl running)
  | ok s =>
    have alone := h.alone s rfl
    exact ⟨h.mirrors, Or.inl (alone.anti runningIn_subset_idsIn), Or.inl alone, fun _ _ => alone⟩

theorem Spared.settles (h : Spared before entries up) {verdict : Verdict}
    (silent : ∀ s, verdict.result ≠ .ok (.service s)) : Settles offline before verdict entries up :=
  ⟨h.mirrors, Or.inr (Or.inl h.running), Or.inr (Or.inl h.ids), fun s hs => absurd hs (silent s)⟩

theorem program_keeps (settings : Settings) (op : Operation) (h : Mirrors entries up) :
    (op.program settings).Keeps offline (Calm entries) (Settles offline entries) (Spared entries)
      entries up := by
  cases op with
  | deploy request =>
    refine keeps_map.mpr (Keeps.mono (fun _ _ _ hr => Serves.settles hr) ?_)
    cases entries with
    | nil => exact deployNew_keeps h fun _ => rfl
    | cons newest rest =>
      cases hd : request.decision
      · exact ensureRunning_keeps h List.mem_cons_self
      · exact deployNew_keeps h fun hr => by cases hr
  | start i timeout =>
    dsimp only [program, Keeps]
    cases entries with
    | nil => exact (Spared.of_mirrors h).settles fun s hs => by cases hs
    | cons newest rest =>
      exact keeps_map.mpr ((ensureRunning_keeps h List.mem_cons_self).mono fun _ _ _ hr => hr.settles)
  | stop i =>
    dsimp only [program, Keeps]
    split
    · exact (Spared.of_mirrors h).settles fun s hs => by cases hs
    · refine keeps_map.mpr ((stopAll_keeps h (fun s hs => hs) h.nodup fun _ => h.calm).mono
        fun r entries' up' hr => ?_)
      exact hr.spared.settles fun s hs => by cases r <;> cases hs
  | delete i =>
    refine keeps_bind.mpr ((stopAll_keeps h (fun s hs => hs) h.nodup fun _ => h.calm).mono
      fun r entries' up' hr => ?_)
    cases r with
    | error e => exact hr.spared.settles fun s hs => by cases hs
    | ok l =>
      -- everything that is recorded is stopped, so nothing runs that could be forgotten
      have mirrors : Mirrors ((Registry.Change.forget i).on entries') up' := by
        refine ⟨List.nodup_nil, fun u hu => ?_⟩
        have hu' := hr.spared.mirrors.recorded hu
        obtain ⟨s, hs, rfl, _⟩ := hr.spared.running hu'
        exact absurd hu' (hr.stopped l rfl s hs)
      have ids : idsIn ((Registry.Change.forget i).on entries') ⊆ idsIn entries := by
        rintro u ⟨s, hs, _⟩
        cases hs
      have running : runningIn ((Registry.Change.forget i).on entries') ⊆ runningIn entries := by
        rintro u ⟨s, hs, _⟩
        cases hs
      exact Spared.settles ⟨mirrors, running, ids⟩ fun s hs => by cases hs
  | refresh i =>
    refine keeps_map.mpr ((refreshAll_keeps h (fun s hs => ⟨s, hs, rfl⟩) fun _ => h.calm).mono
      fun r entries' up' hr => ?_)
    exact hr.settles fun s hs => by cases r <;> cases hs

end ServingLifecycle.Operation
