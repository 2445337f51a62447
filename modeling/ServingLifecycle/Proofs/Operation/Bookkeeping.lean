import ServingLifecycle.Operation
import ServingLifecycle.Proofs.Slot.Stock
/-!
# Operations keep the books

Whatever storage and backend reply, an operation leaves entries that record the stock as faithfully as before,
and after a refresh that succeeds they can be relied on for what runs. A deployment that nothing stands in the
way of succeeds.
-/
namespace ServingLifecycle.Operation
open Program

variable {α : Type} {favoured : Option Duration} {g : Fidelity} {before entries services : List Service}
  {stock stock' : Stock} {post : α → List Service → Stock → Prop} {broken : List Service → Stock → Prop}
  {i : Identity} {action : Action} {grace timeout : Duration}

/-- How some services are left by stopping them all. -/
structure StopsFor (favoured : Option Duration) (g : Fidelity) (services before : List Service) {β : Type}
    (result : Except DeployError β) (entries : List Service) (stock : Stock) : Prop where
  records : Records g entries stock
  spared : ∀ d ∈ before, (∀ s ∈ services, s.uuid ≠ d.uuid) → d ∈ entries
  changed : ∀ d ∈ entries, d ∈ before ∨ d.state.isDown = true
  stopped : ∀ a, result = .ok a → ∀ s ∈ services, ∀ d ∈ entries, d.uuid = s.uuid → d.state.isDown = true
  succeeds : favoured.isSome = true → ∃ a, result = .ok a

theorem stopAll_tracks {stopped : List Service} (h : Records g entries stock)
    (hs : ∀ s ∈ services, s ∈ entries) (distinct : (services.map Service.uuid).Nodup) :
    (stopAll i action stopped services).Tracks favoured (StopsFor favoured g services entries) broken
      entries stock := by
  induction services generalizing stopped entries stock with
  | nil => exact ⟨h, fun d hd _ => hd, fun d hd => Or.inl hd, by simp, fun _ => ⟨_, rfl⟩⟩
  | cons service rest ih =>
    have hm := hs service List.mem_cons_self
    have hrest : ∀ s ∈ rest, s ∈ entries := fun s hs' => hs s (List.mem_cons_of_mem _ hs')
    obtain ⟨hnew, hdistinct⟩ := List.nodup_cons.mp distinct
    unfold stopAll
    split
    · rename_i down
      refine (ih h hrest hdistinct).mono fun result entries' stock' hr =>
        ⟨hr.records, fun d hd others => hr.spared d hd fun s hs' => others s (List.mem_cons_of_mem _ hs'),
          hr.changed, fun a ha s hs' d hd e => ?_, hr.succeeds⟩
      rcases List.mem_cons.mp hs' with rfl | hs'
      · rcases hr.changed d hd with hd | hdown
        · obtain rfl : d = s := List.inj_on_of_nodup_map h.nodup hd hm e
          exact down
        · exact hdown
      · exact hr.stopped a ha s hs' d hd e
    · refine ⟨fun bc hbc time htime => ?_, fun reply stock' yields => ?_⟩
      · cases hbc
        cases htime
      cases yields with | asked yields =>
      cases yields with
      | refused plain excused =>
        refine ⟨h, fun d hd _ => hd, fun d hd => Or.inl hd, fun a ha => (by cases ha), fun hf => ?_⟩
        obtain ⟨_, _, hc, _⟩ := excused hf
        cases hc
      | overdue waits excused => cases waits
      | stopped =>
        have settled := h.settle hm .stopped
        have hself : service.withState .stopped ∈ (Registry.Change.record (service.withState .stopped)).on entries :=
          Registry.mem_on_record.mpr (Registry.mem_update_self _ entries)
        have hothers : ∀ d ∈ entries, service.uuid ≠ d.uuid →
            d ∈ (Registry.Change.record (service.withState .stopped)).on entries := fun d hd hne =>
          Registry.mem_on_record.mpr (Registry.mem_update_of_ne hd hne.symm)
        have hrest' : ∀ s ∈ rest, s ∈ (Registry.Change.record (service.withState .stopped)).on entries :=
          fun s hs' => hothers s (hrest s hs') fun e => hnew (e ▸ List.mem_map_of_mem hs')
        refine (ih settled hrest' hdistinct).mono fun result entries' stock'' hr =>
          ⟨hr.records, fun d hd others => ?_, fun d hd => ?_, fun a ha s hs' d hd e => ?_, hr.succeeds⟩
        · obtain ⟨hne, others⟩ := List.forall_mem_cons.mp others
          exact hr.spared d (hothers d hd hne) others
        · rcases hr.changed d hd with hd | hdown
          · rcases Registry.mem_of_mem_update (Registry.mem_on_record.mp hd) with rfl | hd
            · exact Or.inr rfl
            · exact Or.inl hd
          · exact Or.inr hdown
        · rcases List.mem_cons.mp hs' with rfl | hs'
          · rcases hr.changed d hd with hd | hdown
            · obtain rfl : d = s.withState .stopped := List.inj_on_of_nodup_map settled.nodup hd hself e
              rfl
            · exact hdown
          · exact hr.stopped a ha s hs' d hd e

/-- How a slot is left where a service is to run: a success leaves that service alone, and it runs. -/
structure Answers (favoured : Option Duration) (g : Fidelity) (result : Except DeployError Service)
    (entries : List Service) (stock : Stock) : Prop where
  records : Records g entries stock
  alone : ∀ s, result = .ok s → s.isRunning = true ∧ entries = [s]
  succeeds : favoured.isSome = true → ∃ s, result = .ok s

theorem answers_error {e : DeployError} (h : Records g entries stock) (excused : favoured = none) :
    Answers favoured g (.error e) entries stock :=
  ⟨h, fun s hs => (by cases hs), fun hf => by rw [excused] at hf; cases hf⟩

theorem eq_singleton {current : Service} (nodup : (entries.map Service.uuid).Nodup) (hc : current ∈ entries)
    (none_else : ∀ d ∈ entries, d.uuid = current.uuid) : entries = [current] := by
  have hall : ∀ d ∈ entries, d = current := fun d hd =>
    List.inj_on_of_nodup_map nodup hd hc (none_else d hd)
  match entries with
  | [] => cases hc
  | [d] => rw [hall d List.mem_cons_self]
  | d :: d' :: rest =>
    rw [hall d (by simp), hall d' (by simp)] at nodup
    simp at nodup

theorem retireOthers_tracks {current : Service} (h : Records g entries stock) (hc : current ∈ entries)
    (running : current.isRunning = true) :
    (retireOthers current action).Tracks favoured (Answers favoured g) broken entries stock := by
  have hothers : ∀ d ∈ entries, d.uuid ≠ current.uuid →
      d ∈ entries.filter fun s => s.uuid ≠ current.uuid := fun d hd hne =>
    List.mem_filter.mpr ⟨hd, by simpa using hne⟩
  dsimp only [retireOthers, Tracks]
  split
  · rename_i he
    refine ⟨h, ?_, fun _ => ⟨current, rfl⟩⟩
    rintro s ⟨⟩
    refine ⟨running, eq_singleton h.nodup hc fun d hd => ?_⟩
    by_contra hne
    have hm := hothers d hd hne
    rw [List.isEmpty_iff.mp he] at hm
    cases hm
  · refine tracks_bind.mpr ((stopAll_tracks h (fun s hs => (List.mem_filter.mp hs).1)
      (h.nodup.sublist (List.filter_sublist.map Service.uuid))).mono fun result entries' stock' hr => ?_)
    cases result with
    | error e =>
      refine ⟨hr.records, fun s hs => (by cases hs), fun hf => ?_⟩
      obtain ⟨l, hl⟩ := hr.succeeds hf
      cases hl
    | ok l =>
      have hc' : current ∈ entries' := hr.spared current hc fun s hs => by
        simpa using (List.mem_filter.mp hs).2
      -- all others are down, those that were so and those that have been stopped
      have down : ∀ d ∈ entries', d ∈ [current] ∨ d.state.isDown = true := by
        intro d hd
        by_cases hu : d.uuid = current.uuid
        · exact Or.inl (List.mem_singleton.mpr (List.inj_on_of_nodup_map hr.records.nodup hd hc' hu))
        · rcases hr.changed d hd with hb | hdown
          · exact Or.inr (hr.stopped l rfl d (hothers d hb hu) d hd rfl)
          · exact Or.inr hdown
      have records : Records g [current] stock' :=
        hr.records.narrow (by simp) (List.cons_subset.mpr ⟨hc', List.nil_subset _⟩) down
      exact ⟨records, by rintro s ⟨⟩; exact ⟨running, rfl⟩, fun _ => ⟨current, rfl⟩⟩

/-- The deadline of a call leaves the backend its time, and a favoured one is in range. -/
theorem tracks_askWithGrace {c : BackendCall} {next : Option c.Reply → Program α} (hc : c.timeout? = some timeout)
    (long : ∀ time ∈ favoured, time ≤ timeout)
    (inRange : favoured.isSome = true → (timeout.add? grace).isSome = true)
    (abort : favoured = none → broken entries stock)
    (late : favoured = none → (next none).Tracks favoured post broken entries stock)
    (answered : ∀ reply stock', c.Yields favoured stock reply stock' →
      (next (some reply)).Tracks favoured post broken entries stock') :
    (askWithGrace grace timeout c next).Tracks favoured post broken entries stock := by
  unfold askWithGrace
  split
  · rename_i hadd
    refine abort ?_
    cases favoured with
    | none => rfl
    | some time => simp [hadd] at inRange
  · rename_i deadline hadd
    have hle : timeout ≤ deadline := by
      have := Duration.add?_eq_some_iff.mp hadd
      change timeout.nanos ≤ deadline.nanos
      omega
    refine ⟨fun bc hbc time htime => ?_, fun reply stock' yields => ?_⟩
    · cases hbc
      rw [hc] at htime
      cases htime
      exact ⟨⟨deadline, rfl, hle⟩, long⟩
    · cases yields with
      | answered yields => exact answered _ _ yields
      | late excused => exact late excused

/-- What a failure hands over is recorded as the backend has it. -/
theorem backendFailure_tracks {c : BackendCall} {error : BackendError} (h : Records g entries stock)
    (yields : c.Yields favoured stock (.error error) stock') (excused : favoured = none) :
    (backendFailure i action timeout error).Tracks favoured (Answers favoured g) broken entries stock' := by
  generalize hr : (Except.error error : c.Reply) = reply at yields
  cases yields with
  | refused plain =>
    cases hr
    rcases error with text | text | _ | service
    · exact answers_error h excused
    · exact answers_error h excused
    · exact answers_error h excused
    · cases plain
  | @overdue _ s =>
    cases hr
    exact answers_error (h.record s) excused
  | deployed | started | stopped | told => cases hr

theorem ensureRunning_tracks {service : Service} (h : Records g entries stock) (hs : service ∈ entries)
    (long : ∀ time ∈ favoured, time ≤ timeout)
    (inRange : favoured.isSome = true → (timeout.add? grace).isSome = true)
    (abort : favoured = none → broken entries stock) :
    (ensureRunning grace service timeout action).Tracks favoured (Answers favoured g) broken entries stock := by
  unfold ensureRunning
  split
  · exact retireOthers_tracks h hs ‹_›
  · refine tracks_askWithGrace rfl long inRange abort (fun excused => answers_error h excused)
      fun reply stock' yields => ?_
    cases reply with
    | error error =>
      refine backendFailure_tracks h yields ?_
      cases yields with
      | refused plain excused =>
        refine Option.not_isSome_iff_eq_none.mp fun hf => ?_
        obtain ⟨_, _, hc, hunknown⟩ := excused hf
        cases hc
        obtain ⟨x, hx, _⟩ := h.kept service hs
        rw [hunknown] at hx
        cases hx
      | overdue waits excused => exact excused
    | ok started =>
      cases yields with | started running =>
      have hself : started ∈ (Registry.Change.record started).on entries :=
        Registry.mem_on_record.mpr (Registry.mem_update_self _ entries)
      exact retireOthers_tracks (h.record started) hself running

theorem deployNew_tracks {settings : Settings} {request : Request} {replace : Bool} (h : Records g entries stock)
    (empty : replace = false → entries = []) (long : ∀ time ∈ favoured, time ≤ request.startTimeout)
    (inRange : favoured.isSome = true → (request.startTimeout.add? settings.backendGrace).isSome = true)
    (abort : favoured = none → broken entries stock) :
    (deployNew settings request replace).Tracks favoured (Answers favoured g) broken entries stock := by
  refine ⟨fun bc hbc => (by cases hbc), fun reply stock' yields => ?_⟩
  cases yields with | staged succeeds =>
  cases reply with
  | error error =>
    refine answers_error h (Option.not_isSome_iff_eq_none.mp fun hf => ?_)
    obtain ⟨layout, hl⟩ := succeeds hf
    cases hl
  | ok layout =>
    refine tracks_askWithGrace rfl long inRange abort (fun excused => answers_error h excused)
      fun reply stock' yields => ?_
    cases reply with
    | error error =>
      refine backendFailure_tracks h yields ?_
      cases yields with
      | refused plain excused =>
        refine Option.not_isSome_iff_eq_none.mp fun hf => ?_
        obtain ⟨_, _, hc, _⟩ := excused hf
        cases hc
      | overdue waits excused => exact excused
    | ok service =>
      cases yields with | deployed running =>
      cases replace with
      | true => exact ⟨records_only g service, by rintro s ⟨⟩; exact ⟨running, rfl⟩, fun _ => ⟨service, rfl⟩⟩
      | false =>
        obtain rfl := empty rfl
        have alone : (Registry.Change.record service).on [] = [service] := List.mergeSort_singleton service
        exact ⟨h.record service, by rintro s ⟨⟩; exact ⟨running, alone⟩, fun _ => ⟨service, rfl⟩⟩

/-- How some services are left by reading their states. -/
structure Refreshes (g : Fidelity) (services before : List Service) (stock : Stock)
    (result : Except DeployError (List Service)) (entries : List Service) (stock' : Stock) : Prop where
  records : Records g entries stock'
  spared : ∀ d ∈ entries, (∀ s ∈ services, s.uuid ≠ d.uuid) → d ∈ before ∧ stock' d.uuid = stock d.uuid
  told : ∀ l, result = .ok l → ∀ s ∈ services, ∀ d ∈ entries, d.uuid = s.uuid →
    ∀ x ∈ stock' d.uuid, Fidelity.current.Agree d x

theorem refreshAll_tracks {refreshed : List Service} (h : Records g entries stock)
    (hs : ∀ s ∈ services, s ∈ entries) (distinct : (services.map Service.uuid).Nodup) :
    (refreshAll i refreshed services).Tracks favoured (Refreshes g services entries stock) broken entries stock := by
  induction services generalizing refreshed entries stock with
  | nil => exact ⟨h, fun d hd _ => ⟨hd, rfl⟩, by simp⟩
  | cons service rest ih =>
    have hm := hs service List.mem_cons_self
    obtain ⟨hnew, hdistinct⟩ := List.nodup_cons.mp distinct
    refine ⟨fun bc hbc time htime => ?_, fun reply stock' yields => ?_⟩
    · cases hbc
      cases htime
    cases yields with | asked yields =>
    cases yields with
    | refused plain excused => exact ⟨h, fun d hd _ => ⟨hd, rfl⟩, fun l hl => by cases hl⟩
    | overdue waits excused => cases waits
    | @told _ state =>
      have settled := h.settle hm state
      have hself : service.withState state ∈ (Registry.Change.record (service.withState state)).on entries :=
        Registry.mem_on_record.mpr (Registry.mem_update_self _ entries)
      have hrest : ∀ s ∈ rest, s ∈ (Registry.Change.record (service.withState state)).on entries := by
        intro s hs'
        refine Registry.mem_on_record.mpr
          (Registry.mem_update_of_ne (hs s (List.mem_cons_of_mem _ hs')) fun e => hnew ?_)
        exact e ▸ List.mem_map_of_mem hs'
      refine (ih settled hrest hdistinct).mono fun result entries' stock'' hr =>
        ⟨hr.records, fun d hd others => ?_, fun l hl s hs' d hd e x hx => ?_⟩
      · obtain ⟨hne, others⟩ := List.forall_mem_cons.mp others
        obtain ⟨hm', hstock⟩ := hr.spared d hd others
        rw [Stock.setState_of_ne hne.symm] at hstock
        rcases Registry.mem_of_mem_update (Registry.mem_on_record.mp hm') with rfl | hm'
        · exact absurd rfl hne
        · exact ⟨hm', hstock⟩
      · rcases List.mem_cons.mp hs' with rfl | hs'
        · have others : ∀ s' ∈ rest, s'.uuid ≠ d.uuid := fun s' hs'' e' =>
            hnew (e ▸ e' ▸ List.mem_map_of_mem hs'')
          obtain ⟨hm', hstock⟩ := hr.spared d hd others
          obtain rfl : d = s.withState state := List.inj_on_of_nodup_map settled.nodup hm' hself e
          -- the entry and the service have both got the state that was told
          rw [hstock, Service.uuid_withState, Stock.setState_self] at hx
          obtain ⟨y, _, rfl⟩ := Option.map_eq_some_iff.mp hx
          exact id
        · exact hr.told l hl s hs' d hd e x hx

theorem Refreshes.current {result : Except DeployError (List Service)} {l : List Service}
    (h : Refreshes g before before stock result entries stock') (hl : result = .ok l) :
    Records .current entries stock' := by
  refine ⟨h.records.nodup, fun d hd => ?_, fun hg => by cases hg⟩
  obtain ⟨x, hx, _⟩ := h.records.kept d hd
  refine ⟨x, hx, ?_⟩
  by_cases others : ∀ s ∈ before, s.uuid ≠ d.uuid
  · exact absurd rfl (others d (h.spared d hd others).1)
  · push Not at others
    obtain ⟨s, hs, e⟩ := others
    exact h.told l hl s hs d hd e.symm x hx

/-- How an operation leaves its slot. -/
structure Concludes (favoured : Option Duration) (g : Fidelity) (op : Operation) (verdict : Verdict)
    (entries : List Service) (stock : Stock) : Prop where
  records : Records g entries stock
  refreshed : ∀ i o, op = .refresh i → verdict.result = .ok o → Records .current entries stock
  answered : ∀ s, verdict.result = .ok (.service s) → s.isRunning = true ∧ entries = [s]
  succeeds : favoured.isSome = true → ∃ s, verdict.result = .ok (.service s)

/-- How it leaves the slot when it breaks off. -/
structure BreaksOff (favoured : Option Duration) (g : Fidelity) (entries : List Service) (stock : Stock) : Prop where
  records : Records g entries stock
  excused : favoured = none

theorem Answers.concludes {op : Operation} {result : Except DeployError Service}
    (h : Answers favoured g result entries stock) (hop : ∀ i, op ≠ .refresh i) :
    Concludes favoured g op ⟨action, result.map .service⟩ entries stock := by
  refine ⟨h.records, fun i o hi => absurd hi (hop i), fun s hs => ?_, fun hf => ?_⟩
  · cases result with
    | error e => cases hs
    | ok s' =>
      cases hs
      exact h.alone s rfl
  · obtain ⟨s, rfl⟩ := h.succeeds hf
    exact ⟨s, rfl⟩

theorem Records.concludes {op : Operation} {verdict : Verdict} (h : Records g entries stock)
    (hop : ∀ i, op ≠ .refresh i) (silent : ∀ s, verdict.result ≠ .ok (.service s)) (excused : favoured = none) :
    Concludes favoured g op verdict entries stock :=
  ⟨h, fun i o hi => absurd hi (hop i), fun s hs => absurd hs (silent s), fun hf => by rw [excused] at hf; cases hf⟩

/-- Only a deployment is favoured, with the time that it asks for. -/
def Favours (settings : Settings) (op : Operation) (favoured : Option Duration) : Prop :=
  ∀ time ∈ favoured, ∃ request, op = .deploy request ∧ time = request.startTimeout ∧
    (time.add? settings.backendGrace).isSome = true

theorem Favours.eq_none {settings : Settings} {op : Operation} (h : Favours settings op favoured)
    (hop : ∀ request, op ≠ .deploy request) : favoured = none := by
  cases favoured with
  | none => rfl
  | some time =>
    obtain ⟨request, hr, _⟩ := h time rfl
    exact absurd hr (hop request)

theorem Favours.long {settings : Settings} {request : Request} (h : Favours settings (.deploy request) favoured) :
    ∀ time ∈ favoured, time ≤ request.startTimeout := by
  intro time ht
  obtain ⟨_, ⟨⟩, rfl, _⟩ := h time ht
  exact Nat.le_refl _

theorem Favours.inRange {settings : Settings} {request : Request}
    (h : Favours settings (.deploy request) favoured) (hf : favoured.isSome = true) :
    (request.startTimeout.add? settings.backendGrace).isSome = true := by
  obtain ⟨time, ht⟩ := Option.isSome_iff_exists.mp hf
  obtain ⟨_, ⟨⟩, rfl, hadd⟩ := h time ht
  exact hadd

theorem program_tracks {settings : Settings} {op : Operation} (h : Records g entries stock)
    (favours : Favours settings op favoured) :
    (op.program settings).Tracks favoured (Concludes favoured g op) (BreaksOff favoured g) entries stock := by
  cases op with
  | deploy request =>
    refine tracks_map.mpr (Tracks.mono (fun _ _ _ hr => Answers.concludes hr fun i hi => by cases hi) ?_)
    cases entries with
    | nil => exact deployNew_tracks h (fun _ => rfl) favours.long favours.inRange fun excused => ⟨h, excused⟩
    | cons newest rest =>
      cases hd : request.decision
      · exact ensureRunning_tracks h List.mem_cons_self favours.long favours.inRange fun excused => ⟨h, excused⟩
      · exact deployNew_tracks h (fun hr => by cases hr) favours.long favours.inRange fun excused => ⟨h, excused⟩
  | start i timeout =>
    have none_favoured := favours.eq_none fun request hr => by cases hr
    subst none_favoured
    dsimp only [program, Tracks]
    cases entries with
    | nil => exact Records.concludes h (fun j hj => by cases hj) (fun s hs => by cases hs) rfl
    | cons newest rest =>
      refine tracks_map.mpr (Tracks.mono (fun _ _ _ hr => Answers.concludes hr fun i hi => by cases hi) ?_)
      exact ensureRunning_tracks h List.mem_cons_self (fun time ht => by cases ht) (fun hf => by cases hf)
        fun excused => ⟨h, excused⟩
  | stop i =>
    have none_favoured := favours.eq_none fun request hr => by cases hr
    dsimp only [program, Tracks]
    split
    · exact Records.concludes h (fun j hj => by cases hj) (fun s hs => by cases hs) none_favoured
    · refine tracks_map.mpr ((stopAll_tracks h (fun s hs => hs) h.nodup).mono fun result entries' stock' hr => ?_)
      exact Records.concludes hr.records (fun j hj => by cases hj) (fun s hs => by cases result <;> cases hs)
        none_favoured
  | delete i =>
    have none_favoured := favours.eq_none fun request hr => by cases hr
    refine tracks_bind.mpr ((stopAll_tracks h (fun s hs => hs) h.nodup).mono fun result entries' stock' hr => ?_)
    cases result with
    | error e =>
      exact Records.concludes hr.records (fun j hj => by cases hj) (fun s hs => by cases hs) none_favoured
    | ok l =>
      have down : ∀ d ∈ entries', d ∈ ([] : List Service) ∨ d.state.isDown = true := by
        intro d hd
        rcases hr.changed d hd with hb | hdown
        · exact Or.inr (hr.stopped l rfl d hb d hd rfl)
        · exact Or.inr hdown
      have records : Records g [] stock' := hr.records.narrow List.nodup_nil (List.nil_subset _) down
      exact Records.concludes records (fun j hj => by cases hj) (fun s hs => by cases hs) none_favoured
  | refresh i =>
    have none_favoured := favours.eq_none fun request hr => by cases hr
    refine tracks_map.mpr ((refreshAll_tracks h (fun s hs => hs) h.nodup).mono fun result entries' stock' hr => ?_)
    refine ⟨hr.records, fun _ o _ ho => ?_, fun s hs => ?_, fun hf => ?_⟩
    · cases result with
      | error e => cases ho
      | ok l => exact hr.current rfl
    · cases result <;> cases hs
    · rw [none_favoured] at hf
      cases hf

end ServingLifecycle.Operation
