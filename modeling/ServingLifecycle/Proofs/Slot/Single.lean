import ServingLifecycle.Proofs.Backend.Running
import ServingLifecycle.Proofs.Operation.Mirror
import ServingLifecycle.Proofs.Slot.View
/-!
# At most one running service

The invariant of a slot. While nobody is in the critical section, every running service of the slot is recorded
as running, and at most one is. An operation at work may break and repair that, along a course that its program
keeps whatever the backend replies. Only an operation that fails while outages come and go leaves more.
-/
namespace ServingLifecycle.SlotView
open SimulatedBackend Operation

/-- The operation of a task has answered with an error. -/
def HasFailed (σ : SlotView) (t : TaskId) : Prop :=
  ∃ action e, σ.ended t = some (.done ⟨action, .error e⟩)

/-- Outages come and go only while nobody is in the critical section, if they are steady. -/
def Allows (steady : Bool) (σ : SlotView) (o : Occurrence) : Prop :=
  ∀ offline, o = .disturbed (.setOffline offline) → steady = true → σ.stage = .idle

/-- At most one service runs, unless outages are not steady and an operation has failed that is not among the
old ones. -/
def Bound (steady : Bool) (old : Set TaskId) (σ : SlotView) (services : List Service) : Prop :=
  (runningIn services).Subsingleton ∨ (steady = false ∧ ∃ t ∉ old, σ.HasFailed t)

/-- At most one service is recorded, unless an operation has failed. -/
def Few (σ : SlotView) (services : List Service) : Prop :=
  (idsIn services).Subsingleton ∨ ∃ t, σ.HasFailed t

/-- An operation that has got so far that `p` is left to do: from what was recorded before it came, and from
what may run now, it will leave the slot as it should. -/
structure AtWork (steady : Bool) (old : Set TaskId) (σ : SlotView) (t : TaskId) (p : Program Verdict)
    (offline : Option Bool) (before : List Service) (up : Set Uuid) : Prop where
  unfinished : σ.ended t = none
  certain : offline.isSome = steady
  bound : σ.Bound steady old before
  few : σ.Few before
  calm : Calm before up
  backend : σ.backend.Bounded offline up
  keeps : p.Keeps offline (Calm before) (Settles offline before) (Spared before) σ.entries up

inductive Stands (steady : Bool) (old : Set TaskId) (σ : SlotView) : Stage → Prop
  | idle (mirrors : Mirrors σ.entries (runningIn σ.backend.services)) (bound : σ.Bound steady old σ.entries)
      (few : σ.Few σ.entries) : Stands steady old σ .idle
  | busy {t : TaskId} {p : Program Verdict} {offline : Option Bool} {before : List Service} {up : Set Uuid}
      (work : σ.AtWork steady old t p offline before up) : Stands steady old σ (.busy t p)
  | waiting {t : TaskId} {c : Call} {next : c.Reply → Program Verdict} {bc : BackendCall}
      {startup : Option Startup} {offline : Option Bool} {before : List Service} {up : Set Uuid}
      (work : σ.AtWork steady old t (.call c next) offline before up) (hc : c.backendCall? = some bc)
      (underway : ∀ st ∈ startup, Underway offline bc σ.backend st) :
      Stands steady old σ (.waiting t (.call c next) startup)

structure Sound (steady : Bool) (old : Set TaskId) (i : Identity) (σ : SlotView) : Prop where
  distinct : σ.backend.Distinct
  own : ∀ s ∈ σ.backend.services, s.identity = i
  past : ∀ t ∈ old, (σ.ended t).isSome = true
  stage : σ.Stands steady old σ.stage

variable {steady : Bool} {old : Set TaskId} {i : Identity} {σ σ' : SlotView} {t : TaskId} {d : Disturbance}
  {p : Program Verdict} {offline : Option Bool} {before : List Service} {up : Set Uuid} {settings : Settings}

theorem AtWork.disturb (h : σ.AtWork steady old t p offline before up) (allowed : σ.Allows steady (.disturbed d))
    (working : σ.stage ≠ .idle) :
    { σ with backend := σ.backend.disturb d }.AtWork steady old t p offline before up := by
  refine ⟨h.unfinished, h.certain, h.bound, h.few, h.calm, h.backend.disturb fun o ho => ?_, h.keeps⟩
  have unsteady : steady = false := by
    cases steady with
    | false => rfl
    | true => exact absurd (allowed o (congrArg _ ho) rfl) working
  exact Option.isNone_iff_eq_none.mp (by rw [← Option.not_isSome, h.certain, unsteady]; rfl)

theorem Sound.disturb (h : σ.Sound steady old i) (allowed : σ.Allows steady (.disturbed d)) :
    { σ with backend := σ.backend.disturb d }.Sound steady old i := by
  refine ⟨h.distinct.disturb d, own_disturb h.own d, h.past, ?_⟩
  · have stands : ∀ x, σ.stage = x → σ.Stands steady old x →
        { σ with backend := σ.backend.disturb d }.Stands steady old x := by
      intro x hσ stage
      cases stage with
      | idle mirrors bound few => exact .idle (mirrors.mono runningIn_disturb) bound few
      | busy work => exact .busy (work.disturb allowed (by rw [hσ]; nofun))
      | waiting work hc underway =>
        exact .waiting (work.disturb allowed (by rw [hσ]; nofun)) hc fun st hst => (underway st hst).disturb d
    exact stands σ.stage rfl h.stage

/-- Whoever has failed has still failed when another operation has left. -/
theorem HasFailed.leave {u : TaskId} (h : σ.HasFailed u) (unfinished : σ.ended t = none) :
    { σ with stage := .idle, ended := Function.update σ.ended t (some p) }.HasFailed u := by
  obtain ⟨action, e, he⟩ := h
  have hne : u ≠ t := by
    rintro rfl
    rw [unfinished] at he
    cases he
  exact ⟨action, e, (Function.update_of_ne hne _ _).trans he⟩

/-- An operation leaves its slot as its program has kept it. -/
theorem AtWork.leave (h : σ.AtWork steady old t p offline before up)
    (past : ∀ t ∈ old, (σ.ended t).isSome = true) (hover : p.isOver = true) :
    Stands steady old { σ with stage := .idle, ended := Function.update σ.ended t (some p) } .idle := by
  have bound : ∀ {services}, runningIn services ⊆ runningIn before →
      { σ with stage := .idle, ended := Function.update σ.ended t (some p) }.Bound steady old services := by
    intro services subset
    rcases h.bound with lone | ⟨unsteady, u, hu, failed⟩
    · exact Or.inl (lone.anti subset)
    · exact Or.inr ⟨unsteady, u, hu, failed.leave h.unfinished⟩
  have few : ∀ {services}, idsIn services ⊆ idsIn before →
      { σ with stage := .idle, ended := Function.update σ.ended t (some p) }.Few services := by
    intro services subset
    rcases h.few with few | ⟨u, failed⟩
    · exact Or.inl (few.anti subset)
    · exact Or.inr ⟨u, failed.leave h.unfinished⟩
  have keeps := h.keeps
  cases p with
  | abort fault => exact .idle (keeps.mirrors.mono h.backend.running) (bound keeps.running) (few keeps.ids)
  | done verdict =>
    have failed : ∀ {e}, verdict.result = .error e → { σ with
        stage := .idle, ended := Function.update σ.ended t (some (.done verdict)) }.HasFailed t := by
      intro e he
      refine ⟨verdict.attempted, e, ?_⟩
      rw [← he]
      exact Function.update_self _ _ _
    refine .idle (keeps.mirrors.mono h.backend.running) ?_ ?_
    · rcases keeps.bounded with lone | subset | ⟨unsure, e, he⟩
      · exact Or.inl lone
      · exact bound subset
      · have hnew : t ∉ old := by
          intro ht
          have := past t ht
          rw [h.unfinished] at this
          cases this
        refine Or.inr ⟨?_, t, hnew, failed he⟩
        rw [← h.certain, unsure]
        rfl
    · rcases keeps.few with alone | subset | ⟨e, he⟩
      · exact Or.inl alone
      · exact few subset
      · exact Or.inr ⟨t, failed he⟩
  | read | write | call => cases hover

/-- The operation goes on with what is left of its program. -/
theorem AtWork.next (h : σ.AtWork steady old t p offline before up) {q : Program Verdict} {up' : Set Uuid}
    (ended : σ'.ended = σ.ended) (calm : Calm before up') (backend : σ'.backend.Bounded offline up')
    (keeps : q.Keeps offline (Calm before) (Settles offline before) (Spared before) σ'.entries up') :
    σ'.AtWork steady old t q offline before up' := by
  refine ⟨ended ▸ h.unfinished, h.certain, ?_, ?_, calm, backend, keeps⟩
  · simpa only [Bound, HasFailed, ended] using h.bound
  · simpa only [Few, HasFailed, ended] using h.few

theorem Sound.working (h : σ.Sound steady old i) (hs : σ.stage = .busy t p) :
    ∃ offline before up, σ.AtWork steady old t p offline before up := by
  have stage := h.stage
  rw [hs] at stage
  cases stage with | busy work =>
  exact ⟨_, _, _, work⟩

/-- Who waits for an answer has set a service on its way up, unless only a deadline ends the wait. -/
theorem Sound.waiting {c : Call} {next : c.Reply → Program Verdict} {startup : Option Startup}
    (h : σ.Sound steady old i) (hs : σ.stage = .waiting t (.call c next) startup) :
    ∃ offline before up bc, σ.AtWork steady old t (.call c next) offline before up ∧
      c.backendCall? = some bc ∧ ∀ st ∈ startup, Underway offline bc σ.backend st := by
  have stage := h.stage
  rw [hs] at stage
  cases stage with | waiting work hc underway =>
  exact ⟨_, _, _, _, work, hc, underway⟩

theorem Sound.step (h : σ.Sound steady old i) (step : Step (Allows steady) settings i σ σ') :
    σ'.Sound steady old i := by
  cases step with
  | disturbed allowed => exact h.disturb allowed
  | @entered t op hs new own allowed =>
    have stage := h.stage
    rw [hs] at stage
    cases stage with | idle mirrors bound few =>
    -- the backend stays as it is if outages are steady, and nothing is certain if they are not
    have work : { σ with stage := .busy t (op.program settings) }.AtWork steady old t (op.program settings)
        (if steady then some σ.backend.offline else none) σ.entries (runningIn σ.backend.services) := by
      refine ⟨new, ?_, bound, few, mirrors.calm Set.Subset.rfl, ⟨Set.Subset.rfl, fun o ho => ?_⟩,
        program_keeps settings op mirrors⟩
      · cases steady <;> rfl
      · cases steady <;> cases ho
        rfl
    exact ⟨h.distinct, h.own, h.past, .busy work⟩
  | read hs | write hs own =>
    obtain ⟨offline, before, up, work⟩ := h.working hs
    exact ⟨h.distinct, h.own, h.past, .busy (work.next rfl work.calm work.backend work.keeps)⟩
  | staged hs reply allowed =>
    obtain ⟨offline, before, up, work⟩ := h.working hs
    have keeps := (work.keeps reply _ (.staged reply)).2
    exact ⟨h.distinct, h.own, h.past, .busy (work.next rfl work.calm work.backend keeps)⟩
  | answered hs hc own ha hr =>
    obtain ⟨offline, before, up, work⟩ := h.working hs
    obtain ⟨up', told, backend⟩ := work.backend.answered h.distinct hc ha hr
    obtain ⟨calm, keeps⟩ := work.keeps _ _ told
    exact ⟨((taken _ _ _).distinct h.distinct).share i, fun s hs => (mem_share.mp hs).2, h.past,
      .busy (work.next rfl calm (backend.share i) keeps)⟩
  | suspended hs hc own unused hst cut =>
    obtain ⟨offline, before, up, work⟩ := h.working hs
    have own' : ∀ s ∈ σ.backend.services, s.identity = _ := fun s hs => (h.own s hs).trans own.symm
    exact ⟨((taken _ _ _).distinct h.distinct).share i, fun s hs => (mem_share.mp hs).2, h.past,
      .waiting (work.next rfl work.calm (((taken _ _ _).bounded work.backend).share i) work.keeps) hc
        fun st hst' => (work.backend.underway own' (hst st hst')).share i⟩
  | finished hs hr =>
    obtain ⟨offline, before, up, bc, work, hc, underway⟩ := h.waiting hs
    obtain ⟨up', told, backend⟩ := work.backend.finish (underway _ rfl) hc hr
    obtain ⟨calm, keeps⟩ := work.keeps _ _ told
    exact ⟨(h.distinct.finish _).share i, fun s hs => (mem_share.mp hs).2, h.past,
      .busy (work.next rfl calm (backend.share i) keeps)⟩
  | late hs hr =>
    obtain ⟨offline, before, up, bc, work, _, _⟩ := h.waiting hs
    have keeps := (work.keeps _ _ (Call.tells_of_late hr)).2
    exact ⟨h.distinct, h.own, h.past, .busy (work.next rfl work.calm work.backend keeps)⟩
  | @left t p hs hover =>
    obtain ⟨offline, before, up, work⟩ := h.working hs
    refine ⟨h.distinct, h.own, fun u hu => ?_, work.leave h.past hover⟩
    by_cases e : u = t
    · rw [e]
      simp
    · simpa [Function.update_of_ne e] using h.past u hu

theorem Sound.steps (h : σ.Sound steady old i)
    (steps : Relation.ReflTransGen (Step (Allows steady) settings i) σ σ') : σ'.Sound steady old i := by
  induction steps with
  | refl => exact h
  | tail _ step ih => exact ih.step step

theorem sound_empty (entries : σ.entries = []) (services : σ.backend.services = []) (stage : σ.stage = .idle) :
    σ.Sound steady ∅ i := by
  have ids : idsIn ([] : List Service) = ∅ := by simp [idsIn]
  have running : runningIn ([] : List Service) = ∅ := by simp [runningIn]
  refine ⟨by simp [Distinct, services], by simp [services], fun t ht => ht.elim, ?_⟩
  rw [stage]
  refine .idle ⟨by simp [entries], ?_⟩ (Or.inl ?_) (Or.inl ?_)
  · rw [services, running]
    exact Set.empty_subset _
  · rw [entries, running]
    exact Set.subsingleton_empty
  · rw [entries, ids]
    exact Set.subsingleton_empty

theorem Sound.of_idle (h : σ.Sound steady old i) (idle : σ.stage = .idle) :
    Mirrors σ.entries (runningIn σ.backend.services) ∧ σ.Bound steady old σ.entries := by
  have stage := h.stage
  rw [idle] at stage
  cases stage with | idle mirrors bound few =>
  exact ⟨mirrors, bound⟩

/-- As long as no operation has failed, at most one service runs, even in the middle of an operation. -/
theorem Sound.lone (h : σ.Sound steady old i) :
    (runningIn σ.backend.services).Subsingleton ∨ ∃ t, σ.HasFailed t := by
  have stage := h.stage
  generalize σ.stage = x at stage
  cases stage with
  | idle mirrors bound few =>
    exact few.imp_left fun few => few.anti (mirrors.recorded.trans runningIn_subset_idsIn)
  | busy work | waiting work => exact work.few.imp_left fun few => (work.calm few).anti work.backend.running

/-- An operation that answers with a service leaves at most one running, and whatever has failed is made up
for. -/
theorem Sound.of_served {action : Action} {service : Service} (h : σ.Sound steady old i)
    (served : σ.stage = .busy t (.done ⟨action, .ok (.service service)⟩)) :
    Mirrors σ.entries (runningIn σ.backend.services) ∧ (runningIn σ.entries).Subsingleton ∧
      σ.Sound steady { u | (σ.ended u).isSome = true } i := by
  obtain ⟨offline, before, up, work⟩ := h.working served
  have alone := work.keeps.alone service rfl
  have lone := alone.anti runningIn_subset_idsIn
  refine ⟨work.keeps.mirrors.mono work.backend.running, lone, h.distinct, h.own, fun u hu => hu, ?_⟩
  have calm : Calm σ.entries _ := fun few => few.anti (work.keeps.mirrors.recorded.trans runningIn_subset_idsIn)
  rw [served]
  exact .busy ⟨work.unfinished, work.certain, Or.inl lone, Or.inl alone, calm, work.backend,
    ⟨work.keeps.mirrors, Or.inl lone, Or.inl alone, fun _ _ => alone⟩⟩

end ServingLifecycle.SlotView
