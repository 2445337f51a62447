import ServingLifecycle.Proofs.Backend.Stock
import ServingLifecycle.Proofs.Operation.Bookkeeping
import ServingLifecycle.Proofs.Slot.View
/-!
# The books of a slot

The entries of a slot record what the backend has, whenever nobody is in the critical section. How far they can
be relied on hangs on what may happen: on whether services crash unseen and calls hang. From a refresh on that
succeeds they can be relied on for what runs, until something crashes again. And an operation that nothing
stands in the way of succeeds.
-/
namespace ServingLifecycle.SlotView
open SimulatedBackend Operation

/-- What is taken for granted of a slot. -/
structure Terms where
  /-- what the stock can be relied on for from one reply to the next -/
  fidelity : Fidelity
  /-- what the entries can be relied on for from the start -/
  level : Fidelity
  /-- the task of a refresh, after which they can be relied on for what runs -/
  refresh : Option TaskId
  /-- the task of a deployment that nothing stands in the way of -/
  favourite : Option (TaskId × Request)

namespace Terms

/-- The time that the operation of a task is given, if nothing stands in its way. -/
def favoured (x : Terms) (t : TaskId) : Option Duration :=
  x.favourite.bind fun f => if f.1 = t then some f.2.startTimeout else none

/-- The terms allow for what comes to the slot from outside. -/
def Allows (x : Terms) (σ : SlotView) : Occurrence → Prop
  | .disturbed d =>
    (∀ u, d = .crash u → x.fidelity = .known ∨ ∀ s ∈ σ.backend.services, s.uuid ≠ u) ∧
      (x.fidelity = .exact → d ≠ .setUnresponsive true) ∧
      ∀ f ∈ x.favourite, (σ.backend.disturb d).Favours f.2.startTimeout
  | .entered t op => (t ∈ x.refresh → ∃ i, op = .refresh i) ∧ ∀ f ∈ x.favourite, f.1 = t → op = .deploy f.2
  | .staged t _ _ _ reply => ∀ f ∈ x.favourite, f.1 = t → ∃ layout, reply = .ok layout

/-- The refresh has succeeded. -/
def HasRefreshed (x : Terms) (σ : SlotView) : Prop :=
  ∃ t ∈ x.refresh, ∃ action o, σ.ended t = some (.done ⟨action, .ok o⟩)

/-- What the entries can be relied on for. -/
def Vouches (x : Terms) (σ : SlotView) (g : Fidelity) : Prop :=
  g = x.level ∨ (g = .current ∧ x.HasRefreshed σ)

variable {x : Terms} {t : TaskId} {time : Duration}

theorem of_favoured (h : time ∈ x.favoured t) :
    ∃ f ∈ x.favourite, f.1 = t ∧ time = f.2.startTimeout := by
  obtain ⟨f, hf, h⟩ := Option.bind_eq_some_iff.mp h
  split at h
  · exact ⟨f, hf, ‹_›, (Option.some.inj h).symm⟩
  · cases h

theorem favoured_eq {f : TaskId × Request} (hf : f ∈ x.favourite) : x.favoured f.1 = some f.2.startTimeout := by
  unfold favoured
  rw [Option.mem_def.mp hf]
  simp

end Terms

/-- An operation of which `p` is left to do. -/
structure OnBooks (x : Terms) (σ : SlotView) (t : TaskId) (op : Operation) (p : Program Verdict) (stock : Stock) :
    Prop where
  unfinished : σ.ended t = none
  refreshes : t ∈ x.refresh → ∃ i, op = .refresh i
  tracks : ∀ g, x.Vouches σ g →
    p.Tracks (x.favoured t) (Concludes (x.favoured t) g op) (BreaksOff (x.favoured t) g) σ.entries stock

inductive Balanced (x : Terms) (i : Identity) (σ : SlotView) : Stage → Prop
  | idle {stock : Stock} (holds : σ.backend.Holds x.fidelity stock)
      (records : ∀ g, x.Vouches σ g → Records g σ.entries stock) : Balanced x i σ .idle
  | busy {t : TaskId} {op : Operation} {p : Program Verdict} {stock : Stock}
      (holds : σ.backend.Holds x.fidelity stock) (work : σ.OnBooks x t op p stock) : Balanced x i σ (.busy t p)
  | coming {t : TaskId} {op : Operation} {c : Call} {next : c.Reply → Program Verdict} {bc : BackendCall}
      {st : Startup} {stock : Stock} (work : σ.OnBooks x t op (.call c next) stock)
      (hc : c.backendCall? = some bc) (own : bc.identity = i)
      (coming : Coming (x.favoured t) x.fidelity bc stock σ.backend st) :
      Balanced x i σ (.waiting t (.call c next) (some st))
  | cut {t : TaskId} {op : Operation} {c : Call} {next : c.Reply → Program Verdict} {stock : Stock}
      (work : σ.OnBooks x t op (.call c next) stock) (holds : σ.backend.Holds x.fidelity stock)
      (excused : x.favoured t = none) : Balanced x i σ (.waiting t (.call c next) none)

/-- What the slot has come to under the terms. -/
structure Kept (x : Terms) (i : Identity) (σ : SlotView) : Prop where
  own : ∀ s ∈ σ.backend.services, s.identity = i
  responsive : x.fidelity = .exact → σ.backend.unresponsive = false
  favours : ∀ f ∈ x.favourite, σ.backend.Favours f.2.startTimeout
  served : ∀ f ∈ x.favourite, ∀ p, σ.ended f.1 = some p →
    ∃ action s, p = .done ⟨action, .ok (.service s)⟩ ∧ s.isRunning = true
  stage : σ.Balanced x i σ.stage

variable {x : Terms} {i : Identity} {σ σ' : SlotView} {t : TaskId} {op : Operation} {p q : Program Verdict}
  {stock stock' : Stock} {settings : Settings} {d : Disturbance}

theorem OnBooks.disturb (h : σ.OnBooks x t op p stock) (d : Disturbance) :
    { σ with backend := σ.backend.disturb d }.OnBooks x t op p stock :=
  ⟨h.unfinished, h.refreshes, h.tracks⟩

theorem Kept.disturb (h : σ.Kept x i) (allowed : x.Allows σ (.disturbed d)) :
    { σ with backend := σ.backend.disturb d }.Kept x i := by
  obtain ⟨spared, responsive, favours⟩ := allowed
  refine ⟨own_disturb h.own d, fun hf => ?_, favours, h.served, ?_⟩
  · cases d with
    | setUnresponsive unresponsive =>
      cases unresponsive with
      | false => rfl
      | true => exact absurd rfl (responsive hf)
    | _ => exact h.responsive hf
  · have balanced : ∀ y, σ.Balanced x i y → { σ with backend := σ.backend.disturb d }.Balanced x i y := by
      intro y hy
      cases hy with
      | idle holds records => exact .idle (holds.disturb spared) records
      | busy holds work => exact .busy (holds.disturb spared) (work.disturb d)
      | coming work hc own coming => exact .coming (work.disturb d) hc own (coming.disturb spared)
      | cut work holds excused => exact .cut (work.disturb d) (holds.disturb spared) excused
    exact balanced σ.stage h.stage

theorem Terms.vouches_congr (h : σ'.ended = σ.ended) {g : Fidelity} : x.Vouches σ' g ↔ x.Vouches σ g := by
  simp only [Terms.Vouches, Terms.HasRefreshed, h]

/-- The operation goes on with what is left of its program. -/
theorem OnBooks.next (h : σ.OnBooks x t op p stock) (ended : σ'.ended = σ.ended)
    (tracks : ∀ g, p.Tracks (x.favoured t) (Concludes (x.favoured t) g op) (BreaksOff (x.favoured t) g)
        σ.entries stock →
      q.Tracks (x.favoured t) (Concludes (x.favoured t) g op) (BreaksOff (x.favoured t) g) σ'.entries stock') :
    σ'.OnBooks x t op q stock' :=
  ⟨ended ▸ h.unfinished, h.refreshes, fun g hg => tracks g (h.tracks g ((Terms.vouches_congr ended).mp hg))⟩

theorem Kept.working (h : σ.Kept x i) (hs : σ.stage = .busy t p) :
    ∃ op stock, σ.backend.Holds x.fidelity stock ∧ σ.OnBooks x t op p stock := by
  have stage := h.stage
  rw [hs] at stage
  cases stage with | busy holds work =>
  exact ⟨_, _, holds, work⟩

/-- What the backend is like for the operation of a task that nothing stands in the way of. -/
theorem Kept.favoured (h : σ.Kept x i) (t : TaskId) : ∀ time ∈ x.favoured t, σ.backend.Favours time := by
  intro time ht
  obtain ⟨f, hf, _, rfl⟩ := Terms.of_favoured ht
  exact h.favours f hf

theorem Kept.start (h : σ.Kept x i) (hs : σ.stage = .idle) (new : σ.ended t = none)
    (allowed : x.Allows σ (.entered t op))
    (inRange : ∀ f ∈ x.favourite, (f.2.startTimeout.add? settings.backendGrace).isSome = true) :
    { σ with stage := .busy t (op.program settings) }.Kept x i := by
  have stage := h.stage
  rw [hs] at stage
  cases stage with | idle holds records =>
  obtain ⟨refreshes, deploys⟩ := allowed
  have favours : Operation.Favours settings op (x.favoured t) := by
    intro time ht
    obtain ⟨f, hf, e, rfl⟩ := Terms.of_favoured ht
    exact ⟨f.2, deploys f hf e, rfl, inRange f hf⟩
  exact ⟨h.own, h.responsive, h.favours, h.served,
    .busy holds ⟨new, refreshes, fun g hg => program_tracks (records g hg) favours⟩⟩

/-- An operation leaves the books as its program has kept them. -/
theorem OnBooks.leave (h : σ.OnBooks x t op p stock) (holds : σ.backend.Holds x.fidelity stock)
    (hover : p.isOver = true) : Balanced x i { σ with
      stage := .idle, ended := Function.update σ.ended t (some p) } .idle := by
  have records : ∀ g, x.Vouches σ g → Records g σ.entries stock := by
    intro g hg
    have tracks := h.tracks g hg
    cases p with
    | done verdict => exact tracks.records
    | abort fault => exact tracks.records
    | read | write | call => cases hover
  refine .idle holds fun g hg => ?_
  rcases hg with rfl | ⟨rfl, u, hu, action, o, he⟩
  · exact records x.level (Or.inl rfl)
  · change Function.update σ.ended t (some p) u = _ at he
    by_cases e : u = t
    · subst e
      rw [Function.update_self] at he
      cases he
      obtain ⟨j, hop⟩ := h.refreshes hu
      exact (h.tracks x.level (Or.inl rfl)).refreshed j o hop rfl
    · rw [Function.update_of_ne e] at he
      exact records .current (Or.inr ⟨rfl, u, hu, action, o, he⟩)

/-- A deployment that nothing stands in the way of leaves with the service that runs alone. -/
theorem OnBooks.answered (h : σ.OnBooks x t op p stock) (hover : p.isOver = true)
    (hf : (x.favoured t).isSome = true) : ∃ action s, p = .done ⟨action, .ok (.service s)⟩ ∧
      s.isRunning = true ∧ σ.entries = [s] := by
  have tracks := h.tracks x.level (Or.inl rfl)
  cases p with
  | done verdict =>
    obtain ⟨s, hs⟩ := tracks.succeeds hf
    obtain ⟨running, alone⟩ := tracks.answered s hs
    exact ⟨verdict.attempted, s, by rw [← hs], running, alone⟩
  | abort fault =>
    rw [tracks.excused] at hf
    cases hf
  | read | write | call => cases hover

/-- The slot after a change of its backend and its stage that leaves the mode of the backend as it was. -/
theorem Kept.next (h : σ.Kept x i) (ended : σ'.ended = σ.ended) (alike : σ'.backend.Alike σ.backend)
    (own : ∀ s ∈ σ'.backend.services, s.identity = i) (stage : σ'.Balanced x i σ'.stage) : σ'.Kept x i :=
  ⟨own, fun hf => alike.unresponsive.trans (h.responsive hf), fun f hf => alike.favours (h.favours f hf),
    fun f hf p hp => h.served f hf p (ended ▸ hp), stage⟩

theorem Kept.step (h : σ.Kept x i)
    (inRange : ∀ f ∈ x.favourite, (f.2.startTimeout.add? settings.backendGrace).isSome = true)
    (step : Step x.Allows settings i σ σ') : σ'.Kept x i := by
  cases step with
  | disturbed allowed => exact h.disturb allowed
  | entered hs new own allowed => exact h.start hs new allowed inRange
  | read hs | write hs own =>
    obtain ⟨op, stock, holds, work⟩ := h.working hs
    exact h.next rfl ⟨rfl, rfl, rfl⟩ h.own (.busy holds (work.next rfl fun g tracks => tracks))
  | @staged t uri kind root next hs reply allowed =>
    obtain ⟨op, stock, holds, work⟩ := h.working hs
    have succeeds : (x.favoured t).isSome = true → ∃ layout, reply = .ok layout := by
      intro hf
      obtain ⟨time, ht⟩ := Option.isSome_iff_exists.mp hf
      obtain ⟨f, hf, e, _⟩ := Terms.of_favoured ht
      exact allowed f hf e
    exact h.next rfl ⟨rfl, rfl, rfl⟩ h.own
      (.busy holds (work.next rfl fun g tracks => tracks.2 reply stock (.staged succeeds)))
  | @answered t c next bc birth a reply hs hc own ha hr =>
    obtain ⟨op, stock, holds, work⟩ := h.working hs
    obtain ⟨stock', yields, follows⟩ := Covers.answered holds.kept (h.favoured t) hc ha hr
    have taken := σ.backend.taken birth bc
    have own' := taken.own h.own own
    exact h.next rfl taken.alike.share (fun s hs => own' s (mem_share.mp hs).1)
      (.busy ((follows.trans (follows_share own')).holds holds) (work.next rfl fun g tracks => tracks.2 reply stock' yields))
  | @suspended t c next bc birth startup hs hc own unused hst cut =>
    obtain ⟨op, stock, holds, work⟩ := h.working hs
    have patient : c.Patient (x.favoured t) := (work.tracks x.level (Or.inl rfl)).1
    have taken := σ.backend.taken birth bc
    have own' := taken.own h.own own
    refine h.next rfl taken.alike.share (fun s hs => own' s (mem_share.mp hs).1) ?_
    have work' : OnBooks x { σ with
        backend := (σ.backend.take birth bc).2.share i, stage := .waiting t (.call c next) startup }
        t op (.call c next) stock := work.next rfl fun g tracks => tracks
    cases startup with
    | some st =>
      have coming := holds.coming (fun s hs => (h.own s hs).trans own.symm) unused (h.favoured t)
        (fun timeout ht => (patient bc hc timeout ht).2) (hst st rfl)
      exact .coming work' hc own (coming.share own')
    | none =>
      obtain ⟨holds', excused⟩ := holds.cut unused patient hc (h.favoured t) h.responsive (cut rfl)
      exact .cut work' ((follows_share own').holds holds') excused
  | @finished t c next st reply hs hr =>
    have stage := h.stage
    rw [hs] at stage
    cases stage with | coming work hc own coming =>
    obtain ⟨stock', yields, follows⟩ := coming.finish hc hr
    have own' := own_finish h.own (coming.own.trans own)
    exact h.next rfl alike_finish.share (fun s hs => own' s (mem_share.mp hs).1)
      (.busy ((follows.trans (follows_share own')).holds coming.holds) (work.next rfl fun g tracks => tracks.2 reply stock' yields))
  | @late t c next reply hs hr =>
    have stage := h.stage
    rw [hs] at stage
    cases stage with | cut work holds excused =>
    exact h.next rfl ⟨rfl, rfl, rfl⟩ h.own
      (.busy holds (work.next rfl fun g tracks => tracks.2 reply _ (Call.yields_of_late hr excused)))
  | @left t p hs hover =>
    obtain ⟨op, stock, holds, work⟩ := h.working hs
    refine ⟨h.own, h.responsive, h.favours, fun f hf q hq => ?_, work.leave holds hover⟩
    change Function.update σ.ended t (some p) f.1 = some q at hq
    by_cases e : f.1 = t
    · subst e
      rw [Function.update_self] at hq
      cases hq
      obtain ⟨action, s, rfl, running, _⟩ := work.answered hover (by rw [Terms.favoured_eq hf]; rfl)
      exact ⟨action, s, rfl, running⟩
    · rw [Function.update_of_ne e] at hq
      exact h.served f hf q hq

/-- An operation that has yet to come may turn out to be one that nothing stands in the way of. -/
theorem Kept.favour {request : Request} (h : σ.Kept x i) (plain : x.favourite = none)
    (favours : σ.backend.Favours request.startTimeout) (unfinished : σ.ended t = none)
    (away : ∀ p, σ.stage ≠ .busy t p ∧ ∀ startup, σ.stage ≠ .waiting t p startup) :
    σ.Kept { x with favourite := some (t, request) } i := by
  have nobody : ∀ u, x.favoured u = none := by
    intro u
    unfold Terms.favoured
    rw [plain]
    rfl
  have others : ∀ u, u ≠ t → Terms.favoured { x with favourite := some (t, request) } u = none := by
    intro u hu
    exact if_neg (Ne.symm hu)
  have work : ∀ {u op p stock}, u ≠ t → σ.OnBooks x u op p stock →
      σ.OnBooks { x with favourite := some (t, request) } u op p stock := by
    intro u op p stock hu work
    refine ⟨work.unfinished, work.refreshes, fun g hg => ?_⟩
    rw [others u hu, ← nobody u]
    exact work.tracks g hg
  refine ⟨h.own, h.responsive, fun f hf => ?_, fun f hf p hp => ?_, ?_⟩
  · cases hf
    exact favours
  · cases hf
    rw [unfinished] at hp
    cases hp
  · have stage := h.stage
    generalize σ.stage = y at stage away
    cases stage with
    | idle holds records => exact .idle holds records
    | @busy u op p stock holds onBooks =>
      have hu : u ≠ t := by
        rintro rfl
        exact (away p).1 rfl
      exact .busy holds (work hu onBooks)
    | @coming u op c next bc st stock onBooks hc own coming =>
      have hu : u ≠ t := by
        rintro rfl
        exact (away _).2 _ rfl
      refine .coming (work hu onBooks) hc own ?_
      rw [others u hu, ← nobody u]
      exact coming
    | @cut u op c next stock onBooks holds excused =>
      have hu : u ≠ t := by
        rintro rfl
        exact (away _).2 _ rfl
      exact .cut (work hu onBooks) holds (others u hu)

/-- When a slot is idle its books may be opened anew, from what the backend has now and with a refresh to come. -/
theorem Kept.reopen {u : TaskId} (h : σ.Kept ⟨.known, .known, none, none⟩ i) (idle : σ.stage = .idle)
    (pending : σ.ended u = none) : σ.Kept ⟨.current, .known, some u, none⟩ i := by
  have stage := h.stage
  rw [idle] at stage
  cases stage with | idle holds records =>
  refine ⟨h.own, nofun, fun f hf => (by cases hf), fun f hf => (by cases hf), ?_⟩
  rw [idle]
  refine .idle (holds_self .current σ.backend) fun g hg => ?_
  rcases hg with rfl | ⟨_, v, hv, action, o, he⟩
  · obtain ⟨nodup, kept, _⟩ := records .known (Or.inl rfl)
    refine ⟨nodup, fun d hd => ?_, nofun⟩
    obtain ⟨y, hy, _⟩ := kept d hd
    obtain ⟨z, hz, _⟩ := holds.kept d.uuid y hy
    exact ⟨z, hz, trivial⟩
  · cases hv
    rw [pending] at he
    cases he

theorem Kept.steps (h : σ.Kept x i)
    (inRange : ∀ f ∈ x.favourite, (f.2.startTimeout.add? settings.backendGrace).isSome = true)
    (steps : Relation.ReflTransGen (Step x.Allows settings i) σ σ') : σ'.Kept x i := by
  induction steps with
  | refl => exact h
  | tail _ step ih => exact ih.step inRange step

end ServingLifecycle.SlotView
