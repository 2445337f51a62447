import ServingLifecycle.Proofs.Backend.Outlook
import ServingLifecycle.Proofs.Operation.Halting
import ServingLifecycle.Proofs.Slot.View
/-!
# The survey of a slot

The entries of a slot say how far up its services are at most, whatever happens, but for the entries that are
adrift. `P` is what all of those have in common. One operation may be watched: what it has pledged to leave when
it is through, it leaves.
-/
namespace ServingLifecycle

/-- Who is in the critical section. -/
def Stage.task? : Stage → Option TaskId
  | .idle => none
  | .busy t _ => some t
  | .waiting t _ _ => some t

/-- What is to be known when the operation of a task is through. -/
structure Pledge where
  task : TaskId
  kept : Verdict → Outlook → Prop

/-- An operation that is to leave nothing up pledges that for what was recorded before. -/
def Pledge.halt (t : TaskId) (op : Operation) (before : List Service) (adrift : Set Service) : Pledge where
  task := t
  kept verdict w := op.halts = true → ∀ o, verdict.result = .ok o → ∀ d ∈ before, w.Halted adrift d

namespace SlotView
open SimulatedBackend Operation

/-- How the operation of a task leaves the slot. -/
structure Fulfils (pledge : Option Pledge) (t : TaskId) (verdict : Verdict) (entries : List Service) (w : Outlook) :
    Prop where
  reckons : Reckons entries w
  kept : ∀ x ∈ pledge, x.task = t → x.kept verdict w

/-- The entries that are adrift are recorded, and `P` holds of them. -/
def Strays (P : Service → Prop) (σ : SlotView) (adrift : Set Service) : Prop :=
  ∀ d ∈ adrift, d ∈ σ.entries ∧ P d

inductive Charted (P : Service → Prop) (pledge : Option Pledge) (i : Identity) (σ : SlotView) : Stage → Prop
  | idle {w : Outlook} (strays : σ.Strays P w.adrift) (covers : σ.backend.Covers Service.Bounds w.stock)
      (reckons : Reckons σ.entries w) : Charted P pledge i σ .idle
  | busy {t : TaskId} {p : Program Verdict} {w : Outlook} (strays : σ.Strays P w.adrift)
      (covers : σ.backend.Covers Service.Bounds w.stock)
      (minds : p.Minds (Fulfils pledge t) Reckons σ.entries w) : Charted P pledge i σ (.busy t p)
  | coming {t : TaskId} {c : Call} {next : c.Reply → Program Verdict} {bc : BackendCall} {st : Startup}
      {w : Outlook} (strays : σ.Strays P w.adrift) (hc : c.backendCall? = some bc) (own : bc.identity = i)
      (coming : Coming none .known bc w.stock σ.backend st)
      (covers : σ.backend.Covers Service.Bounds (w.stock.put st.service))
      (minds : (Program.call c next).Minds (Fulfils pledge t) Reckons σ.entries w) :
      Charted P pledge i σ (.waiting t (.call c next) (some st))
  | cut {t : TaskId} {c : Call} {next : c.Reply → Program Verdict} {w : Outlook} (strays : σ.Strays P w.adrift)
      (covers : ∀ reply, c.reply? .late = some reply → σ.backend.Covers Service.Bounds (c.unheard w).stock)
      (minds : (Program.call c next).Minds (Fulfils pledge t) Reckons σ.entries w) :
      Charted P pledge i σ (.waiting t (.call c next) none)

structure Surveyed (P : Service → Prop) (pledge : Option Pledge) (i : Identity) (σ : SlotView) : Prop where
  own : ∀ s ∈ σ.backend.services, s.identity = i
  begun : ∀ x ∈ pledge, (σ.ended x.task).isSome = true ∨ σ.stage.task? = some x.task
  stage : σ.Charted P pledge i σ.stage

variable {P P' : Service → Prop} {pledge : Option Pledge} {i : Identity} {σ σ' : SlotView} {t : TaskId}
  {p : Program Verdict} {w w' : Outlook} {settings : Settings} {may : SlotView → Occurrence → Prop}

/-- An empty slot is surveyed. -/
theorem surveyed_empty (entries : σ.entries = []) (services : σ.backend.services = []) (stage : σ.stage = .idle) :
    σ.Surveyed P none i := by
  refine ⟨by simp [services], nofun, ?_⟩
  rw [stage]
  refine .idle (w := ⟨fun _ => none, ∅⟩) (fun d hd => hd.elim) (fun u x hx => (by cases hx)) ?_
  rw [entries]
  exact ⟨List.nodup_nil, fun d hd => (List.not_mem_nil hd).elim⟩

/-- What the entries adrift have in common may be said in another way. -/
theorem Surveyed.mono (h : σ.Surveyed P pledge i) (keep : ∀ d ∈ σ.entries, P d → P' d) :
    σ.Surveyed P' pledge i := by
  have strays : ∀ {adrift}, σ.Strays P adrift → σ.Strays P' adrift := fun hs d hd =>
    ⟨(hs d hd).1, keep d (hs d hd).1 (hs d hd).2⟩
  refine ⟨h.own, h.begun, ?_⟩
  have stage := h.stage
  generalize σ.stage = x at stage ⊢
  cases stage with
  | idle hs covers reckons => exact .idle (strays hs) covers reckons
  | busy hs covers minds => exact .busy (strays hs) covers minds
  | coming hs hc own coming covers minds => exact .coming (strays hs) hc own coming covers minds
  | cut hs covers minds => exact .cut (strays hs) covers minds

theorem Surveyed.disturb (h : σ.Surveyed P pledge i) (d : Disturbance) :
    { σ with backend := σ.backend.disturb d }.Surveyed P pledge i := by
  refine ⟨own_disturb h.own d, h.begun, ?_⟩
  have charted : ∀ x, σ.Charted P pledge i x → { σ with backend := σ.backend.disturb d }.Charted P pledge i x := by
    intro x hx
    cases hx with
    | idle strays covers reckons => exact .idle strays (covers.disturb d) reckons
    | busy strays covers minds => exact .busy strays (covers.disturb d) minds
    | coming strays hc own coming covers minds =>
      exact .coming strays hc own (coming.disturb fun _ _ => Or.inl rfl) (covers.disturb d) minds
    | cut strays covers minds => exact .cut strays (fun reply hr => (covers reply hr).disturb d) minds
  exact charted σ.stage h.stage

theorem Surveyed.working (h : σ.Surveyed P pledge i) (hs : σ.stage = .busy t p) :
    ∃ w, σ.Strays P w.adrift ∧ σ.backend.Covers Service.Bounds w.stock ∧
      p.Minds (Fulfils pledge t) Reckons σ.entries w := by
  have stage := h.stage
  rw [hs] at stage
  cases stage with | busy strays covers minds =>
  exact ⟨_, strays, covers, minds⟩

/-- The slot after a step of the operation in its critical section. -/
theorem Surveyed.next (h : σ.Surveyed P pledge i) (ended : σ'.ended = σ.ended)
    (task : σ'.stage.task? = σ.stage.task?) (own : ∀ s ∈ σ'.backend.services, s.identity = i)
    (stage : σ'.Charted P pledge i σ'.stage) : σ'.Surveyed P pledge i :=
  ⟨own, fun x hx => by rw [ended, task]; exact h.begun x hx, stage⟩

/-- An operation that enters is one that nothing was pledged for, since a watched one has been there. -/
theorem Surveyed.enter (h : σ.Surveyed P pledge i) (hs : σ.stage = .idle) (new : σ.ended t = none)
    (op : Operation) : { σ with stage := .busy t (op.program settings) }.Surveyed P pledge i := by
  have stage := h.stage
  rw [hs] at stage
  cases stage with | idle strays covers reckons =>
  have ended : ∀ x ∈ pledge, (σ.ended x.task).isSome = true := by
    intro x hx
    refine (h.begun x hx).resolve_right fun ht => ?_
    rw [hs] at ht
    cases ht
  refine ⟨h.own, fun x hx => Or.inl (ended x hx), .busy strays covers ?_⟩
  refine (program_minds settings op reckons).mono fun _ _ _ leaves => ⟨leaves.reckons, fun x hx e => ?_⟩
  have left := ended x hx
  rw [e, new] at left
  cases left

theorem Surveyed.leave (h : σ.Surveyed P pledge i) (hs : σ.stage = .busy t p) (hover : p.isOver = true) :
    { σ with stage := .idle, ended := Function.update σ.ended t (some p) }.Surveyed P pledge i := by
  obtain ⟨w, strays, covers, minds⟩ := h.working hs
  have reckons : Reckons σ.entries w := by
    cases p with
    | done verdict => exact minds.reckons
    | abort fault => exact minds
    | read | write | call => cases hover
  refine ⟨h.own, fun x hx => Or.inl ?_, .idle strays covers reckons⟩
  by_cases e : x.task = t
  · rw [e]
    simp
  · refine (congrArg Option.isSome (Function.update_of_ne e _ _)).trans ((h.begun x hx).resolve_right fun ht => ?_)
    rw [hs] at ht
    exact e (Option.some.inj ht).symm

theorem covers_known {b : SimulatedBackend} {stock : Stock} (h : b.Covers Service.Bounds stock) :
    b.Holds .known stock := by
  refine ⟨fun u x hx => ?_, nofun⟩
  obtain ⟨y, hy, _⟩ := h u x hx
  exact ⟨y, hy, trivial⟩

/-- A survey outlasts every step, if `P` holds of a service whose start is cut off. -/
theorem Surveyed.step (h : σ.Surveyed P pledge i) (step : Step may settings i σ σ')
    (cut : ∀ {t asked timeout deadline p}
      {next : (Call.askWithin (.start asked timeout) deadline).Reply → Program Verdict},
      σ.stage = .waiting t (.call (.askWithin (.start asked timeout) deadline) next) none → σ'.stage = .busy t p →
      asked ∈ σ.entries → P asked) : σ'.Surveyed P pledge i := by
  cases step with
  | disturbed => exact h.disturb _
  | entered hs new own => exact h.enter hs new _
  | read hs =>
    obtain ⟨w, strays, covers, minds⟩ := h.working hs
    exact h.next rfl (by rw [hs]; rfl) h.own (.busy strays covers minds)
  | write hs own =>
    obtain ⟨w, strays, covers, minds⟩ := h.working hs
    exact h.next rfl (by rw [hs]; rfl) h.own
      (.busy (w := w.narrow _) (fun d hd => ⟨hd.2, (strays d hd.1).2⟩) covers minds)
  | staged hs reply =>
    obtain ⟨w, strays, covers, minds⟩ := h.working hs
    exact h.next rfl (by rw [hs]; rfl) h.own
      (.busy strays covers (minds.2 reply w (.told (.staged nofun))))
  | @answered t c next bc birth a reply hs hc own ha hr =>
    obtain ⟨w, strays, covers, minds⟩ := h.working hs
    obtain ⟨stock, yields, follows⟩ : ∃ stock, c.Yields none w.stock reply stock ∧ _ :=
      covers.answered nofun hc ha hr
    have own' := (σ.backend.taken birth bc).own h.own own
    exact h.next rfl (by rw [hs]; rfl) (fun s hs => own' s (mem_share.mp hs).1)
      (.busy (w := ⟨stock, w.adrift⟩) strays ((follows.trans (follows_share own')).covers faithful_bounds covers)
        (minds.2 reply _ (.told yields)))
  | @suspended t c next bc birth startup hs hc own unused hst short =>
    obtain ⟨w, strays, covers, minds⟩ := h.working hs
    have own' := (σ.backend.taken birth bc).own h.own own
    refine h.next rfl (by rw [hs]; rfl) (fun s hs => own' s (mem_share.mp hs).1) ?_
    cases startup with
    | some st =>
      have coming : Coming none .known bc w.stock _ st := (covers_known covers).coming
        (fun s hs => (h.own s hs).trans own.symm) unused nofun nofun (hst st rfl)
      exact .coming strays hc own (coming.share own')
        (((follows_waiting (hst st rfl)).trans (follows_share own')).covers faithful_bounds covers) minds
    | none =>
      have unanswered : ∀ a, (σ.backend.take birth bc).1 ≠ .answered a := by
        intro a ha
        rcases short rfl with hang | ⟨st, wait, _⟩
        · rw [hang] at ha
          cases ha
        · rw [wait] at ha
          cases ha
      exact .cut strays (fun reply hr => (follows_share own').covers faithful_bounds
        (covers.cut unused hc unanswered hr)) minds
  | @finished t c next st reply hs hr =>
    have stage := h.stage
    rw [hs] at stage
    cases stage with | @coming _ _ _ _ _ w strays hc own coming covers minds =>
    obtain ⟨stock, yields, follows⟩ := coming.finish hc hr
    have own' := own_finish h.own (coming.own.trans own)
    exact h.next rfl (by rw [hs]; rfl) (fun s hs => own' s (mem_share.mp hs).1)
      (.busy (w := ⟨stock, w.adrift⟩) strays ((follows.trans (follows_share own')).covers faithful_bounds covers)
        (minds.2 reply _ (.told yields)))
  | @late t c next reply hs hr =>
    have stage := h.stage
    rw [hs] at stage
    cases stage with | @cut _ _ _ w strays covers minds =>
    refine h.next rfl (by rw [hs]; rfl) h.own
      (.busy ?_ (covers reply hr) (minds.2 reply _ (Call.shows_of_late hr)))
    -- the service that was to be started is recorded, and it is adrift from now on
    intro d hd
    cases c with
    | stage | ask => exact strays d hd
    | askWithin c deadline =>
      cases c with
      | start asked timeout =>
        rcases hd with rfl | hd
        · have recorded := minds.1 d timeout deadline rfl
          exact ⟨recorded, cut hs rfl recorded⟩
        · exact strays d hd
      | _ => exact strays d hd
  | left hs hover => exact h.leave hs hover

/-- From the state in which an operation enters on, it may be watched. What it has pledged is what its program
minds. -/
theorem Surveyed.watch (h : σ.Surveyed P none i) (hs : σ.stage = .idle) (op : Operation) :
    ∃ adrift : Set Service, (∀ d ∈ adrift, P d) ∧
      { σ with stage := .busy t (op.program settings) }.Surveyed P
        (some (.halt t op σ.entries adrift)) i := by
  have stage := h.stage
  rw [hs] at stage
  cases stage with | @idle w strays covers reckons =>
  refine ⟨w.adrift, fun d hd => (strays d hd).2, h.own, ?_, .busy strays covers ?_⟩
  · rintro x ⟨⟩
    exact Or.inr rfl
  · refine (program_minds settings op reckons).mono fun _ _ _ leaves => ⟨leaves.reckons, ?_⟩
    rintro x ⟨⟩ _
    exact leaves.halted

/-- An operation that is through has left known what it has pledged. -/
theorem Surveyed.fulfilled {x : Pledge} {verdict : Verdict} (h : σ.Surveyed P (some x) i)
    (hs : σ.stage = .busy x.task (.done verdict)) :
    ∃ w, σ.backend.Covers Service.Bounds w.stock ∧ x.kept verdict w := by
  obtain ⟨w, _, covers, minds⟩ := h.working hs
  exact ⟨w, covers, minds.kept x rfl rfl⟩

end SlotView
end ServingLifecycle
