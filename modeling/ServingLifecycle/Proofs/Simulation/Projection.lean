import Mathlib.Logic.Relation
import ServingLifecycle.Proofs.Simulation.Homes
import ServingLifecycle.Proofs.Slot.View
/-!
# The projection on a slot

Whatever happens in a simulation, each slot sees a step of its own view, or nothing at all. So what holds of
all runs of the view of a slot holds of the slot in every simulation.
-/
namespace ServingLifecycle.Simulation
open SimulatedBackend

/-- What can be seen of a task of a slot: whether it is in its critical section, and what it has left to do,
if it has been there. -/
def glance (s : Simulation) (i : Identity) (t : TaskId) : Option (Bool × Option (Program Verdict)) :=
  (s.system.tasks[t]?).bind fun task =>
    if task.operation.identity = i then some (task.phase.held.isSome, task.phase.program?) else none

/-- The stage of a slot. -/
def InStage (s : Simulation) (i : Identity) : Stage → Prop
  | .idle => ∀ t rest, s.glance i t ≠ some (true, rest)
  | .busy t p => s.glance i t = some (true, some p) ∧ ∀ f ∈ s.inFlight, f.task ≠ t
  | .waiting t p startup => s.glance i t = some (true, some p) ∧
      (∃ f ∈ s.inFlight, f.task = t) ∧ ∀ f ∈ s.inFlight, f.task = t → f.startup = startup

structure Views (s : Simulation) (i : Identity) (σ : SlotView) : Prop where
  entries : σ.entries = s.system.registry.find i
  backend : σ.backend = s.backend.share i
  stage : s.InStage i σ.stage
  ended : ∀ t p, σ.ended t = some p ↔ s.glance i t = some (false, some p)

variable {s s' : Simulation} {i : Identity} {σ : SlotView} {t u : TaskId} {task : Task}

theorem glance_eq (ht : s.system.tasks[t]? = some task) : s.glance i t =
    if task.operation.identity = i then some (task.phase.held.isSome, task.phase.program?) else none := by
  simp [glance, ht]

theorem glance_self (ht : s.system.tasks[t]? = some task) (hi : task.operation.identity = i) :
    s.glance i t = some (task.phase.held.isSome, task.phase.program?) := by
  rw [glance_eq ht, if_pos hi]

theorem exists_of_glance {x : Bool × Option (Program Verdict)} (h : s.glance i t = some x) :
    ∃ task, s.system.tasks[t]? = some task ∧ task.operation.identity = i ∧
      x = (task.phase.held.isSome, task.phase.program?) := by
  obtain ⟨task, ht, h⟩ := Option.bind_eq_some_iff.mp h
  split at h
  · exact ⟨task, ht, ‹_›, (Option.some.inj h).symm⟩
  · cases h

theorem isQuiet_iff : s.IsQuiet i ↔ s.InStage i .idle := by
  constructor
  · intro h t rest hg
    obtain ⟨task, ht, hi, hx⟩ := exists_of_glance hg
    rw [h task (List.mem_of_getElem? ht) hi] at hx
    simp at hx
  · intro h task hm hi
    obtain ⟨t, ht⟩ := List.getElem?_of_mem hm
    cases hl : task.phase.held with
    | none => rfl
    | some lock =>
      have hg := glance_self ht hi
      rw [hl] at hg
      exact absurd hg (h t _)

/-- At most one task of a slot is in its critical section. -/
theorem Regular.glance_unique (regular : s.Regular) {rest rest' : Option (Program Verdict)}
    (h : s.glance i t = some (true, rest)) (h' : s.glance i u = some (true, rest')) : t = u := by
  obtain ⟨task, ht, hi, hx⟩ := exists_of_glance h
  obtain ⟨task', hu, hi', hx'⟩ := exists_of_glance h'
  exact regular.locked.held_unique ht hu (hi.trans hi'.symm) (Prod.mk.inj hx).1.symm (Prod.mk.inj hx').1.symm

/-- A simulation that differs in nothing that the slot sees. -/
theorem Views.keep (h : s.Views i σ) (entries : s'.system.registry.find i = s.system.registry.find i)
    (backend : s'.backend.share i = s.backend.share i)
    (glance : ∀ u x, x ≠ (false, none) → (s'.glance i u = some x ↔ s.glance i u = some x))
    (inFlight : ∀ f, (s.glance i f.task).isSome = true → (f ∈ s'.inFlight ↔ f ∈ s.inFlight)) :
    s'.Views i σ := by
  refine ⟨h.entries.trans entries.symm, h.backend.trans backend.symm, ?_, fun t p => ?_⟩
  · have stage := h.stage
    cases hσ : σ.stage with
    | idle =>
      rw [hσ] at stage
      exact fun t rest hg => stage t rest ((glance t _ (by simp)).mp hg)
    | busy t p =>
      rw [hσ] at stage
      obtain ⟨hg, free⟩ := stage
      refine ⟨(glance t _ (by simp)).mpr hg, fun f hf e => free f ?_ e⟩
      exact (inFlight f (by rw [e, hg]; rfl)).mp hf
    | waiting t p startup =>
      rw [hσ] at stage
      obtain ⟨hg, ⟨f, hf, e⟩, only⟩ := stage
      refine ⟨(glance t _ (by simp)).mpr hg, ⟨f, (inFlight f (by rw [e, hg]; rfl)).mpr hf, e⟩,
        fun g hg' e' => ?_⟩
      exact only g ((inFlight g (by rw [e', hg]; rfl)).mp hg') e'
  · rw [glance t _ (by simp)]
    exact h.ended t p

/-- A task in the critical section with no call in flight is the one that the slot is busy with. -/
theorem Views.busy (h : s.Views i σ) (regular : s.Regular) {p : Program Verdict}
    (hg : s.glance i t = some (true, some p)) (free : ∀ f ∈ s.inFlight, f.task ≠ t) :
    σ.stage = .busy t p := by
  have stage := h.stage
  cases hσ : σ.stage with
  | idle =>
    rw [hσ] at stage
    exact absurd hg (stage t _)
  | busy u q =>
    rw [hσ] at stage
    obtain rfl := regular.glance_unique hg stage.1
    cases hg.symm.trans stage.1
    rfl
  | waiting u q startup =>
    rw [hσ] at stage
    obtain ⟨hu, ⟨f, hf, e⟩, _⟩ := stage
    exact absurd (e.trans (regular.glance_unique hu hg)) (free f hf)

/-- A task that holds its lock and is through with its program is what its slot is busy with. -/
theorem Views.busy_of_over (h : s.Views i σ) (regular : s.Regular) (ht : s.system.tasks[t]? = some task)
    (hi : task.operation.identity = i) (held : task.phase.held.isSome = true) {p : Program Verdict}
    (program : task.phase.program? = some p) (hover : p.isOver = true) : σ.stage = .busy t p := by
  have hg := glance_self ht hi
  rw [held, program] at hg
  refine h.busy regular hg ?_
  rintro f hf rfl
  obtain ⟨op, lock, c, next, hf', _⟩ := regular.awaited f hf
  obtain rfl := Option.some.inj (ht.symm.trans hf')
  cases program
  cases hover

theorem Views.waiting (h : s.Views i σ) (regular : s.Regular) {p : Program Verdict} {f : InFlight}
    (hg : s.glance i f.task = some (true, some p)) (hf : f ∈ s.inFlight) :
    σ.stage = .waiting f.task p f.startup := by
  have stage := h.stage
  cases hσ : σ.stage with
  | idle =>
    rw [hσ] at stage
    exact absurd hg (stage _ _)
  | busy u q =>
    rw [hσ] at stage
    exact absurd (regular.glance_unique hg stage.1) (stage.2 f hf)
  | waiting u q startup =>
    rw [hσ] at stage
    obtain ⟨hu, _, only⟩ := stage
    obtain rfl := regular.glance_unique hg hu
    cases hg.symm.trans hu
    rw [only f hf rfl]

/-- A task that has yet to go inside is none that its slot sees. -/
theorem Views.unseen (h : s.Views i σ) (ht : s.system.tasks[t]? = some task) (yet : task.phase.program? = none) :
    σ.ended t = none ∧ ∀ p, σ.stage ≠ .busy t p ∧ ∀ startup, σ.stage ≠ .waiting t p startup := by
  have hg : ∀ b p, s.glance i t ≠ some (b, some p) := by
    intro b p hg
    obtain ⟨task', ht', _, hx⟩ := exists_of_glance hg
    obtain rfl := Option.some.inj (ht.symm.trans ht')
    rw [yet] at hx
    cases hx
  refine ⟨?_, fun p => ⟨fun hs => ?_, fun startup hs => ?_⟩⟩
  · cases he : σ.ended t with
    | none => rfl
    | some p => exact absurd ((h.ended t p).mp he) (hg false p)
  · have stage := h.stage
    rw [hs] at stage
    exact hg true p stage.1
  · have stage := h.stage
    rw [hs] at stage
    exact hg true p stage.1

theorem Views.idle (h : s.Views i σ) (quiet : s.InStage i .idle) : σ.stage = .idle := by
  have stage := h.stage
  cases hσ : σ.stage with
  | idle => rfl
  | busy u q =>
    rw [hσ] at stage
    exact absurd stage.1 (quiet _ _)
  | waiting u q startup =>
    rw [hσ] at stage
    exact absurd stage.1 (quiet _ _)

theorem glance_congr (same : s'.system.tasks[u]? = s.system.tasks[u]?) : s'.glance i u = s.glance i u := by
  unfold glance
  rw [same]

variable {phase : Phase}

theorem glance_of_ne (tasks : s'.system.tasks = (s.system.setPhase t phase).tasks) (hu : u ≠ t) :
    s'.glance i u = s.glance i u :=
  glance_congr (by rw [tasks]; exact System.getElem?_setPhase_of_ne hu phase)

theorem glance_set (ht : s.system.tasks[t]? = some task)
    (tasks : s'.system.tasks = (s.system.setPhase t phase).tasks) (hi : task.operation.identity = i) :
    s'.glance i t = some (phase.held.isSome, phase.program?) := by
  have ht' : s'.system.tasks[t]? = some { task with phase := phase } := by
    rw [tasks]
    exact System.getElem?_setPhase_self ht phase
  exact glance_self ht' hi

theorem glance_next {op : Operation} {lock : LockId} {p q : Program Verdict}
    (ht : s.system.tasks[t]? = some ⟨op, .inside lock p⟩)
    (hs : s'.system = s.system.setPhase t (.inside lock q)) :
    s'.glance op.identity t = some (true, some q) :=
  glance_set ht (congrArg System.tasks hs) rfl

/-- A slot does not see what the tasks of other slots are at. -/
theorem glance_of_other (ht : s.system.tasks[t]? = some task)
    (tasks : s'.system.tasks = (s.system.setPhase t phase).tasks) (hi : task.operation.identity ≠ i)
    (u : TaskId) : s'.glance i u = s.glance i u := by
  by_cases hu : u = t
  · subst hu
    have ht' : s'.system.tasks[u]? = some { task with phase := phase } := by
      rw [tasks]
      exact System.getElem?_setPhase_self ht phase
    rw [glance_eq ht, glance_eq ht', if_neg hi, if_neg hi]
  · exact glance_of_ne tasks hu

theorem Views.keep_other (h : s.Views i σ) (ht : s.system.tasks[t]? = some task)
    (hi : task.operation.identity ≠ i)
    (entries : s'.system.registry.find i = s.system.registry.find i)
    (backend : s'.backend.share i = s.backend.share i)
    (tasks : s'.system.tasks = (s.system.setPhase t phase).tasks)
    (inFlight : ∀ f, f.task ≠ t → (f ∈ s'.inFlight ↔ f ∈ s.inFlight)) : s'.Views i σ := by
  refine h.keep entries backend (fun u x _ => by rw [glance_of_other ht tasks hi u]) fun f hf => inFlight f ?_
  rintro rfl
  rw [glance_eq ht, if_neg hi] at hf
  cases hf

/-- The operations that have left are the same after a step of a task that has not left. -/
theorem Views.ended_of_phase (h : s.Views i σ)
    (tasks : s'.system.tasks = (s.system.setPhase t phase).tasks)
    (before : ∀ p, s.glance i t ≠ some (false, some p))
    (after : ∀ p, s'.glance i t ≠ some (false, some p)) (u : TaskId) (p : Program Verdict) :
    σ.ended u = some p ↔ s'.glance i u = some (false, some p) := by
  by_cases hu : u = t
  · subst hu
    rw [h.ended]
    exact iff_of_false (before p) (after p)
  · rw [glance_of_ne tasks hu]
    exact h.ended u p

variable {may : SlotView → SlotView.Occurrence → Prop} {home : Uuid → Identity}

/-- What comes to a slot from outside with an incident. -/
inductive Occurs (s : Simulation) (i : Identity) : Incident → SlotView.Occurrence → Prop
  | disturbed (d : Disturbance) : Occurs s i (.disturb d) (.disturbed d)
  | entered {t : TaskId} {task : Task} (ht : s.system.tasks[t]? = some task) (hi : task.operation.identity = i) :
      Occurs s i (.step t) (.entered t task.operation)
  | staged {t : TaskId} {uri : String} {kind : PredictorKind} {root : String}
      (hcall : s.system.call? t = some (.stage uri kind root)) :
      Occurs s i (.step t) (.staged t uri kind root (s.locator.locate uri kind root s.world).1)

/-- What comes to a slot with an incident may come to it. -/
def Admits (may : SlotView → SlotView.Occurrence → Prop) (s : Simulation) (i : Identity) (σ : SlotView)
    (incident : Incident) : Prop :=
  ∀ o, s.Occurs i incident o → may σ o

/-- A task that leaves its critical section leaves the slot idle. -/
theorem Views.leave (h : s.Views i σ) (regular : s.Regular) (ht : s.system.tasks[t]? = some task)
    (hi : task.operation.identity = i) (free : ∀ f ∈ s.inFlight, f.task ≠ t) {p : Program Verdict}
    (held : task.phase.held.isSome = true) (hp : task.phase.program? = some p)
    (tasks : s'.system.tasks = (s.system.setPhase t phase).tasks)
    (unheld : phase.held = none) (hp' : phase.program? = some p)
    (entries : s'.system.registry.find i = s.system.registry.find i) (backend : s'.backend = s.backend) :
    ∃ σ', SlotView.Step may s.system.settings i σ σ' ∧ s'.Views i σ' := by
  have hg := glance_self ht hi
  rw [held, hp] at hg
  have hg' := glance_set ht tasks hi
  rw [unheld, hp'] at hg'
  have hover := Phase.isOver_of_not_held hp' unheld
  refine ⟨_, .left (h.busy regular hg free) hover, h.entries.trans entries.symm, ?_, ?_, fun u q => ?_⟩
  · rw [backend]
    exact h.backend
  · intro u rest hu
    by_cases e : u = t
    · subst e
      cases hg'.symm.trans hu
    · rw [glance_of_ne tasks e] at hu
      exact e (regular.glance_unique hu hg)
  · by_cases e : u = t
    · subst e
      rw [hg']
      simp
    · rw [glance_of_ne tasks e]
      simpa [Function.update_of_ne e] using h.ended u q

/-- A task that enters finds its slot idle, and the slot is busy with its program from then on. -/
theorem Views.enter {lock : LockId} {program : Program Verdict} (h : s.Views i σ) (regular : s.Regular)
    (ht : s.system.tasks[t]? = some task) (hi : task.operation.identity = i) (hp : task.phase = .waiting lock)
    (lockFree : s.system.isFree lock = true)
    (tasks : s'.system.tasks = (s.system.setPhase t (.inside lock program)).tasks)
    (entries : s'.system.registry.find i = s.system.registry.find i) (backend : s'.backend = s.backend)
    (free : ∀ f ∈ s'.inFlight, f.task ≠ t) :
    σ.stage = .idle ∧ σ.ended t = none ∧ s'.Views i { σ with stage := .busy t program } := by
  have hg := glance_self ht hi
  have hg' := glance_set ht tasks hi
  have quiet : s.InStage i .idle := by
    intro u rest hu
    obtain ⟨task', hu', hi', hx⟩ := exists_of_glance hu
    rw [regular.locked.held_eq_none ht hp lockFree hu' (hi'.trans hi.symm)] at hx
    cases hx
  rw [hp] at hg
  refine ⟨h.idle quiet, (h.unseen ht (by rw [hp]; rfl)).1, h.entries.trans entries.symm, ?_, ⟨hg', free⟩, ?_⟩
  · rw [backend]
    exact h.backend
  · exact h.ended_of_phase tasks (fun p hp => by rw [hg] at hp; cases hp) (fun p hp => by rw [hg'] at hp; cases hp)

theorem Views.turn {o : Option System.Observation} (h : s.Views i σ) (regular : s.Regular)
    (athome : s.AtHome home) (admits : Admits may s i σ (.step t)) (ht : s.system.tasks[t]? = some task)
    (turn : s.system.Turn t task o s'.system) (free : ∀ f ∈ s.inFlight, f.task ≠ t)
    (plain : ∀ a, o = some (.access a) → a.isLocal = true)
    (staged : ∀ uri kind root reply, o = some (.access (.call (.stage uri kind root) reply)) →
      reply = (s.locator.locate uri kind root s.world).1) (hi : task.operation.identity = i)
    (backend : s'.backend = s.backend) (inFlight : s'.inFlight = s.inFlight) :
    ∃ σ', Relation.ReflGen (SlotView.Step may s.system.settings i) σ σ' ∧ s'.Views i σ' := by
  obtain ⟨phase, tasks, _, effect⟩ := turn.effect
  have hg := glance_self ht hi
  have hg' := glance_set ht tasks hi
  have free' : ∀ f ∈ s'.inFlight, f.task ≠ t := by rw [inFlight]; exact free
  have hb : σ.backend = s'.backend.share i := by rw [backend]; exact h.backend
  cases effect with
  | silent program held same =>
    have entries : s'.system.registry.find i = s.system.registry.find i := by rw [same]
    by_cases hl : phase.held.isSome = task.phase.held.isSome
    · refine ⟨σ, .refl, h.keep entries (by rw [backend]) (fun u x _ => ?_) fun f _ => by rw [inFlight]⟩
      by_cases hu : u = t
      · subst hu
        rw [hg, hg', hl, program]
      · rw [glance_of_ne tasks hu]
    · have unheld : phase.held = none := by
        cases hp : phase.held with
        | none => rfl
        | some lock => simp [hp, held lock hp] at hl
      obtain ⟨lock, hlock⟩ : ∃ lock, task.phase.held = some lock := by
        cases ht : task.phase.held with
        | none => simp [unheld, ht] at hl
        | some lock => exact ⟨lock, rfl⟩
      obtain ⟨p, hp⟩ := Phase.exists_program hlock
      obtain ⟨σ', step, views⟩ := h.leave regular ht hi free (by rw [hlock]; rfl) hp
        tasks unheld (program.trans hp) entries backend
      exact ⟨σ', .single step, views⟩
  | @entered lock hp lockFree hp' same =>
    subst hp'
    obtain ⟨idle, new, views⟩ := h.enter regular ht hi hp lockFree tasks (by rw [same]) backend free'
    exact ⟨_, .single (.entered idle new hi (admits _ (.entered ht hi))), views⟩
  | @accessed lock p q a hp step hq hl inside =>
    have hheld : task.phase.held.isSome = true := by rw [hp]; rfl
    have hprogram : task.phase.program? = some p := by rw [hp]; rfl
    rw [hheld, hprogram] at hg
    rw [hl, hq] at hg'
    have busy := h.busy regular hg free
    have ended := h.ended_of_phase tasks (fun p hp => by rw [hg] at hp; cases hp)
      (fun p hp => by rw [hg'] at hp; cases hp)
    have about := athome.programs ht hp
    have local' := plain a rfl
    generalize hr : s'.system.registry = r at step
    cases step with
    | read =>
      obtain rfl : _ = i := about.1.trans hi
      refine ⟨_, .single (.read busy), ?_, hb, ?_, ended⟩
      · exact h.entries.trans (by rw [hr])
      · rw [h.entries]
        exact ⟨hg', free'⟩
    | write =>
      have own := about.1.identity_eq.trans hi
      refine ⟨_, .single (.write busy own), ?_, hb, ⟨hg', free'⟩, ended⟩
      rw [hr, Registry.find_apply, if_pos own.symm, h.entries]
    | @call c _ _ reply =>
      cases c with
      | stage uri kind root =>
        obtain rfl := staged uri kind root reply rfl
        have hcall : s.system.call? t = some (.stage uri kind root) := by
          obtain ⟨op, phase⟩ := task
          cases hp
          exact call?_of_task ht
        exact ⟨_, .single (.staged busy _ (admits _ (.staged hcall))), h.entries.trans (by rw [hr]), hb,
          ⟨hg', free'⟩, ended⟩
      | ask | askWithin => cases local'
    | breakOff text => cases local'

theorem share_disturb (b : SimulatedBackend) (i : Identity) (d : Disturbance) :
    (b.disturb d).share i = (b.share i).disturb d := by
  cases d with
  | crash uuid => exact share_setState .stopped
  | _ => rfl

theorem glance_submit (op : Operation) (u : TaskId) {x : Bool × Option (Program Verdict)}
    (hx : x ≠ (false, none)) :
    ({ s with system := s.system.submit op } : Simulation).glance i u = some x ↔ s.glance i u = some x := by
  by_cases hu : u = s.system.tasks.length
  · have old : s.glance i u = none := by
      unfold glance
      rw [List.getElem?_eq_none (Nat.le_of_eq hu.symm)]
      rfl
    have new : ({ s with system := s.system.submit op } : Simulation).glance i u ≠ some x := by
      intro h
      obtain ⟨task, ht, _, rfl⟩ := exists_of_glance h
      rw [System.getElem?_submit, if_pos hu] at ht
      cases ht
      exact hx rfl
    rw [old]
    exact iff_of_false new (by simp)
  · have same : (s.system.submit op).tasks[u]? = s.system.tasks[u]? := by
      rw [System.getElem?_submit, if_neg hu]
    exact iff_of_eq (congrArg (· = some x) (glance_congr same))

/-- A slot sees a step of its own, or nothing at all. -/
theorem Views.move {incident : Incident} (h : s.Views i σ) (regular : s.Regular) (athome : s.AtHome home)
    (born : BornAtHome home s incident) (admits : Admits may s i σ incident) (move : Move s incident s') :
    ∃ σ', Relation.ReflGen (SlotView.Step may s.system.settings i) σ σ' ∧ s'.Views i σ' := by
  cases move with
  | submitted op =>
    refine ⟨σ, .refl, h.keep rfl rfl (fun u x hx => glance_submit op u hx) fun f _ => Iff.rfl⟩
  | refused op => exact ⟨σ, .refl, h⟩
  | @turned t task o system world ht turn free plain staged =>
    by_cases hi : task.operation.identity = i
    · exact h.turn regular athome admits ht turn free plain staged hi rfl rfl
    · obtain ⟨phase, tasks, _⟩ := turn.effect
      have entries := turn.find_eq (athome.programs ht) (Ne.symm hi)
      exact ⟨σ, .refl, h.keep_other ht hi entries rfl tasks fun f _ => Iff.rfl⟩
  | @answered t op lock c next bc a reply ht free hc ha hr =>
    obtain ⟨hb, hm⟩ := athome.of_call born ht hc
    by_cases hi : op.identity = i
    · subst hi
      have hg := glance_self ht rfl
      obtain ⟨first, rest⟩ := athome.backend.share_take hb hm
      rw [← h.backend] at first rest
      refine ⟨_, .single (.answered (h.busy regular hg free) hc hb.identity_eq (first.trans ha) hr),
        h.entries, rest, ⟨glance_next ht rfl, free⟩, h.ended_of_phase rfl (fun p hp => ?_) fun p hp => ?_⟩
      · cases hg.symm.trans hp
      · cases (glance_next ht rfl).symm.trans hp
    · refine ⟨σ, .refl, h.keep_other ht hi rfl ?_ rfl fun f _ => Iff.rfl⟩
      exact (s.backend.taken _ _).share_of_ne athome.backend hb hm (Ne.symm hi)
  | @suspended t op lock c next bc f ht free hc hf hst cut ends served late =>
    obtain ⟨hb, hm⟩ := athome.of_call born ht hc
    by_cases hi : op.identity = i
    · subst hi
      have hg := glance_self ht rfl
      obtain ⟨first, rest⟩ := athome.backend.share_take hb hm
      rw [← h.backend] at first rest
      have unused : σ.backend.Unused (s.birth s.births) bc := by
        intro hdraws d hd
        rw [h.backend] at hd
        exact (born t c bc rfl (call?_of_task ht) hc).2 hdraws d (mem_share.mp hd).1
      rw [← show (σ.backend.take (s.birth s.births) bc).1 = s.response bc from first] at hst cut
      refine ⟨_, .single (.suspended (h.busy regular hg free) hc hb.identity_eq unused hst cut), h.entries, rest,
        ⟨hg, ⟨f, by simp, hf⟩, fun g hg' e => ?_⟩, h.ended⟩
      rcases List.mem_append.mp hg' with hg' | hg'
      · exact absurd e (free g hg')
      · rw [List.mem_singleton.mp hg']
    · refine ⟨σ, .refl, h.keep rfl ?_ (fun _ _ _ => Iff.rfl) fun g hg => ?_⟩
      · exact (s.backend.taken _ _).share_of_ne athome.backend hb hm (Ne.symm hi)
      · have hne : g ≠ f := by
          rintro rfl
          rw [hf, glance_eq ht, if_neg hi] at hg
          cases hg
        simp [hne]
  | @finished moment f op lock c next st reply hf ht hst hr =>
    have hs := athome.startups f hf st hst ht
    by_cases hi : op.identity = i
    · subst hi
      have hg := glance_self ht rfl
      have waiting := h.waiting regular hg hf
      rw [hst] at waiting
      have finish := athome.backend.share_finish hs
      rw [← h.backend] at finish
      refine ⟨_, .single (.finished waiting (by rw [finish]; exact hr)), h.entries, ?_,
        ⟨glance_next ht rfl, ?_⟩, h.ended_of_phase rfl (fun p hp => ?_) fun p hp => ?_⟩
      · rw [finish]
        exact share_share
      · simp
      · cases hg.symm.trans hp
      · cases (glance_next ht rfl).symm.trans hp
    · refine ⟨σ, .refl, h.keep_other ht hi rfl ?_ rfl fun g hg => ?_⟩
      · exact athome.backend.share_finish_of_ne hs (Ne.symm hi)
      · simp [hg]
  | @late moment f op lock c next reply hf ht hst hr =>
    by_cases hi : op.identity = i
    · subst hi
      have hg := glance_self ht rfl
      have waiting := h.waiting regular hg hf
      rw [hst] at waiting
      refine ⟨_, .single (.late waiting hr), h.entries, h.backend, ⟨glance_next ht rfl, ?_⟩,
        h.ended_of_phase rfl (fun p hp => ?_) fun p hp => ?_⟩
      · simp
      · cases hg.symm.trans hp
      · cases (glance_next ht rfl).symm.trans hp
    · refine ⟨σ, .refl, h.keep_other ht hi rfl rfl rfl fun g hg => ?_⟩
      simp [hg]
  | disturbed d =>
    refine ⟨_, .single (.disturbed (admits _ (.disturbed d))), h.entries, ?_, h.stage, h.ended⟩
    rw [h.backend]
    exact (share_disturb s.backend i d).symm
  | stored world => exact ⟨σ, .refl, h.entries, h.backend, h.stage, h.ended⟩

/-- A run of a simulation, seen from a slot, is a run of the view of the slot. -/
theorem Views.reaches {may' : Simulation → Incident → Prop} (h : s.Views i σ) (regular : s.Regular)
    (athome : s.AtHome home)
    (run : Reaches (fun s incident => may' s incident ∧ BornAtHome home s incident) s s')
    (admits : ∀ {s₁ σ₁ incident}, Reaches may' s s₁ → s₁.Views i σ₁ → may' s₁ incident →
      Admits may s₁ i σ₁ incident) :
    s'.system.settings = s.system.settings ∧
      ∃ σ', Relation.ReflTransGen (SlotView.Step may s.system.settings i) σ σ' ∧ s'.Views i σ' := by
  induction run with
  | refl => exact ⟨rfl, σ, .refl, h⟩
  | @snoc s₁ s₂ incident prior allowed last ih =>
    obtain ⟨settings, σ₁, steps, views⟩ := ih
    have regular₁ := regular.reaches prior
    have move := regular₁.move_of_after last
    obtain ⟨σ₂, step, views'⟩ := views.move regular₁ (athome.reaches regular prior) allowed.2
      (admits (prior.mono fun _ _ h => h.1) views allowed.1) move
    rw [settings] at step
    exact ⟨move.settings_eq.trans settings, σ₂, steps.trans step.to_reflTransGen, views'⟩

end ServingLifecycle.Simulation
