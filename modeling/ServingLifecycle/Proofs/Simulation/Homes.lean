import Mathlib.Logic.Function.Basic
import ServingLifecycle.Proofs.Backend.Share
import ServingLifecycle.Proofs.Operation.Scope
import ServingLifecycle.Proofs.Simulation.Regular
/-!
# Homes

As long as no two services are born with one id, every id can be given the slot for which it is made as its
home. Then every service that the registry, the backend or a task has to do with is at home in its slot.
-/
namespace ServingLifecycle.Simulation
open SimulatedBackend

/-- No two of the services so far have one id. -/
def DistinctBirths (s : Simulation) : Prop :=
  ∀ m n, m < s.births → n < s.births → (s.birth m).uuid = (s.birth n).uuid → m = n

/-- A service that comes into being does so at home, with an id of its own. -/
def BornAtHome (home : Uuid → Identity) (s : Simulation) (incident : Incident) : Prop :=
  ∀ t c bc, incident = .step t → s.system.call? t = some c → c.backendCall? = some bc →
    Makes home bc.identity (s.birth s.births) bc ∧ s.backend.Unused (s.birth s.births) bc

variable {s s₁ s₂ : Simulation} {incident : Incident} {may : Simulation → Incident → Prop}
  {home home' : Uuid → Identity}

theorem Move.birth_eq {s s' : Simulation} (move : Move s incident s') : s'.birth = s.birth := by
  cases move <;> rfl

theorem Move.settings_eq {s s' : Simulation} (move : Move s incident s') :
    s'.system.settings = s.system.settings := by
  cases move with
  | turned ht turn free plain =>
    obtain ⟨phase, _, settings, _⟩ := turn.effect
    exact settings
  | _ => rfl

theorem Move.births_le {s s' : Simulation} (move : Move s incident s') : s.births ≤ s'.births := by
  cases move with
  | answered | suspended => exact Nat.le_add_right _ _
  | _ => exact Nat.le_refl _

theorem call?_eq {system : System} {t : TaskId} {c : Call} (h : system.call? t = some c) :
    ∃ op lock next, system.tasks[t]? = some ⟨op, .inside lock (.call c next)⟩ := by
  unfold System.call? at h
  split at h
  · rename_i op lock c' next ht
    cases h
    exact ⟨op, lock, next, ht⟩
  · cases h

theorem backendCall?_of_step {c : Call} {next : c.Reply → Program Verdict} {r r' : Registry} {a : Access}
    {q : Program Verdict} (step : Program.Step (.call c next) r a q r') (h : a.isLocal = true) :
    c.backendCall? = none := by
  cases step with
  | call reply => cases c <;> first | rfl | cases h
  | breakOff text => cases h

/-- A turn without the backend is not that of a task at a call to it. -/
theorem backendCall?_of_turn {system system' : System} {t : TaskId} {op : Operation} {lock : LockId}
    {c : Call} {next : c.Reply → Program Verdict} {o : Option System.Observation}
    (turn : system.Turn t ⟨op, .inside lock (.call c next)⟩ o system')
    (plain : ∀ a, o = some (.access a) → a.isLocal = true) : c.backendCall? = none := by
  cases turn with
  | access h step | breakOff h step =>
    cases h
    exact backendCall?_of_step step (plain _ rfl)
  | arrive h | enter h | count h | abort h | release h | giveUp h | leave h | unlock h | crash h => cases h

/-- The task that takes a step with a call to the backend takes the births of that call. -/
theorem Move.births_of_call {s s' : Simulation} {t : TaskId} {c : Call} {bc : BackendCall}
    (move : Move s (.step t) s') (hcall : s.system.call? t = some c) (hc : c.backendCall? = some bc) :
    s'.births = s.births + bc.draws := by
  obtain ⟨op, lock, next, ht⟩ := call?_eq hcall
  cases move with
  | turned ht' turn free plain =>
    rw [ht] at ht'
    cases ht'
    rw [backendCall?_of_turn turn plain] at hc
    cases hc
  | answered ht' free hc' =>
    rw [ht] at ht'
    cases ht'
    rw [hc] at hc'
    cases hc'
    rfl
  | suspended ht' free hc' =>
    rw [ht] at ht'
    cases ht'
    rw [hc] at hc'
    cases hc'
    rfl

theorem Reaches.mono {may' : Simulation → Incident → Prop} (run : Reaches may s₁ s₂)
    (h : ∀ s incident, may s incident → may' s incident) : Reaches may' s₁ s₂ := by
  induction run with
  | refl => exact .refl
  | snoc prior allowed last ih => exact .snoc ih (h _ _ allowed) last

theorem Reaches.trans (first : Reaches may s s₁) (second : Reaches may s₁ s₂) : Reaches may s s₂ := by
  induction second with
  | refl => exact first
  | snoc prior allowed last ih => exact .snoc ih allowed last

/-- A run makes use of the homes of the ids that are drawn in it alone. -/
theorem Reaches.bornAtHome_congr (regular : s₁.Regular)
    (run : Reaches (fun s incident => may s incident ∧ BornAtHome home s incident) s₁ s₂)
    (same : ∀ n < s₂.births, home' (s₂.birth n).uuid = home (s₂.birth n).uuid) :
    Reaches (fun s incident => may s incident ∧ BornAtHome home' s incident) s₁ s₂ := by
  induction run with
  | refl => exact .refl
  | @snoc s s' incident prior allowed last ih =>
    have move := (regular.reaches prior).move_of_after last
    refine .snoc (ih fun n hn => ?_) ⟨allowed.1, fun t c bc hi hcall hc => ?_⟩ last
    · rw [← move.birth_eq]
      exact same n (Nat.lt_of_lt_of_le hn move.births_le)
    · obtain ⟨born, unused⟩ := allowed.2 t c bc hi hcall hc
      refine ⟨?_, unused⟩
      subst hi
      cases bc with
      | deploy layout i runId replace timeout =>
        have hb : s'.births = s.births + 1 := move.births_of_call hcall hc
        have hs := same s.births (by omega)
        rw [move.birth_eq] at hs
        exact hs.trans born
      | _ => trivial

theorem Reaches.births (regular : s₁.Regular) (run : Reaches may s₁ s₂) :
    s₁.births ≤ s₂.births ∧ s₂.birth = s₁.birth := by
  induction run with
  | refl => exact ⟨Nat.le_refl _, rfl⟩
  | snoc prior allowed last ih =>
    have move := (regular.reaches prior).move_of_after last
    exact ⟨Nat.le_trans ih.1 move.births_le, move.birth_eq.trans ih.2⟩

theorem Move.exists_phase {s s' : Simulation} {t : TaskId} {task : Task} (move : Move s incident s')
    (ht : s.system.tasks[t]? = some task) : ∃ phase, s'.system.tasks[t]? = some ⟨task.operation, phase⟩ := by
  have set : ∀ {system : System} {u : TaskId} {phase : Phase}, system.tasks = (s.system.setPhase u phase).tasks →
      ∃ phase, system.tasks[t]? = some ⟨task.operation, phase⟩ := by
    intro system u phase tasks
    by_cases hu : t = u
    · subst hu
      exact ⟨phase, tasks ▸ System.getElem?_setPhase_self ht phase⟩
    · exact ⟨task.phase, tasks ▸ (System.getElem?_setPhase_of_ne hu phase).trans ht⟩
  cases move with
  | submitted op => exact ⟨task.phase, System.getElem?_submit_of_some op ht⟩
  | turned ht' turn free plain staged =>
    obtain ⟨phase, tasks, _⟩ := turn.effect
    exact set tasks
  | answered | finished | late => exact set rfl
  | refused | suspended | disturbed | stored => exact ⟨task.phase, ht⟩

/-- A task has the same operation all along. -/
theorem Reaches.exists_phase {t : TaskId} {task : Task} (regular : s₁.Regular) (run : Reaches may s₁ s₂)
    (ht : s₁.system.tasks[t]? = some task) : ∃ phase, s₂.system.tasks[t]? = some ⟨task.operation, phase⟩ := by
  induction run with
  | refl => exact ⟨task.phase, ht⟩
  | snoc prior allowed last ih =>
    obtain ⟨phase, ht⟩ := ih
    obtain ⟨phase', ht'⟩ := ((regular.reaches prior).move_of_after last).exists_phase ht
    exact ⟨phase', ht'⟩

theorem Move.locator_eq {s s' : Simulation} (move : Move s incident s') : s'.locator = s.locator := by
  cases move <;> rfl

theorem Reaches.locator_eq (regular : s₁.Regular) (run : Reaches may s₁ s₂) : s₂.locator = s₁.locator := by
  induction run with
  | refl => rfl
  | snoc prior allowed last ih => exact ((regular.reaches prior).move_of_after last).locator_eq.trans ih

theorem Move.distinctBirths {s s' : Simulation} (move : Move s incident s') (h : s'.DistinctBirths) :
    s.DistinctBirths := by
  intro m n hm hn e
  rw [← move.birth_eq] at e
  exact h m n (Nat.lt_of_lt_of_le hm move.births_le) (Nat.lt_of_lt_of_le hn move.births_le) e

theorem Reaches.distinctBirths (regular : s₁.Regular) (run : Reaches may s₁ s₂)
    (distinct : s₂.DistinctBirths) : s₁.DistinctBirths := by
  obtain ⟨hle, hbirth⟩ := run.births regular
  intro m n hm hn e
  rw [← hbirth] at e
  exact distinct m n (Nat.lt_of_lt_of_le hm hle) (Nat.lt_of_lt_of_le hn hle) e

/-- If no id is drawn twice, all services of a run come into being at home, for some homes that agree with
what was chosen before. -/
theorem Reaches.exists_home (regular : s₁.Regular) (run : Reaches may s₁ s₂)
    (distinct : s₂.DistinctBirths) (home : Uuid → Identity) :
    ∃ home' : Uuid → Identity, (∀ n < s₁.births, home' (s₁.birth n).uuid = home (s₁.birth n).uuid) ∧
      Reaches (fun s incident => may s incident ∧ BornAtHome home' s incident) s₁ s₂ := by
  induction run with
  | refl => exact ⟨home, fun _ _ => rfl, .refl⟩
  | @snoc s s' incident prior allowed last ih =>
    have move := (regular.reaches prior).move_of_after last
    obtain ⟨home₁, same, run⟩ := ih (move.distinctBirths distinct)
    by_cases hd : ∃ t c layout i runId replace timeout, incident = .step t ∧ s.system.call? t = some c ∧
        c.backendCall? = some (.deploy layout i runId replace timeout)
    · obtain ⟨t, c, layout, i, runId, replace, timeout, rfl, hcall, hc⟩ := hd
      -- the new id differs from all earlier ones, so its home is free to choose
      have hb : s'.births = s.births + 1 := move.births_of_call hcall hc
      have hne : ∀ n < s.births, (s.birth n).uuid ≠ (s.birth s.births).uuid := by
        intro n hn e
        rw [← move.birth_eq] at e
        have := distinct n s.births (by omega) (by omega) e
        omega
      obtain ⟨hle, hbirth⟩ := prior.births regular
      refine ⟨Function.update home₁ (s.birth s.births).uuid i, fun n hn => ?_, .snoc
        (run.bornAtHome_congr regular fun n hn => ?_) ⟨allowed, ?_⟩ last⟩
      · rw [← same n hn, ← hbirth]
        exact Function.update_of_ne (hne n (Nat.lt_of_lt_of_le hn hle)) _ _
      · exact Function.update_of_ne (hne n hn) _ _
      · intro t' c' bc hi hcall' hc'
        cases hi
        rw [hcall] at hcall'
        cases hcall'
        rw [hc] at hc'
        cases hc'
        refine ⟨Function.update_self _ _ _, fun _ d hm => ?_⟩
        obtain ⟨n, hn, e⟩ := (regular.reaches prior).drawn d hm
        exact e ▸ hne n hn
    · refine ⟨home₁, same, .snoc run ⟨allowed, fun t c bc hi hcall hc => ?_⟩ last⟩
      cases bc with
      | deploy layout i runId replace timeout => exact absurd ⟨t, c, _, _, _, _, _, hi, hcall, hc⟩ hd
      | _ => exact ⟨trivial, fun hdraws => by cases hdraws⟩

/-- Two runs one after the other have homes in common. -/
theorem Reaches.exists_common_home {s : Simulation} {may' : Simulation → Incident → Prop} (regular : s.Regular)
    (first : Reaches may s s₁) (second : Reaches may' s₁ s₂) (distinct : s₂.DistinctBirths) (home : Uuid → Identity) :
    ∃ home' : Uuid → Identity, Reaches (fun s incident => may s incident ∧ BornAtHome home' s incident) s s₁ ∧
      Reaches (fun s incident => may' s incident ∧ BornAtHome home' s incident) s₁ s₂ := by
  have regular₁ := regular.reaches first
  obtain ⟨home₁, _, first⟩ := first.exists_home regular (second.distinctBirths regular₁ distinct) home
  obtain ⟨home₂, same, second⟩ := second.exists_home regular₁ distinct home₁
  -- the homes of the whole run are those of its first part, as far as that goes
  exact ⟨home₂, first.bornAtHome_congr regular same, second⟩

/-- All services that a simulation has to do with are at home. -/
structure AtHome (home : Uuid → Identity) (s : Simulation) : Prop where
  backend : s.backend.Housed home
  registry : ∀ i, ∀ d ∈ s.system.registry.find i, d.BelongsTo home i
  programs : ∀ {t : TaskId} {task : Task} {lock : LockId} {p : Program Verdict},
    s.system.tasks[t]? = some task → task.phase = .inside lock p →
    p.About home task.operation.identity
  startups : ∀ f ∈ s.inFlight, ∀ st ∈ f.startup, ∀ {task : Task},
    s.system.tasks[f.task]? = some task → st.BelongsTo home task.operation.identity

theorem atHome_fresh (settings : Settings) (metrics : Option Metrics) (locator : Locator StorageWorld)
    (world : StorageWorld) (birth : Nat → Birth) :
    (fresh settings metrics locator world birth).AtHome home where
  backend s hs := by cases hs
  registry i d hd := by cases hd
  programs ht := by simp [fresh, System.initial] at ht
  startups f hf := by cases hf

theorem belongsTo_find_apply {r : Registry} {change : Registry.Change} {i : Identity}
    (h : ∀ j, ∀ d ∈ r.find j, d.BelongsTo home j) (hc : change.BelongsTo home i) :
    ∀ j, ∀ d ∈ (r.apply change).find j, d.BelongsTo home j := by
  intro j d hd
  rw [Registry.find_apply] at hd
  split at hd
  · rename_i hj
    rw [hc.identity_eq] at hj
    subst hj
    cases change with
    | record new =>
      rcases Registry.mem_of_mem_update (Registry.mem_on_record.mp hd) with rfl | hd
      · exact hc
      · exact h j d hd
    | supersede new =>
      rw [List.mem_singleton.mp hd]
      exact hc
    | forget k => cases hd
  · exact h j d hd

variable {s' : Simulation} {t : TaskId} {op : Operation} {lock : LockId} {c : Call}
  {next : c.Reply → Program Verdict} {bc : BackendCall}

theorem call?_of_task (ht : s.system.tasks[t]? = some ⟨op, .inside lock (.call c next)⟩) :
    s.system.call? t = some c := by
  simp [System.call?, ht]

theorem backendCall_belongsTo {i : Identity} (h : c.BelongsTo home i) (hc : c.backendCall? = some bc) :
    bc.BelongsTo home i := by
  cases c with
  | stage => cases hc
  | ask c => cases hc; exact h
  | askWithin c deadline => cases hc; exact h

/-- A call that is made at home. -/
theorem AtHome.of_call (h : s.AtHome home) (born : BornAtHome home s (.step t))
    (ht : s.system.tasks[t]? = some ⟨op, .inside lock (.call c next)⟩) (hc : c.backendCall? = some bc) :
    bc.BelongsTo home op.identity ∧ Makes home op.identity (s.birth s.births) bc := by
  have hb := backendCall_belongsTo (h.programs ht rfl).1 hc
  have hm := (born t c bc rfl (call?_of_task ht) hc).1
  rw [hb.identity_eq] at hm
  exact ⟨hb, hm⟩

/-- A task that goes on from an answer at home is at home. -/
theorem AtHome.answer (h : s.AtHome home)
    (ht : s.system.tasks[t]? = some ⟨op, .inside lock (.call c next)⟩) {reply : c.Reply}
    (hd : ∀ d ∈ c.descriptor reply, d.BelongsTo home op.identity) {u : TaskId} {task : Task}
    {lock' : LockId} {p : Program Verdict}
    (hu : (s.system.setPhase t (.inside lock (next reply))).tasks[u]? = some task)
    (hp : task.phase = .inside lock' p) : p.About home task.operation.identity := by
  rcases System.of_getElem?_setPhase ht hu with ⟨_, rfl⟩ | ⟨_, hu⟩
  · cases hp
    exact (h.programs ht rfl).2 reply hd
  · exact h.programs hu hp

theorem descriptor_of_isLocal {a : Access} (h : a.isLocal = true) : a.descriptor = none := by
  cases a with
  | call c reply =>
    cases c with
    | stage => rfl
    | _ => cases h
  | _ => rfl

theorem AtHome.turn {system : System} {task : Task} {o : Option System.Observation} (h : s.AtHome home)
    (ht : s.system.tasks[t]? = some task) (turn : s.system.Turn t task o system)
    (plain : ∀ a, o = some (.access a) → a.isLocal = true) :
    (∀ i, ∀ d ∈ system.registry.find i, d.BelongsTo home i) ∧
      ∀ {u : TaskId} {task : Task} {lock : LockId} {p : Program Verdict},
        system.tasks[u]? = some task → task.phase = .inside lock p → p.About home task.operation.identity := by
  obtain ⟨phase, tasks, _, effect⟩ := turn.effect
  refine ⟨?_, fun {u v lock p} hu hv => ?_⟩
  · cases effect with
    | silent program held same => rw [same]; exact h.registry
    | entered hp free hp' same => rw [same]; exact h.registry
    | accessed hp step hq hl inside =>
      have about := h.programs ht hp
      generalize system.registry = r at step ⊢
      cases step with
      | write => exact belongsTo_find_apply h.registry about.1
      | _ => exact h.registry
  · rw [tasks] at hu
    rcases System.of_getElem?_setPhase ht hu with ⟨_, rfl⟩ | ⟨_, hu⟩
    · replace hv : phase = .inside lock p := hv
      change p.About home task.operation.identity
      refine effect.about (h.programs ht) (h.registry _) (fun ho _ _ d hd => ?_) hv
      rw [descriptor_of_isLocal (plain _ ho)] at hd
      cases hd
    · exact h.programs hu hv

theorem AtHome.move (h : s.AtHome home) (regular : s.Regular) (born : BornAtHome home s incident)
    (move : Move s incident s') : s'.AtHome home := by
  cases move with
  | submitted op =>
    refine ⟨h.backend, h.registry, fun hu hp => ?_, fun f hf st hst task hu => ?_⟩
    · rcases System.of_getElem?_submit hu with ⟨_, rfl⟩ | hu
      · cases hp
      · exact h.programs hu hp
    · obtain ⟨op', lock, c, next, ht, _⟩ := regular.awaited f hf
      obtain rfl := Option.some.inj ((System.getElem?_submit_of_some op ht).symm.trans hu)
      exact h.startups f hf st hst ht
  | refused op => exact h
  | turned ht turn free plain staged =>
    obtain ⟨registry, programs⟩ := h.turn ht turn plain
    refine ⟨h.backend, registry, programs, fun f hf st hst task hu => ?_⟩
    rw [turn.getElem?_eq (free f hf)] at hu
    exact h.startups f hf st hst hu
  | answered ht free hc ha hr =>
    obtain ⟨hb, hm⟩ := h.of_call born ht hc
    have response := (s.backend.taken (s.birth s.births) _).belongsTo h.backend hb hm
    refine ⟨(s.backend.taken (s.birth s.births) _).housed h.backend hb hm, h.registry, fun hu hp => ?_,
      fun f hf st hst task hu => ?_⟩
    · refine h.answer ht (fun d hd => ?_) hu hp
      rw [Call.descriptor_of_reply hr] at hd
      rw [show (s.backend.take _ _).1 = _ from ha] at response
      exact response d hd
    · rw [System.getElem?_setPhase_of_ne (free f hf)] at hu
      exact h.startups f hf st hst hu
  | suspended ht free hc hf hst cut ends served late =>
    obtain ⟨hb, hm⟩ := h.of_call born ht hc
    have response := (s.backend.taken (s.birth s.births) _).belongsTo h.backend hb hm
    refine ⟨(s.backend.taken (s.birth s.births) _).housed h.backend hb hm, h.registry, h.programs,
      fun g hg st hst' task hu => ?_⟩
    rcases List.mem_append.mp hg with hg | hg
    · exact h.startups g hg st hst' hu
    · obtain rfl := List.mem_singleton.mp hg
      rw [show (s.backend.take _ _).1 = _ from hst st hst'] at response
      rw [hf] at hu
      cases ht.symm.trans hu
      exact response
  | finished hf ht hst hr =>
    have hs := h.startups _ hf _ hst ht
    refine ⟨h.backend.finish hs, h.registry, fun hu hp => ?_, fun g hg st' hst' task hu => ?_⟩
    · refine h.answer ht (fun d hd => ?_) hu hp
      rw [Call.descriptor_of_reply hr] at hd
      exact finish_belongsTo hs d hd
    · obtain ⟨hm, hne⟩ := List.mem_filter.mp hg
      rw [System.getElem?_setPhase_of_ne (by simpa using hne)] at hu
      exact h.startups g hm st' hst' hu
  | late hf ht hst hr =>
    refine ⟨h.backend, h.registry, fun hu hp => ?_, fun g hg st' hst' task hu => ?_⟩
    · refine h.answer ht (fun d hd => ?_) hu hp
      rw [Call.descriptor_of_reply hr] at hd
      cases hd
    · obtain ⟨hm, hne⟩ := List.mem_filter.mp hg
      rw [System.getElem?_setPhase_of_ne (by simpa using hne)] at hu
      exact h.startups g hm st' hst' hu
  | disturbed d =>
    refine ⟨?_, h.registry, h.programs, h.startups⟩
    cases d with
    | crash uuid => exact h.backend.setState .stopped
    | _ => exact h.backend
  | stored world => exact ⟨h.backend, h.registry, h.programs, h.startups⟩

theorem AtHome.reaches (h : s₁.AtHome home) (regular : s₁.Regular)
    (run : Reaches (fun s incident => may s incident ∧ BornAtHome home s incident) s₁ s₂) :
    s₂.AtHome home := by
  induction run with
  | refl => exact h
  | snoc prior allowed last ih =>
    have regular' := regular.reaches prior
    exact ih.move regular' allowed.2 (regular'.move_of_after last)

end ServingLifecycle.Simulation
