import ServingLifecycle.Proofs.Operation.Scope
import ServingLifecycle.Proofs.System.Locks
/-!
# Sessions

A session is what is seen of one operation while it is inside. What is seen of a slot is its sessions one
after the other, in the order in which they got the lock: each is complete before the next one begins, each
goes on from the entries that the one before left, and the last one leaves what the registry holds.
-/
namespace ServingLifecycle

/-- An operation inside its critical section, from the moment when it got its lock. -/
structure Session where
  task : TaskId
  operation : Operation
  accesses : List Access
  /-- what it still has to do -/
  rest : Program Verdict

namespace Session

def observations (x : Session) : List (TaskId × System.Observation) :=
  (x.task, .entered) :: x.accesses.map fun a => (x.task, .access a)

/-- Sessions of a slot one after the other, and the entries that they leave. -/
inductive Serial (settings : Settings) (i : Identity) (entries : List Service) :
    List Session → List Service → Prop
  | nil : Serial settings i entries [] entries
  | snoc {xs : List Session} {x : Session} {before after : Registry}
      (prior : Serial settings i entries xs (before.find i))
      (complete : ∀ y ∈ xs, y.rest.isOver = true) (own : x.operation.identity = i)
      (steps : Program.Steps (x.operation.program settings) before x.accesses x.rest after) :
      Serial settings i entries (xs ++ [x]) (after.find i)

variable {settings : Settings} {i : Identity} {entries entries' : List Service} {xs : List Session}
  {x : Session}

theorem Serial.of_snoc (h : Serial settings i entries (xs ++ [x]) entries') :
    ∃ before after : Registry, Serial settings i entries xs (before.find i) ∧
      (∀ y ∈ xs, y.rest.isOver = true) ∧ x.operation.identity = i ∧
      Program.Steps (x.operation.program settings) before x.accesses x.rest after ∧
      entries' = after.find i := by
  generalize he : xs ++ [x] = ys at h
  cases h with
  | nil => simp at he
  | snoc prior complete own steps =>
    obtain ⟨rfl, hx⟩ := List.append_inj' he rfl
    cases hx
    exact ⟨_, _, prior, complete, own, steps, rfl⟩

theorem Serial.own (h : Serial settings i entries xs entries') {x : Session} (hx : x ∈ xs) :
    x.operation.identity = i := by
  induction h with
  | nil => cases hx
  | snoc prior complete own steps ih =>
    rcases List.mem_append.mp hx with hx | hx
    · exact ih hx
    · rw [List.mem_singleton.mp hx]
      exact own

/-- Every session takes the steps of its operation's program. -/
theorem Serial.steps_of_mem (h : Serial settings i entries xs entries') {x : Session} (hx : x ∈ xs) :
    ∃ before after : Registry,
      Program.Steps (x.operation.program settings) before x.accesses x.rest after := by
  induction h with
  | nil => cases hx
  | snoc prior complete own steps ih =>
    rcases List.mem_append.mp hx with hx | hx
    · exact ih hx
    · rw [List.mem_singleton.mp hx]
      exact ⟨_, _, steps⟩

/-- Sessions bring no double ids into a slot. -/
theorem Serial.nodup (h : Serial settings i entries xs entries')
    (nodup : (entries.map Service.uuid).Nodup) : (entries'.map Service.uuid).Nodup := by
  induction h with
  | nil => exact nodup
  | snoc prior complete own steps ih => exact steps.nodup_find ih

theorem mem_observations {x : Session} (hx : x ∈ xs) {a : Access} (ha : a ∈ x.accesses) :
    (x.task, .access a) ∈ xs.flatMap observations :=
  List.mem_flatMap.mpr ⟨x, hx, List.mem_cons_of_mem _ (List.mem_map_of_mem ha)⟩

end Session

namespace System
open Session

/-- What a turn does to its task, apart from the lock table: nothing that can be seen, the way inside, or
one step of its program. -/
inductive Effect (s : System) (task : Task) (phase : Phase) (r : Registry) : Option Observation → Prop
  | silent (program : phase.program? = task.phase.program?)
      (held : ∀ lock, phase.held = some lock → task.phase.held = some lock) (same : r = s.registry) :
      Effect s task phase r none
  | entered {lock : LockId} (h : task.phase = .waiting lock) (free : s.isFree lock = true)
      (h' : phase = .inside lock (task.operation.program s.settings)) (same : r = s.registry) :
      Effect s task phase r (some .entered)
  | accessed {lock : LockId} {p q : Program Verdict} {a : Access} (h : task.phase = .inside lock p)
      (step : Program.Step p s.registry a q r) (program : phase.program? = some q)
      (held : phase.held = some lock) (inside : ∀ {lock' p'}, phase = .inside lock' p' → p' = q) :
      Effect s task phase r (some (.access a))

theorem Turn.effect {s s' : System} {t : TaskId} {task : Task} {o : Option Observation}
    (turn : s.Turn t task o s') :
    ∃ phase, s'.tasks = (s.setPhase t phase).tasks ∧ s'.settings = s.settings ∧
      s.Effect task phase s'.registry o := by
  cases turn with
  | arrive h =>
    have hl : (s.lookUp task.operation.identity).2.settings = s.settings ∧
        (s.lookUp task.operation.identity).2.registry = s.registry := by
      unfold lookUp
      split <;> exact ⟨rfl, rfl⟩
    refine ⟨_, congrArg (List.modify · t _) (tasks_lookUp s _), hl.1, .silent ?_ ?_ hl.2⟩
    · rw [h]; rfl
    · exact fun lock hl => by cases hl
  | enter h free => exact ⟨_, rfl, rfl, .entered h free rfl rfl⟩
  | access h step =>
    exact ⟨_, rfl, rfl, .accessed h step rfl rfl fun he => by cases he; rfl⟩
  | breakOff h step => exact ⟨_, rfl, rfl, .accessed h step rfl rfl fun he => by cases he⟩
  | count h => exact ⟨_, rfl, rfl, .silent (by rw [h]; rfl) (fun _ hl => by rw [h]; exact hl) rfl⟩
  | abort h => exact ⟨_, rfl, rfl, .silent (by rw [h]; rfl) (fun _ hl => by rw [h]; exact hl) rfl⟩
  | release h => exact ⟨_, rfl, rfl, .silent (by rw [h]; rfl) (fun _ hl => by cases hl) rfl⟩
  | giveUp h => exact ⟨_, rfl, rfl, .silent (by rw [h]; rfl) (fun _ hl => by cases hl) rfl⟩
  | leave h => exact ⟨_, rfl, rfl, .silent (by rw [h]; rfl) (fun _ hl => by cases hl) rfl⟩
  | unlock h => exact ⟨_, rfl, rfl, .silent (by rw [h]; rfl) (fun _ hl => by cases hl) rfl⟩
  | crash h => exact ⟨_, rfl, rfl, .silent (by rw [h]; rfl) (fun _ hl => by cases hl) rfl⟩

/-- A turn leaves the other tasks as they are. -/
theorem Turn.getElem?_eq {s s' : System} {t u : TaskId} {task : Task} {o : Option Observation}
    (turn : s.Turn t task o s') (h : u ≠ t) : s'.tasks[u]? = s.tasks[u]? := by
  obtain ⟨phase, tasks, _⟩ := turn.effect
  rw [tasks]
  exact getElem?_setPhase_of_ne h phase

/-- A task that goes on about its slot is still about it, if what it reads and what is handed over belongs
there. -/
theorem Effect.about {s : System} {task : Task} {phase : Phase} {r : Registry} {o : Option Observation}
    {home : Uuid → Identity} (effect : s.Effect task phase r o)
    (about : ∀ {lock p}, task.phase = .inside lock p → p.About home task.operation.identity)
    (entries : ∀ d ∈ s.registry.find task.operation.identity, d.BelongsTo home task.operation.identity)
    (handed : ∀ {p q : Program Verdict} {a : Access} {r : Registry}, o = some (.access a) →
      p.About home task.operation.identity → Program.Step p s.registry a q r →
      ∀ d ∈ a.descriptor, d.BelongsTo home task.operation.identity)
    {lock : LockId} {p : Program Verdict} (hv : phase = .inside lock p) :
    p.About home task.operation.identity := by
  cases effect with
  | silent program held same =>
    have hl : task.phase.held = some lock := held lock (by rw [hv]; rfl)
    have hq : task.phase.program? = some p := by rw [← program, hv]; rfl
    rcases Phase.inside_or_isOver hq hl with hp | hover
    · exact about hp
    · exact Program.about_of_isOver hover
  | entered hp free hp' same =>
    obtain ⟨-, rfl⟩ := Phase.inside.inj (hv.symm.trans hp')
    exact Operation.about_program _ _ _
  | accessed hp step hq hl inside =>
    obtain rfl := inside hv
    exact (about hp).step step entries (handed rfl (about hp) step)

/-- A turn of a task leaves the entries of every other slot alone. -/
theorem Turn.find_eq {s s' : System} {t : TaskId} {task : Task} {o : Option Observation}
    (turn : s.Turn t task o s') {home : Uuid → Identity}
    (about : ∀ {lock p}, task.phase = .inside lock p → p.About home task.operation.identity)
    {i : Identity} (hi : i ≠ task.operation.identity) : s'.registry.find i = s.registry.find i := by
  obtain ⟨phase, _, _, effect⟩ := turn.effect
  cases effect with
  | silent program held same => rw [same]
  | entered hp free hp' same => rw [same]
  | accessed hp step => exact (about hp).find_of_step step hi

/-- The sessions of a slot so far, with what was seen of the slot. -/
structure Chronicle (r₀ : Registry) (s : System) (i : Identity) (seen : List (TaskId × Observation))
    (xs : List Session) : Prop where
  serial : Serial s.settings i (r₀.find i) xs (s.registry.find i)
  seen_eq : seen = xs.flatMap observations
  nodup : (xs.map Session.task).Nodup
  known : ∀ x ∈ xs, ∃ task, s.tasks[x.task]? = some task ∧ task.operation = x.operation ∧
    task.phase.program? = some x.rest
  covered : ∀ {t task}, s.tasks[t]? = some task → task.operation.identity = i →
    task.phase.program?.isSome = true → ∃ x ∈ xs, x.task = t
  last : ∀ {t task}, s.tasks[t]? = some task → task.operation.identity = i →
    task.phase.held.isSome = true → ∃ ys x, xs = ys ++ [x] ∧ x.task = t

variable {r₀ : Registry} {s s' : System} {i : Identity} {seen : List (TaskId × Observation)}
  {xs : List Session} {t : TaskId} {task : Task} {phase : Phase}

/-- A chronicle stays as it is when no task of the slot goes on in its program or gets the lock. -/
theorem Chronicle.keep (h : Chronicle r₀ s i seen xs) (settings : s'.settings = s.settings)
    (entries : s'.registry.find i = s.registry.find i)
    (forward : ∀ {u : TaskId} {task : Task}, s.tasks[u]? = some task → task.operation.identity = i →
      ∃ task', s'.tasks[u]? = some task' ∧ task'.operation = task.operation ∧
        task'.phase.program? = task.phase.program?)
    (backward : ∀ {u : TaskId} {task' : Task}, s'.tasks[u]? = some task' → task'.operation.identity = i →
      (task'.phase.program? = none ∧ task'.phase.held = none) ∨
      ∃ task, s.tasks[u]? = some task ∧ task.operation = task'.operation ∧
        task'.phase.program? = task.phase.program? ∧
        ∀ lock, task'.phase.held = some lock → task.phase.held = some lock) :
    Chronicle r₀ s' i seen xs where
  serial := by rw [settings, entries]; exact h.serial
  seen_eq := h.seen_eq
  nodup := h.nodup
  known x hx := by
    obtain ⟨task, ht, hop, hp⟩ := h.known x hx
    obtain ⟨task', ht', hop', hp'⟩ := forward ht (hop ▸ h.serial.own hx)
    exact ⟨task', ht', hop'.trans hop, hp'.trans hp⟩
  covered ht' hi hp' := by
    rcases backward ht' hi with ⟨hn, _⟩ | ⟨task, ht, hop, hp, _⟩
    · rw [hn] at hp'; cases hp'
    · exact h.covered ht (hop ▸ hi) (hp ▸ hp')
  last ht' hi hl := by
    obtain ⟨lock, hl⟩ := Option.isSome_iff_exists.mp hl
    rcases backward ht' hi with ⟨_, hn⟩ | ⟨task, ht, hop, _, hheld⟩
    · rw [hn] at hl; cases hl
    · exact h.last ht (hop ▸ hi) (by rw [hheld lock hl]; rfl)

theorem Chronicle.submit (h : Chronicle r₀ s i seen xs) (operation : Operation) :
    Chronicle r₀ (s.submit operation) i seen xs := by
  refine h.keep rfl rfl (fun {u task} ht _ => ?_) fun {u task'} ht' _ => ?_
  · exact ⟨task, getElem?_submit_of_some operation ht, rfl, rfl⟩
  · rcases of_getElem?_submit ht' with ⟨_, rfl⟩ | ht
    · exact Or.inl ⟨rfl, rfl⟩
    · exact Or.inr ⟨task', ht, rfl, rfl, fun _ hl => hl⟩

/-- A turn that cannot be seen, or of a task of another slot, leaves a chronicle as it is. -/
theorem Chronicle.keep_turn (h : Chronicle r₀ s i seen xs) (ht : s.tasks[t]? = some task)
    (tasks : s'.tasks = (s.setPhase t phase).tasks) (settings : s'.settings = s.settings)
    (entries : s'.registry.find i = s.registry.find i)
    (own : task.operation.identity = i → phase.program? = task.phase.program? ∧
      ∀ lock, phase.held = some lock → task.phase.held = some lock) :
    Chronicle r₀ s' i seen xs := by
  refine h.keep settings entries (fun {u v} hu hi => ?_) fun {u v'} hu' hi => Or.inr ?_
  · rw [tasks, getElem?_setPhase, hu]
    split
    · rename_i e
      subst e
      obtain rfl := Option.some.inj (ht.symm.trans hu)
      exact ⟨_, rfl, rfl, (own hi).1⟩
    · exact ⟨v, rfl, rfl, rfl⟩
  · rw [tasks] at hu'
    rcases of_getElem?_setPhase ht hu' with ⟨rfl, rfl⟩ | ⟨_, hu⟩
    · exact ⟨task, ht, rfl, own hi⟩
    · exact ⟨v', hu, rfl, rfl, fun _ hl => hl⟩

/-- Who gets the lock begins a session. All sessions before it are complete. -/
theorem Chronicle.enter (h : Chronicle r₀ s i seen xs) (locked : s.Locked)
    (ht : s.tasks[t]? = some task) (hi : task.operation.identity = i)
    (tasks : s'.tasks = (s.setPhase t phase).tasks) (settings : s'.settings = s.settings)
    (same : s'.registry = s.registry) {lock : LockId} (hp : task.phase = .waiting lock)
    (free : s.isFree lock = true)
    (hp' : phase = .inside lock (task.operation.program s.settings)) :
    Chronicle r₀ s' i (seen ++ [(t, .entered)])
      (xs ++ [⟨t, task.operation, [], task.operation.program s.settings⟩]) := by
  subst hp'
  have fresh : ∀ x ∈ xs, x.task ≠ t := by
    intro x hx e
    obtain ⟨task', ht', _, hq⟩ := h.known x hx
    rw [e, ht] at ht'
    cases ht'
    rw [hp] at hq
    cases hq
  have unheld : ∀ {u : TaskId} {v : Task}, s.tasks[u]? = some v → v.operation.identity = i →
      v.phase.held = none :=
    fun hu hv => locked.held_eq_none ht hp free hu (hv.trans hi.symm)
  refine ⟨?_, ?_, ?_, fun x hx => ?_, fun {u v} hu hv hq => ?_, fun {u v} hu hv hl => ?_⟩
  · rw [settings, same]
    refine .snoc h.serial (fun y hy => ?_) hi (.refl _ _)
    -- an earlier session that is not complete would hold the lock
    obtain ⟨v, hv, hop, hq⟩ := h.known y hy
    exact Phase.isOver_of_not_held hq (unheld hv (hop ▸ h.serial.own hy))
  · rw [h.seen_eq, List.flatMap_append]
    rfl
  · rw [List.map_append, List.nodup_append]
    refine ⟨h.nodup, by simp, ?_⟩
    rintro u hu w hw rfl
    obtain ⟨x, hx, e⟩ := List.mem_map.mp hu
    exact fresh x hx (e.trans (by simpa using hw))
  · rcases List.mem_append.mp hx with hx | hx
    · obtain ⟨v, hv, hop, hq⟩ := h.known x hx
      refine ⟨v, ?_, hop, hq⟩
      rw [tasks, getElem?_setPhase_of_ne (fresh x hx)]
      exact hv
    · rw [List.mem_singleton.mp hx]
      exact ⟨{ task with phase := _ }, by rw [tasks]; exact getElem?_setPhase_self ht _, rfl, rfl⟩
  · rw [tasks] at hu
    rcases of_getElem?_setPhase ht hu with ⟨rfl, rfl⟩ | ⟨_, hu⟩
    · exact ⟨_, List.mem_append_right _ List.mem_cons_self, rfl⟩
    · obtain ⟨x, hx, e⟩ := h.covered hu hv hq
      exact ⟨x, List.mem_append_left _ hx, e⟩
  · rw [tasks] at hu
    rcases of_getElem?_setPhase ht hu with ⟨rfl, rfl⟩ | ⟨_, hu⟩
    · exact ⟨xs, _, rfl, rfl⟩
    · rw [unheld hu hv] at hl
      cases hl

/-- A step of the task inside lengthens the last session. -/
theorem Chronicle.access (h : Chronicle r₀ s i seen xs) (locked : s.Locked)
    (ht : s.tasks[t]? = some task) (hi : task.operation.identity = i)
    (tasks : s'.tasks = (s.setPhase t phase).tasks) (settings : s'.settings = s.settings)
    {lock : LockId} {p q : Program Verdict} {a : Access} (hp : task.phase = .inside lock p)
    {home : Uuid → Identity} (about : p.About home i) (step : Program.Step p s.registry a q s'.registry)
    (hq : phase.program? = some q) :
    ∃ ys, Chronicle r₀ s' i (seen ++ [(t, .access a)]) ys := by
  obtain ⟨xs, x, rfl, rfl⟩ := h.last ht hi (by rw [hp]; rfl)
  obtain ⟨v, hv, hop, hrest⟩ := h.known x (by simp)
  obtain rfl := Option.some.inj (ht.symm.trans hv)
  obtain rfl : p = x.rest := by rw [hp] at hrest; exact Option.some.inj hrest
  obtain ⟨before, after, prior, complete, own, steps, he⟩ := h.serial.of_snoc
  obtain ⟨after', step', he'⟩ := step.transfer about he
  refine ⟨xs ++ [{ x with accesses := x.accesses ++ [a], rest := q }], ?_, ?_, ?_, fun y hy => ?_,
    fun {u w} hu hw hsome => ?_, fun {u w} hu hw hsome => ?_⟩
  · rw [settings, he']
    exact .snoc prior complete own (steps.snoc step')
  · rw [h.seen_eq]
    simp [observations]
  · simpa using h.nodup
  · rcases List.mem_append.mp hy with hy | hy
    · obtain ⟨w, hw, hop', hrest'⟩ := h.known y (List.mem_append_left _ hy)
      refine ⟨w, ?_, hop', hrest'⟩
      have hne : y.task ≠ x.task := by
        have hn := h.nodup
        rw [List.map_append, List.nodup_append] at hn
        exact hn.2.2 y.task (List.mem_map_of_mem hy) x.task (by simp)
      rw [tasks, getElem?_setPhase_of_ne hne]
      exact hw
    · rw [List.mem_singleton.mp hy]
      exact ⟨{ task with phase := phase }, by rw [tasks]; exact getElem?_setPhase_self ht _, hop, hq⟩
  · rw [tasks] at hu
    rcases of_getElem?_setPhase ht hu with ⟨rfl, rfl⟩ | ⟨_, hu⟩
    · exact ⟨_, List.mem_append_right _ List.mem_cons_self, rfl⟩
    · obtain ⟨y, hy, e⟩ := h.covered hu hw hsome
      rcases List.mem_append.mp hy with hy | hy
      · exact ⟨y, List.mem_append_left _ hy, e⟩
      · rw [List.mem_singleton.mp hy] at e
        exact ⟨_, List.mem_append_right _ List.mem_cons_self, e⟩
  · rw [tasks] at hu
    rcases of_getElem?_setPhase ht hu with ⟨rfl, rfl⟩ | ⟨hne, hu⟩
    · exact ⟨xs, _, rfl, rfl⟩
    · exact absurd (locked.held_unique hu ht (hw.trans hi.symm) hsome (by rw [hp]; rfl)) hne

end System
end ServingLifecycle
