import ServingLifecycle.Proofs.Program.Steps
import ServingLifecycle.Proofs.Registry.Entries
/-!
# Programs about one slot

Ids have a home, the slot that they were made for. A program about a slot reads, changes and calls for that
slot alone, and handles only services that are at home there. So it goes alike over registries that agree on
the slot, and leaves the other slots as they are.
-/
namespace ServingLifecycle

/-- The service is of the slot, and so is its id. -/
def Service.BelongsTo (home : Uuid → Identity) (i : Identity) (s : Service) : Prop :=
  s.identity = i ∧ home s.uuid = i

def Registry.Change.BelongsTo (home : Uuid → Identity) (i : Identity) : Registry.Change → Prop
  | record s => s.BelongsTo home i
  | supersede s => s.BelongsTo home i
  | forget j => j = i

def BackendCall.BelongsTo (home : Uuid → Identity) (i : Identity) : BackendCall → Prop
  | deploy _ j _ _ _ => j = i
  | start s _ => s.BelongsTo home i
  | stop s => s.BelongsTo home i
  | status s => s.BelongsTo home i

def Call.BelongsTo (home : Uuid → Identity) (i : Identity) : Call → Prop
  | stage .. => True
  | ask c => c.BelongsTo home i
  | askWithin c _ => c.BelongsTo home i

variable {home : Uuid → Identity} {i : Identity}

theorem Service.BelongsTo.withState {s : Service} (h : s.BelongsTo home i) (state : ServiceState) :
    (s.withState state).BelongsTo home i :=
  h

theorem Registry.Change.BelongsTo.identity_eq {change : Registry.Change}
    (h : change.BelongsTo home i) : change.identity = i := by
  cases change with
  | record s => exact h.1
  | supersede s => exact h.1
  | forget j => exact h

theorem BackendCall.BelongsTo.identity_eq {c : BackendCall} (h : c.BelongsTo home i) :
    c.identity = i := by
  cases c with
  | deploy => exact h
  | start s => exact h.1
  | stop s => exact h.1
  | status s => exact h.1

theorem Call.BelongsTo.slot_eq {c : Call} (h : c.BelongsTo home i) : ∀ j ∈ c.slot, j = i := by
  intro j hj
  cases c with
  | stage => cases hj
  | ask c => exact (Option.some.inj hj).symm.trans (BackendCall.BelongsTo.identity_eq h)
  | askWithin c deadline => exact (Option.some.inj hj).symm.trans (BackendCall.BelongsTo.identity_eq h)

namespace Program

variable {α β : Type}

/-- Every step of the program is about one slot and its services, as long as what it reads and what is
handed over to it belongs there. -/
def About (home : Uuid → Identity) (i : Identity) : Program α → Prop
  | done _ => True
  | abort _ => True
  | read j next => j = i ∧
      ∀ services, (∀ s ∈ services, s.BelongsTo home i) → (next services).About home i
  | write change next => change.BelongsTo home i ∧ next.About home i
  | call c next => c.BelongsTo home i ∧
      ∀ reply, (∀ s ∈ c.descriptor reply, s.BelongsTo home i) → (next reply).About home i

theorem about_of_isOver {p : Program α} (h : p.isOver = true) : p.About home i := by
  cases p <;> trivial

theorem About.bind {p : Program α} {f : α → Program β} (hp : p.About home i)
    (hf : ∀ a, (f a).About home i) : (p.bind f).About home i := by
  induction p with
  | done a => exact hf a
  | abort fault => trivial
  | read j next ih => exact ⟨hp.1, fun services hs => ih services (hp.2 services hs)⟩
  | write change next ih => exact ⟨hp.1, ih hp.2⟩
  | call c next ih => exact ⟨hp.1, fun reply hr => ih reply (hp.2 reply hr)⟩

theorem About.map {p : Program α} (hp : p.About home i) (f : α → β) : (p.map f).About home i :=
  hp.bind fun _ => trivial

/-- A step that is about a slot goes alike over registries that agree on the slot. -/
theorem Step.transfer {p q : Program α} {r r' r₁ : Registry} {a : Access}
    (h : Step p r a q r') (about : p.About home i) (same : r.find i = r₁.find i) :
    ∃ r₁', Step p r₁ a q r₁' ∧ r'.find i = r₁'.find i := by
  cases h with
  | read =>
    obtain ⟨rfl, _⟩ := about
    refine ⟨r₁, ?_, same⟩
    rw [same]
    exact .read
  | write => exact ⟨_, .write, Registry.find_apply_congr same⟩
  | call reply => exact ⟨r₁, .call reply, same⟩
  | breakOff text => exact ⟨r₁, .breakOff text, same⟩

theorem Step.nodup_find {p q : Program α} {r r' : Registry} {a : Access} {i : Identity}
    (h : Step p r a q r') (hr : ((r.find i).map Service.uuid).Nodup) :
    ((r'.find i).map Service.uuid).Nodup := by
  cases h with
  | write => exact Registry.nodup_find_apply hr _
  | _ => exact hr

theorem Steps.nodup_find {p q : Program α} {r r' : Registry} {as : List Access} {i : Identity}
    (h : Steps p r as q r') (hr : ((r.find i).map Service.uuid).Nodup) :
    ((r'.find i).map Service.uuid).Nodup := by
  induction h with
  | refl p r => exact hr
  | head first rest ih => exact ih (first.nodup_find hr)

/-- What a program has left to do is about its slot, too. -/
theorem About.step {p q : Program α} {r r' : Registry} {a : Access} (about : p.About home i)
    (h : Step p r a q r') (entries : ∀ s ∈ r.find i, s.BelongsTo home i)
    (handed : ∀ s ∈ a.descriptor, s.BelongsTo home i) : q.About home i := by
  cases h with
  | read =>
    obtain ⟨rfl, hnext⟩ := about
    exact hnext _ entries
  | write => exact about.2
  | call reply => exact about.2 reply handed
  | breakOff text => trivial

theorem About.slot_of_step {p q : Program α} {r r' : Registry} {a : Access} {j : Identity}
    (about : p.About home i) (h : Step p r a q r') (hj : a.slot = some j) : j = i := by
  cases h with
  | read => exact (Option.some.inj hj).symm.trans about.1
  | write => exact (Option.some.inj hj).symm.trans about.1.identity_eq
  | call reply => exact about.1.slot_eq j hj
  | breakOff text => exact about.1.slot_eq j hj

/-- A faithful answer hands over what belongs to the slot, when all ids do. -/
theorem About.belongsTo_of_faithful {p q : Program α} {r r' : Registry} {a : Access}
    (about : p.About home i) (h : Step p r a q r') (faithful : a.Faithful) :
    ∀ s ∈ a.descriptor, s.BelongsTo (fun _ => i) i :=
  fun s hs => ⟨about.slot_of_step h (faithful s hs), rfl⟩

/-- A step about one slot leaves the others alone. -/
theorem About.find_of_step {p q : Program α} {r r' : Registry} {a : Access} {j : Identity}
    (about : p.About home i) (h : Step p r a q r') (hne : j ≠ i) : r'.find j = r.find j := by
  cases h with
  | read => rfl
  | write => exact Registry.find_apply_of_ne (about.1.identity_eq ▸ hne)
  | call reply => rfl
  | breakOff text => rfl

/-- All that a program about a slot does is about that slot. -/
theorem About.slot_of_steps {p q : Program α} {r r' : Registry} {as : List Access}
    (about : p.About (fun _ => i) i) (h : Steps p r as q r') (faithful : ∀ a ∈ as, a.Faithful) :
    ∀ a ∈ as, ∀ j, a.slot = some j → j = i := by
  induction h with
  | refl p r => exact fun a ha => by cases ha
  | @head _ _ _ r _ _ x as first rest ih =>
    have handed := about.belongsTo_of_faithful first (faithful x List.mem_cons_self)
    have entries : ∀ s ∈ r.find i, s.BelongsTo (fun _ => i) i :=
      fun s hs => ⟨Registry.identity_of_mem_find hs, rfl⟩
    intro a ha j hj
    rcases List.mem_cons.mp ha with rfl | ha
    · exact about.slot_of_step first hj
    · exact ih (about.step first entries handed) (fun y hy => faithful y (List.mem_cons_of_mem _ hy)) a ha j hj

end Program
end ServingLifecycle
