import Mathlib.Data.List.Induction
import ServingLifecycle.Proofs.Registry.Entries
/-!
# The history of a registry

What a registry holds is told by the changes that it has come from. A slot holds a descriptor if some change gave it
and every later one spared it. The services of a slot stand newest first, each id once, and the list of all services
is made up of the slots.
-/
namespace ServingLifecycle

/-- No service came into being before one that stands behind it. -/
def NewestFirst (services : List Service) : Prop :=
  services.Pairwise fun a b => b.createdAt.rank ≤ a.createdAt.rank

instance (services : List Service) : Decidable (NewestFirst services) :=
  inferInstanceAs (Decidable (services.Pairwise fun a b => b.createdAt.rank ≤ a.createdAt.rank))

theorem Service.noOlder_iff {a b : Service} : a.noOlder b = true ↔ b.createdAt.rank ≤ a.createdAt.rank :=
  decide_eq_true_iff

theorem newestFirst_mergeSort (services : List Service) : NewestFirst (services.mergeSort Service.noOlder) := by
  have trans : ∀ a b c : Service, a.noOlder b = true → b.noOlder c = true → a.noOlder c = true := by
    simp only [Service.noOlder_iff]
    omega
  have total : ∀ a b : Service, (a.noOlder b || b.noOlder a) = true := by
    simp only [Bool.or_eq_true, Service.noOlder_iff]
    omega
  exact (List.pairwise_mergeSort trans total services).imp Service.noOlder_iff.mp

/-- Services that stand newest first are left in their order, also those of one time. -/
theorem NewestFirst.mergeSort_eq {services : List Service} (h : NewestFirst services) :
    services.mergeSort Service.noOlder = services :=
  List.mergeSort_of_pairwise (h.imp Service.noOlder_iff.mpr)

/-- Only the times tell the order. -/
theorem NewestFirst.congr {services services' : List Service} (h : NewestFirst services)
    (same : services.map Service.createdAt = services'.map Service.createdAt) : NewestFirst services' := by
  have sorted : (services.map Service.createdAt).Pairwise fun a b => b.rank ≤ a.rank := List.pairwise_map.mpr h
  exact List.pairwise_map.mp (same ▸ sorted)

namespace Registry

/-- The descriptor that a change gives. -/
def Change.given : Change → Option Service
  | record s => some s
  | supersede s => some s
  | forget _ => none

/-- A change spares what is of other slots; recording spares in its own slot what has another id, too. -/
def Change.Spares (s : Service) : Change → Prop
  | record t => s.identity = t.identity → s.uuid ≠ t.uuid
  | supersede t => s.identity ≠ t.identity
  | forget i => s.identity ≠ i

/-- Some change gave the descriptor, and it has been spared since. -/
def LastGiven (changes : List Change) (s : Service) : Prop :=
  ∃ earlier change later, changes = earlier ++ change :: later ∧ change.given = some s ∧ ∀ c ∈ later, c.Spares s

variable {r : Registry} {changes : List Change} {change : Change} {i : Identity} {s new : Service}
  {entries services : List Service}

theorem lastGiven_concat :
    LastGiven (changes ++ [change]) s ↔ change.given = some s ∨ LastGiven changes s ∧ change.Spares s := by
  constructor
  · rintro ⟨earlier, c, later, e, given, spared⟩
    rcases later.eq_nil_or_concat with rfl | ⟨later, last, rfl⟩
    · obtain ⟨-, e⟩ := List.append_inj' e rfl
      obtain rfl := List.singleton_inj.mp e
      exact Or.inl given
    · rw [List.concat_eq_append, ← List.cons_append, ← List.append_assoc] at e
      obtain ⟨rfl, e'⟩ := List.append_inj' e rfl
      obtain rfl := List.singleton_inj.mp e'
      exact Or.inr ⟨⟨earlier, c, later, rfl, given, fun d hd => spared d (by simp [hd])⟩, spared change (by simp)⟩
  · rintro (given | ⟨⟨earlier, c, later, rfl, given, spared⟩, spares⟩)
    · exact ⟨changes, change, [], rfl, given, by simp⟩
    · refine ⟨earlier, c, later ++ [change], by simp, given, fun d hd => ?_⟩
      rcases List.mem_append.mp hd with hd | hd
      · exact spared d hd
      · rwa [List.mem_singleton.mp hd]

theorem mem_update_iff (h : (entries.map Service.uuid).Nodup) :
    s ∈ update new entries ↔ s = new ∨ s ∈ entries ∧ s.uuid ≠ new.uuid := by
  constructor
  · intro hs
    by_cases e : s.uuid = new.uuid
    · exact Or.inl (List.inj_on_of_nodup_map (nodup_update h) hs (mem_update_self new entries) e)
    · exact (mem_of_mem_update hs).imp_right fun hs => ⟨hs, e⟩
  · rintro (rfl | ⟨hs, hne⟩)
    · exact mem_update_self s entries
    · exact mem_update_of_ne hs hne

/-- A slot holds after a change what the change gave to it, and what it held before and the change spared. -/
theorem mem_find_apply (h : ((r.find i).map Service.uuid).Nodup) :
    s ∈ (r.apply change).find i ↔ s.identity = i ∧ change.given = some s ∨ s ∈ r.find i ∧ change.Spares s := by
  have own : s ∈ r.find i → s.identity = i := identity_of_mem_find
  rw [find_apply]
  by_cases hi : i = change.identity
  · rw [if_pos hi]
    cases change with
    | record t =>
      rw [mem_on_record, mem_update_iff h]
      grind [Change.identity, Change.given, Change.Spares]
    | supersede t => grind [Change.identity, Change.given, Change.Spares, Change.on]
    | forget j => grind [Change.identity, Change.given, Change.Spares, Change.on]
  · rw [if_neg hi]
    cases change <;> grind [Change.identity, Change.given, Change.Spares]

theorem after_concat (changes : List Change) (change : Change) :
    after (changes ++ [change]) = (after changes).apply change :=
  List.foldl_append

theorem mem_find_after : s ∈ (after changes).find i ↔ s.identity = i ∧ LastGiven changes s := by
  induction changes using List.reverseRecOn with
  | nil => simp [after, empty, find, LastGiven]
  | append_singleton changes change ih =>
    rw [after_concat, mem_find_apply (distinct_after changes i), ih, lastGiven_concat]
    tauto

theorem newestFirst_on (entries : List Service) (change : Change) : NewestFirst (change.on entries) := by
  cases change with
  | record s => exact newestFirst_mergeSort _
  | supersede s => exact List.pairwise_singleton _ _
  | forget j => exact List.Pairwise.nil

theorem newestFirst_find_apply (h : NewestFirst (r.find i)) (change : Change) :
    NewestFirst ((r.apply change).find i) := by
  rw [find_apply]
  split
  · exact newestFirst_on _ change
  · exact h

theorem newestFirst_find_after (changes : List Change) (i : Identity) : NewestFirst ((after changes).find i) := by
  induction changes using List.reverseRecOn with
  | nil => exact List.Pairwise.nil
  | append_singleton changes change ih =>
    rw [after_concat]
    exact newestFirst_find_apply ih change

theorem update_of_fresh (fresh : ∀ t ∈ entries, t.uuid ≠ new.uuid) : update new entries = entries ++ [new] := by
  induction entries with
  | nil => rfl
  | cons t entries ih =>
    obtain ⟨hne, fresh⟩ := List.forall_mem_cons.mp fresh
    rw [update, if_neg hne, ih fresh, List.cons_append]

/-- What is newest first as it is updated needs no sorting. -/
theorem record_eq (newest : NewestFirst (update new (r.find new.identity))) :
    r.record new = ⟨r.others new.identity ++ update new (r.find new.identity)⟩ := by
  rw [record, newest.mergeSort_eq]

/-- Two services of a slot are held as they were recorded, if the newer one came first. -/
theorem after_pair {a b : Service} (newest : NewestFirst [a, b]) (hi : a.identity = b.identity) (hu : a.uuid ≠ b.uuid) :
    after [.record a, .record b] = ⟨[a, b]⟩ := by
  have updated : update b (find ⟨[a]⟩ b.identity) = [a, b] := by simp [find, update, hi, hu]
  have recorded : after [.record a, .record b] = (empty.record a).record b := rfl
  rw [recorded, record_empty, record_eq (updated ▸ newest), updated]
  simp [others, hi]

/-- A new service that is no younger than the others of its slot stands behind them. -/
theorem find_record_of_fresh (fresh : ∀ t ∈ r.find i, t.uuid ≠ new.uuid) (hi : new.identity = i)
    (newest : NewestFirst (r.find i ++ [new])) : (r.record new).find i = r.find i ++ [new] := by
  rw [find_record, if_pos hi.symm, update_of_fresh fresh]
  exact newest.mergeSort_eq

/-- A service is updated in its place. -/
theorem update_of_split {front back : List Service} (fresh : ∀ t ∈ front, t.uuid ≠ new.uuid) (hu : s.uuid = new.uuid) :
    update new (front ++ s :: back) = front ++ new :: back := by
  induction front with
  | nil => simp [update, hu]
  | cons t front ih =>
    obtain ⟨hne, fresh⟩ := List.forall_mem_cons.mp fresh
    rw [List.cons_append, update, if_neg hne, ih fresh, List.cons_append]

/-- A descriptor that has the id and the time of a service takes its place in the slot. -/
theorem find_record_of_split {front back : List Service} (nodup : ((r.find i).map Service.uuid).Nodup)
    (newest : NewestFirst (r.find i)) (split : r.find i = front ++ s :: back) (hi : new.identity = i)
    (hu : s.uuid = new.uuid) (hc : s.createdAt = new.createdAt) :
    (r.record new).find i = front ++ new :: back := by
  rw [split] at nodup newest
  have fresh : ∀ t ∈ front, t.uuid ≠ new.uuid := by
    intro t ht
    rw [List.map_append, List.nodup_append] at nodup
    exact hu ▸ nodup.2.2 _ (List.mem_map_of_mem ht) _ (by simp)
  rw [find_record, if_pos hi.symm, split, update_of_split fresh hu]
  exact (newest.congr (by simp [hc])).mergeSort_eq

/-- Services are those of the slots put together, once all their slots are there. -/
theorem perm_flatMap_find {slots : List Identity} (distinct : slots.Nodup)
    (covered : ∀ s ∈ services, s.identity ∈ slots) : services.Perm (slots.flatMap (find ⟨services⟩)) := by
  induction slots generalizing services with
  | nil =>
    rw [List.eq_nil_iff_forall_not_mem.mpr fun s hs => List.not_mem_nil (covered s hs)]
    exact .nil
  | cons i slots ih =>
    obtain ⟨fresh, distinct⟩ := List.nodup_cons.mp distinct
    -- the other slots hold the same without the services of this one
    have same : slots.flatMap (find ⟨others ⟨services⟩ i⟩) = slots.flatMap (find ⟨services⟩) := by
      refine List.flatMap_congr fun j hj => ?_
      rw [find_others, if_neg (ne_of_mem_of_not_mem hj fresh)]
    have rest : (others ⟨services⟩ i).Perm (slots.flatMap (find ⟨others ⟨services⟩ i⟩)) := by
      refine ih distinct fun s hs => ?_
      obtain ⟨hs, hne⟩ := List.mem_filter.mp hs
      exact (List.mem_cons.mp (covered s hs)).resolve_left (by simpa using hne)
    have split : (find ⟨services⟩ i ++ others ⟨services⟩ i).Perm services := by
      simpa [find, others] using List.filter_append_perm (fun s : Service => decide (s.identity = i)) services
    rw [List.flatMap_cons, ← same]
    exact split.symm.trans (rest.append_left _)

/-- A registry tells its history: a slot holds each descriptor that was given last for its id in the slot since all
of the slot was superseded or forgotten, and nothing else, newest first; a change of one slot leaves the others as they
are; and the list of all services is made up of the slots, newest first. -/
theorem holds_last_given (changes : List Change) (i : Identity) :
    (∀ s ∈ (after changes).find i, s.identity = i)
      ∧ (((after changes).find i).map Service.uuid).Nodup
      ∧ NewestFirst ((after changes).find i)
      ∧ (∀ s, s ∈ (after changes).find i ↔ s.identity = i ∧ LastGiven changes s)
      ∧ (∀ change, change.identity ≠ i → (after (changes ++ [change])).find i = (after changes).find i)
      ∧ NewestFirst (after changes).list
      ∧ ∀ slots : List Identity, slots.Nodup → (∀ j, (after changes).find j ≠ [] → j ∈ slots) →
          (after changes).list.Perm (slots.flatMap (after changes).find) := by
  refine ⟨fun _ => identity_of_mem_find, distinct_after changes i, newestFirst_find_after changes i,
    fun _ => mem_find_after, fun change hne => ?_, newestFirst_mergeSort _, fun slots distinct covered => ?_⟩
  · rw [after_concat]
    exact find_apply_of_ne hne.symm
  · refine (List.mergeSort_perm _ _).trans (perm_flatMap_find distinct fun s hs => covered _ ?_)
    exact List.ne_nil_of_mem (mem_find.mpr ⟨hs, rfl⟩)

end Registry
end ServingLifecycle
