import Mathlib.Data.List.Nodup
import ServingLifecycle.Registry
/-!
# The entries of a slot

What a change of the registry does to the services of its slot, as a set and by their ids. In every
registry that comes from changes an id stands at most once in a slot.
-/
namespace ServingLifecycle

/-- The services of a slot for examples, one for each number. -/
def Service.sample (n : Nat) (state : ServiceState) : Service where
  uuid := Uuid.ofNat n
  identity := ⟨"iris", "train", "classifier"⟩
  runId := "run"
  servedUri := "/served/iris"
  kind := .sklearn
  url := none
  state := state
  createdAt := ⟨2026, 1, 1, 0, 0, 0, n⟩

namespace Registry

theorem mem_find {r : Registry} {i : Identity} {s : Service} :
    s ∈ r.find i ↔ s ∈ r.services ∧ s.identity = i := by
  simp [find]

theorem identity_of_mem_find {r : Registry} {i : Identity} {s : Service} (h : s ∈ r.find i) :
    s.identity = i :=
  (mem_find.mp h).2

theorem mem_update_self (new : Service) (l : List Service) : new ∈ update new l := by
  induction l with
  | nil => simp [update]
  | cons a l ih =>
    unfold update
    split
    · exact List.mem_cons_self
    · exact List.mem_cons_of_mem _ ih

theorem mem_of_mem_update {new s : Service} {l : List Service} (h : s ∈ update new l) :
    s = new ∨ s ∈ l := by
  induction l with
  | nil => exact Or.inl (by simpa [update] using h)
  | cons a l ih =>
    unfold update at h
    split at h
    · rcases List.mem_cons.mp h with rfl | h
      · exact Or.inl rfl
      · exact Or.inr (List.mem_cons_of_mem _ h)
    · rcases List.mem_cons.mp h with rfl | h
      · exact Or.inr List.mem_cons_self
      · exact (ih h).imp_right (List.mem_cons_of_mem _)

/-- Only a service with the same id gives way. -/
theorem mem_update_of_ne {new s : Service} {l : List Service} (h : s ∈ l) (hne : s.uuid ≠ new.uuid) :
    s ∈ update new l := by
  induction l with
  | nil => cases h
  | cons a l ih =>
    unfold update
    split
    · rcases List.mem_cons.mp h with rfl | h
      · exact absurd ‹_› hne
      · exact List.mem_cons_of_mem _ h
    · rcases List.mem_cons.mp h with rfl | h
      · exact List.mem_cons_self
      · exact List.mem_cons_of_mem _ (ih h)

theorem map_uuid_update (new : Service) (l : List Service) :
    (update new l).map Service.uuid =
      if new.uuid ∈ l.map Service.uuid then l.map Service.uuid else l.map Service.uuid ++ [new.uuid] := by
  induction l with
  | nil => simp [update]
  | cons a l ih =>
    unfold update
    by_cases h : a.uuid = new.uuid
    · simp [h]
    · rw [if_neg h, List.map_cons, ih]
      by_cases hm : new.uuid ∈ l.map Service.uuid <;> simp [hm, Ne.symm h]

/-- What a change makes of the services of its slot. -/
def Change.on (entries : List Service) : Change → List Service
  | record s => (update s entries).mergeSort Service.noOlder
  | supersede s => [s]
  | forget _ => []

theorem find_apply (r : Registry) (c : Change) (i : Identity) :
    (r.apply c).find i = if i = c.identity then c.on (r.find i) else r.find i := by
  cases c with
  | record s => exact find_record r s i
  | supersede s => exact find_supersede r s i
  | forget j => exact find_forget r j i

theorem mem_on_record {new s : Service} {entries : List Service} :
    s ∈ (Change.record new).on entries ↔ s ∈ update new entries :=
  List.mem_mergeSort

theorem mem_find_record_self (r : Registry) (s : Service) : s ∈ (r.record s).find s.identity := by
  rw [find_record, if_pos rfl, List.mem_mergeSort]
  exact mem_update_self _ _

theorem mem_of_mem_find_record {r : Registry} {new s : Service} {i : Identity}
    (h : s ∈ (r.record new).find i) : s = new ∨ s ∈ r.find i := by
  rw [find_record] at h
  split at h
  · exact mem_of_mem_update (List.mem_mergeSort.mp h)
  · exact Or.inr h

theorem mem_find_record_of_ne {r : Registry} {new s : Service} {i : Identity} (h : s ∈ r.find i)
    (hne : s.uuid ≠ new.uuid) : s ∈ (r.record new).find i := by
  rw [find_record]
  split
  · exact List.mem_mergeSort.mpr (mem_update_of_ne h hne)
  · exact h

/-- Recording drops no id. -/
theorem uuid_mem_find_record (new : Service) {r : Registry} {s : Service} {i : Identity}
    (h : s ∈ r.find i) :
    ∃ t ∈ (r.record new).find i, t.uuid = s.uuid := by
  by_cases hn : s.uuid = new.uuid
  · by_cases hi : i = new.identity
    · subst hi
      exact ⟨new, mem_find_record_self r new, hn.symm⟩
    · exact ⟨s, by rw [find_record, if_neg hi]; exact h, rfl⟩
  · exact ⟨s, mem_find_record_of_ne h hn, rfl⟩

/-- What a slot holds after a change hangs on what it held before alone. -/
theorem find_apply_congr {r r' : Registry} {c : Change} {i : Identity} (h : r.find i = r'.find i) :
    (r.apply c).find i = (r'.apply c).find i := by
  rw [find_apply, find_apply, h]

/-- No id stands twice in a slot. -/
def Distinct (r : Registry) : Prop :=
  ∀ i, ((r.find i).map Service.uuid).Nodup

theorem distinct_empty : Registry.empty.Distinct := by
  intro i
  simp [empty, find]

theorem nodup_update {new : Service} {l : List Service} (h : (l.map Service.uuid).Nodup) :
    ((update new l).map Service.uuid).Nodup := by
  rw [map_uuid_update]
  split
  · exact h
  · rename_i hn
    rw [List.nodup_append]
    refine ⟨h, by simp, ?_⟩
    intro a ha b hb e
    rw [List.mem_singleton.mp hb] at e
    exact hn (e ▸ ha)

theorem nodup_on {entries : List Service} (h : (entries.map Service.uuid).Nodup) (c : Change) :
    ((c.on entries).map Service.uuid).Nodup := by
  cases c with
  | record s => exact ((List.mergeSort_perm _ _).map _).nodup_iff.mpr (nodup_update h)
  | supersede s => simp [Change.on]
  | forget j => simp [Change.on]

theorem nodup_find_apply {r : Registry} {i : Identity} (h : ((r.find i).map Service.uuid).Nodup)
    (c : Change) : (((r.apply c).find i).map Service.uuid).Nodup := by
  rw [find_apply]
  split
  · exact nodup_on h c
  · exact h

theorem Distinct.apply {r : Registry} (h : r.Distinct) (c : Change) : (r.apply c).Distinct :=
  fun i => nodup_find_apply (h i) c

/-- The registry after changes, one after the other. -/
def after (changes : List Change) : Registry :=
  changes.foldl apply empty

theorem distinct_after (changes : List Change) : (after changes).Distinct := by
  suffices ∀ r : Registry, r.Distinct → (changes.foldl Registry.apply r).Distinct from
    this _ distinct_empty
  induction changes with
  | nil => exact fun _ h => h
  | cons c changes ih => exact fun r h => ih _ (h.apply c)

/-- In a slot without double ids the id picks the service. -/
theorem eq_of_uuid {r : Registry} {i : Identity} (h : ((r.find i).map Service.uuid).Nodup)
    {s t : Service} (hs : s ∈ r.find i) (ht : t ∈ r.find i) (e : s.uuid = t.uuid) : s = t :=
  List.inj_on_of_nodup_map h hs ht e

theorem find_eq_singleton {r : Registry} {i : Identity} (h : ((r.find i).map Service.uuid).Nodup)
    {s : Service} (hs : s ∈ r.find i) (only : ∀ t ∈ r.find i, t.uuid = s.uuid) : r.find i = [s] := by
  have hall : ∀ t ∈ r.find i, t = s := fun t ht => eq_of_uuid h ht hs (only t ht)
  have hrep := List.eq_replicate_of_mem hall
  have hlen : (r.find i).length ≤ 1 := by
    by_contra hl
    rw [hrep, List.map_replicate] at h
    exact hl (List.nodup_replicate.mp h)
  have hpos : 0 < (r.find i).length := List.length_pos_of_mem hs
  rw [hrep, show (r.find i).length = 1 by omega]
  rfl

theorem find_record_of_find_nil {r : Registry} {s : Service} (h : r.find s.identity = []) :
    (r.record s).find s.identity = [s] := by
  rw [find_record, if_pos rfl, h]
  simp [update]

theorem record_empty (s : Service) : empty.record s = ⟨[s]⟩ := by
  simp [record, empty, others, find, update]

/-- A registry of one service takes over what is recorded of it. -/
theorem record_singleton {s new : Service} (hu : s.uuid = new.uuid) (hi : s.identity = new.identity) :
    record ⟨[s]⟩ new = ⟨[new]⟩ := by
  simp [record, others, find, update, hu, hi]

end Registry
end ServingLifecycle
