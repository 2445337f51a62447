import ServingLifecycle.Service
/-!
# The registry

The services known for each slot, as the backend described them last. It changes in three ways: a
service is recorded, a service supersedes all others of its slot, or a slot is forgotten. A slot's
services are kept newest first; of two that came into being at the same time the one recorded first
stands first.
-/
namespace ServingLifecycle

/-- Whether `a` may stand before `b` in newest-first order. -/
def Service.noOlder (a b : Service) : Bool :=
  Instant.notAfter b.createdAt a.createdAt

structure Registry where
  services : List Service
deriving DecidableEq

namespace Registry

def empty : Registry := ⟨[]⟩

/-- The services of a slot, newest first. -/
def find (r : Registry) (i : Identity) : List Service :=
  r.services.filter fun s => s.identity = i

def others (r : Registry) (i : Identity) : List Service :=
  r.services.filter fun s => s.identity ≠ i

/-- Puts a service in the place of the first one with its id, or else at the end. -/
def update (new : Service) : List Service → List Service
  | [] => [new]
  | s :: rest => if s.uuid = new.uuid then new :: rest else s :: update new rest

/-- Records a service. One of the same slot with the same id is updated. -/
def record (r : Registry) (new : Service) : Registry :=
  ⟨r.others new.identity ++ (update new (r.find new.identity)).mergeSort Service.noOlder⟩

/-- Puts a service in the place of all services of its slot. -/
def supersede (r : Registry) (new : Service) : Registry :=
  ⟨r.others new.identity ++ [new]⟩

/-- Drops all services of a slot. -/
def forget (r : Registry) (i : Identity) : Registry :=
  ⟨r.others i⟩

/-- All services, newest first. -/
def list (r : Registry) : List Service :=
  r.services.mergeSort Service.noOlder

inductive Change
  | record (service : Service)
  | supersede (service : Service)
  | forget (identity : Identity)
deriving DecidableEq

def Change.identity : Change → Identity
  | record s => s.identity
  | supersede s => s.identity
  | forget i => i

def apply (r : Registry) : Change → Registry
  | .record s => r.record s
  | .supersede s => r.supersede s
  | .forget i => r.forget i

theorem find_append (a b : List Service) (i : Identity) :
    find ⟨a ++ b⟩ i = find ⟨a⟩ i ++ find ⟨b⟩ i := by
  simp [find]

theorem find_others (r : Registry) (i j : Identity) :
    find ⟨r.others i⟩ j = if j = i then [] else r.find j := by
  unfold find others
  rw [List.filter_filter]
  by_cases h : j = i
  · subst h; simp
  · rw [if_neg h]
    apply List.filter_congr
    intro s _
    by_cases hs : s.identity = j
    · simp [hs, h]
    · simp [hs]

theorem find_forget (r : Registry) (i j : Identity) :
    (r.forget i).find j = if j = i then [] else r.find j :=
  find_others r i j

theorem find_supersede (r : Registry) (s : Service) (j : Identity) :
    (r.supersede s).find j = if j = s.identity then [s] else r.find j := by
  unfold supersede
  rw [find_append, find_others]
  by_cases h : j = s.identity
  · subst h; simp [find]
  · simp [find, h, Ne.symm h]

theorem identity_of_mem_update {new : Service} {i : Identity} :
    ∀ {l : List Service}, (∀ s ∈ l, s.identity = i) → new.identity = i →
      ∀ s ∈ update new l, s.identity = i
  | [], _, hn, s, hs => by simp [update] at hs; rw [hs]; exact hn
  | a :: l, hl, hn, s, hs => by
    unfold update at hs
    split at hs
    · rcases List.mem_cons.mp hs with rfl | hs
      · exact hn
      · exact hl s (List.mem_cons_of_mem _ hs)
    · rcases List.mem_cons.mp hs with rfl | hs
      · exact hl _ List.mem_cons_self
      · exact identity_of_mem_update (fun s h => hl s (List.mem_cons_of_mem _ h)) hn s hs

theorem find_record (r : Registry) (s : Service) (j : Identity) :
    (r.record s).find j =
      if j = s.identity then (update s (r.find j)).mergeSort Service.noOlder else r.find j := by
  unfold record
  rw [find_append, find_others]
  have hm : ∀ t ∈ (update s (r.find s.identity)).mergeSort Service.noOlder,
      t.identity = s.identity := by
    intro t ht
    rw [List.mem_mergeSort] at ht
    exact identity_of_mem_update (fun t h => by simpa [find] using (List.mem_filter.mp h).2) rfl t ht
  by_cases h : j = s.identity
  · subst h
    rw [if_pos rfl, if_pos rfl, List.nil_append]
    exact List.filter_eq_self.mpr fun t ht => by simpa using hm t ht
  · rw [if_neg h, if_neg h]
    have : find ⟨(update s (r.find s.identity)).mergeSort Service.noOlder⟩ j = [] :=
      List.filter_eq_nil_iff.mpr fun t ht => by simpa [hm t ht] using Ne.symm h
    rw [this, List.append_nil]

/-- A change leaves the services of other slots alone. -/
theorem find_apply_of_ne {r : Registry} {c : Change} {i : Identity} (h : i ≠ c.identity) :
    (r.apply c).find i = r.find i := by
  cases c with
  | record s => exact (find_record r s i).trans (if_neg h)
  | supersede s => exact (find_supersede r s i).trans (if_neg h)
  | forget j => exact (find_forget r j i).trans (if_neg h)

end Registry
end ServingLifecycle
