import ServingLifecycle.Proofs.Registry.History
/-!
# How often an id is recorded

The id of a service is looked for in the slot of the service alone. So the list of all services has an id once for each
slot that holds it: once in all if no two slots were given services with this id, and more often if two were and both
still hold theirs. Within a slot a service that is known takes its old place.
-/
namespace ServingLifecycle

/-- The slot and the id of a service. -/
def Service.slotId (s : Service) : Identity × Uuid :=
  (s.identity, s.uuid)

namespace Registry

open scoped List

variable {r : Registry} {changes : List Change} {services entries : List Service} {s t new : Service} {u : Uuid}

theorem list_perm (r : Registry) : r.list.Perm r.services :=
  List.mergeSort_perm _ _

/-- Where no slot holds an id twice, no slot and id come together twice. -/
theorem nodup_slotIds (h : Distinct ⟨services⟩) : (services.map Service.slotId).Nodup := by
  induction services with
  | nil => exact List.nodup_nil
  | cons a services ih =>
    have rest : Distinct ⟨services⟩ := by
      intro i
      have shorter : (find ⟨services⟩ i).Sublist (find ⟨a :: services⟩ i) :=
        (List.sublist_cons_self a services).filter _
      exact (h i).sublist (shorter.map _)
    have own := h a.identity
    simp only [find, List.filter_cons, decide_true, if_true, List.map_cons, List.nodup_cons] at own
    rw [List.map_cons, List.nodup_cons]
    refine ⟨?_, ih rest⟩
    intro found
    obtain ⟨b, hb, same⟩ := List.mem_map.mp found
    obtain ⟨hi, hu⟩ : b.identity = a.identity ∧ b.uuid = a.uuid := by simpa [Service.slotId] using same
    have again : a.uuid ∈ (services.filter fun s => s.identity = a.identity).map Service.uuid := by
      refine List.mem_map.mpr ⟨b, ?_, hu⟩
      simp [hb, hi]
    exact own.1 again

/-- An id stands once at most just when one slot alone holds it. -/
theorem count_uuid_le_one_iff (h : (services.map Service.slotId).Nodup) : (services.map Service.uuid).count u ≤ 1 ↔
    ∀ s ∈ services, ∀ t ∈ services, s.uuid = u → t.uuid = u → s.identity = t.identity := by
  have counted : (services.map Service.uuid).count u = (services.filter fun s => s.uuid = u).length := by
    rw [List.count_eq_countP, List.countP_map, List.countP_eq_length_filter]
    congr 2
  rw [counted]
  constructor
  · intro once s hs t ht hsu htu
    have hs' : s ∈ services.filter fun s => s.uuid = u := by simp [hs, hsu]
    have ht' : t ∈ services.filter fun s => s.uuid = u := by simp [ht, htu]
    obtain ⟨a, ha⟩ := List.length_eq_one_iff.mp (Nat.le_antisymm once (List.length_pos_of_mem hs'))
    rw [ha, List.mem_singleton] at hs' ht'
    rw [hs', ht']
  · intro one
    have distinct : ((services.filter fun s => s.uuid = u).map Service.slotId).Nodup :=
      h.sublist (List.filter_sublist.map _)
    cases hf : services.filter fun s => s.uuid = u with
    | nil => simp
    | cons a rest =>
      rw [hf, List.map_cons, List.nodup_cons] at distinct
      cases rest with
      | nil => simp
      | cons b rest =>
        have member : ∀ c ∈ a :: b :: rest, c ∈ services ∧ c.uuid = u := by
          intro c hc
          rw [← hf] at hc
          simpa using hc
        obtain ⟨ha, hau⟩ := member a (by simp)
        obtain ⟨hb, hbu⟩ := member b (by simp)
        have same : a.slotId = b.slotId := by
          simp [Service.slotId, one a ha b hb hau hbu, hau, hbu]
        exact absurd (by simp [same]) distinct.1

theorem mem_services_after : s ∈ (after changes).services ↔ LastGiven changes s := by
  have slot : s ∈ (after changes).services ↔ s ∈ (after changes).find s.identity := by simp [mem_find]
  rw [slot, mem_find_after]
  simp

/-- What a change gave was given by some change. -/
theorem LastGiven.given (h : LastGiven changes s) : ∃ c ∈ changes, c.given = some s := by
  obtain ⟨earlier, change, later, rfl, given, -⟩ := h
  exact ⟨change, by simp, given⟩

/-- A service in the place of the one with its id. -/
def replaced (new s : Service) : Service :=
  if s.slotId = new.slotId then new else s

theorem update_eq_map (distinct : (entries.map Service.uuid).Nodup) (own : ∀ s ∈ entries, s.identity = new.identity)
    (known : new.uuid ∈ entries.map Service.uuid) : update new entries = entries.map (replaced new) := by
  have slotId : ∀ s ∈ entries, (s.slotId = new.slotId ↔ s.uuid = new.uuid) := by
    intro s hs
    simp [Service.slotId, own s hs]
  induction entries with
  | nil => simp at known
  | cons a entries ih =>
    rw [List.map_cons, List.nodup_cons] at distinct
    obtain ⟨fresh, distinct⟩ := distinct
    obtain ⟨_, own⟩ := List.forall_mem_cons.mp own
    obtain ⟨first, slotId⟩ := List.forall_mem_cons.mp slotId
    rw [update, List.map_cons, replaced]
    by_cases hu : a.uuid = new.uuid
    · -- No later entry has the id, so all of them stay.
      have stay : entries.map (replaced new) = entries := by
        refine List.map_congr_left (fun s hs => ?_) |>.trans (List.map_id entries)
        have apart : s.uuid ≠ new.uuid := by
          intro same
          exact fresh (hu ▸ same ▸ List.mem_map_of_mem hs)
        simp [replaced, slotId s hs, apart]
      rw [if_pos hu, if_pos (first.mpr hu), stay]
    · have later : new.uuid ∈ entries.map Service.uuid := by
        simpa [Ne.symm hu] using known
      rw [if_neg hu, if_neg (mt first.mp hu), ih distinct own later slotId]

/-- A service that is known in its slot takes the place of what was known of it, and nothing else changes. -/
theorem record_known (distinct : r.Distinct) (known : ∃ s ∈ r.services, s.slotId = new.slotId) :
    (r.record new).services.Perm (r.services.map (replaced new)) := by
  have here : new.uuid ∈ (r.find new.identity).map Service.uuid := by
    obtain ⟨s, hs, same⟩ := known
    obtain ⟨hi, hu⟩ : s.identity = new.identity ∧ s.uuid = new.uuid := by simpa [Service.slotId] using same
    exact List.mem_map.mpr ⟨s, mem_find.mpr ⟨hs, hi⟩, hu⟩
  have others : (r.others new.identity).map (replaced new) = r.others new.identity := by
    refine (List.map_congr_left fun s hs => ?_).trans (List.map_id _)
    have apart : s.identity ≠ new.identity := by simpa using (List.mem_filter.mp hs).2
    simp [replaced, Service.slotId, apart]
  have slots : (r.others new.identity ++ r.find new.identity).Perm r.services := by
    have split := List.filter_append_perm (fun s : Service => decide (s.identity ≠ new.identity)) r.services
    simpa [Registry.others, find] using split
  calc (r.record new).services
      = r.others new.identity ++ (update new (r.find new.identity)).mergeSort Service.noOlder := rfl
    _ ~ r.others new.identity ++ update new (r.find new.identity) := (List.mergeSort_perm _ _).append_left _
    _ = (r.others new.identity ++ r.find new.identity).map (replaced new) := by
        rw [update_eq_map (distinct _) (fun s => identity_of_mem_find) here, List.map_append, others]
    _ ~ r.services.map (replaced new) := slots.map _

/-- An id stands in the list of all services once at most just when no two slots hold services with it that were given
last; so it is if services with one id are always given to one slot. A service that its slot knows takes the place
there of what was known of it. -/
theorem recorded_once_in_a_slot (changes : List Change) :
    (∀ u, ((after changes).list.map Service.uuid).count u ≤ 1 ↔
        ∀ s t, LastGiven changes s → LastGiven changes t → s.uuid = u → t.uuid = u → s.identity = t.identity)
      ∧ ((after changes).list.map Service.slotId).Nodup
      ∧ ((∀ c ∈ changes, ∀ d ∈ changes, ∀ s ∈ c.given, ∀ t ∈ d.given, s.uuid = t.uuid → s.identity = t.identity) →
          ((after changes).list.map Service.uuid).Nodup)
      ∧ ∀ new, (∃ s ∈ (after changes).list, s.slotId = new.slotId) →
          (after (changes ++ [.record new])).list.Perm ((after changes).list.map (replaced new)) := by
  have listed := list_perm (after changes)
  have slotIds : ((after changes).services.map Service.slotId).Nodup := nodup_slotIds (distinct_after changes)
  have once : ∀ u, ((after changes).list.map Service.uuid).count u ≤ 1 ↔
      ∀ s t, LastGiven changes s → LastGiven changes t → s.uuid = u → t.uuid = u → s.identity = t.identity := by
    intro u
    rw [(listed.map _).count_eq, count_uuid_le_one_iff slotIds]
    simp only [mem_services_after]
    tauto
  refine ⟨once, (listed.map _).nodup_iff.mpr slotIds, fun apart => ?_, fun new known => ?_⟩
  · refine List.nodup_iff_count_le_one.mpr fun u => (once u).mpr fun s t hs ht hsu htu => ?_
    obtain ⟨c, hc, givenS⟩ := hs.given
    obtain ⟨d, hd, givenT⟩ := ht.given
    exact apart c hc d hd s givenS t givenT (hsu.trans htu.symm)
  · obtain ⟨s, hs, same⟩ := known
    rw [after_concat]
    calc ((after changes).record new).list
        ~ ((after changes).record new).services := list_perm _
      _ ~ (after changes).services.map (replaced new) :=
          record_known (distinct_after changes) ⟨s, listed.subset hs, same⟩
      _ ~ (after changes).list.map (replaced new) := (listed.symm.map _)

/-- A service that stopped takes the place of what was known of it while it ran. -/
theorem recorded_once_in_a_slot_stopped :
    (∃ s ∈ (after [.record (Service.sample 1 .running)]).list, s.slotId = (Service.sample 1 .stopped).slotId)
      ∧ (after [.record (Service.sample 1 .running), .record (Service.sample 1 .stopped)]).list =
          [Service.sample 1 .stopped] := by
  have held : (after [.record (Service.sample 1 .running)]).list = [Service.sample 1 .running] := by
    change (empty.record (Service.sample 1 .running)).list = _
    rw [record_empty]
    exact List.mergeSort_singleton _
  have known : ∃ s ∈ (after [.record (Service.sample 1 .running)]).list,
      s.slotId = (Service.sample 1 .stopped).slotId := by
    rw [held]
    exact ⟨_, List.mem_singleton_self _, rfl⟩
  obtain ⟨-, -, -, renewed⟩ := recorded_once_in_a_slot [.record (Service.sample 1 .running)]
  have place := renewed _ known
  rw [held] at place
  exact ⟨known, List.perm_singleton.mp place⟩

/-- A service of another slot than the sample with the same number. -/
def strayed (n : Nat) (state : ServiceState) : Service :=
  { Service.sample n state with identity := ⟨"iris", "train", "regressor"⟩ }

theorem record_beside (h : s.identity ≠ new.identity) : record ⟨[s]⟩ new = ⟨[s, new]⟩ := by
  simp [record, others, find, update, h]

/-- A service that comes again under another slot does not take the place of what was known of it. -/
theorem id_recorded_twice : ¬∀ changes : List Change, ((after changes).list.map Service.uuid).Nodup := by
  intro once
  have held : after [.record (Service.sample 1 .running), .record (strayed 1 .stopped)] =
      ⟨[Service.sample 1 .running, strayed 1 .stopped]⟩ := by
    change (empty.record (Service.sample 1 .running)).record (strayed 1 .stopped) = _
    rw [record_empty, record_beside (by decide)]
  have both := once [.record (Service.sample 1 .running), .record (strayed 1 .stopped)]
  rw [held, ((list_perm _).map _).nodup_iff] at both
  have same : (Service.sample 1 .running).uuid = (strayed 1 .stopped).uuid := rfl
  simp [same] at both

end Registry
end ServingLifecycle
