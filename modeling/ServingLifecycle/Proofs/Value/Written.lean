import ServingLifecycle.Proofs.Value.Reading
/-!
# Lists and tables read back

A list or a table of what is read back one by one is read back as a whole. A table comes back with its keys in order.
-/
namespace ServingLifecycle

open scoped List

namespace Reads

variable {α : Type} {x : Reads α} {a : α}

theorem ok_bind {β : Type} (a : α) (f : α → Reads β) : (Except.ok a >>= f) = f a := rfl

theorem toOption_eq_some : x.toOption = some a ↔ x = .ok a := by
  cases x <;> simp [Except.toOption]

end Reads

namespace Value

variable {α : Type} {key : String} {v : Value} {t entries : List (String × Value)}

/-- A table is in order if its keys are, whatever stands under them. -/
theorem inOrder_of_keys {keys : List String} (h : t.map Prod.fst = keys) (inOrder : keys.Pairwise (· < ·)) :
    InOrder t :=
  List.pairwise_map.mp (h ▸ inOrder)

/-- Where every key stands once, the order of the entries does not tell what is found under a key. -/
theorem lookup_of_perm {l m : List (String × α)} (keyed : (l.map Prod.fst).Nodup) (same : m ~ l) :
    m.lookup key = l.lookup key := by
  have found : ∀ {l : List (String × α)}, (l.map Prod.fst).Nodup →
      ∀ a, l.lookup key = some a ↔ (key, a) ∈ l := by
    intro l keyed a
    induction l with
    | nil => simp
    | cons e l ih =>
      obtain ⟨k, b⟩ := e
      obtain ⟨fresh, keyed⟩ : k ∉ l.map Prod.fst ∧ (l.map Prod.fst).Nodup := List.nodup_cons.mp keyed
      by_cases hk : key = k
      · subst hk
        have once : (key, a) ∉ l := fun later => fresh (List.mem_map.mpr ⟨_, later, rfl⟩)
        simp [once, eq_comm]
      · simp [List.lookup_cons, beq_false_of_ne hk, ih keyed, hk]
  refine Option.ext fun a => ?_
  rw [found ((same.map _).nodup_iff.mpr keyed), found keyed, same.mem_iff]

theorem perm_set (fresh : key ∉ t.map Prod.fst) : set key v t ~ (key, v) :: t := by
  induction t with
  | nil => exact .refl _
  | cons e t ih =>
    obtain ⟨k, w⟩ := e
    obtain ⟨other, fresh⟩ : key ≠ k ∧ key ∉ t.map Prod.fst := by simpa using fresh
    rw [set, if_neg (Ne.symm other)]
    split
    · exact .refl _
    · exact ((ih fresh).cons _).trans (.swap _ _ _)

/-- Entries with a key each are put in order, and none of them is lost. -/
theorem perm_sorted (keyed : (entries.map Prod.fst).Nodup) : sorted entries ~ entries := by
  have kept : ∀ t, ((t ++ entries).map Prod.fst).Nodup →
      entries.foldl (fun t e => set e.1 e.2 t) t ~ t ++ entries := by
    clear keyed
    induction entries with
    | nil => exact fun t _ => .of_eq (List.append_nil t).symm
    | cons e entries ih =>
      intro t distinct
      have middle : t ++ e :: entries ~ e :: t ++ entries := List.perm_middle
      have distinct : ((e :: t ++ entries).map Prod.fst).Nodup := (middle.map _).nodup_iff.mp distinct
      have fresh : e.1 ∉ t.map Prod.fst := by
        have first := (List.nodup_cons.mp distinct).1
        intro found
        exact first (by simpa using Or.inl (List.mem_map.mp found))
      have first : set e.1 e.2 t ~ e :: t := perm_set fresh
      have distinct : ((set e.1 e.2 t ++ entries).map Prod.fst).Nodup :=
        ((first.append_right entries).map _).nodup_iff.mpr distinct
      exact (ih _ distinct).trans ((first.append_right entries).trans middle.symm)
  exact kept [] keyed

theorem mapM_eq_filterMap {β : Type} {f : α → Option β} {l : List α} (h : ∀ a ∈ l, (f a).isSome = true) :
    l.mapM f = some (l.filterMap f) := by
  induction l with
  | nil => rfl
  | cons a l ih =>
    obtain ⟨first, rest⟩ := List.forall_mem_cons.mp h
    obtain ⟨b, hb⟩ := Option.isSome_iff_exists.mp first
    rw [List.mapM_cons, hb, ih rest, List.filterMap_cons, hb]
    rfl

/-- A table of values that are read back is read back, but for the order of its entries. -/
theorem asEntries_sorted {write : α → Value} {read : Value → Reads α} {l : List (String × α)}
    (back : ∀ a, read (write a) = .ok a) (keyed : (l.map Prod.fst).Nodup) :
    ∃ m, m ~ l ∧ ((table (sorted (l.map fun e => (e.1, write e.2)))).asEntries read).toOption = some m := by
  have ordered : sorted (l.map fun e => (e.1, write e.2)) ~ l.map fun e => (e.1, write e.2) :=
    perm_sorted (by rwa [List.map_map])
  generalize sorted (l.map fun e => (e.1, write e.2)) = t at ordered
  let one : String × Value → Option (String × α) := fun e => ((read e.2).toOption).map fun a => (e.1, a)
  have each : ∀ e : String × α, one (e.1, write e.2) = some e := by
    intro e
    simp [one, back]
  have readable : ∀ e ∈ t, (one e).isSome = true := by
    intro e he
    obtain ⟨a, -, rfl⟩ := List.mem_map.mp (ordered.subset he)
    rw [each]
    rfl
  have whole : (l.map fun e => (e.1, write e.2)).filterMap one = l := by
    have own : one ∘ (fun e => (e.1, write e.2)) = some := funext each
    rw [List.filterMap_map, own, List.filterMap_some]
  refine ⟨t.filterMap one, ?_, ?_⟩
  · calc t.filterMap one
        ~ (l.map fun e => (e.1, write e.2)).filterMap one := ordered.filterMap one
      _ = l := whole
  · rw [toOption_asEntries]
    exact mapM_eq_filterMap readable

/-- A list of values that are read back is read back. -/
theorem asItems_list {write : α → Value} {read : Value → Reads α} {l : List α}
    (back : ∀ a ∈ l, read (write a) = .ok a) : (list (l.map write)).asItems read = .ok l := by
  have from_place : ∀ n, ((l.map write).zipIdx n).mapM (fun e => (read e.1).under (toString e.2)) = .ok l := by
    induction l with
    | nil => exact fun n => rfl
    | cons a l ih =>
      intro n
      obtain ⟨first, rest⟩ := List.forall_mem_cons.mp back
      have later := ih rest (n + 1)
      rw [List.map_cons, List.zipIdx_cons, List.mapM_cons, first, later]
      rfl
  exact from_place 0

end Value

end ServingLifecycle
