import Mathlib.Data.List.Sort
import ServingLifecycle.Proofs.Value.Merge
import ServingLifecycle.Settings.Environment
/-!
# A single value among layers

A value below a path of keys may be laid over other values before or after them, as long as none of them has anything at
this path or in its way. So it makes no difference in which of several layers such a value stands.
-/
namespace ServingLifecycle.Value

open Environment

variable {key : String} {keys : List String} {u g older newer : Value} {t s new : List (String × Value)}

theorem at?_nested (u : Value) (keys : List String) : (nested keys u).at? keys = some u := by
  induction keys with
  | nil => rfl
  | cons key keys ih => simpa [nested, at?_cons_table] using ih

theorem settles_nested (u : Value) (keys : List String) : (nested keys u).settles keys = true := by
  induction keys with
  | nil => rfl
  | cons key keys ih => simpa [nested, settles_cons_table] using ih

/-- Tables with their keys in order are told by what is found under each key. -/
theorem InOrder.ext (hs : InOrder s) (ht : InOrder t) (h : ∀ key, s.lookup key = t.lookup key) : s = t := by
  have irrefl : Std.Irrefl fun e f : String × Value => e.1 < f.1 := ⟨fun e => String.lt_irrefl e.1⟩
  have antisymm : Std.Antisymm fun e f : String × Value => e.1 < f.1 :=
    ⟨fun e f before behind => absurd (String.lt_trans before behind) (String.lt_irrefl e.1)⟩
  refine List.Pairwise.eq_of_mem_iff hs ht ?_
  rintro ⟨key, v⟩
  rw [← hs.lookup_eq_some_iff, ← ht.lookup_eq_some_iff, h]

/-- The entries of a table, and none of what is no table or missing. -/
def entriesOf : Option Value → List (String × Value)
  | some (table t) => t
  | _ => []

theorem atop_table (older : Option Value) (h : InOrder new) :
    atop older (table new) = table (mergeEntries (entriesOf older) new) := by
  have alone : mergeEntries [] new = new := by
    refine InOrder.ext (InOrder.mergeEntries List.Pairwise.nil) h fun key => ?_
    rw [lookup_mergeEntries h]
    cases new.lookup key <;> rfl
  rcases older with _ | v
  · rw [atop_none, entriesOf, alone]
    exact nofun
  · cases hv : v.isTable with
    | true =>
      obtain ⟨old, rfl⟩ := isTable_iff.mp hv
      rw [atop_some, merge_table_table, entriesOf]
    | false =>
      rw [atop_some, not_table_merge hv, entriesOf, alone]
      rintro old same
      obtain rfl := Option.some.inj same
      exact absurd hv nofun

theorem inOrder_entriesOf {older : Option Value} (h : ∀ v ∈ older, v.Ordered) : InOrder (entriesOf older) := by
  unfold entriesOf
  split
  · exact (ordered_table_iff.mp (h _ rfl)).1
  · exact List.Pairwise.nil

theorem ordered_lookup {v : Value} (h : ∀ e ∈ t, e.2.Ordered) (hv : t.lookup key = some v) : v.Ordered := by
  obtain ⟨before, after, rfl, -⟩ := List.lookup_eq_some_iff.mp hv
  exact h (key, v) (by simp)

theorem ordered_of_mem_entriesOf {older : Option Value} (h : ∀ v ∈ older, v.Ordered) :
    ∀ e ∈ entriesOf older, e.2.Ordered := by
  unfold entriesOf
  split
  · exact (ordered_table_iff.mp (h _ rfl)).2
  · exact fun _ he => absurd he List.not_mem_nil

/-- What has nothing at a path or in its way is a table, with such entries under the first key. -/
theorem not_settles_cons (h : g.settles (key :: keys) = false) :
    ∃ t, g = table t ∧ ∀ v, t.lookup key = some v → v.settles keys = false := by
  cases ht : g.isTable with
  | false =>
    rw [settles_cons_of_not_table ht] at h
    exact absurd h nofun
  | true =>
    obtain ⟨t, rfl⟩ := isTable_iff.mp ht
    refine ⟨t, rfl, ?_⟩
    intro v hv
    rw [settles_cons_table, hv] at h
    exact h

/-- A value below a path can be laid over a value after one that leaves the path alone, or before it. -/
theorem atop_nested_merge (older : Option Value) (inOrder : ∀ v ∈ older, v.Ordered) (ordered : g.Ordered)
    (h : g.settles keys = false) : (atop older (nested keys u)).merge g = (atop older g).merge (nested keys u) := by
  induction keys generalizing older g with
  | nil => exact absurd h nofun
  | cons k keys ih =>
    obtain ⟨new, rfl, below⟩ := not_settles_cons h
    obtain ⟨sorted, each⟩ := ordered_table_iff.mp ordered
    have single : InOrder [(k, nested keys u)] := List.pairwise_singleton _ _
    have old := inOrder_entriesOf inOrder
    have nest : nested (k :: keys) u = table [(k, nested keys u)] := rfl
    rw [nest, atop_table older single, atop_table older sorted, merge_table_table, merge_table_table]
    refine congrArg table (InOrder.ext old.mergeEntries.mergeEntries old.mergeEntries.mergeEntries fun key => ?_)
    rw [lookup_mergeEntries sorted, lookup_mergeEntries single, lookup_mergeEntries single, lookup_mergeEntries sorted]
    by_cases hk : key = k
    · subst hk
      cases hw : new.lookup key with
      | none => simp
      | some w =>
        have stands : ∀ v ∈ (entriesOf older).lookup key, v.Ordered :=
          fun v => ordered_lookup (ordered_of_mem_entriesOf inOrder)
        have inner := ih _ stands (ordered_lookup each hw) (below w hw)
        simpa using inner
    · simp [List.lookup_cons, beq_false_of_ne hk]

/-- Laid over a value that leaves its path alone, and with it over another, a value below a path is laid over both. -/
theorem atop_merge_nested (older : Option Value) (inOrder : ∀ v ∈ older, v.Ordered) (ordered : g.Ordered)
    (h : g.settles keys = false) : atop older (g.merge (nested keys u)) = (atop older g).merge (nested keys u) := by
  induction keys generalizing older g with
  | nil => exact absurd h nofun
  | cons k keys ih =>
    obtain ⟨new, rfl, below⟩ := not_settles_cons h
    obtain ⟨sorted, each⟩ := ordered_table_iff.mp ordered
    have single : InOrder [(k, nested keys u)] := List.pairwise_singleton _ _
    have old := inOrder_entriesOf inOrder
    have nest : nested (k :: keys) u = table [(k, nested keys u)] := rfl
    rw [nest, merge_table_table, atop_table older sorted.mergeEntries, atop_table older sorted, merge_table_table]
    refine congrArg table (InOrder.ext old.mergeEntries old.mergeEntries.mergeEntries fun key => ?_)
    rw [lookup_mergeEntries sorted.mergeEntries, lookup_mergeEntries single, lookup_mergeEntries single,
      lookup_mergeEntries sorted]
    by_cases hk : key = k
    · subst hk
      cases hw : new.lookup key with
      | none => simp
      | some w =>
        have stands : ∀ v ∈ (entriesOf older).lookup key, v.Ordered :=
          fun v => ordered_lookup (ordered_of_mem_entriesOf inOrder)
        have inner := ih _ stands (ordered_lookup each hw) (below w hw)
        simpa using inner
    · simp [List.lookup_cons, beq_false_of_ne hk]

theorem merge_nested_merge (inOrder : older.Ordered) (ordered : g.Ordered) (h : g.settles keys = false) :
    (older.merge (nested keys u)).merge g = (older.merge g).merge (nested keys u) :=
  atop_nested_merge (some older) (by simpa using inOrder) ordered h

theorem merge_merge_nested (inOrder : older.Ordered) (ordered : g.Ordered) (h : g.settles keys = false) :
    older.merge (g.merge (nested keys u)) = (older.merge g).merge (nested keys u) :=
  atop_merge_nested (some older) (by simpa using inOrder) ordered h

/-- Values that leave a path alone leave it alone together. -/
theorem settles_merge (ordered : newer.Ordered) (ho : older.settles keys = false) (hn : newer.settles keys = false) :
    (older.merge newer).settles keys = false := by
  induction keys generalizing older newer with
  | nil => exact absurd ho nofun
  | cons k keys ih =>
    obtain ⟨old, rfl, belowOld⟩ := not_settles_cons ho
    obtain ⟨new, rfl, belowNew⟩ := not_settles_cons hn
    obtain ⟨sorted, each⟩ := ordered_table_iff.mp ordered
    rw [merge_table_table, settles_cons_table, lookup_mergeEntries sorted]
    cases hw : new.lookup k with
    | none =>
      cases hv : old.lookup k with
      | none => rfl
      | some v => exact belowOld v hv
    | some w =>
      cases hv : old.lookup k with
      | none => exact belowNew w hw
      | some v => exact ih (ordered_lookup each hw) (belowOld v hv) (belowNew w hw)

theorem settles_foldl_merge {base : Value} {layers : List Value} (hb : base.settles keys = false)
    (ordered : ∀ g ∈ layers, g.Ordered) (h : ∀ g ∈ layers, g.settles keys = false) :
    (layers.foldl merge base).settles keys = false := by
  induction layers generalizing base with
  | nil => exact hb
  | cons g layers ih =>
    obtain ⟨first, ordered⟩ := List.forall_mem_cons.mp ordered
    obtain ⟨own, h⟩ := List.forall_mem_cons.mp h
    exact ih (settles_merge first hb own) ordered h

/-- Among layers that leave its path alone a value below a path might as well be the last. -/
theorem foldl_merge_nested {base : Value} {layers : List Value} (hb : base.Ordered)
    (ordered : ∀ g ∈ layers, g.Ordered) (h : ∀ g ∈ layers, g.settles keys = false) :
    layers.foldl merge (base.merge (nested keys u)) = (layers.foldl merge base).merge (nested keys u) := by
  induction layers generalizing base with
  | nil => rfl
  | cons g layers ih =>
    obtain ⟨first, ordered⟩ := List.forall_mem_cons.mp ordered
    obtain ⟨own, h⟩ := List.forall_mem_cons.mp h
    rw [List.foldl_cons, merge_nested_merge hb first own, ih (hb.merge first) ordered h]
    rfl

end ServingLifecycle.Value
