import ServingLifecycle.Value
/-!
# Values laid over each other

What a path of keys leads to once a value is laid over another. The newer value decides on a path if it has something
there, or if something that is no table stands on the way; on all other paths the older one is left as it was. This
holds where no table of the newer value has a key twice, which is so when the keys of all tables stand in their order.
-/
namespace ServingLifecycle.Value

variable {key : String} {v older newer : Value} {t old new entries : List (String × Value)} {path : List String}

def isTable : Value → Bool
  | table _ => true
  | _ => false

theorem isTable_iff : v.isTable = true ↔ ∃ t, v = table t := by
  cases v <;> simp [isTable]

/-- The keys of a table stand in their order, each once. -/
def InOrder (t : List (String × Value)) : Prop :=
  t.Pairwise fun e f => e.1 < f.1

instance (t : List (String × Value)) : Decidable (InOrder t) :=
  inferInstanceAs (Decidable (t.Pairwise fun e f => e.1 < f.1))

theorem lookup_eq_none_of_lt (h : ∀ e ∈ t, key < e.1) : t.lookup key = none := by
  rw [List.lookup_eq_none_iff]
  intro e he
  have apart : key ≠ e.1 := by
    intro same
    exact String.lt_irrefl key (by simpa [← same] using h e he)
  simpa using apart

theorem InOrder.lookup_eq_some_iff (h : InOrder t) : t.lookup key = some v ↔ (key, v) ∈ t := by
  induction t with
  | nil => simp
  | cons e t ih =>
    obtain ⟨k, w⟩ := e
    obtain ⟨first, rest⟩ := List.pairwise_cons.mp h
    by_cases hk : key = k
    · subst hk
      have once : (key, v) ∉ t := fun hm => String.lt_irrefl key (first _ hm)
      simp [once, eq_comm]
    · simp [List.lookup_cons, beq_false_of_ne hk, ih rest, hk]

theorem mem_set {e : String × Value} (h : e ∈ set key v t) : e = (key, v) ∨ e ∈ t := by
  induction t with
  | nil => simpa [set] using h
  | cons f t ih =>
    obtain ⟨k, w⟩ := f
    unfold set at h
    split at h
    · exact (List.mem_cons.mp h).imp_right (List.mem_cons_of_mem _)
    · split at h
      · exact List.mem_cons.mp h
      · rcases List.mem_cons.mp h with rfl | h
        · exact Or.inr List.mem_cons_self
        · exact (ih h).imp_right (List.mem_cons_of_mem _)

theorem InOrder.set (h : InOrder t) (key : String) (v : Value) : InOrder (set key v t) := by
  induction t with
  | nil => exact List.pairwise_singleton _ _
  | cons e t ih =>
    obtain ⟨k, w⟩ := e
    obtain ⟨first, rest⟩ := List.pairwise_cons.mp h
    unfold Value.set
    split
    case isTrue same => exact List.pairwise_cons.mpr ⟨same ▸ first, rest⟩
    case isFalse other =>
      split
      case isTrue before =>
        refine List.pairwise_cons.mpr ⟨?_, h⟩
        intro e he
        rcases List.mem_cons.mp he with rfl | he
        · exact before
        · exact String.lt_trans before (first e he)
      case isFalse behind =>
        refine List.pairwise_cons.mpr ⟨?_, ih rest⟩
        intro e he
        rcases mem_set he with rfl | he
        · exact Std.lt_of_le_of_ne (String.not_lt.mp behind) other
        · exact first e he

theorem inOrder_sorted (entries : List (String × Value)) : InOrder (sorted entries) := by
  have kept : ∀ t, InOrder t → InOrder (entries.foldl (fun t e => set e.1 e.2 t) t) := by
    induction entries with
    | nil => exact fun t h => h
    | cons e entries ih => exact fun t h => ih _ (h.set e.1 e.2)
  exact kept [] List.Pairwise.nil

theorem mem_sorted {e : String × Value} (h : e ∈ sorted entries) : e ∈ entries := by
  have kept : ∀ t, e ∈ entries.foldl (fun t e => set e.1 e.2 t) t → e ∈ t ∨ e ∈ entries := by
    clear h
    induction entries with
    | nil => exact fun t h => Or.inl h
    | cons f entries ih =>
      intro t h
      rcases ih _ h with h | h
      · rcases mem_set h with rfl | h
        · exact Or.inr List.mem_cons_self
        · exact Or.inl h
      · exact Or.inr (List.mem_cons_of_mem _ h)
  exact (kept [] h).resolve_left List.not_mem_nil

/-- All tables that paths of keys lead to have their keys in order. -/
def Ordered (v : Value) : Prop :=
  ∀ path t, v.at? path = some (table t) → InOrder t

theorem at?_cons_table : (table t).at? (key :: path) = (t.lookup key).bind fun v => v.at? path := rfl

theorem at?_cons_of_not_table (h : v.isTable = false) : v.at? (key :: path) = none := by
  cases v <;> first | rfl | simp [isTable] at h

theorem at?_append (v : Value) (path rest : List String) :
    v.at? (path ++ rest) = (v.at? path).bind fun w => w.at? rest := by
  induction path generalizing v with
  | nil => rfl
  | cons key path ih =>
    cases v with
    | table t => simp only [List.cons_append, at?_cons_table, ih, Option.bind_assoc]
    | _ => rfl

theorem Ordered.of_at? {w : Value} (h : v.Ordered) (hw : v.at? path = some w) : w.Ordered := by
  intro rest t ht
  refine h (path ++ rest) t ?_
  rw [at?_append, hw]
  exact ht

theorem ordered_of_not_table (h : v.isTable = false) : v.Ordered := by
  intro path t ht
  cases path with
  | nil => rw [Option.some.inj ht] at h; simp [isTable] at h
  | cons key path => simp [at?_cons_of_not_table h] at ht

theorem ordered_table_iff : (table t).Ordered ↔ InOrder t ∧ ∀ e ∈ t, e.2.Ordered := by
  constructor
  · intro h
    have inOrder : InOrder t := h [] t rfl
    refine ⟨inOrder, ?_⟩
    intro e he path s hs
    refine h (e.1 :: path) s ?_
    rw [at?_cons_table, inOrder.lookup_eq_some_iff.mpr he]
    exact hs
  · rintro ⟨inOrder, below⟩ path s hs
    cases path with
    | nil => exact table.inj (Option.some.inj hs) ▸ inOrder
    | cons key path =>
      obtain ⟨w, hw, hs⟩ := Option.bind_eq_some_iff.mp hs
      exact below _ (inOrder.lookup_eq_some_iff.mp hw) path s hs

theorem ordered_empty : (table []).Ordered :=
  ordered_table_iff.mpr ⟨List.Pairwise.nil, fun _ he => absurd he List.not_mem_nil⟩

theorem ordered_singleton (h : v.Ordered) : (table [(key, v)]).Ordered := by
  refine ordered_table_iff.mpr ⟨List.pairwise_singleton _ _, ?_⟩
  intro e he
  obtain rfl := List.mem_singleton.mp he
  exact h

theorem ordered_sorted (h : ∀ e ∈ entries, e.2.Ordered) : (table (sorted entries)).Ordered :=
  ordered_table_iff.mpr ⟨inOrder_sorted entries, fun e he => h e (mem_sorted he)⟩

/-- A value laid over what stood in its place, if anything did. -/
def atop (older : Option Value) (v : Value) : Value :=
  older.elim v fun w => w.merge v

@[simp]
theorem atop_none (v : Value) : atop none v = v := rfl

@[simp]
theorem atop_some (older v : Value) : atop (some older) v = older.merge v := rfl

@[simp]
theorem merge_table_table : (table old).merge (table new) = table (mergeEntries old new) := by
  simp only [merge]

theorem merge_of_not_table (h : newer.isTable = false) : older.merge newer = newer := by
  cases newer <;> first | rfl | simp [isTable] at h

theorem not_table_merge (h : older.isTable = false) : older.merge newer = newer := by
  cases newer <;> first | rfl | (cases older <;> first | rfl | simp [isTable] at h)

theorem isTable_atop (older : Option Value) (v : Value) : (atop older v).isTable = v.isTable := by
  rcases older with _ | w
  · rfl
  · cases v <;> cases w <;> simp [merge, isTable]

theorem mergeEntries_cons (rest : List (String × Value)) :
    mergeEntries old ((key, v) :: rest) = mergeEntries (set key (atop (old.lookup key) v) old) rest := by
  rw [mergeEntries]
  cases old.lookup key <;> rfl

theorem InOrder.mergeEntries (h : InOrder old) : InOrder (mergeEntries old new) := by
  induction new generalizing old with
  | nil => simpa only [Value.mergeEntries] using h
  | cons e new ih =>
    rw [mergeEntries_cons]
    exact ih (h.set _ _)

/-- At each key the newer entry is laid over the older one. -/
theorem lookup_mergeEntries (h : InOrder new) : (mergeEntries old new).lookup key =
    ((new.lookup key).map (atop (old.lookup key))).or (old.lookup key) := by
  induction new generalizing old with
  | nil => simp [mergeEntries]
  | cons e new ih =>
    obtain ⟨k, v⟩ := e
    obtain ⟨first, rest⟩ := List.pairwise_cons.mp h
    rw [mergeEntries_cons, ih rest, lookup_set]
    by_cases hk : key = k
    · subst hk
      simp [lookup_eq_none_of_lt first]
    · simp [List.lookup_cons, beq_false_of_ne hk, hk]

/-- Whether a value that is laid over others decides on a path: it has something there, or has something that is
no table on the way. -/
def settles (v : Value) : List String → Bool
  | [] => true
  | key :: path =>
    match v with
    | table t => (t.lookup key).any fun w => w.settles path
    | _ => true

theorem settles_cons_table : (table t).settles (key :: path) = (t.lookup key).any fun v => v.settles path := rfl

theorem settles_cons_of_not_table (h : v.isTable = false) : v.settles (key :: path) = true := by
  cases v <;> first | rfl | simp [isTable] at h

/-- A value decides on all paths on which it has something. -/
theorem at?_of_not_settles (h : v.settles path = false) : v.at? path = none := by
  induction path generalizing v with
  | nil => simp [settles] at h
  | cons key path ih =>
    cases hv : v.isTable with
    | false => exact at?_cons_of_not_table hv
    | true =>
      obtain ⟨t, rfl⟩ := isTable_iff.mp hv
      rw [settles_cons_table] at h
      rw [at?_cons_table]
      cases hl : t.lookup key with
      | none => rfl
      | some w => exact ih (by simpa [hl] using h)

theorem at?_atop_none (newer : Value) (path : List String) : newer.at? path =
    if newer.settles path then (newer.at? path).map (atop none) else none := by
  split
  · cases newer.at? path <;> rfl
  · exact at?_of_not_settles (by simp_all)

/-- What stands on a path after one value was laid over another. -/
theorem at?_merge (h : newer.Ordered) : (older.merge newer).at? path =
    if newer.settles path then (newer.at? path).map (atop (older.at? path)) else older.at? path := by
  induction path generalizing older newer with
  | nil => rfl
  | cons key path ih =>
    cases hn : newer.isTable with
    | false => simp [merge_of_not_table hn, settles_cons_of_not_table hn, at?_cons_of_not_table hn]
    | true =>
      obtain ⟨new, rfl⟩ := isTable_iff.mp hn
      cases ho : older.isTable with
      | false =>
        rw [not_table_merge ho, at?_cons_of_not_table ho]
        exact at?_atop_none _ _
      | true =>
        obtain ⟨old, rfl⟩ := isTable_iff.mp ho
        obtain ⟨inOrder, below⟩ := ordered_table_iff.mp h
        rw [merge_table_table, at?_cons_table, lookup_mergeEntries inOrder]
        cases hl : new.lookup key with
        | none => simp [settles_cons_table, at?_cons_table, hl]
        | some v =>
          have ordered : v.Ordered := below _ (inOrder.lookup_eq_some_iff.mp hl)
          cases ho : old.lookup key with
          | none => simpa [settles_cons_table, at?_cons_table, hl, ho] using at?_atop_none v path
          | some w => simpa [settles_cons_table, at?_cons_table, hl, ho] using ih ordered

theorem Ordered.merge (ho : older.Ordered) (hn : newer.Ordered) : (older.merge newer).Ordered := by
  intro path t ht
  rw [at?_merge hn] at ht
  -- A table that is neither of the two is made of both, and entries that are set keep it in order.
  split at ht
  · obtain ⟨v, hv, he⟩ := Option.map_eq_some_iff.mp ht
    obtain ⟨new, rfl⟩ := isTable_iff.mp ((isTable_atop _ v).symm.trans (congrArg isTable he))
    cases hw : older.at? path with
    | none => exact hn path t (by rw [hv, ← he, hw, atop_none])
    | some w =>
      rw [hw, atop_some] at he
      cases ht : w.isTable with
      | false => exact hn path t (by rw [hv, ← he, not_table_merge ht])
      | true =>
        obtain ⟨old, rfl⟩ := isTable_iff.mp ht
        rw [merge_table_table] at he
        exact table.inj he ▸ (ho path old hw).mergeEntries
  · exact ho path t ht

/-- What stands on a path if it is no table. -/
def leaf? (v : Value) (path : List String) : Option Value :=
  (v.at? path).filter fun w => !w.isTable

theorem leaf?_empty (path : List String) : (table []).leaf? path = none := by
  cases path <;> rfl

theorem leaf?_append (v : Value) (path rest : List String) :
    v.leaf? (path ++ rest) = (v.at? path).bind fun w => w.leaf? rest := by
  rw [leaf?, at?_append]
  cases v.at? path <;> rfl

theorem leaf?_atop (older : Option Value) (v : Option Value) :
    (v.map (atop older)).filter (fun w => !w.isTable) = v.filter fun w => !w.isTable := by
  rcases v with _ | v
  · rfl
  · cases hv : v.isTable with
    | true => simp [Option.filter, isTable_atop, hv]
    | false =>
      have own : atop older v = v := by
        rcases older with _ | w
        · rfl
        · exact merge_of_not_table hv
      simp [own]

/-- On each path it is one of the two values alone that tells what leaf stands there. -/
theorem leaf?_merge (h : newer.Ordered) : (older.merge newer).leaf? path =
    if newer.settles path then newer.leaf? path else older.leaf? path := by
  rw [leaf?, at?_merge h]
  split
  · exact leaf?_atop _ _
  · rfl

theorem Ordered.foldl_merge {base : Value} {layers : List Value} (hb : base.Ordered) (h : ∀ v ∈ layers, v.Ordered) :
    (layers.foldl Value.merge base).Ordered := by
  induction layers generalizing base with
  | nil => exact hb
  | cons v layers ih =>
    obtain ⟨ordered, rest⟩ := List.forall_mem_cons.mp h
    exact ih (hb.merge ordered) rest

end ServingLifecycle.Value
