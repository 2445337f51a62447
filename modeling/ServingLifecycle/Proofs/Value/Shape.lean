import ServingLifecycle.Proofs.Value.Merge
import ServingLifecycle.Value.Reader
/-!
# Shapes of values

Where tables stand in a value that is to be read, and where values that can be read as something. Of values of one
shape laid over each other the shape stays the same, and each place that the shape speaks of is told by the newest
value that has something there.
-/
namespace ServingLifecycle.Value

/-- What is read from a path, if something that is no table stands there and can be read. -/
def readAt {α : Type} (v : Value) (read : Value → Reads α) (path : List String) : Option α :=
  (v.leaf? path).bind fun w => (read w).toOption

theorem readAt_append {α : Type} (v : Value) (read : Value → Reads α) (path rest : List String) :
    v.readAt read (path ++ rest) = (v.at? path).bind fun w => w.readAt read rest := by
  rw [readAt, leaf?_append, Option.bind_assoc]
  rfl

/-- Where tables stand and where values that can be read. -/
inductive Shape
  /-- a table, in which each key has a shape of its own -/
  | record (next : String → Shape)
  /-- something that is no table and can be read -/
  | value (reads : Value → Bool)
  /-- anything, since nothing asks for it -/
  | free

namespace Shape

variable {α : Type} {s : Shape} {v older newer w : Value} {path : List String} {read : Value → Reads α}

/-- What can be read in the given way. -/
def reading (read : Value → Reads α) : Shape :=
  value fun v => (read v).toOption.isSome

/-- Whether a value has tables, and what can be read, wherever the shape wants them. What is missing does no harm. -/
def Fits : Shape → Value → Prop
  | record next, v =>
    match v with
    | table t => ∀ e ∈ t, (next e.1).Fits e.2
    | _ => False
  | value reads, v => v.isTable = false ∧ reads v = true
  | free, _ => True

instance decidableFits : (s : Shape) → (v : Value) → Decidable (s.Fits v)
  | record next, table t =>
    have := fun e : String × Value => decidableFits (next e.1) e.2
    inferInstanceAs (Decidable (∀ e ∈ t, (next e.1).Fits e.2))
  | record _, null | record _, bool _ | record _, integer _ | record _, count _ | record _, decimal _
  | record _, character _ | record _, text _ | record _, list _ => .isFalse id
  | value reads, v => inferInstanceAs (Decidable (v.isTable = false ∧ reads v = true))
  | free, _ => .isTrue trivial

/-- The shape of what stands on a path. -/
def along (s : Shape) : List String → Shape
  | [] => s
  | key :: path =>
    match s with
    | record next => (next key).along path
    | _ => free
termination_by structural path => path

theorem along_append (s : Shape) (path rest : List String) : s.along (path ++ rest) = (s.along path).along rest := by
  induction path generalizing s with
  | nil => rfl
  | cons key path ih =>
    cases s with
    | record next => exact ih (next key)
    | value _ => cases rest <;> rfl
    | free => cases rest <;> rfl

theorem fits_record_iff {next : String → Shape} :
    (record next).Fits v ↔ ∃ t, v = table t ∧ ∀ e ∈ t, (next e.1).Fits e.2 := by
  cases v <;> simp [Fits]

theorem fits_reading {a : α} (plain : v.isTable = false) (h : read v = .ok a) : (reading read).Fits v :=
  ⟨plain, by simp only [h]; rfl⟩

theorem mem_of_lookup {t : List (String × Value)} {key : String} (h : t.lookup key = some v) : (key, v) ∈ t := by
  obtain ⟨before, after, rfl, -⟩ := List.lookup_eq_some_iff.mp h
  simp

/-- What stands on a path has the shape that belongs there. -/
theorem Fits.along (h : s.Fits v) (hw : v.at? path = some w) : (s.along path).Fits w := by
  induction path generalizing s v with
  | nil =>
    obtain rfl := Option.some.inj hw
    exact h
  | cons key path ih =>
    cases s with
    | record next =>
      obtain ⟨t, rfl, each⟩ := fits_record_iff.mp h
      obtain ⟨u, hu, hw⟩ := Option.bind_eq_some_iff.mp hw
      exact ih (each _ (mem_of_lookup hu)) hw
    | value _ => trivial
    | free => trivial

theorem Fits.merge (ho : s.Fits older) (hn : s.Fits newer) (inOrder : older.Ordered) (ordered : newer.Ordered) :
    s.Fits (older.merge newer) := by
  induction s generalizing older newer with
  | record next ih =>
    obtain ⟨old, rfl, eachOld⟩ := fits_record_iff.mp ho
    obtain ⟨new, rfl, eachNew⟩ := fits_record_iff.mp hn
    -- Each entry of the two tables together is one of the older, one of the newer, or one laid over the other.
    obtain ⟨oldInOrder, oldBelow⟩ := ordered_table_iff.mp inOrder
    obtain ⟨newInOrder, newBelow⟩ := ordered_table_iff.mp ordered
    rw [merge_table_table, fits_record_iff]
    refine ⟨_, rfl, ?_⟩
    rintro ⟨key, u⟩ he
    have hu := oldInOrder.mergeEntries.lookup_eq_some_iff.mpr he
    rw [lookup_mergeEntries newInOrder] at hu
    cases hv : new.lookup key with
    | none =>
      have old : (key, u) ∈ old := mem_of_lookup (by simpa [hv] using hu)
      exact eachOld _ old
    | some v =>
      have hu : atop (old.lookup key) v = u := by simpa [hv] using hu
      have new : (key, v) ∈ new := mem_of_lookup hv
      cases hw : old.lookup key with
      | none => exact (show v = u by simpa [hw] using hu) ▸ eachNew _ new
      | some w =>
        have old : (key, w) ∈ old := mem_of_lookup hw
        rw [hw, atop_some] at hu
        exact hu ▸ ih key (eachOld _ old) (eachNew _ new) (oldBelow _ old) (newBelow _ new)
  | value reads => rwa [merge_of_not_table hn.1]
  | free => trivial

theorem Fits.foldl_merge {base : Value} {layers : List Value} (hb : s.Fits base) (hl : ∀ v ∈ layers, s.Fits v)
    (inOrder : base.Ordered) (ordered : ∀ v ∈ layers, v.Ordered) : s.Fits (layers.foldl Value.merge base) := by
  induction layers generalizing base with
  | nil => exact hb
  | cons v layers ih =>
    obtain ⟨fits, rest⟩ := List.forall_mem_cons.mp hl
    obtain ⟨first, others⟩ := List.forall_mem_cons.mp ordered
    exact ih (hb.merge fits inOrder first) rest (inOrder.merge first) others

/-- On the way to a place that the shape speaks of there are only tables, so a value decides there if it has something
there and only then. -/
theorem Fits.settles_eq (h : s.Fits v) (hp : s.along path ≠ free) : v.settles path = (v.at? path).isSome := by
  induction path generalizing s v with
  | nil => rfl
  | cons key path ih =>
    cases s with
    | record next =>
      obtain ⟨t, rfl, each⟩ := fits_record_iff.mp h
      rw [settles_cons_table, at?_cons_table]
      cases hl : t.lookup key with
      | none => rfl
      | some w => exact ih (each _ (mem_of_lookup hl)) hp
    | value _ => exact absurd rfl hp
    | free => exact absurd rfl hp

theorem Fits.leaf?_isSome {reads : Value → Bool} (h : s.Fits v) (hp : s.along path = value reads) :
    (v.leaf? path).isSome = (v.at? path).isSome := by
  rw [leaf?]
  cases hw : v.at? path with
  | none => rfl
  | some w =>
    have fits := h.along hw
    rw [hp] at fits
    simp [Option.filter, fits.1]

/-- A place that the shape speaks of is taken if it was taken in one of the two values. -/
theorem at?_merge_isSome (h : s.Fits newer) (ordered : newer.Ordered) (hp : s.along path ≠ free) :
    ((older.merge newer).at? path).isSome = ((newer.at? path).isSome || (older.at? path).isSome) := by
  rw [at?_merge ordered, h.settles_eq hp]
  cases newer.at? path <;> rfl

theorem at?_foldl_merge_isSome {base : Value} {layers : List Value} (h : ∀ v ∈ layers, s.Fits v)
    (ordered : ∀ v ∈ layers, v.Ordered) (hp : s.along path ≠ free) :
    ((layers.foldl Value.merge base).at? path).isSome = true ↔
      (∃ v ∈ layers, (v.at? path).isSome = true) ∨ (base.at? path).isSome = true := by
  induction layers generalizing base with
  | nil => simp
  | cons v layers ih =>
    obtain ⟨fits, others⟩ := List.forall_mem_cons.mp h
    obtain ⟨first, rest⟩ := List.forall_mem_cons.mp ordered
    rw [List.foldl_cons, ih others rest, at?_merge_isSome fits first hp, Bool.or_eq_true]
    simp only [List.mem_cons, exists_eq_or_imp]
    exact or_left_comm.trans or_assoc.symm

/-- A value that can be read is told by the newer value if that has one there, and else by the older one. -/
theorem leaf?_merge_or {reads : Value → Bool} (h : s.Fits newer) (ordered : newer.Ordered)
    (hp : s.along path = value reads) :
    (older.merge newer).leaf? path = (newer.leaf? path).or (older.leaf? path) := by
  have spoken : s.along path ≠ free := by rw [hp]; nofun
  rw [leaf?_merge ordered, h.settles_eq spoken, ← h.leaf?_isSome hp]
  cases newer.leaf? path <;> rfl

/-- A value that can be read is told by the last of several layers that has one there. -/
theorem leaf?_foldl_merge_or {reads : Value → Bool} {base : Value} {layers : List Value}
    (h : ∀ v ∈ layers, s.Fits v) (ordered : ∀ v ∈ layers, v.Ordered) (hp : s.along path = value reads) :
    (layers.foldl Value.merge base).leaf? path =
      (layers.reverse.findSome? fun v => v.leaf? path).or (base.leaf? path) := by
  induction layers generalizing base with
  | nil => rfl
  | cons v layers ih =>
    obtain ⟨fits, others⟩ := List.forall_mem_cons.mp h
    obtain ⟨first, rest⟩ := List.forall_mem_cons.mp ordered
    rw [List.foldl_cons, ih others rest, leaf?_merge_or fits first hp, List.reverse_cons, List.findSome?_append,
      List.findSome?_singleton, Option.or_assoc]

theorem Fits.readAt_eq (h : s.Fits v) (hp : s.along path = reading read) :
    v.readAt read path = (v.at? path).bind fun w => (read w).toOption := by
  rw [readAt, leaf?]
  cases hw : v.at? path with
  | none => rfl
  | some w =>
    have fits := h.along hw
    rw [hp] at fits
    simp [Option.filter, fits.1]

theorem Fits.readAt_isSome (h : s.Fits v) (hp : s.along path = reading read) :
    (v.readAt read path).isSome = (v.leaf? path).isSome := by
  rw [readAt]
  cases hw : v.leaf? path with
  | none => rfl
  | some w =>
    have fits := h.along (Option.filter_eq_some_iff.mp hw).1
    rw [hp] at fits
    exact fits.2

end Shape
end ServingLifecycle.Value
