import ServingLifecycle.Proofs.Value.Merge
import ServingLifecycle.Value.Reader
/-!
# Reading records

What is read from a table, told by its entries alone: each field of a record by the entry under its name, and nothing
by the order in which the entries stand. Reading fails only if a field that is given cannot be read, or one that is
needed is not given.
-/
namespace ServingLifecycle

namespace Reads

variable {α β : Type} {x : Reads α}

@[simp]
theorem toOption_ok (a : α) : (Except.ok a : Reads α).toOption = some a := rfl

@[simp]
theorem toOption_pure (a : α) : (pure a : Reads α).toOption = some a := rfl

@[simp]
theorem toOption_bind (f : α → Reads β) : (x >>= f).toOption = x.toOption.bind fun a => (f a).toOption := by
  cases x <;> rfl

@[simp]
theorem toOption_functor_map (f : α → β) : (f <$> x).toOption = x.toOption.map f := by
  cases x <;> rfl

@[simp]
theorem toOption_map (f : α → β) : (x.map f).toOption = x.toOption.map f := by
  cases x <;> rfl

@[simp]
theorem toOption_under (key : String) : (x.under key).toOption = x.toOption := by
  cases x <;> rfl

@[simp]
theorem toOption_shallow : x.shallow.toOption = x.toOption := by
  cases x <;> rfl

end Reads

namespace Value

variable {α δ : Type} {t : List (String × Value)} {read : Value → Reads α}

/-- What is read under a key of a table. -/
def field (t : List (String × Value)) (read : Value → Reads α) (name : String) : Option α :=
  (t.lookup name).bind fun v => (read v).toOption

theorem toOption_asEntries (read : Value → Reads α) (t : List (String × Value)) :
    ((table t).asEntries read).toOption = t.mapM fun e => ((read e.2).toOption).map fun a => (e.1, a) := by
  rw [asEntries]
  induction t with
  | nil => rfl
  | cons e t ih =>
    simp only [List.mapM_cons, Reads.toOption_bind, Reads.toOption_map, Reads.toOption_under, Reads.toOption_pure, ih]
    rfl

theorem mapM_congr {β : Type} {f g : α → Option β} {l : List α} (h : ∀ a ∈ l, f a = g a) :
    l.mapM f = l.mapM g := by
  induction l with
  | nil => rfl
  | cons a l ih =>
    obtain ⟨first, rest⟩ := List.forall_mem_cons.mp h
    rw [List.mapM_cons, List.mapM_cons, first, ih rest]

theorem mapM_isSome_iff {β : Type} {f : α → Option β} {l : List α} :
    (l.mapM f).isSome = true ↔ ∀ a ∈ l, (f a).isSome = true := by
  induction l with
  | nil => simp
  | cons a l ih =>
    rw [List.mapM_cons, List.forall_mem_cons, ← ih]
    cases f a <;> cases l.mapM f <;> simp

/-- How one field of a record gets into a draft: it is read by itself, and no other field touches it. -/
structure Keeps (step : δ → String → Value → Reads δ) (names : List String) (read : Value → Reads α) (name : String)
    (get : δ → Option α) : Prop where
  own : ∀ d v, (step d name v).toOption.map get = (read v).toOption.map some
  other : ∀ d k v d', k ∈ names → k ≠ name → (step d k v).toOption = some d' → get d' = get d

namespace Keeps

variable {step : δ → String → Value → Reads δ} {names : List String} {name : String} {get : δ → Option α} {d d' : δ}
  {v : Value}

theorem isSome (h : Keeps step names read name get) : (step d name v).toOption.isSome = (read v).toOption.isSome := by
  simpa using congrArg Option.isSome (h.own d v)

theorem get_eq (h : Keeps step names read name get) (hs : (step d name v).toOption = some d') :
    get d' = (read v).toOption := by
  have own := h.own d v
  rw [hs] at own
  cases hr : (read v).toOption with
  | none => simp [hr] at own
  | some a => simpa [hr] using own

theorem readable {a : α} (h : Keeps step names read name get) (inOrder : InOrder t) (hv : (name, v) ∈ t)
    (ha : field t read name = some a) : (step d name v).toOption.isSome = true := by
  have here : field t read name = (read v).toOption := by
    rw [field, inOrder.lookup_eq_some_iff.mpr hv]
    rfl
  rw [h.isSome, ← here, ha]
  rfl

end Keeps

end Value

namespace GivenFields

open Value

variable {α δ : Type} {t : List (String × Value)} {read : Value → Reads α} {step : δ → String → Value → Reads δ}
  {names : List String} {name : String} {get : δ → Option α} {d d' : δ} {f : GivenFields}

@[simp]
theorem toOption_require (f : GivenFields) (name : String) (a : Option α) : (f.require name a).toOption = a := by
  cases a <;> rfl

/-- The fields of a record that are read from a table, one after the other. -/
def fill (step : δ → String → Value → Reads δ) (names : List String) (d : δ) (t : List (String × Value)) : Option δ :=
  (t.filter fun e => names.contains e.1).foldlM (fun d e => (step d e.1 e.2).toOption) d

theorem toOption_readInto {strict : Strictness} (hf : GivenFields.of strict names (table t) = .ok f) (d : δ) :
    (f.readInto d step).toOption = fill step names d t := by
  obtain rfl := Except.ok.inj hf
  rw [readInto, fill]
  induction t.filter (fun e => names.contains e.1) generalizing d with
  | nil => rfl
  | cons e t ih =>
    simp only [List.map_cons, List.foldlM_cons, Reads.toOption_bind, Reads.toOption_under]
    exact congrArg _ (funext fun d => ih d)

/-- A record that is read from a table is what is made of the filled draft. -/
theorem toOption_record {β : Type} {made : δ → Option β} (strict : Strictness)
    (step : δ → String → Value → Reads δ) (finish : GivenFields → δ → Reads β) (d : δ)
    (h : ∀ f d, (finish f d).toOption = made d) :
    (GivenFields.of strict names (table t) >>= fun f => f.readInto d step >>= finish f).toOption =
      (fill step names d t).bind made := by
  cases hf : GivenFields.of strict names (table t) with
  | error e => exact absurd hf nofun
  | ok f => simp [← toOption_readInto hf, h]

theorem fill_cons (e : String × Value) : fill step names d (e :: t) =
    if e.1 ∈ names then (step d e.1 e.2).toOption.bind fun d => fill step names d t else fill step names d t := by
  by_cases he : e.1 ∈ names <;> simp [fill, he, List.foldlM_cons]

/-- What a draft keeps of a field is what is read from the entry under its name. -/
theorem get_of_fill (keeps : Keeps step names read name get) (listed : name ∈ names) (h : InOrder t)
    (hd : fill step names d t = some d') : get d' = (field t read name).or (get d) := by
  induction t generalizing d with
  | nil =>
    obtain rfl := Option.some.inj hd
    rfl
  | cons e t ih =>
    obtain ⟨k, v⟩ := e
    obtain ⟨first, rest⟩ := List.pairwise_cons.mp h
    rw [fill_cons] at hd
    by_cases same : k = name
    · subst same
      rw [if_pos listed] at hd
      obtain ⟨d₁, hs, hd⟩ := Option.bind_eq_some_iff.mp hd
      -- No later entry has the name, so what is kept here stays.
      have once : field t read k = none := by rw [field, lookup_eq_none_of_lt first]; rfl
      have here : field ((k, v) :: t) read k = (read v).toOption := by simp [field]
      obtain ⟨a, ha⟩ := Option.isSome_iff_exists.mp (keeps.isSome.symm.trans (by rw [hs]; rfl))
      rw [ih rest hd, once, here, keeps.get_eq hs, ha]
      rfl
    · have skip : field ((k, v) :: t) read name = field t read name := by
        simp [field, List.lookup_cons, beq_false_of_ne (Ne.symm same)]
      rw [skip]
      split at hd
      case isTrue hk =>
        obtain ⟨d₁, hs, hd⟩ := Option.bind_eq_some_iff.mp hd
        rw [ih rest hd, keeps.other d k v d₁ hk same hs]
      case isFalse => exact ih rest hd

/-- All fields are read if each one that is given can be. -/
theorem fill_isSome (h : ∀ e ∈ t, e.1 ∈ names → ∀ d, (step d e.1 e.2).toOption.isSome = true) :
    (fill step names d t).isSome = true := by
  induction t generalizing d with
  | nil => rfl
  | cons e t ih =>
    obtain ⟨first, rest⟩ := List.forall_mem_cons.mp h
    rw [fill_cons]
    split
    case isTrue he =>
      obtain ⟨d₁, hs⟩ := Option.isSome_iff_exists.mp (first he d)
      rw [hs]
      exact ih rest
    case isFalse => exact ih rest

/-- Where all fields are read, each one that is given can be. -/
theorem step_of_fill {e : String × Value} (hd : fill step names d t = some d') (he : e ∈ t) (listed : e.1 ∈ names) :
    ∃ d, (step d e.1 e.2).toOption.isSome = true := by
  induction t generalizing d with
  | nil => exact absurd he List.not_mem_nil
  | cons f t ih =>
    rw [fill_cons] at hd
    rcases List.mem_cons.mp he with rfl | he
    · rw [if_pos listed] at hd
      obtain ⟨d₁, hs, -⟩ := Option.bind_eq_some_iff.mp hd
      exact ⟨d, by rw [hs]; rfl⟩
    · split at hd
      case isTrue =>
        obtain ⟨d₁, -, hd⟩ := Option.bind_eq_some_iff.mp hd
        exact ih hd he
      case isFalse => exact ih hd he

theorem field_isSome_of_fill {v : Value} (keeps : Keeps step names read name get) (listed : name ∈ names)
    (hd : fill step names d t = some d') (hv : t.lookup name = some v) : (field t read name).isSome = true := by
  obtain ⟨before, after, rfl, -⟩ := List.lookup_eq_some_iff.mp hv
  obtain ⟨d₁, hs⟩ := step_of_fill hd (e := (name, v)) (by simp) listed
  rw [field, hv, Option.bind_some, ← keeps.isSome, hs]

/-- What is made of the filled draft is told by the entries, if it needs all that are given to be read. -/
theorem fill_bind {β : Type} {made : δ → Option β} {told : Option β}
    (filled : ∀ d', fill step names d t = some d' → made d' = told)
    (needed : ∀ b, told = some b → ∀ e ∈ t, e.1 ∈ names → ∀ d, (step d e.1 e.2).toOption.isSome = true) :
    (fill step names d t).bind made = told := by
  cases hd : fill step names d t with
  | some d' => exact filled d' hd
  | none =>
    cases told with
    | none => rfl
    | some b =>
      have some := fill_isSome (d := d) (needed b rfl)
      rw [hd] at some
      exact absurd some nofun

end GivenFields
end ServingLifecycle
