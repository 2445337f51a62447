import ServingLifecycle.Proofs.Value.Merge
import ServingLifecycle.Toml
import ServingLifecycle.Value.Loose
/-!
# What is written has its keys in order

Each table that a document or a loosely written value holds has its keys in order, each once, however its entries stand
in the text. Tables of a document are put in order only when the document is finished, so what each line keeps is that
the values written up to there have their tables in order.
-/
namespace ServingLifecycle

open Value

namespace Text

variable {α : Type} {skip : List Char → List Char} {item : List Char → Option (α × List Char)} {close : Char}
  {P : α → Prop}

/-- What holds of each item that can be read holds of all items of a series. -/
theorem series_forall (h : ∀ s a rest, item s = some (a, rest) → P a) {most : Nat} {s : List Char} {items : List α}
    {rest : List Char} (hs : series skip item close most s = some (items, rest)) : ∀ a ∈ items, P a := by
  induction most generalizing s items rest with
  | zero => exact absurd hs nofun
  | succ most ih =>
    unfold series at hs
    cases hc : skip s with
    | nil => simp [hc] at hs
    | cons c after =>
      simp only [hc] at hs
      split at hs
      · obtain ⟨rfl, -⟩ := Prod.mk.inj (Option.some.inj hs)
        exact fun a ha => absurd ha List.not_mem_nil
      · cases hi : item (c :: after) with
        | none => simp [hi] at hs
        | some r =>
          have first : P r.1 := h _ r.1 r.2 hi
          cases hd : skip r.2 with
          | nil => simp [hi, hd] at hs
          | cons d after =>
            simp only [hi, hd] at hs
            split at hs
            · obtain ⟨more, hm, he⟩ := Option.map_eq_some_iff.mp hs
              obtain ⟨rfl, -⟩ := Prod.mk.inj he
              exact List.forall_mem_cons.mpr ⟨first, ih hm⟩
            · split at hs
              · obtain ⟨rfl, -⟩ := Prod.mk.inj (Option.some.inj hs)
                exact List.forall_mem_cons.mpr ⟨first, fun a ha => absurd ha List.not_mem_nil⟩
              · exact absurd hs nofun

end Text

namespace Value

variable {v : Value} {s rest : List Char} {depth : Nat}

theorem Loose.ordered_plain (s : List Char) : (plain s).Ordered := by
  refine ordered_of_not_table ?_
  unfold plain
  dsimp only
  split
  · rfl
  · split <;> rfl

theorem Loose.ordered_valueWithin (h : valueWithin depth s = some (v, rest)) : v.Ordered := by
  induction depth generalizing s v rest with
  | zero => exact absurd h nofun
  | succ depth ih =>
    obtain ⟨r, hr, he⟩ := Option.map_eq_some_iff.mp h
    obtain ⟨rfl, -⟩ := Prod.mk.inj he
    split at hr
    case h_1 => exact Option.some.inj hr ▸ ordered_of_not_table rfl
    case h_2 => exact Option.some.inj hr ▸ ordered_of_not_table rfl
    case h_3 =>
      split at hr
      case h_1 =>
        obtain ⟨pairs, hp, rfl⟩ := Option.map_eq_some_iff.mp hr
        refine ordered_sorted (Text.series_forall ?_ hp)
        intro s e after he
        unfold pair? at he
        split at he
        · exact absurd he nofun
        · obtain ⟨w, hw, he⟩ := Option.map_eq_some_iff.mp he
          obtain ⟨rfl, -⟩ := Prod.mk.inj he
          exact ih hw
      case h_2 =>
        obtain ⟨items, -, rfl⟩ := Option.map_eq_some_iff.mp hr
        exact ordered_of_not_table rfl
      case h_3 =>
        obtain ⟨chars, -, rfl⟩ := Option.map_eq_some_iff.mp hr
        exact ordered_of_not_table rfl
      case h_4 => exact Option.some.inj hr ▸ ordered_of_not_table rfl
      case h_5 => exact absurd hr nofun
      case h_6 => exact Option.some.inj hr ▸ Loose.ordered_plain _

/-- All tables of a loosely written value have their keys in order. -/
theorem ordered_ofLoose (text : String) : (ofLoose text).Ordered := by
  unfold ofLoose
  split
  · next v read => exact Loose.ordered_valueWithin read
  · exact ordered_of_not_table rfl

end Value

namespace Toml

mutual

/-- All values that were written have their tables in order. Lists of tables count as values that are no tables. -/
def Entry.Ordered : Entry → Prop
  | .value v => v.Ordered
  | .table _ entries => Entries.Ordered entries
  | .tables _ _ => True

def Entries.Ordered : List (String × Entry) → Prop
  | [] => True
  | (_, e) :: rest => e.Ordered ∧ Entries.Ordered rest

end

mutual

theorem Entry.ordered_toValue : (e : Entry) → e.Ordered → e.toValue.Ordered
  | .value _, h => h
  | .table _ entries, h => ordered_sorted (Entries.ordered_values entries h)
  | .tables _ _, _ => ordered_of_not_table rfl

theorem Entries.ordered_values : (entries : List (String × Entry)) → Entries.Ordered entries →
    ∀ e ∈ Entries.values entries, e.2.Ordered
  | [], _ => fun _ he => absurd he List.not_mem_nil
  | (_, e) :: rest, h =>
    List.forall_mem_cons.mpr ⟨Entry.ordered_toValue e h.1, Entries.ordered_values rest h.2⟩

end

namespace Entries

variable {entries es root : Entries} {key : String} {e : Entry} {k : Key} {v : Value} {path : List String}
  {pointed : Bool} {origin : Origin} {change : Origin → Entries → Option Entries}

theorem ordered_nil : Entries.Ordered [] := trivial

theorem Ordered.lookup (h : Entries.Ordered entries) (he : List.lookup key entries = some e) : e.Ordered := by
  induction entries with
  | nil => exact absurd he nofun
  | cons f entries ih =>
    rw [List.lookup_cons] at he
    split at he
    · exact Option.some.inj he ▸ h.1
    · exact ih h.2 he

theorem Ordered.set (h : Entries.Ordered entries) (he : e.Ordered) : Entries.Ordered (Entries.set key e entries) := by
  induction entries with
  | nil => exact ⟨he, trivial⟩
  | cons f entries ih =>
    unfold Entries.set
    split
    · exact ⟨he, h.2⟩
    · exact ⟨h.1, ih h.2⟩

/-- A change of one table that keeps this of the table keeps it of the document. -/
theorem Ordered.alter (hc : ∀ origin es es', Entries.Ordered es → change origin es = some es' → Entries.Ordered es')
    (h : Entries.Ordered entries) (hs : Entries.alter pointed change path origin entries = some es) :
    Entries.Ordered es := by
  induction path generalizing origin entries es with
  | nil => exact hc origin entries es h hs
  | cons key path ih =>
    unfold Entries.alter at hs
    split at hs
    case h_1 =>
      obtain ⟨made, hm, rfl⟩ := Option.map_eq_some_iff.mp hs
      exact h.set (ih ordered_nil hm)
    case h_2 => exact absurd hs nofun
    -- No path leads into a list of tables, so what is changed in one does not matter.
    case h_3 =>
      obtain ⟨made, -, rfl⟩ := Option.map_eq_some_iff.mp hs
      exact h.set trivial
    case h_4 found =>
      split at hs
      · exact absurd hs nofun
      · obtain ⟨made, hm, rfl⟩ := Option.map_eq_some_iff.mp hs
        exact h.set (ih (h.lookup found) hm)

theorem Ordered.put (h : Entries.Ordered entries) (hv : v.Ordered) (hs : Entries.put k v entries = some es) :
    Entries.Ordered es := by
  refine h.alter ?_ hs
  intro origin es es' ordered hs
  split at hs
  · exact absurd hs nofun
  · split at hs
    · exact absurd hs nofun
    · exact Option.some.inj hs ▸ ordered.set hv

theorem Ordered.openTable (h : Entries.Ordered root) (hs : Entries.openTable k root = some es) :
    Entries.Ordered es := by
  refine h.alter ?_ hs
  intro origin es es' ordered hs
  split at hs
  case h_1 => exact Option.some.inj hs ▸ ordered.set ordered_nil
  case h_2 sub found =>
    have below : Entries.Ordered sub := ordered.lookup found
    exact Option.some.inj hs ▸ ordered.set below
  case h_3 => exact absurd hs nofun

theorem Ordered.openNext (h : Entries.Ordered root) (hs : Entries.openNext k root = some es) :
    Entries.Ordered es := by
  refine h.alter ?_ hs
  intro origin es es' ordered hs
  split at hs
  case h_1 => exact Option.some.inj hs ▸ ordered.set trivial
  case h_2 => exact Option.some.inj hs ▸ ordered.set trivial
  case h_3 => exact absurd hs nofun

theorem Ordered.toValue (h : Entries.Ordered entries) : entries.toValue.Ordered :=
  ordered_sorted (ordered_values entries h)

end Entries

section Reading

variable {s rest : List Char} {v : Value} {depth most : Nat} {entries es : Entries}

theorem ordered_moment (s : List Char) : (moment s).Ordered :=
  ordered_singleton (ordered_of_not_table rfl)

theorem ordered_number (h : number? s = some v) : v.Ordered := by
  unfold number? at h
  split at h
  · exact Option.some.inj h ▸ ordered_of_not_table rfl
  · split at h
    · exact Option.some.inj h ▸ ordered_of_not_table rfl
    · exact absurd h nofun

theorem ordered_word (h : word? s = some v) : v.Ordered := by
  unfold word? at h
  split at h
  · exact Option.some.inj h ▸ ordered_of_not_table rfl
  · split at h
    · exact Option.some.inj h ▸ ordered_of_not_table rfl
    · split at h
      · exact Option.some.inj h ▸ ordered_moment s
      · exact ordered_number h

theorem ordered_bare (h : bare? s = some (v, rest)) : v.Ordered := by
  have plain : ∀ after, ((word? (s.takeWhile isBare)).map fun v => (v, after)) = some (v, rest) → v.Ordered := by
    intro after h
    obtain ⟨w, hw, he⟩ := Option.map_eq_some_iff.mp h
    exact (Prod.mk.inj he).1 ▸ ordered_word hw
  unfold bare? at h
  dsimp only at h
  split at h
  · split at h
    · exact plain _ h
    · split at h
      · exact (Prod.mk.inj (Option.some.inj h)).1 ▸ ordered_moment _
      · exact absurd h nofun
  · exact plain _ h

theorem ordered_pair {value : List Char → Option (Value × List Char)} {key : Key}
    (hv : ∀ s v rest, value s = some (v, rest) → v.Ordered) (h : pair? value s = some ((key, v), rest)) :
    v.Ordered := by
  unfold pair? at h
  split at h
  · obtain ⟨r, hr, he⟩ := Option.map_eq_some_iff.mp h
    obtain ⟨⟨rfl, rfl⟩, rfl⟩ : (_ = key ∧ r.1 = v) ∧ r.2 = rest := by simpa using he
    exact hv _ r.1 r.2 hr
  · exact absurd h nofun

theorem Entries.Ordered.braced {value : List Char → Option (Value × List Char)}
    (hv : ∀ s v rest, value s = some (v, rest) → v.Ordered) (ho : Entries.Ordered entries)
    (h : braced value most entries s = some (es, rest)) : Entries.Ordered es := by
  induction most generalizing entries s with
  | zero => exact absurd h nofun
  | succ most ih =>
    unfold Toml.braced at h
    split at h
    · exact absurd h nofun
    · next key v after found =>
      split at h
      · exact absurd h nofun
      · next more written =>
        have ordered : Entries.Ordered more := ho.put (ordered_pair hv found) written
        split at h
        · exact ih ordered h
        · exact (Prod.mk.inj (Option.some.inj h)).1 ▸ ordered
        · exact absurd h nofun

/-- A value that is no list and has no braces. -/
theorem ordered_unmarked (h : valueWithin 0 s = some (v, rest)) : v.Ordered := by
  unfold valueWithin at h
  split at h
  · exact (Prod.mk.inj (Option.some.inj h)).1 ▸ ordered_of_not_table rfl
  · exact ordered_bare h

theorem ordered_valueWithin (h : valueWithin depth s = some (v, rest)) : v.Ordered := by
  induction depth generalizing s v rest with
  | zero => exact ordered_unmarked h
  | succ depth ih =>
    unfold valueWithin at h
    split at h
    · obtain ⟨r, -, he⟩ := Option.map_eq_some_iff.mp h
      exact (Prod.mk.inj he).1 ▸ ordered_of_not_table rfl
    · split at h
      · exact (Prod.mk.inj (Option.some.inj h)).1 ▸ ordered_empty
      · obtain ⟨r, hr, he⟩ := Option.map_eq_some_iff.mp h
        have ordered : Entries.Ordered r.1 := Entries.ordered_nil.braced (fun _ _ _ => ih) hr
        exact (Prod.mk.inj he).1 ▸ ordered.toValue
    · exact ordered_unmarked h

/-- What a line gives a key has its tables in order. -/
def Statement.Ordered : Statement → Prop
  | .entry _ v => v.Ordered
  | .table _ => True
  | .nextTable _ => True

theorem ordered_statement {said : Option Statement} (h : statement? s = some (said, rest)) :
    ∀ st ∈ said, st.Ordered := by
  have only : ∀ {st : Option Statement} {x : Option (List Char)},
      x.map (fun after => (st, after)) = some (said, rest) → st = said := by
    intro st x h
    obtain ⟨after, -, he⟩ := Option.map_eq_some_iff.mp h
    exact (Prod.mk.inj he).1
  unfold statement? at h
  split at h
  case h_1 => exact (Prod.mk.inj (Option.some.inj h)).1 ▸ nofun
  case h_2 => exact only h ▸ nofun
  case h_3 => exact (Prod.mk.inj (Option.some.inj h)).1 ▸ nofun
  case h_4 => exact only h ▸ nofun
  case h_5 =>
    split at h
    · obtain rfl := only h
      simp [Statement.Ordered]
    · exact absurd h nofun
  case h_6 =>
    split at h
    · obtain rfl := only h
      simp [Statement.Ordered]
    · exact absurd h nofun
  case h_7 =>
    split at h
    · next key v after found =>
      obtain rfl := only h
      have ordered : v.Ordered := ordered_pair (fun _ _ _ => ordered_valueWithin) found
      simpa [Statement.Ordered] using ordered
    · exact absurd h nofun

theorem ordered_statements {said : List Statement} (h : statementsWithin most s = some said) :
    ∀ st ∈ said, st.Ordered := by
  induction most generalizing s said with
  | zero =>
    unfold statementsWithin at h
    split at h
    · obtain rfl := Option.some.inj h
      simp
    · exact absurd h nofun
  | succ most ih =>
    unfold statementsWithin at h
    split at h
    · obtain rfl := Option.some.inj h
      simp
    · split at h
      · next first after found =>
        obtain ⟨others, ho, rfl⟩ := Option.map_eq_some_iff.mp h
        intro st hst
        rcases List.mem_append.mp hst with hst | hst
        · exact ordered_statement found st (Option.mem_toList.mp hst)
        · exact ih ho st hst
      · exact absurd h nofun

theorem Draft.ordered_take {d d' : Draft} {st : Statement} (ho : Entries.Ordered d.root) (hst : st.Ordered)
    (h : d.take st = some d') : Entries.Ordered d'.root := by
  cases st with
  | entry key v =>
    obtain ⟨root, hr, rfl⟩ := Option.map_eq_some_iff.mp h
    exact ho.alter (fun _ _ _ ordered written => ordered.put hst written) hr
  | table key =>
    obtain ⟨root, hr, rfl⟩ := Option.map_eq_some_iff.mp h
    exact ho.openTable hr
  | nextTable key =>
    obtain ⟨root, hr, rfl⟩ := Option.map_eq_some_iff.mp h
    exact ho.openNext hr

theorem Draft.ordered_foldlM {d d' : Draft} {said : List Statement} (ho : Entries.Ordered d.root)
    (hs : ∀ st ∈ said, st.Ordered) (h : said.foldlM Draft.take d = some d') : Entries.Ordered d'.root := by
  induction said generalizing d with
  | nil => exact Option.some.inj h ▸ ho
  | cons st said ih =>
    obtain ⟨first, rest⟩ := List.forall_mem_cons.mp hs
    rw [List.foldlM_cons] at h
    obtain ⟨d₁, hd, h⟩ := Option.bind_eq_some_iff.mp h
    exact ih (Draft.ordered_take ho first hd) rest h

/-- All tables of a document have their keys in order. -/
theorem ordered_parse {text : String} (h : parse? text = some v) : v.Ordered := by
  obtain ⟨said, hs, h⟩ := Option.bind_eq_some_iff.mp h
  obtain ⟨d, hd, h⟩ := Option.bind_eq_some_iff.mp h
  obtain rfl := Option.some.inj h
  exact (Draft.ordered_foldlM Entries.ordered_nil (ordered_statements hs) hd).toValue

end Reading

end Toml
end ServingLifecycle
