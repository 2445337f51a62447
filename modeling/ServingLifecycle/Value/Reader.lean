import ServingLifecycle.Value
/-!
# Reading values

How a value of no fixed shape is read as one of a given shape. The first thing that does not fit is
the error, with the keys and places that lead to it. A record is read from a table by the names of its
fields, or from a list by their order; a choice by its name.
-/
namespace ServingLifecycle

inductive Misfit
  | invalidType
  | invalidValue
  | invalidLength (length : Nat)
  | unknownVariant (name : String)
  | missingField (name : String)
  | message (text : String)
  /-- a number left its range, and reading broke off -/
  | brokenOff (text : String)
deriving DecidableEq, Repr

structure ReadError where
  path : List String
  misfit : Misfit
deriving DecidableEq, Repr

abbrev Reads (α : Type) : Type := Except ReadError α

/-- How strictly documents of some kind are read. -/
structure Strictness where
  /-- a list must not hold more than is read from it -/
  exactLists : Bool
  /-- a table that stands for a choice has one entry -/
  exactChoices : Bool
deriving DecidableEq, Repr

namespace Reads

def fail {α : Type} (misfit : Misfit) : Reads α :=
  .error ⟨[], misfit⟩

/-- Places an error below a key. -/
def under {α : Type} (key : String) (r : Reads α) : Reads α :=
  r.mapError fun e => { e with path := key :: e.path }

/-- Leaves out where in a value the error is. -/
def shallow {α : Type} (r : Reads α) : Reads α :=
  r.mapError fun e => { e with path := [] }

end Reads

namespace Value

def asText : Value → Reads String
  | text s => .ok s
  | character c => .ok (String.singleton c)
  | _ => Reads.fail .invalidType

def asOptionalText : Value → Reads (Option String)
  | null => .ok none
  | v => v.asText.map some

/-- A whole number from `low` to `high`. -/
def asInteger (low high : Int) : Value → Reads Int
  | integer n => if low ≤ n ∧ n ≤ high then .ok n else Reads.fail .invalidValue
  | count n => if low ≤ n ∧ (n : Int) ≤ high then .ok n else Reads.fail .invalidValue
  | _ => Reads.fail .invalidType

def asNothing : Value → Reads Unit
  | null => .ok ()
  | _ => Reads.fail .invalidType

/-- The choice of a name. -/
def choose {α : Type} (choices : List (String × α)) (name : String) : Reads α :=
  match choices.lookup name with
  | some a => .ok a
  | none => Reads.fail (.unknownVariant name)

/-- A choice without content: its name, or a table from its name to nothing. -/
def asChoice {α : Type} (strict : Strictness) (choices : List (String × α)) : Value → Reads α
  | text s => choose choices s
  | table ((name, content) :: rest) =>
    if strict.exactChoices ∧ rest ≠ [] then Reads.fail .invalidValue
    else
      (choose choices name).bind fun a =>
        (content.asNothing.under name).map fun _ => a
  | _ => Reads.fail .invalidType

/-- The choice that a tag names. A number without a sign names a choice by its place. -/
def asTag {α : Type} (choices : List (String × α)) : Value → Reads α
  | text s => choose choices s
  | character c => choose choices (String.singleton c)
  | count n =>
    match choices[n]? with
    | some (_, a) => .ok a
    | none => Reads.fail .invalidValue
  | _ => Reads.fail .invalidType

def asItems {α : Type} (read : Value → Reads α) : Value → Reads (List α)
  | list items => items.zipIdx.mapM fun (v, i) => (read v).under (toString i)
  | _ => Reads.fail .invalidType

def asEntries {α : Type} (read : Value → Reads α) : Value → Reads (List (String × α))
  | table entries => entries.mapM fun (k, v) => ((read v).under k).map fun a => (k, a)
  | _ => Reads.fail .invalidType

end Value

/-- A value that is given for a field, and the key or place that it stands at. -/
structure GivenField where
  name : String
  place : String
  value : Value

/-- The values given for the fields of a record, in the order in which they stand. -/
structure GivenFields where
  names : List String
  given : List GivenField
  inList : Bool

namespace GivenFields

/-- Finds the fields of a record in a table or a list. Other entries of a table do not count. -/
def of (strict : Strictness) (names : List String) : Value → Reads GivenFields
  | .table entries =>
    .ok ⟨names, (entries.filter fun e => names.contains e.1).map fun e => ⟨e.1, e.1, e.2⟩, false⟩
  | .list items =>
    if strict.exactLists ∧ names.length < items.length then
      Reads.fail (.invalidLength items.length)
    else
      .ok ⟨names, (names.zip items).zipIdx.map fun (e, i) => ⟨e.1, toString i, e.2⟩, true⟩
  | _ => Reads.fail .invalidType

/-- Reads the fields one after the other into a draft. -/
def readInto {δ : Type} (f : GivenFields) (draft : δ) (read : δ → String → Value → Reads δ) :
    Reads δ :=
  f.given.foldlM (fun d g => (read d g.name g.value).under g.place) draft

/-- A field that has to be there. -/
def require {α : Type} (f : GivenFields) (name : String) : Option α → Reads α
  | some a => .ok a
  | none =>
    Reads.fail (if f.inList then .invalidLength (f.names.idxOf name) else .missingField name)

end GivenFields
end ServingLifecycle
