/-!
# Disks

The directory tree of one machine. A location is the list of names from the root down to a node, so
two locations are equal exactly when they are the same place. The root is always a directory. The
order of the entries stands for the order in which a directory lists its content.
-/
namespace ServingLifecycle

abbrev Location : Type := List String

abbrev Bytes : Type := List UInt8

inductive Node
  | directory
  | file (content : Bytes)
  | link (target : String)
deriving DecidableEq, Repr

/-- How long names and paths may be, in bytes; `none` where there is no limit. -/
structure PathLimits where
  name : Option Nat
  path : Option Nat
deriving DecidableEq, Repr

structure Disk where
  entries : List (Location × Node)
  /-- the directory that paths without a leading slash start from -/
  home : Location
  limits : PathLimits
deriving DecidableEq, Repr

namespace Disk

def get? (d : Disk) (loc : Location) : Option Node :=
  if loc = [] then some .directory else d.entries.lookup loc

/-- Puts a node at a location, in the place of what was there. -/
def put (d : Disk) (loc : Location) (node : Node) : Disk :=
  let rec place : List (Location × Node) → List (Location × Node)
    | [] => [(loc, node)]
    | (l, n) :: rest => if l = loc then (loc, node) :: rest else (l, n) :: place rest
  { d with entries := place d.entries }

/-- The name of an entry of a directory and what it is. -/
def childOf (loc : Location) (entry : Location × Node) : Option (String × Node) :=
  match entry.1.getLast? with
  | some name => if entry.1.dropLast = loc then some (name, entry.2) else none
  | none => none

def children (d : Disk) (loc : Location) : List (String × Node) :=
  d.entries.filterMap (childOf loc)

/-- Everything strictly below a location, with the names from there on, in the order of the names. -/
def below (d : Disk) (loc : Location) : List (Location × Node) :=
  (d.entries.filterMap fun entry =>
    if loc.isPrefixOf entry.1 ∧ entry.1 ≠ loc then some (entry.1.drop loc.length, entry.2) else none)
    |>.mergeSort fun a b => !List.lex b.1 a.1 fun x y => decide (x < y)

theorem lookup_place {loc : Location} {node : Node} (es : List (Location × Node)) (l : Location) :
    (put.place loc node es).lookup l = if l = loc then some node else es.lookup l := by
  induction es with
  | nil =>
    by_cases h : l = loc
    · simp [put.place, h]
    · simp [put.place, List.lookup_cons, beq_false_of_ne h, h]
  | cons e es ih =>
    obtain ⟨k, n⟩ := e
    unfold put.place
    by_cases hk : k = loc
    · subst hk
      by_cases h : l = k
      · simp [h]
      · simp [List.lookup_cons, beq_false_of_ne h, h]
    · by_cases h : l = k
      · subst h; simp [hk]
      · simp [hk, List.lookup_cons, beq_false_of_ne h, ih]

theorem get?_put {d : Disk} {loc l : Location} {node : Node} (h : loc ≠ []) :
    (d.put loc node).get? l = if l = loc then some node else d.get? l := by
  unfold get?
  by_cases hl : l = []
  · subst hl; simp [Ne.symm h]
  · simp only [if_neg hl]
    exact lookup_place d.entries l

@[simp] theorem home_put (d : Disk) (loc : Location) (node : Node) :
    (d.put loc node).home = d.home := rfl

@[simp] theorem limits_put (d : Disk) (loc : Location) (node : Node) :
    (d.put loc node).limits = d.limits := rfl

end Disk
end ServingLifecycle
