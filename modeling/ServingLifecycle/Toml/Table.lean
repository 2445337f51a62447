import ServingLifecycle.Toml.Key
import ServingLifecycle.Value
/-!
# Tables in TOML

A table that is being written. Each table comes into being once: by a header of its own, by a header of
something below it, or by a key with points. One that came from a header below may still get a header;
a key with points goes on only through tables that came from keys with points or from headers below.
A table in a list of tables stands for the last one in it.
-/
namespace ServingLifecycle.Toml

inductive Origin
  /-- by its own header -/
  | header
  /-- by a header of something below it -/
  | implied
  /-- by a key with points -/
  | pointed
deriving DecidableEq, Repr

inductive Entry
  | value (v : Value)
  | table (origin : Origin) (entries : List (String × Entry))
  /-- a list of tables, each with a header -/
  | tables (earlier : List (List (String × Entry))) (latest : List (String × Entry))

abbrev Entries : Type := List (String × Entry)

namespace Entries

/-- Puts an entry in the place of the one with its key, or else at the end. -/
def set (key : String) (e : Entry) : Entries → Entries
  | [] => [(key, e)]
  | (k, f) :: rest => if k = key then (key, e) :: rest else (k, f) :: set key e rest

/-- Changes the table at a path, making the tables on the way that are missing. `pointed` tells whether
the path stands in a key with points or in a header. -/
def alter (pointed : Bool) (change : Origin → Entries → Option Entries) :
    (path : List String) → Origin → Entries → Option Entries
  | [], origin, entries => change origin entries
  | key :: path, _, entries =>
    match entries.lookup key with
    | none =>
      let origin : Origin := if pointed then .pointed else .implied
      (alter pointed change path origin []).map fun es => set key (.table origin es) entries
    | some (.value _) => none
    | some (.tables earlier latest) =>
      (alter pointed change path .header latest).map fun es => set key (.tables earlier es) entries
    | some (.table origin es) =>
      if pointed ∧ origin = .header then none
      else (alter pointed change path origin es).map fun es => set key (.table origin es) entries

/-- Gives a key that has no value yet its value. -/
def put (key : Key) (v : Value) (entries : Entries) : Option Entries :=
  alter true (fun origin es =>
    if key.path ≠ [] ∧ origin ≠ .pointed then none
    else if (es.lookup key.name).isSome then none
    else some (set key.name (.value v) es)) key.path .header entries

/-- Starts a table with a header of its own. -/
def openTable (key : Key) (root : Entries) : Option Entries :=
  alter false (fun _ es =>
    match es.lookup key.name with
    | none => some (set key.name (.table .header []) es)
    | some (.table .implied sub) => some (set key.name (.table .header sub) es)
    | some _ => none) key.path .header root

/-- Starts the next table of a list of tables. -/
def openNext (key : Key) (root : Entries) : Option Entries :=
  alter false (fun _ es =>
    match es.lookup key.name with
    | none => some (set key.name (.tables [] []) es)
    | some (.tables earlier latest) => some (set key.name (.tables (earlier ++ [latest]) []) es)
    | some _ => none) key.path .header root

end Entries

mutual

def Entry.toValue : Entry → Value
  | .value v => v
  | .table _ entries => .table (Value.sorted (Entries.values entries))
  | .tables earlier latest =>
    .list (Entries.lists earlier ++ [.table (Value.sorted (Entries.values latest))])

/-- The entries of a table as values. -/
def Entries.values : List (String × Entry) → List (String × Value)
  | [] => []
  | (key, e) :: rest => (key, e.toValue) :: Entries.values rest

def Entries.lists : List (List (String × Entry)) → List Value
  | [] => []
  | entries :: rest => .table (Value.sorted (Entries.values entries)) :: Entries.lists rest

end

/-- A finished table. -/
def Entries.toValue (entries : Entries) : Value :=
  .table (Value.sorted (Entries.values entries))

end ServingLifecycle.Toml
