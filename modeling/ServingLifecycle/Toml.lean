import ServingLifecycle.Toml.Statement
/-!
# TOML documents

A document is read line by line into a table. A line that gives a key its value speaks of the table that
was started last, and at first of the whole document.
-/
namespace ServingLifecycle.Toml

/-- A document up to some line. -/
structure Draft where
  root : Entries
  /-- where the table is that was started last -/
  current : List String

namespace Draft

def start : Draft := ⟨[], []⟩

/-- Takes up what a line says. -/
def take (d : Draft) : Statement → Option Draft
  | .entry key v =>
    (d.root.alter false (fun _ es => es.put key v) d.current .header).map fun root => { d with root := root }
  | .table key => (d.root.openTable key).map fun root => ⟨root, key.names⟩
  | .nextTable key => (d.root.openNext key).map fun root => ⟨root, key.names⟩

end Draft

/-- The table that a document writes, if it is one. -/
def parse? (text : String) : Option Value := do
  let lines ← statements? text.toList
  let d ← lines.foldlM Draft.take Draft.start
  return d.root.toValue

end ServingLifecycle.Toml
