import ServingLifecycle.Toml.Value
/-!
# Lines in TOML

A document is made of lines that give a key its value, start a table, or start the next table of a list,
and of lines that say nothing. A line ends with a comment, a line end or the end of the document.
-/
namespace ServingLifecycle.Toml

inductive Statement
  | entry (key : Key) (value : Value)
  | table (key : Key)
  | nextTable (key : Key)

/-- What follows the end of a line. -/
def lineEnd? (s : List Char) : Option (List Char) :=
  let s := match skipGap s with
    | '#' :: rest => rest.dropWhile Text.isLegal
    | s => s
  if s.isEmpty then some [] else newline? s

/-- What one line says, if anything, and what follows it. -/
def statement? (s : List Char) : Option (Option Statement × List Char) :=
  match skipGap s with
  | [] => some (none, [])
  | '#' :: rest => (lineEnd? ('#' :: rest)).map fun rest => (none, rest)
  | '\n' :: rest => some (none, rest)
  | '\x0d' :: rest => (newline? ('\x0d' :: rest)).map fun rest => (none, rest)
  | '[' :: '[' :: rest =>
    match key? rest with
    | some (key, ']' :: ']' :: rest) => (lineEnd? rest).map fun rest => (some (.nextTable key), rest)
    | _ => none
  | '[' :: rest =>
    match key? rest with
    | some (key, ']' :: rest) => (lineEnd? rest).map fun rest => (some (.table key), rest)
    | _ => none
  | s =>
    match pair? value? s with
    | some ((key, v), rest) => (lineEnd? rest).map fun rest => (some (.entry key v), rest)
    | none => none

/-- What up to `most` lines say, to the end of the document. -/
def statementsWithin : (most : Nat) → List Char → Option (List Statement)
  | 0, s => if s.isEmpty then some [] else none
  | most + 1, s =>
    if s.isEmpty then some []
    else
      match statement? s with
      | some (said, rest) => (statementsWithin most rest).map (said.toList ++ ·)
      | none => none

/-- What the lines of a document say. A byte order mark may stand at the start. -/
def statements? (s : List Char) : Option (List Statement) :=
  let s := match s with
    | '\ufeff' :: rest => rest
    | s => s
  statementsWithin s.length s

end ServingLifecycle.Toml
