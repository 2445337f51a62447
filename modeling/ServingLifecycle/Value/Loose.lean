import ServingLifecycle.Text.Blank
import ServingLifecycle.Text.Escaped
import ServingLifecycle.Text.Series
import ServingLifecycle.Value
/-!
# Loosely written values

The form in which values stand in variables of the environment. `true`, numbers, quoted texts,
characters between apostrophes, lists between brackets and tables between braces mean what they look
like; any other text stands for itself without the blanks around it. A text that begins like one of the
marked forms and does not go on like it stands for itself as a whole.
-/
namespace ServingLifecycle.Value.Loose

def isSpace (c : Char) : Bool :=
  c == ' ' || c == '\t' || c == '\n' || c == '\x0c' || c == '\x0d'

def skipSpace (s : List Char) : List Char :=
  s.dropWhile isSpace

/-- A character that may stand in a text without marks. -/
def isPlain (c : Char) : Bool :=
  !(c == ',' || c == '\x7b' || c == '\x7d' || c == '[' || c == ']')

def isKeyChar (c : Char) : Bool :=
  c.isAlphanum || c == '_' || c == '-'

/-- The number that decimal digits write. -/
def digits? (s : List Char) : Option Nat :=
  if s ≠ [] ∧ s.all Char.isDigit then some (Text.numberIn 10 s) else none

/-- A number of 64 bits without a minus sign. -/
def count? (s : List Char) : Option Nat :=
  let ds := match s with
    | '+' :: ds => digits? ds
    | ds => digits? ds
  ds.filter (· < Nat.pow 2 64)

/-- A number of 64 bits after a minus sign. -/
def negative? : List Char → Option Int
  | '-' :: ds => ((digits? ds).filter (· ≤ Nat.pow 2 63)).map fun n => -(n : Int)
  | _ => none

/-- An exponent after its mark: digits, perhaps after a sign. -/
def isExponent : List Char → Bool
  | '+' :: ds => (digits? ds).isSome
  | '-' :: ds => (digits? ds).isSome
  | ds => (digits? ds).isSome

/-- Whether a text is a number with a point in it. There are digits on at least one side of the point. -/
def isDecimal (s : List Char) : Bool :=
  let s := match s with
    | '+' :: rest => rest
    | '-' :: rest => rest
    | s => s
  match s.dropWhile Char.isDigit with
  | '.' :: rest =>
    let fraction := rest.takeWhile Char.isDigit
    ((s.takeWhile Char.isDigit) ++ fraction != []) &&
      match rest.drop fraction.length with
      | [] => true
      | c :: rest => (c == 'e' || c == 'E') && isExponent rest
  | _ => false

/-- What a text without marks stands for. -/
def plain (s : List Char) : Value :=
  let s := Text.trim s
  if isDecimal s then .decimal (String.ofList s)
  else
    match count? s, negative? s with
    | some n, _ => .count n
    | none, some n => .integer n
    | none, none => .text (String.ofList s)

/-- What follows the given text, if it stands first. -/
def after? (start s : List Char) : Option (List Char) :=
  if start.isPrefixOf s then some (s.drop start.length) else none

/-- A key of a table, with the space around it and the equals sign after it. -/
def key? (s : List Char) : Option (String × List Char) :=
  let finish (key rest : List Char) : Option (String × List Char) :=
    (after? ['='] (skipSpace rest)).map fun rest => (String.ofList key, rest)
  match skipSpace s with
  | '"' :: rest =>
    match Text.escaped rest with
    | some (key, rest) => finish key rest
    | none => none
  | s =>
    let key := s.takeWhile isKeyChar
    if key.isEmpty then none else finish key (s.drop key.length)

/-- A key, an equals sign and a value with the space around it. -/
def pair? (value : List Char → Option (Value × List Char)) (s : List Char) :
    Option ((String × Value) × List Char) :=
  match key? s with
  | none => none
  | some (key, rest) => (value rest).map fun r => ((key, r.1), r.2)

/-- Reads a value in which lists and tables nest up to `depth` times, with the space around it. -/
def valueWithin : (depth : Nat) → List Char → Option (Value × List Char)
  | 0, _ => none
  | depth + 1, s =>
    let marked : Option (Value × List Char) :=
      match after? "true".toList (skipSpace s), after? "false".toList (skipSpace s) with
      | some rest, _ => some (.bool true, rest)
      | none, some rest => some (.bool false, rest)
      | none, none =>
        match skipSpace s with
        | '\x7b' :: rest =>
          (Text.series id (pair? (valueWithin depth)) '\x7d' (rest.length + 1) rest).map
            fun r => (.table (Value.sorted r.1), r.2)
        | '[' :: rest =>
          (Text.series id (valueWithin depth) ']' (rest.length + 1) rest).map
            fun r => (.list r.1, r.2)
        | '"' :: rest => (Text.escaped rest).map fun r => (.text (String.ofList r.1), r.2)
        | '\'' :: c :: '\'' :: rest => some (.character c, rest)
        | '\'' :: _ => none
        | s => some (plain (s.takeWhile isPlain), s.dropWhile isPlain)
    marked.map fun r => (r.1, skipSpace r.2)

end Loose

/-- The value that a text writes loosely. -/
def ofLoose (text : String) : Value :=
  match Loose.valueWithin (text.length + 1) text.toList with
  | some (v, []) => v
  | _ => .text text

end ServingLifecycle.Value
