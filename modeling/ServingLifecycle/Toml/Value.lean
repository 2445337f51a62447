import ServingLifecycle.Text.Series
import ServingLifecycle.Toml.Moment
import ServingLifecycle.Toml.Number
import ServingLifecycle.Toml.Table
/-!
# Values in TOML

A value is a text, a number, a moment, `true`, `false`, a list or a table between braces. Blanks, line
ends and comments may stand between the items of a list; a table between braces stays on one line and
has no comma after its last entry.
-/
namespace ServingLifecycle.Toml

/-- A character of a value that is written without marks. -/
def isBare (c : Char) : Bool :=
  c.isAlphanum || c == '_' || c == '-' || c == '+' || c == '.' || c == ':'

/-- The value that a bare word writes. -/
def word? (s : List Char) : Option Value :=
  if s = "true".toList then some (.bool true)
  else if s = "false".toList then some (.bool false)
  else if isMoment s then some (moment s)
  else number? s

/-- A value without marks. After a date with one space comes the time of that day. -/
def bare? (s : List Char) : Option (Value × List Char) :=
  let word := s.takeWhile isBare
  let rest := s.dropWhile isBare
  let plain := (word? word).map fun v => (v, rest)
  match isDate word, rest with
  | true, ' ' :: next =>
    let time := next.takeWhile isBare
    if time.isEmpty then plain
    else if isTimeWithOffset time then some (moment (word ++ ' ' :: time), next.dropWhile isBare)
    else none
  | _, _ => plain

/-- What follows a comment and its line end, read after the `#`. -/
def afterComment? (s : List Char) : Option (List Char) :=
  newline? (s.dropWhile Text.isLegal)

/-- Drops blanks, line ends and comments, up to `most` of them. -/
def skipBetween : (most : Nat) → List Char → List Char
  | 0, s => s
  | most + 1, s =>
    match skipGap s with
    | '#' :: rest =>
      match afterComment? rest with
      | some rest => skipBetween most rest
      | none => '#' :: rest
    | s =>
      match newline? s with
      | some rest => skipBetween most rest
      | none => s

def pair? (value : List Char → Option (Value × List Char)) (s : List Char) :
    Option ((Key × Value) × List Char) :=
  match key? s with
  | some (key, '=' :: rest) => (value (skipGap rest)).map fun r => ((key, r.1), r.2)
  | _ => none

/-- The entries of a table between braces, up to the closing one, laid over those before. -/
def braced (value : List Char → Option (Value × List Char)) :
    (most : Nat) → Entries → List Char → Option (Entries × List Char)
  | 0, _, _ => none
  | most + 1, entries, s =>
    match pair? value s with
    | none => none
    | some ((key, v), rest) =>
      match entries.put key v with
      | none => none
      | some entries =>
        match skipGap rest with
        | ',' :: rest => braced value most entries rest
        | '\x7d' :: rest => some (entries, rest)
        | _ => none

/-- Reads a value in which lists and tables nest up to `depth` times. -/
def valueWithin : (depth : Nat) → List Char → Option (Value × List Char)
  | 0, s =>
    match text? s with
    | some (text, rest) => some (.text (String.ofList text), rest)
    | none => bare? s
  | depth + 1, s =>
    match s with
    | '[' :: rest =>
      (Text.series (fun s => skipBetween s.length s) (valueWithin depth) ']' rest.length rest).map
        fun r => (.list r.1, r.2)
    | '\x7b' :: rest =>
      match skipGap rest with
      | '\x7d' :: rest => some (.table [], rest)
      | rest =>
        (braced (valueWithin depth) rest.length [] rest).map fun r => (r.1.toValue, r.2)
    | _ =>
      match text? s with
      | some (text, rest) => some (.text (String.ofList text), rest)
      | none => bare? s

def value? (s : List Char) : Option (Value × List Char) :=
  valueWithin (depthLimit - 1) s

end ServingLifecycle.Toml
