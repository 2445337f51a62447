import ServingLifecycle.Text.Escaped
/-!
# Texts in TOML

Four ways to write a text. Between double quotes there are escapes, between apostrophes every character
stands for itself. Between three of either the text may run over several lines; a line end right after
the opening marks is left out, a backslash at the end of a line leaves out all blanks and line ends up to
the next character, and up to two marks may stand right before the closing ones.
-/
namespace ServingLifecycle.Toml

def isGap (c : Char) : Bool :=
  c == ' ' || c == '\t'

/-- Drops spaces and tabs. -/
def skipGap (s : List Char) : List Char :=
  s.dropWhile isGap

/-- What follows a line end, if there is one. -/
def newline? : List Char → Option (List Char)
  | '\n' :: rest => some rest
  | '\x0d' :: '\n' :: rest => some rest
  | _ => none

/-- The text up to the closing apostrophe. -/
def literal : List Char → Option (List Char × List Char)
  | [] => none
  | c :: rest =>
    if c = '\'' then some ([], rest)
    else if Text.isLegal c then (literal rest).map (Text.precede c)
    else none

/-- The marks that still belong to the text, and what follows the closing ones. -/
def closing? (mark : Char) (s : List Char) : Option (List Char × List Char) :=
  let run := (s.takeWhile (· == mark)).length
  if run < 3 then none
  else
    let kept := min (run - 3) 2
    some (List.replicate kept mark, s.drop (kept + 3))

/-- Drops blanks and line ends. -/
def skipLines : List Char → List Char
  | [] => []
  | c :: rest =>
    if isGap c ∨ c = '\n' then skipLines rest
    else
      match c, rest with
      | '\x0d', '\n' :: rest => skipLines rest
      | _, _ => c :: rest

/-- What follows a backslash at the end of a line, read after the backslash. -/
def continued? (s : List Char) : Option (List Char) :=
  (newline? (skipGap s)).map skipLines

def untilMarks (mark : Char) (escapes : Bool) : (most : Nat) → List Char → Option (List Char × List Char)
  | 0, _ => none
  | _ + 1, [] => none
  | most + 1, c :: rest =>
    match newline? (c :: rest) with
    | some rest => (untilMarks mark escapes most rest).map (Text.precede '\n')
    | none =>
      if c = mark then
        match closing? mark (c :: rest) with
        | some closed => some closed
        | none => (untilMarks mark escapes most rest).map (Text.precede c)
      else if escapes ∧ c = '\\' then
        match continued? rest with
        | some rest => untilMarks mark escapes most rest
        | none =>
          match Text.escape? rest with
          | some (e, rest) => (untilMarks mark escapes most rest).map (Text.precede e)
          | none => none
      else if Text.isLegal c then (untilMarks mark escapes most rest).map (Text.precede c)
      else none

/-- The text up to three closing marks. -/
def lines (mark : Char) (escapes : Bool) (s : List Char) : Option (List Char × List Char) :=
  let s := (newline? s).getD s
  untilMarks mark escapes s.length s

/-- A text on one line, as keys may be written too. -/
def line? : List Char → Option (List Char × List Char)
  | '"' :: rest => Text.escaped rest
  | '\'' :: rest => literal rest
  | _ => none

/-- A text in any of the four ways. -/
def text? : List Char → Option (List Char × List Char)
  | '"' :: '"' :: '"' :: rest => lines '"' true rest
  | '\'' :: '\'' :: '\'' :: rest => lines '\'' false rest
  | s => line? s

end ServingLifecycle.Toml
