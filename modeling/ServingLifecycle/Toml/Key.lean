import ServingLifecycle.Toml.Text
/-!
# Keys in TOML

A key is one or more names with points between them. A name is made of letters, digits, underscores and
dashes, or is a text on one line. Blanks may stand around names.
-/
namespace ServingLifecycle.Toml

def isNameChar (c : Char) : Bool :=
  c.isAlphanum || c == '_' || c == '-'

def name? (s : List Char) : Option (String × List Char) :=
  match line? s with
  | some (text, rest) => some (String.ofList text, rest)
  | none =>
    let word := s.takeWhile isNameChar
    if word.isEmpty then none else some (String.ofList word, s.drop word.length)

/-- Tables nest less deeply than this, and keys have fewer names. -/
def depthLimit : Nat := 80

/-- The names of a key: those before the last, and the last. -/
structure Key where
  path : List String
  name : String
deriving DecidableEq, Repr

def Key.names (k : Key) : List String :=
  k.path ++ [k.name]

/-- Reads a key of at most `most` names. -/
def keyWithin : (most : Nat) → List Char → Option (Key × List Char)
  | 0, _ => none
  | most + 1, s =>
    match name? (skipGap s) with
    | none => none
    | some (name, rest) =>
      match skipGap rest with
      | '.' :: rest => (keyWithin most rest).map fun r => (⟨name :: r.1.path, r.1.name⟩, r.2)
      | rest => some (⟨[], name⟩, rest)

def key? (s : List Char) : Option (Key × List Char) :=
  keyWithin (depthLimit - 1) s

end ServingLifecycle.Toml
