import ServingLifecycle.Text.Escaped
import ServingLifecycle.Value
/-!
# Numbers in TOML

Whole numbers of 64 bits in base ten, or without a sign in base sixteen, eight or two, and numbers with
a fraction or an exponent. Single underscores may stand between digits. No further digit follows a
leading zero, except in a fraction, an exponent or a base other than ten.
-/
namespace ServingLifecycle.Toml

/-- The digits of a group without the underscores between them. -/
def ungrouped? (isDigit : Char → Bool) : List Char → Option (List Char)
  | [] => none
  | [c] => if isDigit c then some [c] else none
  | c :: '_' :: rest => if isDigit c then (ungrouped? isDigit rest).map (c :: ·) else none
  | c :: rest => if isDigit c then (ungrouped? isDigit rest).map (c :: ·) else none

/-- The digits of a whole number in base ten. -/
def wholeDigits? (s : List Char) : Option (List Char) :=
  match ungrouped? Char.isDigit s with
  | some ('0' :: _ :: _) => none
  | ds => ds

/-- A number as it stands after its sign. -/
def signed (s : List Char) : Bool × List Char :=
  match s with
  | '-' :: rest => (true, rest)
  | '+' :: rest => (false, rest)
  | _ => (false, s)

def inRange (n : Int) : Bool :=
  -Int.pow 2 63 ≤ n && n < Int.pow 2 63

/-- A whole number in base ten. -/
def decimalInteger? (s : List Char) : Option Int := do
  let (negative, s) := signed s
  let ds ← wholeDigits? s
  let n : Int := Text.numberIn 10 ds
  let n := if negative then -n else n
  if inRange n then some n else none

/-- A whole number in another base. -/
def basedInteger? (base : Nat) (isDigit : Char → Bool) (s : List Char) : Option Int := do
  let ds ← ungrouped? isDigit s
  let n : Int := Text.numberIn base ds
  if inRange n then some n else none

def integer? : List Char → Option Int
  | '0' :: 'x' :: rest => basedInteger? 16 Text.isHexDigit rest
  | '0' :: 'o' :: rest => basedInteger? 8 (fun c => '0' ≤ c && c ≤ '7') rest
  | '0' :: 'b' :: rest => basedInteger? 2 (fun c => c == '0' || c == '1') rest
  | s => decimalInteger? s

/-- The least number that is rounded to infinity, one half of a unit above the largest double. -/
def overflowBound : Nat := Nat.pow 2 1024 - Nat.pow 2 970

/-- Whether `n * 10 ^ scale` is too large for a double. -/
def overflows (n : Nat) (scale : Int) : Bool :=
  let size : Int := (Nat.toDigits 10 n).length + scale
  if n = 0 then false
  else if size < 300 then false
  else if 320 < size then true
  else overflowBound * Nat.pow 10 (-scale).toNat ≤ n * Nat.pow 10 scale.toNat

def isExponentMark (c : Char) : Bool :=
  c == 'e' || c == 'E'

def exponent? (s : List Char) : Option Int := do
  let (negative, s) := signed s
  let n : Int := Text.numberIn 10 (← ungrouped? Char.isDigit s)
  return if negative then -n else n

/-- Whether a text is a number with a fraction or an exponent, or a name of infinity or of no number.
A number too large counts only below zero. -/
def isDecimal (s : List Char) : Bool :=
  let (negative, s) := signed s
  let fits (whole fraction : List Char) (exponent : Int) : Bool :=
    negative || !overflows (Text.numberIn 10 (whole ++ fraction)) (exponent - fraction.length)
  if s = "inf".toList ∨ s = "nan".toList then true
  else
    match wholeDigits? (s.takeWhile fun c => c != '.' && !isExponentMark c),
      s.dropWhile fun c => c != '.' && !isExponentMark c with
    | none, _ => false
    | some _, [] => false
    | some whole, '.' :: rest =>
      match ungrouped? Char.isDigit (rest.takeWhile fun c => !isExponentMark c),
        rest.dropWhile fun c => !isExponentMark c with
      | none, _ => false
      | some fraction, [] => fits whole fraction 0
      | some fraction, _ :: rest => (exponent? rest).any (fits whole fraction)
    | some whole, _ :: rest => (exponent? rest).any (fits whole [])

/-- The number that a text writes. -/
def number? (s : List Char) : Option Value :=
  match integer? s with
  | some n => some (.integer n)
  | none => if isDecimal s then some (.decimal (String.ofList s)) else none

end ServingLifecycle.Toml
