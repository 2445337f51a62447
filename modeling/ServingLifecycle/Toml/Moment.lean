import ServingLifecycle.Instant.Timestamp
import ServingLifecycle.Value
/-!
# Moments in TOML

A date, a time of day, or both with a `T` or one space between them and then perhaps an offset. Settings
have no use for moments; one that is given counts as a table with a single entry of its own.
-/
namespace ServingLifecycle.Toml

/-- Two digits below a bound. -/
def pairBelow (bound : Nat) (a b : Char) : Bool :=
  a.isDigit && b.isDigit && Instant.numberOf [a, b] < bound

def isDate : List Char → Bool
  | [a, b, c, d, '-', e, f, '-', g, h] =>
    let year := Instant.numberOf [a, b, c, d]
    let month := Instant.numberOf [e, f]
    let day := Instant.numberOf [g, h]
    [a, b, c, d, e, f, g, h].all Char.isDigit && 1 ≤ month && month ≤ 12 && 1 ≤ day
      && day ≤ Instant.daysInMonth year month
  | _ => false

/-- Digits after a point, or nothing; and what follows. -/
def afterFraction? : List Char → Option (List Char)
  | '.' :: rest =>
    match rest with
    | d :: _ => if d.isDigit then some (rest.dropWhile Char.isDigit) else none
    | [] => none
  | s => some s

/-- What follows a time of day. -/
def afterTime? : List Char → Option (List Char)
  | a :: b :: ':' :: c :: d :: ':' :: e :: f :: rest =>
    if pairBelow 24 a b && pairBelow 60 c d && pairBelow 61 e f then afterFraction? rest else none
  | _ => none

def isOffset : List Char → Bool
  | ['Z'] => true
  | ['z'] => true
  | [sign, a, b, ':', c, d] => (sign == '+' || sign == '-') && pairBelow 24 a b && pairBelow 60 c d
  | _ => false

/-- A time of day, perhaps with an offset. -/
def isTimeWithOffset (s : List Char) : Bool :=
  match afterTime? s with
  | some rest => rest.isEmpty || isOffset rest
  | none => false

/-- A moment without a space in it. -/
def isMoment (s : List Char) : Bool :=
  isDate s || afterTime? s == some []
    || (isDate (s.take 10) && (match s.drop 10 with
      | c :: rest => (c == 'T' || c == 't') && isTimeWithOffset rest
      | [] => false))

def moment (s : List Char) : Value :=
  .table [("$__toml_private_datetime", .text (String.ofList s))]

end ServingLifecycle.Toml
