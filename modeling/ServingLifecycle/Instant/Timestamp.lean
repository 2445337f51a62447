import ServingLifecycle.Instant
import ServingLifecycle.Text.Blank
/-!
# Timestamps

The internet form of an instant: `2024-01-01T00:00:00Z`, with 0, 3, 6 or 9 digits of the second's
fraction. It is written in universal time. Reading also takes a space or a small `t` between date and
time, blanks around the fields, any offset of less than a day and any number of fraction digits, of
which nine count.
-/
namespace ServingLifecycle.Instant

/-- Exactly `width` decimal digits of `n`, the last ones if there are more. -/
def digits (n : Nat) : Nat → List Char
  | 0 => []
  | width + 1 => digits (n / 10) width ++ [Nat.digitChar (n % 10)]

/-- Four digits, or a sign and at least four digits outside the years 0 to 9999. -/
def yearText (year : Int) : List Char :=
  if 0 ≤ year ∧ year ≤ 9999 then digits year.toNat 4
  else
    let n := year.natAbs
    (if year < 0 then '-' else '+') :: (if n ≤ 9999 then digits n 4 else Nat.toDigits 10 n)

/-- The fraction of a second in the fewest groups of three digits. -/
def fractionText (nanos : Nat) : List Char :=
  if nanos = 0 then []
  else if nanos % 1000000 = 0 then '.' :: digits (nanos / 1000000) 3
  else if nanos % 1000 = 0 then '.' :: digits (nanos / 1000) 6
  else '.' :: digits nanos 9

def timestampChars (i : Instant) : List Char :=
  yearText i.year ++ '-' :: digits i.month 2 ++ '-' :: digits i.day 2 ++ 'T' :: digits i.hour 2
    ++ ':' :: digits i.minute 2 ++ ':' :: digits i.second 2 ++ fractionText i.nanos ++ ['Z']

def timestamp (i : Instant) : String :=
  String.ofList i.timestampChars

def numberOf (ds : List Char) : Nat :=
  ds.foldl (fun n c => n * 10 + (c.toNat - '0'.toNat)) 0

/-- Blanks, then one to `most` digits. -/
def readNumber (most : Nat) (cs : List Char) : Option (Nat × List Char) :=
  let cs := Text.trimStart cs
  let ds := (cs.take most).takeWhile Char.isDigit
  if ds.isEmpty then none else some (numberOf ds, cs.drop ds.length)

/-- Blanks, then a year: up to four digits, or any number of them after a sign. -/
def readYear (cs : List Char) : Option (Int × List Char) :=
  let signed (sign : Int) (cs : List Char) : Option (Int × List Char) :=
    let ds := cs.takeWhile Char.isDigit
    if ds.isEmpty then none else some (sign * numberOf ds, cs.drop ds.length)
  match Text.trimStart cs with
  | '-' :: rest => signed (-1) rest
  | '+' :: rest => signed 1 rest
  | cs => (readNumber 4 cs).map fun (n, rest) => ((n : Int), rest)

/-- Blanks, then the given character. -/
def readMark (mark : Char) (cs : List Char) : Option (List Char) :=
  match Text.trimStart cs with
  | c :: rest => if c = mark then some rest else none
  | [] => none

/-- The letter or space between date and time. -/
def readSeparator : List Char → Option (List Char)
  | c :: rest => if c = 'T' ∨ c = 't' ∨ c = ' ' then some rest else none
  | [] => none

/-- A point and digits, of which the first nine count, or nothing. -/
def readFraction : List Char → Option (Nat × List Char)
  | '.' :: rest =>
    let ds := rest.takeWhile Char.isDigit
    if ds.isEmpty then none
    else some (numberOf (ds.take 9) * Nat.pow 10 (9 - (ds.take 9).length), rest.drop ds.length)
  | cs => some (0, cs)

/-- Two digits. -/
def readPair : List Char → Option (Nat × List Char)
  | a :: b :: rest => if a.isDigit ∧ b.isDigit then some (numberOf [a, b], rest) else none
  | _ => none

/-- Minutes ahead of universal time: `Z`, `UTC`, or a sign, hours and minutes. -/
def readOffset (cs : List Char) : Option (Int × List Char) :=
  let signed (sign : Int) (rest : List Char) : Option (Int × List Char) := do
    let (hours, rest) ← readPair rest
    let (minutes, rest) ← readPair (rest.dropWhile fun c => c == ':' || Text.isBlank c)
    let total := hours * 60 + minutes
    if minutes < 60 ∧ total < 1440 then some (sign * total, rest) else none
  match cs with
  | 'Z' :: rest | 'z' :: rest => some (0, rest)
  | '+' :: rest => signed 1 rest
  | '-' :: rest => signed (-1) rest
  | '\u2212' :: rest => signed (-1) rest
  | u :: t :: c :: rest =>
    if (u = 'U' ∨ u = 'u') ∧ (t = 'T' ∨ t = 't') ∧ (c = 'C' ∨ c = 'c') then some (0, rest) else none
  | _ => none

/-- The instant that a text writes, brought to universal time. -/
def parseChars? (cs : List Char) : Option Instant := do
  let (year, cs) ← readYear cs
  let cs ← readMark '-' cs
  let (month, cs) ← readNumber 2 cs
  let cs ← readMark '-' cs
  let (day, cs) ← readNumber 2 cs
  let cs ← readSeparator cs
  let (hour, cs) ← readNumber 2 cs
  let cs ← readMark ':' cs
  let (minute, cs) ← readNumber 2 cs
  let cs ← readMark ':' cs
  let (second, cs) ← readNumber 2 cs
  let (nanos, cs) ← readFraction cs
  let (ahead, cs) ← readOffset (Text.trimStart cs)
  let shown : Instant := ⟨year, month, day, hour, minute, second, nanos⟩
  if (Text.trimStart cs).isEmpty ∧ shown.Valid ∧ (shown.behind ahead).Valid then
    some (shown.behind ahead)
  else none

def parse? (s : String) : Option Instant :=
  parseChars? s.toList

end ServingLifecycle.Instant
