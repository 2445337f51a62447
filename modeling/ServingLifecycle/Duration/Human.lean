import ServingLifecycle.Duration
import ServingLifecycle.Text.Quoted
/-!
# Human durations

Durations as people write them in settings: numbers followed by units, such as `90s`, `1h 30m` or
`1.5days`. Blanks may stand anywhere except inside a unit. A month is 30.44 days and a year is
365.25 days. What is written is exact or refused: a fraction that does not come out in whole
nanoseconds (whole seconds from hours on) is an error.

`Human.format` writes the units from years down to nanoseconds and leaves out those that are zero.
-/
namespace ServingLifecycle.Duration.Human

/-- Why a text is not a duration. -/
inductive Fault
  /-- nothing but blanks -/
  | empty
  /-- a number was expected at this byte offset -/
  | numberExpected (offset : Nat)
  /-- the character at this byte offset fits nowhere -/
  | invalidCharacter (offset : Nat)
  /-- no unit of that name; the number before it is kept for the message -/
  | unknownUnit (unit : String) (number : Nat)
  /-- too large, or not a whole number of the smallest part that the unit allows -/
  | notExact
  /-- the nanoseconds carried the seconds over their limit -/
  | carriedOver
deriving DecidableEq, Repr

def Fault.message : Fault → String
  | .empty => "value was empty"
  | .numberExpected offset => "expected number at " ++ toString offset
  | .invalidCharacter offset => "invalid character at " ++ toString offset
  | .unknownUnit unit number =>
    if unit = "" then
      "time unit needed, for example " ++ toString number ++ "sec or " ++ toString number ++ "ms"
    else
      "unknown time unit " ++ Text.quoted unit ++ ", supported units: ns, us/µs, ms, sec, min, " ++
        "hours, days, weeks, months, years (and few variations)"
  | .notExact =>
    "number is too large or cannot be represented without a lack of precision " ++
      "(values below 1ns are not supported)"
  | .carriedOver => "overflow in Duration::new"

inductive Unit
  | nanosecond | microsecond | millisecond | second | minute | hour | day | week | month | year
deriving DecidableEq, Repr

namespace Unit

/-- The spellings of each unit. -/
def ofName : String → Option Unit
  | "nanos" | "nsec" | "ns" => some nanosecond
  | "usec" | "us" | "µs" => some microsecond
  | "millis" | "msec" | "ms" => some millisecond
  | "seconds" | "second" | "secs" | "sec" | "s" => some second
  | "minutes" | "minute" | "min" | "mins" | "m" => some minute
  | "hours" | "hour" | "hrs" | "hr" | "h" => some hour
  | "days" | "day" | "d" => some day
  | "weeks" | "week" | "wks" | "wk" | "w" => some week
  | "months" | "month" | "M" => some month
  | "years" | "year" | "yrs" | "yr" | "y" => some year
  | _ => none

def nanos : Unit → Nat
  | nanosecond => 1
  | microsecond => 1000
  | millisecond => 1000000
  | second => 1000000000
  | minute => 60 * 1000000000
  | hour => 3600 * 1000000000
  | day => 86400 * 1000000000
  | week => 604800 * 1000000000
  | month => 2630016 * 1000000000
  | year => 31557600 * 1000000000

/-- Whole numbers of this unit are counted in seconds and not in nanoseconds. -/
def countsSeconds : Unit → Bool
  | nanosecond | microsecond | millisecond => false
  | _ => true

/-- The smallest part, in nanoseconds, that a fraction of this unit may have; a nanosecond has no
fraction. -/
def grain : Unit → Option Nat
  | nanosecond => none
  | microsecond | millisecond | second | minute => some 1
  | _ => some 1000000000

end Unit

/-- A count below `2 ^ 64`, or the fault of a number that is too large. -/
def counted (n : Nat) : Except Fault Nat :=
  if n < Nat.pow 2 64 then .ok n else .error .notExact

/-- Adds seconds and nanoseconds, both counts, to what was read so far. The nanoseconds carry into the
seconds; exactly one second of them carries only after the sum has been counted. -/
def extend (sum : Duration) (seconds nanos : Nat) : Except Fault Duration := do
  let nanos ← counted (sum.subsecond + nanos)
  let seconds ← if nanos > nanosPerSecond then counted (seconds + nanos / nanosPerSecond) else pure seconds
  let nanos := if nanos > nanosPerSecond then nanos % nanosPerSecond else nanos
  let seconds ← counted (sum.seconds + seconds)
  match ofParts? seconds nanos with
  | some sum => .ok sum
  | none => .error .carriedOver

/-- Digits after a point: their number and the power of ten below it. -/
structure Fraction where
  numerator : Nat
  denominator : Nat
deriving DecidableEq, Repr

def addWhole (sum : Duration) (unit : Unit) (n : Nat) : Except Fault Duration := do
  if unit.countsSeconds then
    extend sum (← counted (n * (unit.nanos / nanosPerSecond))) 0
  else
    extend sum 0 (← counted (n * unit.nanos))

/-- Adds a fraction of a unit, which has to come out in whole grains. -/
def addFraction (sum : Duration) (unit : Unit) (part : Fraction) : Except Fault Duration :=
  match unit.grain with
  | none => .error .notExact
  | some grain => do
    let n ← counted (part.numerator * (unit.nanos / grain))
    if n % part.denominator ≠ 0 then .error .notExact
    else if grain = 1 then extend sum 0 (n / part.denominator)
    else extend sum (n / part.denominator) 0

/-- Adds a number, with or without a fraction, of the unit that has the given name. -/
def addNamed (sum : Duration) (n : Nat) (part : Option Fraction) (name : List Char) :
    Except Fault Duration :=
  match Unit.ofName (String.ofList name) with
  | none => .error (.unknownUnit (String.ofList name) n)
  | some unit => do
    let sum ← addWhole sum unit n
    match part with
    | none => .ok sum
    | some part => addFraction sum unit part

/-- Where the reader is: before a number, in its digits, in the digits after a point, or in a unit. -/
inductive Place
  /-- before a number; the offset is where the search for it began -/
  | gap (since : Nat)
  | whole (n : Nat)
  /-- after a point; `mark` is the place that an error names -/
  | fraction (n numerator denominator mark : Nat)
  /-- in a unit, whose letters so far are kept last one first -/
  | unit (n : Nat) (part : Option Fraction) (letters : List Char)
deriving DecidableEq, Repr

def isUnitLetter (c : Char) : Bool :=
  c.isAlpha || c == 'µ'

def digitValue (c : Char) : Nat :=
  c.toNat - '0'.toNat

/-- Reads from a place at a byte offset on. `sum` is what was read before, or nothing yet. -/
def read (place : Place) (offset : Nat) (sum : Option Duration) : List Char → Except Fault Duration
  | [] =>
    match place with
    | .gap _ =>
      match sum with
      | none => .error .empty
      | some sum => .ok sum
    | .whole n => addNamed (sum.getD zero) n none []
    | .fraction n numerator denominator mark =>
      if denominator = 1 then .error (.invalidCharacter mark)
      else addNamed (sum.getD zero) n (some ⟨numerator, denominator⟩) []
    | .unit n part letters => addNamed (sum.getD zero) n part letters.reverse
  | c :: rest =>
    let next := offset + c.utf8Size
    match place with
    | .gap since =>
      if c.isDigit then read (.whole (digitValue c)) next sum rest
      else if Text.isBlank c then read (.gap since) next sum rest
      else .error (.numberExpected since)
    | .whole n =>
      if c.isDigit then do
        let n ← counted (n * 10 + digitValue c)
        read (.whole n) next sum rest
      else if Text.isBlank c then read (.whole n) next sum rest
      else if isUnitLetter c then read (.unit n none [c]) next sum rest
      else if c = '.' then read (.fraction n 0 1 offset) next sum rest
      else .error (.invalidCharacter offset)
    | .fraction n numerator denominator mark =>
      if c.isDigit then do
        let denominator ← counted (denominator * 10)
        let numerator ← counted (numerator * 10 + digitValue c)
        read (.fraction n numerator denominator next) next sum rest
      else if Text.isBlank c then read (.fraction n numerator denominator next) next sum rest
      else if isUnitLetter c && denominator != 1 then
        read (.unit n (some ⟨numerator, denominator⟩) [c]) next sum rest
      else .error (.invalidCharacter mark)
    | .unit n part letters =>
      if c.isDigit then do
        let sum ← addNamed (sum.getD zero) n part letters.reverse
        read (.whole (digitValue c)) next (some sum) rest
      else if Text.isBlank c then do
        let sum ← addNamed (sum.getD zero) n part letters.reverse
        read (.gap next) next (some sum) rest
      else if isUnitLetter c then read (.unit n part (c :: letters)) next sum rest
      else .error (.invalidCharacter offset)

/-- The duration that a text writes. A lone `0` needs no unit. -/
def parse (text : String) : Except Fault Duration :=
  if text = "0" then .ok zero else read (.gap 0) 0 none text.toList

/-- A number of a unit that has no plural, left out when zero. -/
def item (name : String) (n : Nat) : List String :=
  if n = 0 then [] else [toString n ++ name]

/-- A number of a unit whose name takes an `s` from two on, left out when zero. -/
def itemPlural (name : String) (n : Nat) : List String :=
  if n = 0 then [] else [toString n ++ name ++ (if n = 1 then "" else "s")]

/-- The items of a duration, largest unit first. -/
def items (d : Duration) : List String :=
  let afterYears := d.seconds % 31557600
  let afterMonths := afterYears % 2630016
  let afterDays := afterMonths % 86400
  itemPlural "year" (d.seconds / 31557600)
    ++ itemPlural "month" (afterYears / 2630016)
    ++ itemPlural "day" (afterMonths / 86400)
    ++ item "h" (afterDays / 3600)
    ++ item "m" (afterDays % 3600 / 60)
    ++ item "s" (afterDays % 60)
    ++ item "ms" (d.subsecond / 1000000)
    ++ item "us" (d.subsecond / 1000 % 1000)
    ++ item "ns" (d.subsecond % 1000)

/-- The written form: the items with a space between them, or `0s`. -/
def format (d : Duration) : String :=
  if d.isZero then "0s" else " ".intercalate (items d)

end ServingLifecycle.Duration.Human
