/-!
# The shortest decimal text of a number

A double-precision number stands for an interval: all reals that round to it. Its text is the decimal
with the fewest digits in that interval, of several the one nearest to the number, written without an
exponent.
-/
namespace ServingLifecycle.Number

/-- A positive real `value / unit` with the interval around it that belongs to it. -/
structure Interval where
  low : Nat
  value : Nat
  high : Nat
  unit : Nat
  /-- whether the two ends belong to the interval -/
  closed : Bool
deriving Repr

/-- The interval of `mantissa * 2 ^ exponent`. Below a power of two the next number is only half as
far away. -/
def Interval.ofBinary (mantissa : Nat) (exponent : Int) (isPower : Bool) : Interval :=
  let step := Nat.pow 2 exponent.toNat
  let value := 4 * mantissa * step
  ⟨value - (if isPower then step else 2 * step), value, value + 2 * step, 4 * Nat.pow 2 (-exponent).toNat,
    mantissa % 2 = 0⟩

def Interval.holds (i : Interval) (d : Nat) (e : Int) : Bool :=
  let point := d * Nat.pow 10 e.toNat * i.unit
  let scale := Nat.pow 10 (-e).toNat
  if i.closed then i.low * scale ≤ point ∧ point ≤ i.high * scale
  else i.low * scale < point ∧ point < i.high * scale

/-- The decimal exponent `k` with `10 ^ (k - 1) ≤ value < 10 ^ k`. -/
def Interval.magnitude (i : Interval) : Int :=
  if i.unit ≤ i.value then ((Nat.toDigits 10 (i.value / i.unit)).length : Int)
  else
    let p := (Nat.toDigits 10 (i.unit / i.value)).length
    if i.value * Nat.pow 10 (p - 1) = i.unit then 2 - p else 1 - p

/-- The nearest multiple of `10 ^ e` in the interval, if there is one. -/
def Interval.nearest? (i : Interval) (e : Int) : Option Nat :=
  let numerator := i.value * Nat.pow 10 (-e).toNat
  let denominator := i.unit * Nat.pow 10 e.toNat
  let below := numerator / denominator
  let remainder := numerator % denominator
  match i.holds below e, i.holds (below + 1) e with
  | true, true => some (if 2 * remainder ≤ denominator then below else below + 1)
  | true, false => some below
  | false, true => some (below + 1)
  | false, false => none

/-- The fewest digits, up to `most` of them, and the exponent of the last one. -/
def Interval.shortest (i : Interval) (used : Nat) : (most : Nat) → Nat × Int
  | 0 => ((i.nearest? (i.magnitude - used)).getD 0, i.magnitude - used)
  | most + 1 =>
    match i.nearest? (i.magnitude - used) with
    | some d => (d, i.magnitude - used)
    | none => i.shortest (used + 1) most

/-- The decimal `d * 10 ^ e` without an exponent. -/
def positional (d : Nat) (e : Int) : List Char :=
  let digits := Nat.toDigits 10 d
  if 0 ≤ e then digits ++ List.replicate e.toNat '0'
  else
    let places := (-e).toNat
    let padded := List.replicate (places + 1 - digits.length) '0' ++ digits
    let whole := padded.take (padded.length - places)
    let part := ((padded.drop (padded.length - places)).reverse.dropWhile (· == '0')).reverse
    if part.isEmpty then whole else whole ++ '.' :: part

/-- The text of a finite number above zero, given its exponent bits and fraction bits. -/
def positiveText (exponent fraction : Nat) : List Char :=
  let i :=
    if exponent = 0 then Interval.ofBinary fraction (-1074) false
    else Interval.ofBinary (Nat.pow 2 52 + fraction) ((exponent : Int) - 1075) (fraction = 0 ∧ 1 < exponent)
  let (d, e) := i.shortest 1 17
  positional d e

/-- The text of the number with the given bits. -/
def textOfBits (bits : UInt64) : String :=
  let n := bits.toNat
  let negative := n / Nat.pow 2 63 = 1
  let exponent := n / Nat.pow 2 52 % Nat.pow 2 11
  let fraction := n % Nat.pow 2 52
  if exponent = 2047 ∧ fraction ≠ 0 then "NaN"
  else
    let magnitude :=
      if exponent = 2047 then "inf".toList
      else if exponent = 0 ∧ fraction = 0 then ['0']
      else positiveText exponent fraction
    String.ofList (if negative then '-' :: magnitude else magnitude)

def text (x : Float) : String :=
  textOfBits x.toBits

end ServingLifecycle.Number
