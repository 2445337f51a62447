import ServingLifecycle.Duration
/-!
# The brief form of a duration

One number in the largest of `s`, `ms`, `µs` and `ns` that is not above the duration, with as many
decimals as it takes and no trailing zeros: `1.5s`, `10ms`, `1.5µs`, `0ns`.
-/
namespace ServingLifecycle.Duration

/-- The decimals of `n` parts out of `10 ^ width`, without trailing zeros. -/
def decimals (n width : Nat) : List Char :=
  let digits := (Nat.toDigits 10 n)
  let padded := List.replicate (width - digits.length) '0' ++ digits
  (padded.reverse.dropWhile (· == '0')).reverse

/-- A whole number and a fraction of it in `10 ^ width` parts, written with a point if needed. -/
def pointed (whole part width : Nat) : String :=
  if part = 0 then toString whole
  else toString whole ++ "." ++ String.ofList (decimals part width)

/-- The duration in one unit. -/
def brief (d : Duration) : String :=
  if 0 < d.seconds then pointed d.seconds d.subsecond 9 ++ "s"
  else if 1000000 ≤ d.subsecond then
    pointed (d.subsecond / 1000000) (d.subsecond % 1000000) 6 ++ "ms"
  else if 1000 ≤ d.subsecond then pointed (d.subsecond / 1000) (d.subsecond % 1000) 3 ++ "µs"
  else toString d.subsecond ++ "ns"

end ServingLifecycle.Duration
