/-!
# Durations

A duration is a whole number of nanoseconds with fewer than `2 ^ 64` whole seconds. Adding two may
leave the range, and then there is no sum.
-/
namespace ServingLifecycle

structure Duration where
  nanos : Nat
  inRange : nanos < Nat.pow 2 64 * Nat.pow 10 9
deriving DecidableEq, Repr

namespace Duration

def nanosPerSecond : Nat := 1000000000

theorem ext_nanos {a b : Duration} (h : a.nanos = b.nanos) : a = b := by
  cases a; cases b; cases h; rfl

def seconds (d : Duration) : Nat :=
  d.nanos / nanosPerSecond

/-- The nanoseconds past the last whole second. -/
def subsecond (d : Duration) : Nat :=
  d.nanos % nanosPerSecond

/-- The duration of that many nanoseconds, if it is in range. -/
def ofNanos? (n : Nat) : Option Duration :=
  if h : n < Nat.pow 2 64 * Nat.pow 10 9 then some ⟨n, h⟩ else none

/-- The duration of whole seconds and further nanoseconds, if it is in range. -/
def ofParts? (seconds nanos : Nat) : Option Duration :=
  ofNanos? (seconds * nanosPerSecond + nanos)

def zero : Duration := ⟨0, by decide⟩

def ofSeconds (n : Nat) (h : n < Nat.pow 2 64 := by decide) : Duration :=
  ⟨n * nanosPerSecond, Nat.mul_lt_mul_of_pos_right h (by decide)⟩

def add? (a b : Duration) : Option Duration :=
  ofNanos? (a.nanos + b.nanos)

def isZero (d : Duration) : Bool :=
  d.nanos == 0

instance : LT Duration := ⟨fun a b => a.nanos < b.nanos⟩
instance : LE Duration := ⟨fun a b => a.nanos ≤ b.nanos⟩
instance (a b : Duration) : Decidable (a < b) := inferInstanceAs (Decidable (a.nanos < b.nanos))
instance (a b : Duration) : Decidable (a ≤ b) := inferInstanceAs (Decidable (a.nanos ≤ b.nanos))

theorem add?_eq_some_iff {a b c : Duration} : a.add? b = some c ↔ a.nanos + b.nanos = c.nanos := by
  unfold add? ofNanos?
  split
  · rename_i h
    constructor
    · intro e; cases e; rfl
    · intro e; congr 1; exact ext_nanos e
  · rename_i h
    constructor
    · intro e; cases e
    · intro e; exact absurd c.inRange (e ▸ h)

theorem seconds_mul_add_subsecond (d : Duration) :
    d.seconds * nanosPerSecond + d.subsecond = d.nanos := by
  rw [Nat.mul_comm]; exact Nat.div_add_mod _ _

theorem seconds_lt (d : Duration) : d.seconds < Nat.pow 2 64 :=
  Nat.div_lt_of_lt_mul (Nat.mul_comm (Nat.pow 2 64) _ ▸ d.inRange)

theorem subsecond_lt (d : Duration) : d.subsecond < nanosPerSecond :=
  Nat.mod_lt _ (by decide)

end Duration
end ServingLifecycle
