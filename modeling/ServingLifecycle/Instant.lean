/-!
# Instants

A point in time as a date and a time of day in universal time, down to the nanosecond. A minute may
have a sixty-first second. Instants are ordered by year, month, day, hour, minute, second and
nanosecond, which `rank` folds into one number.
-/
namespace ServingLifecycle

structure Instant where
  year : Int
  month : Nat
  day : Nat
  hour : Nat
  minute : Nat
  second : Nat
  nanos : Nat
deriving DecidableEq, Repr

namespace Instant

def isLeapYear (year : Int) : Bool :=
  year % 4 == 0 && (year % 100 != 0 || year % 400 == 0)

def daysInMonth (year : Int) (month : Nat) : Nat :=
  if month = 2 then (if isLeapYear year then 29 else 28)
  else if month = 4 ∨ month = 6 ∨ month = 9 ∨ month = 11 then 30
  else 31

/-- The first and the last year that are kept. -/
def minYear : Int := -262143
def maxYear : Int := 262142

/-- The fields name a day of the calendar and a time of that day. -/
def Valid (i : Instant) : Prop :=
  minYear ≤ i.year ∧ i.year ≤ maxYear ∧ 1 ≤ i.month ∧ i.month ≤ 12 ∧ 1 ≤ i.day
    ∧ i.day ≤ daysInMonth i.year i.month ∧ i.hour < 24 ∧ i.minute < 60 ∧ i.second ≤ 60
    ∧ i.nanos < 1000000000

instance (i : Instant) : Decidable i.Valid := by
  unfold Valid; infer_instance

/-- The place of an instant in the order of time. -/
def rank (i : Instant) : Int :=
  (((((i.year * 13 + i.month) * 32 + i.day) * 24 + i.hour) * 60 + i.minute) * 61 + i.second)
    * 1000000000 + i.nanos

/-- Whether `a` is at or before `b`. -/
def notAfter (a b : Instant) : Bool :=
  a.rank ≤ b.rank

def nextDay (i : Instant) : Instant :=
  if i.day < daysInMonth i.year i.month then { i with day := i.day + 1 }
  else if i.month < 12 then { i with month := i.month + 1, day := 1 }
  else { i with year := i.year + 1, month := 1, day := 1 }

def previousDay (i : Instant) : Instant :=
  if 1 < i.day then { i with day := i.day - 1 }
  else if 1 < i.month then { i with month := i.month - 1, day := daysInMonth i.year (i.month - 1) }
  else { i with year := i.year - 1, month := 12, day := 31 }

/-- The instant that clocks `minutes` ahead of universal time, by less than a day, show as `i`. -/
def behind (i : Instant) (minutes : Int) : Instant :=
  let total := (i.hour * 60 + i.minute : Int) - minutes
  let ofDay := (total % 1440).toNat
  let i := if total < 0 then i.previousDay else if 1440 ≤ total then i.nextDay else i
  { i with hour := ofDay / 60, minute := ofDay % 60 }

theorem behind_zero {i : Instant} (h : i.Valid) : i.behind 0 = i := by
  obtain ⟨_, _, _, _, _, _, hh, hm, _, _⟩ := h
  have ht : ((i.hour * 60 + i.minute : Int) - 0) = ((i.hour * 60 + i.minute : Nat) : Int) := by omega
  have hr : ((((i.hour * 60 + i.minute : Nat) : Int) % 1440).toNat) = i.hour * 60 + i.minute := by omega
  unfold behind
  simp only [ht, hr]
  rw [if_neg (by omega), if_neg (by omega)]
  have h1 : (i.hour * 60 + i.minute) / 60 = i.hour := by omega
  have h2 : (i.hour * 60 + i.minute) % 60 = i.minute := by omega
  rw [h1, h2]

end Instant
end ServingLifecycle
