import ServingLifecycle.Decision
/-!
# Metrics

How often each action succeeded, how often it failed for which reason, and how long it took. A series
comes into being when it is first counted in or first asked for.
-/
namespace ServingLifecycle

/-- One number for each key that has come up. -/
abbrev Counters (κ : Type) : Type := List (κ × Nat)

namespace Counters

variable {κ : Type} [DecidableEq κ]

/-- Adds to the counter of a key, which starts from zero. -/
def add (key : κ) (n : Nat) : Counters κ → Counters κ
  | [] => [(key, n)]
  | (k, m) :: rest => if k = key then (k, m + n) :: rest else (k, m) :: add key n rest

/-- The count of a key. -/
def count (key : κ) : Counters κ → Nat
  | [] => 0
  | (k, m) :: rest => if k = key then m else count key rest

theorem count_add (cs : Counters κ) (key other : κ) (n : Nat) :
    count other (add key n cs) = count other cs + if key = other then n else 0 := by
  induction cs with
  | nil => by_cases h : key = other <;> simp [add, count, h]
  | cons c cs ih =>
    obtain ⟨k, m⟩ := c
    unfold add
    by_cases hk : k = key
    · subst hk
      by_cases h : k = other <;> simp [count, h]
    · rw [if_neg hk]
      by_cases h : k = other
      · have : key ≠ other := fun e => hk (h.trans e.symm)
        simp [count, h, this]
      · simp [count, h, ih]

end Counters

structure Metrics where
  actions : Counters Action
  failures : Counters (Action × String)
  /-- how long each attempt took in seconds, in the order of the attempts -/
  durations : List (Action × Float)

namespace Metrics

def empty : Metrics := ⟨[], [], []⟩

def recordSuccess (m : Metrics) (action : Action) (seconds : Float) : Metrics :=
  { m with
    actions := m.actions.add action 1
    durations := m.durations ++ [(action, seconds)] }

def recordFailure (m : Metrics) (action : Action) (label : String) (seconds : Float) : Metrics :=
  { m with
    failures := m.failures.add (action, label) 1
    durations := m.durations ++ [(action, seconds)] }

/-- How often an action succeeded; asking makes the series. -/
def actionsTotal (m : Metrics) (action : Action) : Nat × Metrics :=
  (m.actions.count action, { m with actions := m.actions.add action 0 })

/-- How often an action failed for a reason; asking makes the series. -/
def failuresTotal (m : Metrics) (action : Action) (label : String) : Nat × Metrics :=
  (m.failures.count (action, label), { m with failures := m.failures.add (action, label) 0 })

def samples (m : Metrics) (action : Action) : List Float :=
  (m.durations.filter fun d => d.1 = action).map Prod.snd

end Metrics
end ServingLifecycle
