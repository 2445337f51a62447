import Mathlib.Tactic.Linarith
import ServingLifecycle.Duration.Human
/-!
# Human durations read back

Every duration is read back from its written form. What is written are terms, each a number of a unit, with a space
between them; reading adds them up one after the other. No sum on the way is greater than the duration itself, so
nothing leaves its range.
-/
namespace ServingLifecycle.Duration.Human

/-- A character that can only be one of the name of a unit. -/
def isNaming (c : Char) : Bool :=
  isUnitLetter c && !c.isDigit && !Text.isBlank c

theorem isNaming_iff {c : Char} :
    isNaming c = true ↔ isUnitLetter c = true ∧ c.isDigit = false ∧ Text.isBlank c = false := by
  simp [isNaming, and_assoc]

/-- A number of a unit, under one of the names of the unit. -/
structure Term where
  number : Nat
  unit : Unit
  name : List Char
  named : Unit.ofName (String.ofList name) = some unit
  nonempty : name ≠ []
  letters : name.all isNaming = true

namespace Term

def chars (t : Term) : List Char :=
  Nat.toDigits 10 t.number ++ t.name

def nanos (t : Term) : Nat :=
  t.number * t.unit.nanos

/-- A term that can be counted: less than a second of what is counted in nanoseconds, and below `2 ^ 64` of the rest. -/
structure Countable (t : Term) : Prop where
  number_lt : t.number < Nat.pow 2 64
  small : t.unit.countsSeconds = false → t.nanos < nanosPerSecond

def total (ts : List Term) : Nat :=
  (ts.map nanos).sum

theorem total_cons (t : Term) (ts : List Term) : total (t :: ts) = t.nanos + total ts := by
  simp [total]

/-- A number of a unit whose name takes an `s` from two on. -/
def plural (n : Nat) (unit : Unit) (name : List Char)
    (named : Unit.ofName (String.ofList name) = some unit := by decide)
    (nameds : Unit.ofName (String.ofList (name ++ ['s'])) = some unit := by decide)
    (nonempty : name ≠ [] := by decide)
    (letters : name.all isNaming = true := by decide) : Term :=
  if n = 1 then ⟨n, unit, name, named, nonempty, letters⟩
  else
    ⟨n, unit, name ++ ['s'], nameds, by simp, by
      rw [List.all_append, letters]
      decide⟩

end Term

/-- The terms of a duration with those that are zero. -/
def allTerms (d : Duration) : List Term :=
  let afterYears := d.seconds % 31557600
  let afterMonths := afterYears % 2630016
  let afterDays := afterMonths % 86400
  [.plural (d.seconds / 31557600) .year "year".toList,
    .plural (afterYears / 2630016) .month "month".toList,
    .plural (afterMonths / 86400) .day "day".toList,
    ⟨afterDays / 3600, .hour, ['h'], by decide, by decide, by decide⟩,
    ⟨afterDays % 3600 / 60, .minute, ['m'], by decide, by decide, by decide⟩,
    ⟨afterDays % 60, .second, ['s'], by decide, by decide, by decide⟩,
    ⟨d.subsecond / 1000000, .millisecond, ['m', 's'], by decide, by decide, by decide⟩,
    ⟨d.subsecond / 1000 % 1000, .microsecond, ['u', 's'], by decide, by decide, by decide⟩,
    ⟨d.subsecond % 1000, .nanosecond, ['n', 's'], by decide, by decide, by decide⟩]

def terms (d : Duration) : List Term :=
  (allTerms d).filter fun t => t.number ≠ 0

section Reading

variable {sum : Option Duration} {offset : Nat} {rest : List Char}

/-- The byte offset behind some characters. -/
def behind (offset : Nat) (cs : List Char) : Nat :=
  cs.foldl (fun o c => o + c.utf8Size) offset

theorem counted_of_lt {n : Nat} (h : n < Nat.pow 2 64) : counted n = .ok n :=
  if_pos h

theorem le_ofDigitChars (ds : List Char) (n : Nat) : n ≤ Nat.ofDigitChars 10 ds n := by
  induction ds generalizing n with
  | nil => simp
  | cons c ds ih =>
    rw [Nat.ofDigitChars_cons]
    have later := ih (10 * n + (c.toNat - '0'.toNat))
    omega

theorem read_digits {ds : List Char} {n : Nat} (digits : ∀ c ∈ ds, c.isDigit = true)
    (fits : Nat.ofDigitChars 10 ds n < Nat.pow 2 64) : read (.whole n) offset sum (ds ++ rest) =
      read (.whole (Nat.ofDigitChars 10 ds n)) (behind offset ds) sum rest := by
  induction ds generalizing n offset with
  | nil => simp [behind]
  | cons c ds ih =>
    obtain ⟨digit, digits⟩ := List.forall_mem_cons.mp digits
    rw [Nat.ofDigitChars_cons] at fits ⊢
    have next : 10 * n + (c.toNat - '0'.toNat) = n * 10 + digitValue c := by
      rw [Nat.mul_comm, digitValue]
    rw [next] at fits ⊢
    have here : n * 10 + digitValue c < Nat.pow 2 64 := Nat.lt_of_le_of_lt (le_ofDigitChars _ _) fits
    rw [List.cons_append, read]
    simp only [digit, if_true, counted_of_lt here]
    exact ih digits fits

theorem read_number {n since : Nat} (fits : n < Nat.pow 2 64) :
    read (.gap since) offset sum (Nat.toDigits 10 n ++ rest) =
      read (.whole n) (behind offset (Nat.toDigits 10 n)) sum rest := by
  have digits : ∀ c ∈ Nat.toDigits 10 n, c.isDigit = true := fun c hc =>
    Nat.isDigit_of_mem_toDigits (by decide) (by decide) hc
  have whole : Nat.ofDigitChars 10 (Nat.toDigits 10 n) 0 = n := Nat.ofDigitChars_ten_toDigits
  cases hd : Nat.toDigits 10 n with
  | nil => exact absurd hd Nat.toDigits_ne_nil
  | cons c ds =>
    rw [hd] at digits whole
    obtain ⟨digit, digits⟩ := List.forall_mem_cons.mp digits
    rw [Nat.ofDigitChars_cons, Nat.mul_zero, Nat.zero_add] at whole
    rw [List.cons_append, read]
    simp only [digit, if_true]
    have value : digitValue c = c.toNat - '0'.toNat := rfl
    rw [value, read_digits digits (whole.symm ▸ fits), whole]
    rfl

theorem read_letters {n : Nat} {part : Option Fraction} {letters name : List Char}
    (h : name.all isNaming = true) : read (.unit n part letters) offset sum (name ++ rest) =
      read (.unit n part (name.reverse ++ letters)) (behind offset name) sum rest := by
  induction name generalizing letters offset with
  | nil => simp [behind]
  | cons c name ih =>
    obtain ⟨first, h⟩ := Bool.and_eq_true_iff.mp (List.all_cons ▸ h)
    obtain ⟨letter, digit, blank⟩ := isNaming_iff.mp first
    rw [List.cons_append, read]
    simp only [letter, digit, blank, if_true, Bool.false_eq_true, if_false]
    rw [ih h, List.reverse_cons, List.append_assoc]
    rfl

/-- A term is read up to the last letter of its name. -/
theorem read_term {t : Term} {since : Nat} (fits : t.number < Nat.pow 2 64) :
    read (.gap since) offset sum (t.chars ++ rest) =
      read (.unit t.number none t.name.reverse) (behind offset t.chars) sum rest := by
  rw [Term.chars, List.append_assoc, read_number fits]
  have behinds : behind offset (Nat.toDigits 10 t.number ++ t.name) =
      behind (behind offset (Nat.toDigits 10 t.number)) t.name := List.foldl_append
  rw [behinds]
  cases hn : t.name with
  | nil => exact absurd hn t.nonempty
  | cons c name =>
    have letters := t.letters
    rw [hn] at letters
    obtain ⟨first, letters⟩ := Bool.and_eq_true_iff.mp (List.all_cons ▸ letters)
    obtain ⟨letter, digit, blank⟩ := isNaming_iff.mp first
    rw [List.cons_append, read]
    simp only [letter, digit, blank, if_true, Bool.false_eq_true, if_false]
    rw [read_letters letters, List.reverse_cons]
    rfl

end Reading

section Adding

variable {sum d : Duration} {t : Term} {seconds nanos : Nat}

/-- Whole seconds within a duration are in range. -/
theorem seconds_lt_of_le (h : seconds * nanosPerSecond ≤ d.nanos) : seconds < Nat.pow 2 64 :=
  Nat.lt_of_mul_lt_mul_right (Nat.lt_of_le_of_lt h d.inRange)

theorem ofParts?_of_eq (h : seconds * nanosPerSecond + nanos = d.nanos) : ofParts? seconds nanos = some d := by
  rw [ofParts?, h, ofNanos?, dif_pos d.inRange]

theorem ok_bind {α β : Type} (a : α) (f : α → Except Fault β) : (Except.ok a >>= f) = f a := rfl

/-- Seconds and less than a second of nanoseconds are added if the sum is a duration. -/
theorem extend_eq_ok (small : nanos < nanosPerSecond) (same : d.nanos = sum.nanos + seconds * nanosPerSecond + nanos) :
    extend sum seconds nanos = .ok d := by
  have whole := sum.seconds_mul_add_subsecond
  have part := sum.subsecond_lt
  have few : sum.subsecond + nanos < Nat.pow 2 64 := Nat.lt_trans (Nat.add_lt_add part small) (by decide)
  -- Each step is a rewriting: unfolding would count a second of nanoseconds one by one.
  by_cases carry : sum.subsecond + nanos > nanosPerSecond
  · have one : (sum.subsecond + nanos) / nanosPerSecond = 1 := Nat.div_eq_of_lt_le (by omega) (by omega)
    have left : nanosPerSecond + (sum.subsecond + nanos) % nanosPerSecond = sum.subsecond + nanos := by
      have split := Nat.div_add_mod (sum.subsecond + nanos) nanosPerSecond
      rwa [one, Nat.mul_one] at split
    have parts : (sum.seconds + (seconds + 1)) * nanosPerSecond + (sum.subsecond + nanos) % nanosPerSecond =
        d.nanos := by
      simp only [Nat.add_mul, Nat.one_mul]
      omega
    have all : sum.seconds + (seconds + 1) < Nat.pow 2 64 := seconds_lt_of_le (d := d) (by omega)
    rw [extend, counted_of_lt few, ok_bind, if_pos carry, if_pos carry, one, counted_of_lt (by omega), ok_bind]
    dsimp only
    rw [counted_of_lt all, ok_bind, ofParts?_of_eq parts]
  · have parts : (sum.seconds + seconds) * nanosPerSecond + (sum.subsecond + nanos) = d.nanos := by
      simp only [Nat.add_mul]
      omega
    have all : sum.seconds + seconds < Nat.pow 2 64 := seconds_lt_of_le (d := d) (by omega)
    rw [extend, counted_of_lt few, ok_bind, if_neg carry, if_neg carry, pure_bind]
    dsimp only
    rw [counted_of_lt all, ok_bind, ofParts?_of_eq parts]

theorem nanos_of_countsSeconds {unit : Unit} (h : unit.countsSeconds = true) :
    unit.nanos / nanosPerSecond * nanosPerSecond = unit.nanos := by
  cases unit <;> first | rfl | exact absurd h nofun

/-- A term is added to what was read before. -/
theorem addNamed_term (h : t.Countable) (same : d.nanos = sum.nanos + t.nanos) :
    addNamed sum t.number none t.name = .ok d := by
  have added : addNamed sum t.number none t.name = addWhole sum t.unit t.number := by
    rw [addNamed, t.named]
    dsimp only
    cases addWhole sum t.unit t.number <;> rfl
  rw [added, addWhole]
  cases hc : t.unit.countsSeconds with
  | true =>
    have exactly : t.number * (t.unit.nanos / nanosPerSecond) * nanosPerSecond = t.nanos := by
      rw [Nat.mul_assoc, nanos_of_countsSeconds hc, Term.nanos]
    have fewer : t.number * (t.unit.nanos / nanosPerSecond) < Nat.pow 2 64 := seconds_lt_of_le (d := d) (by omega)
    rw [if_pos rfl, counted_of_lt fewer, ok_bind]
    exact extend_eq_ok (by decide) (by omega)
  | false =>
    have small : t.number * t.unit.nanos < nanosPerSecond := h.small hc
    rw [if_neg Bool.false_ne_true, counted_of_lt (Nat.lt_trans small (by decide)), ok_bind]
    refine extend_eq_ok small ?_
    rw [same, Nat.zero_mul, Term.nanos, Nat.add_zero]

/-- Terms with a space between them are read as their sum. -/
theorem read_terms {ts : List Term} {sum : Option Duration} {since offset : Nat} (nonempty : ts ≠ [])
    (countable : ∀ t ∈ ts, t.Countable) (same : d.nanos = (sum.getD zero).nanos + Term.total ts) :
    read (.gap since) offset sum ([' '].intercalate (ts.map Term.chars)) = .ok d := by
  induction ts generalizing sum since offset with
  | nil => exact absurd rfl nonempty
  | cons t ts ih =>
    obtain ⟨first, countable⟩ := List.forall_mem_cons.mp countable
    rw [Term.total_cons] at same
    cases ts with
    | nil =>
      have added : addNamed (sum.getD zero) t.number none t.name = .ok d :=
        addNamed_term first (by simpa [Term.total] using same)
      have whole : read (.gap since) offset sum (t.chars ++ []) =
          read (.unit t.number none t.name.reverse) (behind offset t.chars) sum [] := read_term first.number_lt
      rw [List.append_nil] at whole
      rw [List.map_singleton, List.intercalate_singleton, whole, read, List.reverse_reverse]
      exact added
    | cons u ts =>
      have inRange : (sum.getD zero).nanos + t.nanos < Nat.pow 2 64 * Nat.pow 10 9 := by
        have bound := d.inRange
        omega
      let next : Duration := ⟨(sum.getD zero).nanos + t.nanos, inRange⟩
      have added : addNamed (sum.getD zero) t.number none t.name = .ok next := addNamed_term first rfl
      have blank : Text.isBlank ' ' = true := by decide
      have digit : ' '.isDigit = false := by decide
      rw [List.map_cons, List.map_cons, List.intercalate_cons_cons, ← List.map_cons, List.append_assoc,
        read_term first.number_lt, List.singleton_append, read]
      simp only [digit, blank, if_true, Bool.false_eq_true, if_false, List.reverse_reverse, added]
      exact ih (List.cons_ne_nil _ _) countable (by rw [same, Option.getD_some, Nat.add_assoc])

end Adding

section Terms

variable {d : Duration}

theorem number_plural {n : Nat} {unit : Unit} {name : List Char} {named nameds nonempty letters} :
    (Term.plural n unit name named nameds nonempty letters).number = n := by
  unfold Term.plural
  split <;> rfl

theorem unit_plural {n : Nat} {unit : Unit} {name : List Char} {named nameds nonempty letters} :
    (Term.plural n unit name named nameds nonempty letters).unit = unit := by
  unfold Term.plural
  split <;> rfl

/-- Terms that are zero add nothing. -/
theorem total_terms (d : Duration) : Term.total (terms d) = Term.total (allTerms d) := by
  rw [terms]
  induction allTerms d with
  | nil => rfl
  | cons t ts ih =>
    rw [Term.total_cons]
    by_cases hn : t.number = 0
    · rw [List.filter_cons_of_neg (by simp [hn]), ih]
      simp [Term.nanos, hn]
    · rw [List.filter_cons_of_pos (by simp [hn]), Term.total_cons, ih]

theorem split_seconds (n : Nat) : n / 31557600 * 31557600 + n % 31557600 / 2630016 * 2630016
    + n % 31557600 % 2630016 / 86400 * 86400 + n % 31557600 % 2630016 % 86400 / 3600 * 3600
    + n % 31557600 % 2630016 % 86400 % 3600 / 60 * 60 + n % 31557600 % 2630016 % 86400 % 60 = n := by
  omega

theorem split_nanos (n : Nat) : n / 1000000 * 1000000 + n / 1000 % 1000 * 1000 + n % 1000 = n := by
  omega

theorem total_allTerms (d : Duration) : Term.total (allTerms d) = d.nanos := by
  have whole : d.seconds * 1000000000 + d.subsecond = d.nanos := d.seconds_mul_add_subsecond
  have seconds := split_seconds d.seconds
  have nanos := split_nanos d.subsecond
  unfold allTerms
  generalize d.seconds = s at whole seconds ⊢
  generalize d.subsecond = n at whole nanos ⊢
  simp only [Term.total_cons, Term.nanos, number_plural, unit_plural, Unit.nanos, Nat.reduceMul]
  simp only [Term.total, List.map_nil, List.sum_nil]
  linarith

theorem countable_terms : ∀ t ∈ terms d, t.Countable := by
  have seconds : d.seconds < 18446744073709551616 := d.seconds_lt
  have part : d.subsecond < 1000000000 := d.subsecond_lt
  have bound : Nat.pow 2 64 = 18446744073709551616 := by decide
  have second : nanosPerSecond = 1000000000 := rfl
  intro t ht
  have ht : t ∈ allTerms d := (List.mem_filter.mp ht).1
  unfold allTerms at ht
  generalize d.seconds = s at seconds ht
  generalize d.subsecond = n at part ht
  simp only [List.mem_cons, List.not_mem_nil, or_false] at ht
  rcases ht with rfl | rfl | rfl | rfl | rfl | rfl | rfl | rfl | rfl
  all_goals
    refine ⟨?_, fun counts => ?_⟩
    · simp only [number_plural, bound]
      omega
    · simp only [unit_plural, Unit.countsSeconds, Term.nanos, Unit.nanos, second, reduceCtorEq] at counts ⊢ <;> omega

/-- The terms as they are written, those that are zero left out. -/
def written (ts : List Term) : List String :=
  (ts.filter fun t => t.number ≠ 0).map fun t => String.ofList t.chars

theorem written_cons_cons (t u : Term) (ts : List Term) :
    written (t :: u :: ts) = written [t] ++ written (u :: ts) := by
  unfold written
  rw [← List.map_append, ← List.filter_append, List.singleton_append]

theorem written_singleton (t : Term) : written [t] = item (String.ofList t.name) t.number := by
  by_cases hn : t.number = 0
  · simp [item, written, hn]
  · simp [item, written, hn, Term.chars, Nat.repr_eq_ofList_toDigits]

theorem written_plural {n : Nat} {unit : Unit} {name : String} {named nameds nonempty letters} :
    written [Term.plural n unit name.toList named nameds nonempty letters] = itemPlural name n := by
  by_cases hn : n = 0
  · simp [itemPlural, written, hn, number_plural]
  · by_cases one : n = 1
    · simp [itemPlural, written, one, Term.plural, Term.chars, Nat.repr_eq_ofList_toDigits]
    · simp [itemPlural, written, hn, one, Term.plural, Term.chars, Nat.repr_eq_ofList_toDigits, String.append_assoc]

theorem items_eq (d : Duration) : items d = written (allTerms d) := by
  unfold items allTerms
  generalize d.seconds = s
  generalize d.subsecond = n
  simp only [written_cons_cons, written_plural, List.append_assoc]
  simp only [written_singleton]

theorem terms_ne_nil (h : d.isZero = false) : terms d ≠ [] := by
  intro none
  have total := (total_terms d).trans (total_allTerms d)
  rw [none] at total
  simp [isZero, ← total, Term.total] at h

end Terms

/-- Every duration is read back from its written form. -/
theorem parse_format (d : Duration) : parse (format d) = .ok d := by
  cases hz : d.isZero with
  | true =>
    have none : d = zero := ext_nanos (by simpa [isZero] using hz : d.nanos = 0)
    rw [none]
    rfl
  | false =>
    have shown : (format d).toList = [' '].intercalate ((terms d).map Term.chars) := by
      rw [format, hz, if_neg Bool.false_ne_true, items_eq, String.toList_intercalate, written, List.map_map, terms]
      exact congrArg _ (List.map_congr_left fun t _ => String.toList_ofList)
    have back : read (.gap 0) 0 none (format d).toList = .ok d := by
      rw [shown]
      refine read_terms (terms_ne_nil hz) countable_terms ?_
      rw [total_terms, total_allTerms]
      simp [zero]
    -- A lone zero is the one text that is not read; it is not what any duration is written as.
    have unit : format d ≠ "0" := by
      intro same
      rw [same] at back
      cases back
    rw [parse, if_neg unit]
    exact back

end ServingLifecycle.Duration.Human
