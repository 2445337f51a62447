import Mathlib.Algebra.Group.Nat.Defs
import ServingLifecycle.Instant.Timestamp
/-!
# Timestamps read back

Every instant of the calendar is read back from its timestamp, years before the first and after the ten-thousandth
among them: each field is written with the digits that reading takes, and what follows a field is no digit.
-/
namespace ServingLifecycle.Instant

variable {n width most : Nat} {rest ds : List Char} {c : Char}

theorem length_digits (n width : Nat) : (digits n width).length = width := by
  induction width generalizing n with
  | zero => rfl
  | succ width ih => simp [digits, ih]

theorem isDigit_digitChar : ∀ d, d < 10 →
    (Nat.digitChar d).isDigit = true ∧ (Nat.digitChar d).toNat - '0'.toNat = d := by
  decide

theorem isDigit_of_mem_digits (h : c ∈ digits n width) : c.isDigit = true := by
  induction width generalizing n with
  | zero => exact absurd h List.not_mem_nil
  | succ width ih =>
    rcases List.mem_append.mp h with h | h
    · exact ih h
    · rw [List.mem_singleton.mp h]
      exact (isDigit_digitChar _ (Nat.mod_lt n (by decide))).1

theorem numberOf_digits (n width : Nat) : numberOf (digits n width) = n % 10 ^ width := by
  induction width generalizing n with
  | zero => simp [digits, numberOf, Nat.mod_one]
  | succ width ih =>
    have digit := (isDigit_digitChar _ (Nat.mod_lt n (by decide))).2
    have whole : n / 10 % 10 ^ width * 10 + n % 10 = n % 10 ^ (width + 1) := by
      rw [Nat.pow_succ', Nat.mod_mul, Nat.mul_comm, Nat.add_comm]
    have last : numberOf (digits n (width + 1)) = numberOf (digits (n / 10) width) * 10
        + ((Nat.digitChar (n % 10)).toNat - '0'.toNat) := by
      rw [numberOf, digits, List.foldl_append]
      rfl
    rw [last, ih, digit, whole]

theorem numberOf_toDigits (n : Nat) : numberOf (Nat.toDigits 10 n) = n := by
  have same : ∀ m, (Nat.toDigits 10 n).foldl (fun n c => n * 10 + (c.toNat - '0'.toNat)) m =
      Nat.ofDigitChars 10 (Nat.toDigits 10 n) m := by
    induction Nat.toDigits 10 n with
    | nil => exact fun m => by simp
    | cons c ds ih =>
      intro m
      rw [Nat.ofDigitChars_cons, List.foldl_cons, ih, Nat.mul_comm]
  exact (same 0).trans Nat.ofDigitChars_ten_toDigits

theorem isBlank_of_isDigit (h : c.isDigit = true) : Text.isBlank c = false := by
  have bounds : 48 ≤ c.toNat ∧ c.toNat ≤ 57 := by
    simpa [Char.isDigit, UInt32.le_iff_toNat_le] using h
  simp [Text.isBlank, Text.inRanges, Text.blankRanges]
  omega

theorem trimStart_cons (h : Text.isBlank c = false) : Text.trimStart (c :: rest) = c :: rest :=
  List.dropWhile_cons_of_neg (by simp [h])

/-- Digits stand in front as they are, up to what is no digit. -/
theorem takeWhile_digits (h : ∀ c ∈ ds, c.isDigit = true) (stop : ∀ c ∈ rest.head?, c.isDigit = false) :
    (ds ++ rest).takeWhile Char.isDigit = ds := by
  rw [List.takeWhile_append_of_pos h]
  have none : rest.takeWhile Char.isDigit = [] := by
    cases rest with
    | nil => rfl
    | cons c rest => simp [stop c rfl]
  rw [none, List.append_nil]

theorem readNumber_digits (n : Nat) (width : Nat) (rest : List Char) :
    readNumber (width + 1) (digits n (width + 1) ++ rest) = some (n % 10 ^ (width + 1), rest) := by
  have digit : ∀ c ∈ digits n (width + 1), c.isDigit = true := fun c => isDigit_of_mem_digits
  have length := length_digits n (width + 1)
  have number := numberOf_digits n (width + 1)
  generalize digits n (width + 1) = ds at digit length number
  cases ds with
  | nil => exact absurd length nofun
  | cons c ds =>
    have front : Text.trimStart (c :: ds ++ rest) = c :: ds ++ rest :=
      trimStart_cons (isBlank_of_isDigit (digit c List.mem_cons_self))
    have taken : (c :: ds ++ rest).take (width + 1) = c :: ds := List.take_left' length
    have all : (c :: ds ++ []).takeWhile Char.isDigit = c :: ds := takeWhile_digits digit nofun
    rw [List.append_nil] at all
    have left : (c :: ds ++ rest).drop (width + 1) = rest := List.drop_left' length
    rw [readNumber, front, taken, all, length, left, number]
    rfl

theorem readMark_cons (mark : Char) (h : Text.isBlank mark = false) (rest : List Char) :
    readMark mark (mark :: rest) = some rest := by
  rw [readMark, trimStart_cons h]
  exact if_pos rfl

/-- Digits after a sign are read as a year of this sign, up to a hyphen. -/
theorem readYear_signed {sign : Char} {factor : Int} (h : sign = '-' ∧ factor = -1 ∨ sign = '+' ∧ factor = 1)
    (digit : ∀ c ∈ ds, c.isDigit = true) (nonempty : ds ≠ []) :
    readYear (sign :: ds ++ '-' :: rest) = some (factor * numberOf ds, '-' :: rest) := by
  have taken : (ds ++ '-' :: rest).takeWhile Char.isDigit = ds := takeWhile_digits digit (by simp)
  have left : (ds ++ '-' :: rest).drop ds.length = '-' :: rest := List.drop_left
  have full : ds.isEmpty = false := List.isEmpty_eq_false_iff.mpr nonempty
  have blank : Text.isBlank sign = false := by
    rcases h with ⟨rfl, -⟩ | ⟨rfl, -⟩ <;> decide
  rw [readYear, List.cons_append, trimStart_cons blank]
  rcases h with ⟨rfl, rfl⟩ | ⟨rfl, rfl⟩
  · simp [taken, full, left]
  · simp [taken, full, left]

/-- Four digits without a sign are read as a year. -/
theorem readYear_digits (n : Nat) (rest : List Char) :
    readYear (digits n 4 ++ rest) = some (((n % 10 ^ 4 : Nat) : Int), rest) := by
  have read := readNumber_digits n 3 rest
  have digit : ∀ c ∈ digits n 4, c.isDigit = true := fun c => isDigit_of_mem_digits
  have length := length_digits n 4
  generalize digits n 4 = ds at read digit length
  cases ds with
  | nil => exact absurd length nofun
  | cons c ds =>
    have own := digit c List.mem_cons_self
    have minus : c ≠ '-' := by rintro rfl; exact absurd own nofun
    have plus : c ≠ '+' := by rintro rfl; exact absurd own nofun
    rw [readYear, List.cons_append, trimStart_cons (isBlank_of_isDigit own)]
    rw [List.cons_append] at read
    split
    · next front => exact absurd (List.cons.inj front).1 minus
    · next front => exact absurd (List.cons.inj front).1 plus
    · rw [read, Option.map_some]

theorem readYear_yearText (year : Int) (rest : List Char) :
    readYear (yearText year ++ '-' :: rest) = some (year, '-' :: rest) := by
  unfold yearText
  split
  case isTrue plain =>
    have whole : ((year.toNat % 10 ^ 4 : Nat) : Int) = year := by omega
    rw [readYear_digits, whole]
  case isFalse signed =>
    have signs : (if year < 0 then '-' else '+') = '-' ∧ (if year < 0 then (-1 : Int) else 1) = -1 ∨
        (if year < 0 then '-' else '+') = '+' ∧ (if year < 0 then (-1 : Int) else 1) = 1 := by
      by_cases negative : year < 0 <;> simp [negative]
    have value : (if year < 0 then (-1 : Int) else 1) * (year.natAbs : Int) = year := by
      split <;> omega
    dsimp only
    by_cases few : year.natAbs ≤ 9999
    · rw [if_pos few]
      have number : numberOf (digits year.natAbs 4) = year.natAbs := by
        rw [numberOf_digits]
        omega
      have nonempty : digits year.natAbs 4 ≠ [] := List.ne_nil_of_length_eq_add_one (length_digits _ 4)
      rw [readYear_signed signs (fun c => isDigit_of_mem_digits) nonempty, number, value]
    · rw [if_neg few]
      have digit : ∀ c ∈ Nat.toDigits 10 year.natAbs, c.isDigit = true := fun c hc =>
        Nat.isDigit_of_mem_toDigits (by decide) (by decide) hc
      rw [readYear_signed signs digit Nat.toDigits_ne_nil, numberOf_toDigits, value]

theorem readFraction_digits {m : Nat} (pos : 0 < width) (few : width ≤ 9) (small : m < 10 ^ width) :
    readFraction ('.' :: digits m width ++ ['Z']) = some (m * 10 ^ (9 - width), ['Z']) := by
  have taken : (digits m width ++ ['Z']).takeWhile Char.isDigit = digits m width :=
    takeWhile_digits (fun c => isDigit_of_mem_digits) (by simp)
  have length := length_digits m width
  have nine : (digits m width).take 9 = digits m width := List.take_of_length_le (by omega)
  have full : (digits m width).isEmpty = false := by
    rw [List.isEmpty_eq_false_iff, ← List.length_pos_iff]
    omega
  have left : (digits m width ++ ['Z']).drop (digits m width).length = ['Z'] := List.drop_left
  rw [List.cons_append, readFraction, taken, full, nine, left, numberOf_digits, Nat.mod_eq_of_lt small, length]
  rfl

theorem readFraction_fractionText (h : n < 1000000000) : readFraction (fractionText n ++ ['Z']) = some (n, ['Z']) := by
  unfold fractionText
  split
  case isTrue none => subst none; rfl
  case isFalse =>
    split
    case isTrue millis =>
      have whole : n / 1000000 * 10 ^ (9 - 3) = n := by omega
      rw [readFraction_digits (by decide) (by decide) (by omega), whole]
    case isFalse =>
      split
      case isTrue micros =>
        have whole : n / 1000 * 10 ^ (9 - 6) = n := by omega
        rw [readFraction_digits (by decide) (by decide) (by omega), whole]
      case isFalse =>
        rw [readFraction_digits (by decide) (by decide) (by omega), Nat.sub_self, Nat.pow_zero, Nat.mul_one]

theorem daysInMonth_le (year : Int) (month : Nat) : daysInMonth year month ≤ 31 := by
  unfold daysInMonth
  split
  · split <;> omega
  · split <;> omega

/-- An instant is read back from its timestamp. -/
theorem parse?_timestamp {i : Instant} (h : i.Valid) : parse? i.timestamp = some i := by
  have two : ∀ {n : Nat}, n < 100 → ∀ rest, readNumber 2 (digits n 2 ++ rest) = some (n, rest) := by
    intro n small rest
    have whole : n % 10 ^ (1 + 1) = n := Nat.mod_eq_of_lt (by simpa using small)
    rw [readNumber_digits n 1 rest, whole]
  have chars : i.timestampChars = yearText i.year ++ '-' :: (digits i.month 2 ++ '-' :: (digits i.day 2 ++
      'T' :: (digits i.hour 2 ++ ':' :: (digits i.minute 2 ++ ':' :: (digits i.second 2 ++
        (fractionText i.nanos ++ ['Z'])))))) := by
    simp [timestampChars]
  obtain ⟨-, -, -, month, -, day, hour, minute, second, nanos⟩ := id h
  have days : i.day < 100 := by
    have most := daysInMonth_le i.year i.month
    omega
  have hyphen := readMark_cons '-' (by decide)
  have colon := readMark_cons ':' (by decide)
  rw [parse?, timestamp, String.toList_ofList, chars]
  -- The fields are read one after the other, each up to where the next one starts.
  refine Option.bind_eq_some_iff.mpr ⟨_, readYear_yearText _ _, ?_⟩
  refine Option.bind_eq_some_iff.mpr ⟨_, hyphen _, ?_⟩
  refine Option.bind_eq_some_iff.mpr ⟨_, two (show i.month < 100 by omega) _, ?_⟩
  refine Option.bind_eq_some_iff.mpr ⟨_, hyphen _, ?_⟩
  refine Option.bind_eq_some_iff.mpr ⟨_, two days _, ?_⟩
  refine Option.bind_eq_some_iff.mpr ⟨_, (rfl : readSeparator ('T' :: _) = some _), ?_⟩
  refine Option.bind_eq_some_iff.mpr ⟨_, two (show i.hour < 100 by omega) _, ?_⟩
  refine Option.bind_eq_some_iff.mpr ⟨_, colon _, ?_⟩
  refine Option.bind_eq_some_iff.mpr ⟨_, two (show i.minute < 100 by omega) _, ?_⟩
  refine Option.bind_eq_some_iff.mpr ⟨_, colon _, ?_⟩
  refine Option.bind_eq_some_iff.mpr ⟨_, two (show i.second < 100 by omega) _, ?_⟩
  refine Option.bind_eq_some_iff.mpr ⟨_, readFraction_fractionText nanos, ?_⟩
  refine Option.bind_eq_some_iff.mpr ⟨_, (rfl : readOffset (Text.trimStart ['Z']) = some (0, [])), ?_⟩
  dsimp only
  rw [behind_zero h, if_pos]
  exact ⟨rfl, h, h⟩

end ServingLifecycle.Instant
