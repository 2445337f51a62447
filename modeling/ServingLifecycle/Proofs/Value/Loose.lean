import Mathlib.Data.List.TakeWhile
import ServingLifecycle.Value.Loose
import ServingLifecycle.Value.Reader
/-!
# Texts that stand for themselves

Which texts a variable of the environment means as they stand: those that are written like no other value. A text that
begins with a word or a mark stands for itself just when it does not go on as the word or the mark asks; any other one
if it has no blanks around it and is no number, or if a character in it keeps it from being read at all.
-/
namespace ServingLifecycle

namespace Text

variable {s t rest : List Char}

theorem length_coded {width : Nat} {c : Char} (h : coded width s = some (c, rest)) : rest.length ≤ s.length := by
  unfold coded at h
  dsimp only at h
  split at h
  · obtain ⟨-, rfl⟩ := Prod.mk.inj (Option.some.inj h)
    rw [List.length_drop]
    omega
  · exact absurd h nofun

theorem length_escape? {c : Char} (h : escape? s = some (c, rest)) : rest.length ≤ s.length := by
  unfold escape? at h
  split at h
  case h_8 => exact Nat.le_succ_of_le (length_coded h)
  case h_9 => exact Nat.le_succ_of_le (length_coded h)
  case h_10 => exact absurd h nofun
  all_goals
    obtain ⟨-, rfl⟩ := Prod.mk.inj (Option.some.inj h)
    exact Nat.le_succ _

/-- A text is longer as it is written, with its closing quote, than as it is meant. -/
theorem length_untilQuote {most : Nat} (h : untilQuote most s = some (t, rest)) : t.length < s.length := by
  induction most generalizing s t rest with
  | zero => exact absurd h nofun
  | succ most ih =>
    cases s with
    | nil => exact absurd h nofun
    | cons c after =>
      rw [untilQuote] at h
      split at h
      · obtain ⟨rfl, -⟩ := Prod.mk.inj (Option.some.inj h)
        simp
      · split at h
        · split at h
          · next e left escape =>
            obtain ⟨r, hr, he⟩ := Option.map_eq_some_iff.mp h
            obtain ⟨rfl, -⟩ := Prod.mk.inj he
            have shorter := ih hr
            have shrunk := length_escape? escape
            simp only [List.length_cons]
            omega
          · exact absurd h nofun
        · split at h
          · obtain ⟨r, hr, he⟩ := Option.map_eq_some_iff.mp h
            obtain ⟨rfl, -⟩ := Prod.mk.inj he
            have shorter := ih hr
            simp only [List.length_cons]
            omega
          · exact absurd h nofun

end Text

namespace Value

namespace Loose

variable {s rest : List Char} {c : Char} {depth : Nat} {v w : Value}

/-- What follows `true` or `false`, if a text starts with one of them. -/
def afterWord? (s : List Char) : Option (List Char) :=
  (after? "true".toList s).or (after? "false".toList s)

/-- The marks that texts, characters, lists and tables start with. -/
def isMark (c : Char) : Bool :=
  c == '\x7b' || c == '[' || c == '"' || c == '\''

def isNumber (s : List Char) : Bool :=
  isDecimal s || (count? s).isSome || (negative? s).isSome

theorem plain_eq_text_iff {text : String} :
    plain s = .text text ↔ isNumber (Text.trim s) = false ∧ String.ofList (Text.trim s) = text := by
  unfold plain isNumber
  dsimp only
  cases isDecimal (Text.trim s) with
  | true => simp
  | false => cases count? (Text.trim s) <;> cases negative? (Text.trim s) <;> simp

theorem plain_ne_character : plain s ≠ .character c := by
  unfold plain
  dsimp only
  split
  · nofun
  · split <;> nofun

theorem valueWithin_word (depth : Nat) (h : afterWord? (skipSpace s) = some rest) :
    ∃ b, valueWithin (depth + 1) s = some (.bool b, skipSpace rest) := by
  unfold afterWord? at h
  rw [valueWithin]
  cases ht : after? "true".toList (skipSpace s) with
  | some after =>
    rw [ht] at h
    obtain rfl := Option.some.inj h
    exact ⟨true, rfl⟩
  | none =>
    rw [ht, Option.none_or] at h
    rw [h]
    exact ⟨false, rfl⟩

theorem valueWithin_plain (depth : Nat) (word : afterWord? (skipSpace s) = none)
    (mark : ∀ c ∈ (skipSpace s).head?, isMark c = false) : valueWithin (depth + 1) s =
      some (plain ((skipSpace s).takeWhile isPlain), skipSpace ((skipSpace s).dropWhile isPlain)) := by
  obtain ⟨ht, hf⟩ := Option.or_eq_none_iff.mp word
  rw [valueWithin, ht, hf]
  generalize skipSpace s = t at mark
  dsimp only
  split
  case h_6 => rfl
  all_goals exact absurd (mark _ rfl) (by decide)

/-- What begins with a mark and can be read is no text of the same length, and a character among others. -/
theorem valueWithin_mark (word : afterWord? (skipSpace s) = none) (stands : skipSpace s = c :: rest)
    (mark : isMark c = true) (hv : valueWithin (depth + 1) s = some (v, [])) :
    (∀ text, v = .text text → text.length < s.length) ∧ ∀ c, v = .character c → 1 < s.length := by
  obtain ⟨ht, hf⟩ := Option.or_eq_none_iff.mp word
  have least : (c :: rest).length ≤ s.length := stands ▸ (List.dropWhile_suffix isSpace).length_le
  rw [valueWithin, ht, hf, stands] at hv
  obtain ⟨r, hr, he⟩ := Option.map_eq_some_iff.mp hv
  obtain ⟨rfl, -⟩ := Prod.mk.inj he
  dsimp only at hr
  split at hr
  case h_1 =>
    obtain ⟨pairs, -, rfl⟩ := Option.map_eq_some_iff.mp hr
    exact ⟨nofun, nofun⟩
  case h_2 =>
    obtain ⟨items, -, rfl⟩ := Option.map_eq_some_iff.mp hr
    exact ⟨nofun, nofun⟩
  case h_3 after same =>
    obtain ⟨chars, hc, rfl⟩ := Option.map_eq_some_iff.mp hr
    obtain ⟨-, rfl⟩ := List.cons.inj same
    have shorter := Text.length_untilQuote hc
    refine ⟨?_, nofun⟩
    intro text ht
    obtain rfl := Value.text.inj ht
    simp only [String.length_ofList, List.length_cons] at least ⊢
    omega
  case h_4 c' after same =>
    obtain rfl := Option.some.inj hr
    refine ⟨nofun, ?_⟩
    intro c _
    rw [same] at least
    simp only [List.length_cons] at least
    omega
  case h_5 => exact absurd hr nofun
  case h_6 brace bracket quote _ apostrophe =>
    have marks : c = '\x7b' ∨ c = '[' ∨ c = '"' ∨ c = '\'' := by simpa [isMark, or_assoc] using mark
    rcases marks with rfl | rfl | rfl | rfl
    · exact absurd rfl (brace rest)
    · exact absurd rfl (bracket rest)
    · exact absurd rfl (quote rest)
    · exact absurd rfl (apostrophe rest)

theorem isPlain_of_isSpace (h : isSpace c = true) : isPlain c = true := by
  simp only [isSpace, Bool.or_eq_true, beq_iff_eq] at h
  rcases h with (((rfl | rfl) | rfl) | rfl) | rfl <;> decide

theorem isBlank_of_isSpace (h : isSpace c = true) : Text.isBlank c = true := by
  simp only [isSpace, Bool.or_eq_true, beq_iff_eq] at h
  rcases h with (((rfl | rfl) | rfl) | rfl) | rfl <;> decide

/-- Trimming takes the space at the start away, too. -/
theorem trim_skipSpace (s : List Char) : Text.trim (skipSpace s) = Text.trim s := by
  have start : Text.trimStart (skipSpace s) = Text.trimStart s := by
    induction s with
    | nil => rfl
    | cons c s ih =>
      cases hc : isSpace c with
      | true =>
        have blank := isBlank_of_isSpace hc
        rw [skipSpace, List.dropWhile_cons_of_pos hc, Text.trimStart, Text.trimStart, List.dropWhile_cons_of_pos blank]
        exact ih
      | false => rw [skipSpace, List.dropWhile_cons_of_neg (by simp [hc])]
  rw [Text.trim, Text.trim, start]

theorem all_isPlain_skipSpace : (skipSpace s).all isPlain = s.all isPlain := by
  induction s with
  | nil => rfl
  | cons c s ih =>
    cases hc : isSpace c with
    | true =>
      rw [skipSpace, List.dropWhile_cons_of_pos hc, ← skipSpace, ih, List.all_cons, isPlain_of_isSpace hc,
        Bool.true_and]
    | false => rw [skipSpace, List.dropWhile_cons_of_neg (by simp [hc])]

/-- What stops the reading of plain characters is no space, so something is left over. -/
theorem skipSpace_dropWhile_ne_nil (h : s.all isPlain = false) : skipSpace ((skipSpace s).dropWhile isPlain) ≠ [] := by
  have left : (skipSpace s).dropWhile isPlain ≠ [] := by
    rw [ne_eq, List.dropWhile_eq_nil_iff, ← List.all_eq_true, all_isPlain_skipSpace, h]
    exact Bool.false_ne_true
  have stop := List.head?_dropWhile_not isPlain (skipSpace s)
  cases hd : (skipSpace s).dropWhile isPlain with
  | nil => exact absurd hd left
  | cons c rest =>
    rw [hd] at stop
    have space : isSpace c = false := by
      rw [Bool.eq_false_iff]
      intro space
      exact absurd (isPlain_of_isSpace space) (by simpa using stop)
    rw [skipSpace, List.dropWhile_cons_of_neg (by simp [space])]
    exact List.cons_ne_nil _ _

theorem valueWithin_allPlain (depth : Nat) (word : afterWord? (skipSpace s) = none)
    (mark : ∀ c ∈ (skipSpace s).head?, isMark c = false) (h : s.all isPlain = true) :
    valueWithin (depth + 1) s = some (plain (skipSpace s), []) := by
  rw [← all_isPlain_skipSpace, List.all_eq_true] at h
  have taken : (skipSpace s).takeWhile isPlain = skipSpace s := List.takeWhile_eq_self_iff.mpr h
  have left : (skipSpace s).dropWhile isPlain = [] := List.dropWhile_eq_nil_iff.mpr h
  rw [valueWithin_plain depth word mark, taken, left]
  rfl

/-- Plain characters are read as the text that they make if it has no blanks at its ends and is no number. -/
theorem plain_skipSpace_eq_text_iff {text : String} : plain (skipSpace text.toList) = .text text ↔
    Text.trim text.toList = text.toList ∧ isNumber text.toList = false := by
  have kept : String.ofList (Text.trim text.toList) = text ↔ Text.trim text.toList = text.toList := by
    refine ⟨fun same => ?_, fun same => ?_⟩
    · have chars := congrArg String.toList same
      rwa [String.toList_ofList] at chars
    · rw [same, String.ofList_toList]
  rw [plain_eq_text_iff, trim_skipSpace, kept]
  constructor
  · rintro ⟨number, trimmed⟩
    exact ⟨trimmed, by rwa [trimmed] at number⟩
  · rintro ⟨trimmed, number⟩
    exact ⟨by rwa [trimmed], trimmed⟩

end Loose

open Loose

variable {text : String}

/-- A text that stands for itself as it is. -/
def Verbatim (text : String) : Prop :=
  match afterWord? (skipSpace text.toList) with
  | some rest => skipSpace rest ≠ []
  | none =>
    if (skipSpace text.toList).head?.any isMark then ∀ v, valueWithin (text.length + 1) text.toList ≠ some (v, [])
    else text.toList.all isPlain = false ∨ Text.trim text.toList = text.toList ∧ isNumber text.toList = false

theorem ofLoose_of_valueWithin {v : Value} (h : valueWithin (text.length + 1) text.toList = some (v, [])) :
    ofLoose text = v := by
  rw [ofLoose, h]

theorem ofLoose_of_ne (h : ∀ v, valueWithin (text.length + 1) text.toList ≠ some (v, [])) :
    ofLoose text = .text text := by
  unfold ofLoose
  split
  · next v hv => exact absurd hv (h v)
  · rfl

/-- The texts that are read as themselves. -/
theorem ofLoose_eq_text_iff : ofLoose text = .text text ↔ Verbatim text := by
  unfold Verbatim
  cases hw : afterWord? (skipSpace text.toList) with
  | some rest =>
    obtain ⟨b, hv⟩ := valueWithin_word text.length hw
    dsimp only
    constructor
    · intro same left
      rw [left] at hv
      rw [ofLoose_of_valueWithin hv] at same
      exact absurd same nofun
    · intro left
      refine ofLoose_of_ne fun v h => left ?_
      rw [hv] at h
      exact (Prod.mk.inj (Option.some.inj h)).2
  | none =>
    dsimp only
    split
    case isTrue mark =>
      obtain ⟨c, rest, stands, marked⟩ : ∃ c rest, skipSpace text.toList = c :: rest ∧ isMark c = true := by
        cases hs : skipSpace text.toList with
        | nil => simp [hs] at mark
        | cons c rest => exact ⟨c, rest, rfl, by simpa [hs] using mark⟩
      constructor
      · intro same v hv
        obtain ⟨shorter, -⟩ := valueWithin_mark hw stands marked hv
        have less := shorter text ((ofLoose_of_valueWithin hv).symm.trans same)
        exact absurd String.length_toList (Nat.ne_of_gt less)
      · exact ofLoose_of_ne
    case isFalse unmarked =>
      have mark : ∀ c ∈ (skipSpace text.toList).head?, isMark c = false := by
        intro c hc
        rw [hc] at unmarked
        simpa using unmarked
      cases hp : text.toList.all isPlain with
      | false =>
        refine ⟨fun _ => .inl rfl, fun _ => ofLoose_of_ne fun v hv => skipSpace_dropWhile_ne_nil hp ?_⟩
        rw [valueWithin_plain text.length hw mark] at hv
        exact (Prod.mk.inj (Option.some.inj hv)).2
      | true =>
        rw [ofLoose_of_valueWithin (valueWithin_allPlain text.length hw mark hp), plain_skipSpace_eq_text_iff]
        exact ⟨.inr, fun h => h.resolve_left Bool.noConfusion⟩

/-- A character is written with a mark on either side of it. -/
theorem length_of_ofLoose_character {c : Char} (h : ofLoose text = .character c) : 1 < text.toList.length := by
  unfold ofLoose at h
  split at h
  case h_2 => exact absurd h nofun
  case h_1 v hv =>
    subst h
    cases hw : afterWord? (skipSpace text.toList) with
    | some rest =>
      obtain ⟨b, word⟩ := valueWithin_word text.length hw
      rw [hv] at word
      exact absurd (Prod.mk.inj (Option.some.inj word)).1 nofun
    | none =>
      cases hs : skipSpace text.toList with
      | nil =>
        have read := valueWithin_plain text.length hw (by simp [hs])
        rw [hv] at read
        exact absurd (Prod.mk.inj (Option.some.inj read)).1.symm plain_ne_character
      | cons d rest =>
        cases marked : isMark d with
        | true => exact (valueWithin_mark hw hs marked hv).2 c rfl
        | false =>
          have read := valueWithin_plain text.length hw (by simp [hs, marked])
          rw [hv] at read
          exact absurd (Prod.mk.inj (Option.some.inj read)).1.symm plain_ne_character

/-- A text is read where it is written just when it stands for itself. -/
theorem asText_ofLoose : (ofLoose text).asText = .ok text ↔ Verbatim text := by
  rw [← ofLoose_eq_text_iff]
  constructor
  · intro read
    unfold asText at read
    split at read
    · next s same => rw [same, Except.ok.inj read]
    · next c same =>
      -- A character has its two marks around it, so it is not written with one character.
      obtain rfl := Except.ok.inj read
      have long := length_of_ofLoose_character same
      rw [String.toList_singleton] at long
      exact absurd long (Nat.lt_irrefl 1)
    · exact absurd read nofun
  · intro same
    rw [same]
    rfl

end Value
end ServingLifecycle
