import ServingLifecycle.Proofs.Settings.Environment
/-!
# A document of one line

Any text without controls can be given below any path of plain names by a document of one line: the names with points
between them, and the text between double quotes, with a backslash before each quote and each backslash.
-/
namespace ServingLifecycle

open Value Environment

namespace Text

variable {s rest : List Char}

/-- A text as it stands between double quotes. -/
def inQuotes (s : List Char) : List Char :=
  s.flatMap fun c => if c = '"' ∨ c = '\\' then ['\\', c] else [c]

theorem untilQuote_inQuotes {most : Nat} (legal : ∀ c ∈ s, isLegal c = true) (enough : (inQuotes s).length < most) :
    untilQuote most (inQuotes s ++ '"' :: rest) = some (s, rest) := by
  induction s generalizing most with
  | nil =>
    obtain ⟨most, rfl⟩ := Nat.exists_eq_succ_of_ne_zero (Nat.ne_zero_of_lt enough)
    rw [inQuotes, List.flatMap_nil, List.nil_append, untilQuote, if_pos rfl]
  | cons c s ih =>
    obtain ⟨own, legal⟩ := List.forall_mem_cons.mp legal
    obtain ⟨most, rfl⟩ := Nat.exists_eq_succ_of_ne_zero (Nat.ne_zero_of_lt enough)
    rw [inQuotes, List.flatMap_cons, ← inQuotes] at enough ⊢
    by_cases special : c = '"' ∨ c = '\\'
    · rw [if_pos special] at enough ⊢
      have later : (inQuotes s).length < most := by
        simp only [List.length_append, List.length_cons, List.length_nil] at enough
        omega
      have escape : escape? (c :: inQuotes s ++ '"' :: rest) = some (c, inQuotes s ++ '"' :: rest) := by
        rcases special with rfl | rfl <;> rfl
      rw [List.cons_append, List.cons_append, List.cons_append, List.nil_append, untilQuote, if_neg (by decide),
        if_pos rfl, escape]
      dsimp only
      rw [ih legal later]
      rfl
    · rw [if_neg special] at enough ⊢
      obtain ⟨quote, backslash⟩ := not_or.mp special
      have later : (inQuotes s).length < most := by
        simp only [List.length_append, List.length_cons, List.length_nil] at enough
        omega
      rw [List.cons_append, List.cons_append, List.nil_append, untilQuote, if_neg quote, if_neg backslash, if_pos own,
        ih legal later]
      rfl

/-- What stands between double quotes is read back. -/
theorem escaped_inQuotes (legal : ∀ c ∈ s, isLegal c = true) :
    escaped (inQuotes s ++ '"' :: rest) = some (s, rest) := by
  refine untilQuote_inQuotes legal ?_
  simp only [List.length_append, List.length_cons]
  omega

end Text

namespace Toml

variable {k : String} {keys : List String} {s rest : List Char} {stop : Char} {most : Nat}

theorem isNameChar_of_isKey (h : IsKey k) : ∀ c ∈ k.toList, isNameChar c = true := by
  intro c hc
  rcases h.chars c hc with small | digit | rfl
  · have lower : c.isLower = true := Bool.and_eq_true_iff.mpr ⟨decide_eq_true small.1, decide_eq_true small.2⟩
    have letter : c.isAlpha = true := Bool.or_eq_true_iff.mpr (.inr lower)
    simp [isNameChar, Char.isAlphanum, letter]
  · have digit : c.isDigit = true := Bool.and_eq_true_iff.mpr ⟨decide_eq_true digit.1, decide_eq_true digit.2⟩
    simp [isNameChar, Char.isAlphanum, digit]
  · decide

theorem skipGap_cons {c : Char} (h : isGap c = false) : skipGap (c :: rest) = c :: rest :=
  List.dropWhile_cons_of_neg (by simp [h])

/-- The first character of a name is none that a line or a value without marks can start with. -/
theorem ne_of_isNameChar {c d : Char} (h : isNameChar c = true) (other : isNameChar d = false) : c ≠ d := by
  rintro rfl
  rw [h] at other
  exact absurd other nofun

theorem isGap_of_isNameChar {c : Char} (h : isNameChar c = true) : isGap c = false := by
  simp [isGap, ne_of_isNameChar h (d := ' ') (by decide), ne_of_isNameChar h (d := '\t') (by decide)]

theorem name?_append (h : IsKey k) (stops : isNameChar stop = false) :
    name? (k.toList ++ stop :: rest) = some (k, stop :: rest) := by
  have chars := isNameChar_of_isKey h
  have taken : (k.toList ++ stop :: rest).takeWhile isNameChar = k.toList := by
    rw [List.takeWhile_append_of_pos chars, List.takeWhile_cons_of_neg (by simp [stops]), List.append_nil]
  have full : k.toList.isEmpty = false := List.isEmpty_eq_false_iff.mpr h.nonempty
  have unmarked : line? (k.toList ++ stop :: rest) = none := by
    cases hk : k.toList with
    | nil => exact absurd hk h.nonempty
    | cons c cs =>
      have name := chars c (hk ▸ List.mem_cons_self)
      rw [line?.eq_def]
      split
      · next same => exact absurd (List.cons.inj same).1 (ne_of_isNameChar name (by decide))
      · next same => exact absurd (List.cons.inj same).1 (ne_of_isNameChar name (by decide))
      · rfl
  rw [name?, unmarked]
  dsimp only
  rw [taken, full, List.drop_left, String.ofList_toList]
  rfl

/-- The key that some names are, of which there is at least one. -/
def keyOf (k : String) : List String → Key
  | [] => ⟨[], k⟩
  | k' :: keys => ⟨k :: (keyOf k' keys).path, (keyOf k' keys).name⟩

theorem skipGap_of_isKey (h : IsKey k) : skipGap (k.toList ++ rest) = k.toList ++ rest := by
  cases hk : k.toList with
  | nil => exact absurd hk h.nonempty
  | cons c cs => exact skipGap_cons (isGap_of_isNameChar (isNameChar_of_isKey h c (hk ▸ List.mem_cons_self)))

theorem dotted_cons_cons (k k' : String) (keys : List String) :
    dotted (k :: k' :: keys) = k.toList ++ '.' :: dotted (k' :: keys) := by
  rw [dotted, List.map_cons, List.map_cons, List.intercalate_cons_cons, ← List.map_cons, ← dotted, List.append_assoc]
  rfl

theorem dotted_singleton (k : String) : dotted [k] = k.toList :=
  List.intercalate_singleton

theorem keyWithin_dotted (h : ∀ k' ∈ k :: keys, IsKey k') (few : keys.length < most) :
    keyWithin most (dotted (k :: keys) ++ ' ' :: '=' :: rest) = some (keyOf k keys, '=' :: rest) := by
  induction keys generalizing k most with
  | nil =>
    obtain ⟨most, rfl⟩ := Nat.exists_eq_succ_of_ne_zero (Nat.ne_zero_of_lt few)
    have own : IsKey k := h k List.mem_cons_self
    have gap : skipGap (' ' :: '=' :: rest) = '=' :: rest := rfl
    rw [dotted_singleton, keyWithin, skipGap_of_isKey own,
      name?_append own (by decide)]
    dsimp only
    rw [gap]
    rfl
  | cons k' keys ih =>
    obtain ⟨most, rfl⟩ := Nat.exists_eq_succ_of_ne_zero (Nat.ne_zero_of_lt few)
    obtain ⟨own, others⟩ := List.forall_mem_cons.mp h
    have point : skipGap ('.' :: (dotted (k' :: keys) ++ ' ' :: '=' :: rest)) =
        '.' :: (dotted (k' :: keys) ++ ' ' :: '=' :: rest) := skipGap_cons (by decide)
    rw [dotted_cons_cons, List.append_assoc, List.cons_append, keyWithin, skipGap_of_isKey own,
      name?_append own (by decide)]
    dsimp only
    rw [point]
    change (keyWithin most (dotted (k' :: keys) ++ ' ' :: '=' :: rest)).map _ = _
    rw [ih others (by simpa using few)]
    rfl

/-- The entries that a single key with points gives rise to. -/
def pointedEntries (v : Value) (k : String) : List String → Entries
  | [] => [(k, .value v)]
  | k' :: keys => [(k, .table .pointed (pointedEntries v k' keys))]

theorem alter_keyOf {change : Origin → Entries → Option Entries} {origin : Origin} {v : Value}
    (h : change (if keys = [] then origin else .pointed) [] = some [((keyOf k keys).name, .value v)]) :
    Entries.alter true change (keyOf k keys).path origin [] = some (pointedEntries v k keys) := by
  induction keys generalizing k origin with
  | nil => exact h
  | cons k' keys ih =>
    have inner : Entries.alter true change (keyOf k' keys).path .pointed [] = some (pointedEntries v k' keys) :=
      ih (by simpa [keyOf] using h)
    rw [keyOf, Entries.alter, List.lookup_nil]
    dsimp only
    rw [if_pos rfl, inner]
    rfl

theorem put_keyOf (v : Value) : Entries.put (keyOf k keys) v [] = some (pointedEntries v k keys) := by
  refine alter_keyOf ?_
  cases keys with
  | nil => rfl
  | cons k' keys => simp [Entries.set]

theorem toValue_pointedEntries (v : Value) : (pointedEntries v k keys).toValue = nested (k :: keys) v := by
  induction keys generalizing k with
  | nil => rfl
  | cons k' keys ih =>
    have inner : (Entry.table .pointed (pointedEntries v k' keys)).toValue = nested (k' :: keys) v := ih
    rw [pointedEntries, Entries.toValue, Entries.values, inner]
    rfl

theorem text?_inQuotes (legal : ∀ c ∈ s, Text.isLegal c = true) :
    text? ('"' :: (Text.inQuotes s ++ ['"'])) = some (s, []) := by
  have single : ∀ rest, Text.inQuotes s ++ ['"'] ≠ '"' :: '"' :: rest := by
    intro rest same
    cases s with
    | nil => exact absurd same nofun
    | cons c s =>
      rw [Text.inQuotes, List.flatMap_cons] at same
      split at same
      · exact absurd (List.cons.inj same).1 (by decide)
      · next plain => exact plain (.inl (List.cons.inj same).1)
  rw [text?.eq_def]
  split
  · next rest same => exact absurd (List.cons.inj same).2 (single rest)
  · next same => exact absurd (List.cons.inj same).1 (by decide)
  · exact Text.escaped_inQuotes legal

theorem value?_inQuotes (legal : ∀ c ∈ s, Text.isLegal c = true) :
    value? ('"' :: (Text.inQuotes s ++ ['"'])) = some (.text (String.ofList s), []) := by
  rw [value?, depthLimit, valueWithin, text?_inQuotes legal]
  · exact fun _ same => absurd (List.cons.inj same).1 (by decide)
  · exact fun _ same => absurd (List.cons.inj same).1 (by decide)

/-- A line that starts with a name gives a key its value. -/
theorem statements?_entry {c : Char} {key : Key} {v : Value} (name : isNameChar c = true)
    (read : pair? value? (c :: rest) = some ((key, v), [])) : statements? (c :: rest) = some [.entry key v] := by
  have statement : statement? (c :: rest) = some (some (.entry key v), []) := by
    have starts : ∀ {d : Char} {after : List Char}, isNameChar d = false → c :: rest ≠ d :: after :=
      fun other same => ne_of_isNameChar name other (List.cons.inj same).1
    rw [statement?, skipGap_cons (isGap_of_isNameChar name)]
    split
    · next same => exact absurd same nofun
    · next same => exact absurd same (starts (by decide))
    · next same => exact absurd same (starts (by decide))
    · next same => exact absurd same (starts (by decide))
    · next same => exact absurd same (starts (by decide))
    · next same => exact absurd same (starts (by decide))
    · rw [read]
      rfl
  have within : statementsWithin (c :: rest).length (c :: rest) = some [.entry key v] := by
    have last : statementsWithin rest.length [] = some [] := by
      cases rest <;> rfl
    rw [List.length_cons, statementsWithin, statement]
    dsimp only
    rw [last]
    rfl
  rw [statements?]
  · exact within
  · exact fun after same => ne_of_isNameChar name (by decide) (List.cons.inj same).1

/-- The line that gives a text below a path of names. -/
def line (keys : List String) (text : String) : String :=
  String.ofList (dotted keys ++ " = \"".toList ++ Text.inQuotes text.toList ++ ['"'])

section Line

variable {text : String} {ks : List String}

theorem toList_line (keys : List String) (text : String) : (line keys text).toList =
    dotted keys ++ ' ' :: '=' :: ' ' :: '"' :: (Text.inQuotes text.toList ++ ['"']) := by
  rw [line, String.toList_ofList]
  simp

theorem pair?_line (h : ∀ k' ∈ k :: ks, IsKey k') (few : (k :: ks).length < depthLimit)
    (legal : ∀ c ∈ text.toList, Text.isLegal c = true) :
    pair? value? (line (k :: ks) text).toList = some ((keyOf k ks, .text text), []) := by
  have key : key? (line (k :: ks) text).toList =
      some (keyOf k ks, '=' :: ' ' :: '"' :: (Text.inQuotes text.toList ++ ['"'])) := by
    rw [toList_line, key?, keyWithin_dotted h]
    simp only [List.length_cons] at few
    omega
  rw [pair?, key]
  change (value? ('"' :: (Text.inQuotes text.toList ++ ['"']))).map _ = _
  rw [value?_inQuotes legal, String.ofList_toList]
  rfl

theorem statements?_line (h : ∀ k' ∈ k :: ks, IsKey k') (few : (k :: ks).length < depthLimit)
    (legal : ∀ c ∈ text.toList, Text.isLegal c = true) :
    statements? (line (k :: ks) text).toList = some [.entry (keyOf k ks) (.text text)] := by
  have own : IsKey k := h k List.mem_cons_self
  have pair := pair?_line h few legal
  obtain ⟨more, front⟩ : ∃ more, dotted (k :: ks) = k.toList ++ more := by
    cases ks with
    | nil => exact ⟨[], by rw [dotted_singleton, List.append_nil]⟩
    | cons k' ks => exact ⟨_, dotted_cons_cons k k' ks⟩
  rw [toList_line, front] at pair ⊢
  cases hk : k.toList with
  | nil => exact absurd hk own.nonempty
  | cons c cs =>
    rw [hk] at pair
    exact statements?_entry (isNameChar_of_isKey own c (hk ▸ List.mem_cons_self)) pair

theorem parse?_line (h : ∀ k ∈ keys, IsKey k) (hne : keys ≠ []) (few : keys.length < depthLimit)
    (legal : ∀ c ∈ text.toList, Text.isLegal c = true) : parse? (line keys text) = some (nested keys (.text text)) := by
  obtain ⟨k, ks, rfl⟩ := List.exists_cons_of_ne_nil hne
  have taken : Draft.take Draft.start (.entry (keyOf k ks) (.text text)) =
      some ⟨pointedEntries (.text text) k ks, []⟩ := by
    change (Entries.put (keyOf k ks) (.text text) []).map _ = _
    rw [put_keyOf]
    rfl
  rw [parse?, statements?_line h few legal]
  change (Draft.take Draft.start (.entry (keyOf k ks) (.text text)) >>= fun d => some d).bind
    (fun d => some d.root.toValue) = _
  rw [taken]
  exact congrArg some (toValue_pointedEntries _)

end Line

end Toml
end ServingLifecycle
