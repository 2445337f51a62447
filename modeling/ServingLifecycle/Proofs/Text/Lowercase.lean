import ServingLifecycle.PredictorKind
/-!
# Lower case for good

What lower-casing makes of a text it leaves as it is: no character that it writes has a lower-case form of its own, and
none of them is blank or a capital sigma. The letters of ASCII can be lower-cased beforehand, since neither a final
sigma nor the end of a blank depends on them.
-/
namespace ServingLifecycle.Text

variable {c d : Char} {cs before rest : List Char} {n : Nat}

/-! ### Trimmed texts -/

/-- A text that neither starts nor ends with a blank. -/
structure Trimmed (cs : List Char) : Prop where
  first : ∀ c ∈ cs.head?, isBlank c = false
  last : ∀ c ∈ cs.getLast?, isBlank c = false

theorem dropWhile_of_head? (h : ∀ c ∈ cs.head?, isBlank c = false) : cs.dropWhile isBlank = cs := by
  cases cs with
  | nil => rfl
  | cons c cs => exact List.dropWhile_cons_of_neg (by simp [h c rfl])

theorem Trimmed.trim_eq (h : Trimmed cs) : trim cs = cs := by
  have start : trimStart cs = cs := dropWhile_of_head? h.first
  have back : cs.reverse.dropWhile isBlank = cs.reverse := dropWhile_of_head? (by simpa using h.last)
  rw [trim, start, trimEnd, back, List.reverse_reverse]

theorem trim_eq_self (h : ∀ c ∈ cs, isBlank c = false) : trim cs = cs :=
  Trimmed.trim_eq ⟨fun c hc => h c (List.mem_of_mem_head? hc), fun c hc => h c (List.mem_of_getLast? hc)⟩

theorem head?_dropWhile_isBlank : ∀ c ∈ (cs.dropWhile isBlank).head?, isBlank c = false := by
  intro c hc
  have first := List.head?_dropWhile_not isBlank cs
  rw [hc] at first
  simpa using first

theorem trimmed_trim (cs : List Char) : Trimmed (trim cs) where
  first c hc := by
    have front : trim cs <+: trimStart cs := by
      rw [trim, trimEnd, ← List.reverse_suffix, List.reverse_reverse]
      exact List.dropWhile_suffix _
    obtain ⟨rest, whole⟩ := front
    refine @head?_dropWhile_isBlank cs c ?_
    rw [← trimStart, ← whole, List.head?_append, hc]
    rfl
  last c hc := by
    rw [trim, trimEnd, List.getLast?_reverse] at hc
    exact head?_dropWhile_isBlank c hc

/-! ### The table of lower-case partners -/

namespace CaseRun

variable {r s : CaseRun}

/-- The last of the partners of a run. -/
def partnerLast (r : CaseRun) : Nat :=
  r.partner + (r.last - r.first)

/-- No partner of the first run lies in one of some closed ranges. -/
def partnersAvoid (r : CaseRun) (ranges : List (Nat × Nat)) : Bool :=
  ranges.all fun range => Nat.blt r.partnerLast range.1 || Nat.blt range.2 r.partner

/-- The members of a run and their partners are characters, none of them blank, and no partner has a form of its own
that the table leaves out. -/
def sound (r : CaseRun) : Bool :=
  (Nat.blt r.partnerLast 0xD800 || Nat.blt 0xDFFF r.partner && Nat.blt r.partnerLast 0x110000)
    && r.partnersAvoid [(0x130, 0x130), (0x3A3, 0x3A3)] && r.partnersAvoid blankRanges
    && blankRanges.all fun range => Nat.blt r.last range.1 || Nat.blt range.2 r.first

/-- No partner of the first run is a member of the second: the two do not meet, or they take turns. -/
def apart (r s : CaseRun) : Bool :=
  Nat.blt r.partnerLast s.first || Nat.blt s.last r.partner
    || (s.step == 2 && (r.step == 2 || r.first == r.last) && (r.partner + s.first) % 2 == 1)

theorem sound_of_mem (h : r ∈ lowercaseRuns) : r.sound = true := by
  have all : lowercaseRuns.all sound = true := by decide +kernel
  exact List.all_eq_true.mp all r h

theorem apart_of_mem (hr : r ∈ lowercaseRuns) (hs : s ∈ lowercaseRuns) : r.apart s = true := by
  have all : (lowercaseRuns.all fun r => lowercaseRuns.all (apart r)) = true := by decide +kernel
  exact List.all_eq_true.mp (List.all_eq_true.mp all r hr) s hs

theorem partnerOf_eq_some {m : Nat} : r.partnerOf m = some n ↔
    (r.first ≤ m ∧ m ≤ r.last ∧ (m - r.first) % r.step = 0) ∧ n = r.partner + (m - r.first) := by
  unfold partnerOf
  split
  case isTrue h => simp [h, eq_comm]
  case isFalse h => simp [h]

theorem partnerOf_partner {m : Nat} (h : r.apart s = true) (hn : r.partnerOf m = some n) : s.partnerOf n = none := by
  obtain ⟨⟨low, high, step⟩, rfl⟩ := partnerOf_eq_some.mp hn
  simp only [apart, partnerLast, Bool.or_eq_true, Bool.and_eq_true, Nat.blt_eq, beq_iff_eq] at h
  rw [Option.eq_none_iff_forall_ne_some]
  intro k hk
  obtain ⟨⟨low', high', step'⟩, -⟩ := partnerOf_eq_some.mp hk
  rcases h with (before | behind) | ⟨⟨two, steps⟩, odd⟩
  · omega
  · omega
  · have even : (m - r.first) % 2 = 0 := by
      rcases steps with steps | single
      · rwa [steps] at step
      · omega
    rw [two] at step'
    omega

theorem partnersAvoid_spec {m : Nat} {ranges : List (Nat × Nat)} (h : r.partnersAvoid ranges = true)
    (hn : r.partnerOf m = some n) : inRanges ranges n = false := by
  obtain ⟨⟨low, high, -⟩, rfl⟩ := partnerOf_eq_some.mp hn
  rw [inRanges, List.any_eq_false]
  intro range hm
  have out := List.all_eq_true.mp h range hm
  simp only [partnerLast, Bool.or_eq_true, Nat.blt_eq] at out
  simp only [Bool.and_eq_true, decide_eq_true_eq]
  omega

end CaseRun

/-! ### Single characters -/

/-- A character that lower-casing leaves as it is. -/
structure Small (c : Char) : Prop where
  notSigma : c ≠ 'Σ'
  alone : lowercaseChar c = [c]

theorem small_of_notMem (sigma : c ≠ 'Σ') (dotted : c ≠ '\u0130')
    (h : ∀ r ∈ lowercaseRuns, r.partnerOf c.toNat = none) : Small c := by
  refine ⟨sigma, ?_⟩
  rw [lowercaseChar, if_neg dotted, List.findSome?_eq_none_iff.mpr h]

/-- What the table gives for a character is a character that stays, and neither of the two is blank. -/
theorem partner_spec {r : CaseRun} (hr : r ∈ lowercaseRuns) (hn : r.partnerOf c.toNat = some n) :
    Small (Char.ofNat n) ∧ isBlank (Char.ofNat n) = false ∧ isBlank c = false := by
  have sound := CaseRun.sound_of_mem hr
  simp only [CaseRun.sound, Bool.and_eq_true] at sound
  obtain ⟨⟨⟨valid, special⟩, blank⟩, members⟩ := sound
  obtain ⟨⟨low, high, -⟩, he⟩ := CaseRun.partnerOf_eq_some.mp hn
  have scalar : n.isValidChar := by
    simp only [CaseRun.partnerLast, Bool.or_eq_true, Bool.and_eq_true, Nat.blt_eq] at valid
    unfold Nat.isValidChar
    omega
  have number : (Char.ofNat n).toNat = n := by
    rw [Char.ofNat, dif_pos scalar]
    rfl
  have other := CaseRun.partnersAvoid_spec special hn
  simp only [inRanges, List.any_cons, List.any_nil, Bool.or_false, Bool.or_eq_false_iff, Bool.and_eq_false_iff,
    decide_eq_false_iff_not] at other
  refine ⟨small_of_notMem ?_ ?_ ?_, ?_, ?_⟩
  · intro same
    have value : n = 0x3A3 := by rw [← number, same]; rfl
    omega
  · intro same
    have value : n = 0x130 := by rw [← number, same]; rfl
    omega
  · intro s hs
    rw [number]
    exact CaseRun.partnerOf_partner (CaseRun.apart_of_mem hr hs) hn
  · rw [isBlank, number]
    exact CaseRun.partnersAvoid_spec blank hn
  · rw [isBlank, inRanges, List.any_eq_false]
    intro range hm
    have out := List.all_eq_true.mp members range hm
    simp only [Bool.or_eq_true, Nat.blt_eq] at out
    simp only [Bool.and_eq_true, decide_eq_true_eq]
    omega

theorem lowercaseChar_spec (sigma : c ≠ 'Σ') (hd : d ∈ lowercaseChar c) : Small d ∧ isBlank d = isBlank c := by
  unfold lowercaseChar at hd
  split at hd
  case isTrue dotted =>
    subst dotted
    rcases (by simpa using hd : d = 'i' ∨ d = '\u0307') with rfl | rfl
    · exact ⟨⟨by decide, by decide +kernel⟩, by decide⟩
    · exact ⟨⟨by decide, by decide +kernel⟩, by decide⟩
  case isFalse dotted =>
    split at hd
    · next n found =>
      obtain ⟨r, hr, hn⟩ := List.exists_of_findSome?_eq_some found
      obtain ⟨small, blank, own⟩ := partner_spec hr hn
      obtain rfl := List.mem_singleton.mp hd
      exact ⟨small, blank.trans own.symm⟩
    · next none =>
      obtain rfl := List.mem_singleton.mp hd
      exact ⟨small_of_notMem sigma dotted (List.findSome?_eq_none_iff.mp none), rfl⟩

theorem lowercaseChar_ne_nil (c : Char) : lowercaseChar c ≠ [] := by
  unfold lowercaseChar
  split
  · nofun
  · split <;> nofun

/-! ### Whole texts -/

/-- What a character becomes between its neighbours. -/
def lowered (before : List Char) (c : Char) (rest : List Char) : List Char :=
  if c = 'Σ' then [if seesCased before && !seesCased rest then 'ς' else 'σ'] else lowercaseChar c

theorem lowercaseAfter_cons (before : List Char) (c : Char) (rest : List Char) :
    lowercaseAfter before (c :: rest) = lowered before c rest ++ lowercaseAfter (c :: before) rest := rfl

theorem small_sigmas : Small 'ς' ∧ Small 'σ' :=
  ⟨⟨by decide, by decide +kernel⟩, ⟨by decide, by decide +kernel⟩⟩

theorem lowered_spec (hd : d ∈ lowered before c rest) : Small d ∧ isBlank d = isBlank c := by
  unfold lowered at hd
  split at hd
  case isTrue sigma =>
    subst sigma
    split at hd
    · obtain rfl := List.mem_singleton.mp hd
      exact ⟨small_sigmas.1, by decide⟩
    · obtain rfl := List.mem_singleton.mp hd
      exact ⟨small_sigmas.2, by decide⟩
  case isFalse sigma => exact lowercaseChar_spec sigma hd

theorem lowered_ne_nil (before : List Char) (c : Char) (rest : List Char) : lowered before c rest ≠ [] := by
  unfold lowered
  split
  · nofun
  · exact lowercaseChar_ne_nil c

theorem small_of_mem_lowercaseAfter (hd : d ∈ lowercaseAfter before cs) : Small d := by
  induction cs generalizing before with
  | nil => exact absurd hd List.not_mem_nil
  | cons c cs ih =>
    rw [lowercaseAfter_cons] at hd
    rcases List.mem_append.mp hd with hd | hd
    · exact (lowered_spec hd).1
    · exact ih hd

theorem lowercaseAfter_eq_self (h : ∀ c ∈ cs, Small c) : lowercaseAfter before cs = cs := by
  induction cs generalizing before with
  | nil => rfl
  | cons c cs ih =>
    obtain ⟨first, others⟩ := List.forall_mem_cons.mp h
    rw [lowercaseAfter_cons, lowered, if_neg first.notSigma, first.alone, ih others]
    rfl

/-- Lower-casing again changes nothing. -/
theorem lowercase_lowercase (cs : List Char) : lowercase (lowercase cs) = lowercase cs :=
  lowercaseAfter_eq_self fun _ => small_of_mem_lowercaseAfter

theorem head?_lowercaseAfter (h : ∀ c ∈ cs.head?, isBlank c = false) :
    ∀ d ∈ (lowercaseAfter before cs).head?, isBlank d = false := by
  intro d hd
  cases cs with
  | nil => exact absurd hd nofun
  | cons c rest =>
    have own : d ∈ (lowered before c rest).head? := by
      have some : (lowered before c rest).head?.isSome = true := by simp [lowered_ne_nil]
      rwa [lowercaseAfter_cons, List.head?_append, Option.or_of_isSome some] at hd
    rw [(lowered_spec (List.mem_of_mem_head? own)).2]
    exact h c rfl

theorem getLast?_lowercaseAfter (h : ∀ c ∈ cs.getLast?, isBlank c = false) :
    ∀ d ∈ (lowercaseAfter before cs).getLast?, isBlank d = false := by
  intro d hd
  induction cs generalizing before with
  | nil => exact absurd hd nofun
  | cons c rest ih =>
    rw [lowercaseAfter_cons] at hd
    cases hr : rest with
    | nil =>
      have own : d ∈ (lowered before c rest).getLast? := by
        simpa [hr, lowercaseAfter] using hd
      rw [(lowered_spec (List.mem_of_getLast? own)).2]
      exact h c (by simp [hr])
    | cons e rest' =>
      have later : lowercaseAfter (c :: before) rest ≠ [] := by
        rw [hr, lowercaseAfter_cons]
        exact List.append_ne_nil_of_left_ne_nil (lowered_ne_nil _ _ _) _
      have some : (lowercaseAfter (c :: before) rest).getLast?.isSome = true := by simp [later]
      rw [List.getLast?_append, Option.or_of_isSome some] at hd
      refine ih (fun c' hc' => h c' ?_) hd
      rw [hr] at hc' ⊢
      rwa [List.getLast?_cons_cons]

/-- Lower-casing brings no blanks to the ends of a text. -/
theorem Trimmed.lowercase (h : Trimmed cs) : Trimmed (lowercase cs) :=
  ⟨head?_lowercaseAfter h.first, getLast?_lowercaseAfter h.last⟩

/-! ### Letters of ASCII -/

theorem toLower_cases (c : Char) :
    c.toLower = c ∨ (65 ≤ c.toNat ∧ c.toNat ≤ 90) ∧ c.toLower.toNat = c.toNat + 32 := by
  unfold Char.toLower
  split
  · next upper =>
    right
    have bounds : 65 ≤ c.toNat ∧ c.toNat ≤ 90 := by simpa [UInt32.le_iff_toNat_le] using upper
    refine ⟨bounds, ?_⟩
    change (c.val + 32).toNat = c.val.toNat + 32
    have least : c.val.toNat ≤ 90 := bounds.2
    rw [UInt32.toNat_add]
    simp
    omega
  · exact Or.inl rfl

theorem isBlank_toLower (c : Char) : isBlank c.toLower = isBlank c := by
  rcases toLower_cases c with same | ⟨⟨low, high⟩, shifted⟩
  · rw [same]
  · rw [Bool.eq_iff_iff]
    simp [isBlank, inRanges, blankRanges, shifted]
    omega

/-- Each letter of ASCII is cased and counts for case, be it small or capital. -/
theorem cased_letters : ∀ n, n < 26 → inRanges casedRanges (n + 65) = true ∧ inRanges casedRanges (n + 97) = true
    ∧ inRanges caseIgnorableRanges (n + 65) = false ∧ inRanges caseIgnorableRanges (n + 97) = false := by
  decide +kernel

theorem counts_toLower (c : Char) : isCased c.toLower = isCased c ∧ isCaseIgnorable c.toLower = isCaseIgnorable c := by
  rcases toLower_cases c with same | ⟨⟨low, high⟩, shifted⟩
  · rw [same]
    exact ⟨rfl, rfl⟩
  · obtain ⟨capital, small, capital', small'⟩ := cased_letters (c.toNat - 65) (by omega)
    have own : c.toNat - 65 + 65 = c.toNat := by omega
    have partner : c.toNat - 65 + 97 = c.toNat + 32 := by omega
    rw [own] at capital capital'
    rw [partner] at small small'
    rw [isCased, isCased, isCaseIgnorable, isCaseIgnorable, shifted, capital, small, capital', small']
    exact ⟨rfl, rfl⟩

theorem seesCased_toLower (cs : List Char) : seesCased (cs.map Char.toLower) = seesCased cs := by
  induction cs with
  | nil => rfl
  | cons c cs ih =>
    obtain ⟨cased, ignorable⟩ := counts_toLower c
    cases hi : isCaseIgnorable c with
    | true => simpa [seesCased, ignorable, hi] using ih
    | false => simp [seesCased, ignorable, hi, cased]

theorem lowercaseChar_toLower (c : Char) : lowercaseChar c.toLower = lowercaseChar c := by
  rcases toLower_cases c with same | ⟨⟨low, high⟩, shifted⟩
  · rw [same]
  · have letters : (⟨0x41, 0x5A, 1, 0x61⟩ : CaseRun) ∈ lowercaseRuns := List.mem_cons_self
    have partner : (⟨0x41, 0x5A, 1, 0x61⟩ : CaseRun).partnerOf c.toNat = some c.toLower.toNat := by
      rw [CaseRun.partnerOf_eq_some]
      dsimp only
      omega
    have found : lowercaseRuns.findSome? (·.partnerOf c.toNat) = some c.toLower.toNat := by
      rw [lowercaseRuns, List.findSome?_cons, partner]
    have dotted : c ≠ '\u0130' := by
      rintro rfl
      exact absurd high (by decide)
    obtain ⟨small, -, -⟩ := partner_spec letters partner
    rw [Char.ofNat_toNat] at small
    rw [small.alone, lowercaseChar, if_neg dotted, found]
    exact congrArg (fun d => [d]) (Char.ofNat_toNat _).symm

theorem toLower_eq_sigma : c.toLower = 'Σ' ↔ c = 'Σ' := by
  rcases toLower_cases c with same | ⟨⟨low, high⟩, shifted⟩
  · rw [same]
  · have big : ('Σ').toNat = 931 := rfl
    constructor
    · intro he
      rw [he] at shifted
      omega
    · rintro rfl
      omega

theorem lowercaseAfter_toLower (before cs : List Char) :
    lowercaseAfter (before.map Char.toLower) (cs.map Char.toLower) = lowercaseAfter before cs := by
  induction cs generalizing before with
  | nil => rfl
  | cons c cs ih =>
    have later := ih (c :: before)
    have here : lowered (before.map Char.toLower) c.toLower (cs.map Char.toLower) = lowered before c cs := by
      simp only [lowered, toLower_eq_sigma, seesCased_toLower, lowercaseChar_toLower]
    rw [List.map_cons, lowercaseAfter_cons, lowercaseAfter_cons, here, ← later]
    rfl

end ServingLifecycle.Text

namespace ServingLifecycle.PredictorKind

open Text

/-- The normal form of a text is its own normal form. -/
theorem normalize_normalize (t : String) : normalize (normalize t) = normalize t := by
  have again : trim (lowercase (trim t.toList)) = lowercase (trim t.toList) := (trimmed_trim t.toList).lowercase.trim_eq
  rw [normalize, normalize, String.toList_ofList, again, lowercase_lowercase]

/-- Texts that are the same between their blanks but for the case of ASCII letters are of one kind. -/
theorem ofText_eq_of_toLower {s t : String}
    (same : (trim s.toList).map Char.toLower = (trim t.toList).map Char.toLower) : ofText s = ofText t := by
  refine ext_name (congrArg String.ofList ?_)
  calc lowercase (trim s.toList)
      = lowercase ((trim s.toList).map Char.toLower) := (lowercaseAfter_toLower [] _).symm
    _ = lowercase ((trim t.toList).map Char.toLower) := by rw [same]
    _ = lowercase (trim t.toList) := lowercaseAfter_toLower [] _

end ServingLifecycle.PredictorKind
