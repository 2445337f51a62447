import ServingLifecycle.Proofs.Text.Lowercase
import ServingLifecycle.Proofs.Toml.Ordered
import ServingLifecycle.Proofs.Value.Shape
import ServingLifecycle.Settings.Environment
/-!
# Variables as a layer of settings

Each variable gives a value below a path of keys, or nothing at all; the environment is what all of them give, laid over
each other. A name in whatever case spells its keys with two underscores between them, and the variable that names the
file of settings spells none.
-/
namespace ServingLifecycle

open Value

/-- What a variable gives, as a layer of its own. -/
def Variable.given (v : Variable) : Option Value :=
  (Environment.keys? v.name).map fun keys => Environment.nested keys (Value.ofLoose v.value)

namespace Environment

variable {env : Environment} {v : Variable} {older g : Value} {keys : List String}

theorem ordered_nested {w : Value} (h : w.Ordered) (keys : List String) : (nested keys w).Ordered := by
  induction keys with
  | nil => exact h
  | cons key keys ih => exact ordered_singleton ih

theorem ordered_given (h : v.given = some g) : g.Ordered := by
  obtain ⟨keys, -, rfl⟩ := Option.map_eq_some_iff.mp h
  exact ordered_nested (ordered_ofLoose v.value) keys

theorem lay_of_given_none (h : v.given = none) (older : Value) : lay v older = .ok older := by
  rw [lay, Option.map_eq_none_iff.mp h]

theorem lay_of_given (h : v.given = some g) (table : g.isTable = true) (older : Value) :
    lay v older = .ok (older.merge g) := by
  obtain ⟨keys, hk, he⟩ := Option.map_eq_some_iff.mp h
  obtain ⟨t, rfl⟩ := isTable_iff.mp table
  simp [lay, hk, he]

/-- The layer of an environment is what its variables give, the later over the earlier. -/
theorem layer_eq (h : ∀ v ∈ env, ∀ g ∈ v.given, g.isTable = true) :
    env.layer = .ok ((env.filterMap Variable.given).foldl merge (.table [])) := by
  have laid : ∀ older, env.foldlM (fun older v => lay v older) older =
      .ok ((env.filterMap Variable.given).foldl merge older) := by
    induction env with
    | nil => exact fun _ => rfl
    | cons v env ih =>
      intro older
      obtain ⟨first, rest⟩ := List.forall_mem_cons.mp h
      rw [List.foldlM_cons]
      cases hg : v.given with
      | none =>
        rw [lay_of_given_none hg, List.filterMap_cons_none hg]
        exact ih rest older
      | some g =>
        rw [lay_of_given hg (first g hg), List.filterMap_cons_some hg]
        exact ih rest _
  exact laid (.table [])

/-- Variables that give nothing do not count. -/
theorem layer_filter (p : Variable → Bool) (h : ∀ v ∈ env, p v = false → v.given = none) :
    layer (env.filter p) = env.layer := by
  have laid : ∀ older, (env.filter p).foldlM (fun older v => lay v older) older =
      env.foldlM (fun older v => lay v older) older := by
    induction env with
    | nil => exact fun _ => rfl
    | cons v env ih =>
      intro older
      obtain ⟨first, rest⟩ := List.forall_mem_cons.mp h
      cases hp : p v with
      | true =>
        rw [List.filter_cons_of_pos hp, List.foldlM_cons, List.foldlM_cons]
        exact congrArg _ (funext fun older => ih rest older)
      | false =>
        rw [List.filter_cons_of_neg (by simp [hp]), List.foldlM_cons, lay_of_given_none (first hp)]
        exact ih rest older
  exact laid (.table [])

section Spelling

variable {c : Char} {s k : List Char} {ks : List (List Char)} {name : String}

theorem toLower_eq_underscore : c.toLower = '_' ↔ c = '_' := by
  rcases Text.toLower_cases c with same | ⟨⟨low, high⟩, shifted⟩
  · rw [same]
  · have apart : c.toLower ≠ '_' := by
      intro he
      have moved : c.toNat + 32 = 95 := by rw [← shifted, he]; rfl
      omega
    have other : c ≠ '_' := by
      rintro rfl
      exact absurd high (by decide)
    simp [apart, other]

theorem isBlank_of_any (h : s.any Text.isBlank = false) : ∀ c ∈ s, Text.isBlank c = false := by
  simpa using h

/-- Where a name is free of blanks in small letters it is so as it stands. -/
theorem trim_of_small (h : ∀ c ∈ small s, Text.isBlank c = false) : Text.trim s = s :=
  Text.trim_eq_self fun c hc => (Text.isBlank_toLower c).symm.trans (h _ (List.mem_map_of_mem hc))

theorem pointed_cons (h : ¬['_', '_'] <+: c :: s) : pointed (c :: s) = c :: pointed s := by
  rw [pointed]
  rintro rest rfl rfl
  exact h (List.prefix_append ['_', '_'] rest)

theorem pointed_eq_self (h : ¬['_', '_'] <:+: k) : pointed k = k := by
  induction k with
  | nil => rfl
  | cons c k ih =>
    obtain ⟨front, rest⟩ := not_or.mp (mt List.infix_cons_iff.mpr h)
    rw [pointed_cons front, ih rest]

/-- Two underscores are a point wherever the key before them ends in none. -/
theorem pointed_append (h : ¬['_', '_'] <:+: k ++ ['_']) (s : List Char) :
    pointed (k ++ '_' :: '_' :: s) = k ++ '.' :: pointed s := by
  induction k with
  | nil => rfl
  | cons c k ih =>
    obtain ⟨front, rest⟩ := not_or.mp (mt List.infix_cons_iff.mpr h)
    -- The two characters at the front end before the second underscore of the seam.
    have seam : c :: (k ++ '_' :: '_' :: s) = (c :: (k ++ ['_'])) ++ '_' :: s := by simp
    rw [List.cons_append, pointed_cons, ih rest, List.cons_append]
    intro found
    rw [seam] at found
    exact front (List.prefix_of_prefix_length_le found (List.prefix_append _ _) (by simp))

theorem small_pointed (s : List Char) : small (pointed s) = pointed (small s) := by
  induction s using pointed.induct with
  | case1 rest ih => simpa [pointed, small] using ih
  | case2 c rest apart ih =>
    have front : ¬['_', '_'] <+: c.toLower :: small rest := by
      intro found
      obtain ⟨hc, found⟩ := List.cons_prefix_cons.mp found
      cases rest with
      | nil => simp [small] at found
      | cons d rest =>
        obtain ⟨hd, -⟩ := List.cons_prefix_cons.mp found
        exact apart rest (toLower_eq_underscore.mp hc.symm) (by rw [toLower_eq_underscore.mp hd.symm])
    rw [pointed]
    · exact (congrArg (c.toLower :: ·) ih).trans (pointed_cons front).symm
    · exact apart
  | case3 => rfl

theorem split_eq_singleton (h : '.' ∉ k) : split k = [k] := by
  induction k with
  | nil => rfl
  | cons c k ih =>
    obtain ⟨hc, rest⟩ := not_or.mp (mt List.mem_cons.mpr h)
    rw [split, if_neg (Ne.symm hc), ih rest]

theorem split_append (h : '.' ∉ k) (s : List Char) : split (k ++ '.' :: s) = k :: split s := by
  induction k with
  | nil => simp [split]
  | cons c k ih =>
    obtain ⟨hc, rest⟩ := not_or.mp (mt List.mem_cons.mpr h)
    rw [List.cons_append, split, if_neg (Ne.symm hc), ih rest]

theorem split_intercalate (h : ∀ k ∈ ks, '.' ∉ k) (hne : ks ≠ []) : split (['.'].intercalate ks) = ks := by
  induction ks with
  | nil => exact absurd rfl hne
  | cons k ks ih =>
    obtain ⟨first, rest⟩ := List.forall_mem_cons.mp h
    cases ks with
    | nil => rw [List.intercalate_singleton, split_eq_singleton first]
    | cons k' ks =>
      rw [List.intercalate_cons_cons, List.append_assoc, List.singleton_append, split_append first,
        ih rest (List.cons_ne_nil _ _)]

theorem mem_intercalate {sep : List Char} (h : c ∈ sep.intercalate ks) : c ∈ sep ∨ ∃ k ∈ ks, c ∈ k := by
  induction ks with
  | nil => simp at h
  | cons k ks ih =>
    cases ks with
    | nil => exact Or.inr ⟨k, by simp, by simpa using h⟩
    | cons k' ks =>
      rw [List.intercalate_cons_cons, List.append_assoc, List.mem_append, List.mem_append] at h
      rcases h with h | h | h
      · exact Or.inr ⟨k, List.mem_cons_self, h⟩
      · exact Or.inl h
      · exact (ih h).imp_right fun ⟨k, hk, hc⟩ => ⟨k, List.mem_cons_of_mem _ hk, hc⟩

/-- A key that the name of a variable can spell: small letters, digits and single underscores, of which none is last. -/
structure IsKey (k : String) : Prop where
  nonempty : k.toList ≠ []
  chars : ∀ c ∈ k.toList, 'a' ≤ c ∧ c ≤ 'z' ∨ '0' ≤ c ∧ c ≤ '9' ∨ c = '_'
  single : ¬['_', '_'] <:+: k.toList ++ ['_']

namespace IsKey

variable {k : String}

theorem isBlank_eq_false (h : IsKey k) (hc : c ∈ k.toList) : Text.isBlank c = false := by
  have bounds : 97 ≤ c.toNat ∧ c.toNat ≤ 122 ∨ 48 ≤ c.toNat ∧ c.toNat ≤ 57 ∨ c.toNat = 95 := by
    rcases h.chars c hc with h | h | rfl
    · exact Or.inl ⟨UInt32.le_iff_toNat_le.mp h.1, UInt32.le_iff_toNat_le.mp h.2⟩
    · exact Or.inr (Or.inl ⟨UInt32.le_iff_toNat_le.mp h.1, UInt32.le_iff_toNat_le.mp h.2⟩)
    · exact Or.inr (Or.inr rfl)
  simp [Text.isBlank, Text.inRanges, Text.blankRanges]
  omega

theorem toLower_eq (h : IsKey k) (hc : c ∈ k.toList) : c.toLower = c := by
  rcases Text.toLower_cases c with same | ⟨⟨low, high⟩, -⟩
  · exact same
  · have bounds : 97 ≤ c.toNat ∨ c.toNat ≤ 57 ∨ c.toNat = 95 := by
      rcases h.chars c hc with h | h | rfl
      · exact Or.inl (UInt32.le_iff_toNat_le.mp h.1)
      · exact Or.inr (Or.inl (UInt32.le_iff_toNat_le.mp h.2))
      · exact Or.inr (Or.inr rfl)
    omega

theorem point_notMem (h : IsKey k) : '.' ∉ k.toList := by
  intro hm
  rcases h.chars _ hm with h | h | h <;> exact absurd h (by decide)

end IsKey

/-- The keys as the name of a variable spells them after its start. -/
def spelled (keys : List String) : List Char :=
  ['_', '_'].intercalate (keys.map String.toList)

def dotted (keys : List String) : List Char :=
  ['.'].intercalate (keys.map String.toList)

theorem pointed_spelled (h : ∀ k ∈ keys, IsKey k) : pointed (spelled keys) = dotted keys := by
  unfold spelled dotted
  induction keys with
  | nil => rfl
  | cons k keys ih =>
    obtain ⟨first, rest⟩ := List.forall_mem_cons.mp h
    cases keys with
    | nil =>
      rw [List.map_singleton, List.intercalate_singleton, List.intercalate_singleton]
      exact pointed_eq_self fun found => first.single (found.trans (List.prefix_append _ _).isInfix)
    | cons k' keys =>
      rw [List.map_cons, List.map_cons, List.intercalate_cons_cons, List.intercalate_cons_cons, List.append_assoc,
        List.append_assoc]
      exact (pointed_append first.single _).trans (congrArg (k.toList ++ '.' :: ·) (ih rest))

theorem split_dotted (h : ∀ k ∈ keys, IsKey k) (hne : keys ≠ []) : split (dotted keys) = keys.map String.toList := by
  refine split_intercalate ?_ (by simpa using hne)
  intro k hk
  obtain ⟨key, hm, rfl⟩ := List.mem_map.mp hk
  exact (h key hm).point_notMem

theorem isBlank_of_mem_intercalate {sep : List Char} (h : ∀ k ∈ keys, IsKey k)
    (hs : ∀ c ∈ sep, Text.isBlank c = false) (hc : c ∈ sep.intercalate (keys.map String.toList)) :
    Text.isBlank c = false := by
  rcases mem_intercalate hc with hc | ⟨k, hk, hc⟩
  · exact hs c hc
  · obtain ⟨key, hm, rfl⟩ := List.mem_map.mp hk
    exact (h key hm).isBlank_eq_false hc

theorem ofList_map_toList (keys : List String) : (keys.map String.toList).map String.ofList = keys := by
  rw [List.map_map]
  exact (List.map_congr_left fun k _ => String.ofList_toList).trans (List.map_id keys)

/-- No other keys are spelled like the name of the file of settings. -/
theorem spelled_ne_config (h : ∀ k ∈ keys, IsKey k) (hne : keys ≠ []) (apart : keys ≠ ["config"]) :
    spelled keys ≠ "config".toList := by
  intro same
  have point : dotted keys = "config".toList := by
    rw [← pointed_spelled h, same]
    decide
  have texts := split_dotted h hne
  rw [point] at texts
  refine apart ?_
  rw [← ofList_map_toList keys, ← texts]
  decide

/-- What follows the start of a name that begins with it, in whatever case. -/
theorem small_drop_start {rest : List Char} (hn : small s = small start.toList ++ rest) :
    small (s.take start.length) = small start.toList ∧ small (s.drop start.length) = rest := by
  have length : (small start.toList).length = start.length := by decide
  constructor
  · rw [small, List.map_take, ← small, hn, List.take_left' length]
  · rw [small, List.map_drop, ← small, hn, List.drop_left' length]

/-- A name that spells keys after its start, in whatever case, stands for these keys. -/
theorem keys?_of_spelled (h : ∀ k ∈ keys, IsKey k) (hne : keys ≠ []) (apart : keys ≠ ["config"])
    (hn : small name.toList = small start.toList ++ spelled keys) : keys? name = some keys := by
  have trimmed : Text.trim name.toList = name.toList := by
    refine trim_of_small fun c hc => ?_
    rw [hn] at hc
    rcases List.mem_append.mp hc with hc | hc
    · exact isBlank_of_any (by decide) c hc
    · exact isBlank_of_mem_intercalate h (isBlank_of_any (by decide)) hc
  obtain ⟨front, rest⟩ := small_drop_start hn
  have point : small (pointed (name.toList.drop start.length)) = dotted keys := by
    rw [small_pointed, rest, pointed_spelled h]
  have path : Text.trim (pointed (name.toList.drop start.length)) = pointed (name.toList.drop start.length) := by
    refine trim_of_small fun c hc => ?_
    rw [point] at hc
    exact isBlank_of_mem_intercalate h (isBlank_of_any (by decide)) hc
  have texts := split_dotted h hne
  have full : ∀ k ∈ keys.map String.toList, (!k.isEmpty) = true := by
    intro k hk
    obtain ⟨key, hm, rfl⟩ := List.mem_map.mp hk
    simpa using (h key hm).nonempty
  have present : (pointed (name.toList.drop start.length)).isEmpty = false := by
    rw [List.isEmpty_eq_false_iff]
    intro none
    rw [none] at point
    rw [← point] at texts
    exact absurd (full [] (texts ▸ List.mem_singleton_self _)) nofun
  unfold keys?
  dsimp only
  rw [trimmed, if_pos ⟨front, by rw [rest]; exact spelled_ne_config h hne apart⟩, path, present, point, texts]
  have all : (keys.map String.toList).takeWhile (fun key => !key.isEmpty) = keys.map String.toList := by
    rw [← List.append_nil (keys.map String.toList), List.takeWhile_append_of_pos full]
    rfl
  rw [all, ofList_map_toList]
  rfl

/-- The variable that names the file of settings stands for no keys, in whatever case its name is written. -/
theorem keys?_of_configName (hn : small name.toList = small configName.toList) : keys? name = none := by
  have trimmed : Text.trim name.toList = name.toList := by
    refine trim_of_small fun c hc => ?_
    rw [hn] at hc
    exact isBlank_of_any (by decide) c hc
  have begins : small configName.toList = small start.toList ++ "config".toList := by decide
  obtain ⟨-, rest⟩ := small_drop_start (hn.trans begins)
  unfold keys?
  dsimp only
  rw [trimmed, if_neg fun both => both.2 rest]

end Spelling

end Environment
end ServingLifecycle
