import ServingLifecycle.Proofs.Settings.Reading
import ServingLifecycle.Proofs.Settings.Serialised
/-!
# Settings that are texts

The staging root and the fields of policies, each on its own path of keys. Settings that are read from a value hold a
text in such a place only if it is read from what stands on this path, whatever stands beside it.
-/
namespace ServingLifecycle

open Value

namespace Value

variable {α : Type} {v w : Value} {t : List (String × Value)} {key : String} {path : List String}

theorem at?_cons_eq_some : v.at? (key :: path) = some w ↔
    ∃ t u, v = table t ∧ t.lookup key = some u ∧ u.at? path = some w := by
  cases hv : v.isTable with
  | false =>
    rw [at?_cons_of_not_table hv]
    refine ⟨nofun, ?_⟩
    rintro ⟨t, u, rfl, -⟩
    exact absurd hv nofun
  | true =>
    obtain ⟨t, rfl⟩ := isTable_iff.mp hv
    rw [at?_cons_table, Option.bind_eq_some_iff]
    constructor
    · rintro ⟨u, found, below⟩
      exact ⟨t, u, rfl, found, below⟩
    · rintro ⟨_, u, same, found, below⟩
      obtain rfl := Value.table.inj same
      exact ⟨u, found, below⟩

/-- Each entry of a table is read by itself. -/
theorem lookup_of_asEntries {read : Value → Reads α} {entries : List (String × α)}
    (h : ((table t).asEntries read).toOption = some entries) (key : String) :
    entries.lookup key = field t read key := by
  rw [toOption_asEntries] at h
  induction t generalizing entries with
  | nil => rw [← Option.some.inj h]; rfl
  | cons e t ih =>
    obtain ⟨k, v⟩ := e
    simp only [List.mapM_cons, Option.bind_eq_bind, Option.bind_eq_some_iff, Option.map_eq_some_iff] at h
    obtain ⟨_, ⟨a, read, rfl⟩, rest, later, whole⟩ := h
    obtain rfl := Option.some.inj whole
    have below := ih later
    rw [field] at below ⊢
    by_cases hk : key = k
    · subst hk
      simp [read]
    · simp [List.lookup_cons, beq_false_of_ne hk, below]

end Value

namespace StagingPolicy

variable {t : List (String × Value)} {p : StagingPolicy} {name text : String}

/-- The text of a policy under a name, if its kind has one there. -/
def text? (name : String) : StagingPolicy → Option String
  | versionedDirectory version => if name = "version" then some version else none
  | singleFile source target => if name = "source" then some source else if name = "target" then some target else none
  | passthrough => none

/-- A text of a policy is read from the entry under its name. -/
theorem field_of_text? (inOrder : InOrder t) (read : (StagingPolicy.ofValue (.table t)).toOption = some p)
    (h : p.text? name = some text) : field t Value.asText name = some text := by
  cases tagged : t.lookup "type" with
  | none =>
    have untold : (StagingPolicy.ofValue (.table t)).toOption = none := by
      rw [StagingPolicy.ofValue, tagged]
      rfl
    rw [untold] at read
    cases read
  | some v =>
    simp only [StagingPolicy.ofValue, tagged, Reads.toOption_bind, Reads.toOption_under, Reads.toOption_shallow]
      at read
    obtain ⟨tag, -, read⟩ := Option.bind_eq_some_iff.mp read
    have rest : InOrder (t.filter fun e => e.1 ≠ "type") := List.Pairwise.filter _ inOrder
    have beside : ∀ {name}, name ≠ "type" →
        field (t.filter fun e => e.1 ≠ "type") Value.asText name = field t Value.asText name := by
      intro name apart
      rw [field, lookup_filter (p := fun k => k ≠ "type") (by simpa using apart), field]
    cases tag with
    | versionedDirectory =>
      rw [toOption_versionedDirectory rest, beside (by decide)] at read
      obtain ⟨version, given, rfl⟩ := Option.map_eq_some_iff.mp read
      obtain ⟨rfl, rfl⟩ : name = "version" ∧ version = text := by simpa [text?] using h
      exact given
    | singleFile =>
      rw [toOption_singleFile rest, beside (by decide), beside (by decide)] at read
      obtain ⟨source, givenSource, read⟩ := Option.bind_eq_some_iff.mp read
      obtain ⟨target, givenTarget, rfl⟩ := Option.map_eq_some_iff.mp read
      rw [text?] at h
      split at h
      · next same => rw [same, givenSource, h]
      · split at h
        · next same => rw [same, givenTarget, h]
        · cases h
    | passthrough =>
      obtain rfl := Option.some.inj read
      cases h

end StagingPolicy

namespace Settings

/-- The settings that are texts, those of a policy by the text of its kind. -/
inductive TextSetting
  | stagingRoot
  | version (kind : String)
  | source (kind : String)
  | target (kind : String)

namespace TextSetting

/-- The keys of a policy. -/
def policyPath (kind field : String) : List String :=
  ["locator", "policies", kind, field]

def path : TextSetting → List String
  | stagingRoot => ["locator", "staging_root"]
  | version kind => policyPath kind "version"
  | source kind => policyPath kind "source"
  | target kind => policyPath kind "target"

/-- The text that settings have in a place. -/
def textIn (s : Settings) : TextSetting → Option String
  | stagingRoot => some s.stagingRoot
  | version kind => (s.policies.lookup kind).bind (StagingPolicy.text? "version")
  | source kind => (s.policies.lookup kind).bind (StagingPolicy.text? "source")
  | target kind => (s.policies.lookup kind).bind (StagingPolicy.text? "target")

end TextSetting

variable {strict : Strictness} {v w : Value} {s : Settings} {key kind name text : String} {path : List String}

/-- What stands below the locator is read as the part of the locator. -/
theorem locatorPart_of_read (ordered : v.Ordered) (stands : v.at? ("locator" :: key :: path) = some w)
    (read : (Settings.ofValue strict v).toOption = some s) : ∃ t, (Value.table t).Ordered ∧
      (Value.table t).at? (key :: path) = some w ∧
        (LocatorPart.ofValue strict (.table t)).toOption = some ⟨s.stagingRoot, s.policies⟩ := by
  obtain ⟨t, u, rfl, found, below⟩ := at?_cons_eq_some.mp stands
  obtain ⟨l, w', rfl, -⟩ := at?_cons_eq_some.mp below
  rw [toOption_settings (ordered_table_iff.mp ordered).1] at read
  obtain ⟨-, -, -, -, -, part⟩ := ofParts_eq_some.mp read
  rw [field, found, Option.bind_some] at part
  have here : (Value.table t).at? ["locator"] = some (.table l) := at?_cons_eq_some.mpr ⟨t, _, rfl, found, rfl⟩
  exact ⟨l, ordered.of_at? here, below, part⟩

theorem stagingRoot_of_read (ordered : v.Ordered) (stands : v.at? ["locator", "staging_root"] = some w)
    (read : (Settings.ofValue strict v).toOption = some s) : w.asText.toOption = some s.stagingRoot := by
  obtain ⟨t, inOrder, found, part⟩ := locatorPart_of_read ordered stands read
  obtain ⟨_, u, same, entry, here⟩ := at?_cons_eq_some.mp found
  obtain rfl := Value.table.inj same
  obtain rfl := Option.some.inj here
  rw [toOption_locatorPart (ordered_table_iff.mp inOrder).1] at part
  obtain ⟨root, own, part⟩ := Option.bind_eq_some_iff.mp part
  obtain ⟨policies, -, whole⟩ := Option.map_eq_some_iff.mp part
  rw [field, entry, Option.bind_some] at own
  exact own.trans (congrArg (fun part => some part.stagingRoot) whole)

theorem policy_of_read (ordered : v.Ordered) (stands : v.at? (TextSetting.policyPath kind name) = some w)
    (read : (Settings.ofValue strict v).toOption = some s)
    (held : (s.policies.lookup kind).bind (StagingPolicy.text? name) = some text) : w.asText.toOption = some text := by
  obtain ⟨t, inOrder, found, part⟩ := locatorPart_of_read ordered stands read
  obtain ⟨_, _, same, table, found⟩ := at?_cons_eq_some.mp found
  obtain rfl := Value.table.inj same
  obtain ⟨p, _, rfl, entry, found⟩ := at?_cons_eq_some.mp found
  obtain ⟨q, u, rfl, own, last⟩ := at?_cons_eq_some.mp found
  obtain rfl := Option.some.inj last
  have here : (Value.table t).at? ["policies", kind] = some (.table q) :=
    at?_cons_eq_some.mpr ⟨_, _, rfl, table, at?_cons_eq_some.mpr ⟨_, _, rfl, entry, rfl⟩⟩
  have ordered : (Value.table q).Ordered := inOrder.of_at? here
  rw [toOption_locatorPart (ordered_table_iff.mp inOrder).1] at part
  obtain ⟨root, -, part⟩ := Option.bind_eq_some_iff.mp part
  obtain ⟨policies, all, whole⟩ := Option.map_eq_some_iff.mp part
  obtain rfl : policies = s.policies := congrArg LocatorPart.policies whole
  rw [fieldOr, table, Option.isSome_some, if_pos rfl, field, table, Option.bind_some] at all
  obtain ⟨policy, looked, hp⟩ := Option.bind_eq_some_iff.mp held
  rw [lookup_of_asEntries all, field, entry, Option.bind_some] at looked
  have text := StagingPolicy.field_of_text? (ordered_table_iff.mp ordered).1 looked hp
  rwa [field, own, Option.bind_some] at text

/-- Settings have a text in a place only if it was read there. -/
theorem text_of_read (k : TextSetting) (ordered : v.Ordered) (stands : v.at? k.path = some w)
    (read : (Settings.ofValue strict v).toOption = some s) (held : k.textIn s = some text) : w.asText = .ok text := by
  rw [← Reads.toOption_eq_some]
  cases k with
  | stagingRoot => exact (stagingRoot_of_read ordered stands read).trans held
  | version kind => exact policy_of_read ordered stands read held
  | source kind => exact policy_of_read ordered stands read held
  | target kind => exact policy_of_read ordered stands read held

end Settings
end ServingLifecycle
