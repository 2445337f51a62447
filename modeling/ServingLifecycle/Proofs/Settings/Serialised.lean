import ServingLifecycle.Proofs.Duration.Human
import ServingLifecycle.Proofs.Settings.Reading
import ServingLifecycle.Proofs.Value.Written
/-!
# Settings read back

What is read from the value form of settings is these settings, whether they are valid or not. The policies may come
in another order: a table has its keys in order, and policies are looked up by their kinds.
-/
namespace ServingLifecycle

open scoped List
open Value

theorem StagingPolicy.ofValue_toValue (p : StagingPolicy) : StagingPolicy.ofValue p.toValue = .ok p := by
  cases p <;> rfl

/-- A priority that fits into 32 bits, of which one is the sign. -/
def FilesystemConfig.Small (c : FilesystemConfig) : Prop :=
  -2147483648 ≤ c.priority ∧ c.priority ≤ 2147483647

theorem FilesystemConfig.ofValue_toValue {strict : Strictness} {c : FilesystemConfig} (small : c.Small) :
    FilesystemConfig.ofValue strict c.toValue = .ok c := by
  have priority : (Value.integer c.priority).asInteger (-2147483648) 2147483647 = .ok c.priority := if_pos small
  have fields : GivenFields.of strict ["kind", "priority"] c.toValue = .ok ⟨["kind", "priority"],
      [⟨"kind", "kind", .text "local"⟩, ⟨"priority", "priority", .integer c.priority⟩], false⟩ := rfl
  rw [ofValue, fields, Reads.ok_bind, GivenFields.readInto]
  simp only [List.foldlM_cons, List.foldlM_nil, priority]
  rfl

theorem LogFormat.ofValue_toValue (strict : Strictness) (f : LogFormat) :
    LogFormat.ofValue strict f.toValue = .ok f := by
  cases f <;> rfl

theorem BackendKind.ofValue_toValue (strict : Strictness) (k : BackendKind) :
    BackendKind.ofValue strict k.toValue = .ok k := by
  cases k; rfl

theorem Duration.ofValue_toValue (d : Duration) : Duration.ofValue d.toValue = .ok d := by
  have text : (Value.text (Human.format d)).asText = .ok (Human.format d) := rfl
  rw [ofValue, toValue, text, Reads.ok_bind, Human.parse_format]
  rfl

namespace Settings

variable {strict : Strictness} {s : Settings}

/-- The value form of what stands below the locator. -/
def locatorValue (s : Settings) : List (String × Value) :=
  [("policies", .table (sorted (s.policies.map fun p => (p.1, p.2.toValue)))), ("staging_root", .text s.stagingRoot)]

/-- The entries of the value form of settings, with the given ones below the locator. -/
def withLocator (s : Settings) (locator : List (String × Value)) : List (String × Value) :=
  [("backend", s.backend.toValue), ("backend_grace", s.backendGrace.toValue),
    ("default_start_timeout", s.defaultStartTimeout.toValue), ("locator", .table locator),
    ("log_format", s.logFormat.toValue), ("storage", .list (s.storage.map FilesystemConfig.toValue))]

/-- The entries of the value form of settings. -/
def entries (s : Settings) : List (String × Value) :=
  s.withLocator s.locatorValue

theorem toValue_eq (s : Settings) : s.toValue = .table s.entries := rfl

/-- The part of the locator is read back, but for the order of the policies. -/
theorem locatorPart_toValue (keyed : (s.policies.map Prod.fst).Nodup) : ∃ policies, policies ~ s.policies ∧
    LocatorPart.ofValue strict (.table s.locatorValue) = .ok ⟨s.stagingRoot, policies⟩ := by
  obtain ⟨policies, same, read⟩ := asEntries_sorted StagingPolicy.ofValue_toValue keyed
  have inOrder : InOrder s.locatorValue :=
    inOrder_of_keys rfl (by decide : ["policies", "staging_root"].Pairwise (· < ·))
  have root : field s.locatorValue Value.asText "staging_root" = some s.stagingRoot := rfl
  have table : fieldOr s.locatorValue (Value.asEntries StagingPolicy.ofValue) "policies" [] = some policies := read
  refine ⟨policies, same, Reads.toOption_eq_some.mp ?_⟩
  rw [toOption_locatorPart inOrder, root, table]
  rfl

/-- Settings are read back, but for the order of the policies. -/
theorem ofValue_toValue (keyed : (s.policies.map Prod.fst).Nodup) (small : ∀ c ∈ s.storage, c.Small) :
    ∃ policies, policies ~ s.policies ∧ Settings.ofValue strict s.toValue = .ok { s with policies := policies } := by
  obtain ⟨policies, same, read⟩ := @locatorPart_toValue strict s keyed
  have inOrder : InOrder s.entries := inOrder_of_keys rfl (by decide :
    ["backend", "backend_grace", "default_start_timeout", "locator", "log_format", "storage"].Pairwise (· < ·))
  have timeout : field s.entries Duration.ofValue "default_start_timeout" = some s.defaultStartTimeout :=
    congrArg Except.toOption s.defaultStartTimeout.ofValue_toValue
  have grace : field s.entries Duration.ofValue "backend_grace" = some s.backendGrace :=
    congrArg Except.toOption s.backendGrace.ofValue_toValue
  have backend : field s.entries (BackendKind.ofValue strict) "backend" = some s.backend :=
    congrArg Except.toOption (s.backend.ofValue_toValue strict)
  have format : field s.entries (LogFormat.ofValue strict) "log_format" = some s.logFormat :=
    congrArg Except.toOption (s.logFormat.ofValue_toValue strict)
  have storage : field s.entries (Value.asItems (FilesystemConfig.ofValue strict)) "storage" = some s.storage :=
    congrArg Except.toOption (asItems_list fun c hc => FilesystemConfig.ofValue_toValue (small c hc))
  have part : field s.entries (LocatorPart.ofValue strict) "locator" = some ⟨s.stagingRoot, policies⟩ :=
    congrArg Except.toOption read
  refine ⟨policies, same, Reads.toOption_eq_some.mp ?_⟩
  rw [toValue_eq, toOption_settings inOrder, ofParts_eq_some]
  exact ⟨timeout, grace, backend, format, storage, part⟩

/-- Settings that differ in the order of their policies alone. -/
structure Same (a b : Settings) : Prop where
  policies : a.policies ~ b.policies
  others : { a with policies := b.policies } = b

/-- Settings are read back from their value form, and so is every duration from its words. -/
theorem read_back (strict : Strictness) (s : Settings) (keyed : (s.policies.map Prod.fst).Nodup)
    (small : ∀ c ∈ s.storage, c.Small) : (∃ back, Settings.ofValue strict s.toValue = .ok back ∧ back.Same s
      ∧ ∀ kind, back.policies.lookup kind = s.policies.lookup kind)
      ∧ ∀ d : Duration, Duration.ofValue d.toValue = .ok d := by
  refine ⟨?_, Duration.ofValue_toValue⟩
  obtain ⟨policies, same, read⟩ := ofValue_toValue keyed small
  exact ⟨_, read, ⟨same, rfl⟩, fun kind => lookup_of_perm keyed same⟩

/-- Settings that are not valid, with the longest duration there is and policies out of their order. -/
def extreme : Settings where
  defaultStartTimeout := .zero
  backendGrace := ⟨18446744073709551615999999999, by decide⟩
  backend := .simulated
  logFormat := .json
  storage := [⟨2147483647⟩, ⟨-2147483648⟩]
  stagingRoot := ""
  policies := [("sklearn", .singleFile "model" ""), ("Keras ", .versionedDirectory "007"), ("", .passthrough)]

theorem read_back_extreme : (extreme.policies.map Prod.fst).Nodup ∧ (∀ c ∈ extreme.storage, c.Small)
    ∧ ∃ back, Settings.ofValue leniency extreme.toValue = .ok back ∧ back.Same extreme
      ∧ back.policies.lookup "Keras " = some (.versionedDirectory "007") := by
  have keyed : (extreme.policies.map Prod.fst).Nodup := by decide
  have small : ∀ c ∈ extreme.storage, c.Small := by
    simp [extreme, FilesystemConfig.Small]
  obtain ⟨⟨back, read, same, found⟩, -⟩ := read_back leniency extreme keyed small
  exact ⟨keyed, small, back, read, same, found "Keras "⟩

end Settings
end ServingLifecycle
