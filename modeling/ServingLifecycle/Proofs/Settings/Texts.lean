import Mathlib.Data.List.Infix
import ServingLifecycle.Proofs.Path.Names
import ServingLifecycle.Proofs.Settings.Layers
import ServingLifecycle.Proofs.Settings.TextSetting
import ServingLifecycle.Proofs.Toml.Line
import ServingLifecycle.Proofs.Value.Loose
import ServingLifecycle.Proofs.Value.Nested
/-!
# Texts in a variable or in the file

A setting that is a text can be given by a variable or in the file. A variable gives what its content is read as, so the
two come to the same for the texts that are read as themselves, whatever else is given, and for no others.
-/
namespace ServingLifecycle.Settings

open Value Environment

variable {d d' : Disk} {filename temporary : String} {before after : Environment} {u : Variable} {file w : Value}
  {key : String} {keys : List String}

section Layers

variable {given : Value}

/-- Where nothing else is given at some keys or in their way, what the file gives there might as well be laid over all
layers. -/
theorem combined_nested (inOrder : file.Ordered) (apart : file.settles keys = false) (ordered : given.Ordered)
    (others : given.settles keys = false) :
    combined (file.merge (nested keys w)) given temporary =
      (combined file given temporary).merge (nested keys w) := by
  have base : ((Settings.default temporary).toValue.merge file).Ordered := ordered_default.merge inOrder
  rw [combined, merge_merge_nested ordered_default inOrder apart, merge_nested_merge base ordered others, combined]

theorem combined_merge_nested (inOrder : file.Ordered) (ordered : given.Ordered) (others : given.settles keys = false) :
    combined file (given.merge (nested keys w)) temporary =
      (combined file given temporary).merge (nested keys w) :=
  merge_merge_nested (ordered_default.merge inOrder) ordered others

theorem at?_combined_apart (inOrder : file.Ordered) (apart : file.settles keys = false) (ordered : given.Ordered)
    (others : given.settles keys = false) :
    (combined file given temporary).at? keys = (Settings.default temporary).toValue.at? keys := by
  rw [combined, at?_merge ordered, others, at?_merge inOrder, apart]
  rfl

/-- A variable among others that leave its keys alone lays what its content is read as over what they give. -/
theorem layer_variable (named : keys? u.name = some (key :: keys))
    (others : ∀ w ∈ before ++ after, ∀ g ∈ w.given, g.settles (key :: keys) = false) :
    ∃ given, Environment.layer (before ++ after) = .ok given ∧ given.Ordered ∧
      given.settles (key :: keys) = false ∧
        Environment.layer (before ++ u :: after) = .ok (given.merge (nested (key :: keys) (ofLoose u.value))) := by
  have own : u.given = some (nested (key :: keys) (ofLoose u.value)) := by
    rw [Variable.given, named]
    rfl
  have table : ∀ w ∈ before ++ after, ∀ g ∈ w.given, g.isTable = true := by
    intro w hw g hg
    obtain ⟨t, rfl, -⟩ := not_settles_cons (others w hw g hg)
    rfl
  have all : ∀ w ∈ before ++ u :: after, ∀ g ∈ w.given, g.isTable = true := by
    intro w hw g hg
    rcases (by simpa [or_left_comm] using hw : w = u ∨ w ∈ before ∨ w ∈ after) with rfl | hw
    · rw [own] at hg
      obtain rfl := Option.some.inj hg
      rfl
    · exact table w (List.mem_append.mpr hw) g hg
  have apart : ∀ g ∈ (before ++ after).filterMap Variable.given, g.settles (key :: keys) = false := by
    intro g hg
    obtain ⟨w, hw, hv⟩ := List.mem_filterMap.mp hg
    exact others w hw g hv
  have ordered := ordered_givens (before ++ after)
  refine ⟨_, layer_eq table, ordered_empty.foldl_merge ordered, settles_foldl_merge rfl ordered apart, ?_⟩
  rw [layer_eq all, List.filterMap_append, List.filterMap_append, List.filterMap_cons_some own]
  rw [List.filterMap_append] at ordered apart
  obtain ⟨orderedFront, orderedBack⟩ := List.forall_mem_append.mp ordered
  obtain ⟨-, apartBack⟩ := List.forall_mem_append.mp apart
  rw [List.foldl_append, List.foldl_cons, foldl_merge_nested (ordered_empty.foldl_merge orderedFront) orderedBack
    apartBack, ← List.foldl_append]

/-- A variable comes to the same as the value that its content is read as would in the file, if nothing else is given
at its keys or in their way. -/
theorem loadFrom_variable (named : keys? u.name = some keys) (hf : filed d filename = .ok file)
    (apart : file.settles keys = false) (others : ∀ w ∈ before ++ after, ∀ g ∈ w.given, g.settles keys = false) :
    ∃ given, Environment.layer (before ++ after) = .ok given ∧ given.Ordered ∧ given.settles keys = false ∧
      loadFrom d filename (before ++ u :: after) temporary =
        check (combined (file.merge (nested keys (ofLoose u.value))) given temporary) := by
  cases keys with
  | nil => exact absurd apart nofun
  | cons key keys =>
    obtain ⟨given, layer, ordered, alone, whole⟩ := layer_variable named others
    have inOrder := ordered_filed hf
    refine ⟨given, layer, ordered, alone, ?_⟩
    rw [loadFrom_eq hf whole, combined_merge_nested inOrder ordered alone,
      combined_nested inOrder apart ordered alone]

end Layers

/-- A text is given by a variable in one place and in the file in the other, all else being the same and leaving its
keys alone. -/
structure EitherWay (k : TextSetting) (text : String) (d d' : Disk) (filename : String) (before : Environment)
    (u : Variable) (after : Environment) : Prop where
  named : keys? u.name = some k.path
  content : u.value = text
  document : ∃ file, filed d filename = .ok file ∧ file.settles k.path = false ∧
    filed d' filename = .ok (file.merge (nested k.path (.text text)))
  others : ∀ w ∈ before ++ after, ∀ g ∈ w.given, g.settles k.path = false

section Agreement

variable {k : TextSetting} {text : String} {s : Settings}

theorem TextSetting.path_eq (k : TextSetting) :
    ∃ key rest, k.path = "locator" :: key :: rest ∧ rest.length ≤ 2 := by
  cases k <;> exact ⟨_, _, rfl, by simp⟩

/-- What is given for a text is what stands in its place at last, over the text that is there by default. -/
theorem at?_combined_nested {given : Value} (k : TextSetting) (inOrder : file.Ordered)
    (apart : file.settles k.path = false) (ordered : given.Ordered) (others : given.settles k.path = false)
    (hw : w.Ordered) :
    (combined (file.merge (nested k.path w)) given temporary).at? k.path = some w := by
  rw [combined_nested inOrder apart ordered others, at?_merge (ordered_nested hw k.path), settles_nested, if_pos rfl,
    at?_nested, at?_combined_apart inOrder apart ordered others]
  cases k with
  | stagingRoot => exact congrArg some (not_table_merge rfl)
  | version kind => rfl
  | source kind => rfl
  | target kind => rfl

theorem EitherWay.agree (h : EitherWay k text d d' filename before u after) (verbatim : Verbatim text) :
    loadFrom d filename (before ++ u :: after) temporary = loadFrom d' filename (before ++ after) temporary := by
  obtain ⟨file, hf, apart, hf'⟩ := h.document
  obtain ⟨given, layer, -, -, loaded⟩ := loadFrom_variable h.named hf apart h.others
  rw [loaded, h.content, ofLoose_eq_text_iff.mpr verbatim, loadFrom_eq hf' layer]

/-- Where a text is held by the settings that are loaded, a variable loads them only if it stands for itself. -/
theorem EitherWay.verbatim (h : EitherWay k text d d' filename before u after)
    (loaded : loadFrom d filename (before ++ u :: after) temporary = .ok s) (held : k.textIn s = some text) :
    Verbatim text := by
  obtain ⟨file, hf, apart, -⟩ := h.document
  obtain ⟨given, -, ordered, others, same⟩ := loadFrom_variable h.named hf apart h.others
  have inOrder := ordered_filed hf
  rw [same, h.content, check_eq_ok] at loaded
  have stands : (combined (file.merge (nested k.path (ofLoose text))) given temporary).at? k.path =
      some (ofLoose text) :=
    at?_combined_nested k inOrder apart ordered others (ordered_ofLoose text)
  have whole : (combined (file.merge (nested k.path (ofLoose text))) given temporary).Ordered :=
    (ordered_default.merge (inOrder.merge (ordered_nested (ordered_ofLoose text) k.path))).merge ordered
  exact asText_ofLoose.mp (text_of_read k whole stands loaded.1 held)

section Naming

/-- The name of the variable that stands for some keys. -/
def nameOf (keys : List String) : String :=
  String.ofList (start.toList ++ spelled keys)

theorem keys?_nameOf (h : ∀ key ∈ keys, IsKey key) (hne : keys ≠ []) (apart : keys ≠ ["config"]) :
    keys? (nameOf keys) = some keys := by
  refine keys?_of_spelled h hne apart ?_
  have own : small (spelled keys) = spelled keys := by
    refine (List.map_congr_left fun c hc => ?_).trans (List.map_id _)
    rcases mem_intercalate hc with hc | ⟨key, hm, hc⟩
    · rcases (by simpa using hc : c = '_') with rfl
      rfl
    · obtain ⟨k, hk, rfl⟩ := List.mem_map.mp hm
      exact (h k hk).toLower_eq hc
  rw [nameOf, String.toList_ofList, small, List.map_append, ← small, ← small, own]

theorem isKey_iff {k : String} : IsKey k ↔ k.toList ≠ [] ∧
    (k.toList.all fun c => 'a' ≤ c ∧ c ≤ 'z' ∨ '0' ≤ c ∧ c ≤ '9' ∨ c = '_') = true ∧
    ¬['_', '_'] <:+: k.toList ++ ['_'] := by
  simp only [List.all_eq_true, decide_eq_true_eq]
  exact ⟨fun h => ⟨h.nonempty, h.chars, h.single⟩, fun h => ⟨h.1, h.2.1, h.2.2⟩⟩

instance (k : String) : Decidable (IsKey k) :=
  decidable_of_iff' _ isKey_iff

end Naming

section Alone

/-! A text alone in its place, with nothing else given but what it takes for the text to be held. -/

namespace TextSetting

/-- What else has to be given for a policy, by its key and its text. -/
def companions : TextSetting → List (List String × String)
  | stagingRoot => []
  | version kind => [(policyPath kind "type", "versioned_directory")]
  | source kind => [(policyPath kind "target", "served"), (policyPath kind "type", "single_file")]
  | target kind => [(policyPath kind "source", "stored"), (policyPath kind "type", "single_file")]

/-- What the companions of a setting give. -/
def given (k : TextSetting) : Value :=
  (k.companions.map fun c => nested c.1 (.text c.2)).foldl Value.merge (.table [])

/-- The settings in which a text is set and its companions with it. -/
def settled (text temporary : String) : TextSetting → Settings
  | stagingRoot => { Settings.default temporary with stagingRoot := text }
  | version kind => { Settings.default temporary with policies := [(kind, .versionedDirectory text)] }
  | source kind => { Settings.default temporary with policies := [(kind, .singleFile text "served")] }
  | target kind => { Settings.default temporary with policies := [(kind, .singleFile "stored" text)] }

theorem merge_single (kind : String) (a b : Value) :
    (Value.table [(kind, a)]).merge (.table [(kind, b)]) = .table [(kind, a.merge b)] := by
  simp [Value.merge, Value.mergeEntries, Value.set]

theorem textIn_settled (k : TextSetting) : k.textIn (k.settled text temporary) = some text := by
  cases k <;> simp [textIn, settled, StagingPolicy.text?]

/-- The value form of the default settings, with something else for the policies. -/
def withPolicies (temporary : String) (policies : Value) : Value :=
  .table ((Settings.default temporary).withLocator [("policies", policies),
    ("staging_root", .text (Settings.default temporary).stagingRoot)])

/-- A field of a policy in the file, and the others of the same policy in the environment. -/
theorem combined_policy (kind field : String) (w others : Value) :
    combined (nested (policyPath kind field) w) (nested ["locator", "policies"] (.table [(kind, others)])) temporary =
      withPolicies temporary (.table [(kind, (Value.table [(field, w)]).merge others)]) := by
  have both : combined (nested (policyPath kind field) w) (nested ["locator", "policies"] (.table [(kind, others)]))
      temporary = withPolicies temporary
        ((Value.table [(kind, .table [(field, w)])]).merge (.table [(kind, others)])) := rfl
  rw [both, merge_single]

theorem combined_given (k : TextSetting) :
    combined (nested k.path (.text text)) k.given temporary = (k.settled text temporary).toValue := by
  have twice : ∀ kind a b, (nested ["locator", "policies", kind] a).merge (nested ["locator", "policies", kind] b) =
      nested ["locator", "policies"] (.table [(kind, a.merge b)]) := by
    intro kind a b
    exact congrArg (nested ["locator", "policies"]) (merge_single kind a b)
  cases k with
  | stagingRoot => rfl
  | version kind => exact combined_policy kind "version" _ _
  | source kind =>
    have given : (source kind).given =
        (nested ["locator", "policies", kind] (.table [("target", .text "served")])).merge
          (nested ["locator", "policies", kind] (.table [("type", .text "single_file")])) := rfl
    rw [path, given, twice]
    exact combined_policy kind "source" _ _
  | target kind =>
    have given : (target kind).given =
        (nested ["locator", "policies", kind] (.table [("source", .text "stored")])).merge
          (nested ["locator", "policies", kind] (.table [("type", .text "single_file")])) := rfl
    rw [path, given, twice]
    exact combined_policy kind "target" _ _

end TextSetting

/-- The variables that give the companions of a setting. -/
def TextSetting.variables (k : TextSetting) : Environment :=
  k.companions.map fun c => ⟨nameOf c.1, c.2⟩

/-- A companion is another field of the same policy, and its text stands for itself. -/
theorem TextSetting.companion_eq (k : TextSetting) : ∀ c ∈ k.companions, ∃ kind field own,
    c.1 = policyPath kind field ∧ k.path = policyPath kind own ∧ IsKey field ∧ own ≠ field ∧
      ofLoose c.2 = .text c.2 := by
  cases k with
  | stagingRoot => exact fun c hc => absurd hc List.not_mem_nil
  | version kind =>
    simp only [companions, List.forall_mem_cons]
    exact ⟨⟨kind, "type", "version", rfl, rfl, by decide +kernel, by decide, rfl⟩, by simp⟩
  | source kind =>
    simp only [companions, List.forall_mem_cons]
    exact ⟨⟨kind, "target", "source", rfl, rfl, by decide +kernel, by decide, rfl⟩,
      ⟨kind, "type", "source", rfl, rfl, by decide +kernel, by decide, rfl⟩, by simp⟩
  | target kind =>
    simp only [companions, List.forall_mem_cons]
    exact ⟨⟨kind, "source", "target", rfl, rfl, by decide +kernel, by decide, rfl⟩,
      ⟨kind, "type", "target", rfl, rfl, by decide +kernel, by decide, rfl⟩, by simp⟩

/-- The variable of a companion gives it, and leaves the setting itself alone. -/
theorem TextSetting.companions_spec (spellable : ∀ key ∈ k.path, IsKey key) : ∀ c ∈ k.companions,
    Variable.given ⟨nameOf c.1, c.2⟩ = some (nested c.1 (.text c.2)) ∧
      (nested c.1 (.text c.2)).isTable = true ∧ (nested c.1 (.text c.2)).settles k.path = false := by
  intro c hc
  obtain ⟨kind, field, own, path, setting, hf, different, verbatim⟩ := k.companion_eq c hc
  rw [setting] at spellable
  have keys : ∀ key ∈ policyPath kind field, IsKey key := by
    simp only [policyPath, List.forall_mem_cons] at spellable ⊢
    obtain ⟨locator, policies, kind, -⟩ := spellable
    exact ⟨locator, policies, kind, hf, by simp⟩
  have given : Variable.given ⟨nameOf c.1, c.2⟩ = some (nested c.1 (.text c.2)) := by
    rw [Variable.given, path, keys?_nameOf keys (List.cons_ne_nil _ _) (by simp [policyPath]), verbatim]
    rfl
  refine ⟨given, by rw [path]; rfl, ?_⟩
  rw [path, setting]
  simp [policyPath, nested, settles, List.lookup_cons, beq_false_of_ne different]

theorem layer_variables (spellable : ∀ key ∈ k.path, IsKey key) : Environment.layer k.variables = .ok k.given := by
  have spec := TextSetting.companions_spec spellable
  have givens : k.variables.filterMap Variable.given = k.companions.map fun c => nested c.1 (.text c.2) := by
    rw [TextSetting.variables, List.filterMap_map, List.filterMap_eq_map_iff_forall_eq_some]
    intro c hc
    rw [Function.comp_apply]
    exact (spec c hc).1
  rw [layer_eq, givens, TextSetting.given]
  intro w hw g hg
  obtain ⟨c, hc, rfl⟩ := List.mem_map.mp hw
  obtain ⟨own, table, -⟩ := spec c hc
  rw [own] at hg
  exact Option.some.inj hg ▸ table

/-- A disk with nothing but the given files of settings. -/
def diskWith (documents : List String) : Disk where
  entries := documents.map fun document => (["deployer.toml"], .file document.toUTF8.data.toList)
  home := []
  limits := ⟨none, none⟩

theorem filed_line (spellable : ∀ key ∈ k.path, IsKey key) (legal : ∀ c ∈ text.toList, Text.isLegal c = true) :
    filed (diskWith [Toml.line k.path text]) defaultPath = .ok (nested k.path (.text text)) := by
  have parsed : Toml.parse? (Toml.line k.path text) = some (nested k.path (.text text)) := by
    obtain ⟨key, rest, path, short⟩ := k.path_eq
    refine Toml.parse?_line spellable (by simp [path]) ?_ legal
    rw [path, List.length_cons, List.length_cons, Toml.depthLimit]
    omega
  have found : filed (diskWith [Toml.line k.path text]) defaultPath =
      fileLayer (Toml.line k.path text).toUTF8.data.toList := rfl
  have read : String.fromUTF8? ⟨(Toml.line k.path text).toUTF8.data.toList.toArray⟩ = some (Toml.line k.path text) := by
    rw [Array.toArray_toList]
    exact dif_pos (Toml.line k.path text).isValidUTF8
  rw [found, fileLayer, read, Option.bind_some, parsed]

theorem merge_path (k : TextSetting) (w : Value) : (Value.table []).merge (nested k.path w) = nested k.path w := by
  cases k <;> rfl

theorem named_nameOf (spellable : ∀ key ∈ k.path, IsKey key) : keys? (nameOf k.path) = some k.path := by
  obtain ⟨key, rest, path, -⟩ := k.path_eq
  exact keys?_nameOf spellable (by simp [path]) (by simp [path])

theorem others_alone (spellable : ∀ key ∈ k.path, IsKey key) :
    ∀ w ∈ k.variables ++ [], ∀ g ∈ w.given, g.settles k.path = false := by
  intro w hw g hg
  rw [List.append_nil] at hw
  obtain ⟨c, hc, rfl⟩ := List.mem_map.mp hw
  obtain ⟨own, -, apart⟩ := TextSetting.companions_spec spellable c hc
  rw [own] at hg
  exact Option.some.inj hg ▸ apart

/-- A place where a text is given either way and nothing but its companions beside it. -/
theorem eitherWay_alone (spellable : ∀ key ∈ k.path, IsKey key) (legal : ∀ c ∈ text.toList, Text.isLegal c = true) :
    EitherWay k text (diskWith []) (diskWith [Toml.line k.path text]) defaultPath k.variables
      ⟨nameOf k.path, text⟩ [] where
  named := named_nameOf spellable
  content := rfl
  document := ⟨.table [], rfl, by cases k <;> rfl, by rw [filed_line spellable legal, merge_path]⟩
  others := others_alone spellable

theorem small_default (temporary : String) : ∀ c ∈ (Settings.default temporary).storage, c.Small := by
  simp [Settings.default, FilesystemConfig.Small, Storage.defaultPriority]

theorem ofValue_settled (k : TextSetting) :
    Settings.ofValue leniency (k.settled text temporary).toValue = .ok (k.settled text temporary) := by
  have few : (k.settled text temporary).policies = [] ∨ ∃ p, (k.settled text temporary).policies = [p] := by
    cases k <;> simp [TextSetting.settled, Settings.default]
  have keyed : ((k.settled text temporary).policies.map Prod.fst).Nodup := by
    rcases few with none | ⟨p, one⟩
    · rw [none]
      exact List.nodup_nil
    · rw [one]
      exact List.nodup_singleton _
  have small : ∀ c ∈ (k.settled text temporary).storage, c.Small := by
    cases k <;> exact small_default temporary
  obtain ⟨policies, same, read⟩ := @ofValue_toValue leniency (k.settled text temporary) keyed small
  have all : policies = (k.settled text temporary).policies := by
    rcases few with none | ⟨p, one⟩
    · rw [none] at same ⊢
      exact same.eq_nil
    · rw [one] at same ⊢
      exact List.perm_singleton.mp same
  rw [read, all]

theorem valid_settled (nonempty : text ≠ "") : (k.settled text temporary).Valid := by
  rw [valid_iff]
  have positive : (Settings.default temporary).defaultStartTimeout.isZero = false := rfl
  have filled : (Settings.default temporary).storage ≠ [] := List.cons_ne_nil _ _
  have root : (Settings.default temporary).stagingRoot ≠ "" :=
    Path.child_ne_empty temporary ⟨by decide, by decide⟩
  cases k with
  | stagingRoot => exact ⟨positive, filled, nonempty⟩
  | version kind => exact ⟨positive, filled, root⟩
  | source kind => exact ⟨positive, filled, root⟩
  | target kind => exact ⟨positive, filled, root⟩

/-- A text alone in the file is loaded from there. -/
theorem loadFrom_alone (temporary : String) (spellable : ∀ key ∈ k.path, IsKey key) (nonempty : text ≠ "")
    (legal : ∀ c ∈ text.toList, Text.isLegal c = true) :
    loadFrom (diskWith [Toml.line k.path text]) defaultPath (k.variables ++ []) temporary =
      .ok (k.settled text temporary) := by
  rw [List.append_nil, loadFrom_eq (filed_line spellable legal) (layer_variables spellable), TextSetting.combined_given,
    check_eq_ok, ofValue_settled]
  exact ⟨rfl, valid_settled nonempty⟩

end Alone

/-- Wherever a text is given either way, a variable and the file come to the same if it stands for itself; and where
the text is held by the settings that the file comes to, they come to the same only then. Such places there are for all
keys that can be spelled and all texts that are not empty and have no controls. Which directory there is for temporary
files does not matter. -/
theorem variable_agrees_with_file_iff (k : TextSetting) (text temporary : String) :
    (∀ d d' filename before u after, EitherWay k text d d' filename before u after →
        (Verbatim text →
            loadFrom d filename (before ++ u :: after) temporary = loadFrom d' filename (before ++ after) temporary)
          ∧ ∀ s, loadFrom d' filename (before ++ after) temporary = .ok s → k.textIn s = some text →
              (loadFrom d filename (before ++ u :: after) temporary = .ok s ↔ Verbatim text))
      ∧ ((∀ key ∈ k.path, IsKey key) → text ≠ "" → (∀ c ∈ text.toList, Text.isLegal c = true) →
          ∃ d d' filename before u after s, EitherWay k text d d' filename before u after
            ∧ loadFrom d' filename (before ++ after) temporary = .ok s ∧ k.textIn s = some text) := by
  constructor
  · intro d d' filename before u after h
    refine ⟨h.agree, fun s loaded held => ⟨fun same => h.verbatim same held, fun verbatim => ?_⟩⟩
    rw [h.agree verbatim, loaded]
  · intro spellable nonempty legal
    exact ⟨_, _, _, _, _, _, _, eitherWay_alone spellable legal, loadFrom_alone temporary spellable nonempty legal,
      k.textIn_settled⟩

/-- The version of a policy that is no number is the same from the file and from a variable. -/
theorem variable_agrees_with_file_latest : (∀ key ∈ (TextSetting.version "pytorch").path, IsKey key)
    ∧ (∀ c ∈ "latest".toList, Text.isLegal c = true)
    ∧ EitherWay (.version "pytorch") "latest" (diskWith [])
        (diskWith ["locator.policies.pytorch.version = \"latest\""]) defaultPath
        (TextSetting.version "pytorch").variables
        ⟨"TRD_DEPLOYER_locator__policies__pytorch__version", "latest"⟩ []
    ∧ loadFrom (diskWith []) defaultPath ((TextSetting.version "pytorch").variables
        ++ [⟨"TRD_DEPLOYER_locator__policies__pytorch__version", "latest"⟩]) =
      .ok { Settings.default with policies := [("pytorch", .versionedDirectory "latest")] } := by
  have spellable : ∀ key ∈ (TextSetting.version "pytorch").path, IsKey key := by decide +kernel
  have legal : ∀ c ∈ "latest".toList, Text.isLegal c = true := List.all_eq_true.mp (by decide)
  have place := eitherWay_alone spellable legal
  have loaded := loadFrom_alone "/tmp" spellable (by decide) legal
  have verbatim : Verbatim "latest" := ofLoose_eq_text_iff.mp rfl
  obtain ⟨agrees, -⟩ := variable_agrees_with_file_iff (.version "pytorch") "latest" "/tmp"
  obtain ⟨-, same⟩ := agrees _ _ _ _ _ _ place
  exact ⟨spellable, legal, place, (same _ loaded rfl).mpr verbatim⟩

/-- A version of digits is loaded from the file and not from a variable. -/
theorem digits_turned_away : EitherWay (.version "pytorch") "1" (diskWith [])
      (diskWith ["locator.policies.pytorch.version = \"1\""]) defaultPath (TextSetting.version "pytorch").variables
      ⟨"TRD_DEPLOYER_locator__policies__pytorch__version", "1"⟩ []
    ∧ loadFrom (diskWith ["locator.policies.pytorch.version = \"1\""]) defaultPath
        ((TextSetting.version "pytorch").variables ++ []) =
      .ok { Settings.default with policies := [("pytorch", .versionedDirectory "1")] }
    ∧ ∀ s, loadFrom (diskWith []) defaultPath ((TextSetting.version "pytorch").variables
        ++ [⟨"TRD_DEPLOYER_locator__policies__pytorch__version", "1"⟩]) ≠ .ok s := by
  have spellable : ∀ key ∈ (TextSetting.version "pytorch").path, IsKey key := by decide +kernel
  have legal : ∀ c ∈ "1".toList, Text.isLegal c = true := List.all_eq_true.mp (by decide)
  have place := eitherWay_alone spellable legal
  have loaded := loadFrom_alone "/tmp" spellable (by decide) legal
  refine ⟨place, loaded, ?_⟩
  intro s hs
  have failed : (loadFrom (diskWith []) defaultPath ((TextSetting.version "pytorch").variables
      ++ [⟨"TRD_DEPLOYER_locator__policies__pytorch__version", "1"⟩])).toOption = none := by decide +kernel
  rw [hs] at failed
  exact absurd failed nofun

end Agreement

end ServingLifecycle.Settings

