import ServingLifecycle.Proofs.Settings.Environment
import ServingLifecycle.Proofs.Settings.Serialised
/-!
# Settings from their layers

What settings come of the default ones, a file and the environment. On each path of keys that settings have it is the
newest layer with something there that tells the value; among the variables of the environment, the last one. Lists are
told as a whole, tables key by key. Settings are loaded if every policy has a type and the fields of that type, and the
three rules hold that settings are checked by; no other value of the right shape is turned away.
-/
namespace ServingLifecycle

open Value

namespace Environment

/-- What the last of the variables that set a value at a path set there. -/
def leaf? (env : Environment) (path : List String) : Option Value :=
  (env.filterMap Variable.given).reverse.findSome? fun g => g.leaf? path

/-- Some variable gives something at a path. -/
def Sets (env : Environment) (path : List String) : Prop :=
  ∃ g ∈ env.filterMap Variable.given, (g.at? path).isSome = true

end Environment

namespace StagingPolicy

variable {v : Value} {path : List String}

/-- The policy below a path has a type, and the fields that this type asks for. -/
def CompleteAt (v : Value) (path : List String) : Prop :=
  ∃ tag, v.readAt (Value.asTag Tag.choices) (path ++ ["type"]) = some tag ∧
    ∀ field ∈ tag.fields, (v.leaf? (path ++ [field])).isSome = true

/-- A policy can be told from the leaves below its kind just when it is complete. -/
theorem fromLeaves_isSome_iff {s : Shape} (fits : s.Fits v) (hp : s.along path = shape) :
    (fromLeaves v path).isSome = true ↔ CompleteAt v path := by
  have text : ∀ field, shape.along [field] = .reading Value.asText →
      (v.readAt Value.asText (path ++ [field])).isSome = (v.leaf? (path ++ [field])).isSome := by
    intro field hf
    exact fits.readAt_isSome (by rw [Shape.along_append, hp, hf])
  unfold fromLeaves CompleteAt
  cases v.readAt (Value.asTag Tag.choices) (path ++ ["type"]) with
  | none => simp
  | some tag =>
    simp only [Option.some.injEq, exists_eq_left']
    cases tag with
    | versionedDirectory =>
      simp only [Tag.fields, List.forall_mem_cons, ← text "version" rfl]
      cases v.readAt Value.asText (path ++ ["version"]) <;> simp
    | singleFile =>
      simp only [Tag.fields, List.forall_mem_cons, ← text "source" rfl, ← text "target" rfl]
      cases v.readAt Value.asText (path ++ ["source"]) <;>
        cases v.readAt Value.asText (path ++ ["target"]) <;> simp
    | passthrough => simp [Tag.fields]

end StagingPolicy

namespace Settings

/-- What the file under a path holds, if there is one. -/
def filed (d : Disk) (path : String) : Except LoadFault Value :=
  match d.findFile path with
  | some content => fileLayer content
  | none => .ok (.table [])

/-- All policies below the locator are complete. -/
def Complete (v : Value) : Prop :=
  ∀ kind, (v.at? ["locator", "policies", kind]).isSome = true →
    StagingPolicy.CompleteAt v ["locator", "policies", kind]

/-- The rules that settings are checked by, told of the leaves of a value. -/
structure Validated (v : Value) : Prop where
  timeout : ∃ t, v.readAt Duration.ofValue ["default_start_timeout"] = some t ∧ t.isZero = false
  storage : ∃ fs, v.readAt (Value.asItems (FilesystemConfig.ofValue leniency)) ["storage"] = some fs ∧ fs ≠ []
  stagingRoot : ∃ root, v.readAt Value.asText ["locator", "staging_root"] = some root ∧ root ≠ ""

variable {v file given : Value} {d : Disk} {path temporary : String} {env : Environment} {s : Settings}

theorem valid_iff : s.Valid ↔ s.defaultStartTimeout.isZero = false ∧ s.storage ≠ [] ∧ s.stagingRoot ≠ "" := by
  simp only [Valid, violations, Violation.ofText, List.append_eq_nil_iff]
  cases s.defaultStartTimeout.isZero <;> cases s.storage <;> by_cases hr : s.stagingRoot = "" <;> simp [hr]

theorem check_eq_ok : check v = .ok s ↔ (Settings.ofValue leniency v).toOption = some s ∧ s.Valid := by
  unfold check
  cases Settings.ofValue leniency v with
  | error e =>
    obtain ⟨path, misfit⟩ := e
    cases misfit <;> simp [Except.toOption]
  | ok s' =>
    by_cases valid : s'.Valid
    · simp only [if_pos valid]
      exact ⟨fun h => Except.ok.inj h ▸ ⟨rfl, valid⟩, fun h => congrArg _ (Option.some.inj h.1)⟩
    · simp only [if_neg valid]
      exact ⟨fun h => (by cases h), fun h => absurd (Option.some.inj h.1 ▸ h.2) valid⟩

/-- Settings are loaded from what the file and the environment give, laid over the default ones. -/
theorem loadFrom_eq (hf : filed d path = .ok file) (he : env.layer = .ok given) :
    loadFrom d path env temporary = check (combined file given temporary) := by
  have bound : loadFrom d path env temporary =
      filed d path >>= fun file => check (combined file given temporary) := by
    unfold loadFrom filed
    rw [he]
    cases d.findFile path <;> rfl
  rw [bound, hf]
  rfl

theorem ordered_filed (h : filed d path = .ok file) : file.Ordered := by
  unfold filed at h
  split at h
  · unfold fileLayer at h
    split at h
    · next doc parsed =>
      obtain ⟨text, -, parsed⟩ := Option.bind_eq_some_iff.mp parsed
      exact Except.ok.inj h ▸ Toml.ordered_parse parsed
    · exact absurd h nofun
  · exact Except.ok.inj h ▸ ordered_empty

/-- The default settings as the lowest layer. -/
theorem ordered_default : (Settings.default temporary).toValue.Ordered := by
  have plain : ∀ {v : Value}, v.isTable = false → v.Ordered := ordered_of_not_table
  have locator : (Value.table (Settings.default temporary).locatorValue).Ordered :=
    ordered_table_iff.mpr ⟨inOrder_of_keys rfl (by decide : ["policies", "staging_root"].Pairwise (· < ·)), by
      simp only [locatorValue, List.forall_mem_cons]
      exact ⟨ordered_empty, plain rfl, by simp⟩⟩
  rw [toValue_eq]
  refine ordered_table_iff.mpr ⟨inOrder_of_keys rfl (by decide :
    ["backend", "backend_grace", "default_start_timeout", "locator", "log_format", "storage"].Pairwise (· < ·)), ?_⟩
  simp only [entries, withLocator, List.forall_mem_cons]
  exact ⟨plain rfl, plain rfl, plain rfl, locator, plain rfl, plain rfl, by simp⟩

theorem fits_default : shape.Fits (Settings.default temporary).toValue := by
  have locator : (shape.along ["locator"]).Fits (.table (Settings.default temporary).locatorValue) := by
    refine Shape.fits_record_iff.mpr ⟨_, rfl, ?_⟩
    simp only [locatorValue, List.forall_mem_cons]
    exact ⟨Shape.fits_record_iff.mpr ⟨[], rfl, by simp⟩, ⟨rfl, rfl⟩, by simp⟩
  refine Shape.fits_record_iff.mpr ⟨_, toValue_eq _, ?_⟩
  simp only [entries, withLocator, List.forall_mem_cons]
  exact ⟨Shape.fits_reading rfl (BackendKind.ofValue_toValue ..), Shape.fits_reading rfl (Duration.ofValue_toValue _),
    Shape.fits_reading rfl (Duration.ofValue_toValue _), locator,
    Shape.fits_reading rfl (LogFormat.ofValue_toValue ..), ⟨rfl, rfl⟩, by simp⟩

/-- The paths of the single values that settings are made of, of policies those of none. -/
def leafPaths : List (List String) :=
  [["default_start_timeout"], ["backend_grace"], ["backend"], ["log_format"], ["storage"],
    ["locator", "staging_root"]]

theorem along_leafPaths : ∀ keys ∈ leafPaths, ∃ reads, shape.along keys = .value reads := by
  simp only [leafPaths, List.forall_mem_cons]
  exact ⟨⟨_, rfl⟩, ⟨_, rfl⟩, ⟨_, rfl⟩, ⟨_, rfl⟩, ⟨_, rfl⟩, ⟨_, rfl⟩, by simp⟩

theorem default_leaf_isSome : ∀ keys ∈ leafPaths, ((Settings.default temporary).toValue.leaf? keys).isSome = true := by
  simp only [leafPaths, List.forall_mem_cons]
  exact ⟨rfl, rfl, rfl, rfl, rfl, rfl, by simp⟩

section Layers

variable {keys : List String} {reads : Value → Bool}

theorem ordered_givens (env : Environment) : ∀ g ∈ env.filterMap Variable.given, g.Ordered := by
  intro g hg
  obtain ⟨v, -, hv⟩ := List.mem_filterMap.mp hg
  exact Environment.ordered_given hv

theorem fits_givens (h : ∀ v ∈ env, ∀ g ∈ v.given, shape.Fits g) :
    ∀ g ∈ env.filterMap Variable.given, shape.Fits g := by
  intro g hg
  obtain ⟨v, hm, hv⟩ := List.mem_filterMap.mp hg
  exact h v hm g hv

/-- The environment is one layer of the shape of settings if each of its variables gives one. -/
theorem layer_of_fits (h : ∀ v ∈ env, ∀ g ∈ v.given, shape.Fits g) :
    env.layer = .ok ((env.filterMap Variable.given).foldl Value.merge (.table [])) := by
  refine Environment.layer_eq fun v hv g hg => ?_
  obtain ⟨t, rfl, -⟩ := Shape.fits_record_iff.mp (h v hv g hg)
  rfl

theorem policiesFrom_isSome_iff (fits : shape.Fits v) : (policiesFrom v).isSome = true ↔ Complete v := by
  rw [policiesFrom, mapM_isSome_iff]
  refine forall_congr' fun kind => ?_
  rw [mem_keysAt, Option.isSome_map, StagingPolicy.fromLeaves_isSome_iff fits rfl]
  rfl

theorem fits_layer (fits : ∀ v ∈ env, ∀ g ∈ v.given, shape.Fits g) (he : env.layer = .ok given) :
    shape.Fits given := by
  obtain rfl := Except.ok.inj (he.symm.trans (layer_of_fits fits))
  exact Shape.Fits.foldl_merge (Shape.fits_record_iff.mpr ⟨[], rfl, by simp⟩) (fits_givens fits) ordered_empty
    (ordered_givens env)

theorem ordered_layer (fits : ∀ v ∈ env, ∀ g ∈ v.given, shape.Fits g) (he : env.layer = .ok given) :
    given.Ordered := by
  obtain rfl := Except.ok.inj (he.symm.trans (layer_of_fits fits))
  exact ordered_empty.foldl_merge (ordered_givens env)

theorem leaf?_layer (fits : ∀ v ∈ env, ∀ g ∈ v.given, shape.Fits g) (he : env.layer = .ok given)
    (hp : shape.along keys = .value reads) : given.leaf? keys = env.leaf? keys := by
  obtain rfl := Except.ok.inj (he.symm.trans (layer_of_fits fits))
  rw [Shape.leaf?_foldl_merge_or (fits_givens fits) (ordered_givens env) hp, leaf?_empty, Option.or_none]
  rfl

theorem at?_layer_isSome (fits : ∀ v ∈ env, ∀ g ∈ v.given, shape.Fits g) (he : env.layer = .ok given)
    (hp : shape.along keys ≠ .free) :
    (given.at? keys).isSome = true ↔ env.Sets keys ∨ ((Value.table []).at? keys).isSome = true := by
  obtain rfl := Except.ok.inj (he.symm.trans (layer_of_fits fits))
  exact Shape.at?_foldl_merge_isSome (fits_givens fits) (ordered_givens env) hp

end Layers

/-- What the layers of settings come to: a file and an environment that are of the shape of settings. -/
structure Layered (d : Disk) (path : String) (env : Environment) (temporary : String) (file given : Value) :
    Prop where
  /-- A variable whose name spells keys, in whatever case, gives its value below these keys. -/
  spelled : ∀ v ∈ env, ∀ keys, (∀ k ∈ keys, Environment.IsKey k) → keys ≠ [] → keys ≠ ["config"] →
    Environment.small v.name.toList = Environment.small Environment.start.toList ++ Environment.spelled keys →
      v.given = some (Environment.nested keys (Value.ofLoose v.value))
  /-- The variable that names the file of settings might as well be missing. -/
  unnamed : Environment.layer (env.filter fun v =>
    Environment.small v.name.toList ≠ Environment.small Environment.configName.toList) = .ok given
  /-- A value, a list among them, is told as a whole: by the environment, else by the file, else by default. -/
  leaf : ∀ keys reads, shape.along keys = .value reads → (combined file given temporary).leaf? keys =
    (env.leaf? keys).or ((file.leaf? keys).or ((Settings.default temporary).toValue.leaf? keys))
  /-- Tables have the keys that they have in one of the layers. -/
  table : ∀ keys, shape.along keys ≠ .free → (((combined file given temporary).at? keys).isSome = true ↔
    env.Sets keys ∨ (file.at? keys).isSome = true ∨ ((Settings.default temporary).toValue.at? keys).isSome = true)
  /-- The settings are told by the leaves, and are checked. -/
  loaded : ∀ s, loadFrom d path env temporary = .ok s ↔ fromLeaves (combined file given temporary) = some s ∧ s.Valid
  /-- Nothing but an incomplete policy or a broken rule keeps settings from being loaded. -/
  succeeds : (∃ s, loadFrom d path env temporary = .ok s) ↔
    Complete (combined file given temporary) ∧ Validated (combined file given temporary)

section Layers

variable {keys : List String} {reads : Value → Bool}

theorem leaf?_combined (inOrder : file.Ordered) (fits : shape.Fits file) (ordered : given.Ordered)
    (h : shape.Fits given) (hp : shape.along keys = .value reads) : (combined file given temporary).leaf? keys =
      (given.leaf? keys).or ((file.leaf? keys).or ((Settings.default temporary).toValue.leaf? keys)) := by
  rw [combined, Shape.leaf?_merge_or h ordered hp, Shape.leaf?_merge_or fits inOrder hp]

theorem at?_combined_isSome (inOrder : file.Ordered) (fits : shape.Fits file) (ordered : given.Ordered)
    (h : shape.Fits given) (hp : shape.along keys ≠ .free) :
    ((combined file given temporary).at? keys).isSome = true ↔
      (given.at? keys).isSome = true ∨ (file.at? keys).isSome = true ∨
        ((Settings.default temporary).toValue.at? keys).isSome = true := by
  rw [combined, Shape.at?_merge_isSome h ordered hp, Shape.at?_merge_isSome fits inOrder hp, Bool.or_eq_true,
    Bool.or_eq_true]

theorem fromLeaves_eq_some : fromLeaves v = some s ↔
    v.readAt Duration.ofValue ["default_start_timeout"] = some s.defaultStartTimeout ∧
      v.readAt Duration.ofValue ["backend_grace"] = some s.backendGrace ∧
      v.readAt (BackendKind.ofValue leniency) ["backend"] = some s.backend ∧
      v.readAt (LogFormat.ofValue leniency) ["log_format"] = some s.logFormat ∧
      v.readAt (Value.asItems (FilesystemConfig.ofValue leniency)) ["storage"] = some s.storage ∧
      v.readAt Value.asText ["locator", "staging_root"] = some s.stagingRoot ∧ policiesFrom v = some s.policies := by
  have locator : locatorFrom v = some ⟨s.stagingRoot, s.policies⟩ ↔
      v.readAt Value.asText ["locator", "staging_root"] = some s.stagingRoot ∧ policiesFrom v = some s.policies := by
    unfold locatorFrom
    cases v.readAt Value.asText ["locator", "staging_root"] <;> cases policiesFrom v <;> simp
  rw [fromLeaves_eq_ofParts, ofParts_eq_some, locator]

/-- Where no single value is missing, it is the policies alone that can be. -/
theorem exists_fromLeaves (fits : shape.Fits v) (present : ∀ keys ∈ leafPaths, (v.leaf? keys).isSome = true) :
    (∃ s, fromLeaves v = some s) ↔ Complete v := by
  rw [← policiesFrom_isSome_iff fits]
  constructor
  · rintro ⟨s, hs⟩
    rw [(fromLeaves_eq_some.mp hs).2.2.2.2.2.2]
    rfl
  · intro policies
    have read : ∀ {α : Type} (read : Value → Reads α) (keys : List String), keys ∈ leafPaths →
        shape.along keys = .reading read → ∃ a, v.readAt read keys = some a := by
      intro α read keys hk hp
      exact Option.isSome_iff_exists.mp ((fits.readAt_isSome hp).trans (present keys hk))
    obtain ⟨timeout, ht⟩ := read Duration.ofValue ["default_start_timeout"] (by decide) rfl
    obtain ⟨grace, hg⟩ := read Duration.ofValue ["backend_grace"] (by decide) rfl
    obtain ⟨backend, hb⟩ := read (BackendKind.ofValue leniency) ["backend"] (by decide) rfl
    obtain ⟨format, hl⟩ := read (LogFormat.ofValue leniency) ["log_format"] (by decide) rfl
    obtain ⟨storage, hs⟩ := read (Value.asItems (FilesystemConfig.ofValue leniency)) ["storage"] (by decide) rfl
    obtain ⟨root, hr⟩ := read Value.asText ["locator", "staging_root"] (by decide) rfl
    obtain ⟨ps, hp⟩ := Option.isSome_iff_exists.mp policies
    exact ⟨⟨timeout, grace, backend, format, storage, root, ps⟩,
      fromLeaves_eq_some.mpr ⟨ht, hg, hb, hl, hs, hr, hp⟩⟩

theorem validated_iff (hs : fromLeaves v = some s) : Validated v ↔ s.Valid := by
  obtain ⟨timeout, -, -, -, storage, root, -⟩ := fromLeaves_eq_some.mp hs
  rw [valid_iff]
  constructor
  · rintro ⟨⟨t, ht, positive⟩, ⟨fs, hfs, filled⟩, ⟨r, hr, named⟩⟩
    rw [timeout] at ht
    rw [storage] at hfs
    rw [root] at hr
    exact ⟨Option.some.inj ht ▸ positive, Option.some.inj hfs ▸ filled, Option.some.inj hr ▸ named⟩
  · rintro ⟨positive, filled, named⟩
    exact ⟨⟨_, timeout, positive⟩, ⟨_, storage, filled⟩, ⟨_, root, named⟩⟩

/-- The variable that names the file of settings gives nothing. -/
theorem layer_unnamed (env : Environment) : Environment.layer (env.filter fun v =>
    Environment.small v.name.toList ≠ Environment.small Environment.configName.toList) = env.layer := by
  refine Environment.layer_filter _ fun v _ hv => ?_
  rw [Variable.given, Environment.keys?_of_configName (by simpa using hv)]
  rfl

/-- Settings come of their layers leaf by leaf, and are loaded if their policies are complete and no rule is broken,
whichever directory there is for temporary files. -/
theorem layers_decide_settings (temporary : String) (hf : filed d path = .ok file) (hfits : shape.Fits file)
    (henv : ∀ v ∈ env, ∀ g ∈ v.given, shape.Fits g) :
    ∃ given, env.layer = .ok given ∧ Layered d path env temporary file given := by
  refine ⟨_, layer_of_fits henv, ?_⟩
  generalize hg : (env.filterMap Variable.given).foldl Value.merge (.table []) = given
  have he : env.layer = .ok given := hg ▸ layer_of_fits henv
  -- What a path leads to after a merge is known only of layers with their keys in order; all three have them so.
  have inOrder := ordered_filed hf
  have ordered := ordered_layer henv he
  have fits := fits_layer henv he
  have whole : shape.Fits (combined file given temporary) :=
    (fits_default.merge hfits ordered_default inOrder).merge fits (ordered_default.merge inOrder) ordered
  have loaded : ∀ s, loadFrom d path env temporary = .ok s ↔
      fromLeaves (combined file given temporary) = some s ∧ s.Valid := by
    intro s
    rw [loadFrom_eq hf he, check_eq_ok, toOption_ofValue whole ((ordered_default.merge inOrder).merge ordered)]
  have present : ∀ keys ∈ leafPaths, ((combined file given temporary).leaf? keys).isSome = true := by
    intro keys hk
    obtain ⟨reads, hp⟩ := along_leafPaths keys hk
    rw [leaf?_combined inOrder hfits ordered fits hp, Option.isSome_or, Option.isSome_or, default_leaf_isSome keys hk,
      Bool.or_true, Bool.or_true]
  exact {
    spelled := by
      intro v _ keys hk hne apart hn
      rw [Variable.given, Environment.keys?_of_spelled hk hne apart hn]
      rfl
    unnamed := (layer_unnamed env).trans he
    leaf := by
      intro keys reads hp
      rw [leaf?_combined inOrder hfits ordered fits hp, leaf?_layer henv he hp]
    table := by
      intro keys hp
      rw [at?_combined_isSome inOrder hfits ordered fits hp, at?_layer_isSome henv he hp, or_assoc]
      -- The empty table under all variables has something at the empty path alone, and there the default has too.
      refine or_congr_right (or_iff_right_of_imp fun empty => Or.inr ?_)
      cases keys with
      | nil => rfl
      | cons key keys => exact absurd empty nofun
    loaded := loaded
    succeeds := by
      simp only [loaded]
      rw [← exists_fromLeaves whole present]
      constructor
      · rintro ⟨s, hs, valid⟩
        exact ⟨⟨s, hs⟩, (validated_iff hs).mpr valid⟩
      · rintro ⟨⟨s, hs⟩, validated⟩
        exact ⟨s, hs, (validated_iff hs).mp validated⟩ }

/-! ### A file and three variables -/

/-- A working directory with a file of settings that leaves a policy without a target. -/
def configuredDisk : Disk where
  entries := [(["deployer.toml"], .file
    "[locator.policies.pytorch]\ntype = \"single_file\"\nsource = \"model\"\n".toUTF8.toList)]
  home := []
  limits := ⟨some 255, some 4096⟩

def configuredVariables : Environment :=
  [⟨"TRD_DEPLOYER_CONFIG", "deployer.toml"⟩, ⟨"TRD_DEPLOYER_LOCATOR__STAGING_ROOT", "/mnt/served"⟩,
    ⟨"trd_deployer_locator__policies__pytorch__target", "model.pt"⟩]

/-- The file gives a policy its type and its source, a variable its target. -/
theorem layers_decide_settings_mixed : ∃ file given, filed configuredDisk defaultPath = .ok file ∧ shape.Fits file
    ∧ (∀ v ∈ configuredVariables, ∀ g ∈ v.given, shape.Fits g) ∧ configuredVariables.layer = .ok given
    ∧ Layered configuredDisk defaultPath configuredVariables "/tmp" file given
    ∧ (loadFrom configuredDisk defaultPath configuredVariables "/tmp").toOption = some
      { Settings.default with
        stagingRoot := "/mnt/served"
        policies := [("pytorch", .singleFile "model" "model.pt")] } := by
  have parsed : ((filed configuredDisk defaultPath).toOption.any fun v => shape.Fits v) = true := by decide +kernel
  cases hf : filed configuredDisk defaultPath with
  | error e =>
    rw [hf] at parsed
    exact absurd parsed nofun
  | ok file =>
    rw [hf] at parsed
    have fits : shape.Fits file := of_decide_eq_true parsed
    have readable : ∀ v ∈ configuredVariables, ∀ g ∈ v.given, shape.Fits g := by decide +kernel
    obtain ⟨given, hg, layered⟩ := layers_decide_settings "/tmp" hf fits readable
    exact ⟨file, given, rfl, fits, readable, hg, layered, by decide +kernel⟩

/-- A variable that gives a policy its type and nothing beside it. -/
def typeAlone : Variable := ⟨"TRD_DEPLOYER_LOCATOR__POLICIES__PYTORCH__TYPE", "single_file"⟩

theorem given_typeAlone : typeAlone.given =
    some (Environment.nested ["locator", "policies", "pytorch", "type"] (.text "single_file")) := rfl

/-- Settings are not loaded if a policy is left incomplete, though all that is given can be read and no rule is
broken. -/
theorem incomplete_policy_turned_away : filed { configuredDisk with entries := [] } defaultPath = .ok (.table [])
    ∧ (∀ v ∈ [typeAlone], ∀ g ∈ v.given, shape.Fits g)
    ∧ (∃ given, Environment.layer [typeAlone] = .ok given ∧ Validated (combined (.table []) given))
    ∧ ∀ s, loadFrom { configuredDisk with entries := [] } defaultPath [typeAlone] ≠ .ok s := by
  have fits : ∀ v ∈ [typeAlone], ∀ g ∈ v.given, shape.Fits g := by decide +kernel
  have layer := layer_of_fits fits
  rw [List.filterMap_cons_some given_typeAlone] at layer
  refine ⟨rfl, fits, ⟨_, layer, ?_⟩, ?_⟩
  · exact ⟨⟨Duration.ofSeconds 300, by decide +kernel, rfl⟩,
      ⟨[⟨Storage.defaultPriority⟩], by decide +kernel, by decide⟩,
      ⟨"/tmp/triton-model-deployer", by decide +kernel, by decide⟩⟩
  · intro s hs
    have failed : (loadFrom { configuredDisk with entries := [] } defaultPath [typeAlone]).toOption = none := by
      decide +kernel
    rw [hs] at failed
    exact absurd failed nofun

end Layers

end Settings
end ServingLifecycle
