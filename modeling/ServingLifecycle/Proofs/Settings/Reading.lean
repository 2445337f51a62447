import ServingLifecycle.Proofs.Value.Reading
import ServingLifecycle.Proofs.Value.Shape
import ServingLifecycle.Settings.Layers
/-!
# Reading settings

Which keys settings have, what is read under each of them, and what settings come of that. Of a value of the shape of
settings nothing but its leaves is read: each field from the leaf on its own path, each policy from those below its
kind.
-/
namespace ServingLifecycle

open Value GivenFields

namespace Value

variable {t : List (String × Value)} {name : String} {p : String → Bool}

/-- The keys of the table that stands on a path. -/
def keysAt (v : Value) (path : List String) : List String :=
  match v.at? path with
  | some (table t) => t.map Prod.fst
  | _ => []

theorem mem_keysAt {v : Value} {path : List String} {key : String} :
    key ∈ v.keysAt path ↔ (v.at? (path ++ [key])).isSome = true := by
  rw [keysAt, at?_append]
  cases v.at? path with
  | none => simp
  | some w =>
    cases w with
    | table t =>
      have found : (t.lookup key).isSome = true ↔ key ∈ t.map Prod.fst := by
        rw [Option.isSome_iff_ne_none, ne_eq, List.lookup_eq_none_iff]
        simp
      rw [Option.bind_some, at?_cons_table, ← found]
      cases t.lookup key <;> rfl
    | _ => simp [at?]

/-- What is read under a key of a table that need not have it. -/
def fieldOr {α : Type} (t : List (String × Value)) (read : Value → Reads α) (name : String) (absent : α) : Option α :=
  if (t.lookup name).isSome then field t read name else some absent

theorem lookup_filter (h : p name = true) : (t.filter fun e => p e.1).lookup name = t.lookup name := by
  induction t with
  | nil => rfl
  | cons e t ih =>
    obtain ⟨k, v⟩ := e
    by_cases same : name = k
    · subst same
      simp [h]
    · cases hk : p k <;> simp [hk, List.lookup_cons, beq_false_of_ne same, ih]

theorem Shape.Fits.readAt_key {α : Type} {s : Shape} {read : Value → Reads α} (fits : s.Fits (table t))
    (hp : s.along [name] = reading read) : (table t).readAt read [name] = field t read name := by
  rw [fits.readAt_eq hp, field, at?_cons_table]
  cases t.lookup name <;> rfl

end Value

namespace StagingPolicy

/-- What a policy of each kind asks for beside its tag. -/
def Tag.fields : Tag → List String
  | versionedDirectory => ["version"]
  | singleFile => ["source", "target"]
  | passthrough => []

def shape : Shape := .record fun
  | "type" => .reading (Value.asTag Tag.choices)
  | "version" => .reading Value.asText
  | "source" => .reading Value.asText
  | "target" => .reading Value.asText
  | _ => .free

/-- The policy that the leaves below a path tell. -/
def fromLeaves (v : Value) (path : List String) : Option StagingPolicy := do
  match ← v.readAt (Value.asTag Tag.choices) (path ++ ["type"]) with
  | .versionedDirectory => return .versionedDirectory (← v.readAt Value.asText (path ++ ["version"]))
  | .singleFile =>
    return .singleFile (← v.readAt Value.asText (path ++ ["source"])) (← v.readAt Value.asText (path ++ ["target"]))
  | .passthrough => return .passthrough

variable {v c : Value} {t : List (String × Value)} {path : List String}

theorem fromLeaves_append (h : c.at? path = some v) (rest : List String) :
    fromLeaves c (path ++ rest) = fromLeaves v rest := by
  simp only [fromLeaves, List.append_assoc, readAt_append, h, Option.bind_some]

/-- Reads the only field of a versioned directory. -/
def readVersion (d : Draft) (_ : String) (v : Value) : Reads Draft := do
  return { d with first := some (← v.asText) }

def readFile (d : Draft) (name : String) (v : Value) : Reads Draft := do
  match name with
  | "source" => return { d with first := some (← v.asText) }
  | _ => return { d with second := some (← v.asText) }

theorem keeps_version : Keeps readVersion ["version"] Value.asText "version" Draft.first where
  own d v := by simp [readVersion, Function.comp_def]
  other d k v d' listed apart hs := absurd (List.mem_singleton.mp listed) apart

theorem keeps_source : Keeps readFile ["source", "target"] Value.asText "source" Draft.first where
  own d v := by simp [readFile, Function.comp_def]
  other d k v d' listed apart hs := by
    obtain rfl : k = "target" := by simpa [apart] using listed
    obtain ⟨a, -, rfl⟩ : ∃ a, v.asText.toOption = some a ∧ { d with second := some a } = d' := by
      simpa [readFile] using hs
    rfl

theorem keeps_target : Keeps readFile ["source", "target"] Value.asText "target" Draft.second where
  own d v := by simp [readFile, Function.comp_def]
  other d k v d' listed apart hs := by
    obtain rfl : k = "source" := by simpa [apart] using listed
    obtain ⟨a, -, rfl⟩ : ∃ a, v.asText.toOption = some a ∧ { d with first := some a } = d' := by
      simpa [readFile] using hs
    rfl

theorem toOption_versionedDirectory (h : InOrder t) :
    (ofContent (.table t) .versionedDirectory).toOption =
      (field t Value.asText "version").map versionedDirectory := by
  have record : (ofContent (.table t) .versionedDirectory).toOption =
      (fill readVersion ["version"] {} t).bind fun d => d.first.map versionedDirectory :=
    toOption_record ⟨true, true⟩ readVersion
      (fun f d => do return versionedDirectory (← f.require "version" d.first)) {} (by intro f d; simp)
  refine record.trans (fill_bind ?_ ?_)
  · intro d hd
    simp [get_of_fill keeps_version (List.mem_singleton_self _) h hd]
  · rintro p hp ⟨k, v⟩ he listed d
    obtain rfl : k = "version" := List.mem_singleton.mp listed
    obtain ⟨a, ha, -⟩ := Option.map_eq_some_iff.mp hp
    exact keeps_version.readable h he ha

theorem toOption_singleFile (h : InOrder t) :
    (ofContent (.table t) .singleFile).toOption =
      (field t Value.asText "source").bind fun s => (field t Value.asText "target").map (singleFile s) := by
  have record : (ofContent (.table t) .singleFile).toOption =
      (fill readFile ["source", "target"] {} t).bind fun d => d.first.bind fun s => d.second.map (singleFile s) :=
    toOption_record ⟨true, true⟩ readFile (fun f d => do
      return singleFile (← f.require "source" d.first) (← f.require "target" d.second)) {} (by intro f d; simp)
  refine record.trans (fill_bind ?_ ?_)
  · intro d hd
    simp [get_of_fill keeps_source (by simp) h hd, get_of_fill keeps_target (by simp) h hd]
  · rintro p hp ⟨k, v⟩ he listed d
    obtain ⟨source, hs, hp⟩ := Option.bind_eq_some_iff.mp hp
    obtain ⟨target, ht, -⟩ := Option.map_eq_some_iff.mp hp
    rcases (by simpa using listed : k = "source" ∨ k = "target") with rfl | rfl
    · exact keeps_source.readable h he hs
    · exact keeps_target.readable h he ht

/-- A policy of the right shape is what its leaves tell. -/
theorem toOption_ofValue (fits : shape.Fits v) (ordered : v.Ordered) :
    (StagingPolicy.ofValue v).toOption = fromLeaves v [] := by
  obtain ⟨t, rfl, -⟩ := Shape.fits_record_iff.mp fits
  obtain ⟨inOrder, -⟩ := ordered_table_iff.mp ordered
  have rest : InOrder (t.filter fun e => e.1 ≠ "type") := List.Pairwise.filter _ inOrder
  have text : ∀ name, name ≠ "type" → shape.along [name] = .reading Value.asText →
      field (t.filter fun e => e.1 ≠ "type") Value.asText name = (Value.table t).readAt Value.asText [name] := by
    intro name apart hp
    rw [fits.readAt_key hp, field, lookup_filter (p := fun k => k ≠ "type") (by simpa using apart)]
    rfl
  rw [StagingPolicy.ofValue, fromLeaves, List.nil_append, fits.readAt_key rfl, field]
  cases t.lookup "type" with
  | none => rfl
  | some v =>
    simp only [Reads.toOption_bind, Reads.toOption_under, Reads.toOption_shallow, Option.bind_some]
    cases (v.asTag Tag.choices).toOption with
    | none => rfl
    | some tag =>
      cases tag with
      | versionedDirectory =>
        rw [Option.bind_some, toOption_versionedDirectory rest, text "version" (by decide) rfl, Option.map_eq_bind]
        rfl
      | singleFile =>
        rw [Option.bind_some, toOption_singleFile rest, text "source" (by decide) rfl, text "target" (by decide) rfl]
        simp only [Option.map_eq_bind]
        rfl
      | passthrough => rfl

end StagingPolicy

namespace Settings

/-- The keys of settings, those below the locator among them, with a table of policies by their kinds. -/
def shape : Shape := .record fun
  | "default_start_timeout" => .reading Duration.ofValue
  | "backend_grace" => .reading Duration.ofValue
  | "backend" => .reading (BackendKind.ofValue leniency)
  | "log_format" => .reading (LogFormat.ofValue leniency)
  | "storage" => .reading (Value.asItems (FilesystemConfig.ofValue leniency))
  | "locator" => .record fun
    | "staging_root" => .reading Value.asText
    | "policies" => .record fun _ => StagingPolicy.shape
    | _ => .free
  | _ => .free

/-- The policies that the leaves of a value tell, in the order of their kinds. -/
def policiesFrom (v : Value) : Option (List (String × StagingPolicy)) :=
  (v.keysAt ["locator", "policies"]).mapM fun kind =>
    (StagingPolicy.fromLeaves v ["locator", "policies", kind]).map fun policy => (kind, policy)

/-- The settings that the leaves of a value tell. -/
def fromLeaves (v : Value) : Option Settings := do
  let defaultStartTimeout ← v.readAt Duration.ofValue ["default_start_timeout"]
  let backendGrace ← v.readAt Duration.ofValue ["backend_grace"]
  let backend ← v.readAt (BackendKind.ofValue leniency) ["backend"]
  let logFormat ← v.readAt (LogFormat.ofValue leniency) ["log_format"]
  let storage ← v.readAt (Value.asItems (FilesystemConfig.ofValue leniency)) ["storage"]
  let stagingRoot ← v.readAt Value.asText ["locator", "staging_root"]
  let policies ← policiesFrom v
  return ⟨defaultStartTimeout, backendGrace, backend, logFormat, storage, stagingRoot, policies⟩

variable {strict : Strictness} {v : Value} {t : List (String × Value)}

def readLocator (d : LocatorDraft) (name : String) (v : Value) : Reads LocatorDraft := do
  match name with
  | "staging_root" => return { d with stagingRoot := some (← v.asText) }
  | _ => return { d with policies := some (← v.asEntries StagingPolicy.ofValue) }

theorem keeps_stagingRoot :
    Keeps readLocator ["staging_root", "policies"] Value.asText "staging_root" LocatorDraft.stagingRoot where
  own d v := by simp [readLocator, Function.comp_def]
  other d k v d' listed apart hs := by
    obtain rfl : k = "policies" := by simpa [apart] using listed
    obtain ⟨a, -, rfl⟩ : ∃ a, (v.asEntries StagingPolicy.ofValue).toOption = some a ∧
        { d with policies := some a } = d' := by
      simpa [readLocator] using hs
    rfl

theorem keeps_policies : Keeps readLocator ["staging_root", "policies"] (Value.asEntries StagingPolicy.ofValue)
    "policies" LocatorDraft.policies where
  own d v := by simp [readLocator, Function.comp_def]
  other d k v d' listed apart hs := by
    obtain rfl : k = "staging_root" := by simpa [apart] using listed
    obtain ⟨a, -, rfl⟩ : ∃ a, v.asText.toOption = some a ∧ { d with stagingRoot := some a } = d' := by
      simpa [readLocator] using hs
    rfl

theorem toOption_locatorPart (h : InOrder t) : (LocatorPart.ofValue strict (.table t)).toOption =
    (field t Value.asText "staging_root").bind fun root =>
      (fieldOr t (Value.asEntries StagingPolicy.ofValue) "policies" []).map (LocatorPart.mk root) := by
  have record : (LocatorPart.ofValue strict (.table t)).toOption =
      (fill readLocator ["staging_root", "policies"] {} t).bind fun d =>
        d.stagingRoot.map fun root => LocatorPart.mk root (d.policies.getD []) :=
    toOption_record strict readLocator (fun f d => do
      return LocatorPart.mk (← f.require "staging_root" d.stagingRoot) (d.policies.getD [])) {} (by intro f d; simp)
  refine record.trans (fill_bind ?_ ?_)
  · intro d hd
    have root := get_of_fill keeps_stagingRoot (by simp) h hd
    have policies := get_of_fill keeps_policies (by simp) h hd
    rw [root, policies, fieldOr]
    cases hv : t.lookup "policies" with
    | none =>
      have absent : field t (Value.asEntries StagingPolicy.ofValue) "policies" = none := by rw [field, hv]; rfl
      rw [absent]
      cases field t Value.asText "staging_root" <;> rfl
    | some w =>
      obtain ⟨ps, hp⟩ := Option.isSome_iff_exists.mp (field_isSome_of_fill keeps_policies (by simp) hd hv)
      rw [hp]
      cases field t Value.asText "staging_root" <;> rfl
  · rintro part hp ⟨k, v⟩ he listed d
    obtain ⟨root, hr, hp⟩ := Option.bind_eq_some_iff.mp hp
    obtain ⟨policies, hp, -⟩ := Option.map_eq_some_iff.mp hp
    rcases (by simpa using listed : k = "staging_root" ∨ k = "policies") with rfl | rfl
    · exact keeps_stagingRoot.readable h he hr
    · exact keeps_policies.readable h he (by simpa [fieldOr, h.lookup_eq_some_iff.mpr he] using hp)

def readSetting (strict : Strictness) (d : Draft) (name : String) (v : Value) : Reads Draft := do
  match name with
  | "default_start_timeout" => return { d with defaultStartTimeout := some (← Duration.ofValue v) }
  | "backend_grace" => return { d with backendGrace := some (← Duration.ofValue v) }
  | "backend" => return { d with backend := some (← BackendKind.ofValue strict v) }
  | "log_format" => return { d with logFormat := some (← LogFormat.ofValue strict v) }
  | "storage" => return { d with storage := some (← v.asItems (FilesystemConfig.ofValue strict)) }
  | _ => return { d with locator := some (← LocatorPart.ofValue strict v) }

theorem mem_fieldNames {k : String} : k ∈ fieldNames ↔ k = "default_start_timeout" ∨ k = "backend_grace" ∨
    k = "backend" ∨ k = "log_format" ∨ k = "storage" ∨ k = "locator" := by
  simp [fieldNames]

/-- A setting that is read leaves all others as they were. -/
theorem readSetting_other {d d' : Draft} {k : String} (listed : k ∈ fieldNames)
    (hs : (readSetting strict d k v).toOption = some d') :
    (k ≠ "default_start_timeout" → d'.defaultStartTimeout = d.defaultStartTimeout) ∧
      (k ≠ "backend_grace" → d'.backendGrace = d.backendGrace) ∧ (k ≠ "backend" → d'.backend = d.backend) ∧
      (k ≠ "log_format" → d'.logFormat = d.logFormat) ∧ (k ≠ "storage" → d'.storage = d.storage) ∧
      (k ≠ "locator" → d'.locator = d.locator) := by
  rcases mem_fieldNames.mp listed with rfl | rfl | rfl | rfl | rfl | rfl
  all_goals
    simp [readSetting] at hs
    obtain ⟨a, -, rfl⟩ := hs
    simp

theorem keeps_defaultStartTimeout : Keeps (readSetting strict) fieldNames Duration.ofValue "default_start_timeout"
    Draft.defaultStartTimeout where
  own d v := by simp [readSetting, Function.comp_def]
  other _ _ _ _ listed apart hs := (readSetting_other listed hs).1 apart

theorem keeps_backendGrace : Keeps (readSetting strict) fieldNames Duration.ofValue "backend_grace"
    Draft.backendGrace where
  own d v := by simp [readSetting, Function.comp_def]
  other _ _ _ _ listed apart hs := (readSetting_other listed hs).2.1 apart

theorem keeps_backend : Keeps (readSetting strict) fieldNames (BackendKind.ofValue strict) "backend"
    Draft.backend where
  own d v := by simp [readSetting, Function.comp_def]
  other _ _ _ _ listed apart hs := (readSetting_other listed hs).2.2.1 apart

theorem keeps_logFormat : Keeps (readSetting strict) fieldNames (LogFormat.ofValue strict) "log_format"
    Draft.logFormat where
  own d v := by simp [readSetting, Function.comp_def]
  other _ _ _ _ listed apart hs := (readSetting_other listed hs).2.2.2.1 apart

theorem keeps_storage : Keeps (readSetting strict) fieldNames (Value.asItems (FilesystemConfig.ofValue strict))
    "storage" Draft.storage where
  own d v := by simp [readSetting, Function.comp_def]
  other _ _ _ _ listed apart hs := (readSetting_other listed hs).2.2.2.2.1 apart

theorem keeps_locator : Keeps (readSetting strict) fieldNames (LocatorPart.ofValue strict) "locator"
    Draft.locator where
  own d v := by simp [readSetting, Function.comp_def]
  other _ _ _ _ listed apart hs := (readSetting_other listed hs).2.2.2.2.2 apart

/-- Settings as they are put together from their parts, if none of them is missing. -/
def ofParts (defaultStartTimeout backendGrace : Option Duration) (backend : Option BackendKind)
    (logFormat : Option LogFormat) (storage : Option (List FilesystemConfig)) (locator : Option LocatorPart) :
    Option Settings := do
  let defaultStartTimeout ← defaultStartTimeout
  let backendGrace ← backendGrace
  let backend ← backend
  let logFormat ← logFormat
  let storage ← storage
  let locator ← locator
  return ⟨defaultStartTimeout, backendGrace, backend, logFormat, storage, locator.stagingRoot, locator.policies⟩

theorem ofParts_eq_some {defaultStartTimeout backendGrace : Option Duration} {backend : Option BackendKind}
    {logFormat : Option LogFormat} {storage : Option (List FilesystemConfig)} {locator : Option LocatorPart}
    {s : Settings} : ofParts defaultStartTimeout backendGrace backend logFormat storage locator = some s ↔
      defaultStartTimeout = some s.defaultStartTimeout ∧ backendGrace = some s.backendGrace ∧
        backend = some s.backend ∧ logFormat = some s.logFormat ∧ storage = some s.storage ∧
        locator = some ⟨s.stagingRoot, s.policies⟩ := by
  simp only [ofParts, Option.bind_eq_bind, Option.bind_eq_some_iff, Option.pure_def, Option.some.injEq]
  constructor
  · rintro ⟨_, rfl, _, rfl, _, rfl, _, rfl, _, rfl, _, rfl, rfl⟩
    exact ⟨rfl, rfl, rfl, rfl, rfl, rfl⟩
  · rintro ⟨rfl, rfl, rfl, rfl, rfl, rfl⟩
    exact ⟨_, rfl, _, rfl, _, rfl, _, rfl, _, rfl, _, rfl, rfl⟩

/-- Settings are read from the entries under their names. -/
theorem toOption_settings (h : InOrder t) : (Settings.ofValue strict (.table t)).toOption =
    ofParts (field t Duration.ofValue "default_start_timeout") (field t Duration.ofValue "backend_grace")
      (field t (BackendKind.ofValue strict) "backend") (field t (LogFormat.ofValue strict) "log_format")
      (field t (Value.asItems (FilesystemConfig.ofValue strict)) "storage")
      (field t (LocatorPart.ofValue strict) "locator") := by
  have record : (Settings.ofValue strict (.table t)).toOption = (fill (readSetting strict) fieldNames {} t).bind
      fun d => ofParts d.defaultStartTimeout d.backendGrace d.backend d.logFormat d.storage d.locator :=
    toOption_record strict (readSetting strict) (fun f d => do
      let defaultStartTimeout ← f.require "default_start_timeout" d.defaultStartTimeout
      let backendGrace ← f.require "backend_grace" d.backendGrace
      let backend ← f.require "backend" d.backend
      let logFormat ← f.require "log_format" d.logFormat
      let storage ← f.require "storage" d.storage
      let locator ← f.require "locator" d.locator
      return Settings.mk defaultStartTimeout backendGrace backend logFormat storage locator.stagingRoot
        locator.policies) {} (by
      intro f d
      simp only [Reads.toOption_bind, toOption_require, Reads.toOption_pure]
      rfl)
  refine record.trans (fill_bind ?_ ?_)
  · intro d hd
    rw [get_of_fill keeps_defaultStartTimeout (by decide) h hd, get_of_fill keeps_backendGrace (by decide) h hd,
      get_of_fill keeps_backend (by decide) h hd, get_of_fill keeps_logFormat (by decide) h hd,
      get_of_fill keeps_storage (by decide) h hd, get_of_fill keeps_locator (by decide) h hd]
    simp only [Option.or_none]
  · rintro s hs ⟨k, v⟩ he listed d
    obtain ⟨timeout, grace, backend, format, storage, locator⟩ := ofParts_eq_some.mp hs
    rcases mem_fieldNames.mp listed with rfl | rfl | rfl | rfl | rfl | rfl
    · exact keeps_defaultStartTimeout.readable h he timeout
    · exact keeps_backendGrace.readable h he grace
    · exact keeps_backend.readable h he backend
    · exact keeps_logFormat.readable h he format
    · exact keeps_storage.readable h he storage
    · exact keeps_locator.readable h he locator

/-- The policies of a table of them are those that its leaves tell. -/
theorem toOption_policies (fits : (Shape.record fun _ => StagingPolicy.shape).Fits v) (ordered : v.Ordered) :
    (v.asEntries StagingPolicy.ofValue).toOption = (v.keysAt []).mapM fun kind =>
      (StagingPolicy.fromLeaves v [kind]).map fun policy => (kind, policy) := by
  obtain ⟨t, rfl, each⟩ := Shape.fits_record_iff.mp fits
  obtain ⟨inOrder, below⟩ := ordered_table_iff.mp ordered
  have keys : (Value.table t).keysAt [] = t.map Prod.fst := rfl
  rw [toOption_asEntries, keys, List.mapM_map]
  refine mapM_congr fun e he => ?_
  have here : (Value.table t).at? [e.1] = some e.2 := by
    rw [at?_cons_table, inOrder.lookup_eq_some_iff.mpr he]
    rfl
  rw [StagingPolicy.toOption_ofValue (each e he) (below e he), Function.comp_apply,
    ← StagingPolicy.fromLeaves_append here, List.append_nil]

theorem keysAt_of_at? {path : List String} {w : Value} (h : v.at? path = some w) : v.keysAt path = w.keysAt [] := by
  rw [keysAt, h]
  rfl

theorem policiesFrom_of_at? {w : Value} (h : v.at? ["locator", "policies"] = some w) :
    policiesFrom v = (w.keysAt []).mapM fun kind =>
      (StagingPolicy.fromLeaves w [kind]).map fun policy => (kind, policy) := by
  rw [policiesFrom, keysAt_of_at? h]
  refine mapM_congr fun kind _ => ?_
  rw [← StagingPolicy.fromLeaves_append h]
  rfl

/-- What the leaves of a value tell of the locator. -/
def locatorFrom (v : Value) : Option LocatorPart :=
  (v.readAt Value.asText ["locator", "staging_root"]).bind fun root => (policiesFrom v).map (LocatorPart.mk root)

theorem fromLeaves_eq_ofParts (v : Value) : fromLeaves v =
    ofParts (v.readAt Duration.ofValue ["default_start_timeout"]) (v.readAt Duration.ofValue ["backend_grace"])
      (v.readAt (BackendKind.ofValue leniency) ["backend"]) (v.readAt (LogFormat.ofValue leniency) ["log_format"])
      (v.readAt (Value.asItems (FilesystemConfig.ofValue leniency)) ["storage"]) (locatorFrom v) := by
  simp only [fromLeaves, ofParts, locatorFrom, Option.map_eq_bind, Option.bind_eq_bind, Option.bind_assoc]
  rfl

/-- What is read as the policies of the locator is what the leaves below it tell. -/
theorem fieldOr_policies (fits : shape.Fits v) (ordered : v.Ordered) (stands : v.at? ["locator"] = some (.table t)) :
    fieldOr t (Value.asEntries StagingPolicy.ofValue) "policies" [] = policiesFrom v := by
  have policies := at?_append v ["locator"] ["policies"]
  rw [stands, List.singleton_append, Option.bind_some, at?_cons_table] at policies
  rw [fieldOr]
  cases hp : t.lookup "policies" with
  | none =>
    rw [policiesFrom, keysAt, policies, hp]
    rfl
  | some p =>
    have here : v.at? ["locator", "policies"] = some p := by
      rw [policies, hp]
      rfl
    rw [field, hp, policiesFrom_of_at? here]
    exact toOption_policies (fits.along here) (ordered.of_at? here)

theorem field_locator (fits : shape.Fits (.table t)) (ordered : (Value.table t).Ordered) :
    field t (LocatorPart.ofValue leniency) "locator" = locatorFrom (.table t) := by
  have root := readAt_append (.table t) Value.asText ["locator"] ["staging_root"]
  have here : (Value.table t).at? ["locator"] = t.lookup "locator" := by
    rw [at?_cons_table]
    cases t.lookup "locator" <;> rfl
  rw [List.singleton_append, here] at root
  rw [locatorFrom, root, field]
  cases hw : t.lookup "locator" with
  | none => rfl
  | some w =>
    rw [hw] at here
    have part := fits.along here
    obtain ⟨l, rfl, -⟩ := Shape.fits_record_iff.mp part
    rw [Option.bind_some, Option.bind_some, part.readAt_key rfl,
      toOption_locatorPart (ordered_table_iff.mp (ordered.of_at? here)).1, fieldOr_policies fits ordered here]

/-- Of a value of the shape of settings those settings are read that its leaves tell. -/
theorem toOption_ofValue (fits : shape.Fits v) (ordered : v.Ordered) :
    (Settings.ofValue leniency v).toOption = fromLeaves v := by
  obtain ⟨t, rfl, -⟩ := Shape.fits_record_iff.mp fits
  rw [toOption_settings (ordered_table_iff.mp ordered).1, fromLeaves_eq_ofParts, field_locator fits ordered,
    fits.readAt_key rfl, fits.readAt_key rfl, fits.readAt_key rfl, fits.readAt_key rfl, fits.readAt_key rfl]

end Settings
end ServingLifecycle
