import ServingLifecycle.Proofs.Operation.Stages
import ServingLifecycle.Proofs.Path.Resolve
import ServingLifecycle.Proofs.Staging.Extent
import ServingLifecycle.Staging.Configured
/-!
# Staging stays inside

A deployment is staged under the staging root of the settings, in a directory for each segment of its identity and
one for the run. If these names do not climb out of the root by dots, then all that staging makes lies strictly
inside it, but for the root itself and the directories on the way to it, which are made when they are missing.
-/
namespace ServingLifecycle

/-- A path below a root: what it names after the root does not climb. A root that names nothing may be left out. -/
def Disk.Placed (d : Disk) (root path : String) : Prop :=
  ∃ front tail, Path.named path = front ++ tail ∧ Path.climbs 0 tail = false
    ∧ d.denoted root <+: Path.resolve (d.start path) front
    ∧ (front = Path.named root ∧ Path.isAbsolute path = Path.isAbsolute root ∨ front = [])

namespace Disk.Placed

variable {d : Disk} {root path name : String} {names : List String}

theorem append {path' : String} (h : d.Placed root path) (hn : Path.named path' = Path.named path ++ names)
    (ha : Path.isAbsolute path' = Path.isAbsolute path) (hnames : ∀ name ∈ names, Path.IsProper name) :
    d.Placed root path' := by
  obtain ⟨front, tail, e, low, inside, hfront⟩ := h
  refine ⟨front, tail ++ names, by rw [hn, e, List.append_assoc], Path.climbs_append low hnames, ?_, ?_⟩
  · rwa [start_congr ha]
  · rwa [ha]

theorem below (h : d.Placed root path) (hnames : ∀ name ∈ names, Path.IsProper name) :
    d.Placed root (Path.below path names) := by
  have hn : ∀ name ∈ names, Path.IsName name := fun name hm => (hnames name hm).toIsName
  exact h.append (Path.named_below path hn) (Path.isAbsolute_below path hn) hnames

/-- One name below a placed path is strictly inside the root. -/
theorem isInside {path' : String} (h : d.Placed root path) (hn : Path.named path' = Path.named path ++ [name])
    (ha : Path.isAbsolute path' = Path.isAbsolute path) (hname : Path.IsProper name) :
    Path.IsInside (d.denoted path') (d.denoted root) := by
  obtain ⟨front, tail, e, low, inside, -⟩ := h
  rw [denoted_eq, hn, e, List.append_assoc, Path.resolve_append, start_congr ha]
  exact Path.isInside_resolve inside low hname

theorem beneath {source from' to' : String} (h : d.Placed root path) (hb : Path.Beneath source path from' to') :
    Path.IsInside (d.denoted to') (d.denoted root) := by
  obtain ⟨names, hne, hnames, -, rfl⟩ := hb
  rcases List.eq_nil_or_concat names with rfl | ⟨front, last, rfl⟩
  · exact absurd rfl hne
  · rw [List.concat_eq_append] at hnames ⊢
    have hlast : Path.IsProper last := hnames last (List.mem_append_right _ List.mem_cons_self)
    have above := h.below fun n hn => hnames n (List.mem_append_left _ hn)
    rw [Path.below_append]
    exact above.isInside (Path.named_child _ hlast.toIsName) (Path.isAbsolute_child _ hlast.toIsName) hlast

/-- What leads to a placed path leads to the root or lies strictly inside it. -/
theorem leading {lead : String} (h : d.Placed root path) (hl : Path.Leading path lead) :
    Path.Leading root lead ∨ Path.IsInside (d.denoted lead) (d.denoted root) := by
  obtain ⟨front, tail, e, low, inside, hfront⟩ := h
  obtain ⟨above, name, hname, hpre, rfl⟩ := hl
  have hnames : ∀ n ∈ above ++ [name], Path.IsName n := fun n hn =>
    Path.isName_of_mem_moves_named (hpre.subset hn)
  rw [e, Path.moves_append] at hpre
  by_cases short : above ++ [name] <+: Path.moves front
  · left
    rcases hfront with ⟨rfl, ha⟩ | rfl
    · exact ⟨above, name, hname, short, by rw [Path.origin, Path.origin, ha]⟩
    · simp [Path.moves] at short
  · right
    obtain ⟨more, e'⟩ := (List.prefix_or_prefix_of_prefix hpre (List.prefix_append _ _)).resolve_left short
    rcases List.eq_nil_or_concat more with rfl | ⟨between, last, rfl⟩
    · rw [List.append_nil] at e'
      exact absurd (e' ▸ List.prefix_refl _) short
    · rw [List.concat_eq_append, ← List.append_assoc] at e'
      obtain ⟨rfl, hlast⟩ := List.append_inj' e' rfl
      cases hlast
      rw [List.append_assoc, List.prefix_append_right_inj] at hpre
      obtain ⟨rest, htail⟩ := hpre
      have stays : Path.climbs 0 between = false := by
        rw [← Path.climbs_moves, ← htail, List.append_assoc] at low
        exact Path.climbs_prefix low
      rw [denoted_eq, start_congr ((Path.isAbsolute_below _ hnames).trans (Path.isAbsolute_origin path)),
        Path.named_below _ hnames, Path.named_origin, List.nil_append, List.append_assoc, Path.resolve_append,
        Path.resolve_moves]
      exact Path.isInside_resolve inside stays hname

end Disk.Placed

/-! ### Where a deployment is staged -/

theorem Identity.isName_of_isSegment {text : String} (h : Identity.isSegment text = true) : Path.IsName text := by
  unfold isSegment at h
  rw [Bool.and_eq_true, List.all_eq_true] at h
  refine ⟨fun e => ?_, fun hm => ?_⟩
  · subst e
    cases h.1
  · simpa using h.2 _ hm

theorem Violation.isSegment_of_ofSegment {field value : String} (h : Violation.ofSegment field value = []) :
    Identity.isSegment value = true := by
  unfold ofSegment at h
  split at h
  · assumption
  · cases h

theorem Request.Valid.isName {request : Request} (h : request.Valid) : Path.IsName request.identity.pipeline
    ∧ Path.IsName request.identity.step ∧ Path.IsName request.identity.model := by
  unfold Request.Valid Request.violations Identity.violations at h
  simp only [List.append_eq_nil_iff] at h
  obtain ⟨⟨⟨⟨hmodel, hpipeline⟩, hstep⟩, -⟩, -⟩ := h
  have name {field value : String} (h : Violation.ofSegment field value = []) : Path.IsName value :=
    Identity.isName_of_isSegment (Violation.isSegment_of_ofSegment h)
  exact ⟨name hpipeline, name hstep, name hmodel⟩

theorem Settings.Valid.stagingRoot_ne {settings : Settings} (h : settings.Valid) : settings.stagingRoot ≠ "" := by
  unfold Settings.Valid Settings.violations Violation.ofText at h
  simp only [List.append_eq_nil_iff] at h
  intro e
  rw [if_pos e] at h
  cases h.1.2

theorem Settings.Valid.storage_ne {settings : Settings} (h : settings.Valid) : settings.storage ≠ [] := by
  unfold Settings.Valid Settings.violations at h
  simp only [List.append_eq_nil_iff] at h
  intro e
  rw [e] at h
  cases h.2

/-- The names of the directories that a run of a slot is staged in, below the staging root. -/
def Identity.placement (i : Identity) (runId : String) : List String :=
  [i.pipeline, i.step, i.model] ++ Path.named runId

namespace Settings

variable {s : Settings} {i : Identity} {runId : String}

/-- A staging root that is not the scheme alone stands before the names of the slot and the run. -/
theorem path_servedRoot (runId : String) (hroot : Uri.startsWith s.stagingRoot LocalFilesystem.scheme = true →
      Path.named (LocalFilesystem.path s.stagingRoot) ≠ [])
    (hi : Path.IsName i.pipeline ∧ Path.IsName i.step ∧ Path.IsName i.model) :
    Path.named (LocalFilesystem.path (s.servedRoot i runId))
        = Path.named (LocalFilesystem.path s.stagingRoot) ++ i.placement runId
      ∧ (LocalFilesystem.path s.stagingRoot ≠ "" → Path.isAbsolute (LocalFilesystem.path (s.servedRoot i runId))
        = Path.isAbsolute (LocalFilesystem.path s.stagingRoot)) := by
  obtain ⟨hpipeline, hstep, hmodel⟩ := hi
  have named {base child : String} (h : Path.IsName child) :
      Path.named (Uri.join base child) = Path.named base ++ [child] := by
    rw [Uri.named_join, Path.named_of_isName h]
  unfold servedRoot
  have e₁ := LocalFilesystem.path_join hroot i.pipeline
  have e₂ := LocalFilesystem.path_join (fun _ => by rw [e₁, named hpipeline]; simp) i.step
  have e₃ := LocalFilesystem.path_join (fun _ => by rw [e₂, named hstep]; simp) i.model
  have e₄ := LocalFilesystem.path_join (fun _ => by rw [e₃, named hmodel]; simp) runId
  rw [e₄, e₃, e₂, e₁]
  constructor
  · rw [Uri.named_join, named hmodel, named hstep, named hpipeline]
    simp [Identity.placement]
  · intro hne
    rw [Uri.isAbsolute_join (Uri.join_ne_empty _ _), Uri.isAbsolute_join (Uri.join_ne_empty _ _),
      Uri.isAbsolute_join (Uri.join_ne_empty _ _), Uri.isAbsolute_join hne]

/-- A staging root that is the scheme alone counts as the name of the scheme. -/
theorem servedRoot_scheme (hroot : Uri.startsWith s.stagingRoot LocalFilesystem.scheme = true)
    (none : Path.named (LocalFilesystem.path s.stagingRoot) = []) :
    s.servedRoot i runId = { s with stagingRoot := "file:" }.servedRoot i runId := by
  have hstem : Uri.stem s.stagingRoot.toList = Uri.stem "file:".toList := by
    obtain ⟨rest, hr⟩ := List.isPrefixOf_iff_prefix.mp hroot
    rw [LocalFilesystem.path, Uri.withoutStart, if_pos hroot, ← hr, List.drop_left] at none
    rw [← hr, Uri.stem_append_slashes _ (Uri.eq_slash_of_named none)]
    rfl
  unfold servedRoot
  rw [Uri.join_congr hstem]

/-- A run is staged below the staging root if its names do not climb. -/
theorem servedRoot_placed (hs : s.stagingRoot ≠ "")
    (hi : Path.IsName i.pipeline ∧ Path.IsName i.step ∧ Path.IsName i.model)
    (low : Path.climbs 0 (i.placement runId) = false) (d : Disk) :
    d.Placed (LocalFilesystem.path s.stagingRoot) (LocalFilesystem.path (s.servedRoot i runId))
      ∧ Path.named (LocalFilesystem.path (s.servedRoot i runId)) ≠ [] := by
  by_cases hroot : Uri.startsWith s.stagingRoot LocalFilesystem.scheme = true →
      Path.named (LocalFilesystem.path s.stagingRoot) ≠ []
  · obtain ⟨hn, ha⟩ := path_servedRoot runId hroot hi
    have hne : LocalFilesystem.path s.stagingRoot ≠ "" := by
      intro e
      by_cases hscheme : Uri.startsWith s.stagingRoot LocalFilesystem.scheme = true
      · exact hroot hscheme (by rw [e]; rfl)
      · rw [LocalFilesystem.path, Uri.withoutStart, if_neg hscheme] at e
        exact hs e
    refine ⟨⟨_, _, hn, low, ?_, Or.inl ⟨rfl, ha hne⟩⟩, by simp [hn, Identity.placement]⟩
    rewrite [Disk.denoted_eq, Disk.start_congr (ha hne)]
    exact List.prefix_refl _
  · rw [Classical.not_imp, not_not] at hroot
    obtain ⟨hscheme, none⟩ := hroot
    have plain : ¬Uri.startsWith "file:" LocalFilesystem.scheme = true := by decide
    have hfile : Path.named (LocalFilesystem.path "file:") = ["file:"] := by decide
    have hne : LocalFilesystem.path "file:" ≠ "" := by decide
    have relative : Path.isAbsolute (LocalFilesystem.path "file:") = false := by decide
    obtain ⟨hn, ha⟩ := path_servedRoot (s := { s with stagingRoot := "file:" }) runId (absurd · plain) hi
    have ha := (ha hne).trans relative
    rw [hfile] at hn
    rw [servedRoot_scheme hscheme none]
    have hstart : d.start (LocalFilesystem.path ({ s with stagingRoot := "file:" }.servedRoot i runId)) = d.home := by
      rw [Disk.start, ha, if_neg nofun]
    refine ⟨⟨[], "file:" :: i.placement runId, hn, Path.climbs_succ low, ?_, Or.inr rfl⟩, by simp [hn]⟩
    rw [Disk.denoted_eq, none, hstart]
    unfold Disk.start
    split
    · exact List.nil_prefix
    · exact List.prefix_refl _

end Settings

theorem PolicyTable.policy_builtin (kind : PredictorKind) : builtin.policy kind = .versionedDirectory "1"
    ∨ builtin.policy kind = .singleFile "model" "model.joblib" ∨ builtin.policy kind = .passthrough := by
  by_cases htensorflow : PredictorKind.tensorflow = kind
  · left
    simp [policy, builtin, htensorflow]
  · by_cases hsklearn : PredictorKind.sklearn = kind
    · right
      left
      simp [policy, builtin, htensorflow, hsklearn]
    · right
      right
      simp [policy, builtin, htensorflow, hsklearn]

namespace StagingPolicy

variable {d : Disk} {root served uri path from' to' : String} {kind : PredictorKind}

theorem child_placed (placed : d.Placed root (LocalFilesystem.path served))
    (hne : Path.named (LocalFilesystem.path served) ≠ []) {name : String} (hname : Path.IsProper name) :
    d.Placed root (LocalFilesystem.path (Uri.join served name))
      ∧ Path.IsInside (d.denoted (LocalFilesystem.path (Uri.join served name))) (d.denoted root) := by
  have hbase : LocalFilesystem.path served ≠ "" := by
    intro e
    exact hne (by rw [e]; rfl)
  have hn := Uri.named_join (LocalFilesystem.path served) name
  rw [Path.named_of_isName hname.toIsName] at hn
  rw [LocalFilesystem.path_join fun _ => hne]
  exact ⟨placed.append hn (Uri.isAbsolute_join hbase name) (by simpa using hname),
    placed.isInside hn (Uri.isAbsolute_join hbase name) hname⟩

theorem builtin_directories (placed : d.Placed root (LocalFilesystem.path served))
    (hne : Path.named (LocalFilesystem.path served) ≠ [])
    (h : (PolicyTable.builtin.policy kind).directories served path) :
    Path.Leading root path ∨ Path.IsInside (d.denoted path) (d.denoted root) := by
  rcases PolicyTable.policy_builtin kind with e | e | e <;> rw [e] at h
  · obtain ⟨names, hnames, hl⟩ := h
    exact ((child_placed placed hne (by decide)).1.below hnames).leading hl
  · exact placed.leading h
  · exact h.elim

theorem builtin_copies (placed : d.Placed root (LocalFilesystem.path served))
    (hne : Path.named (LocalFilesystem.path served) ≠ [])
    (h : (PolicyTable.builtin.policy kind).copies uri served from' to') :
    Path.IsInside (d.denoted to') (d.denoted root) := by
  rcases PolicyTable.policy_builtin kind with e | e | e <;> rw [e] at h
  · exact (child_placed placed hne (by decide)).1.beneath h
  · obtain ⟨-, rfl⟩ := h
    exact (child_placed placed hne (by decide)).2
  · exact h.elim

end StagingPolicy

namespace Operation
open Program

/-- Whatever a deployment's staging makes or writes lies strictly inside the staging root of the settings. Only when
that root is not there, it and the directories that are missing on the way to it are made as well. -/
theorem staging_stays_inside {settings : Settings} {request : Request} (hs : settings.Valid) (hr : request.Valid)
    (hserved : request.servedRoot = none) (hpolicies : settings.policies = [])
    (low : Path.climbs 0 (request.identity.placement request.runId) = false)
    {r r' : Registry} {seen : List Access} {p : Program Verdict} {a : Access} {uri root : String} {kind : PredictorKind}
    (steps : Steps ((Operation.deploy request).program settings) r seen p r') (ha : a ∈ seen)
    (asked : a.asked = some (.stage uri kind root)) {d d' : Disk} (tree : d.IsTree)
    (staged : ((Locator.ofSettings localFilesystem settings).locate uri kind root d).2 = d')
    {loc : Location} (changed : d'.get? loc ≠ d.get? loc) :
    ∃ path, ((Locator.ofSettings localFilesystem settings).policies.policy kind).Touches uri root path
      ∧ d'.LeadsTo path loc
      ∧ (Path.IsInside (d'.denoted path) (d'.denoted (LocalFilesystem.path settings.stagingRoot))
        ∨ d.hasDirectory (LocalFilesystem.path settings.stagingRoot) = false ∧ d.get? loc = none
          ∧ d'.get? loc = some .directory ∧ Path.Leading (LocalFilesystem.path settings.stagingRoot) path) := by
  obtain ⟨-, -, rfl⟩ := deploy_stages steps ha asked
  have hroot : stagingRoot settings request = settings.servedRoot request.identity request.runId := by
    rw [stagingRoot, hserved]
    rfl
  obtain ⟨placed, hne⟩ := Settings.servedRoot_placed hs.stagingRoot_ne hr.isName low d'
  have builds := Locator.locate_builds (l := Locator.ofSettings localFilesystem settings)
    (Storage.isLocal_ofConfig hs.storage_ne) tree uri kind (stagingRoot settings request)
  have hp : (Locator.ofSettings localFilesystem settings).policies = .builtin := by
    rw [Locator.ofSettings, hpolicies]
    rfl
  rw [staged, hp, hroot] at builds
  rw [hp, hroot]
  rcases builds.changed changed with ⟨free, made, path, hdir, leads⟩ | ⟨-, from', to', hcopy, -, leads⟩
  · refine ⟨path, Or.inl hdir, leads, ?_⟩
    rcases StagingPolicy.builtin_directories placed hne hdir with onTheWay | inside
    · refine Or.inr ⟨Bool.eq_false_iff.mpr fun there => ?_, free, made, onTheWay⟩
      -- the root is there, so the directory on the way to it is where it was
      obtain ⟨q, hq, old⟩ := tree.reaches_leading there onTheWay
      have new := builds.tree.reaches_of_leadsTo leads made
      rw [builds.keeps.start] at new
      cases new.unique (builds.keeps.reaches hq)
      rw [free] at old
      cases old
    · exact Or.inl inside
  · exact ⟨to', Or.inr ⟨from', hcopy⟩, leads, Or.inl (StagingPolicy.builtin_copies placed hne hcopy)⟩

/-- Settings with a staging root in the home directory. -/
def sampleSettings : Settings :=
  { Settings.default with stagingRoot := "served" }

theorem locator_sampleSettings : Locator.ofSettings localFilesystem sampleSettings = ⟨⟨[⟨LocalFilesystem.scheme,
    Storage.defaultPriority, 0, localFilesystem⟩, ⟨"", Storage.defaultPriority, 0, localFilesystem⟩], 1⟩, .builtin⟩ :=
  congrArg (Locator.mk · _) Storage.ofFilesystem_local

/-- A request for the artifact on the shelf. -/
def shelfRequest (pipeline runId : String) : Request :=
  ⟨⟨pipeline, "s1", "m1"⟩, runId, "art", .sklearn, true, defaultStartTimeout, none⟩

/-- The deployment of such a request stages its artifact once it has found no service. -/
theorem steps_shelfRequest (pipeline runId : String) (reply : Except StorageError Layout) : ∃ seen p,
    Steps ((Operation.deploy (shelfRequest pipeline runId)).program sampleSettings) .empty seen p .empty
      ∧ .call (.stage "art" .sklearn (sampleSettings.servedRoot ⟨pipeline, "s1", "m1"⟩ runId)) reply ∈ seen :=
  ⟨_, _, .head .read (.head (.call (c := .stage "art" .sklearn _) reply) (.refl _ _)),
    List.mem_cons_of_mem _ List.mem_cons_self⟩

/-- The disk after the artifact on the shelf was staged. -/
def stagedShelf (root : String) : Disk :=
  ((Locator.ofSettings localFilesystem sampleSettings).locate "art" .sklearn root .shelf).2

/-- A run id that goes up no further than it came down is staged inside. -/
theorem staging_stays_inside_dots : ∃ path,
    (stagedShelf (sampleSettings.servedRoot ⟨"p1", "s1", "m1"⟩ "a/../b")).LeadsTo path
        ["served", "p1", "s1", "m1", "b", "model.joblib"]
      ∧ Path.IsInside ((stagedShelf (sampleSettings.servedRoot ⟨"p1", "s1", "m1"⟩ "a/../b")).denoted path)
        ((stagedShelf (sampleSettings.servedRoot ⟨"p1", "s1", "m1"⟩ "a/../b")).denoted "served") := by
  obtain ⟨seen, p, steps, staged⟩ := steps_shelfRequest "p1" "a/../b" (.ok ⟨"", .sklearn⟩)
  have made : (stagedShelf (sampleSettings.servedRoot ⟨"p1", "s1", "m1"⟩ "a/../b")).get?
      ["served", "p1", "s1", "m1", "b", "model.joblib"] = some (.file [119]) := by
    rw [stagedShelf, locator_sampleSettings]
    decide +kernel
  have changed : (stagedShelf (sampleSettings.servedRoot ⟨"p1", "s1", "m1"⟩ "a/../b")).get?
      ["served", "p1", "s1", "m1", "b", "model.joblib"] 
        ≠ Disk.shelf.get? ["served", "p1", "s1", "m1", "b", "model.joblib"] := by
    rw [made]
    decide
  have valid : sampleSettings.Valid ∧ (shelfRequest "p1" "a/../b").Valid := by decide
  obtain ⟨path, -, leads, inside | ⟨-, -, directory, -⟩⟩ := staging_stays_inside valid.1 valid.2 rfl rfl (by decide)
    steps staged rfl Disk.isTree_shelf rfl changed
  · exact ⟨path, leads, inside⟩
  · cases made.symm.trans directory

/-- A pipeline that is named by two dots passes validation and is staged beside the staging root. -/
theorem staging_escapes : sampleSettings.Valid ∧ (shelfRequest ".." "run-1").Valid
    ∧ (∃ seen p, Steps ((Operation.deploy (shelfRequest ".." "run-1")).program sampleSettings) .empty seen p .empty
      ∧ .call (.stage "art" .sklearn "served/../s1/m1/run-1") (.ok ⟨"", .sklearn⟩) ∈ seen)
    ∧ Disk.shelf.get? ["s1", "m1", "run-1", "model.joblib"] = none
    ∧ (stagedShelf "served/../s1/m1/run-1").get? ["s1", "m1", "run-1", "model.joblib"] = some (.file [119])
    ∧ ¬Path.IsInside ["s1", "m1", "run-1", "model.joblib"] (Disk.shelf.denoted "served") := by
  refine ⟨by decide, by decide, steps_shelfRequest ".." "run-1" _, rfl, ?_, ?_⟩
  · rw [stagedShelf, locator_sampleSettings]
    decide +kernel
  · rintro ⟨rest, -, e⟩
    have hroot : Disk.shelf.denoted "served" = ["served"] := by decide
    rw [hroot] at e
    exact absurd (List.cons.inj e).1 (by decide)

end Operation
end ServingLifecycle
