import ServingLifecycle.Proofs.Path.Names
import ServingLifecycle.Proofs.Staging.Extent
import ServingLifecycle.Proofs.Storage.Local
import ServingLifecycle.Staging.Locator
/-!
# Spellings of a place

A path of the machine's own disk may be written bare or after `file://`. Staging does the same either way and answers
alike, as long as it puts no name behind a path of slashes alone: joining drops the slashes at the end of the base, and
then those of the scheme go with them.
-/
namespace ServingLifecycle

namespace Uri

/-- Joining puts a single slash at the seam, so it makes no scheme. -/
theorem hasScheme_join {base child : String} (hbase : hasScheme base = false) (hchild : hasScheme child = false) :
    hasScheme (join base child) = false := by
  rw [← Bool.not_eq_true, hasScheme_iff] at *
  rw [toList_join]
  obtain ⟨after, -, ebase⟩ := exists_stem base.toList
  obtain ⟨before, -, echild⟩ := exists_leaf child.toList
  have last := getLast_stem base.toList
  have head := head_leaf child.toList
  intro h
  rcases List.infix_append_iff.mp h with within | within | ⟨front, back, e, hfront, hback⟩
  · exact hbase (within.trans ⟨[], after, by rw [List.nil_append, ← ebase]⟩)
  · rcases List.infix_cons_iff.mp within with ⟨rest, e⟩ | within
    · cases e
    · exact hchild (within.trans ⟨before, [], by rw [List.append_nil, ← echild]⟩)
  · -- the colon stands in the base, so one of the two slashes would stand next to the seam
    obtain ⟨start, hfront⟩ := hfront
    obtain ⟨rest, hback⟩ := hback
    rw [← hfront] at last
    rw [show "://".toList = [':', '/', '/'] from rfl] at e
    rcases front with _ | ⟨_, _ | ⟨_, _ | ⟨_, front⟩⟩⟩ <;> simp at e
    · subst e
      cases hback
    · obtain ⟨rfl, rfl⟩ := e
      obtain ⟨-, hback⟩ := List.cons.inj hback
      rw [← hback] at head
      exact head rfl
    · obtain ⟨rfl, rfl, rfl⟩ := e
      exact last (by simp)
    · obtain ⟨rfl, rfl, rfl, rfl, rfl⟩ := e
      exact last (by simp)

end Uri

namespace LocalFilesystem

variable {uri uri' base source source' target target' : String}

theorem startsWith_scheme (uri : String) : Uri.startsWith (scheme ++ uri) scheme = true := by
  rw [Uri.startsWith_iff, String.toList_append]
  exact List.prefix_append _ _

theorem path_scheme (uri : String) : path (scheme ++ uri) = uri := by
  rw [path, Uri.withoutStart, if_pos (startsWith_scheme uri), String.toList_append, List.drop_left,
    String.ofList_toList]

theorem path_eq_self (bare : Uri.hasScheme uri = false) : path uri = uri := by
  rw [path, Uri.withoutStart, if_neg]
  intro h
  obtain ⟨rest, e⟩ := Uri.startsWith_iff.mp h
  rw [← Bool.not_eq_true, Uri.hasScheme_iff, ← e] at bare
  exact bare ⟨"file".toList, rest, rfl⟩

theorem path_scheme_eq (bare : Uri.hasScheme uri = false) : path (scheme ++ uri) = path uri := by
  rw [path_scheme, path_eq_self bare]

/-! All that the filesystem does with a uri it does with the path. -/

theorem isDirectory_congr (h : path uri = path uri') :
    localFilesystem.isDirectory uri = localFilesystem.isDirectory uri' := by
  simp only [localFilesystem]
  delta LocalFilesystem.isDirectory
  simp only [h]

theorem present_congr (h : path uri = path uri') :
    localFilesystem.present uri = localFilesystem.present uri' := by
  simp only [localFilesystem]
  delta LocalFilesystem.present
  simp only [h]

theorem makeDirectories_congr (h : path uri = path uri') :
    localFilesystem.makeDirectories uri = localFilesystem.makeDirectories uri' := by
  simp only [localFilesystem]
  delta LocalFilesystem.makeDirectories
  simp only [h]

theorem copyFile_congr (hs : path source = path source') (ht : path target = path target') :
    localFilesystem.copyFile source target = localFilesystem.copyFile source' target' := by
  simp only [localFilesystem]
  delta LocalFilesystem.copyFile
  simp only [hs, ht]

theorem copyDirectory_congr (hs : path source = path source') (ht : path target = path target') :
    localFilesystem.copyDirectory source target = localFilesystem.copyDirectory source' target' := by
  simp only [localFilesystem]
  delta LocalFilesystem.copyDirectory
  simp only [hs, ht]

/-- Below a base that names a place, the scheme stays in front. -/
theorem join_scheme (h : Path.named base ≠ []) (child : String) :
    Uri.join (scheme ++ base) child = scheme ++ Uri.join base child := by
  have hstem : Uri.stem base.toList ≠ [] := fun e => h (by rw [← Uri.named_of_stem e, String.ofList_toList])
  rw [← String.toList_inj, Uri.toList_join, String.toList_append, String.toList_append, Uri.stem_append hstem,
    Uri.toList_join, List.append_assoc]

end LocalFilesystem

namespace Storage
open LocalFilesystem

variable {α : Type} {uri source target : String}

theorem resolve_ofFilesystem (h : Takes uri) :
    ∃ route, (ofFilesystem localFilesystem).resolve uri = .ok route ∧ route.filesystem = localFilesystem
      ∧ route.owner = 0 := by
  rcases isLocal_ofFilesystem.resolve uri with ⟨route, e, hfs⟩ | ⟨-, foreign⟩
  · have hm := List.mem_of_find?_eq_some (resolve_eq_ok_iff.mp e)
    rw [ofFilesystem_local] at hm
    simp only [List.mem_cons, List.not_mem_nil, or_false] at hm
    rcases hm with rfl | rfl <;> exact ⟨_, e, rfl, rfl⟩
  · exact absurd h foreign

theorem routed_ofFilesystem (h : Takes uri) (op : Filesystem Disk → StorageEffect Disk α) :
    (ofFilesystem localFilesystem).routed uri op = op localFilesystem := by
  obtain ⟨route, e, hfs, -⟩ := resolve_ofFilesystem h
  rw [routed, e]
  dsimp only
  rw [hfs]

theorem between_ofFilesystem (hs : Takes source) (ht : Takes target) (op : Filesystem Disk → StorageEffect Disk α) :
    (ofFilesystem localFilesystem).between source target op = op localFilesystem := by
  obtain ⟨from', e, hfs, owner⟩ := resolve_ofFilesystem hs
  obtain ⟨to', e', -, owner'⟩ := resolve_ofFilesystem ht
  rw [between, shared, e, e']
  dsimp only
  rw [if_pos (owner.trans owner'.symm), hfs]

theorem takes_scheme (uri : String) : Takes (scheme ++ uri) :=
  Or.inr (startsWith_scheme uri)

theorem routed_scheme (bare : Uri.hasScheme uri = false) (op : Filesystem Disk → String → StorageEffect Disk α)
    (same : op localFilesystem (scheme ++ uri) = op localFilesystem uri) :
    (ofFilesystem localFilesystem).routed (scheme ++ uri) (fun fs => op fs (scheme ++ uri))
      = (ofFilesystem localFilesystem).routed uri (fun fs => op fs uri) := by
  rw [routed_ofFilesystem (takes_scheme uri), routed_ofFilesystem (Or.inl bare), same]

theorem between_scheme (hs : Uri.hasScheme source = false) (ht : Uri.hasScheme target = false)
    (op : Filesystem Disk → String → String → StorageEffect Disk α)
    (same : op localFilesystem (scheme ++ source) (scheme ++ target) = op localFilesystem source target) :
    (ofFilesystem localFilesystem).between (scheme ++ source) (scheme ++ target)
        (fun fs => op fs (scheme ++ source) (scheme ++ target))
      = (ofFilesystem localFilesystem).between source target (fun fs => op fs source target) := by
  rw [between_ofFilesystem (takes_scheme source) (takes_scheme target),
    between_ofFilesystem (Or.inl hs) (Or.inl ht), same]

theorem isDirectory_scheme (bare : Uri.hasScheme uri = false) :
    (ofFilesystem localFilesystem).isDirectory (scheme ++ uri) = (ofFilesystem localFilesystem).isDirectory uri :=
  routed_scheme bare Filesystem.isDirectory (LocalFilesystem.isDirectory_congr (path_scheme_eq bare))

theorem present_scheme (bare : Uri.hasScheme uri = false) :
    (ofFilesystem localFilesystem).present (scheme ++ uri) = (ofFilesystem localFilesystem).present uri :=
  routed_scheme bare Filesystem.present (LocalFilesystem.present_congr (path_scheme_eq bare))

theorem makeDirectories_scheme (bare : Uri.hasScheme uri = false) :
    (ofFilesystem localFilesystem).makeDirectories (scheme ++ uri)
      = (ofFilesystem localFilesystem).makeDirectories uri :=
  routed_scheme bare Filesystem.makeDirectories (LocalFilesystem.makeDirectories_congr (path_scheme_eq bare))

theorem copyFile_scheme (hs : Uri.hasScheme source = false) (ht : Uri.hasScheme target = false) :
    (ofFilesystem localFilesystem).copyFile (scheme ++ source) (scheme ++ target)
      = (ofFilesystem localFilesystem).copyFile source target :=
  between_scheme hs ht Filesystem.copyFile (LocalFilesystem.copyFile_congr (path_scheme_eq hs) (path_scheme_eq ht))

theorem copyDirectory_scheme (hs : Uri.hasScheme source = false) (ht : Uri.hasScheme target = false) :
    (ofFilesystem localFilesystem).copyDirectory (scheme ++ source) (scheme ++ target)
      = (ofFilesystem localFilesystem).copyDirectory source target :=
  between_scheme hs ht Filesystem.copyDirectory
    (LocalFilesystem.copyDirectory_congr (path_scheme_eq hs) (path_scheme_eq ht))

end Storage

namespace StagingPolicy

/-- The texts of a policy. -/
def texts : StagingPolicy → List String
  | versionedDirectory version => [version]
  | singleFile source target => [source, target]
  | passthrough => []

/-- The uris behind which staging puts a name. -/
def bases (uri root : String) : StagingPolicy → List String
  | versionedDirectory _ => [root]
  | singleFile _ _ => [uri, root]
  | passthrough => []

end StagingPolicy

namespace Locator
open LocalFilesystem

/-- One answer is the other one, but for a scheme in front of a uri that it names. -/
inductive AlikeButScheme : Except StorageError Layout → Except StorageError Layout → Prop
  | staged (uri : String) (kind : PredictorKind) : AlikeButScheme (.ok ⟨scheme ++ uri, kind⟩) (.ok ⟨uri, kind⟩)
  | missing (uri : String) : AlikeButScheme (.error (.notFound (scheme ++ uri))) (.error (.notFound uri))
  | failed (error : StorageError) : AlikeButScheme (.error error) (.error error)

variable {uri root version source target : String} {d : Disk}

theorem alikeButScheme_map {answer answer' : Except StorageError Unit} (root : String) (kind : PredictorKind)
    (h : answer = answer'
      ∨ ∃ uri, answer = .error (.notFound (scheme ++ uri)) ∧ answer' = .error (.notFound uri)) :
    AlikeButScheme (answer.map fun _ => ⟨scheme ++ root, kind⟩) (answer'.map fun _ => ⟨root, kind⟩) := by
  rcases h with rfl | ⟨uri, rfl, rfl⟩
  · cases answer with
    | ok => exact .staged root kind
    | error error => exact .failed error
  · exact .missing uri

theorem stageDirectory_scheme (huri : Uri.hasScheme uri = false) (hroot : Uri.hasScheme root = false)
    (hversion : Uri.hasScheme version = false) (named : Path.named root ≠ []) :
    let there := stageDirectory (.ofFilesystem localFilesystem) (scheme ++ uri) version (scheme ++ root) d
    let here := stageDirectory (.ofFilesystem localFilesystem) uri version root d
    there.2 = here.2 ∧ (there.1 = here.1
      ∨ ∃ uri, there.1 = .error (.notFound (scheme ++ uri)) ∧ here.1 = .error (.notFound uri)) := by
  have slot := Uri.hasScheme_join hroot hversion
  simp only [stageDirectory, join_scheme named, Storage.isDirectory_scheme huri, Storage.makeDirectories_scheme slot,
    Storage.copyDirectory_scheme huri slot]
  split
  · exact ⟨rfl, Or.inl rfl⟩
  · exact ⟨rfl, Or.inr ⟨uri, rfl, rfl⟩⟩
  · exact ⟨rfl, Or.inl rfl⟩

theorem stageFile_scheme (huri : Uri.hasScheme uri = false) (hroot : Uri.hasScheme root = false)
    (hsource : Uri.hasScheme source = false) (htarget : Uri.hasScheme target = false)
    (named : Path.named uri ≠ []) (named' : Path.named root ≠ []) :
    let there := stageFile (.ofFilesystem localFilesystem) (scheme ++ uri) source target (scheme ++ root) d
    let here := stageFile (.ofFilesystem localFilesystem) uri source target root d
    there.2 = here.2 ∧ (there.1 = here.1
      ∨ ∃ uri, there.1 = .error (.notFound (scheme ++ uri)) ∧ here.1 = .error (.notFound uri)) := by
  have from' := Uri.hasScheme_join huri hsource
  have to' := Uri.hasScheme_join hroot htarget
  simp only [stageFile, join_scheme named, join_scheme named', Storage.present_scheme from',
    Storage.makeDirectories_scheme hroot, Storage.copyFile_scheme from' to']
  split
  · exact ⟨rfl, Or.inl rfl⟩
  · exact ⟨rfl, Or.inr ⟨_, rfl, rfl⟩⟩
  · exact ⟨rfl, Or.inl rfl⟩

/-- On the local disk a scheme in front of both paths makes no difference to what is done, and none to the answer but
for the scheme itself, as long as every base that gets a name put behind it names a place. -/
theorem scheme_makes_no_difference (policies : PolicyTable) (uri root : String) (kind : PredictorKind) (d : Disk)
    (huri : Uri.hasScheme uri = false) (hroot : Uri.hasScheme root = false)
    (htexts : ∀ text ∈ (policies.policy kind).texts, Uri.hasScheme text = false)
    (named : ∀ base ∈ (policies.policy kind).bases uri root, Path.named base ≠ []) :
    let l : Locator Disk := ⟨.ofFilesystem localFilesystem, policies⟩
    (l.locate (scheme ++ uri) kind (scheme ++ root) d).2 = (l.locate uri kind root d).2
      ∧ AlikeButScheme (l.locate (scheme ++ uri) kind (scheme ++ root) d).1 (l.locate uri kind root d).1 := by
  dsimp only [locate]
  cases hp : policies.policy kind with
  | versionedDirectory version =>
    rw [hp] at htexts named
    obtain ⟨same, alike⟩ := stageDirectory_scheme (d := d) huri hroot (htexts version (by simp [StagingPolicy.texts]))
      (named root (by simp [StagingPolicy.bases]))
    exact ⟨same, alikeButScheme_map root kind alike⟩
  | singleFile source target =>
    rw [hp] at htexts named
    obtain ⟨same, alike⟩ := stageFile_scheme (d := d) huri hroot (htexts source (by simp [StagingPolicy.texts]))
      (htexts target (by simp [StagingPolicy.texts])) (named uri (by simp [StagingPolicy.bases]))
      (named root (by simp [StagingPolicy.bases]))
    exact ⟨same, alikeButScheme_map root kind alike⟩
  | passthrough => exact ⟨rfl, .staged uri kind⟩

/-- One artifact, staged by either spelling. -/
theorem scheme_makes_no_difference_shelf :
    ((copying "model" "model.bin").locate "/art" (.ofText "custom") "/served" .shelf).1
        = .ok ⟨"/served", .ofText "custom"⟩
      ∧ ((copying "model" "model.bin").locate (scheme ++ "/art") (.ofText "custom") (scheme ++ "/served") .shelf).2
        = ((copying "model" "model.bin").locate "/art" (.ofText "custom") "/served" .shelf).2
      ∧ AlikeButScheme
        ((copying "model" "model.bin").locate (scheme ++ "/art") (.ofText "custom") (scheme ++ "/served") .shelf).1
        ((copying "model" "model.bin").locate "/art" (.ofText "custom") "/served" .shelf).1 := by
  have hp : (copying "model" "model.bin").policies.policy (.ofText "custom") = .singleFile "model" "model.bin" := rfl
  refine ⟨?_, scheme_makes_no_difference (copying "model" "model.bin").policies "/art" "/served" (.ofText "custom")
    .shelf (by decide) (by decide) (by rw [hp]; decide) (by rw [hp]; decide)⟩
  rw [copying, Storage.ofFilesystem_local]
  rfl

end Locator

/-- A disk with a directory that has the name of the scheme, its slashes dropped. -/
def Disk.namesake : Disk where
  entries := [(["home"], .directory), (["home", "file:"], .directory), (["home", "file:", "model"], .file [119])]
  home := ["home"]
  limits := ⟨some 255, some 4096⟩

/-- After the scheme the root is no root: joining takes the slashes of the scheme for its own, and what is left leads
to a directory below home. -/
theorem Locator.scheme_lost_on_root :
    (ofStorage (.ofFilesystem localFilesystem)).locate "file:///" .sklearn "file:///" .namesake
        = (.ok ⟨"file:///", .sklearn⟩, Disk.namesake.put ["home", "file:", "model.joblib"] (.file [119]))
      ∧ (ofStorage (.ofFilesystem localFilesystem)).locate "/" .sklearn "/" .namesake
        = (.error (.notFound "/model"), .namesake) := by
  rw [Storage.ofFilesystem_local]
  exact ⟨by decide +kernel, by decide +kernel⟩

end ServingLifecycle
