import ServingLifecycle.DeployError
import ServingLifecycle.Proofs.Disk.Dangling
import ServingLifecycle.Proofs.Staging.Extent
/-!
# Missing sources

Staging looks for its source before it writes anything. When the source is not there nothing changes, and the error
is that it was not found, unless something else was in the way of looking. Conversely that error says of a path that
nothing is there, as long as staging meets no dangling link and no directory is missing where a file is to go.
-/
namespace ServingLifecycle

namespace StagingPolicy

/-- The uri of what a policy expects of an artifact. -/
def expected (uri : String) : StagingPolicy → Option String
  | versionedDirectory _ => some uri
  | singleFile source _ => some (Uri.join uri source)
  | passthrough => none

/-- What the policy expects is there: a directory to copy, or anything under the name of a single file. -/
def Finds (d : Disk) (uri : String) : StagingPolicy → Prop
  | versionedDirectory _ => d.hasDirectory (LocalFilesystem.path uri) = true
  | singleFile source _ => ∃ node, d.look (LocalFilesystem.path (Uri.join uri source)) = .ok node
  | passthrough => True

/-- The directory that is made does not end in a dot, and a single file goes right into the served root or into a
directory that is there already. -/
def Plain (d : Disk) (root : String) : StagingPolicy → Prop
  | versionedDirectory version =>
    (Path.named (LocalFilesystem.path (Uri.join root version))).getLast? ≠ some "."
  | singleFile _ target =>
    (Path.named (LocalFilesystem.path root)).getLast? ≠ some "."
      ∧ ('/' ∉ Uri.leaf target.toList
          ∧ (Uri.startsWith root LocalFilesystem.scheme = true → Path.named (LocalFilesystem.path root) ≠ [])
        ∨ ∃ q name, d.PointsInto (LocalFilesystem.path (Uri.join root target)) q name)
  | passthrough => True

end StagingPolicy

variable {d : Disk} {uri root version source target : String} {kind : PredictorKind} {error : StorageError}

/-- The error when it cannot be told whether anything is there. -/
def Obstructed (d : Disk) (uri : String) (error : StorageError) : Prop :=
  (∃ fault ∈ Disk.obstacles, d.look (LocalFilesystem.path uri) = .error fault
      ∧ error = .io (LocalFilesystem.path uri) fault)
    ∨ ¬LocalFilesystem.Takes uri ∧ error = .unsupportedScheme uri

theorem Obstructed.ne_notFound (h : Obstructed d uri error) (path : String) : error ≠ .notFound path := by
  rcases h with ⟨_, -, -, rfl⟩ | ⟨-, rfl⟩ <;> nofun

namespace LocalFilesystem

theorem labelled_eq_ok {α : Type} {path : String} {answer : Except SystemFault α} {result : α}
    (h : labelled path answer = .ok result) : answer = .ok result := by
  cases answer with
  | ok _ =>
    cases h
    rfl
  | error _ => cases h

theorem labelled_eq_notFound {α : Type} {path label : String} {answer : Except SystemFault α}
    (h : labelled label answer = .error (.notFound path)) :
    ∃ fault, answer = .error fault ∧ fault.isNotFound = true := by
  cases answer with
  | ok _ => cases h
  | error fault => exact ⟨fault, rfl, (StorageError.ofFault_eq_notFound_iff.mp (Except.error.inj h)).1⟩

theorem metadata_eq (d : Disk) (path : String) :
    (∃ node, d.look path = .ok node ∧ metadata d path = .ok (some node))
      ∨ d.look path = .error .noEntry ∧ metadata d path = .ok none
      ∨ ∃ fault ∈ Disk.obstacles, d.look path = .error fault ∧ metadata d path = .error (.io path fault) := by
  unfold metadata
  cases hl : d.look path with
  | ok node => exact Or.inl ⟨node, rfl, rfl⟩
  | error fault =>
    rcases Disk.look_eq_error hl with rfl | obstacle
    · exact Or.inr (Or.inl ⟨rfl, rfl⟩)
    · refine Or.inr (Or.inr ⟨fault, obstacle, rfl, ?_⟩)
      simp only [Disk.obstacles, List.mem_cons, List.not_mem_nil, or_false] at obstacle
      rcases obstacle with rfl | rfl | rfl | rfl <;> rfl

theorem isDirectory_eq (d : Disk) (uri : String) :
    isDirectory uri d = (.ok (d.hasDirectory (path uri)), d)
      ∨ ∃ error, isDirectory uri d = (.error error, d) ∧ Obstructed d uri error := by
  unfold isDirectory
  rcases metadata_eq d (path uri) with ⟨node, hl, e⟩ | ⟨hl, e⟩ | ⟨fault, obstacle, hl, e⟩ <;> rw [e]
  · left
    unfold Disk.hasDirectory
    rw [hl]
    cases node <;> rfl
  · left
    unfold Disk.hasDirectory
    rw [hl]
    rfl
  · exact Or.inr ⟨_, rfl, Or.inl ⟨fault, obstacle, hl, rfl⟩⟩

theorem present_eq (d : Disk) (uri : String) :
    (∃ node, d.look (path uri) = .ok node ∧ present uri d = (.ok true, d))
      ∨ d.look (path uri) = .error .noEntry ∧ present uri d = (.ok false, d)
      ∨ ∃ error, present uri d = (.error error, d) ∧ Obstructed d uri error := by
  unfold present
  rcases metadata_eq d (path uri) with ⟨node, hl, e⟩ | ⟨hl, e⟩ | ⟨fault, obstacle, hl, e⟩ <;> rw [e]
  · exact Or.inl ⟨node, hl, rfl⟩
  · exact Or.inr (Or.inl ⟨hl, rfl⟩)
  · exact Or.inr (Or.inr ⟨_, rfl, Or.inl ⟨fault, obstacle, hl, rfl⟩⟩)

end LocalFilesystem

namespace Storage.IsLocal

variable {s : Storage Disk}

theorem isDirectory_eq (h : s.IsLocal) (d : Disk) (uri : String) :
    s.isDirectory uri d = (.ok (d.hasDirectory (LocalFilesystem.path uri)), d)
      ∨ ∃ error, s.isDirectory uri d = (.error error, d) ∧ Obstructed d uri error := by
  rcases h.routed uri (·.isDirectory uri) d with e | ⟨e, foreign⟩ <;> rw [isDirectory, e]
  · exact LocalFilesystem.isDirectory_eq d uri
  · exact Or.inr ⟨_, rfl, Or.inr ⟨foreign, rfl⟩⟩

theorem present_eq (h : s.IsLocal) (d : Disk) (uri : String) :
    (∃ node, d.look (LocalFilesystem.path uri) = .ok node ∧ s.present uri d = (.ok true, d))
      ∨ d.look (LocalFilesystem.path uri) = .error .noEntry ∧ s.present uri d = (.ok false, d)
      ∨ ∃ error, s.present uri d = (.error error, d) ∧ Obstructed d uri error := by
  rcases h.routed uri (·.present uri) d with e | ⟨e, foreign⟩ <;> rw [present, e]
  · exact LocalFilesystem.present_eq d uri
  · exact Or.inr (Or.inr ⟨_, rfl, Or.inr ⟨foreign, rfl⟩⟩)

/-- Making a directory misses nothing, and afterwards the directory is there. -/
theorem makeDirectories_notFound (h : s.IsLocal) (tree : d.IsTree)
    (last : (Path.named (LocalFilesystem.path uri)).getLast? ≠ some ".") :
    (∀ path, (s.makeDirectories uri d).1 ≠ .error (.notFound path))
      ∧ ((s.makeDirectories uri d).1 = .ok () → ∃ q, (s.makeDirectories uri d).2.Reaches
          (d.start (LocalFilesystem.path uri)) (Path.named (LocalFilesystem.path uri)) q) := by
  rcases h.routed uri (·.makeDirectories uri) d with e | ⟨e, -⟩ <;> rw [makeDirectories, e]
  · have attempt := Disk.makeDirectories_attempt tree (LocalFilesystem.path uri)
    refine ⟨fun path failed => ?_, fun done => attempt.made (LocalFilesystem.labelled_eq_ok done)⟩
    obtain ⟨fault, hfault, missing⟩ := LocalFilesystem.labelled_eq_notFound failed
    exact last (attempt.lost fault hfault missing)
  · simp

theorem copyDirectory_stuck (h : s.IsLocal) (tree : d.IsTree) {path : String}
    (there : d.hasDirectory (LocalFilesystem.path source) = true)
    (last : (Path.named (LocalFilesystem.path target)).getLast? ≠ some ".")
    (failed : (s.copyDirectory source target d).1 = .error (.notFound path)) :
    TreeCopy.Stuck (LocalFilesystem.path source) (LocalFilesystem.path target) path
      (s.copyDirectory source target d).2 := by
  unfold copyDirectory at failed ⊢
  rcases h.between source target (·.copyDirectory source target) d with e | ⟨_, e⟩ <;> rw [e] at failed ⊢
  · exact Disk.copyTree_stuck tree there last failed
  · cases failed

theorem copyFile_notFound (h : s.IsLocal) {path : String}
    (failed : (s.copyFile source target d).1 = .error (.notFound path)) :
    (s.copyFile source target d).2 = d ∧ ∃ fault, fault.isNotFound = true
      ∧ d.copyFile (LocalFilesystem.path source) (LocalFilesystem.path target) = .error fault := by
  unfold copyFile at failed ⊢
  rcases h.between source target (·.copyFile source target) d with e | ⟨_, e⟩ <;> rw [e] at failed ⊢
  · change (LocalFilesystem.copyFile source target d).1 = _ at failed
    change (LocalFilesystem.copyFile source target d).2 = d ∧ _
    unfold LocalFilesystem.copyFile at failed ⊢
    split at failed
    · cases failed
    · rename_i fault hcopy
      obtain ⟨missing, -⟩ := StorageError.ofFault_eq_notFound_iff.mp (Except.error.inj failed)
      rw [hcopy]
      exact ⟨rfl, fault, missing, rfl⟩
  · cases failed

end Storage.IsLocal

namespace Locator

variable {l : Locator Disk} {storage : Storage Disk}

/-- Without its source staging fails and leaves the disk as it is, whatever the policy. -/
theorem missing_source_stages_nothing (l : Locator Disk) (uri : String) (kind : PredictorKind) (root : String)
    (d : Disk) (h : l.storage.IsLocal)
    (expected : (l.policies.policy kind).expected uri = some source)
    (missing : ¬(l.policies.policy kind).Finds d uri) :
    ∃ error, l.locate uri kind root d = (.error error, d)
      ∧ (error = .notFound source ∧ DeployFailure.ofStorage error = .artifactMissing source
        ∨ Obstructed d source error) := by
  unfold locate
  generalize l.policies.policy kind = policy at expected missing ⊢
  cases policy with
  | versionedDirectory version =>
    cases expected
    dsimp only
    unfold stageDirectory
    rcases h.isDirectory_eq d source with e | ⟨error, e, obstructed⟩ <;> rw [e]
    · rw [Bool.not_eq_true _ |>.mp missing]
      exact ⟨_, rfl, Or.inl ⟨rfl, rfl⟩⟩
    · exact ⟨error, rfl, Or.inr obstructed⟩
  | singleFile file target =>
    cases expected
    dsimp only
    unfold stageFile
    rcases h.present_eq d (Uri.join uri file) with ⟨node, hl, -⟩ | ⟨-, e⟩ | ⟨error, e, obstructed⟩
    · exact absurd ⟨node, hl⟩ missing
    · simp only [e]
      exact ⟨_, rfl, Or.inl ⟨rfl, rfl⟩⟩
    · simp only [e]
      exact ⟨error, rfl, Or.inr obstructed⟩
  | passthrough => cases expected

/-- An artifact that is not there, reported as such. -/
theorem missing_source_stages_nothing_gone :
    (copying "model" "model.bin").locate "gone" (.ofText "custom") "served" .shelf
      = (.error (.notFound "gone/model"), .shelf) := by
  obtain ⟨error, e, ⟨rfl, -⟩ | ⟨fault, obstacle, hl, -⟩ | ⟨foreign, -⟩⟩ := missing_source_stages_nothing
    (copying "model" "model.bin") "gone" (.ofText "custom") "served" .shelf Storage.isLocal_ofFilesystem rfl
    (by rintro ⟨node, h⟩; cases h)
  · exact e
  · cases hl
    exact absurd obstacle (by decide)
  · exact absurd (by decide) foreign

/-- Below a file nothing is there either, but the error is another one. -/
theorem missing_below_file : (∀ node, Disk.shelf.look "art/model/model" ≠ .ok node)
    ∧ (copying "model" "model.bin").locate "art/model" (.ofText "custom") "served" .shelf
      = (.error (.io "art/model/model" .notDirectory), .shelf) := by
  rw [copying, Storage.ofFilesystem_local]
  refine ⟨fun node there => ?_, rfl⟩
  cases there

theorem stageDirectory_notFound (h : storage.IsLocal) (tree : d.IsTree) {path : String}
    (plain : (StagingPolicy.versionedDirectory version).Plain d root)
    (failed : (stageDirectory storage uri version root d).1 = .error (.notFound path)) :
    ((stageDirectory storage uri version root d).2 = d ∧ path = uri
        ∧ d.hasDirectory (LocalFilesystem.path uri) = false)
      ∨ TreeCopy.Stuck (LocalFilesystem.path uri) (LocalFilesystem.path (Uri.join root version)) path
        (stageDirectory storage uri version root d).2 := by
  have made : d.Builds _ (fun _ _ => False) (storage.makeDirectories (Uri.join root version) d).2 :=
    h.makeDirectories_builds tree
  obtain ⟨found, -⟩ := h.makeDirectories_notFound tree plain
  unfold stageDirectory at failed ⊢
  rcases h.isDirectory_eq d uri with e | ⟨error, e, obstructed⟩ <;> rw [e] at failed ⊢
  · cases there : d.hasDirectory (LocalFilesystem.path uri) with
    | false =>
      rw [there] at failed
      cases failed
      exact Or.inl ⟨rfl, rfl, rfl⟩
    | true =>
      rw [there] at failed
      right
      dsimp only at failed ⊢
      generalize storage.makeDirectories (Uri.join root version) d = result at made found failed ⊢
      obtain ⟨error | _, d₁⟩ := result
      · cases failed
        exact absurd rfl (found path)
      · exact h.copyDirectory_stuck made.tree (made.keeps.hasDirectory there) plain failed
  · cases failed
    exact absurd rfl (obstructed.ne_notFound path)

theorem stageFile_notFound (h : storage.IsLocal) (tree : d.IsTree) {path : String}
    (plain : (StagingPolicy.singleFile source target).Plain d root)
    (failed : (stageFile storage uri source target root d).1 = .error (.notFound path)) :
    ((stageFile storage uri source target root d).2 = d ∧ path = Uri.join uri source
        ∧ d.look (LocalFilesystem.path path) = .error .noEntry)
      ∨ (stageFile storage uri source target root d).2.Dangles (LocalFilesystem.path (Uri.join root target)) := by
  obtain ⟨hdot, place⟩ := plain
  have builds : d.Builds _ (fun _ _ => False) (storage.makeDirectories root d).2 := h.makeDirectories_builds tree
  obtain ⟨found, made⟩ := h.makeDirectories_notFound tree hdot
  unfold stageFile at failed ⊢
  dsimp only at failed ⊢
  rcases h.present_eq d (Uri.join uri source) with ⟨node, hl, e⟩ | ⟨hl, e⟩ | ⟨error, e, obstructed⟩ <;>
    rw [e] at failed ⊢
  · right
    dsimp only at failed ⊢
    generalize storage.makeDirectories root d = result at builds made found failed ⊢
    obtain ⟨error | _, d₁⟩ := result
    · cases failed
      exact absurd rfl (found path)
    · obtain ⟨same, fault, missing, hcopy⟩ := h.copyFile_notFound failed
      change (storage.copyFile (Uri.join uri source) (Uri.join root target) d₁).2.Dangles _
      rw [same]
      have hne : LocalFilesystem.path (Uri.join root target) ≠ "" := by
        rcases place with ⟨-, hscheme⟩ | ⟨q, name, points⟩
        · rw [LocalFilesystem.path_join hscheme]
          exact Uri.join_ne_empty _ _
        · exact points.ne_empty
      rcases Disk.lost_of_copyFile hne hcopy missing with lost | lost
      · obtain ⟨loc, hlocate, -⟩ := Disk.look_eq_ok_iff.mp hl
        rw [builds.keeps.locate hlocate] at lost
        cases lost
      · rcases place with ⟨hslash, hscheme⟩ | ⟨q, name, points⟩
        · rw [LocalFilesystem.path_join hscheme] at lost ⊢
          rcases Disk.pointsInto_join hslash (builds.keeps.start _ ▸ made rfl) with ⟨q, name, points⟩ | hnames
          · exact builds.tree.dangles_of_walked points lost missing
          · rw [Disk.walked, hnames, Disk.follow_arrived rfl] at lost
            cases lost
        · exact builds.tree.dangles_of_walked (points.keeps builds.keeps) lost missing
  · cases failed
    exact Or.inl ⟨rfl, rfl, hl⟩
  · cases failed
    exact absurd rfl (obstructed.ne_notFound path)

theorem error_of_map {answer : Except StorageError Unit} {f : Unit → Layout} (failed : answer.map f = .error error) :
    answer = .error error := by
  cases answer with
  | ok _ => cases failed
  | error _ =>
    cases failed
    rfl

/-- That something was not found is reported of a path where nothing is, or of an artifact that is no directory, and
before anything was written. -/
theorem notFound_means_missing (h : l.storage.IsLocal) (tree : d.IsTree) {path : String}
    (plain : (l.policies.policy kind).Plain d root)
    (links : ∀ from' to', (l.policies.policy kind).copies uri root from' to' →
      ¬(l.locate uri kind root d).2.Dangles from' ∧ ¬(l.locate uri kind root d).2.Dangles to')
    (failed : (l.locate uri kind root d).1 = .error (.notFound path)) :
    (l.locate uri kind root d).2 = d
      ∧ (d.look (LocalFilesystem.path path) = .error .noEntry
        ∨ (∃ version, l.policies.policy kind = .versionedDirectory version) ∧ path = uri
          ∧ d.hasDirectory (LocalFilesystem.path uri) = false) := by
  unfold locate at failed links ⊢
  generalize l.policies.policy kind = policy at plain links failed ⊢
  cases policy with
  | versionedDirectory version =>
    dsimp only at failed links ⊢
    rcases stageDirectory_notFound h tree plain (error_of_map failed) with
      ⟨same, rfl, none⟩ | ⟨to', beneath, dangles⟩
    · exact ⟨same, Or.inr ⟨⟨version, rfl⟩, rfl, none⟩⟩
    · obtain ⟨hfrom, hto⟩ := links path to' beneath
      exact absurd dangles (not_or.mpr ⟨hfrom, hto⟩)
  | singleFile source target =>
    dsimp only at failed links ⊢
    rcases stageFile_notFound h tree plain (error_of_map failed) with ⟨same, -, none⟩ | dangles
    · exact ⟨same, Or.inl none⟩
    · exact absurd dangles (links _ _ ⟨rfl, rfl⟩).2
  | passthrough => cases failed

/-- A file that is not there, reported before the served root is made. -/
theorem notFound_means_missing_gone :
    ((copying "model" "model.bin").locate "gone" (.ofText "custom") "served" .shelf).1 = .error (.notFound "gone/model")
      ∧ ((copying "model" "model.bin").locate "gone" (.ofText "custom") "served" .shelf).2 = .shelf := by
  have failed : ((copying "model" "model.bin").locate "gone" (.ofText "custom") "served" .shelf).1
      = .error (.notFound "gone/model") := by
    rw [copying, Storage.ofFilesystem_local]
    rfl
  refine ⟨failed, (notFound_means_missing Storage.isLocal_ofFilesystem Disk.isTree_shelf ?_ ?_ failed).1⟩
  · exact ⟨by decide, Or.inl ⟨by decide, by decide⟩⟩
  · intro from' to' _
    rw [copying, Storage.ofFilesystem_local]
    exact ⟨Disk.not_dangles (by decide) _, Disk.not_dangles (by decide) _⟩

/-- Where no directory is for the file to go to, its source is reported as not found, which is there, and the
served root has been made. -/
theorem notFound_of_missing_target :
    ((copying "model" "sub/model.bin").locate "art" (.ofText "custom") "served" .shelf).1
        = .error (.notFound "art/model")
      ∧ Disk.shelf.look "art/model" = .ok (.file [119]) ∧ Disk.shelf.get? ["served"] = none
      ∧ ((copying "model" "sub/model.bin").locate "art" (.ofText "custom") "served" .shelf).2.get? ["served"]
        = some .directory := by
  rw [copying, Storage.ofFilesystem_local]
  exact ⟨rfl, rfl, rfl, rfl⟩

end Locator
end ServingLifecycle
