import ServingLifecycle.Proofs.Disk.Copying
import ServingLifecycle.Proofs.Storage.Local
import ServingLifecycle.Staging.Locator
/-!
# The extent of staging

Where a staging policy makes directories and which files it copies where, by its paths alone. Staging builds in
these places and nowhere else, whether it succeeds or fails. So a file is as it was unless a file was copied to
where it lies.
-/
namespace ServingLifecycle

namespace StagingPolicy

/-- The paths of the directories that staging under a root may make. -/
def directories (root : String) : StagingPolicy → String → Prop
  | versionedDirectory version => Path.Serving (LocalFilesystem.path (Uri.join root version))
  | singleFile _ _ => Path.Leading (LocalFilesystem.path root)
  | passthrough => fun _ => False

/-- Which files staging may copy, and where. -/
def copies (uri root : String) : StagingPolicy → String → String → Prop
  | versionedDirectory version => Path.Beneath (LocalFilesystem.path uri) (LocalFilesystem.path (Uri.join root version))
  | singleFile source target => fun from' to' =>
    from' = LocalFilesystem.path (Uri.join uri source) ∧ to' = LocalFilesystem.path (Uri.join root target)
  | passthrough => fun _ _ => False

/-- The paths of what staging may make or write. -/
def Touches (uri root : String) (policy : StagingPolicy) (path : String) : Prop :=
  policy.directories root path ∨ ∃ from', policy.copies uri root from' path

end StagingPolicy

namespace LocalFilesystem

variable {d : Disk} {uri source target : String} {copies : String → String → Prop} {directories : String → Prop}

theorem makeDirectories_builds (h : d.IsTree) :
    d.Builds (Path.Leading (path uri)) copies (makeDirectories uri d).2 :=
  (Disk.makeDirectories_attempt h (path uri)).builds.mono (fun _ => id) nofun

theorem copyFile_builds (h : d.IsTree) : d.Builds directories
    (fun from' to' => from' = path source ∧ to' = path target) (copyFile source target d).2 := by
  unfold copyFile
  split
  · rename_i copied
    exact Disk.copyFile_builds h copied
  · exact .refl h

end LocalFilesystem

namespace Storage.IsLocal

variable {s : Storage Disk} {d : Disk} {uri source target : String} {copies : String → String → Prop}
  {directories : String → Prop}

/-- Looking at a uri leaves the disk alone. -/
theorem isDirectory_snd (h : s.IsLocal) (uri : String) (d : Disk) : (s.isDirectory uri d).2 = d := by
  rcases h.routed uri (·.isDirectory uri) d with e | ⟨e, -⟩ <;> rw [isDirectory, e]
  rfl

theorem present_snd (h : s.IsLocal) (uri : String) (d : Disk) : (s.present uri d).2 = d := by
  rcases h.routed uri (·.present uri) d with e | ⟨e, -⟩ <;> rw [present, e]
  rfl

theorem makeDirectories_builds (h : s.IsLocal) (tree : d.IsTree) :
    d.Builds (Path.Leading (LocalFilesystem.path uri)) copies (s.makeDirectories uri d).2 := by
  rcases h.routed uri (·.makeDirectories uri) d with e | ⟨e, -⟩ <;> rw [makeDirectories, e]
  · exact LocalFilesystem.makeDirectories_builds tree
  · exact .refl tree

theorem copyFile_builds (h : s.IsLocal) (tree : d.IsTree) :
    d.Builds directories (fun from' to' => from' = LocalFilesystem.path source ∧ to' = LocalFilesystem.path target)
      (s.copyFile source target d).2 := by
  rcases h.between source target (·.copyFile source target) d with e | ⟨_, e⟩ <;> rw [copyFile, e]
  · exact LocalFilesystem.copyFile_builds tree
  · exact .refl tree

theorem copyDirectory_builds (h : s.IsLocal) (tree : d.IsTree) :
    d.Builds (Path.Serving (LocalFilesystem.path target))
      (Path.Beneath (LocalFilesystem.path source) (LocalFilesystem.path target))
      (s.copyDirectory source target d).2 := by
  rcases h.between source target (·.copyDirectory source target) d with e | ⟨_, e⟩ <;> rw [copyDirectory, e]
  · exact Disk.copyTree_fills tree _ _
  · exact .refl tree

end Storage.IsLocal

namespace Locator

variable {l : Locator Disk} {storage : Storage Disk} {d : Disk} {uri version source target root : String}
  {kind : PredictorKind} {loc : Location} {content : Bytes}

theorem stageDirectory_builds (h : storage.IsLocal) (tree : d.IsTree) :
    d.Builds ((StagingPolicy.versionedDirectory version).directories root)
      ((StagingPolicy.versionedDirectory version).copies uri root) (stageDirectory storage uri version root d).2 := by
  have looked := h.isDirectory_snd uri d
  have made : d.Builds _ ((StagingPolicy.versionedDirectory version).copies uri root)
      (storage.makeDirectories (Uri.join root version) d).2 := h.makeDirectories_builds tree
  unfold stageDirectory
  generalize storage.isDirectory uri d = result at looked ⊢
  obtain ⟨_ | _ | _, d₁⟩ := result <;> obtain rfl : d = d₁ := looked.symm
  · exact .refl tree
  · exact .refl tree
  · dsimp only
    generalize storage.makeDirectories (Uri.join root version) d = result at made ⊢
    have made : d.Builds ((StagingPolicy.versionedDirectory version).directories root) _ result.2 :=
      made.mono (fun _ => Path.Leading.serving) fun _ _ => id
    obtain ⟨_ | _, d'⟩ := result
    · exact made
    · exact made.trans (h.copyDirectory_builds made.tree)

theorem stageFile_builds (h : storage.IsLocal) (tree : d.IsTree) :
    d.Builds ((StagingPolicy.singleFile source target).directories root)
      ((StagingPolicy.singleFile source target).copies uri root) (stageFile storage uri source target root d).2 := by
  have looked := h.present_snd (Uri.join uri source) d
  have made : d.Builds _ ((StagingPolicy.singleFile source target).copies uri root)
      (storage.makeDirectories root d).2 := h.makeDirectories_builds tree
  unfold stageFile
  dsimp only
  generalize storage.present (Uri.join uri source) d = result at looked ⊢
  obtain ⟨_ | _ | _, d₁⟩ := result <;> obtain rfl : d = d₁ := looked.symm
  · exact .refl tree
  · exact .refl tree
  · dsimp only
    generalize storage.makeDirectories root d = result at made ⊢
    obtain ⟨_ | _, d'⟩ := result
    · exact made
    · exact made.trans (h.copyFile_builds made.tree)

/-- Staging makes directories and copies files where its policy says, and does nothing else to the disk. -/
theorem locate_builds (h : l.storage.IsLocal) (tree : d.IsTree) (uri : String) (kind : PredictorKind) (root : String) :
    d.Builds ((l.policies.policy kind).directories root) ((l.policies.policy kind).copies uri root)
      (l.locate uri kind root d).2 := by
  unfold locate
  cases l.policies.policy kind with
  | versionedDirectory version => exact stageDirectory_builds h tree
  | singleFile source target => exact stageFile_builds h tree
  | passthrough => exact .refl tree

/-- Staging leaves every file where it lies and every path to it, whether it succeeds or fails. A file has other
content afterwards only if a file of the artifact was copied to the very place where it lies. -/
theorem locate_preserves_files (l : Locator Disk) (uri : String) (kind : PredictorKind) (root : String)
    (h : l.storage.IsLocal) (tree : d.IsTree) (there : d.get? loc = some (.file content)) :
    ∃ content', (l.locate uri kind root d).2.get? loc = some (.file content')
      ∧ (∀ path, d.locate path = .ok loc → (l.locate uri kind root d).2.locate path = .ok loc)
      ∧ (content' = content ∨ ∃ from' to', (l.policies.policy kind).copies uri root from' to'
          ∧ (l.locate uri kind root d).2.HasFile from' ∧ (l.locate uri kind root d).2.LeadsTo to' loc) := by
  have builds := locate_builds h tree uri kind root
  obtain ⟨content', there'⟩ := builds.keeps.file there
  refine ⟨content', there', fun path => builds.keeps.locate, ?_⟩
  by_cases same : content' = content
  · exact Or.inl same
  · have other : d.get? loc ≠ some (.file content') := by
      rintro e
      rw [there] at e
      cases e
      exact same rfl
    exact Or.inr (builds.file there' other)

end Locator

/-! ### On a disk with one artifact -/

/-- A disk that holds one artifact, a directory with a file. -/
def Disk.shelf : Disk where
  entries := [(["art"], .directory), (["art", "model"], .file [119])]
  home := []
  limits := ⟨some 255, some 4096⟩

theorem Disk.isTree_shelf : shelf.IsTree :=
  isTree_of_entries (by decide) (by decide) rfl

namespace Locator

/-- A locator on the local disk that copies one file of each artifact of a kind of its own. -/
def copying (source target : String) : Locator Disk :=
  (ofStorage (.ofFilesystem localFilesystem)).withPolicy (.ofText "custom") (.singleFile source target)

/-- Staged beside the artifact, the file of the artifact stays as it is. -/
theorem locate_preserves_files_beside : Disk.shelf.get? ["art", "model"] = some (.file [119])
    ∧ ((copying "model" "model.bin").locate "art" (.ofText "custom") "served" .shelf).2.get? ["art", "model"]
      = some (.file [119]) := by
  obtain ⟨content, there, -, rfl | ⟨_, _, ⟨-, rfl⟩, -, leads⟩⟩ := locate_preserves_files
    (copying "model" "model.bin") "art" (.ofText "custom") "served" Storage.isLocal_ofFilesystem Disk.isTree_shelf
    (show Disk.shelf.get? ["art", "model"] = some (.file [119]) from rfl)
  · exact ⟨rfl, there⟩
  · rw [copying, Storage.ofFilesystem_local] at leads
    have beside : ["art", "model"] = ["served", "model.bin"] := leads.unique rfl
    exact absurd beside (by decide)

/-- A file that is copied onto itself is emptied. -/
theorem copy_onto_itself_empties : Disk.shelf.read? "art/model" = some [119]
    ∧ ((copying "model" "model").locate "art" (.ofText "custom") "art" .shelf).2.read? "art/model" = some [] := by
  rw [copying, Storage.ofFilesystem_local]
  exact ⟨rfl, rfl⟩

end Locator
end ServingLifecycle
