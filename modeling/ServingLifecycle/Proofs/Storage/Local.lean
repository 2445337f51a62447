import ServingLifecycle.Proofs.Storage.Routing
import ServingLifecycle.Storage.Local
/-!
# Local storage

Storage is local if the local filesystem is all that is registered, be it once or several times. It takes bare paths
and those after `file://`; an operation on any other uri fails and does nothing.
-/
namespace ServingLifecycle

/-- A uri that is a path of the machine's own disk: bare or after `file://`. -/
def LocalFilesystem.Takes (uri : String) : Prop :=
  Uri.hasScheme uri = false ∨ Uri.startsWith uri LocalFilesystem.scheme = true

instance (uri : String) : Decidable (LocalFilesystem.Takes uri) :=
  inferInstanceAs (Decidable (_ ∨ _))

namespace Storage

structure IsLocal (s : Storage Disk) : Prop where
  only : ∀ route ∈ s.routes, route.filesystem = localFilesystem
  bare : ∃ route ∈ s.routes, route.scheme = ""
  file : ∃ route ∈ s.routes, route.scheme = LocalFilesystem.scheme

variable {s : Storage Disk} {source target uri : String} {d : Disk} {α : Type} {route : Route Disk}

/-- Registering the local filesystem makes storage local that had nothing else before. -/
theorem isLocal_register (h : ∀ route ∈ s.routes, route.filesystem = localFilesystem) (priority : Int) :
    (s.register localFilesystem priority).IsLocal where
  only route hr := by
    rcases mem_routes_register.mp hr with hr | ⟨scheme, -, rfl⟩
    · exact h route hr
    · rfl
  bare := ⟨_, mem_routes_register.mpr (Or.inr ⟨"", by simp [localFilesystem], rfl⟩), rfl⟩
  file := ⟨_, mem_routes_register.mpr (Or.inr ⟨LocalFilesystem.scheme, by simp [localFilesystem], rfl⟩), rfl⟩

theorem isLocal_ofFilesystem : (ofFilesystem localFilesystem).IsLocal :=
  isLocal_register (s := empty) (by simp [empty]) _

/-- The routes of the local filesystem alone, in the order in which they are tried. -/
theorem ofFilesystem_local : ofFilesystem localFilesystem =
    ⟨[⟨LocalFilesystem.scheme, defaultPriority, 0, localFilesystem⟩, ⟨"", defaultPriority, 0, localFilesystem⟩], 1⟩ := by
  have sorted : [Route.mk LocalFilesystem.scheme defaultPriority 0 localFilesystem,
      ⟨"", defaultPriority, 0, localFilesystem⟩].Pairwise fun a b => Route.before a b = true := by
    simp [Route.before]
  change Storage.mk (List.mergeSort _ _) _ = _
  congr 1
  exact List.mergeSort_of_pairwise sorted

theorem isLocal_ofConfig {configs : List FilesystemConfig} (h : configs ≠ []) :
    (ofConfig localFilesystem configs).IsLocal := by
  have more {s : Storage Disk} (hs : s.IsLocal) (configs : List FilesystemConfig) :
      ((configs.map fun c => (localFilesystem, c.priority)).foldl (fun s r => s.register r.1 r.2) s).IsLocal := by
    induction configs generalizing s with
    | nil => exact hs
    | cons c configs ih => exact ih (isLocal_register hs.only c.priority)
  cases configs with
  | nil => exact absurd rfl h
  | cons c configs => exact more (isLocal_register (s := empty) (by simp [empty]) c.priority) configs

namespace IsLocal

theorem resolve (h : s.IsLocal) (uri : String) :
    (∃ route, s.resolve uri = .ok route ∧ route.filesystem = localFilesystem)
    ∨ s.resolve uri = .error (.unsupportedScheme uri) ∧ ¬LocalFilesystem.Takes uri := by
  cases hr : s.resolve uri with
  | ok route =>
    exact Or.inl ⟨route, rfl, h.only route (List.mem_of_find?_eq_some (resolve_eq_ok_iff.mp hr))⟩
  | error error =>
    obtain ⟨none, rfl⟩ := resolve_eq_error_iff.mp hr
    refine Or.inr ⟨rfl, ?_⟩
    rintro (plain | file)
    · obtain ⟨route, hm, hs⟩ := h.bare
      have := none route hm
      simp [Route.takes, hs, plain, Uri.startsWith] at this
    · obtain ⟨route, hm, hs⟩ := h.file
      have := none route hm
      rw [Route.takes, hs, file] at this
      cases this

/-- An operation that takes a uri is one of the local filesystem, or does nothing. -/
theorem routed (h : s.IsLocal) (uri : String) (op : Filesystem Disk → StorageEffect Disk α) (d : Disk) :
    s.routed uri op d = op localFilesystem d
      ∨ s.routed uri op d = (.error (.unsupportedScheme uri), d) ∧ ¬LocalFilesystem.Takes uri := by
  unfold Storage.routed
  rcases h.resolve uri with ⟨route, e, hfs⟩ | ⟨e, foreign⟩
  · rw [e]
    dsimp only
    rw [hfs]
    exact Or.inl rfl
  · rw [e]
    exact Or.inr ⟨rfl, foreign⟩

/-- The same of an operation that takes two uris. -/
theorem between (h : s.IsLocal) (source target : String) (op : Filesystem Disk → StorageEffect Disk α) (d : Disk) :
    s.between source target op d = op localFilesystem d
      ∨ ∃ uri, s.between source target op d = (.error (.unsupportedScheme uri), d) := by
  unfold Storage.between shared
  rcases h.resolve source with ⟨from', e, hfs⟩ | ⟨e, -⟩
  · rcases h.resolve target with ⟨to', e', -⟩ | ⟨e', -⟩
    · rw [e, e']
      dsimp only
      split
      · dsimp only
        rw [hfs]
        exact Or.inl rfl
      · exact Or.inr ⟨target, rfl⟩
    · rw [e, e']
      exact Or.inr ⟨target, rfl⟩
  · rw [e]
    exact Or.inr ⟨source, rfl⟩

end IsLocal
end Storage
end ServingLifecycle
