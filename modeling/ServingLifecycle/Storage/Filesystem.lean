import ServingLifecycle.Storage.Error
/-!
# Filesystems

The few operations that staging needs of a filesystem, over a state `σ` that they read and change.
Whatever an operation did before it failed stays done.
-/
namespace ServingLifecycle

/-- What a storage operation does to the state, and its answer. -/
abbrev StorageEffect (σ α : Type) : Type :=
  σ → Except StorageError α × σ

structure Filesystem (σ : Type) where
  name : String
  /-- the starts of the uris that this filesystem takes; the empty one stands for bare paths -/
  schemes : List String
  present : String → StorageEffect σ Bool
  isDirectory : String → StorageEffect σ Bool
  /-- makes a directory and the directories above it -/
  makeDirectories : String → StorageEffect σ Unit
  /-- copies one file over whatever file was there -/
  copyFile : String → String → StorageEffect σ Unit
  /-- copies the content of a directory into another one, which is made if needed -/
  copyDirectory : String → String → StorageEffect σ Unit

namespace StorageEffect

/-- An effect on one part of a larger state. -/
def within {σ τ α : Type} (get : τ → σ) (set : τ → σ → τ) (e : StorageEffect σ α) :
    StorageEffect τ α :=
  fun t => let (answer, s) := e (get t); (answer, set t s)

/-- An effect that fails at once. -/
def fail {σ α : Type} (error : StorageError) : StorageEffect σ α :=
  fun s => (.error error, s)

end StorageEffect

/-- A filesystem that lives in one part of a larger state. -/
def Filesystem.within {σ τ : Type} (get : τ → σ) (set : τ → σ → τ) (fs : Filesystem σ) :
    Filesystem τ where
  name := fs.name
  schemes := fs.schemes
  present uri := StorageEffect.within get set (fs.present uri)
  isDirectory uri := StorageEffect.within get set (fs.isDirectory uri)
  makeDirectories uri := StorageEffect.within get set (fs.makeDirectories uri)
  copyFile source target := StorageEffect.within get set (fs.copyFile source target)
  copyDirectory source target := StorageEffect.within get set (fs.copyDirectory source target)

end ServingLifecycle
