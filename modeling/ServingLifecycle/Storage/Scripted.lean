import ServingLifecycle.Storage.Filesystem
/-!
# Scripted filesystems

A filesystem that does nothing but keep a record of what it was asked. It holds the uris that it was
given, and fails at the operations that it was told to fail at.
-/
namespace ServingLifecycle

inductive StorageMethod
  | present | isDirectory | makeDirectories | copyFile | copyDirectory
deriving DecidableEq, Repr

def StorageMethod.name : StorageMethod → String
  | present => "exists"
  | isDirectory => "is_dir"
  | makeDirectories => "makedirs"
  | copyFile => "copy_file"
  | copyDirectory => "copy_dir"

/-- One operation that a scripted filesystem was asked for. -/
structure StorageCall where
  filesystem : String
  method : StorageMethod
  uris : List String
deriving DecidableEq, Repr

structure Script where
  name : String
  schemes : List String
  files : List String
  directories : List String
  failures : List (StorageMethod × StorageError)

namespace Script

/-- Records a call, then fails as told or answers. -/
def answer {α : Type} (s : Script) (method : StorageMethod) (uris : List String) (a : α) :
    StorageEffect (List StorageCall) α :=
  fun calls =>
    let calls := calls ++ [⟨s.name, method, uris⟩]
    match s.failures.lookup method with
    | some error => (.error error, calls)
    | none => (.ok a, calls)

def filesystem (s : Script) : Filesystem (List StorageCall) where
  name := s.name
  schemes := s.schemes
  present uri := s.answer .present [uri] (s.files.contains uri || s.directories.contains uri)
  isDirectory uri := s.answer .isDirectory [uri] (s.directories.contains uri)
  makeDirectories uri := s.answer .makeDirectories [uri] ()
  copyFile source target := s.answer .copyFile [source, target] ()
  copyDirectory source target := s.answer .copyDirectory [source, target] ()

end Script
end ServingLifecycle
