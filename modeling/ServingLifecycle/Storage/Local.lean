import ServingLifecycle.Disk.TreeCopy
import ServingLifecycle.Storage
/-!
# The local filesystem

Paths on the disk of the machine, bare or after `file://`. Errors name the path without the scheme; an
error met while copying names the source, also when the target is at fault.
-/
namespace ServingLifecycle

namespace LocalFilesystem

def scheme : String := "file://"

def path (uri : String) : String :=
  Uri.withoutStart uri scheme

/-- Turns the fault of an operation at a path into an error. -/
def labelled {α : Type} (path : String) (answer : Except SystemFault α) : Except StorageError α :=
  answer.mapError (StorageError.ofFault path)

/-- What a path leads to, if it leads anywhere. -/
def metadata (d : Disk) (path : String) : Except StorageError (Option Node) :=
  match d.look path with
  | .ok node => .ok (some node)
  | .error fault => if fault.isNotFound then .ok none else .error (.ofFault path fault)

def present (uri : String) : StorageEffect Disk Bool :=
  fun d => ((metadata d (path uri)).map Option.isSome, d)

def isDirectory (uri : String) : StorageEffect Disk Bool :=
  fun d => ((metadata d (path uri)).map (· == some .directory), d)

def makeDirectories (uri : String) : StorageEffect Disk Unit :=
  fun d =>
    let (answer, d) := d.makeDirectories (path uri)
    (labelled (path uri) answer, d)

def copyFile (source target : String) : StorageEffect Disk Unit :=
  fun d =>
    match d.copyFile (path source) (path target) with
    | .ok d => (.ok (), d)
    | .error fault => (.error (.ofFault (path source) fault), d)

def copyDirectory (source target : String) : StorageEffect Disk Unit :=
  fun d => d.copyTree (path source) (path target)

end LocalFilesystem

/-- The filesystem of the machine's own disk. -/
def localFilesystem : Filesystem Disk where
  name := "LocalFilesystem"
  schemes := [LocalFilesystem.scheme, ""]
  present := LocalFilesystem.present
  isDirectory := LocalFilesystem.isDirectory
  makeDirectories := LocalFilesystem.makeDirectories
  copyFile := LocalFilesystem.copyFile
  copyDirectory := LocalFilesystem.copyDirectory

/-- A filesystem to register at the start. There is one kind: the local one. -/
structure FilesystemConfig where
  priority : Int
deriving DecidableEq, Repr

namespace Storage

variable {σ : Type}

/-- Storage with one filesystem alone, the local one for instance. -/
def ofFilesystem (fs : Filesystem σ) : Storage σ :=
  empty.register fs defaultPriority

/-- Storage with the configured filesystems, given what the local filesystem is. -/
def ofConfig (disk : Filesystem σ) (configs : List FilesystemConfig) : Storage σ :=
  ofList (configs.map fun c => (disk, c.priority))

end Storage
end ServingLifecycle
