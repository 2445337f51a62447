import ServingLifecycle.Disk.Change
import ServingLifecycle.Storage.Error
/-!
# Copying a directory tree

A copy keeps a stack of directories still to be copied. The one on top is taken, its target made and
its content listed; then its entries are dealt with one by one: a directory goes onto the stack, and
anything else is copied as a file. Nothing bounds the work when the target lies inside the source,
apart from the length that paths may have.
-/
namespace ServingLifecycle

def Path.child (base name : String) : String :=
  if base = "" then name
  else if base.toList.getLast? = some '/' then base ++ name
  else base ++ "/" ++ name

/-- A directory whose entries are being copied. -/
structure OpenDirectory where
  source : String
  target : String
  entries : List (String × Node)
deriving DecidableEq, Repr

structure TreeCopy where
  /-- pairs of a directory and the directory that its content goes to, next first -/
  pending : List (String × String)
  opened : Option OpenDirectory
deriving DecidableEq, Repr

namespace TreeCopy

def start (source target : String) : TreeCopy := ⟨[(source, target)], none⟩

def isDone (c : TreeCopy) : Bool :=
  c.pending.isEmpty && c.opened.isNone

/-- Makes the target of the directory on top of the stack and lists the directory. -/
def openNext (source target : String) (rest : List (String × String)) (d : Disk) :
    Except StorageError TreeCopy × Disk :=
  match d.makeDirectories target with
  | (.error fault, d) => (.error (.ofFault target fault), d)
  | (.ok (), d) =>
    match d.list source with
    | .error fault => (.error (.ofFault source fault), d)
    | .ok entries => (.ok ⟨rest, some ⟨source, target, entries⟩⟩, d)

def copyEntry (pending : List (String × String)) (source target name : String) (node : Node)
    (rest : List (String × Node)) (d : Disk) : Except StorageError TreeCopy × Disk :=
  let from' := Path.child source name
  let to' := Path.child target name
  if node = .directory then (.ok ⟨(from', to') :: pending, some ⟨source, target, rest⟩⟩, d)
  else
    match d.copyFile from' to' with
    | .error fault => (.error (.ofFault from' fault), d)
    | .ok d => (.ok ⟨pending, some ⟨source, target, rest⟩⟩, d)

def step (c : TreeCopy) (d : Disk) : Except StorageError TreeCopy × Disk :=
  match c.opened, c.pending with
  | some ⟨source, target, (name, node) :: rest⟩, pending =>
    copyEntry pending source target name node rest d
  | some ⟨_, _, []⟩, pending => (.ok ⟨pending, none⟩, d)
  | none, (source, target) :: rest => openNext source target rest d
  | none, [] => (.ok c, d)

/-- Steps until the copy is done or fails. One that goes on for longer has outgrown every path. -/
def run : (steps : Nat) → TreeCopy → Disk → Except StorageError Unit × Disk
  | 0, c, d =>
    (if c.isDone then .ok ()
      else .error (.ofFault ((c.pending.head?.map Prod.snd).getD "") .nameTooLong), d)
  | steps + 1, c, d =>
    if c.isDone then (.ok (), d)
    else
      match c.step d with
      | (.error error, d) => (.error error, d)
      | (.ok c, d) => run steps c d

/-- More steps than a copy can take before its paths have grown too long. -/
def stepBound (d : Disk) : Nat :=
  4 * (d.entries.length + 2) * (d.limits.path.getD 0 + 2)

end TreeCopy

def Disk.copyTree (d : Disk) (source target : String) : Except StorageError Unit × Disk :=
  (TreeCopy.start source target).run (TreeCopy.stepBound d) d

end ServingLifecycle
