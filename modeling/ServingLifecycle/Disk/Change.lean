import ServingLifecycle.Disk.Walk
/-!
# Changing a disk

Making directories and copying files. What has been made stays when a later part fails.
-/
namespace ServingLifecycle.Disk

/-- Makes the directory that the last of the names stands for; those before it must lead to a
directory. -/
def makeNamed (d : Disk) (loc : Location) (names : List String) : Except SystemFault Disk :=
  let names := if names.getLast? = some "" then names.dropLast else names
  match names.getLast? with
  | none => .error .alreadyThere
  | some name =>
    match d.follow .look maxLinks loc (names.dropLast ++ ["."]) with
    | .error fault => .error fault
    | .ok (.vacant _ _) => .error .noEntry
    | .ok (.at parent) =>
      if name = "." ∨ name = ".." then .error .alreadyThere
      else if d.nameExceeds name then .error .nameTooLong
      else if (d.get? (parent ++ [name])).isSome then .error .alreadyThere
      else .ok (d.put (parent ++ [name]) .directory)

def makeDirectory (d : Disk) (path : String) : Except SystemFault Disk :=
  match d.pathFault? path with
  | some fault => .error fault
  | none => d.makeNamed (d.start path) (Path.names path)

def hasNamedDirectory (d : Disk) (loc : Location) (names : List String) : Bool :=
  match d.follow .look maxLinks loc (names ++ ["."]) with
  | .ok (.at _) => true
  | _ => false

/-- Makes the directories of the names, given from the last to the first. One that is there already
will do; one above is only made when it is missing. -/
def makeAncestors (loc : Location) : List String → Disk → Except SystemFault Unit × Disk
  | [], d => (.ok (), d)
  | name :: above, d =>
    let names := above.reverse ++ [name]
    match d.makeNamed loc names with
    | .ok d => (.ok (), d)
    | .error fault =>
      if fault.isNotFound then
        match makeAncestors loc above d with
        | (.error fault, d) => (.error fault, d)
        | (.ok (), d) =>
          match d.makeNamed loc names with
          | .ok d => (.ok (), d)
          | .error fault => if d.hasNamedDirectory loc names then (.ok (), d) else (.error fault, d)
      else if d.hasNamedDirectory loc names then (.ok (), d)
      else (.error fault, d)

/-- Makes a directory and those above it that are missing. The empty path needs nothing. -/
def makeDirectories (d : Disk) (path : String) : Except SystemFault Unit × Disk :=
  if path = "" then (.ok (), d)
  else
    match d.makeDirectory path with
    | .ok d => (.ok (), d)
    | .error fault =>
      if fault.isNotFound then
        let above := ((Path.names path).filter fun name => name ≠ "" ∧ name ≠ ".").reverse.drop 1
        match makeAncestors (d.start path) above d with
        | (.error fault, d) => (.error fault, d)
        | (.ok (), d) =>
          match d.makeDirectory path with
          | .ok d => (.ok (), d)
          | .error fault => if d.hasDirectory path then (.ok (), d) else (.error fault, d)
      else if d.hasDirectory path then (.ok (), d)
      else (.error fault, d)

/-- Where the content written to a path goes. -/
def writeTarget (d : Disk) (path : String) : Except SystemFault Location :=
  match d.walk .write path with
  | .error fault => .error fault
  | .ok (.vacant directory name) => .ok (directory ++ [name])
  | .ok (.at loc) => if d.get? loc = some .directory then .error .isDirectory else .ok loc

/-- Writes a file, over the one that was there. -/
def writeFile (d : Disk) (path : String) (content : Bytes) : Except SystemFault Disk :=
  (d.writeTarget path).map fun loc => d.put loc (.file content)

/-- Makes a symbolic link where nothing is yet. -/
def makeLink (d : Disk) (path target : String) : Except SystemFault Disk :=
  match d.pathFault? path with
  | some fault => .error fault
  | none =>
    match (Path.names path).getLast? with
    | none => .error .alreadyThere
    | some name =>
      match d.follow .look maxLinks (d.start path) ((Path.names path).dropLast ++ ["."]) with
      | .error fault => .error fault
      | .ok (.vacant _ _) => .error .noEntry
      | .ok (.at parent) =>
        if (d.get? (parent ++ [name])).isSome then .error .alreadyThere
        else .ok (d.put (parent ++ [name]) (.link target))

/-- Copies a file. The target is emptied before the source is read, so a file copied onto itself ends
up empty. -/
def copyFile (d : Disk) (source target : String) : Except SystemFault Disk :=
  match d.locate source with
  | .error fault => .error fault
  | .ok from' =>
    match d.get? from' with
    | some (.file content) =>
      match d.writeTarget target with
      | .error fault => .error fault
      | .ok to' => .ok (d.put to' (.file (if to' = from' then [] else content)))
    | _ => .error .notRegularFile

def list (d : Disk) (path : String) : Except SystemFault (List (String × Node)) :=
  match d.locate path with
  | .error fault => .error fault
  | .ok loc => if d.get? loc = some .directory then .ok (d.children loc) else .error .notDirectory

/-- The content of the file that a path leads to. -/
def read? (d : Disk) (path : String) : Option Bytes :=
  match d.look path with
  | .ok (.file content) => some content
  | _ => none

end ServingLifecycle.Disk
