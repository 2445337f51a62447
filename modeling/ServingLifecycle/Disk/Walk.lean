import ServingLifecycle.Disk
import ServingLifecycle.Storage.SystemFault
/-!
# Walking a path

A path is walked name by name from the root or from the home directory. Empty names and `.` stay where
they are, `..` goes up, a link is replaced by its target, and everything but the last name has to be a
directory. A slash at the end counts as a further empty name, so what stands before it has to be a
directory too.
-/
namespace ServingLifecycle

namespace Path

/-- The texts between the slashes. -/
def split : List Char → List (List Char)
  | [] => [[]]
  | c :: rest =>
    if c = '/' then [] :: split rest
    else
      match split rest with
      | [] => [[c]]
      | name :: names => (c :: name) :: names

/-- The names of a path, with an empty one at the end if a slash follows the last. -/
def names (path : String) : List String :=
  let parts := (split path.toList).map String.ofList
  let named := parts.filter (· != "")
  if parts.getLast? = some "" ∧ named ≠ [] then named ++ [""] else named

def isAbsolute (path : String) : Bool :=
  path.toList.head? == some '/'

end Path

/-- Links followed in one walk before it is given up. -/
def maxLinks : Nat := 40

/-- What a walk needs of the last name. -/
inductive WalkPurpose
  /-- that it be there -/
  | look
  /-- that a file may be written under it -/
  | write
deriving DecidableEq, Repr

/-- What a walk without links comes to. -/
inductive Stretch
  | arrived (loc : Location)
  /-- the directory is there and the name in it is not -/
  | vacant (directory : Location) (name : String)
  /-- a link, and the names to go after it -/
  | link (directory : Location) (target : String) (rest : List String)
  | blocked (fault : SystemFault)
deriving DecidableEq, Repr

namespace Disk

def nameExceeds (d : Disk) (name : String) : Bool :=
  d.limits.name.any (· < name.utf8ByteSize)

/-- Walks until the end, a link or an obstacle. -/
def stretch (d : Disk) (purpose : WalkPurpose) (loc : Location) : List String → Stretch
  | [] => .arrived loc
  | name :: rest =>
    if name = "" ∨ name = "." then d.stretch purpose loc rest
    else if name = ".." then d.stretch purpose loc.dropLast rest
    else if purpose = .write ∧ rest = [""] then .blocked .isDirectory
    else if d.nameExceeds name then .blocked .nameTooLong
    else
      match d.get? (loc ++ [name]) with
      | none => if rest = [] then .vacant loc name else .blocked .noEntry
      | some .directory => d.stretch purpose (loc ++ [name]) rest
      | some (.file _) => if rest = [] then .arrived (loc ++ [name]) else .blocked .notDirectory
      | some (.link target) => .link loc target rest

/-- Where a walk ends. -/
inductive Arrival
  | at (loc : Location)
  | vacant (directory : Location) (name : String)
deriving DecidableEq, Repr

def start (d : Disk) (path : String) : Location :=
  if Path.isAbsolute path then [] else d.home

/-- Walks on, following up to `links` links. -/
def follow (d : Disk) (purpose : WalkPurpose) :
    (links : Nat) → Location → List String → Except SystemFault Arrival
  | 0, loc, names =>
    match d.stretch purpose loc names with
    | .arrived l => .ok (.at l)
    | .vacant l name => .ok (.vacant l name)
    | .link _ _ _ => .error .tooManyLinks
    | .blocked fault => .error fault
  | links + 1, loc, names =>
    match d.stretch purpose loc names with
    | .arrived l => .ok (.at l)
    | .vacant l name => .ok (.vacant l name)
    | .link l target rest =>
      d.follow purpose links (if Path.isAbsolute target then [] else l) (Path.names target ++ rest)
    | .blocked fault => .error fault

/-- What is wrong with the text of a path. -/
def pathFault? (d : Disk) (path : String) : Option SystemFault :=
  if path.toList.contains '\x00' then some .embeddedNul
  else if path = "" then some .noEntry
  else if d.limits.path.any (· < path.utf8ByteSize) then some .nameTooLong
  else none

def walk (d : Disk) (purpose : WalkPurpose) (path : String) : Except SystemFault Arrival :=
  match d.pathFault? path with
  | some fault => .error fault
  | none => d.follow purpose maxLinks (d.start path) (Path.names path)

/-- The location that a path leads to, links followed. -/
def locate (d : Disk) (path : String) : Except SystemFault Location :=
  match d.walk .look path with
  | .ok (.at loc) => .ok loc
  | .ok (.vacant _ _) => .error .noEntry
  | .error fault => .error fault

/-- What a path leads to, links followed. -/
def look (d : Disk) (path : String) : Except SystemFault Node :=
  match d.locate path with
  | .ok loc =>
    match d.get? loc with
    | some node => .ok node
    | none => .error .noEntry
  | .error fault => .error fault

def hasDirectory (d : Disk) (path : String) : Bool :=
  match d.look path with
  | .ok .directory => true
  | _ => false

end Disk
end ServingLifecycle
