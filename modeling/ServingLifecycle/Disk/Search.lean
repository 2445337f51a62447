import ServingLifecycle.Disk.Change
/-!
# Searching a disk

A file that is named by a relative path is looked for in the home directory and then in every directory
above it, the nearest first.
-/
namespace ServingLifecycle.Disk

/-- A location and those above it, the nearest first. -/
def upward (loc : Location) : List Location :=
  (List.range (loc.length + 1)).map fun n => loc.take (loc.length - n)

/-- The content of the first file that is found under a path. -/
def findFile (d : Disk) (path : String) : Option Bytes :=
  if Path.isAbsolute path then d.read? path
  else (upward d.home).findSome? fun loc => { d with home := loc }.read? path

end ServingLifecycle.Disk
