/-!
# Storage uris

A storage uri is a text, either a bare path or one that starts with a scheme such as `file://`.
Joining puts exactly one slash at the seam: slashes at the end of the base and at the start of the
child are dropped first, so a base made of slashes alone counts as the root.
-/
namespace ServingLifecycle.Uri

def stem (base : List Char) : List Char :=
  (base.reverse.dropWhile (· == '/')).reverse

def leaf (child : List Char) : List Char :=
  child.dropWhile (· == '/')

/-- Joins a child onto a base with one slash between them. -/
def join (base child : String) : String :=
  String.ofList (stem base.toList ++ '/' :: leaf child.toList)

theorem toList_join (base child : String) :
    (join base child).toList = stem base.toList ++ '/' :: leaf child.toList := by
  simp [join]

/-- Whether one text occurs somewhere in another. -/
def occursIn (part : List Char) : List Char → Bool
  | [] => part.isEmpty
  | c :: rest => part.isPrefixOf (c :: rest) || occursIn part rest

/-- A uri names a scheme when it holds `://` anywhere. -/
def hasScheme (uri : String) : Bool :=
  occursIn "://".toList uri.toList

def startsWith (uri start : String) : Bool :=
  start.toList.isPrefixOf uri.toList

/-- The uri without the given start, or the uri itself when it starts otherwise. -/
def withoutStart (uri start : String) : String :=
  if startsWith uri start then String.ofList (uri.toList.drop start.toList.length) else uri

end ServingLifecycle.Uri
