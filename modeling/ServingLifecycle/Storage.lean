import ServingLifecycle.Storage.Filesystem
import ServingLifecycle.Uri
/-!
# Storage

Routes uris to filesystems. A filesystem is registered with a priority for every scheme it names.
Routes are tried by falling priority, then by falling length of the scheme, then in the order of
registration. A bare path takes any route whose scheme it starts with, a uri with `://` in it never
the route of the empty scheme. Copies stay within one filesystem.
-/
namespace ServingLifecycle

structure Route (σ : Type) where
  scheme : String
  priority : Int
  /-- the registration that the route comes from -/
  owner : Nat
  filesystem : Filesystem σ

namespace Route

variable {σ : Type}

/-- Whether `a` is tried no later than `b`, registration order apart. -/
def before (a b : Route σ) : Bool :=
  a.priority > b.priority
    || (a.priority == b.priority && a.scheme.utf8ByteSize ≥ b.scheme.utf8ByteSize)

def takes (r : Route σ) (uri : String) : Bool :=
  !(r.scheme == "" && Uri.hasScheme uri) && Uri.startsWith uri r.scheme

end Route

structure Storage (σ : Type) where
  routes : List (Route σ)
  registered : Nat

namespace Storage

variable {σ : Type}

def empty : Storage σ := ⟨[], 0⟩

def defaultPriority : Int := 5

/-- Registers a filesystem for each of its schemes. -/
def register (s : Storage σ) (fs : Filesystem σ) (priority : Int) : Storage σ where
  routes := (s.routes ++ fs.schemes.map (Route.mk · priority s.registered fs)).mergeSort Route.before
  registered := s.registered + 1

/-- Registers filesystems one after the other. -/
def ofList (registrations : List (Filesystem σ × Int)) : Storage σ :=
  registrations.foldl (fun s r => s.register r.1 r.2) empty

def route? (s : Storage σ) (uri : String) : Option (Route σ) :=
  s.routes.find? (·.takes uri)

/-- The route of a uri, or the error that there is none. -/
def resolve (s : Storage σ) (uri : String) : Except StorageError (Route σ) :=
  match s.route? uri with
  | some route => .ok route
  | none => .error (.unsupportedScheme uri)

/-- Runs an operation of the filesystem that takes a uri. -/
def routed {α : Type} (s : Storage σ) (uri : String) (op : Filesystem σ → StorageEffect σ α) :
    StorageEffect σ α :=
  match s.resolve uri with
  | .ok route => op route.filesystem
  | .error error => StorageEffect.fail error

def shared (s : Storage σ) (source target : String) : Except StorageError (Filesystem σ) :=
  match s.resolve source, s.resolve target with
  | .error error, _ => .error error
  | .ok _, .error error => .error error
  | .ok from', .ok to' =>
    if from'.owner = to'.owner then .ok from'.filesystem else .error (.unsupportedScheme target)

def between {α : Type} (s : Storage σ) (source target : String)
    (op : Filesystem σ → StorageEffect σ α) : StorageEffect σ α :=
  match s.shared source target with
  | .ok fs => op fs
  | .error error => StorageEffect.fail error

def present (s : Storage σ) (uri : String) : StorageEffect σ Bool :=
  s.routed uri (·.present uri)

def isDirectory (s : Storage σ) (uri : String) : StorageEffect σ Bool :=
  s.routed uri (·.isDirectory uri)

def makeDirectories (s : Storage σ) (uri : String) : StorageEffect σ Unit :=
  s.routed uri (·.makeDirectories uri)

def copyFile (s : Storage σ) (source target : String) : StorageEffect σ Unit :=
  s.between source target (·.copyFile source target)

def copyDirectory (s : Storage σ) (source target : String) : StorageEffect σ Unit :=
  s.between source target (·.copyDirectory source target)

theorem resolve_eq_ok_iff {s : Storage σ} {uri : String} {r : Route σ} :
    s.resolve uri = .ok r ↔ s.route? uri = some r := by
  unfold resolve
  split <;> simp_all

theorem resolve_eq_error_iff {s : Storage σ} {uri : String} {e : StorageError} :
    s.resolve uri = .error e ↔
      (∀ r ∈ s.routes, r.takes uri = false) ∧ e = .unsupportedScheme uri := by
  unfold resolve
  split
  · rename_i r h
    have hm := List.mem_of_find?_eq_some h
    have ht := List.find?_some h
    constructor
    · intro h; cases h
    · rintro ⟨h, _⟩; simp [h r hm] at ht
  · rename_i h
    have := List.find?_eq_none.mp h
    constructor
    · intro h'; cases h'; exact ⟨fun r hr => by simpa using this r hr, rfl⟩
    · rintro ⟨_, rfl⟩; rfl

end Storage
end ServingLifecycle
