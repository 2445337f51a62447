import ServingLifecycle.Storage.SystemFault
/-!
# Storage errors

Every storage operation fails in one of three ways. Whatever a filesystem reports as missing becomes
`notFound`, so that callers deal with one vocabulary.
-/
namespace ServingLifecycle

inductive StorageError
  | notFound (path : String)
  /-- no filesystem is responsible for the uri -/
  | unsupportedScheme (uri : String)
  | io (path : String) (fault : SystemFault)
deriving DecidableEq, Repr

namespace StorageError

/-- The error of a fault met at a path. -/
def ofFault (path : String) (fault : SystemFault) : StorageError :=
  if fault.isNotFound then notFound path else io path fault

def message : StorageError → String
  | notFound path => "path not found: " ++ path
  | unsupportedScheme uri => "no filesystem registered for uri: " ++ uri
  | io path fault => "io error on " ++ path ++ ": " ++ fault.text

def subject : StorageError → String
  | notFound path => path
  | unsupportedScheme uri => uri
  | io path _ => path

def cause : StorageError → Option SystemFault
  | io _ fault => some fault
  | _ => none

theorem ofFault_eq_notFound_iff {path : String} {fault : SystemFault} {p : String} :
    ofFault path fault = notFound p ↔ fault.isNotFound = true ∧ path = p := by
  unfold ofFault
  split <;> simp_all

end StorageError
end ServingLifecycle
