import ServingLifecycle.Value.Loose
/-!
# The environment

Variables whose names start with `TRD_DEPLOYER_`, in whatever case, set settings. The rest of the name is
a path of keys with two underscores or a point between them; it counts in small letters and ends before
the first empty key. `TRD_DEPLOYER_CONFIG` in exactly this case names the file of settings, and in no
case is it a setting.
-/
namespace ServingLifecycle

structure Variable where
  name : String
  value : String
deriving DecidableEq, Repr

/-- The variables, in the order in which they came up. -/
abbrev Environment : Type := List Variable

namespace Environment

def start : String := "TRD_DEPLOYER_"

/-- The variable that names the file of settings. -/
def configName : String := "TRD_DEPLOYER_CONFIG"

/-- Sets a variable, in its old place if it had one. -/
def set (v : Variable) : Environment → Environment
  | [] => [v]
  | w :: rest => if w.name = v.name then v :: rest else w :: set v rest

def get? (env : Environment) (name : String) : Option String :=
  (env.find? (·.name = name)).map Variable.value

/-- A text in small letters, as far as it is ASCII. -/
def small (s : List Char) : List Char :=
  s.map Char.toLower

/-- The text with a point in the place of every two underscores. -/
def pointed : List Char → List Char
  | '_' :: '_' :: rest => '.' :: pointed rest
  | c :: rest => c :: pointed rest
  | [] => []

def split : List Char → List (List Char)
  | [] => [[]]
  | c :: rest =>
    if c = '.' then [] :: split rest
    else
      match split rest with
      | [] => [[c]]
      | key :: keys => (c :: key) :: keys

/-- The keys that the name of a variable stands for, if it stands for any. -/
def keys? (name : String) : Option (List String) :=
  let name := Text.trim name.toList
  let rest := name.drop start.length
  if small (name.take start.length) = small start.toList ∧ small rest ≠ "config".toList then
    let path := Text.trim (pointed rest)
    if path.isEmpty then none
    else some (((split (small path)).takeWhile fun key => !key.isEmpty).map String.ofList)
  else none

/-- A value below a path of keys. -/
def nested (keys : List String) (v : Value) : Value :=
  keys.foldr (fun key v => .table [(key, v)]) v

/-- Why the variables are not a layer of settings. -/
inductive Fault
  /-- a name that stands for no key with a value that has none either -/
  | noKey
deriving DecidableEq, Repr

def Fault.message : Fault → String
  | noKey => "key is non-empty: must have dict"

/-- Lays what a variable sets over what was set before. -/
def lay (v : Variable) (older : Value) : Except Fault Value :=
  match keys? v.name with
  | none => .ok older
  | some keys =>
    match nested keys (Value.ofLoose v.value) with
    | .table entries => .ok (older.merge (.table entries))
    | _ => .error .noKey

/-- What all variables set, the later ones over the earlier ones. -/
def layer (env : Environment) : Except Fault Value :=
  env.foldlM (fun older v => lay v older) (.table [])

end Environment
end ServingLifecycle
