import ServingLifecycle.Disk.Search
import ServingLifecycle.Settings.Environment
import ServingLifecycle.Toml
import ServingLifecycle.Value.Settings
/-!
# Layers of settings

Settings are laid over each other: the default ones, then those of a file, then those of the
environment. Tables are merged key by key, any other value is replaced as a whole. What comes out is read
as settings and then checked.
-/
namespace ServingLifecycle.Settings

inductive LoadFault
  /-- reading broke off -/
  | brokenOff (text : String)
  /-- the file is not a document -/
  | unreadable
  | misfit (error : ReadError)
  | invalid (violations : List Violation)
deriving DecidableEq, Repr

def LoadFault.message : LoadFault → String
  | brokenOff text => text
  | unreadable => "failed to load deployer settings"
  | misfit _ => "failed to load deployer settings"
  | invalid _ => "invalid deployer settings"

/-- The layers laid over each other, with the given directory for temporary files. -/
def combined (file environment : Value) (temporary : String := "/tmp") : Value :=
  ((Settings.default temporary).toValue.merge file).merge environment

/-- Settings of a file or of the environment may have entries that nothing asks for. -/
def leniency : Strictness := ⟨false, false⟩

/-- Reads settings from a value and checks them. -/
def check (v : Value) : Except LoadFault Settings :=
  match Settings.ofValue leniency v with
  | .error ⟨_, .brokenOff text⟩ => .error (.brokenOff text)
  | .error error => .error (.misfit error)
  | .ok s => if s.Valid then .ok s else .error (.invalid s.violations)

/-- The layer that the content of a file is. -/
def fileLayer (content : Bytes) : Except LoadFault Value :=
  match (String.fromUTF8? ⟨content.toArray⟩).bind Toml.parse? with
  | some v => .ok v
  | none => .error .unreadable

/-- Loads settings from the file under a path, if there is one, and from the environment. -/
def loadFrom (d : Disk) (path : String) (env : Environment) (temporary : String := "/tmp") :
    Except LoadFault Settings :=
  match env.layer with
  | .error fault => .error (.brokenOff fault.message)
  | .ok environment => do
    let file ← match d.findFile path with
      | some content => fileLayer content
      | none => .ok (.table [])
    check (combined file environment temporary)

/-- The file that is looked for when the environment names none. -/
def defaultPath : String := "deployer.toml"

/-- Loads settings from the file that the environment names and from the environment. -/
def load (d : Disk) (env : Environment) (temporary : String := "/tmp") : Except LoadFault Settings :=
  loadFrom d ((env.get? Environment.configName).getD defaultPath) env temporary

end ServingLifecycle.Settings
