import ServingLifecycle.Simulation
/-!
# Drafts of simulations

What a simulation is made of. Only the backend has to be given: without anything else the settings are
the default ones, nothing is counted, and artifacts are staged on the local disk as the builtin policies
say. A simulation made from settings has the filesystems and policies that they name, a fresh backend,
and metrics.
-/
namespace ServingLifecycle

structure SimulationDraft where
  backend : Option SimulatedBackend := none
  locator : Option (Locator StorageWorld) := none
  settings : Option Settings := none
  metrics : Option Metrics := none

def StorageWorld.localDisk : Filesystem StorageWorld :=
  onDisk localFilesystem

namespace SimulationDraft

/-- Completes a draft over a storage world. -/
def build (d : SimulationDraft) (world : StorageWorld) : Except DraftFault Simulation :=
  match d.backend with
  | none => .error (.missing "backend")
  | some backend => .ok {
      system := System.initial (d.settings.getD .default) d.metrics
      backend := backend
      faults := []
      world := world
      locator := d.locator.getD (Locator.ofStorage (Storage.ofFilesystem StorageWorld.localDisk))
      now := 0
      inFlight := []
      birth := Birth.nth
      births := 0 }

/-- The draft of what settings name. -/
def ofSettings (settings : Settings) : SimulationDraft where
  backend := some .fresh
  locator := some (Locator.ofSettings StorageWorld.localDisk settings)
  settings := some settings
  metrics := some .empty

end SimulationDraft
end ServingLifecycle
