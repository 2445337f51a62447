import ServingLifecycle.Settings
import ServingLifecycle.Staging.Locator
/-!
# The configured locator

A locator over the configured filesystems, with the configured policies set one after the other in the
order in which they are listed.
-/
namespace ServingLifecycle.Locator

/-- The locator of some settings, given what the local filesystem is. -/
def ofSettings {σ : Type} (disk : Filesystem σ) (s : Settings) : Locator σ where
  storage := Storage.ofConfig disk s.storage
  policies := PolicyTable.builtin.setAll s.policies

end ServingLifecycle.Locator
