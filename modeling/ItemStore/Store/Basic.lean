import ItemStore.Config
import ItemStore.Store.Session

/-!
# Stores

A store sends requests to a provider under a configuration.  What happens in between is kept in the
session, so a store itself never changes.
-/

namespace ItemStore

/-- A provider and the configuration under which requests are sent to it. -/
structure Store (σ : Type) where
  /-- What answers requests. -/
  provider : Provider σ
  /-- How requests are sent. -/
  config : Config

namespace Store

variable {σ : Type}

/-- A store with the default configuration. -/
def new (provider : Provider σ) : Store σ := ⟨provider, {}⟩

/-- A store with a configuration that does not contradict itself. -/
def withConfig (provider : Provider σ) (config : Config) : Except StoreError (Store σ) := do
  config.validate
  return ⟨provider, config⟩

/-- A store with another patience. -/
def relax (store : Store σ) (ratio : Float) : Except StoreError (Store σ) := do
  return { store with config := ← store.config.relax ratio }

end Store

end ItemStore
