import Sismatic.ApiTypes

/-!
# The server's own settings, on the wire

A document states every setting and a patch states some, in one vocabulary, so that a
document is a patch.
-/

namespace Sismatic

/-- One field of the poll schedule. In a patch, no interval is the inherited one. -/
structure FieldSettings where
  name : FieldName
  intervalSecs : Option UInt64
deriving DecidableEq, Repr

structure SyncSettings where
  intervalSecs : UInt64
  fields : List FieldSettings
deriving DecidableEq, Repr

structure StoreSettings where
  retain : String
  cleanupInterval : String
  maxMemory : String
deriving DecidableEq, Repr

structure RelaySettings where
  pollMs : UInt64
  maxAttempts : UInt32
deriving DecidableEq, Repr

structure HttpSettings where
  host : String
  port : UInt16
deriving DecidableEq, Repr

structure InventorySettings where
  configPath : String
  runtimeConfigPath : Option String
deriving DecidableEq, Repr

structure ConfigDocument where
  sync : SyncSettings
  store : StoreSettings
  intentRelay : RelaySettings
  http : HttpSettings
  inventory : InventorySettings
deriving DecidableEq, Repr

structure SyncPatch where
  intervalSecs : Option UInt64
  fields : Option (List FieldSettings)
deriving DecidableEq, Repr

structure StorePatch where
  retain : Option String
  cleanupInterval : Option String
  maxMemory : Option String
deriving DecidableEq, Repr

structure RelayPatch where
  pollMs : Option UInt64
  maxAttempts : Option UInt32
deriving DecidableEq, Repr

structure InventoryPatch where
  configPath : Option String
  runtimeConfigPath : Option String
deriving DecidableEq, Repr

/-- A key that is absent is left alone. -/
structure ConfigPatch where
  sync : Option SyncPatch
  store : Option StorePatch
  intentRelay : Option RelayPatch
  http : Option HttpSettings
  inventory : Option InventoryPatch
deriving DecidableEq, Repr

/-- This document as the patch that would produce it. -/
def ConfigDocument.asPatch (document : ConfigDocument) : ConfigPatch where
  sync := some ⟨some document.sync.intervalSecs, some document.sync.fields⟩
  store := some ⟨some document.store.retain, some document.store.cleanupInterval,
    some document.store.maxMemory⟩
  intentRelay := some ⟨some document.intentRelay.pollMs, some document.intentRelay.maxAttempts⟩
  http := some document.http
  inventory := some ⟨some document.inventory.configPath, document.inventory.runtimeConfigPath⟩

end Sismatic
