import Sismatic.Server.Export

/-!
# Exports and verbs, step by step

A verb writes the document, the catalog and the registry under the document's lock. An
export reads the registry without it, one shard of the map after another, then what the
devices have learned, and takes the lock only to read the groups. So a verb in progress is
what it has still to do to the registry, and an export in progress is how far it has read.
What the fleet was whenever no verb was in progress is kept beside them, and how often the
registered devices had changed by then; nothing in the program reads either.
-/

namespace Sismatic

open Devices

/-- The shards of a concurrent map, and the one an id is filed in. -/
structure Shards where
  count : Nat
  of : DeviceId → Fin count

/-- The fleet as it was at a moment no verb was in progress. -/
structure View where
  /-- In order of id. -/
  devices : List DeviceConfig
  groups : List GroupConfig
  moved : Nat

/-- A verb that has written its document, part way through `Registry::apply`. -/
structure Applying where
  resolved : Resolved
  todo : List DeviceConfig
  change : RegistryChange
  /-- The ids still to be removed, once they are collected. -/
  stale : Option (List DeviceId)

inductive Exporting
  | idle
  /-- The shard to read next. The first count is what had changed when it began. -/
  | reading (query : ExportQuery) (began shard : Nat) (devices : List DeviceConfig)
  /-- `read` is the changes there had been, if there were none while it read. -/
  | promoting (query : ExportQuery) (read : Option Nat) (devices : List DeviceConfig)
  | grouping (query : ExportQuery) (read : Option Nat) (devices : List DeviceConfig)
      (learned : Promoted)
  | answered (query : ExportQuery) (learned : Promoted) (document : ExportDocument)
      (answer : Except InventoryRefusal String)
  | refused (fault : Refused)

/-- The live fleet, the verb that holds its document, and the exports under way. -/
structure Inventory where
  fleet : LiveFleet
  holding : Option Applying
  exports : Nat → Exporting
  /-- How often the registered devices have changed. -/
  moved : Nat
  now : View
  passed : List View

/-- `sort_by` on the ids, which is stable. -/
def sortedById (devices : List DeviceConfig) : List DeviceConfig :=
  devices.insertionSort fun a b => a.id ≤ b.id

namespace Devices.Registry

def configs (r : Registry) : List DeviceConfig := r.devices.map (·.config)

def ids (r : Registry) : List DeviceId := r.devices.map (·.config.id)

def remove (r : Registry) (id : DeviceId) : Registry :=
  { r with devices := r.devices.filter fun d => d.config.id ≠ id }

/-- The configurations filed in one shard. -/
def shard (r : Registry) (shards : Shards) (i : Nat) : List DeviceConfig :=
  r.configs.filter fun config => (shards.of config.id).val = i

end Devices.Registry

namespace Inventory

/-- The process as it starts, over the fleet its document describes. -/
def init (document : RawConfig) (resolved : Resolved) (outbox : MemoryOutbox)
    (configPath : String) : Inventory :=
  let fleet := LiveFleet.new document resolved outbox configPath
  let now : View := ⟨sortedById fleet.registry.configs, resolved.groups, 0⟩
  ⟨fleet, none, fun _ => .idle, 0, now, [now]⟩

/-- Put `registry` in place, and count whether the registered devices changed. -/
def register (w : Inventory) (registry : Devices.Registry) : Inventory :=
  { w with
    fleet := { w.fleet with registry := registry }
    moved := if registry.devices = w.fleet.registry.devices then w.moved else w.moved + 1 }

/-- Rebuild the groups and let go of the document. -/
def finish (w : Inventory) (resolved : Resolved) : Inventory :=
  let registry := w.fleet.registry.rebuildGroups resolved.groups
  let now : View := ⟨sortedById registry.configs, resolved.groups, w.moved⟩
  { w with
    fleet := { w.fleet with registry := registry }
    holding := none
    now := now
    passed := now :: w.passed }

/-- The verb that holds the document goes one step further in the registry. -/
def advance (w : Inventory) : Inventory :=
  match w.holding with
  | none => w
  | some applying =>
      match applying.todo, applying.stale with
      | config :: todo, _ =>
          let (registry, change) := Registry.applyOne (w.fleet.registry, applying.change) config
          { w.register registry with
            holding := some { applying with todo := todo, change := change } }
      | [], none =>
          let wanted := (Registry.desired applying.resolved.devices).map (·.id)
          let stale := w.fleet.registry.ids.filter fun id => !wanted.contains id
          { w with holding := some { applying with stale := some stale } }
      | [], some (id :: stale) =>
          { w.register (w.fleet.registry.remove id) with
            holding := some { applying with stale := some stale } }
      | [], some [] => w.finish applying.resolved

def setExport (w : Inventory) (k : Nat) (e : Exporting) : Inventory :=
  { w with exports := Function.update w.exports k e }

section Step

variable (newV5 : Uuid → List UInt8 → Uuid) (shards : Shards)
  (formats : ExportFormat → Format)

/--
A verb takes the lock, if nobody has it, and is refused or writes the document and the
catalog. The document written resolves to the fleet the verb goes on to apply.
-/
def keep (w : Inventory) (change : Change) : Inventory :=
  match w.holding, w.fleet.change newV5 change with
  | none, (after, .ok _) =>
      match resolveConfig newV5 after.document with
      | .ok resolved =>
          { w with
            fleet := { w.fleet with document := after.document, catalog := after.catalog }
            holding := some
              ⟨resolved, Registry.desired resolved.devices, ⟨[], [], [], 0⟩, none⟩ }
      | .error _ => w
  | _, _ => w

/-- An export is asked for. -/
def ask (w : Inventory) (k : Nat) (query : ExportQuery) : Inventory :=
  match w.exports k with
  | .idle => w.setExport k (.reading query w.moved 0 [])
  | _ => w

/-- One shard of the registered devices is read; after the last, they are sorted. -/
def glance (w : Inventory) (k : Nat) : Inventory :=
  match w.exports k with
  | .reading query began shard devices =>
      let devices := devices ++ w.fleet.registry.shard shards shard
      w.setExport k (if shard + 1 < shards.count then .reading query began (shard + 1) devices
        else .promoting query (if began = w.moved then some w.moved else none)
          (sortedById devices))
  | _ => w

/-- What the devices have learned to be refused, as it is when it is asked for. -/
def learn (w : Inventory) (k : Nat) (learned : Promoted) : Inventory :=
  match w.exports k with
  | .promoting query read devices => w.setExport k (.grouping query read devices learned)
  | _ => w

/-- The lock is free: the groups are read, and the export is rendered. -/
def conclude (w : Inventory) (k : Nat) : Inventory :=
  match w.exports k, w.holding with
  | .grouping query _ devices learned, none =>
      w.setExport k <|
        match resolveConfig newV5 w.fleet.document with
        | .error fault => .refused fault.refusal
        | .ok resolved => .answered query learned (exported devices resolved.groups learned query)
            (render formats devices resolved.groups learned query)
  | _, _ => w

inductive Act
  | keep (change : Change)
  | advance
  | ask (k : Nat) (query : ExportQuery)
  | glance (k : Nat)
  | learn (k : Nat) (learned : Promoted)
  | conclude (k : Nat)

def step (w : Inventory) : Act → Inventory
  | .keep change => w.keep newV5 change
  | .advance => w.advance
  | .ask k query => w.ask k query
  | .glance k => w.glance shards k
  | .learn k learned => w.learn k learned
  | .conclude k => w.conclude newV5 formats k

end Step

end Inventory

end Sismatic
