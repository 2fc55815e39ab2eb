import Sismatic.Core.Registry
import Sismatic.StoreMemory.Catalog
import Sismatic.StoreMemory.Outbox

/-!
# The fleet

The one path by which the device set changes while the process runs. Every verb edits a
copy of the kept document and resolves it; only a document that resolves is kept, and
then the catalog and the registry are made to match it. The generation counter that is
bumped afterwards carries nothing, and is left out, as is the file a change is written
to. What a removed device has in the read store goes in `Proof/Removal.lean`.
-/

namespace Sismatic

open Devices

/-! ## Requests -/

/-- The body a device is added or replaced with. -/
structure DeviceWrite where
  id : Option DeviceId
  host : Text
  port : Option UInt16
  username : Option Text
  password : Option Text
  connectSecs : Option UInt64
  exchangeSecs : Option UInt64
  eager : Option Bool
  sisKeepaliveSecs : Option UInt64
  eagerRetrySecs : Option UInt64
  coldBackoffSecs : Option UInt64
  disabledFields : Option (List FieldName)
  autoDisableAfter : Option UInt32
  selfHealSecs : Option UInt64
deriving DecidableEq, Repr

/-- The body a group is added or replaced with. -/
structure GroupWrite where
  id : Option GroupId
  devices : List DeviceId
  barrierTimeoutSecs : Option UInt64
  barrier : Option Barrier
deriving DecidableEq, Repr

inductive InventoryRefusal
  | malformed (what : String)
  | duplicate (what : String)
  | unknown (what : String)
  | blocked (what : String)
  | source (what : String)
deriving DecidableEq, Repr

/-- What a removed device left behind. -/
structure Removed where
  device : DeviceId
  writesCanceled : Nat
deriving DecidableEq, Repr

/-- Map a config-layer failure onto the refusal a caller sees. -/
def refusalOf : ConfigError → InventoryRefusal
  | .duplicateId id =>
      .duplicate ("'" ++ id ++ "' already names a device or group; use PUT " ++
        "/v1/inventory/devices/" ++ id ++ " to replace it")
  | .unknownGroupMember group device =>
      .blocked ("group '" ++ group ++ "' still names device '" ++ device ++
        "'; remove it from the group first")
  | other => .malformed other.display

def Devices.Fault.refusal : Fault ConfigError → Fault InventoryRefusal
  | .refused error => .refused (refusalOf error)
  | .panicked => .panicked

def rawOfWrite (id : DeviceId) (write : DeviceWrite) : RawDevice where
  id := id
  host := write.host
  port := write.port
  username := write.username
  password := write.password
  connectSecs := write.connectSecs
  exchangeSecs := write.exchangeSecs
  eager := write.eager
  sisKeepaliveSecs := write.sisKeepaliveSecs
  eagerRetrySecs := write.eagerRetrySecs
  coldBackoffSecs := write.coldBackoffSecs
  disabledFields := write.disabledFields
  autoDisableAfter := write.autoDisableAfter
  selfHealSecs := write.selfHealSecs

def rawOfGroupWrite (id : GroupId) (write : GroupWrite) : RawGroup where
  id := id
  devices := write.devices
  barrierTimeoutSecs := write.barrierTimeoutSecs
  barrier := write.barrier.map fun
    | .failBatch => .failBatch
    | .dispatchReady => .dispatchReady

/-! ## Projections -/

/-- The seconds of an interval, with zero for never. -/
def secsOf (interval : Option Duration) : UInt64 := (interval.map asSecs).getD 0

/-- Project a resolved device back onto the raw form, every value stated. -/
def rawOf (config : DeviceConfig) : RawDevice where
  id := config.id
  host := config.host
  port := some config.port
  username := some config.username
  password := some config.password
  connectSecs := some (asSecs config.connectTimeout)
  exchangeSecs := some (asSecs config.exchangeTimeout)
  eager := some config.eager
  sisKeepaliveSecs := some (secsOf config.sisKeepalive)
  eagerRetrySecs := some (secsOf config.eagerRetry)
  coldBackoffSecs := some (secsOf config.coldBackoff)
  disabledFields := some config.disabledFields.elems
  autoDisableAfter := some config.autoDisableAfter
  selfHealSecs := some (secsOf config.selfHeal)

/-- Project a device's config onto the secret-free summary the API serves. -/
def summarize (config : DeviceConfig) : DeviceSummary where
  id := config.id
  uuid := config.uuid.toString
  host := config.host.val
  port := config.port
  eager := config.eager
  status := .unknown
  disabledFields := config.disabledFields.elems
  autoDisabledFields := []

def summarizeGroup (config : GroupConfig) : GroupSummary where
  id := config.id
  members := config.deviceIds
  barrierTimeoutSecs := asSecs config.barrierTimeout
  barrier :=
    match config.barrier with
    | .dispatchReady => .dispatchReady
    | .failBatch => .failBatch

/-- The catalog a resolved document is served from. -/
def Devices.Resolved.catalog (resolved : Resolved) : MemoryCatalog :=
  .new (resolved.devices.map summarize) (resolved.groups.map summarizeGroup)

/-! ## The verbs -/

structure LiveFleet where
  /-- The devices document as written, amended in place by the verbs. -/
  document : RawConfig
  registry : Devices.Registry
  catalog : MemoryCatalog
  outbox : MemoryOutbox
  /-- The devices file, for the one verb that reads it again. -/
  configPath : String

/-- What a verb comes to when it does not do what was asked. -/
abbrev Refused := Fault InventoryRefusal

namespace LiveFleet

/-- The fleet a document describes, as the process starts with it. -/
def new (document : RawConfig) (resolved : Resolved) (outbox : MemoryOutbox)
    (configPath : String) : LiveFleet where
  document := document
  registry := Registry.build resolved.devices resolved.groups
  catalog := .new (resolved.devices.map summarize) (resolved.groups.map summarizeGroup)
  outbox := outbox
  configPath := configPath

/-- Make the catalog and the registry match `resolved`. -/
def adopt (fleet : LiveFleet) (document : RawConfig) (resolved : Resolved) :
    LiveFleet × RegistryChange :=
  let (registry, change) := fleet.registry.apply resolved
  ({ fleet with
      document := document
      catalog := fleet.catalog.replace (resolved.devices.map summarize)
        (resolved.groups.map summarizeGroup)
      registry := registry }, change)

section Verbs

variable (newV5 : Uuid → List UInt8 → Uuid)

/-- Amend the document with `edit`, resolve it, and apply the result. -/
def amend (fleet : LiveFleet) (edit : RawConfig → Except InventoryRefusal RawConfig) :
    LiveFleet × Except Refused Resolved :=
  match edit fleet.document with
  | .error refusal => (fleet, .error (.refused refusal))
  | .ok amended =>
      match resolveConfig newV5 amended with
      | .error fault => (fleet, .error fault.refusal)
      | .ok resolved =>
          let document := { fleet.document with
            devices := resolved.devices.map rawOf
            groups := amended.groups }
          ((fleet.adopt document resolved).1, .ok resolved)

/-- The summary the inventory routes serve for `id`, after a change. -/
def summaryOf (resolved : Resolved) (id : DeviceId) : Except Refused DeviceSummary :=
  match resolved.devices.find? fun device => device.id = id with
  | some device => .ok (summarize device)
  | none => .error (.refused (.malformed ("device '" ++ id ++ "' was not in the applied fleet")))

def groupSummaryOf (resolved : Resolved) (id : GroupId) : Except Refused GroupSummary :=
  match resolved.groups.find? fun group => group.id = id with
  | some group => .ok (summarizeGroup group)
  | none => .error (.refused (.malformed ("group '" ++ id ++ "' was not in the applied fleet")))

/-- Put `raw` in place of the first device of its id. -/
def replaceDevice (raw : RawDevice) : List RawDevice → Option (List RawDevice)
  | [] => none
  | device :: rest =>
      if device.id = raw.id then some (raw :: rest)
      else (replaceDevice raw rest).map (device :: ·)

def replaceRawGroup (raw : RawGroup) : List RawGroup → Option (List RawGroup)
  | [] => none
  | group :: rest =>
      if group.id = raw.id then some (raw :: rest)
      else (replaceRawGroup raw rest).map (group :: ·)

def add (fleet : LiveFleet) (write : DeviceWrite) : LiveFleet × Except Refused DeviceSummary :=
  match write.id with
  | none =>
      (fleet, .error (.refused
        (.malformed "an added device must state an `id`; the URL does not name one")))
  | some id =>
      let raw := rawOfWrite id write
      let (fleet, res) := fleet.amend newV5 fun document =>
        .ok { document with devices := document.devices ++ [raw] }
      (fleet, res.bind fun resolved => summaryOf resolved id)

def replace (fleet : LiveFleet) (id : DeviceId) (write : DeviceWrite) :
    LiveFleet × Except Refused DeviceSummary :=
  if write.id.any fun stated => stated ≠ id then
    (fleet, .error (.refused (.malformed ("the body names device '" ++ write.id.getD "" ++
      "' and the path names '" ++ id ++ "'; a replace states the id once"))))
  else
    let raw := rawOfWrite id write
    let (fleet, res) := fleet.amend newV5 fun document =>
      match replaceDevice raw document.devices with
      | some devices => .ok { document with devices := devices }
      | none => .error (.unknown ("no device '" ++ id ++ "' is configured"))
    (fleet, res.bind fun resolved => summaryOf resolved id)

/-- Take `id` out of the fleet: the first step of a removal. -/
def takeOut (fleet : LiveFleet) (id : DeviceId) : LiveFleet × Except Refused Resolved :=
  fleet.amend newV5 fun document =>
    let devices := document.devices.filter fun device => device.id ≠ id
    if devices.length = document.devices.length then
      .error (.unknown ("no device '" ++ id ++ "' is configured"))
    else .ok { document with devices := devices }

def remove (fleet : LiveFleet) (id : DeviceId) : LiveFleet × Except Refused Removed :=
  match fleet.takeOut newV5 id with
  | (fleet, .error fault) => (fleet, .error fault)
  | (fleet, .ok _) =>
      let (outbox, writesCanceled) :=
        fleet.outbox.cancelQueued id "the device was removed from the fleet"
      ({ fleet with outbox := outbox }, .ok ⟨id, writesCanceled⟩)

def addGroup (fleet : LiveFleet) (write : GroupWrite) :
    LiveFleet × Except Refused GroupSummary :=
  match write.id with
  | none =>
      (fleet, .error (.refused
        (.malformed "an added group must state an `id`; the URL does not name one")))
  | some id =>
      let raw := rawOfGroupWrite id write
      let (fleet, res) := fleet.amend newV5 fun document =>
        .ok { document with groups := document.groups ++ [raw] }
      (fleet, res.bind fun resolved => groupSummaryOf resolved id)

def replaceGroup (fleet : LiveFleet) (id : GroupId) (write : GroupWrite) :
    LiveFleet × Except Refused GroupSummary :=
  if write.id.any fun stated => stated ≠ id then
    (fleet, .error (.refused (.malformed ("the body names group '" ++ write.id.getD "" ++
      "' and the path names '" ++ id ++ "'; a replace states the id once"))))
  else
    let raw := rawOfGroupWrite id write
    let (fleet, res) := fleet.amend newV5 fun document =>
      match replaceRawGroup raw document.groups with
      | some groups => .ok { document with groups := groups }
      | none => .error (.unknown ("no group '" ++ id ++ "' is configured"))
    (fleet, res.bind fun resolved => groupSummaryOf resolved id)

/-- Take the group `id` out of the document: the first step of its removal. -/
def takeOutGroup (fleet : LiveFleet) (id : GroupId) : LiveFleet × Except Refused Resolved :=
  fleet.amend newV5 fun document =>
    let groups := document.groups.filter fun group => group.id ≠ id
    if groups.length = document.groups.length then
      .error (.unknown ("no group '" ++ id ++ "' is configured"))
    else .ok { document with groups := groups }

def removeGroup (fleet : LiveFleet) (id : GroupId) : LiveFleet × Except Refused Unit :=
  match fleet.takeOutGroup newV5 id with
  | (fleet, .error fault) => (fleet, .error fault)
  | (fleet, .ok _) => ({ fleet with outbox := fleet.outbox.forgetGroup id }, .ok ())

/-- Adopt the devices file as it was read again: the first step of a reset. -/
def reload (fleet : LiveFleet) (source : Except ConfigError RawConfig) :
    LiveFleet × Except Refused (Resolved × RegistryChange) :=
  match source with
  | .error e =>
      (fleet, .error (.refused (.source ("reading " ++ fleet.configPath ++ ": " ++ e.display))))
  | .ok reloaded =>
      match resolveConfig newV5 reloaded with
      | .error fault => (fleet, .error fault.refusal)
      | .ok resolved =>
          let (fleet, change) := fleet.adopt reloaded resolved
          (fleet, .ok (resolved, change))

def reset (fleet : LiveFleet) (source : Except ConfigError RawConfig) :
    LiveFleet × Except Refused (List DeviceSummary) :=
  match fleet.reload newV5 source with
  | (fleet, .error fault) => (fleet, .error fault)
  | (fleet, .ok (resolved, change)) =>
      let outbox := change.removed.foldl
        (fun outbox id =>
          (outbox.cancelQueued id "the device was removed by an inventory reset").1) fleet.outbox
      ({ fleet with outbox := outbox }, .ok (resolved.devices.map summarize))

end Verbs

end LiveFleet

/-- A request to change the fleet. -/
inductive Change
  | add (write : DeviceWrite)
  | replace (id : DeviceId) (write : DeviceWrite)
  | remove (id : DeviceId)
  | addGroup (write : GroupWrite)
  | replaceGroup (id : GroupId) (write : GroupWrite)
  | removeGroup (id : GroupId)
  /-- With the devices file as it reads now, or why it does not. -/
  | reset (source : Except ConfigError RawConfig)

/-- What became of the request, and whether it was refused. -/
def LiveFleet.change (newV5 : Uuid → List UInt8 → Uuid) (fleet : LiveFleet) :
    Change → LiveFleet × Except Refused Unit
  | .add write => ((fleet.add newV5 write).1, (fleet.add newV5 write).2.map fun _ => ())
  | .replace id write =>
      ((fleet.replace newV5 id write).1, (fleet.replace newV5 id write).2.map fun _ => ())
  | .remove id => ((fleet.remove newV5 id).1, (fleet.remove newV5 id).2.map fun _ => ())
  | .addGroup write =>
      ((fleet.addGroup newV5 write).1, (fleet.addGroup newV5 write).2.map fun _ => ())
  | .replaceGroup id write =>
      ((fleet.replaceGroup newV5 id write).1,
        (fleet.replaceGroup newV5 id write).2.map fun _ => ())
  | .removeGroup id => fleet.removeGroup newV5 id
  | .reset source => ((fleet.reset newV5 source).1, (fleet.reset newV5 source).2.map fun _ => ())

end Sismatic
