import Sismatic.Core.Config

/-!
# The registry

The devices and groups the process holds. A device is a handle, shared by everything
that addresses it, over the configuration it was built from; a new configuration is a
new handle. What a device has learned about its recorder travels with the handle and is
not modelled.
-/

namespace Sismatic.Devices

/-- An `Arc<Device>`: which one, and what it was built from. -/
structure Device where
  handle : Nat
  config : DeviceConfig
deriving DecidableEq

structure DeviceGroup where
  id : GroupId
  devices : List Device
deriving DecidableEq

/-- What one pass of `Registry::apply` did. -/
structure RegistryChange where
  added : List DeviceId
  replaced : List DeviceId
  removed : List DeviceId
  unchanged : Nat
deriving DecidableEq, Repr

structure Registry where
  /-- Filed under their ids, one for each. -/
  devices : List Device
  groups : List DeviceGroup
  /-- Handles made so far. -/
  made : Nat

namespace Registry

def device (r : Registry) (id : DeviceId) : Option Device :=
  r.devices.find? fun d => d.config.id = id

def group (r : Registry) (id : GroupId) : Option DeviceGroup :=
  r.groups.find? fun g => g.id = id

/-- File a new handle over `config` in place of whatever its id had. -/
def insert (r : Registry) (config : DeviceConfig) : Registry :=
  { r with
    devices := ⟨r.made, config⟩ :: r.devices.filter fun d => d.config.id ≠ config.id
    made := r.made + 1 }

/-- The resolved devices, one for each id, in the order of their ids. -/
def desired (configs : List DeviceConfig) : List DeviceConfig :=
  (OrderedSet.ofList (configs.map (·.id))).elems.filterMap fun id =>
    configs.reverse.find? fun config => config.id = id

/-- One desired device: the one already there, another in its place, or a new one. -/
def applyOne (acc : Registry × RegistryChange) (config : DeviceConfig) :
    Registry × RegistryChange :=
  match acc.1.device config.id with
  | some existing =>
      if existing.config.uuid = config.uuid then
        (acc.1, { acc.2 with unchanged := acc.2.unchanged + 1 })
      else (acc.1.insert config, { acc.2 with replaced := acc.2.replaced ++ [config.id] })
  | none => (acc.1.insert config, { acc.2 with added := acc.2.added ++ [config.id] })

/-- A group over the devices now registered. -/
def groupOf (r : Registry) (group : GroupConfig) : DeviceGroup :=
  ⟨group.id, group.deviceIds.filterMap r.device⟩

/-- Replace every group with one built over the devices now registered. -/
def rebuildGroups (r : Registry) (groups : List GroupConfig) : Registry :=
  { r with
    groups := groups.foldl
      (fun built group => r.groupOf group :: built.filter fun g => g.id ≠ group.id) [] }

/-- Make the registry match `resolved`, and report what moved. -/
def apply (r : Registry) (resolved : Resolved) : Registry × RegistryChange :=
  let wanted := desired resolved.devices
  let acc := wanted.foldl applyOne (r, ⟨[], [], [], 0⟩)
  let stays (d : Device) : Bool := (wanted.map (·.id)).contains d.config.id
  let stale := (acc.1.devices.filter fun d => !stays d).map (·.config.id)
  ({ acc.1 with devices := acc.1.devices.filter stays }.rebuildGroups resolved.groups,
    { acc.2 with
      added := acc.2.added.insertionSort (· ≤ ·)
      replaced := acc.2.replaced.insertionSort (· ≤ ·)
      removed := stale.insertionSort (· ≤ ·) })

/-- `Registry::build`. -/
def build (devices : List DeviceConfig) (groups : List GroupConfig) : Registry :=
  (devices.foldl insert ⟨[], [], 0⟩).rebuildGroups groups

end Registry

end Sismatic.Devices
