import Sismatic.Core.AutoDisabled
import Sismatic.Core.Registry

/-!
# The registry, with what its devices have learned

A learned set outlives the device it was learned through: the handle that replaces a device
shares the set of the one before. So a handle has not a set of its own but one of those that
have been made, and two handles over one recorder have the same.
-/

namespace Sismatic.Devices

structure LearningRegistry where
  registry : Registry
  /-- The `Arc<AutoDisabled>` a handle was built with. -/
  sharedBy : Nat → Nat
  /-- What is in it. -/
  learned : Nat → AutoDisabled
  /-- Sets made so far. -/
  madeSets : Nat

namespace LearningRegistry

/-- The set a device shares. -/
def autoDisabled (R : LearningRegistry) (d : Device) : Nat := R.sharedBy d.handle

/-- File a `Device::with_auto_disabled`, sharing this set. -/
def insertWith (R : LearningRegistry) (config : DeviceConfig) (set : Nat) : LearningRegistry :=
  { R with
    registry := R.registry.insert config
    sharedBy := Function.update R.sharedBy R.registry.made set }

/-- File a `Device::new`, with an empty set of its own. -/
def insertNew (R : LearningRegistry) (config : DeviceConfig) : LearningRegistry :=
  { R with
    learned := Function.update R.learned R.madeSets .new
    madeSets := R.madeSets + 1 }.insertWith config R.madeSets

/-- One desired device: the one already there, another in its place, or a new one. -/
def applyOne (acc : LearningRegistry × RegistryChange) (config : DeviceConfig) :
    LearningRegistry × RegistryChange :=
  match acc.1.registry.device config.id with
  | some existing =>
      if existing.config.uuid = config.uuid then
        (acc.1, { acc.2 with unchanged := acc.2.unchanged + 1 })
      else
        (acc.1.insertWith config (acc.1.autoDisabled existing),
          { acc.2 with replaced := acc.2.replaced ++ [config.id] })
  | none => (acc.1.insertNew config, { acc.2 with added := acc.2.added ++ [config.id] })

/-- Make the registry match `resolved`, and report what moved. -/
def apply (R : LearningRegistry) (resolved : Resolved) : LearningRegistry × RegistryChange :=
  let wanted := Registry.desired resolved.devices
  let acc := wanted.foldl applyOne (R, ⟨[], [], [], 0⟩)
  let stays (d : Device) : Bool := (wanted.map (·.id)).contains d.config.id
  let stale := (acc.1.registry.devices.filter fun d => !stays d).map (·.config.id)
  ({ acc.1 with
      registry := { acc.1.registry with
        devices := acc.1.registry.devices.filter stays }.rebuildGroups resolved.groups },
    { acc.2 with
      added := acc.2.added.insertionSort (· ≤ ·)
      replaced := acc.2.replaced.insertionSort (· ≤ ·)
      removed := stale.insertionSort (· ≤ ·) })

/-- `Registry::build`. -/
def build (resolved : Resolved) : LearningRegistry :=
  let filed := resolved.devices.foldl insertNew ⟨⟨[], [], 0⟩, fun _ => 0, fun _ => .new, 0⟩
  { filed with registry := filed.registry.rebuildGroups resolved.groups }

end LearningRegistry

end Sismatic.Devices
