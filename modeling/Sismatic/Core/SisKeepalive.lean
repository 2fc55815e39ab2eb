import Sismatic.Core.Registry
import Sismatic.Lib.Roster

/-!
# Keeping connections warm

One task for each eager device, which opens its connection and keeps it from idling out. An
edited device is another device, so a task holds on to one that may have been replaced: the
`uuid` of the configuration it was started for tells.

What a task does between its start and its end is not here. A task that ends of itself stays on
the roster.
-/

namespace Sismatic.Devices

/-- Devices by their ids, the last one of an id. -/
def byId (devices : List Device) : Std.TreeMap DeviceId Device :=
  devices.foldl (fun fleet device => fleet.insert device.config.id device) ∅

/-- The tasks, by the ids of their devices. -/
abbrev SisKeepalive := Rosters.Roster DeviceId Device Uuid

abbrev KeepaliveChange := Rosters.Change

/-- The `uuid` that a device has of its configuration. -/
def Device.uuid (device : Device) : Uuid := device.config.uuid

namespace SisKeepalive

/-- Make the running tasks match `devices`, and report what moved. -/
def apply (keepalive : SisKeepalive) (devices : List Device) : SisKeepalive × KeepaliveChange :=
  Rosters.apply Device.uuid (byId (devices.filter fun device => device.config.eager)) keepalive

/-- A task for every eager device. -/
def spawn (devices : List Device) : SisKeepalive := (apply Rosters.Roster.empty devices).1

end SisKeepalive

end Sismatic.Devices
