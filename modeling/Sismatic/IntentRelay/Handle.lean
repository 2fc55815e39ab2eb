import Sismatic.Core.SisKeepalive

/-!
# The relay's tasks

One `relay_loop` for each registered device, told by the `uuid` of its configuration. A task
told to stop may go on to settle the write it has claimed, and is not waited for.
-/

namespace Sismatic.IntentRelay

open Devices

abbrev RelayHandle := Rosters.Roster DeviceId Devices.Device Uuid

abbrev RelayChange := Rosters.Change

namespace RelayHandle

/-- Make the running tasks match the registry's current device set. -/
def apply (handle : RelayHandle) (registry : Devices.Registry) : RelayHandle × RelayChange :=
  Rosters.apply Devices.Device.uuid (byId registry.devices) handle

def spawn (registry : Devices.Registry) : RelayHandle := (apply Rosters.Roster.empty registry).1

end RelayHandle

end Sismatic.IntentRelay
