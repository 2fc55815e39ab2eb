import Sismatic.HttpApi.FleetGroupReads

/-!
# What the overview fetches

The two fleet routes, each walked along `next` to its last page before anything is drawn. The
server goes on working in between, so what answers is a matter of which request it is. An aborted
fetch answers nobody and is not here.
-/

namespace Sismatic

/-- One page of a fleet route, unwrapped. -/
structure FleetPage (T : Type) where
  rows : List T
  next : Option String

/-- Guards against a server that kept returning a `next` for ever. -/
def maxPages : Nat := 100

section Collect

variable {T ε : Type} (fetchPage : Nat → Option String → Except ε (FleetPage T))

/-- The rounds of the loop that are left, the next of them sending the `n`th request. -/
def collectRounds : Nat → Nat → Option String → List T → Except ε (List T)
  | 0, _, _, rows => .ok rows
  | left + 1, n, after, rows =>
      match fetchPage n after with
      | .error e => .error e
      | .ok page =>
          let rows := rows ++ page.rows
          -- an empty page with a `next` would otherwise spin to the last round
          if page.next.isNone || page.rows.isEmpty then .ok rows
          else collectRounds left (n + 1) page.next rows

/-- Walks `next` to the last page and concatenates the rows, in page order. -/
def collectPages : Except ε (List T) := collectRounds fetchPage maxPages 0 none []

end Collect

/-- What a server has at hand when a request reaches it. -/
structure Answering where
  catalogs : Nat → MemoryCatalog
  stores : Nat → MemoryStore
  outboxes : Nat → GroupOutbox

namespace Answering

/-- A page of devices, asked for with nothing but the cursor. -/
def devicesPage (server : Answering) (n : Nat) (after : Option DeviceId) :
    Except (Devices.Fault ApiFailure) (FleetPage DeviceReads) :=
  (listFleet (server.stores n) ⟨none, none, none, none, none, after⟩ (server.catalogs n)).map
    fun data => ⟨data.devices, data.next⟩

def groupsPage (server : Answering) (n : Nat) (after : Option GroupId) :
    Except (Devices.Fault ApiFailure) (FleetPage GroupFieldStateList) :=
  (FleetGroups.listFleetGroups
      (groupStateOf (server.catalogs n) (server.stores n) (server.outboxes n))
      ⟨none, none, none, none, none, after⟩ (server.catalogs n)).map
    fun data => ⟨data.groups, data.next⟩

def useDevices (server : Answering) : Except (Devices.Fault ApiFailure) (List DeviceReads) :=
  collectPages server.devicesPage

def useGroups (server : Answering) : Except (Devices.Fault ApiFailure) (List GroupFieldStateList) :=
  collectPages server.groupsPage

end Answering

end Sismatic
