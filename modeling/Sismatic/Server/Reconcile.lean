import Sismatic.IntentRelay.Handle
import Sismatic.Lib.Watch

/-!
# The fleet reconciler

One task owns the relay's tasks and the keepalive's, and holds both to the registered devices.
Both are built before it is spawned, and it looks at the generation for the first time when it
runs, without looking at the registry: what is announced before that wakes it no more.

Its shutdown is not here.
-/

namespace Sismatic.Server

open Devices IntentRelay

/-- The generation is all that wakes it. -/
inductive Wakes
  | generation
deriving DecidableEq

instance : Fintype Wakes where
  elems := {.generation}
  complete := by
    intro c
    cases c
    exact Finset.mem_singleton_self _

inductive Tasks
  | relay
  | keepalive
deriving DecidableEq

/-- What it owns. -/
structure Handles where
  relay : RelayHandle
  keepalive : SisKeepalive

/-- `generation.borrow_and_update()`, and what `subscribe` starts from. -/
def borrowGeneration : Watch.Chore Wakes Tasks := ⟨some .generation, none⟩

/-- `relay.apply()`. -/
def applyRelay : Watch.Chore Wakes Tasks := ⟨none, some .relay⟩

/-- `keepalive.apply(registry.devices())`. -/
def applyKeepalive : Watch.Chore Wakes Tasks := ⟨none, some .keepalive⟩

/-- What `run` does to build the two, `subscribe` and the task's own first look. -/
def building : List (Watch.Chore Wakes Tasks) :=
  [applyKeepalive, applyRelay, borrowGeneration, borrowGeneration]

/-- What `reconcile` does when the generation has moved. -/
def regenerated : List (Watch.Chore Wakes Tasks) := [borrowGeneration, applyRelay, applyKeepalive]

/-- One of the two is applied to the devices registered. -/
def Does : Tasks → Devices.Registry → Handles → Handles → Prop
  | .relay, registry, own, own' =>
      own' = { own with relay := (RelayHandle.apply own.relay registry).1 }
  | .keepalive, registry, own, own' =>
      own' = { own with keepalive := (SisKeepalive.apply own.keepalive registry.devices).1 }

/-- The tasks are for the devices wanted, as they are configured. -/
def Kept (tasks : Rosters.Roster DeviceId Devices.Device Uuid) (devices : List Devices.Device) :
    Prop :=
  ∀ id : DeviceId, (tasks.running[id]?).map Rosters.Task.version =
    ((byId devices)[id]?).map Devices.Device.uuid

def Right : Tasks → Devices.Registry → Handles → Prop
  | .relay, registry, own => Kept own.relay registry.devices
  | .keepalive, registry, own =>
      Kept own.keepalive (registry.devices.filter fun device => device.config.eager)

/-- `reconcile`. -/
def reconcile : Watch.Scheme Wakes Tasks Devices.Registry Handles where
  work := fun _ => regenerated
  Moves := fun _ registry registry' => ∃ resolved, registry' = (registry.apply resolved).1
  Publishes := fun _ _ _ => False
  Does := Does
  Right := Right
  Spoils := fun _ _ => False

/-- Nothing has been built yet. -/
structure Starts (s : Watch.State Wakes Tasks Devices.Registry Handles) : Prop where
  chores : s.chores = building
  relay : s.own.relay = Rosters.Roster.empty
  keepalive : s.own.keepalive = Rosters.Roster.empty
  behind : ∀ c, s.seen c ≤ s.version c
  announced : ∀ c, s.unannounced c = 0
  opened : ∀ c, s.closed c = false
  watching : ∀ c, s.watching c = true

end Sismatic.Server
