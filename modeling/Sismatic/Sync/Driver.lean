import Std.Data.TreeSet
import Sismatic.Core.Registry
import Sismatic.Server.Dynamic

/-!
# The poll loops

Which poll loops run: one for each field and device that the schedule asks for, the device is
there for, and the device does not decline. The table is made to match whenever either side
changes, a pair at a time, and what was right already goes on under its token.

What a loop does between its start and its end is not here. A loop that ends of itself stays
in the table.
-/

namespace Sismatic.Sync

open Devices
open Sismatic.Configuration (FieldSchedule)

/-! ## The table -/

/-- What identifies one poll loop: the field it polls and the device it polls. -/
abbrev Key := FieldName × DeviceId

/-- By field, and by device under one field. -/
def compareKeys : Key → Key → Ordering := compareLex (compareOn Prod.fst) (compareOn Prod.snd)

abbrev KeyMap (α : Type) := Std.TreeMap Key α compareKeys

/-- The devices by their ids. -/
abbrev Fleet := Std.TreeMap DeviceId Devices.Device

/-- A `CancellationToken`, by when it was made. -/
abbrev Token := Nat

/-- A running loop, and what it was started against. -/
structure Running where
  interval : Duration
  /-- The `uuid` of the device config it was started for. -/
  device : Uuid
  cancel : Token
deriving DecidableEq

/-- What a pair should be running. -/
structure Wanted where
  interval : Duration
  device : Uuid
deriving DecidableEq

def Running.wanted (running : Running) : Wanted := ⟨running.interval, running.device⟩

/-- A spawned `poll_loop`, by its arguments. -/
structure PollLoop where
  device : Devices.Device
  field : FieldName
  interval : Duration
  cancel : Token
deriving DecidableEq

structure Loops where
  registry : Devices.Registry
  tasks : List PollLoop
  running : KeyMap Running
  /-- The tokens that have been canceled. -/
  canceled : List Token
  /-- Tokens made so far. -/
  made : Nat

/-- What one pass did. -/
structure Change where
  started : Nat
  stopped : Nat
  /-- Same device, different interval. -/
  retimed : Nat
  /-- Same id, different device. -/
  rebound : Nat
  /-- How many pairs the schedule named and a device declined. -/
  declined : Nat
deriving DecidableEq, Repr

/-! ## What should run -/

/-- One device that a scheduled field meets. -/
def wantOn (name : FieldName) (interval : Duration) (acc : KeyMap Wanted × Nat)
    (device : DeviceId × Devices.Device) : KeyMap Wanted × Nat :=
  if name ∈ device.2.config.disabledFields then (acc.1, acc.2 + 1)
  else (acc.1.insert (name, device.1) ⟨interval, device.2.config.uuid⟩, acc.2)

/-- One entry of the schedule, on every device. -/
def wantField (fleet : Fleet) (acc : KeyMap Wanted × Nat) (entry : FieldSchedule) :
    KeyMap Wanted × Nat :=
  match entry.interval with
  -- never: the field stays listed and no loop is started
  | none => acc
  | some interval => fleet.toList.foldl (wantOn entry.name interval) acc

/-- Every pair that should have a loop, and how many the devices declined. -/
def wantedLoops (schedule : List FieldSchedule) (fleet : Fleet) : KeyMap Wanted × Nat :=
  schedule.foldl (wantField fleet) (∅, 0)

/-- What the wanted state means for the loop that may be running a pair. -/
inductive Action
  /-- Running as wanted, or absent from both. -/
  | leave
  | start
  | stop
  /-- Running against the right device at the wrong interval. -/
  | retime
  /-- Running against a device the registry no longer hands out. -/
  | rebind
deriving DecidableEq, Repr

/-- The whole of the diff. The device is compared before the interval. -/
def act (running wanted : Option Wanted) : Action :=
  match running, wanted with
  | none, none => .leave
  | none, some _ => .start
  | some _, none => .stop
  | some now, some next =>
      if now.device ≠ next.device then .rebind
      else if now.interval = next.interval then .leave
      else .retime

/-! ## Making it so -/

namespace Loops

/-- Start one loop for one pair, under a token of its own. -/
def start (loops : Loops) (key : Key) (device : Devices.Device) (want : Wanted) : Loops :=
  { loops with
    tasks := loops.tasks ++ [⟨device, key.1, want.interval, loops.made⟩]
    running := loops.running.insert key ⟨want.interval, want.device, loops.made⟩
    made := loops.made + 1 }

/-- Signal one pair's loop to stop, and forget it. -/
def stop (loops : Loops) (key : Key) : Loops :=
  match loops.running[key]? with
  | none => loops
  | some running =>
      { loops with
        running := loops.running.erase key
        canceled := loops.canceled ++ [running.cancel] }

/-- `registry.devices()`, collected by id. -/
def fleet (loops : Loops) : Fleet :=
  loops.registry.devices.foldl (fun fleet device => fleet.insert device.config.id device) ∅

/-- One pair that either side mentions. -/
def visit (wanted : KeyMap Wanted) (fleet : Fleet) (acc : Loops × Change) (key : Key) :
    Loops × Change :=
  let want := wanted[key]?
  let current := acc.1.running[key]?.map Running.wanted
  match act current want with
  | .leave => acc
  | .stop => (acc.1.stop key, { acc.2 with stopped := acc.2.stopped + 1 })
  | .start =>
      match want, fleet[key.2]? with
      | some want, some device =>
          (acc.1.start key device want, { acc.2 with started := acc.2.started + 1 })
      | _, _ => acc
  | .retime =>
      match want, fleet[key.2]? with
      | some want, some device =>
          ((acc.1.stop key).start key device want, { acc.2 with retimed := acc.2.retimed + 1 })
      | _, _ => acc
  | .rebind =>
      match want, fleet[key.2]? with
      | some want, some device =>
          ((acc.1.stop key).start key device want, { acc.2 with rebound := acc.2.rebound + 1 })
      | _, _ => acc

/-- Every pair either side mentions. -/
def named (loops : Loops) (wanted : KeyMap Wanted) : List Key :=
  (Std.TreeSet.ofList (wanted.keys ++ loops.running.keys) compareKeys).toList

/-- Make what is running match `schedule`. The tasks under these tokens have ended before. -/
def reconcile (loops : Loops) (ended : List Token) (schedule : List FieldSchedule) :
    Loops × Change :=
  let loops := { loops with tasks := loops.tasks.filter fun task => task.cancel ∉ ended }
  let (wanted, declined) := wantedLoops schedule loops.fleet
  (loops.named wanted).foldl (visit wanted loops.fleet) (loops, ⟨0, 0, 0, 0, declined⟩)

end Loops

end Sismatic.Sync
