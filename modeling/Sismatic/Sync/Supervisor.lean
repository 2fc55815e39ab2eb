import Sismatic.Lib.Watch
import Sismatic.Sync.Driver

/-!
# The supervisor

One task holds the poll loops to the schedule that is published and to the devices that are
registered. Each of the two wakes it through a channel of its own: the schedule travels in its
channel, the fleet is in the registry and its channel carries a generation that nobody reads.

Whoever moves the registry announces it afterwards, so the two may be seen apart. The schedule
in force is the supervisor's own copy, and a change of the fleet does not renew it.

Cancellation, which ends the task, and what it logs are not here.
-/

namespace Sismatic.Sync

open Sismatic.Configuration (FieldSchedule)

/-- What wakes the supervisor. -/
inductive Channel
  | fields
  | fleet
deriving DecidableEq

instance : Fintype Channel where
  elems := {.fields, .fleet}
  complete := by
    intro c
    cases c with
    | fields => exact Finset.mem_insert_self ..
    | fleet => exact Finset.mem_insert_of_mem (Finset.mem_singleton_self _)

/-- What the supervisor keeps. -/
inductive Kept
  | schedule
  | loops
deriving DecidableEq

/-- What the others move. -/
structure Published where
  /-- What the schedule's channel holds. -/
  fields : List FieldSchedule
  registry : Devices.Registry

structure Supervisor where
  /-- The schedule in force. -/
  schedule : List FieldSchedule
  loops : Loops

/-- The loops over the registry as it now is, which they share with everybody. -/
def Loops.over (loops : Loops) (registry : Devices.Registry) : Loops :=
  { loops with registry := registry }

/-- `fields.borrow_and_update().clone()`. -/
def borrowFields : Watch.Chore Channel Kept := ⟨some .fields, some .schedule⟩

/-- `fleet.borrow_and_update()`. -/
def borrowFleet : Watch.Chore Channel Kept := ⟨some .fleet, none⟩

/-- `loops.reconcile(&schedule)`. -/
def reconcileLoops : Watch.Chore Channel Kept := ⟨none, some .loops⟩

/-- What `supervise` does before it waits. -/
def starting : List (Watch.Chore Channel Kept) := [borrowFields, borrowFleet, reconcileLoops]

/-- What it does in the arm of its `select!` that was taken. -/
def woken : Channel → List (Watch.Chore Channel Kept)
  | .fields => [borrowFields, reconcileLoops]
  | .fleet => [borrowFleet, reconcileLoops]

/-- The devices registered, by their ids. -/
def fleetOf (registry : Devices.Registry) : Fleet :=
  registry.devices.foldl (fun fleet device => fleet.insert device.config.id device) ∅

/-- What runs is what the schedule asks of the devices. -/
def Matches (schedule : List FieldSchedule) (registry : Devices.Registry) (loops : Loops) : Prop :=
  ∀ key : Key, loops.running[key]?.map Running.wanted =
    (wantedLoops schedule (fleetOf registry)).1[key]?

/-- `LiveFleet::apply` moves the registry and announces it afterwards. -/
def Moves : Channel → Published → Published → Prop
  | .fields, _, _ => False
  | .fleet, p, p' => ∃ resolved, p' = { p with registry := (p.registry.apply resolved).1 }

/-- A schedule is published in one step with its announcement. -/
def Publishes : Channel → Published → Published → Prop
  | .fields, p, p' => ∃ fields, p' = { p with fields := fields }
  | .fleet, _, _ => False

/-- A pass collects some of the tasks that have ended, and makes the others match. -/
def Does : Kept → Published → Supervisor → Supervisor → Prop
  | .schedule, p, own, own' => own' = { own with schedule := p.fields }
  | .loops, p, own, own' => ∃ ended,
      own' = { own with loops := ((own.loops.over p.registry).reconcile ended own.schedule).1 }

def Right : Kept → Published → Supervisor → Prop
  | .schedule, p, own => own.schedule = p.fields
  | .loops, p, own => Matches own.schedule p.registry own.loops

/-- Another schedule asks for other loops. -/
def Spoils : Kept → Kept → Prop
  | .schedule, .loops => True
  | _, _ => False

/-- `supervise`. -/
def supervise : Watch.Scheme Channel Kept Published Supervisor where
  work := woken
  Moves := Moves
  Publishes := Publishes
  Does := Does
  Right := Right
  Spoils := Spoils

/-- The task is about to run, and has started nothing. -/
structure Starts (s : Watch.State Channel Kept Published Supervisor) : Prop where
  chores : s.chores = starting
  nothing : s.own.loops.running = ∅
  uncanceled : s.own.loops.canceled = []
  behind : ∀ c, s.seen c ≤ s.version c
  opened : ∀ c, s.closed c = false
  watching : ∀ c, s.watching c = true

end Sismatic.Sync
