import Sismatic.Core.AutoDisabled
import Sismatic.IntentRelay.Translate
import Sismatic.StoreMemory.Reads

/-!
# What a poll loop does

The loops of one device, one for each field. A loop waits for its next tick, asks its device
unless the field is vetoed, and then counts the answer, judges its own health, and reports and
stores what it was told. Between the asking and the answer any other loop may take its steps;
what they share is the device's record of refusals.

A panic while that record is locked leaves it poisoned, and whoever locks it next panics too.
What the loop logs is here as far as it is decided by what went before. That the store may not
take a call is not.
-/

namespace Sismatic

/-- The device answered, and the answer was a refusal. -/
def Devices.DeviceError.isRefusal : Devices.DeviceError → Bool
  | .command (.rejected _ _) => true
  | _ => false

namespace Sync

open Devices

/-! ## Health -/

/-- A poll result reduced to what the health of a loop distinguishes. -/
inductive Contact
  /-- The device answered. -/
  | reached
  /-- The device answered, and the answer was *no*. -/
  | refused
  /-- We tried to reach it and could not. -/
  | failed
  /-- We did not try: the cold gate is shut. -/
  | gated
  /-- We did not try: the field is vetoed on this device. -/
  | vetoed
deriving DecidableEq, Repr

def Contact.of : Except DeviceError Value → Contact
  | .ok _ => .reached
  | .error (.cold _) => .gated
  | .error (.disabled _ _ _) => .vetoed
  | .error e => if e.isRefusal then .refused else .failed

/-- What one loop believes about its field right now. -/
inductive Health
  | up | down
deriving DecidableEq, Repr

/-- What, if anything, a poll is worth saying out loud. -/
inductive Report
  | silent
  /-- This loop just stopped being able to read its field. -/
  | onset
  | ongoing
  /-- It can again. -/
  | recovery
  | refusal
deriving DecidableEq, Repr

/-- The state machine, as one total function. -/
def step : Health → Contact → Health × Report
  | .up, .reached => (.up, .silent)
  | .up, .failed => (.down, .onset)
  -- another loop's dial has announced it already
  | .up, .gated => (.down, .ongoing)
  | .down, .reached => (.up, .recovery)
  | .down, .failed => (.down, .ongoing)
  | .down, .gated => (.down, .ongoing)
  | health, .refused => (health, .refusal)
  | health, .vetoed => (health, .silent)

/-! ## The loops of one device -/

/-- Where a loop is. -/
inductive LoopPhase
  | waiting
  /-- `device.run` is under way. -/
  | asking
  | ended
deriving DecidableEq, Repr

structure Loop where
  phase : LoopPhase
  health : Health
deriving DecidableEq, Repr

/-- A call to one of the two ports. -/
inductive Call
  | observe (device : DeviceId) (state : RecordingState)
  | upsertLatest (read : Read)
deriving DecidableEq

/-- What the loops of a device are started with. -/
structure Polled where
  config : DeviceConfig
  /-- There is someone to report observed states to. -/
  reconciler : Bool

/-- One outcome taken into account. -/
structure Heard where
  field : FieldName
  now : Instant
  stamp : Timestamp
  outcome : Except DeviceError Value

structure Polling where
  /-- The device's record; `none` when a panic has poisoned it. -/
  learned : Option AutoDisabled
  loops : FieldName → Loop
  /-- The exchanges begun. -/
  asked : List (FieldName × Instant)
  heard : List Heard
  reports : List (FieldName × Report)
  calls : List Call
  clock : Instant

/-- A step of a loop, by the field it polls. -/
inductive Poll
  | tick (field : FieldName) (now : Instant)
  /-- `device.run` returns. -/
  | returned (field : FieldName) (now : Instant) (stamp : Timestamp)
      (outcome : Except DeviceError Value)
  /-- The loop finds itself canceled, which it does between polls. -/
  | canceled (field : FieldName) (now : Instant)

def Poll.now : Poll → Instant
  | .tick _ now => now
  | .returned _ now _ _ => now
  | .canceled _ now => now

/-- The one field whose value the write side reconciles against. -/
def isRunningState (field : FieldName) : Bool := field = Query.runningState.name

namespace Polling

/-- Each loop before its first tick. A bad field name cannot fix itself by retrying. -/
def start (now : Instant) : Polling where
  learned := some .new
  loops := fun field => ⟨if (Query.fromStr field).isSome then .waiting else .ended, .up⟩
  asked := []
  heard := []
  reports := []
  calls := []
  clock := now

def setLoop (w : Polling) (field : FieldName) (loop : Loop) : Polling :=
  { w with loops := Function.update w.loops field loop }

def setPhase (w : Polling) (field : FieldName) (phase : LoopPhase) : Polling :=
  w.setLoop field { w.loops field with phase := phase }

/-- The record after a poll; `none` where the loop panics over it. -/
def tell (instantEnd : Instant) (polled : Polled) (learned : Option AutoDisabled)
    (field : FieldName) (now : Instant) (outcome : Except DeviceError Value) :
    Option (Option AutoDisabled) :=
  match outcome with
  | .ok _ => learned.map fun learned => some (learned.answered field).1
  | .error e =>
      if e.isRefusal then
        if polled.config.autoDisableAfter = 0 then some learned
        else learned.bind fun learned =>
          (learned.refused instantEnd field polled.config.autoDisableAfter
            polled.config.selfHeal now).map fun told => some told.1
      else some learned

/-- Whether the loop ends here: its field is vetoed with no retry. `none` where it panics. -/
def stops (polled : Polled) (learned : Option AutoDisabled) (field : FieldName) (now : Instant) :
    Option Bool :=
  if polled.config.selfHeal.isSome then some false
  else learned.map fun learned => (learned.veto field now).isSome

/-- What is reported and stored of an outcome, in this order. -/
def callsOf (polled : Polled) (heard : Heard) : List Call :=
  match heard.outcome with
  | .error _ => []
  | .ok value =>
      (if polled.reconciler && isRunningState heard.field then
        (value.asState.map (.observe polled.config.id)).toList
      else []) ++
      [.upsertLatest ⟨polled.config.id, heard.field, toDto value, heard.stamp⟩]

/-- A loop that panicked, with the record locked. -/
def panicked (w : Polling) (field : FieldName) : Polling :=
  { w.setPhase field .ended with learned := none }

def tick (w : Polling) (field : FieldName) (now : Instant) : Polling :=
  match (w.loops field).phase, w.learned with
  | .waiting, none => w.panicked field
  | .waiting, some learned =>
      match learned.veto field now with
      | some _ => w
      | none => { w.setPhase field .asking with asked := w.asked ++ [(field, now)] }
  | _, _ => w

/-- An outcome is counted before anything else looks at it, and stored last. -/
def returned (instantEnd : Instant) (polled : Polled) (w : Polling) (heard : Heard) : Polling :=
  if (w.loops heard.field).phase = .asking then
    match tell instantEnd polled w.learned heard.field heard.now heard.outcome with
    | none => w.panicked heard.field
    | some learned =>
        let (health, report) := step (w.loops heard.field).health (.of heard.outcome)
        let w : Polling := { w with
          learned := learned
          heard := w.heard ++ [heard]
          reports := w.reports ++ [(heard.field, report)] }
        match stops polled learned heard.field heard.now with
        | none => (w.setLoop heard.field ⟨.ended, health⟩).panicked heard.field
        | some true => w.setLoop heard.field ⟨.ended, health⟩
        | some false =>
            { w.setLoop heard.field ⟨.waiting, health⟩ with
              calls := w.calls ++ callsOf polled heard }
  else w

def canceled (w : Polling) (field : FieldName) : Polling :=
  if (w.loops field).phase = .waiting then w.setPhase field .ended else w

/-- One step of one of the loops. -/
def poll (instantEnd : Instant) (polled : Polled) (w : Polling) (p : Poll) : Polling :=
  let w := { w with clock := p.now }
  match p with
  | .tick field now => w.tick field now
  | .returned field now stamp outcome => w.returned instantEnd polled ⟨field, now, stamp, outcome⟩
  | .canceled field _ => w.canceled field

end Polling

end Sync

end Sismatic
