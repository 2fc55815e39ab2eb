import Sismatic.IntentRelay.Translate
import Sismatic.StoreMemory.Outbox

/-!
# The intent relay

One task for each device: recover what a previous one left in flight, then claim,
dispatch and settle, one write after another. Every call of the outbox is atomic and
every exchange is not, so a task is modelled as how far it has got (`Phase`), and
the relay as a machine in which any task may take the next step. A step makes one
call of the outbox at most.

The world around it moves too: callers submit, the registry's device set is
replaced, a removed device's queue is cancelled, and the poll driver reports what it
saw. What a device answers is given to the step that asks.
-/

namespace Sismatic

open MemoryOutbox

/-! ## Devices -/

/-- A device handle: its id, and the uuid of the configuration it was built from. -/
structure Device where
  id : DeviceId
  uuid : String
deriving DecidableEq, Repr

/-- The registry's devices, one for each id. -/
structure Registry where
  ids : OrderedSet DeviceId
  uuid : DeviceId → String

/-- `Registry::device`. -/
def Registry.device (registry : Registry) (id : DeviceId) : Option Device :=
  if id ∈ registry.ids then some ⟨id, registry.uuid id⟩ else none

/-- The devices, by id, as `apply` collects them. -/
def Registry.devices (registry : Registry) : List Device :=
  registry.ids.elems.map fun id => ⟨id, registry.uuid id⟩

/-- What `Device::run` answers: a decoded value, or the text of its error. -/
abbrev Reply := Except String Value

/-! ## A task -/

/-- How far a relay task has got. -/
inductive Phase
  /-- About to ask what a previous process left in flight. -/
  | recover
  /-- About to ask the device what it is doing. -/
  | recovering (stranded : List WriteRecord)
  /-- About to claim whatever is next. -/
  | idle
  /-- `dispatch_alone`, about to look at the write. -/
  | alone (record : WriteRecord)
  /-- About to run its instruction. -/
  | exchanging (record : WriteRecord)
  /-- The exchange has begun. -/
  | awaiting (record : WriteRecord)
  /-- `dispatch_batch`, about to translate. -/
  | batch (id : BatchId) (records : List WriteRecord)
  /-- Looking up the members still in `rest`. -/
  | gathering (id : BatchId) (records rest : List WriteRecord)
  /-- The group run has begun. -/
  | running (id : BatchId) (records : List WriteRecord)
  /-- Outcomes to report, one after another. -/
  | settling (outcomes : List (WriteId × Outcome))
  /-- The loop has ended. -/
  | stopped

structure RelayTask where
  device : Device
  cancelled : Bool
  phase : Phase

/-- One device's entry in the handle's table: the uuid its task captured, and the task. -/
structure Running where
  device : String
  task : Nat
deriving DecidableEq, Repr

/-- One run of an instruction that carries writes. -/
inductive Exchange
  | alone (record : WriteRecord)
  | group (batch : BatchId) (records : List WriteRecord)
deriving DecidableEq, Repr

def Exchange.records : Exchange → List WriteRecord
  | .alone record => [record]
  | .group _ records => records

structure World where
  outbox : MemoryOutbox
  registry : Registry
  tasks : List RelayTask
  running : DeviceId → Option Running
  /-- Every exchange begun, oldest first. -/
  exchanges : List Exchange

/-! ## Outcomes -/

/-- `settle_all` with one outcome for each record. -/
def settleAll (records : List WriteRecord) (outcomeFor : WriteRecord → Outcome) :
    List (WriteId × Outcome) := records.map fun record => (record.id, outcomeFor record)

/-- What `dispatch_batch` makes of the group's replies. -/
def groupOutcome (batch : BatchId) (records : List WriteRecord) (reply : DeviceId → Reply)
    (record : WriteRecord) : Outcome :=
  let allOk := records.all fun record => (reply record.device).isOk
  match reply record.device with
  | .ok value =>
      if allOk then .succeeded (toDto value)
      -- a partial failure is surfaced per member: this one did run
      else .succeeded (.ack (record.device ++ " accepted as part of batch " ++ batch))
  | .error e => .failed e

/-- What `recover` decides about one stranded write. -/
def recoverOutcome (intent : Intent) (observed : Option RecordingState) : Outcome :=
  match intent, observed with
  | .setMetadata _ _, _ | .setSetting _ _, _ =>
      .failed ("left in flight by a previous process; replayed, because writing the same " ++
        "value twice is the same as writing it once")
  | _, none => .failed "left in flight by a previous process and the device did not answer"
  | .startRecording, some .started => .succeeded (.state .started)
  | .startRecording, some .paused => .succeeded (.state .paused)
  | .stopRecording, some .stopped => .succeeded (.state .stopped)
  | .pauseRecording, some .paused => .succeeded (.state .paused)
  | _, some _ => .failed ("left in flight by a previous process; the device state does not show " ++
      "the command took effect")

/-- `observe_state`: what the device said it is doing, folded into the desired state. -/
def observeState (o : MemoryOutbox) (device : Device) (reply : DeviceId → Reply) :
    MemoryOutbox × Option RecordingState :=
  match (reply device.id).toOption.bind Value.asState with
  | none => (o, none)
  | some state => (o.observe device.id state, some state)

/-! ## The relay as a machine -/

/-- One step of the world. -/
inductive Act
  | submit (s : Submission)
  /-- `Registry::apply`. -/
  | register (registry : Registry)
  /-- `RelayHandle::apply`. -/
  | apply
  /-- The composition root cancels a removed device's queue. -/
  | cancel (device : DeviceId) (reason : String)
  /-- The poll driver reports a state. -/
  | poll (device : DeviceId) (observed : RecordingState)
  /-- A relay task takes its next step, given what devices answer. -/
  | turn (task : Nat) (now : Timestamp) (reply : DeviceId → Reply)

namespace World

/-- No task yet, over an empty outbox. -/
def init (maxAttempts : Nat) (backoff : Duration) (registry : Registry) : World where
  outbox := withMaxAttempts maxAttempts backoff
  registry := registry
  tasks := []
  running := fun _ => none
  exchanges := []

/-- Whether the task entered for `id` holds a handle the registry no longer hands out. -/
def stale (w : World) (id : DeviceId) (running : Running) : Bool :=
  (w.registry.device id).all fun device => decide (device.uuid ≠ running.device)

/-- Tell the stale tasks to stop, and forget them. -/
def stopStale (w : World) : World :=
  { w with
    tasks := w.tasks.zipIdx.map fun (task, i) =>
      if (w.running task.device.id).any fun running =>
          decide (running.task = i) && w.stale task.device.id running
      then { task with cancelled := true } else task
    running := fun id => (w.running id).filter fun running => !w.stale id running }

/-- Start a task for `device` unless one is running. -/
def startTask (w : World) (device : Device) : World :=
  match w.running device.id with
  | some _ => w
  | none =>
      { w with
        tasks := w.tasks ++ [⟨device, false, .recover⟩]
        running := Function.update w.running device.id (some ⟨device.uuid, w.tasks.length⟩) }

/-- `RelayHandle::apply`. -/
def apply (w : World) : World := w.registry.devices.foldl startTask w.stopStale

/-- The task at `i`, moved on to `phase`. -/
def goto (w : World) (i : Nat) (task : RelayTask) (phase : Phase) : World :=
  { w with tasks := w.tasks.set i { task with phase := phase } }

def withOutbox (w : World) (o : MemoryOutbox) : World := { w with outbox := o }

/-- `relay_loop`, one step of it. -/
def turn (c : Chrono) (w : World) (i : Nat) (now : Timestamp) (reply : DeviceId → Reply) :
    World :=
  match w.tasks[i]? with
  | none => w
  | some task =>
      match task.phase with
      | .recover =>
          match w.outbox.inFlight task.device.id with
          | [] => w.goto i task .idle
          | stranded => w.goto i task (.recovering stranded)
      | .recovering stranded =>
          let (o, observed) := observeState w.outbox task.device reply
          (w.withOutbox o).goto i task
            (.settling (settleAll stranded fun record => recoverOutcome record.intent observed))
      | .idle =>
          if task.cancelled then w.goto i task .stopped
          else
            let (o, res) := w.outbox.claimNext c task.device.id now
            match res with
            | .ok (some (.one record)) => (w.withOutbox o).goto i task (.alone record)
            | .ok (some (.batch id records)) => (w.withOutbox o).goto i task (.batch id records)
            | _ => w.withOutbox o
      | .alone record =>
          match record.intent with
          | .setMetadata _ _ =>
              -- a recording may have started at the front panel since admission
              let (o, observed) := observeState w.outbox task.device reply
              (w.withOutbox o).goto i task
                (if observed.any RecordingState.isRecording then
                  .settling [(record.id, .failed
                    "a recording was in progress when this write reached the device")]
                else .exchanging record)
          | _ => w.goto i task (.exchanging record)
      | .exchanging record =>
          match toInstruction record.intent with
          | .error e => w.goto i task (.settling [(record.id, .failed e.display)])
          | .ok _ =>
              { w.goto i task (.awaiting record) with
                exchanges := w.exchanges ++ [.alone record] }
      | .awaiting record =>
          let outcome : Outcome :=
            match reply task.device.id with
            | .ok value => .succeeded (toDto value)
            | .error e => .failed e
          w.goto i task (.settling [(record.id, outcome)])
      | .batch id records =>
          match records with
          | [] => w.goto i task .idle
          | first :: _ =>
              match toInstruction first.intent with
              | .error e => w.goto i task (.settling (settleAll records fun _ => .failed e.display))
              | .ok _ => w.goto i task (.gathering id records records)
      | .gathering id records rest =>
          match rest with
          | record :: rest =>
              match w.registry.device record.device with
              | some _ => w.goto i task (.gathering id records rest)
              | none =>
                  w.goto i task (.settling (settleAll records fun _ =>
                    .failed ("member '" ++ record.device ++ "' is not in the registry")))
          | [] =>
              { w.goto i task (.running id records) with
                exchanges := w.exchanges ++ [.group id records] }
      | .running id records =>
          w.goto i task (.settling (settleAll records (groupOutcome id records reply)))
      | .settling outcomes =>
          match outcomes with
          | [] => w.goto i task .idle
          | (id, outcome) :: outcomes =>
              (w.withOutbox (w.outbox.settle c id outcome now).1).goto i task (.settling outcomes)
      | .stopped => w

def step (c : Chrono) (w : World) : Act → World
  | .submit s => w.withOutbox (w.outbox.submit s).1
  | .register registry => { w with registry := registry }
  | .apply => w.apply
  | .cancel device reason => w.withOutbox (w.outbox.cancelQueued device reason).1
  | .poll device observed => w.withOutbox (w.outbox.observe device observed)
  | .turn task now reply => w.turn c task now reply

end World

end Sismatic
