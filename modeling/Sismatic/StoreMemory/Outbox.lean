import Sismatic.Store
import Sismatic.Lib.OrderedSet
import Mathlib.Logic.Function.Basic

/-!
# The in-memory outbox

`MemoryOutbox` of `sismatic-store-memory`, operation by operation. Every operation
takes the one mutex for its whole body, so each is a function from the state before
to the state after and what the caller is answered.

A device no one has written to has no entry in the source's `logs`; every reader
treats that as the default log, so `logs` is a total function here and the
`or_default` insertions leave no trace.
-/

namespace Sismatic

/-! ## Clocks -/

/--
What the outbox uses of the `chrono` crate. Instants are nanoseconds since the
epoch; `add` answers `none` where the addition panics.
-/
structure Chrono where
  /-- `DateTime::parse_from_rfc3339`. -/
  parseFromRfc3339 : String → Option Int
  /-- `DateTime + Duration`. -/
  add : Int → Duration → Option Int
  /-- `to_rfc3339_opts(SecondsFormat::Millis, true)` of an instant in UTC. -/
  toRfc3339 : Int → String

/-- `chrono::Duration::from_std`: refused above `i64::MAX` milliseconds. -/
def fromStd (delay : Duration) : Option Duration :=
  if delay ≤ 9223372036854775807 * 1000000 then some delay else none

/-- `Duration * u32`, `none` where it panics. -/
def mulDuration (delay : Duration) (n : Nat) : Option Duration :=
  if delay * n < 2 ^ 64 * 1000000000 then some (delay * n) else none

/-- `at` plus `delay`, or `at` unchanged if it is not a timestamp this can parse. -/
def delayFrom (c : Chrono) (now : Timestamp) (delay : Duration) : Option Timestamp :=
  match c.parseFromRfc3339 now.str with
  | none => some now
  | some parsed =>
      match fromStd delay with
      | none => some now
      | some delay => (c.add parsed delay).map fun t => ⟨c.toRfc3339 t⟩

/-- Whether the deadline has passed by `now`; `some false` when either instant is unreadable. -/
def elapsedPast (c : Chrono) (armedAt : Timestamp) (timeout : Duration) (now : Timestamp) :
    Option Bool :=
  match c.parseFromRfc3339 armedAt.str, c.parseFromRfc3339 now.str with
  | some armed, some now =>
      match fromStd timeout with
      | none => some false
      | some timeout => (c.add armed timeout).map fun deadline => decide (deadline < now)
  | _, _ => some false

/-! ## State -/

/-- One device's write-side state and queue. -/
structure DeviceLog where
  desiredRecordingState : DesiredRecordingState
  epoch : Nat
  /-- Ids awaiting dispatch, oldest first. -/
  queue : List WriteId
  /-- Every id ever admitted for this device, in submission order. -/
  history : List WriteId
  /-- Idempotency key to the write it first produced. -/
  keys : String → Option WriteId

/-- An unknown device is idle at epoch 0. -/
def DeviceLog.default : DeviceLog where
  desiredRecordingState := .idle
  epoch := 0
  queue := []
  history := []
  keys := fun _ => none

/-- Where a batch's rendezvous has got to. -/
inductive Gate
  /-- Still filling. -/
  | waiting
  /-- Resolved by dispatch. Later arrivals dispatch alone. -/
  | opened
  /-- Resolved by timeout under `failBatch`. Later arrivals are failed. -/
  | abandoned
deriving DecidableEq, Repr

/-- A batch's readiness. -/
structure Batch where
  members : OrderedSet DeviceId
  ready : OrderedSet DeviceId
  armedAt : Timestamp
  barrier : BarrierPolicy
  gate : Gate

/-- The mutex-guarded maps, the records beside them, and the two retry knobs. -/
structure MemoryOutbox where
  logs : DeviceId → DeviceLog
  batches : BatchId → Option Batch
  groups : GroupId → FieldName → Option GroupExpectation
  records : WriteId → Option WriteRecord
  maxAttempts : Nat
  backoff : Duration

/-- How a drain call fails: the port's error, or an unwound call. -/
inductive DrainError
  | backend (what : String)
  | panicked
deriving DecidableEq, Repr

namespace MemoryOutbox

/-- `with_max_attempts(n).with_backoff(backoff)`. A `0` is read as `1`. -/
def withMaxAttempts (maxAttempts : Nat) (backoff : Duration) : MemoryOutbox where
  logs := fun _ => DeviceLog.default
  batches := fun _ => none
  groups := fun _ _ => none
  records := fun _ => none
  maxAttempts := max maxAttempts 1
  backoff := backoff

def setLog (o : MemoryOutbox) (device : DeviceId) (log : DeviceLog) : MemoryOutbox :=
  { o with logs := Function.update o.logs device log }

def setRecord (o : MemoryOutbox) (id : WriteId) (record : WriteRecord) : MemoryOutbox :=
  { o with records := Function.update o.records id (some record) }

def setBatch (o : MemoryOutbox) (id : BatchId) (batch : Option Batch) : MemoryOutbox :=
  { o with batches := Function.update o.batches id batch }

/-! ## Submission -/

/-- Every row of `batch`, as acceptances: each member's newest row of it, in member order. -/
def batchAcceptances (o : MemoryOutbox) (batch : BatchId) : List Accepted :=
  match o.batches batch with
  | none => []
  | some entry =>
      (entry.members.elems.filterMap fun device =>
        ((o.logs device).history.reverse.filterMap o.records).find?
          fun r => decide (r.batch = some batch)).map
        fun r => ⟨r.id, r.device, r.epoch⟩

/-- The idempotency lookup, keyed off the first target. -/
def replayed (o : MemoryOutbox) (s : Submission) : Option Acceptance := do
  let key ← s.idempotencyKey
  let target ← s.targets.head?
  let existing ← (o.logs target).keys key
  let first ← o.records existing
  some {
    batch := first.batch
    writes :=
      match first.batch with
      | some batch => o.batchAcceptances batch
      | none => [⟨first.id, first.device, first.epoch⟩] }

/-- One admitted target: the id it gets, and what admission decided for it. -/
structure Row where
  id : WriteId
  device : DeviceId
  before : DesiredRecordingState
  after : DesiredRecordingState
  epoch : Nat
deriving DecidableEq, Repr

def Row.accepted (row : Row) : Accepted := ⟨row.id, row.device, row.epoch⟩

/-- Admit every target before recording anything; the first refusal answers for all. -/
def admitAll (o : MemoryOutbox) (verb : Verb) :
    List (WriteId × DeviceId) → Except SubmitError (List Row)
  | [] => .ok []
  | (id, device) :: rest =>
      let log := o.logs device
      let before := log.desiredRecordingState
      match admitVerb before verb with
      | .error rejection => .error (.rejected device rejection before)
      | .ok after =>
          match admitAll o verb rest with
          | .error e => .error e
          | .ok rows => .ok (⟨id, device, before, after, epochOf before after log.epoch⟩ :: rows)

/-- The record a row is filed under. -/
def Row.record (s : Submission) (row : Row) : WriteRecord where
  id := row.id
  device := row.device
  intent := s.intent
  batch := s.batch
  epoch := row.epoch
  status := .pending
  attempts := 0
  enqueuedAt := s.atTime
  updatedAt := s.atTime
  notBefore := s.atTime

/-- A device's log with `row` appended. -/
def DeviceLog.push (log : DeviceLog) (key : Option String) (row : Row) : DeviceLog where
  desiredRecordingState := row.after
  epoch := if opensRecording row.before row.after then row.epoch else log.epoch
  queue := log.queue ++ [row.id]
  history := log.history ++ [row.id]
  keys :=
    match key with
    | some key => Function.update log.keys key (some row.id)
    | none => log.keys

/-- Record one row: the record first, then the queue that names it. -/
def appendRow (s : Submission) (o : MemoryOutbox) (row : Row) : MemoryOutbox :=
  (o.setRecord row.id (row.record s)).setLog row.device
    (DeviceLog.push (o.logs row.device) s.idempotencyKey row)

/-- File what the group was told. -/
def expectGroup (s : Submission) (o : MemoryOutbox) : MemoryOutbox :=
  match s.group with
  | none => o
  | some group =>
      let (field, value) := expects s.intent
      { o with
        groups := Function.update o.groups group
          (Function.update (o.groups group) field (some ⟨field, value, s.atTime⟩)) }

/-- The batch a submission arms. The policy defaults to failing after fifteen seconds. -/
def armedBatch (s : Submission) : Batch where
  members := OrderedSet.ofList s.targets
  ready := OrderedSet.empty
  armedAt := s.atTime
  barrier := s.barrier.getD ⟨15 * 1000000000, .failBatch⟩
  gate := .waiting

/-- Arm the rendezvous. -/
def armBatch (s : Submission) (o : MemoryOutbox) : MemoryOutbox :=
  match s.batch with
  | none => o
  | some batch => o.setBatch batch (some (armedBatch s))

/-- `WriteSubmit::submit`. -/
def submit (o : MemoryOutbox) (s : Submission) :
    MemoryOutbox × Except SubmitError Acceptance :=
  if s.targets = [] then (o, .error (.malformed "no targets"))
  else if s.ids.length ≠ s.targets.length then
    (o, .error (.malformed
      (toString s.ids.length ++ " ids for " ++ toString s.targets.length ++ " targets")))
  else
    match o.replayed s with
    | some acceptance => (o, .ok acceptance)
    | none =>
        match o.admitAll (Verb.of s.intent) (s.ids.zip s.targets) with
        | .error e => (o, .error e)
        | .ok rows =>
            (armBatch s (expectGroup s (rows.foldl (appendRow s) o)),
              .ok ⟨s.batch, rows.map Row.accepted⟩)

/-! ## Draining -/

/-- Pop `device`'s head and mark it in flight. -/
def claimHead (o : MemoryOutbox) (device : DeviceId) (now : Timestamp) :
    MemoryOutbox × Except DrainError (Option WriteRecord) :=
  let log := o.logs device
  match log.queue with
  | [] => (o, .ok none)
  | id :: queue =>
      let o := o.setLog device { log with queue := queue }
      match o.records id with
      | none => (o, .error (.backend "a queued id has no record behind it"))
      | some record =>
          let record := { record with
            status := .inFlight, attempts := record.attempts + 1, updatedAt := now }
          (o.setRecord id record, .ok (some record))

/-- Claim the head of every released member, in order. -/
def claimAll (o : MemoryOutbox) (now : Timestamp) :
    List DeviceId → MemoryOutbox × Except DrainError (List WriteRecord)
  | [] => (o, .ok [])
  | member :: rest =>
      match o.claimHead member now with
      | (o, .error e) => (o, .error e)
      | (o, .ok claimed) =>
          match claimAll o now rest with
          | (o, .error e) => (o, .error e)
          | (o, .ok records) => (o, .ok (claimed.toList ++ records))

/-- Fail `device`'s head row outright, without a dispatch and without spending a retry. -/
def failHead (o : MemoryOutbox) (now : Timestamp) (device : DeviceId) : MemoryOutbox :=
  let log := o.logs device
  match log.queue with
  | [] => o
  | id :: queue =>
      match o.records id with
      | none => o.setLog device { log with queue := queue }
      | some record =>
          (o.setRecord id { record with
            status := .failed "the group barrier expired before every member was ready"
            updatedAt := now }).setLog device { log with
              queue := queue
              desiredRecordingState := rollback log.desiredRecordingState (Verb.of record.intent) }

/-- Whether `member`'s batched row is at the head of its queue and due. -/
def isReadyFor (o : MemoryOutbox) (member : DeviceId) (batch : BatchId) (now : Timestamp) : Bool :=
  match (o.logs member).queue.head? with
  | none => false
  | some head =>
      match o.records head with
      | none => false
      | some record => decide (record.batch = some batch) && decide (record.notBefore.str ≤ now.str)

/-- What evaluating a batched head decided. -/
inductive BatchStep
  /-- Not everyone is here and the barrier has not expired. -/
  | wait
  /-- Dispatch these members as one group run. -/
  | release (members : List DeviceId)
  /-- Dispatch this member on its own. -/
  | alone
  /-- Fail these members' rows without contacting anything. -/
  | fail (members : List DeviceId)
deriving DecidableEq, Repr

/-- The gate a step leaves the batch at. -/
def BatchStep.gate : BatchStep → Gate
  | .wait => .waiting
  | .release _ => .opened
  | .alone => .opened
  | .fail _ => .abandoned

/-- Re-evaluate the barrier and decide what this tick does. -/
def stepBatch (c : Chrono) (o : MemoryOutbox) (id : BatchId) (device : DeviceId)
    (now : Timestamp) : MemoryOutbox × Except DrainError BatchStep :=
  match o.batches id with
  -- a batched row whose rendezvous has vanished must not go out on its own
  | none => (o, .ok .wait)
  | some batch =>
      match batch.gate with
      | .opened => (o, .ok .alone)
      | .abandoned => (o, .ok (.fail [device]))
      | .waiting =>
          let ready := batch.members.filter fun member => o.isReadyFor member id now
          let resolve (step : BatchStep) : MemoryOutbox × Except DrainError BatchStep :=
            (o.setBatch id (some { batch with ready := ready, gate := step.gate }), .ok step)
          if ready = batch.members then resolve (.release ready.elems)
          else
            match elapsedPast c batch.armedAt batch.barrier.timeout now with
            | none => (o, .error .panicked)
            | some false => resolve .wait
            | some true =>
                match batch.barrier.onTimeout with
                | .dispatchReady => resolve (.release ready.elems)
                | .failBatch => resolve (.fail ready.elems)

/-- `WriteDrain::claim_next`. -/
def claimNext (c : Chrono) (o : MemoryOutbox) (device : DeviceId) (now : Timestamp) :
    MemoryOutbox × Except DrainError (Option Claim) :=
  match (o.logs device).queue.head? with
  | none => (o, .ok none)
  | some head =>
      match o.records head with
      | none => (o, .error (.backend "a queued id has no record behind it"))
      | some record =>
          -- a write still serving its backoff blocks the queue
          if now.str < record.notBefore.str then (o, .ok none)
          else
            match record.batch with
            | none =>
                let (o, claimed) := o.claimHead device now
                (o, claimed.map (Option.map Claim.one))
            | some batch =>
                match o.stepBatch c batch device now with
                | (o, .error e) => (o, .error e)
                | (o, .ok .wait) => (o, .ok none)
                | (o, .ok .alone) =>
                    let (o, claimed) := o.claimHead device now
                    (o, claimed.map (Option.map Claim.one))
                | (o, .ok (.release members)) =>
                    let (o, records) := o.claimAll now members
                    (o, records.map fun records => some (.batch batch records))
                | (o, .ok (.fail members)) => (members.foldl (failHead · now) o, .ok none)

/-! ## Settling -/

/-- A retried member re-enters the rendezvous: it is no longer ready. -/
def unready (o : MemoryOutbox) (batch : Option BatchId) (device : DeviceId) : MemoryOutbox :=
  match batch with
  | none => o
  | some id =>
      match o.batches id with
      | none => o
      | some entry => o.setBatch id (some { entry with ready := entry.ready.erase device })

/-- A member terminally gone: drop it from the set the barrier waits on. -/
def dropMember (o : MemoryOutbox) (batch : Option BatchId) (device : DeviceId) : MemoryOutbox :=
  match batch with
  | none => o
  | some id =>
      match o.batches id with
      | none => o
      | some entry => o.setBatch id (some { entry with
          members := entry.members.erase device, ready := entry.ready.erase device })

/-- `WriteDrain::settle`. -/
def settle (c : Chrono) (o : MemoryOutbox) (id : WriteId) (outcome : Outcome) (now : Timestamp) :
    MemoryOutbox × Except DrainError Unit :=
  match o.records id with
  | none => (o, .error (.backend "settling an unknown write"))
  | some record =>
      if record.status ≠ .inFlight then
        (o, .error (.backend "settling a write that was not in flight"))
      else
        let device := record.device
        let log := o.logs device
        match outcome with
        | .succeeded value =>
            (o.setRecord id { record with status := .succeeded value, updatedAt := now }, .ok ())
        | .failed reason =>
            if record.attempts < o.maxAttempts then
              -- onto the *front*: a retry must not be overtaken
              let o := o.setLog device { log with queue := id :: log.queue }
              match (mulDuration o.backoff record.attempts).bind (delayFrom c now) with
              | none => (o.setRecord id { record with status := .pending }, .error .panicked)
              | some notBefore =>
                  ((o.unready record.batch device).setRecord id { record with
                    status := .pending, notBefore := notBefore, updatedAt := now }, .ok ())
            else
              (((o.setRecord id { record with status := .failed reason, updatedAt := now }).setLog
                device { log with
                  desiredRecordingState :=
                    rollback log.desiredRecordingState (Verb.of record.intent) }).dropMember
                record.batch device, .ok ())

/-- `WriteDrain::observe`. -/
def observe (o : MemoryOutbox) (device : DeviceId) (observed : RecordingState) : MemoryOutbox :=
  let log := o.logs device
  let after := reconcile log.desiredRecordingState observed
  o.setLog device { log with
    desiredRecordingState := after
    epoch := if opensRecording log.desiredRecordingState after then log.epoch + 1 else log.epoch }

/-- `WriteDrain::in_flight`. -/
def inFlight (o : MemoryOutbox) (device : DeviceId) : List WriteRecord :=
  ((o.logs device).history.filterMap o.records).filter fun r => decide (r.status = .inFlight)

/-! ## Cancellation -/

/-- What a row cancelled with a sibling's batch carries as its reason. -/
def groupReason (reason : String) : String :=
  reason ++ " (this write's device group could not act together)"

/-- Cancel one row of a batch already taken off its queue, counting it. -/
def cancelPending (reason : String) (acc : MemoryOutbox × Nat) (id : WriteId) :
    MemoryOutbox × Nat :=
  match acc.1.records id with
  | none => acc
  | some record =>
      if record.status = .pending then
        (acc.1.setRecord id { record with status := .canceled (groupReason reason) }, acc.2 + 1)
      else acc

/-- Cancel one member's rows of `batch`, leaving its other writes queued. -/
def cancelMember (batch : BatchId) (reason : String) (acc : MemoryOutbox × Nat)
    (member : DeviceId) : MemoryOutbox × Nat :=
  let o := acc.1
  let log := o.logs member
  let (doomed, kept) := log.queue.partition fun id =>
    (o.records id).any fun record => decide (record.batch = some batch)
  doomed.foldl (cancelPending reason) (o.setLog member { log with queue := kept }, acc.2)

/-- Cancel every other member's row in `batch`, and forget the rendezvous. -/
def cancelBatch (o : MemoryOutbox) (batch : BatchId) (reason : String) : MemoryOutbox × Nat :=
  match o.batches batch with
  | none => (o, 0)
  | some entry =>
      entry.members.elems.foldl (cancelMember batch reason) (o.setBatch batch none, 0)

/-- Cancel one drained row, counting it. -/
def cancelDrained (reason : String) (acc : MemoryOutbox × Nat) (id : WriteId) :
    MemoryOutbox × Nat :=
  match acc.1.records id with
  | none => acc
  | some record => (acc.1.setRecord id { record with status := .canceled reason }, acc.2 + 1)

/-- The batches any of these rows belong to. -/
def doomedBatches (o : MemoryOutbox) (queued : List WriteId) : OrderedSet BatchId :=
  OrderedSet.ofList (queued.filterMap fun id => (o.records id).bind (·.batch))

/-- Cancel every write still queued for `device`, and report how many went. -/
def cancelQueued (o : MemoryOutbox) (device : DeviceId) (reason : String) : MemoryOutbox × Nat :=
  let log := o.logs device
  let doomed := o.doomedBatches log.queue
  let acc := log.queue.foldl (cancelDrained reason) (o.setLog device { log with queue := [] }, 0)
  doomed.elems.foldl
    (fun acc batch =>
      let (o, n) := acc.1.cancelBatch batch reason
      (o, acc.2 + n)) acc

/-- `forget_group`: what the group was last told goes with it. -/
def forgetGroup (o : MemoryOutbox) (group : GroupId) : MemoryOutbox :=
  { o with groups := Function.update o.groups group fun _ => none }

/-! ## Reading -/

/-- `WriteLog::desired_recording_state`. -/
def desiredRecordingState (o : MemoryOutbox) (device : DeviceId) : DeviceDesiredRecordingState :=
  ⟨(o.logs device).desiredRecordingState, (o.logs device).epoch⟩

/-- `WriteLog::writes_for`: every write recorded for `device`, newest first. -/
def writesFor (o : MemoryOutbox) (device : DeviceId) : List WriteRecord :=
  (o.logs device).history.reverse.filterMap o.records

/-! ## The outbox as a machine -/

/-- One call on the outbox. -/
inductive Op
  | submit (s : Submission)
  | claimNext (device : DeviceId) (now : Timestamp)
  | settle (id : WriteId) (outcome : Outcome) (now : Timestamp)
  | observe (device : DeviceId) (observed : RecordingState)
  | cancelQueued (device : DeviceId) (reason : String)
  | cancelBatch (batch : BatchId) (reason : String)
deriving DecidableEq, Repr

/-- The state a call leaves. -/
def step (c : Chrono) (o : MemoryOutbox) : Op → MemoryOutbox
  | .submit s => (o.submit s).1
  | .claimNext device now => (o.claimNext c device now).1
  | .settle id outcome now => (o.settle c id outcome now).1
  | .observe device observed => o.observe device observed
  | .cancelQueued device reason => (o.cancelQueued device reason).1
  | .cancelBatch batch reason => (o.cancelBatch batch reason).1

end MemoryOutbox

end Sismatic
