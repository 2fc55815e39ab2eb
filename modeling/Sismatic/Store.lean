import Sismatic.ApiTypes

/-!
# The outbox port

The decisions `sismatic-store` fixes for every adapter, as total functions: the
admission table, how a device's report is folded in, how a failed verb is undone,
and which epoch a write is stamped with. None of them reads a clock, a queue or a
device, so each is a table and can be checked against the source row by row.
-/

namespace Sismatic

/-- The barrier: a policy and the bound it applies at. -/
structure BarrierPolicy where
  timeout : Duration
  onTimeout : Barrier
deriving DecidableEq, Repr

/-- Everything one submission carries. -/
structure Submission where
  /-- One id per target, in the same order, minted by the caller. -/
  ids : List WriteId
  targets : List DeviceId
  /-- The group the request was addressed to, when it was addressed to one. -/
  group : Option GroupId
  /-- `some` when the members must act together. -/
  batch : Option BatchId
  barrier : Option BarrierPolicy
  intent : Intent
  atTime : Timestamp
  idempotencyKey : Option String
deriving DecidableEq, Repr

/-- Why a submission did not become a queued write. -/
inductive SubmitError
  | rejected (device : DeviceId) (rejection : Rejection)
      (desiredRecordingState : DesiredRecordingState)
  | malformed (what : String)
  | backend (what : String)
deriving DecidableEq, Repr

/-- What became of a claimed write. -/
inductive Outcome
  | succeeded (value : ReadValue)
  | failed (reason : String)
deriving DecidableEq, Repr

/-- What a claim yielded. -/
inductive Claim
  /-- One write for the device that asked. -/
  | one (record : WriteRecord)
  /-- A whole batch, one record per member dispatched, ordered by device id. -/
  | batch (id : BatchId) (records : List WriteRecord)
deriving DecidableEq, Repr

/-! ## The admission table -/

/-- An intent with its payload stripped. -/
inductive Verb
  | start | stop | pause | writeMetadata | writeSetting
deriving DecidableEq, Repr

def Verb.of : Intent → Verb
  | .startRecording => .start
  | .stopRecording => .stop
  | .pauseRecording => .pause
  | .setMetadata _ _ => .writeMetadata
  | .setSetting _ _ => .writeSetting

/--
The admission decision. `ok` carries the state the device is now *intended* to be
in; a verb that does not move the recording returns the state it was given.
-/
def admitVerb : DesiredRecordingState → Verb → Except Rejection DesiredRecordingState
  | .idle, .start => .ok .recording
  | .idle, .stop => .error .notRecording
  | .idle, .pause => .error .notRecording
  | .idle, .writeMetadata => .ok .idle
  | .idle, .writeSetting => .ok .idle
  | .recording, .start => .error .alreadyRecording
  | .recording, .stop => .ok .idle
  | .recording, .pause => .ok .paused
  | .recording, .writeMetadata => .error .metadataFrozen
  | .recording, .writeSetting => .ok .recording
  | .paused, .start => .ok .recording
  | .paused, .stop => .ok .idle
  | .paused, .pause => .error .alreadyPaused
  | .paused, .writeMetadata => .error .metadataFrozen
  | .paused, .writeSetting => .ok .paused

/-- Fold the state a device reported into the desired one. -/
def reconcile (desired : DesiredRecordingState) : RecordingState → DesiredRecordingState
  | .unknown => desired
  | .stopped => .idle
  | .started => .recording
  | .paused => .paused

/-- Whether this transition begins a new recording. A resume does not. -/
def opensRecording : DesiredRecordingState → DesiredRecordingState → Bool
  | .idle, .recording => true
  | _, _ => false

/-- Undo the change a verb made to the desired state, for a write that failed terminally. -/
def rollback : DesiredRecordingState → Verb → DesiredRecordingState
  | .recording, .start => .idle
  | .idle, .stop => .recording
  | .paused, .pause => .recording
  | other, _ => other

/-- The epoch a write admitted from `before` into `after` belongs to. -/
def epochOf (before _after : DesiredRecordingState) (epoch : Nat) : Nat :=
  match before with
  | .idle => epoch + 1
  | _ => epoch

/-! ## What a group was told -/

/-- The canonical name of the field the recording lifecycle is observed on. -/
def recordingStateField : FieldName := "RUNNING_STATE"

/-- The field and value an intent asks a device to end up holding. -/
def expects : Intent → FieldName × ReadValue
  | .startRecording => (recordingStateField, .state .started)
  | .stopRecording => (recordingStateField, .state .stopped)
  | .pauseRecording => (recordingStateField, .state .paused)
  | .setMetadata field value => (field, .text value)
  | .setSetting field value => (field, .text value)

end Sismatic
