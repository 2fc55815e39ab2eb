import Mathlib.Data.String.Basic

/-!
# The wire types of the write side

The data transfer objects of `sismatic-api-types`: what a caller asks a device to
do (`Intent`), one row of the outbox (`WriteRecord`), and what a submission is
answered with (`Acceptance`). Ids are strings, as they are on the wire.
-/

namespace Sismatic

abbrev DeviceId := String
abbrev GroupId := String
abbrev FieldName := String
abbrev WriteId := String
abbrev BatchId := String

/-- An instant on the wire, as RFC 3339 text. The store compares the text. -/
structure Timestamp where
  str : String
deriving DecidableEq, Repr

/-- `std::time::Duration`, in nanoseconds. -/
abbrev Duration := Nat

/-- A closed interval of time. -/
structure TimeSpan where
  start : Timestamp
  «end» : Timestamp
deriving DecidableEq, Repr

def TimeSpan.within (span : TimeSpan) (stamp : Timestamp) : Bool :=
  decide (span.start.str ≤ stamp.str) && decide (stamp.str ≤ span.end.str)

/-! ## Values -/

/-- What a recorder reported, as opposed to what it was told. -/
inductive RecordingState
  | stopped | started | paused | unknown
deriving DecidableEq, Repr

/-- One active alarm. -/
structure Alarm where
  name : String
  level : String
deriving DecidableEq, Repr

/-- A decoded value. The variant says what the field means. -/
inductive ReadValue
  | text (s : String)
  | version (s : String)
  | port (p : UInt16)
  | number (n : UInt32)
  | flag (b : Bool)
  | mac (m : String)
  | ack (s : String)
  | state (s : RecordingState)
  | alarms (as : List Alarm)
deriving DecidableEq, Repr

/-! ## Writes -/

/-- What to do when a batch's barrier does not fill within its timeout. -/
inductive Barrier
  /-- Run the members that arrived. -/
  | dispatchReady
  /-- Fail every row in the batch. -/
  | failBatch
deriving DecidableEq, Repr

/-- What a caller wants done. -/
inductive Intent
  | startRecording
  | stopRecording
  | pauseRecording
  | setMetadata (field : FieldName) (value : String)
  | setSetting (field : FieldName) (value : String)
deriving DecidableEq, Repr

/-- The write side's belief about whether a recording is in progress. -/
inductive DesiredRecordingState
  | idle | recording | paused
deriving DecidableEq, Repr

/-- Why a submission was refused. -/
inductive Rejection
  | metadataFrozen
  | alreadyRecording
  | alreadyPaused
  | notRecording
  | fieldDisabled
deriving DecidableEq, Repr

/-- Where a submitted write has got to. -/
inductive WriteStatus
  | pending
  | inFlight
  | succeeded (value : ReadValue)
  | failed (reason : String)
  | canceled (reason : String)
deriving DecidableEq, Repr

/-- One row of the outbox as a caller sees it. -/
structure WriteRecord where
  id : WriteId
  device : DeviceId
  intent : Intent
  batch : Option BatchId
  epoch : Nat
  status : WriteStatus
  attempts : Nat
  enqueuedAt : Timestamp
  updatedAt : Timestamp
  notBefore : Timestamp
deriving DecidableEq, Repr

/-- One write a submission produced. -/
structure Accepted where
  id : WriteId
  device : DeviceId
  epoch : Nat
deriving DecidableEq, Repr

/-- The answer to an accepted submission: one entry per target. -/
structure Acceptance where
  batch : Option BatchId
  writes : List Accepted
deriving DecidableEq, Repr

/-- A device's write-side state, as the status route reports it. -/
structure DeviceDesiredRecordingState where
  desiredRecordingState : DesiredRecordingState
  epoch : Nat
deriving DecidableEq, Repr

/-- What a group was last told a field should be. -/
structure GroupExpectation where
  field : FieldName
  value : ReadValue
  since : Timestamp
deriving DecidableEq, Repr

end Sismatic
