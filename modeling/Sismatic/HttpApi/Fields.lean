import Sismatic.HttpApi.FleetReads
import Sismatic.HttpApi.GroupReads
import Sismatic.StoreMemory.GroupState

/-!
# The reads routes of one device and of one group

The fields of a device or of a group, one of them, or one of them over time. A group's index
is assembled from what each member's snapshot and the list of what the group was told say,
and its detail route from one lookup for each member; the history routes cut each series down
to its newest rows.
-/

namespace Sismatic

/-! ## One device -/

namespace FieldReads

/-- The most rows of one series in a response. -/
def maxLimit : UInt32 := 10000
/-- The rows of one series unless a request says otherwise. -/
def defaultLimit : UInt32 := 1000

end FieldReads

/-- `ReadQuery`, with the parts of it that only a history route looks at. -/
structure HistoryQuery extends ReadQuery where
  field : Option FieldName
  limit : Option UInt32

/-- Cut `reads` down to the requested page, from the front: the oldest go. -/
def truncate (reads : List Read) (limit : Option UInt32) : List Read :=
  let limit := (min (limit.getD FieldReads.defaultLimit) FieldReads.maxLimit).toNat
  if reads.length > limit then reads.drop (reads.length - limit) else reads

/-- Reject a `?field=` that contradicts the field in the path. -/
def rejectConflictingField (query : HistoryQuery) (field : FieldName) :
    Except (Devices.Fault ApiFailure) Unit :=
  match query.field with
  | none => .ok ()
  | some asked =>
      let asked := normalizeField asked
      if asked ≠ field then
        .error (.refused (.badRequest ("field is taken from the path ('" ++ field ++
          "'); remove the conflicting '?field=" ++ asked ++ "'")))
      else .ok ()

def listFields (catalog : MemoryCatalog) (store : MemoryStore) (device : DeviceId) :
    Except (Devices.Fault ApiFailure) (List Read) := do
  rejectGroup catalog device readsScope "fields"
  return store.latestAll device

def fieldHistory (catalog : MemoryCatalog) (store : MemoryStore) (device : DeviceId)
    (field : String) (query : HistoryQuery) :
    Except (Devices.Fault ApiFailure) (List Read) := do
  let field := normalizeField field
  rejectConflictingField query field
  rejectGroup catalog device readsScope ("fields/" ++ field ++ "/history")
  return truncate (store.between device field (spanOf query.toReadQuery)) query.limit

/-! ## What a group is to be doing -/

structure MemberDesiredRecordingState where
  device : DeviceId
  desiredRecordingState : DesiredRecordingState
  epoch : Nat
deriving DecidableEq, Repr

structure GroupDesiredRecordingState where
  group : GroupId
  /-- What the members agree on. -/
  desiredRecordingState : Option DesiredRecordingState
  members : List MemberDesiredRecordingState
deriving DecidableEq, Repr

def groupDesiredRecordingState (log : MemoryOutbox) (group : GroupId)
    (memberIds : List DeviceId) : GroupDesiredRecordingState :=
  let members := memberIds.map fun device =>
    let recording := log.desiredRecordingState device
    ⟨device, recording.desiredRecordingState, recording.epoch⟩
  { group := group
    desiredRecordingState := (members.head?.map (·.desiredRecordingState)).filter
      fun desired => members.all fun m => m.desiredRecordingState = desired
    members := members }

/-- Under the write routes the same fold answers on its own. -/
def readGroupDesiredRecordingState (catalog : MemoryCatalog) (log : MemoryOutbox)
    (group : GroupId) : Except (Devices.Fault ApiFailure) GroupDesiredRecordingState := do
  let memberIds ← groupMembers catalog group writesScope "recording"
  return groupDesiredRecordingState log group memberIds

/-! ## One group -/

structure GroupFieldStateList where
  group : GroupId
  /-- The verdicts of all its fields, rolled up. -/
  sync : GroupSyncState
  desiredRecordingState : Option DesiredRecordingState
  fields : List GroupFieldState
deriving DecidableEq

/-- One group's verdict: drift wins over agreement here too. -/
def rolledUp (fields : List GroupFieldState) : GroupSyncState :=
  if fields.any fun f => f.sync = .drifted then .drifted
  else if fields.any fun f => f.sync = .inSync then .inSync
  else .unknown

/-- The fields that were told of or reported, in order. -/
def knownFields (expectations : List GroupExpectation) (reads : List (List Read)) :
    OrderedSet FieldName :=
  reads.foldl
    (fun fields latest => latest.foldl (fun fields read => fields.insert read.field) fields)
    (OrderedSet.ofList (expectations.map (·.field)))

/-- One group's whole state: what both the index and the list of groups show of it. -/
def groupStateOf (catalog : MemoryCatalog) (store : MemoryStore) (w : GroupOutbox)
    (group : GroupId) : Except (Devices.Fault ApiFailure) GroupFieldStateList := do
  let members ← groupMembers catalog group readsScope "fields"
  let reads := members.map store.latestAll
  let expectations := w.told.expectedAll group
  let fields := (knownFields expectations reads).elems.map fun field =>
    let expected := expectations.find? fun expectation => expectation.field = field
    let observed := (members.zip reads).map fun (device, latest) =>
      (device, latest.find? fun read => read.field = field)
    GroupReads.assemble group field expected observed
  let recording := groupDesiredRecordingState w.outbox group members
  return ⟨group, rolledUp fields, recording.desiredRecordingState, fields⟩

def listGroupFields (catalog : MemoryCatalog) (store : MemoryStore) (w : GroupOutbox)
    (group : GroupId) : Except (Devices.Fault ApiFailure) GroupFieldStateList :=
  groupStateOf catalog store w group

def readGroupField (catalog : MemoryCatalog) (store : MemoryStore) (w : GroupOutbox)
    (group : GroupId) (field : String) : Except (Devices.Fault ApiFailure) GroupFieldState := do
  let field := normalizeField field
  let members ← groupMembers catalog group readsScope "fields"
  let expected := w.told.expected group field
  let observed := members.map fun device => (device, (store.latest device)[field]?)
  return GroupReads.assemble group field expected observed

structure MemberHistory where
  device : DeviceId
  reads : List Read
deriving DecidableEq

structure GroupHistory where
  group : GroupId
  field : FieldName
  expected : Option GroupExpectation
  members : List MemberHistory
deriving DecidableEq

/-- The limit is each member's, not the response's. -/
def groupFieldHistory (catalog : MemoryCatalog) (store : MemoryStore) (w : GroupOutbox)
    (group : GroupId) (field : String) (query : HistoryQuery) :
    Except (Devices.Fault ApiFailure) GroupHistory := do
  let field := normalizeField field
  rejectConflictingField query field
  let memberIds ← groupMembers catalog group readsScope "fields"
  let span := spanOf query.toReadQuery
  let members := memberIds.map fun device =>
    MemberHistory.mk device (truncate (store.between device field span) query.limit)
  return ⟨group, field, w.told.expected group field, members⟩

end Sismatic
