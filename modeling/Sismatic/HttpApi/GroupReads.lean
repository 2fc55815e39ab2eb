import Sismatic.Store.Group
import Sismatic.StoreMemory.Reads

/-!
# One field of a group

What a group route answers for a field: what every member last reported, whether that is
what the group was told, and whether the members that have reported say the same.
-/

namespace Sismatic

/-- Whether a member does what its group was told. -/
inductive GroupSyncState
  | inSync | drifted
  /-- Nothing to compare. -/
  | unknown
deriving DecidableEq, Repr

structure MemberState where
  device : DeviceId
  /-- `none` for a member that has never reported the field. -/
  read : Option Read
  sync : GroupSyncState
deriving DecidableEq

structure GroupFieldState where
  group : GroupId
  field : FieldName
  expected : Option GroupExpectation
  sync : GroupSyncState
  /-- Every member that has reported holds the same value. -/
  uniform : Bool
  members : List MemberState
deriving DecidableEq

/-- One member's side: agreement with nothing is not agreement. -/
def memberState (expected : Option GroupExpectation) (observed : DeviceId × Option Read) :
    MemberState where
  device := observed.1
  read := observed.2
  sync :=
    match expected, observed.2 with
    | some expected, some read =>
        if satisfies expected.value read.value then .inSync else .drifted
    | _, _ => .unknown

/-- Whether the members that have reported all say what the first of them does. -/
def uniformOf (reported : List Read) : Bool :=
  match reported with
  | [] => true
  | first :: rest => rest.all fun read => read.value == first.value

/-- Fold one field's members and expectation into the answer. -/
def GroupReads.assemble (group : GroupId) (field : FieldName) (expected : Option GroupExpectation)
    (observed : List (DeviceId × Option Read)) : GroupFieldState :=
  let members := observed.map (memberState expected)
  { group := group
    field := field
    expected := expected
    -- drift wins over agreement
    sync :=
      if members.any fun m => m.sync = .drifted then .drifted
      else if members.any fun m => m.sync = .inSync then .inSync
      else .unknown
    uniform := uniformOf (members.filterMap (·.read))
    members := members }

end Sismatic
