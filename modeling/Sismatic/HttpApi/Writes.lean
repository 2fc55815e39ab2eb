import Sismatic.Store
import Sismatic.StoreMemory.Catalog
import Sismatic.StoreMemory.Outbox
import Sismatic.Core.Config
import Sismatic.HttpApi.Reads

/-!
# The write handlers

The path a write takes from its intent to a submission. For a group it reads the catalog
several times, with other requests free to replace it in between: once for the members,
once for the group itself, and once for each member when the intent names a field.
`submitGroup` is the path against one catalog; `Handler` is the same path a lookup at a
time.
-/

namespace Sismatic

/-! ## Failures -/

/-- A request that was not accepted. -/
inductive ApiFailure
  | badRequest (message : String)
  | notFound (message : String)
  | submit (error : SubmitError)
  /-- A write this surface refused before the outbox saw it. -/
  | rejected (rejection : Rejection) (message : String)
deriving DecidableEq, Repr

/-- The scope the write routes are mounted in. -/
def writesScope : String := "writes"

/-- The answer to an id that names no group, by whether it names a device. -/
def notAGroup (id scope deviceRoute : String) (device : Option DeviceSummary) : ApiFailure :=
  .notFound (if device.isSome then
      "'" ++ id ++ "' is a device, not a device group; try /v1/" ++ scope ++ "/devices/" ++ id ++
        "/" ++ deviceRoute
    else "no device group '" ++ id ++ "' is configured")

/-! ## Intents -/

/-- Whether this intent needs the members of a group to act together. -/
def needsRendezvous : Intent → Bool
  | .startRecording | .stopRecording | .pauseRecording => true
  | .setMetadata _ _ | .setSetting _ _ => false

/-- The field a write names, if it names one. -/
def fieldOf : Intent → Option FieldName
  | .startRecording | .stopRecording | .pauseRecording => none
  | .setMetadata field _ | .setSetting field _ => some field

/-! ## The parts of a submission -/

/-- What `Stamp::next` answers one request with, call after call. -/
abbrev Stamp := Nat → WriteId × Timestamp

/-- One request under a `/groups` route. -/
structure GroupRequest where
  group : GroupId
  /-- The tail of the `/devices` route that does the same. -/
  deviceRoute : String
  intent : Intent
  idempotencyKey : Option String
deriving DecidableEq, Repr

/-- The target, if it declares this field switched off. -/
def refusing (catalog : MemoryCatalog) (field : FieldName) (target : DeviceId) :
    Option DeviceId :=
  match catalog.device target with
  | some device => if field ∈ device.disabledFields then some device.id else none
  | none => none

/-- The verdict on a field that these members refuse. -/
def fieldVerdict (field : FieldName) (refused : List DeviceId) :
    Except (Devices.Fault ApiFailure) Unit :=
  if refused.isEmpty then .ok ()
  else .error (.refused (.rejected .fieldDisabled
    ("`" ++ field ++ "` is disabled in the devices file for " ++ ", ".intercalate refused ++
      "; no part of this write was recorded. Remove it from that device's `disabled_fields`, " ++
      "or address the other devices individually.")))

/-- Refuse the whole submission if any target declares its field switched off. -/
def rejectDisabledField (catalog : MemoryCatalog) (targets : List DeviceId) (intent : Intent) :
    Except (Devices.Fault ApiFailure) Unit :=
  match fieldOf intent with
  | none => .ok ()
  | some field => fieldVerdict field (targets.filterMap (refusing catalog field))

/-- The submission over an expanded target list, with its ids minted. -/
def assemble (stamp : Stamp) (request : GroupRequest) (targets : List DeviceId)
    (group : Option GroupSummary) : Except (Devices.Fault ApiFailure) Submission :=
  let batch := (group.filter fun _ => needsRendezvous request.intent && targets.length > 1).map
    fun _ => (stamp 0).1
  let minted (i : Nat) : WriteId × Timestamp := stamp (batch.toList.length + i)
  -- the instant is the first id's, and there is none without a target
  if targets.isEmpty then .error .panicked
  else .ok {
    ids := (List.range targets.length).map fun i => (minted i).1
    targets := targets
    group := group.map (·.id)
    batch := batch
    barrier := group.map fun group =>
      ⟨Devices.fromSecs group.barrierTimeoutSecs, group.barrier⟩
    intent := request.intent
    atTime := (minted 0).2
    idempotencyKey := request.idempotencyKey }

/-! ## Against one catalog -/

def submit (stamp : Stamp) (request : GroupRequest) (catalog : MemoryCatalog)
    (targets : List DeviceId) (group : Option GroupSummary) :
    Except (Devices.Fault ApiFailure) Submission := do
  rejectDisabledField catalog targets request.intent
  assemble stamp request targets group

def groupMembers (catalog : MemoryCatalog) (id scope deviceRoute : String) :
    Except (Devices.Fault ApiFailure) (List DeviceId) :=
  match catalog.group id with
  | some group => .ok group.members
  | none => .error (.refused (notAGroup id scope deviceRoute (catalog.device id)))

def submitGroup (stamp : Stamp) (request : GroupRequest) (catalog : MemoryCatalog) :
    Except (Devices.Fault ApiFailure) Submission := do
  let targets ← groupMembers catalog request.group writesScope request.deviceRoute
  submit stamp request catalog targets (catalog.group request.group)

/-- One request under a `/devices` route. -/
structure DeviceRequest where
  device : DeviceId
  /-- The tail of the `/groups` route that does the same. -/
  groupRoute : String
  intent : Intent
  idempotencyKey : Option String
deriving DecidableEq, Repr

def rejectGroup (catalog : MemoryCatalog) (id scope groupRoute : String) :
    Except (Devices.Fault ApiFailure) Unit :=
  if (catalog.group id).isSome then
    .error (.refused (.notFound ("'" ++ id ++ "' is a device group, not a device; try /v1/" ++
      scope ++ "/groups/" ++ id ++ "/" ++ groupRoute)))
  else .ok ()

def submitDevice (stamp : Stamp) (request : DeviceRequest) (catalog : MemoryCatalog) :
    Except (Devices.Fault ApiFailure) Submission := do
  rejectGroup catalog request.device writesScope request.groupRoute
  match catalog.device request.device with
  | none => .error (.refused (.notFound ("no device '" ++ request.device ++ "' is configured")))
  | some _ =>
      -- no group, so no rendezvous and no barrier
      submit stamp ⟨request.device, request.groupRoute, request.intent, request.idempotencyKey⟩
        catalog [request.device] none

/-- What comes of a request: a submission is handed to the outbox, and a refusal is answered. -/
def handOver (o : MemoryOutbox) :
    Except (Devices.Fault ApiFailure) Submission →
      MemoryOutbox × Except (Devices.Fault ApiFailure) Acceptance
  | .error refusal => (o, .error refusal)
  | .ok submission =>
      ((o.submit submission).1, (o.submit submission).2.mapError fun e => .refused (.submit e))

/-! ### The routes that name a field -/

def setMetadata (device : DeviceId) (field value : String) (key : Option String) : DeviceRequest :=
  ⟨device, "metadata/" ++ field, .setMetadata (normalizeField field) value, key⟩

def setSetting (device : DeviceId) (field value : String) (key : Option String) : DeviceRequest :=
  ⟨device, "settings/" ++ field, .setSetting (normalizeField field) value, key⟩

def setGroupMetadata (group : GroupId) (field value : String) (key : Option String) :
    GroupRequest :=
  ⟨group, "metadata/" ++ field, .setMetadata (normalizeField field) value, key⟩

def setGroupSetting (group : GroupId) (field value : String) (key : Option String) :
    GroupRequest :=
  ⟨group, "settings/" ++ field, .setSetting (normalizeField field) value, key⟩

/-! ## A lookup at a time -/

/-- Where a handler is: each of the first four is about to read the catalog. -/
inductive Handler
  /-- About to look the group up for its members. -/
  | members
  /-- There is no such group; about to see whether a device has the id. -/
  | kind
  /-- About to look the group up again, for its summary. -/
  | summary (targets : List DeviceId)
  /-- About to see whether the next of `left` refuses the field. -/
  | checking (targets : List DeviceId) (group : Option GroupSummary) (left refused : List DeviceId)
  /-- With what is handed to the outbox, if anything is. -/
  | done (result : Except (Devices.Fault ApiFailure) Submission)
deriving DecidableEq

namespace Handler

variable (stamp : Stamp) (request : GroupRequest)

/-- On to the next member, or past the last. -/
def next (field : FieldName) (targets : List DeviceId) (group : Option GroupSummary)
    (left refused : List DeviceId) : Handler :=
  match left with
  | [] => .done do
      fieldVerdict field refused
      assemble stamp request targets group
  | _ :: _ => .checking targets group left refused

/-- One lookup, and everything up to the next. -/
def step (catalog : MemoryCatalog) : Handler → Handler
  | members =>
      match catalog.group request.group with
      | some group => .summary group.members
      | none => .kind
  | kind =>
      .done (.error (.refused (notAGroup request.group writesScope request.deviceRoute
        (catalog.device request.group))))
  | summary targets =>
      let group := catalog.group request.group
      match fieldOf request.intent with
      | none => .done (assemble stamp request targets group)
      | some field => next stamp request field targets group targets []
  | checking targets group left refused =>
      match fieldOf request.intent, left with
      | some field, target :: left =>
          next stamp request field targets group left
            (refused ++ (refusing catalog field target).toList)
      | _, _ => .checking targets group left refused
  | done result => .done result

end Handler

end Sismatic
