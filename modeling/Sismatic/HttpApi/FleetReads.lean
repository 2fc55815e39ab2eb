import Sismatic.HttpApi.Writes
import Sismatic.Store.Group
import Sismatic.StoreMemory.Reads

/-!
# The fleet reads route

Every device's latest values, filtered and paged. The devices come from the catalog and the
values from the store. A page is a whole number of devices in the catalog's order, and the
cursor is the last device id on it.
-/

namespace Sismatic

structure FleetQuery where
  /-- Which fields to report, comma-separated. -/
  fields : Option String
  /-- Which devices to report, comma-separated. -/
  devices : Option String
  group : Option GroupId
  /-- `where`: the `FIELD:value` filters a device has to satisfy, comma-separated. -/
  predicates : Option String
  limit : Option UInt32
  /-- Resume after this device, exclusive. -/
  after : Option DeviceId
deriving DecidableEq, Repr

structure DeviceReads where
  device : DeviceId
  latest : List Read
deriving DecidableEq

structure FleetReads where
  devices : List DeviceReads
  /-- What the following page is asked for after. -/
  next : Option DeviceId
deriving DecidableEq

def readsScope : String := "reads"

def maxLimit : UInt32 := 1000
def defaultLimit : UInt32 := 100

/-- `ReadStore::latest_all`: a device's reads, by field. -/
def MemoryStore.latestAll (store : MemoryStore) (device : DeviceId) : List Read :=
  (store.latest device).values

/-! ## The filters -/

/-- Split a comma-separated filter into its entries, dropping blanks. -/
def csv (raw : Option String) : List String :=
  ((raw.toList.flatMap fun list => (list.toList.splitOn ',').map String.ofList).map trim).filter
    fun entry => entry ≠ ""

/-- `str::split_once`. -/
def splitOnce (s : String) (separator : Char) : Option (String × String) :=
  match s.toList.dropWhile (· ≠ separator) with
  | [] => none
  | _ :: rest => some (String.ofList (s.toList.takeWhile (· ≠ separator)), String.ofList rest)

/-- One `FIELD:value` row filter. -/
structure Predicate where
  field : FieldName
  /-- The caller's text, to be read in the shape a device answers in. -/
  want : ReadValue
deriving DecidableEq

namespace Predicate

def parse (raw : String) : Except (Devices.Fault ApiFailure) Predicate :=
  match splitOnce raw ':' with
  | none => .error (.refused (.badRequest ("'" ++ raw ++
      "' is not a filter; write one as 'FIELD:value', e.g. 'RUNNING_STATE:stopped'")))
  | some (field, want) =>
      let field := normalizeField (trim field)
      if field.isEmpty then .error (.refused (.badRequest ("'" ++ raw ++
        "' names no field; write a filter as 'FIELD:value'")))
      else .ok ⟨field, .text want⟩

/-- Whether one read is of this filter's field and satisfies its value. -/
def matchesRead (predicate : Predicate) (read : Read) : Bool :=
  read.field = predicate.field && satisfies predicate.want read.value

/-- Whether one device's whole snapshot satisfies this filter. -/
def holds (predicate : Predicate) (latest : List Read) : Bool := latest.any predicate.matchesRead

end Predicate

def predicatesOf (raw : Option String) : Except (Devices.Fault ApiFailure) (List Predicate) :=
  (csv raw).mapM Predicate.parse

/-- The fields `?fields=` asked for, or `none` for every field. -/
def wantedFields (raw : Option String) : Option (OrderedSet FieldName) :=
  let fields := (csv raw).map normalizeField
  if fields.isEmpty then none else some (OrderedSet.ofList fields)

/-- Keep only the requested columns. -/
def project (latest : List Read) : Option (OrderedSet FieldName) → List Read
  | none => latest
  | some fields => latest.filter fun read => read.field ∈ fields

/-- How many devices a page may hold. Over-large is clamped, and zero refused. -/
def pageSize : Option UInt32 → Except (Devices.Fault ApiFailure) Nat
  | some limit =>
      if limit = 0 then
        .error (.refused (.badRequest ("?limit=0 asks for a page with no devices on it, which " ++
          "can carry no cursor to the next one; ask for at least one")))
      else .ok (min limit maxLimit).toNat
  | none => .ok defaultLimit.toNat

/-! ## The devices a request addresses -/

/-- The answer to an id in `?devices=` that names no device. -/
def unknownDevice (catalog : MemoryCatalog) (id : String) : ApiFailure :=
  if (catalog.group id).isSome then
    .notFound ("'" ++ id ++ "' is a device group, not a device; ask for its members with ?group=" ++
      id)
  else .notFound ("no device '" ++ id ++ "' is configured")

/-- The devices named, unless one of them is not configured. -/
def requestedOf (catalog : MemoryCatalog) :
    List String → OrderedSet DeviceId → Except (Devices.Fault ApiFailure) (OrderedSet DeviceId)
  | [], requested => .ok requested
  | id :: named, requested =>
      match catalog.device id with
      | none => .error (.refused (unknownDevice catalog id))
      | some _ => requestedOf catalog named (requested.insert id)

/-- What `?group=` leaves, with `none` for every device. -/
def groupFilter (catalog : MemoryCatalog) :
    Option GroupId → Except (Devices.Fault ApiFailure) (Option (OrderedSet DeviceId))
  | none => .ok none
  | some group => do
      let members ← groupMembers catalog group readsScope "fields"
      return some (OrderedSet.ofList members)

/-- What `?devices=` leaves of that. Two filters on one request narrow. -/
def namedFilter (catalog : MemoryCatalog) (named : List String)
    (keep : Option (OrderedSet DeviceId)) :
    Except (Devices.Fault ApiFailure) (Option (OrderedSet DeviceId)) :=
  if named.isEmpty then .ok keep
  else do
    let requested ← requestedOf catalog named OrderedSet.empty
    return some (match keep with
      | some group => group.filter fun id => decide (id ∈ requested)
      | none => requested)

def isKept (keep : Option (OrderedSet DeviceId)) (id : DeviceId) : Bool :=
  keep.all fun keep => decide (id ∈ keep)

/-- The devices in page order, narrowed by set membership: the order is the catalog's own. -/
def candidates (catalog : MemoryCatalog) (query : FleetQuery) :
    Except (Devices.Fault ApiFailure) (List DeviceId) := do
  let fleet := catalog.devices
  let group ← groupFilter catalog query.group
  let keep ← namedFilter catalog (csv query.devices) group
  return ((fleet.map (·.id)).filter (isKept keep)).filter
    fun id => query.after.all fun after => decide (after < id)

/-! ## A page -/

/-- The loop over the candidates. One match past a full page tells that there is more. -/
def scan (store : MemoryStore) (predicates : List Predicate)
    (fields : Option (OrderedSet FieldName)) (limit : Nat) :
    List DeviceId → List DeviceReads → FleetReads
  | [], devices => ⟨devices, none⟩
  | device :: candidates, devices =>
      -- the whole snapshot: a predicate may read a field that is not asked for
      let latest := store.latestAll device
      if !predicates.all (·.holds latest) then
        scan store predicates fields limit candidates devices
      else if devices.length = limit then ⟨devices, devices.getLast?.map (·.device)⟩
      else
        scan store predicates fields limit candidates (devices ++ [⟨device, project latest fields⟩])

def listFleet (store : MemoryStore) (query : FleetQuery) (catalog : MemoryCatalog) :
    Except (Devices.Fault ApiFailure) FleetReads := do
  let fields := wantedFields query.fields
  let predicates ← predicatesOf query.predicates
  let limit ← pageSize query.limit
  let candidates ← candidates catalog query
  return scan store predicates fields limit candidates []

end Sismatic
