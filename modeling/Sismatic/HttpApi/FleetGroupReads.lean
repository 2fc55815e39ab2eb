import Sismatic.HttpApi.Fields

/-!
# The group index route

Every configured group's state, filtered and paged. A row is what the group's own index answers,
with only the fields asked for; the filters look at the whole of it. The rows are read one after
another, each from what there is when the loop gets to it.
-/

namespace Sismatic

structure FleetGroupQuery where
  /-- Which fields to report, comma-separated. -/
  fields : Option String
  /-- Which groups to report, comma-separated. -/
  groups : Option String
  /-- `where`: the `FIELD:value` filters a group has to satisfy, comma-separated. -/
  predicates : Option String
  /-- The verdict a group has to have. -/
  sync : Option String
  limit : Option UInt32
  /-- Resume after this group, exclusive. -/
  after : Option GroupId
deriving DecidableEq, Repr

structure FleetGroupReads where
  groups : List GroupFieldStateList
  /-- What the following page is asked for after. -/
  next : Option GroupId
deriving DecidableEq

namespace FleetGroups

/-- The verdict `?sync=` asks for, or `none` for any. -/
def wantedSync (raw : Option String) :
    Except (Devices.Fault ApiFailure) (Option GroupSyncState) :=
  match (raw.map trim).filter fun s => !s.isEmpty with
  | none => .ok none
  | some raw =>
      let name := normalizeField raw
      if name = "IN_SYNC" then .ok (some .inSync)
      else if name = "DRIFTED" then .ok (some .drifted)
      else if name = "UNKNOWN" then .ok (some .unknown)
      else .error (.refused (.badRequest ("'" ++ raw ++ "' is not a sync state; ask for one of " ++
        "'in_sync', 'drifted' or 'unknown'")))

/-- Whether a group's state satisfies one filter: every member that has reported the field, and
at least one. -/
def holds (predicate : Predicate) (fields : List GroupFieldState) : Bool :=
  match fields.find? fun f => f.field = predicate.field with
  | none => false
  | some state =>
      let reported := state.members.filterMap (·.read)
      !reported.isEmpty && reported.all predicate.matchesRead

/-- Keep only the requested columns. -/
def project (fields : List GroupFieldState) : Option (OrderedSet FieldName) → List GroupFieldState
  | none => fields
  | some wanted => fields.filter fun state => state.field ∈ wanted

/-- The answer to an id in `?groups=` that names no group. -/
def unknownGroup (catalog : MemoryCatalog) (id : String) : ApiFailure :=
  if (catalog.device id).isSome then
    .notFound ("'" ++ id ++ "' is a device, not a device group; ask for it with " ++
      "/v1/reads/devices?devices=" ++ id)
  else .notFound ("no device group '" ++ id ++ "' is configured")

/-- The groups named, unless one of them is not configured. -/
def requestedOf (catalog : MemoryCatalog) :
    List String → OrderedSet GroupId → Except (Devices.Fault ApiFailure) (OrderedSet GroupId)
  | [], requested => .ok requested
  | id :: named, requested =>
      match catalog.group id with
      | none => .error (.refused (unknownGroup catalog id))
      | some _ => requestedOf catalog named (requested.insert id)

/-- What `?groups=` leaves, with `none` for every group. -/
def namedFilter (catalog : MemoryCatalog) (named : List String) :
    Except (Devices.Fault ApiFailure) (Option (OrderedSet GroupId)) :=
  if named.isEmpty then .ok none
  else do
    let requested ← requestedOf catalog named OrderedSet.empty
    return some requested

/-- The groups in page order. -/
def candidates (catalog : MemoryCatalog) (query : FleetGroupQuery) :
    Except (Devices.Fault ApiFailure) (List GroupId) := do
  let configured := catalog.groups
  let keep ← namedFilter catalog (csv query.groups)
  return ((configured.map (·.id)).filter (isKept keep)).filter
    fun id => query.after.all fun after => decide (after < id)

/-- The row filters of a request, and the columns it wants. -/
structure Filters where
  predicates : List Predicate
  sync : Option GroupSyncState
  fields : Option (OrderedSet FieldName)

/-- Whether both row filters let this row through. -/
def Filters.keep (filters : Filters) (row : GroupFieldStateList) : Bool :=
  filters.predicates.all (holds · row.fields) &&
    !filters.sync.any fun wanted => row.sync ≠ wanted

/-- What is shown of a row: the verdict stays that of the whole group. -/
def Filters.shown (filters : Filters) (row : GroupFieldStateList) : GroupFieldStateList :=
  ⟨row.group, row.sync, row.desiredRecordingState, project row.fields filters.fields⟩

/-- The loop over the candidates; `rowOf` is what assembling a row answers when it gets there. -/
def scan (rowOf : GroupId → Except (Devices.Fault ApiFailure) GroupFieldStateList)
    (filters : Filters) (limit : Nat) :
    List GroupId → List GroupFieldStateList → Except (Devices.Fault ApiFailure) FleetGroupReads
  | [], groups => .ok ⟨groups, none⟩
  | group :: candidates, groups =>
      match rowOf group with
      | .error e => .error e
      | .ok row =>
          if !filters.keep row then scan rowOf filters limit candidates groups
          else if groups.length = limit then .ok ⟨groups, groups.getLast?.map (·.group)⟩
          else scan rowOf filters limit candidates (groups ++ [filters.shown row])

def listFleetGroups (rowOf : GroupId → Except (Devices.Fault ApiFailure) GroupFieldStateList)
    (query : FleetGroupQuery) (catalog : MemoryCatalog) :
    Except (Devices.Fault ApiFailure) FleetGroupReads := do
  let fields := wantedFields query.fields
  let predicates ← predicatesOf query.predicates
  let sync ← wantedSync query.sync
  let limit ← pageSize query.limit
  let candidates ← candidates catalog query
  scan rowOf ⟨predicates, sync, fields⟩ limit candidates []

end FleetGroups

end Sismatic
