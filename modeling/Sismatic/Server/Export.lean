import Sismatic.Server.Fleet

/-!
# An export

The running fleet as a devices document, every key stated. A format's crate is between a
tree of keys and values and text; what the tree of an exported fleet holds, and what the
loader reads out of a tree, is written here key by key.
-/

namespace Sismatic

open Devices

/-! ## Documents -/

/-- A document as `serde` sees it, whatever format it is in. -/
inductive Node
  | null
  | bool (b : Bool)
  | int (n : Int)
  | str (s : String)
  | list (items : List Node)
  | table (entries : List (String × Node))

/-- A format's two halves. An error is its text. -/
structure Format where
  serialize : Node → Except String String
  parse : String → Except String Node

/-- The text of this tree is read back as this tree. -/
def Format.Inverse (format : Format) (node : Node) : Prop :=
  ∃ text, format.serialize node = .ok text ∧ format.parse text = .ok node

namespace Devices

/-! ## Reading -/

def readBool : Node → Except String Bool
  | .bool b => .ok b
  | _ => .error "invalid type, expected a boolean"

/-- An unsigned integer below `bound`. -/
def readUnsigned (bound : Nat) : Node → Except String Nat
  | .int n =>
      if 0 ≤ n ∧ n < bound then .ok n.toNat else .error "invalid value, integer out of range"
  | _ => .error "invalid type, expected an integer"

def readU16 (node : Node) : Except String UInt16 := (readUnsigned (2 ^ 16) node).map UInt16.ofNat
def readU32 (node : Node) : Except String UInt32 := (readUnsigned (2 ^ 32) node).map UInt32.ofNat
def readU64 (node : Node) : Except String UInt64 := (readUnsigned (2 ^ 64) node).map UInt64.ofNat

def readString : Node → Except String String
  | .str s => .ok s
  | _ => .error "invalid type, expected a string"

def readText (node : Node) : Except String Text := do
  let s ← readString node
  if h : s.utf8ByteSize < 2 ^ 63 then .ok ⟨s, h⟩ else .error "capacity overflow"

def readList {α : Type} (read : Node → Except String α) : Node → Except String (List α)
  | .list items => items.mapM read
  | _ => .error "invalid type, expected a sequence"

/-- `#[serde(rename_all = "snake_case")]`. -/
def readBarrier : Node → Except String RawBarrier
  | .str "fail_batch" => .ok .failBatch
  | .str "dispatch_ready" => .ok .dispatchReady
  | _ => .error "unknown variant, expected `fail_batch` or `dispatch_ready`"

/-- The entries of a struct, which denies fields it does not know. -/
def readStruct (known : List String) : Node → Except String (List (String × Node))
  | .table entries =>
      match entries.find? fun entry => !known.contains entry.1 with
      | some entry => .error ("unknown field `" ++ entry.1 ++ "`")
      | none => .ok entries
  | _ => .error "invalid type, expected a map"

/-- The one entry under a key or an alias of it. -/
def field (entries : List (String × Node)) (names : List String) : Except String (Option Node) :=
  match entries.filter fun entry => names.contains entry.1 with
  | [] => .ok none
  | [entry] => .ok (some entry.2)
  | _ => .error ("duplicate field `" ++ names.headD "" ++ "`")

/-- A required field. -/
def required {α : Type} (read : Node → Except String α) (entries : List (String × Node))
    (name : String) : Except String α := do
  match ← field entries [name] with
  | some node => read node
  | none => .error ("missing field `" ++ name ++ "`")

/-- An `Option` field. -/
def optional {α : Type} (read : Node → Except String α) (entries : List (String × Node))
    (name : String) : Except String (Option α) := do
  match ← field entries [name] with
  | none | some .null => .ok none
  | some node => (read node).map some

def readDefaults (node : Node) : Except String Defaults := do
  let entries ← readStruct ["port", "username", "password", "connect_secs", "exchange_secs",
    "eager", "sis_keepalive_secs", "eager_retry_secs", "cold_backoff_secs", "disabled_fields",
    "auto_disable_after", "self_heal_secs"] node
  return {
    port := ← optional readU16 entries "port"
    username := ← optional readText entries "username"
    password := ← optional readText entries "password"
    connectSecs := ← optional readU64 entries "connect_secs"
    exchangeSecs := ← optional readU64 entries "exchange_secs"
    eager := ← optional readBool entries "eager"
    sisKeepaliveSecs := ← optional readU64 entries "sis_keepalive_secs"
    eagerRetrySecs := ← optional readU64 entries "eager_retry_secs"
    coldBackoffSecs := ← optional readU64 entries "cold_backoff_secs"
    disabledFields := ← optional (readList readString) entries "disabled_fields"
    autoDisableAfter := ← optional readU32 entries "auto_disable_after"
    selfHealSecs := ← optional readU64 entries "self_heal_secs" }

def readDevice (node : Node) : Except String RawDevice := do
  let entries ← readStruct ["id", "host", "port", "username", "password", "connect_secs",
    "exchange_secs", "eager", "sis_keepalive_secs", "eager_retry_secs", "cold_backoff_secs",
    "disabled_fields", "auto_disable_after", "self_heal_secs"] node
  return {
    id := ← required readString entries "id"
    host := ← required readText entries "host"
    port := ← optional readU16 entries "port"
    username := ← optional readText entries "username"
    password := ← optional readText entries "password"
    connectSecs := ← optional readU64 entries "connect_secs"
    exchangeSecs := ← optional readU64 entries "exchange_secs"
    eager := ← optional readBool entries "eager"
    sisKeepaliveSecs := ← optional readU64 entries "sis_keepalive_secs"
    eagerRetrySecs := ← optional readU64 entries "eager_retry_secs"
    coldBackoffSecs := ← optional readU64 entries "cold_backoff_secs"
    disabledFields := ← optional (readList readString) entries "disabled_fields"
    autoDisableAfter := ← optional readU32 entries "auto_disable_after"
    selfHealSecs := ← optional readU64 entries "self_heal_secs" }

def readGroup (node : Node) : Except String RawGroup := do
  let entries ← readStruct ["id", "devices", "barrier_timeout_secs", "barrier"] node
  return {
    id := ← required readString entries "id"
    devices := ← required (readList readString) entries "devices"
    barrierTimeoutSecs := ← optional readU64 entries "barrier_timeout_secs"
    barrier := ← optional readBarrier entries "barrier" }

/-- `Defaults::default`. -/
def Defaults.unset : Defaults :=
  ⟨none, none, none, none, none, none, none, none, none, none, none, none⟩

/-- A field that may be left out, read as `default` then. -/
def defaulted {α : Type} (default : α) (read : Node → Except String α)
    (entries : List (String × Node)) (names : List String) : Except String α := do
  match ← field entries names with
  | some node => read node
  | none => .ok default

def readConfig (node : Node) : Except String RawConfig := do
  let entries ← readStruct ["defaults", "devices", "device", "groups", "group"] node
  return {
    defaults := ← defaulted Defaults.unset readDefaults entries ["defaults"]
    devices := ← defaulted [] (readList readDevice) entries ["devices", "device"]
    groups := ← defaulted [] (readList readGroup) entries ["groups", "group"] }

/-- `from_toml_str` and its twins. -/
def fromText (newV5 : Uuid → List UInt8 → Uuid) (format : Format) (text : String) :
    Except (Fault ConfigError) Resolved := do
  let node ← (format.parse text).mapError fun e => .refused (.parse e)
  let raw ← (readConfig node).mapError fun e => .refused (.parse e)
  resolveConfig newV5 raw

end Devices

/-! ## Writing -/

inductive ExportFormat
  | toml | yaml | json
deriving DecidableEq, Repr

structure ExportQuery where
  format : ExportFormat
  promoteAutoDisabledFieldsToDisabledFields : Bool
  includeSecrets : Bool
deriving DecidableEq, Repr

structure ExportDefaults where
  username : Option String
  password : Option String

def ExportDefaults.isEmpty (defaults : ExportDefaults) : Bool :=
  defaults.username.isNone && defaults.password.isNone

structure ExportDevice where
  id : String
  host : String
  port : UInt16
  username : String
  /-- Present only when the export was asked for secrets. -/
  password : Option String
  connectSecs : UInt64
  exchangeSecs : UInt64
  eager : Bool
  sisKeepaliveSecs : UInt64
  eagerRetrySecs : UInt64
  coldBackoffSecs : UInt64
  disabledFields : List String
  autoDisableAfter : UInt32
  selfHealSecs : UInt64
deriving DecidableEq

structure ExportGroup where
  id : String
  devices : List String
  barrierTimeoutSecs : UInt64
  barrier : String
deriving DecidableEq

structure ExportDocument where
  defaults : ExportDefaults
  devices : List ExportDevice
  groups : List ExportGroup

/-- `skip_serializing_if = "Option::is_none"`. -/
def stated (name : String) (value : Option String) : List (String × Node) :=
  (value.map fun s => (name, Node.str s)).toList

def ExportDefaults.node (defaults : ExportDefaults) : Node :=
  .table (stated "username" defaults.username ++ stated "password" defaults.password)

def ExportDevice.entries (device : ExportDevice) : List (String × Node) :=
  [("id", .str device.id), ("host", .str device.host), ("port", .int device.port.toNat),
    ("username", .str device.username)] ++ stated "password" device.password ++
    [("connect_secs", .int device.connectSecs.toNat),
      ("exchange_secs", .int device.exchangeSecs.toNat), ("eager", .bool device.eager),
      ("sis_keepalive_secs", .int device.sisKeepaliveSecs.toNat),
      ("eager_retry_secs", .int device.eagerRetrySecs.toNat),
      ("cold_backoff_secs", .int device.coldBackoffSecs.toNat),
      ("disabled_fields", .list (device.disabledFields.map .str)),
      ("auto_disable_after", .int device.autoDisableAfter.toNat),
      ("self_heal_secs", .int device.selfHealSecs.toNat)]

def ExportDevice.node (device : ExportDevice) : Node := .table device.entries

def ExportGroup.entries (group : ExportGroup) : List (String × Node) :=
  [("id", .str group.id), ("devices", .list (group.devices.map .str)),
    ("barrier_timeout_secs", .int group.barrierTimeoutSecs.toNat), ("barrier", .str group.barrier)]

def ExportGroup.node (group : ExportGroup) : Node := .table group.entries

/-- `skip_serializing_if = "Vec::is_empty"`. -/
def listed {α : Type} (name : String) (write : α → Node) (items : List α) :
    List (String × Node) :=
  if items.isEmpty then [] else [(name, .list (items.map write))]

def ExportDocument.node (document : ExportDocument) : Node :=
  .table ((if document.defaults.isEmpty then [] else [("defaults", document.defaults.node)]) ++
    listed "device" ExportDevice.node document.devices ++
    listed "group" ExportGroup.node document.groups)

/-- A field name from one of the catalogs, which is all a device learns to leave alone. -/
abbrev CanonicalField := {name : FieldName // canonicalField name = some name}

/-- Fields inferred to be refused, by device id. -/
abbrev Promoted := DeviceId → List CanonicalField

/-- What an export folds into a device's list. -/
def ExportQuery.inferred (query : ExportQuery) (promoted : Promoted) (id : DeviceId) :
    List FieldName :=
  if query.promoteAutoDisabledFieldsToDisabledFields then (promoted id).map (·.val) else []

/-- `BTreeSet::extend`. -/
def extend (names : OrderedSet String) (more : List String) : OrderedSet String :=
  more.foldl (fun names name => names.insert name) names

def exportDevice (promoted : Promoted) (query : ExportQuery) (device : DeviceConfig) :
    ExportDevice where
  id := device.id
  host := device.host.val
  port := device.port
  username := device.username.val
  password := if query.includeSecrets then some device.password.val else none
  connectSecs := asSecs device.connectTimeout
  exchangeSecs := asSecs device.exchangeTimeout
  eager := device.eager
  sisKeepaliveSecs := secsOf device.sisKeepalive
  eagerRetrySecs := secsOf device.eagerRetry
  coldBackoffSecs := secsOf device.coldBackoff
  disabledFields := (extend device.disabledFields (query.inferred promoted device.id)).elems
  autoDisableAfter := device.autoDisableAfter
  selfHealSecs := secsOf device.selfHeal

def exportGroup (group : GroupConfig) : ExportGroup where
  id := group.id
  devices := group.deviceIds
  barrierTimeoutSecs := asSecs group.barrierTimeout
  barrier :=
    match group.barrier with
    | .failBatch => "fail_batch"
    | .dispatchReady => "dispatch_ready"

/-- The document an export is the text of. -/
def exported (fleet : List DeviceConfig) (groups : List GroupConfig) (promoted : Promoted)
    (query : ExportQuery) : ExportDocument where
  defaults := ⟨none, none⟩
  devices := fleet.map (exportDevice promoted query)
  groups := groups.map exportGroup

def render (formats : ExportFormat → Format) (fleet : List DeviceConfig)
    (groups : List GroupConfig) (promoted : Promoted) (query : ExportQuery) :
    Except InventoryRefusal String :=
  (formats query.format).serialize (exported fleet groups promoted query).node |>.mapError
    fun e => .source ("rendering the devices document: " ++ e)

/-- Which format a state file's extension implies. -/
def formatOf : Option String → ExportFormat
  | some "json" => .json
  | some "yaml" | some "yml" => .yaml
  | _ => .toml

/-- What the state file is asked to be, **with credentials**: it has to be loadable. -/
def stateQuery (extension : Option String) : ExportQuery where
  format := formatOf extension
  promoteAutoDisabledFieldsToDisabledFields := false
  includeSecrets := true

/-- What a change is written to the state file as. -/
def persisted (formats : ExportFormat → Format) (extension : Option String)
    (resolved : Resolved) : Except InventoryRefusal String :=
  render formats resolved.devices resolved.groups (fun _ => []) (stateQuery extension)

end Sismatic
