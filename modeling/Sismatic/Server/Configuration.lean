import Sismatic.ApiTypes.Config
import Sismatic.Server.Units

/-!
# The server configuration

The process-level settings: a file and the environment resolve to a `ServerConfig`, a
`ServerConfig` is served as a document, and a patch is folded onto the one in force. A
patched value is read by what reads the file, and a patched schedule is folded by what
folds the file's.
-/

namespace Sismatic

/-! ## Retention -/

/-- How far back the store keeps recorded reads. -/
inductive Retention
  | forever
  | age (window : Duration)
  | since (floor : Timestamp)
deriving DecidableEq

def foreverWord : String := "forever"
/-- The word that switches the sweeper off. -/
def neverWord : String := "never"
/-- The word that removes the cap. -/
def unlimitedWord : String := "unlimited"

namespace Configuration

open Devices (fromSecs asSecs)

/-- A leaf of the document, as the format's parser hands it to a visitor. -/
inductive Scalar
  | text (s : String)
  | unsigned (n : UInt64)
  | signed (n : Int64)
  | other (unexpected : String)
deriving DecidableEq

/-- `de::Error::invalid_type`. -/
def invalidType (unexpected expecting : String) : String :=
  "invalid type: " ++ unexpected ++ ", expected " ++ expecting

/-- The three integer arms of a visitor that has no use for a negative one. -/
def nonNegative {α : Type} (what : String) (visit : UInt64 → Except String α) (n : Int64) :
    Except String α :=
  if n.toInt < 0 then .error (what ++ " cannot be negative: " ++ toString n.toInt)
  else visit (UInt64.ofNat n.toInt.toNat)

/-- Refuse a zero window. -/
def finite (window : Duration) : Except String Retention :=
  if window = 0 then
    .error ("a zero retention window is ambiguous: write 'forever' to keep everything, or a " ++
      "duration such as '1h' to keep almost nothing")
  else .ok (.age window)

section Visitors

variable (h : Humantime) (c : Calendar)

/-- Render an instant the way the sync driver stamps a read. -/
def stamp (t : c.Instant) : Timestamp := ⟨c.toRfc3339 t⟩

/-- `Retention`, from text. -/
def retentionOfText (written : String) : Except String Retention :=
  let text := trim written
  if eqIgnoreAsciiCase text foreverWord then .ok .forever
  else
    match duration h text with
    | .ok window => finite window
    | .error durationErr =>
        match instant c text with
        | .ok floor => .ok (.since (stamp c floor))
        | .error instantErr =>
            .error ("invalid retention: " ++ durationErr ++ "; and " ++ instantErr)

def retentionOf : Scalar → Except String Retention
  | .text s => retentionOfText h c s
  | .unsigned secs => finite (fromSecs secs)
  | .signed secs => nonNegative "retention" (fun secs => finite (fromSecs secs)) secs
  | .other unexpected =>
      .error (invalidType unexpected ("a duration (30d, 2 weeks, 1h 30min), an instant " ++
        "(2026-01-01T00:00:00Z, 2026-01-01), or 'forever'"))

/-- `RawDuration`, from text. -/
def durationOfText (written : String) : Except String Duration :=
  if eqIgnoreAsciiCase (trim written) neverWord then .ok 0 else duration h written

def durationOf : Scalar → Except String Duration
  | .text s => durationOfText h s
  | .unsigned secs => .ok (fromSecs secs)
  | .signed secs => nonNegative "a duration" (fun secs => .ok (fromSecs secs)) secs
  | .other unexpected =>
      .error (invalidType unexpected
        "a duration such as 5min, 1h 30min, a number of seconds, or 'never'")

end Visitors

/-- `RawBytes`, from text. -/
def bytesOfText (written : String) : Except String UInt64 :=
  if eqIgnoreAsciiCase (trim written) unlimitedWord then .ok 0 else bytes written

def bytesOf : Scalar → Except String UInt64
  | .text s => bytesOfText s
  | .unsigned n => .ok n
  | .signed n => nonNegative "a size" .ok n
  | .other unexpected =>
      .error (invalidType unexpected
        "a size such as 512MiB, 2GB, a number of bytes, or 'unlimited'")

/-! ## The document as written -/

/-- A path is its text. -/
abbrev PathBuf := String

/-- `Path::join`. -/
def join (base path : PathBuf) : PathBuf :=
  if path.toList.head? = some '/' then path
  else if base = "" ∨ base.toList.getLast? = some '/' then base ++ path
  else base ++ "/" ++ path

structure RawField where
  name : String
  intervalSecs : Option UInt64
deriving DecidableEq

structure Defaults where
  intervalSecs : Option UInt64
  fields : Option (List RawField)
  host : Option String
  port : Option UInt16

structure RawIntentRelay where
  pollMs : Option UInt64
  maxAttempts : Option UInt32

structure RawInventory where
  configPath : Option PathBuf
  runtimeConfigPath : Option PathBuf

structure RawSync where
  intervalSecs : Option UInt64
  fields : Option (List RawField)

structure RawStore where
  retain : Option Retention
  cleanupInterval : Option Duration
  maxMemory : Option UInt64
  cleanupOnRemove : Option Bool

structure RawHttp where
  host : Option String
  port : Option UInt16

structure RawServerConfig where
  defaults : Defaults
  intentRelay : Option RawIntentRelay
  sync : Option RawSync
  inventory : Option RawInventory
  store : Option RawStore
  http : Option RawHttp

/-- The `store` section before its visitors have read it. -/
structure StoreSection where
  retain : Option Scalar
  cleanupInterval : Option Scalar
  maxMemory : Option Scalar
  cleanupOnRemove : Option Bool

/-- The file with the environment merged over it. -/
structure ConfigFile where
  defaults : Defaults
  intentRelay : Option RawIntentRelay
  sync : Option RawSync
  inventory : Option RawInventory
  store : Option StoreSection
  http : Option RawHttp

section Deserialize

variable (h : Humantime) (c : Calendar)

def StoreSection.deserialize (store : StoreSection) : Except String RawStore := do
  let retain ← store.retain.mapM (retentionOf h c)
  let cleanupInterval ← store.cleanupInterval.mapM (durationOf h)
  let maxMemory ← store.maxMemory.mapM bytesOf
  return ⟨retain, cleanupInterval, maxMemory, store.cleanupOnRemove⟩

/-- `try_deserialize`. An error is the visitor's text, without the key the crate adds. -/
def ConfigFile.deserialize (file : ConfigFile) : Except String RawServerConfig := do
  let store ← file.store.mapM (StoreSection.deserialize h c)
  return ⟨file.defaults, file.intentRelay, file.sync, file.inventory, store, file.http⟩

end Deserialize

/-! ## Resolution -/

structure InventoryConfig where
  configPath : PathBuf
  runtimeConfigPath : Option PathBuf
deriving DecidableEq

structure IntentRelayConfig where
  poll : Duration
  maxAttempts : UInt32
deriving DecidableEq

/-- One field and how often to poll it, `none` for never. -/
structure FieldConfig where
  name : String
  interval : Option Duration
deriving DecidableEq

structure SyncConfig where
  defaultInterval : Option Duration
  fields : List FieldConfig
deriving DecidableEq

structure StoreConfig where
  retain : Retention
  cleanup : Option Duration
  maxMemory : Option UInt64
  cleanupOnRemove : Bool
deriving DecidableEq

structure HttpConfig where
  host : String
  port : UInt16
deriving DecidableEq

structure ServerConfig where
  inventory : InventoryConfig
  intentRelay : IntentRelayConfig
  sync : SyncConfig
  store : StoreConfig
  http : HttpConfig
deriving DecidableEq

def defaultDevicesConfigPath : PathBuf := "devices.toml"
def defaultIntervalSecs : UInt64 := 30
def defaultHost : String := "127.0.0.1"
def defaultPort : UInt16 := 8080
def defaultIntentRelayPollMs : UInt64 := 250
def defaultMaxAttempts : UInt32 := 3
def defaultRetainSecs : UInt64 := 24 * 60 * 60
def defaultCleanupIntervalSecs : UInt64 := 5 * 60
def defaultMaxMemoryBytes : UInt64 := 256 * 1024 * 1024

/-- The entry standing for every field that can be queried. -/
def allFields : String := "*"

def handleCleanup (every : Duration) : Option Duration := if every = 0 then none else some every

def handleBudget (bytes : UInt64) : Option UInt64 := if bytes > 0 then some bytes else none

/-- `Duration::from_millis`. -/
def fromMillis (ms : UInt64) : Duration := ms.toNat * 1000000

def handlePoll (ms : UInt64) : Duration := fromMillis (max ms 1)

def effectiveAttempts (attempts : UInt32) : UInt32 := max attempts 1

def handleInterval (secs : UInt64) : Option Duration :=
  if secs > 0 then some (fromSecs secs) else none

/-- A field that inherits whatever interval the layers below it resolve to. -/
def RawField.named (name : String) : RawField := ⟨name, none⟩

def RawField.isWildcard (field : RawField) : Bool := field.name == allFields

/-- The canonical spelling of a field name, or the name unchanged. -/
def canonicalName (name : String) : String :=
  if name = allFields then name else ((Query.fromStr name).map Query.name).getD name

/-- The interval an entry states, or the inherited one. -/
def RawField.interval (field : RawField) (default : Option Duration) : Option Duration :=
  (field.intervalSecs.map handleInterval).getD default

/-- An explicit mention: the last one of a name wins, where the first one stood. -/
def mention (name : String) (resolved : Option Duration) :
    List (String × Option Duration) → List (String × Option Duration)
  | [] => [(name, resolved)]
  | entry :: entries =>
      if entry.1 = name then (name, resolved) :: entries else entry :: mention name resolved entries

/-- Every explicitly named field, and what it resolves to. -/
def explicitFields (default : Option Duration) (raw : List RawField) :
    List (String × Option Duration) :=
  (raw.filter fun field => !field.isWildcard).foldl
    (fun explicit field => mention field.name (field.interval default) explicit) []

def explicitInterval (explicit : List (String × Option Duration)) (name : String) :
    Option (Option Duration) :=
  (explicit.find? fun entry => entry.1 = name).map (·.2)

/-- Schedule a field, unless it is scheduled already. -/
def push (fields : List FieldConfig) (name : String) (resolved : Option Duration) :
    List FieldConfig :=
  if fields.any (·.name = name) then fields else fields ++ [⟨name, resolved⟩]

/-- Lay one entry out, a wildcard as the whole catalog. -/
def layOut (explicit : List (String × Option Duration)) (default : Option Duration)
    (fields : List FieldConfig) (field : RawField) : List FieldConfig :=
  if field.isWildcard then
    Query.all.foldl (fun fields query =>
      push fields query.name
        ((explicitInterval explicit query.name).getD (field.interval default))) fields
  else push fields field.name ((explicitInterval explicit field.name).getD default)

/-- Expand the wildcard and fold the per-field overrides into one schedule. -/
def resolveFields (raw : List RawField) (default : Option Duration) : List FieldConfig :=
  let raw := raw.map fun field => { field with name := canonicalName field.name }
  raw.foldl (layOut (explicitFields default raw) default) []

/-- The entries the document schedules, before they are folded. -/
def RawServerConfig.schedule (raw : RawServerConfig) : List RawField :=
  ((raw.sync.bind (·.fields)).or raw.defaults.fields).getD [.named allFields]

def resolveConfig (base : PathBuf) (raw : RawServerConfig) : ServerConfig :=
  let inventory := raw.inventory.getD ⟨none, none⟩
  let intentRelay := raw.intentRelay.getD ⟨none, none⟩
  let sync := raw.sync.getD ⟨none, none⟩
  let http := raw.http.getD ⟨none, none⟩
  let store := raw.store.getD ⟨none, none, none, none⟩
  let defaultInterval := handleInterval
    ((sync.intervalSecs.or raw.defaults.intervalSecs).getD defaultIntervalSecs)
  { inventory :=
      { configPath := join base (inventory.configPath.getD defaultDevicesConfigPath)
        runtimeConfigPath := inventory.runtimeConfigPath.map (join base) }
    intentRelay :=
      { poll := handlePoll (intentRelay.pollMs.getD defaultIntentRelayPollMs)
        maxAttempts := effectiveAttempts (intentRelay.maxAttempts.getD defaultMaxAttempts) }
    sync :=
      { defaultInterval := defaultInterval
        fields := resolveFields raw.schedule defaultInterval }
    store :=
      { retain := store.retain.getD (.age (fromSecs defaultRetainSecs))
        cleanup := handleCleanup (store.cleanupInterval.getD (fromSecs defaultCleanupIntervalSecs))
        maxMemory := handleBudget (store.maxMemory.getD defaultMaxMemoryBytes)
        cleanupOnRemove := store.cleanupOnRemove.getD false }
    http :=
      { host := (http.host.or raw.defaults.host).getD defaultHost
        port := (http.port.or raw.defaults.port).getD defaultPort } }

/-- The command line. -/
structure Overrides where
  inventoryConfigPath : Option PathBuf
  host : Option String
  port : Option UInt16

/-- Fold the command line in above what the file and the environment resolved to. -/
def ServerConfig.withOverrides (config : ServerConfig) (overrides : Overrides) : ServerConfig :=
  { config with
    inventory :=
      { configPath := overrides.inventoryConfigPath.getD config.inventory.configPath
        runtimeConfigPath := config.inventory.runtimeConfigPath }
    http :=
      { host := overrides.host.getD config.http.host
        port := overrides.port.getD config.http.port } }

/-- Where the configuration is read from; `base` is the directory `path` is in. -/
structure ConfigSource where
  path : PathBuf
  base : PathBuf
  overrides : Overrides

/-- What the loader makes of the document, as it stands when it is read. -/
def ConfigSource.load (h : Humantime) (c : Calendar) (source : ConfigSource)
    (file : Except String ConfigFile) : Except String ServerConfig := do
  let raw ← (← file).deserialize h c
  return (resolveConfig source.base raw).withOverrides source.overrides

end Configuration

end Sismatic
