import Sismatic.Server.Configuration
import Sismatic.StoreMemory.Calls
import Sismatic.StoreMemory.Outbox

/-!
# Settings that change while the process runs

What the process is running under, as a document, and what it would be running under if a
patch were applied. A reload is the file folded on as the patch its document is. What is
adopted is published at once: to the loops that read a channel, and to the two adapters
that enforce a setting themselves.
-/

namespace Sismatic

namespace Configuration

open Devices (asSecs)

/-! ## The document -/

/-- Never is zero seconds. -/
def secs (interval : Option Duration) : UInt64 := (interval.map asSecs).getD 0

/-- `u64::try_from(poll.as_millis())`, saturating. -/
def asMillis (d : Duration) : UInt64 := UInt64.ofNat (min (d / 1000000) (2 ^ 64 - 1))

/-- A retention as text that reads back as itself. -/
def renderRetention (h : Humantime) : Retention → String
  | .forever => foreverWord
  | .age window => h.formatDuration window
  | .since floor => floor.str

def document (h : Humantime) (config : ServerConfig) : ConfigDocument where
  sync :=
    { intervalSecs := secs config.sync.defaultInterval
      fields := config.sync.fields.map fun field => ⟨field.name, some (secs field.interval)⟩ }
  store :=
    { retain := renderRetention h config.store.retain
      cleanupInterval := (config.store.cleanup.map h.formatDuration).getD neverWord
      maxMemory := (config.store.maxMemory.map formatBytes).getD unlimitedWord }
  intentRelay :=
    { pollMs := asMillis config.intentRelay.poll, maxAttempts := config.intentRelay.maxAttempts }
  http := { host := config.http.host, port := config.http.port }
  inventory :=
    { configPath := config.inventory.configPath
      runtimeConfigPath := config.inventory.runtimeConfigPath }

/-! ## A patch -/

/-- Why a patch was not applied. -/
inductive PatchError
  | malformed (what : String)
  | fixed (what : String)
deriving DecidableEq, Repr

/-- Refuse a patch that would change a setting fixed until a restart. -/
def checkFixed (current : ServerConfig) (patch : ConfigPatch) : Except PatchError Unit := do
  if let some http := patch.http then
    if http.host ≠ current.http.host ∨ http.port ≠ current.http.port then
      throw (.fixed ("http is fixed until this process restarts: it is bound to " ++
        current.http.host ++ ":" ++ toString current.http.port ++ " and cannot be moved to " ++
        http.host ++ ":" ++ toString http.port ++ " without rebinding the listener, which would " ++
        "drop every connection in flight"))
  if let some inventory := patch.inventory then
    if let some named := inventory.configPath then
      if named ≠ current.inventory.configPath then
        throw (.fixed ("inventory.config_path is fixed until this process restarts: the device " ++
          "registry — and its open SSH sessions — was built from '" ++
          current.inventory.configPath ++ "', and pointing it at '" ++ named ++
          "' means building another one"))
    if inventory.runtimeConfigPath.isSome ∧
        inventory.runtimeConfigPath ≠ current.inventory.runtimeConfigPath then
      throw (.fixed ("inventory.runtime_config_path is fixed until this process restarts: this " ++
        "server persists the fleet to " ++ current.inventory.runtimeConfigPath.getD "nowhere" ++
        ", and moving that mid-run would leave two files each describing a fleet nobody is " ++
        "running"))

def patchedRelay (current : IntentRelayConfig) : Option RelayPatch → IntentRelayConfig
  | none => current
  | some patch =>
      { poll := (patch.pollMs.map handlePoll).getD current.poll
        maxAttempts := (patch.maxAttempts.map effectiveAttempts).getD current.maxAttempts }

/-- Refuse a field name that cannot be queried. -/
def known (name : String) : Except PatchError Unit :=
  if name = allFields ∨ (Query.fromStr name).isSome then .ok ()
  else
    .error (.malformed ("sync.fields: '" ++ name ++ "' is not a field this server can query; " ++
      "GET /v1/reads lists every name that is, and '*' stands for all of them"))

def FieldSettings.raw (field : FieldSettings) : Except PatchError RawField := do
  known field.name
  return ⟨field.name, field.intervalSecs⟩

/--
The schedule as stated, or the one in force at another interval, or as it was. All three
end at `resolveFields`.
-/
def patchedSync (current : SyncConfig) : Option SyncPatch → Except PatchError SyncConfig
  | none | some ⟨none, none⟩ => .ok current
  | some patch => do
      let defaultInterval := (patch.intervalSecs.map handleInterval).getD current.defaultInterval
      let raw ← match patch.fields with
        | some fields => fields.mapM FieldSettings.raw
        | none => .ok (current.fields.map fun field => .named field.name)
      return ⟨defaultInterval, resolveFields raw defaultInterval⟩

/-- Read one setting out of the text a request wrote it as. -/
def setting {α : Type} (key : String) (visit : String → Except String α) (text : String) :
    Except PatchError α :=
  match visit text with
  | .ok value => .ok value
  | .error err => .error (.malformed (key ++ ": " ++ err))

section Live

variable (h : Humantime) (c : Calendar)

def patchedStore (current : StoreConfig) : Option StorePatch → Except PatchError StoreConfig
  | none => .ok current
  | some patch => do
      let retain ← match patch.retain with
        | some text => setting "store.retain" (retentionOfText h c) text
        | none => .ok current.retain
      let cleanup ← match patch.cleanupInterval with
        | some text => (setting "store.cleanup_interval" (durationOfText h) text).map handleCleanup
        | none => .ok current.cleanup
      let maxMemory ← match patch.maxMemory with
        | some text => (setting "store.max_memory" bytesOfText text).map handleBudget
        | none => .ok current.maxMemory
      return ⟨retain, cleanup, maxMemory, current.cleanupOnRemove⟩

/-- Fold a patch onto the settings in force. -/
def patched (current : ServerConfig) (patch : ConfigPatch) : Except PatchError ServerConfig := do
  checkFixed current patch
  let sync ← patchedSync current.sync patch.sync
  let store ← patchedStore h c current.store patch.store
  return { current with
    intentRelay := patchedRelay current.intentRelay patch.intentRelay, sync := sync
    store := store }

/-! ## The live settings -/

/-- What the sync driver is told of one field. -/
structure FieldSchedule where
  name : String
  interval : Option Duration
deriving DecidableEq

/-- The settings as they stand, and what enforces a piece of them. -/
structure LiveSettings where
  current : ServerConfig
  source : ConfigSource
  schedule : List FieldSchedule
  policy : StoreConfig
  drain : Duration
  store : MemoryStore
  outbox : MemoryOutbox

inductive ConfigRefusal
  | malformed (what : String)
  | fixed (what : String)
  | source (what : String)
deriving DecidableEq, Repr

def refuse : PatchError → ConfigRefusal
  | .malformed what => .malformed what
  | .fixed what => .fixed what

def schedules (sync : SyncConfig) : List FieldSchedule :=
  sync.fields.map fun field => ⟨field.name, field.interval⟩

/-- `set_max_attempts`. -/
def setMaxAttempts (outbox : MemoryOutbox) (attempts : UInt32) : MemoryOutbox :=
  { outbox with maxAttempts := (max attempts 1).toNat }

namespace LiveSettings

/-- Hold `config` as the running settings. -/
def new (config : ServerConfig) (source : ConfigSource) (store : MemoryStore)
    (outbox : MemoryOutbox) : LiveSettings where
  current := config
  source := source
  schedule := schedules config.sync
  policy := config.store
  drain := config.intentRelay.poll
  store := store
  outbox := outbox

/-- Publish `next` to all that enforces a piece of it, and adopt it. -/
def publish (settings : LiveSettings) (next : ServerConfig) : LiveSettings × ConfigDocument :=
  ({ settings with
      schedule := schedules next.sync
      policy := next.store
      drain := next.intentRelay.poll
      store := (settings.store.setBudget (next.store.maxMemory.map UInt64.toNat)).1
      outbox := setMaxAttempts settings.outbox next.intentRelay.maxAttempts
      current := next },
    document h next)

def apply (settings : LiveSettings) (patch : ConfigPatch) :
    LiveSettings × Except ConfigRefusal ConfigDocument :=
  match patched h c settings.current patch with
  | .error err => (settings, .error (refuse err))
  | .ok next =>
      let (settings, applied) := settings.publish h next
      (settings, .ok applied)

/-- Read the file again, and fold it on as the patch its document is. -/
def reload (settings : LiveSettings) (file : Except String ConfigFile) :
    LiveSettings × Except ConfigRefusal ConfigDocument :=
  match settings.source.load h c file with
  | .error err => (settings, .error (.source ("reading " ++ settings.source.path ++ ": " ++ err)))
  | .ok loaded => settings.apply h c (document h loaded).asPatch

end LiveSettings

end Live

end Configuration

end Sismatic
