import Sismatic.Core.Query
import Sismatic.Lib.Bytes
import Sismatic.Lib.OrderedSet

/-!
# Device definitions

The devices document as written, and what it resolves to: every device with the
defaults folded in, and the groups over them. `resolveConfig` is the one function that
decides whether a document describes a fleet; a device it produces carries an identity
hashed from everything else about it.
-/

namespace Sismatic.Devices

/-- A `String` of the program, which never reaches `isize::MAX` bytes. -/
abbrev Text := {s : String // s.utf8ByteSize < 2 ^ 63}

/-- What a call comes to that neither returned nor was refused. -/
inductive Fault (ε : Type)
  | refused (error : ε)
  | panicked
deriving DecidableEq, Repr

/-! ## Durations -/

/-- `Duration::from_secs`. -/
def fromSecs (secs : UInt64) : Duration := secs.toNat * 1000000000

/-- `Duration::as_secs`, which truncates. -/
def asSecs (d : Duration) : UInt64 := UInt64.ofNat (d / 1000000000)

/-- `Duration + Duration`, `none` where it panics. -/
def addDuration (a b : Duration) : Option Duration :=
  if a + b < 2 ^ 64 * 1000000000 then some (a + b) else none

/-! ## Identities -/

structure Uuid where
  bytes : Vector UInt8 16
deriving DecidableEq, Repr

def hexDigit (n : Nat) : Char := if n < 10 then Char.ofNat (48 + n) else Char.ofNat (87 + n)

def hexByte (b : UInt8) : String :=
  String.ofList [hexDigit (b.toNat / 16), hexDigit (b.toNat % 16)]

/-- The hyphenated form, `8-4-4-4-12`. -/
def Uuid.toString (u : Uuid) : String :=
  let hex (i n : Nat) : String := String.join (((u.bytes.toList.drop i).take n).map hexByte)
  "-".intercalate [hex 0 4, hex 4 2, hex 6 2, hex 8 2, hex 10 6]

/-- `Uuid::nil`. -/
def Uuid.nil : Uuid := ⟨Vector.replicate 16 0⟩

/-- The namespace every device UUID is derived under. -/
def deviceNamespace : Uuid :=
  ⟨#v[0x1f, 0x9a, 0x4c, 0x2e, 0x7b, 0x63, 0x4d, 0x18, 0x9e, 0x05, 0xc2, 0x7a, 0x83, 0x11, 0x6d,
    0x40]⟩

/-! ## The document as written -/

/-- Every field is optional: a default only applies where a device omits it. -/
structure Defaults where
  port : Option UInt16
  username : Option Text
  password : Option Text
  connectSecs : Option UInt64
  exchangeSecs : Option UInt64
  eager : Option Bool
  sisKeepaliveSecs : Option UInt64
  eagerRetrySecs : Option UInt64
  coldBackoffSecs : Option UInt64
  disabledFields : Option (List String)
  autoDisableAfter : Option UInt32
  selfHealSecs : Option UInt64
deriving DecidableEq, Repr

/-- A device as written: `id` and `host` are required, the rest may inherit. -/
structure RawDevice where
  id : DeviceId
  host : Text
  port : Option UInt16
  username : Option Text
  password : Option Text
  connectSecs : Option UInt64
  exchangeSecs : Option UInt64
  eager : Option Bool
  sisKeepaliveSecs : Option UInt64
  eagerRetrySecs : Option UInt64
  coldBackoffSecs : Option UInt64
  disabledFields : Option (List String)
  autoDisableAfter : Option UInt32
  selfHealSecs : Option UInt64
deriving DecidableEq, Repr

/-- The barrier policy as spelled in a config file. -/
inductive RawBarrier
  | failBatch | dispatchReady
deriving DecidableEq, Repr

/-- A group as written. Nothing here inherits. -/
structure RawGroup where
  id : GroupId
  devices : List DeviceId
  /-- Unset means: derive it from the members. -/
  barrierTimeoutSecs : Option UInt64
  barrier : Option RawBarrier
deriving DecidableEq, Repr

structure RawConfig where
  defaults : Defaults
  devices : List RawDevice
  groups : List RawGroup
deriving DecidableEq, Repr

/-! ## What it resolves to -/

/-- What to do when a group command's barrier does not fill within its timeout. -/
inductive Barrier
  | dispatchReady | failBatch
deriving DecidableEq, Repr

def Barrier.ofRaw : RawBarrier → Barrier
  | .failBatch => .failBatch
  | .dispatchReady => .dispatchReady

/-- A device with a value for everything. -/
@[ext] structure DeviceConfig where
  uuid : Uuid
  id : DeviceId
  host : Text
  port : UInt16
  username : Text
  password : Text
  connectTimeout : Duration
  exchangeTimeout : Duration
  eager : Bool
  sisKeepalive : Option Duration
  eagerRetry : Option Duration
  coldBackoff : Option Duration
  disabledFields : OrderedSet String
  autoDisableAfter : UInt32
  selfHeal : Option Duration
deriving DecidableEq

structure GroupConfig where
  id : GroupId
  deviceIds : List DeviceId
  barrierTimeout : Duration
  barrier : Barrier
deriving DecidableEq, Repr

structure Resolved where
  devices : List DeviceConfig
  groups : List GroupConfig
deriving DecidableEq

/-- Why a document does not describe a fleet. -/
inductive ConfigError
  | io (e : String)
  | parse (e : String)
  | unsupportedFormat (ext : String)
  | duplicateId (id : String)
  | missingField (device : DeviceId) (field : String)
  | unknownDisabledField (device : DeviceId) (field : String)
  | emptyGroup (id : GroupId)
  | unknownGroupMember (group : GroupId) (device : DeviceId)
deriving DecidableEq, Repr

def ConfigError.display : ConfigError → String
  | .io e => "reading devices file: " ++ e
  | .parse e => "parsing devices file: " ++ e
  | .unsupportedFormat ext => "unsupported config file extension `" ++ ext ++ "`"
  | .duplicateId id => "duplicate device id `" ++ id ++ "`"
  | .missingField device field =>
      "device `" ++ device ++ "` is missing `" ++ field ++
        "` (set it on the device or in [defaults])"
  | .unknownDisabledField device field =>
      "device `" ++ device ++ "` disables `" ++ field ++ "`, which is not a field this server " ++
        "can query or write (see `GET /v1/reads` and `GET /v1/writes` for the accepted names)"
  | .emptyGroup id => "group `" ++ id ++ "` has no member devices"
  | .unknownGroupMember group device =>
      "group `" ++ group ++ "` names unknown device `" ++ device ++ "` (no matching [[device]])"

/-! ## Fingerprints -/

/-- The bytes of an integer of `width` bytes. -/
def putNat (width n : Nat) : List UInt8 := Bytes.put (Bytes.le width n)

def putStr (s : String) : List UInt8 := Bytes.put s.toByteArray.data.toList

def putOptDuration : Option Duration → List UInt8
  | none => putStr "-"
  | some d => putNat 16 d

/-- What a device's identity is hashed from: everything about it but the identity. -/
def fingerprintBytes (config : DeviceConfig) : List UInt8 :=
  putStr config.id ++ (putStr config.host.val ++ (putNat 2 config.port.toNat ++
  (putStr config.username.val ++ (putStr config.password.val ++
  (putNat 16 config.connectTimeout ++ (putNat 16 config.exchangeTimeout ++
  (Bytes.put [if config.eager then 1 else 0] ++ (putOptDuration config.sisKeepalive ++
  (putOptDuration config.eagerRetry ++ (putOptDuration config.coldBackoff ++
  (putNat 8 config.disabledFields.elems.length ++
  (config.disabledFields.elems.flatMap putStr ++
  (putNat 4 config.autoDisableAfter.toNat ++ putOptDuration config.selfHeal)))))))))))))

/-! ## Resolution -/

def defaultSisKeepaliveSecs : UInt64 := 120
def defaultEagerRetrySecs : UInt64 := 30
def defaultColdBackoffSecs : UInt64 := 30
def defaultPort : UInt16 := 22023
def defaultConnectSecs : UInt64 := 5
def defaultExchangeSecs : UInt64 := 3
def defaultAutoDisableAfter : UInt32 := 2
def defaultSelfHealSecs : UInt64 := 0

/-- `require`: a field set neither on the device nor in `[defaults]`. -/
def require {α : Type} (device : DeviceId) (field : String) :
    Option α → Except ConfigError α
  | some value => .ok value
  | none => .error (.missingField device field)

/-- An interval in seconds, where zero means never. -/
def interval (secs : UInt64) : Option Duration := if secs > 0 then some (fromSecs secs) else none

def canonicalDisabled (device : DeviceId) (written : String) : Except ConfigError FieldName :=
  match canonicalField written with
  | some name => .ok name
  | none => .error (.unknownDisabledField device written)

/-- Put every `disabled_fields` entry through the instruction catalogs. -/
def canonicalizeDisabled (device : DeviceId) :
    Option (List String) → Except ConfigError (OrderedSet String)
  | none => .ok OrderedSet.empty
  | some fields => (fields.mapM (canonicalDisabled device)).map OrderedSet.ofList

section Resolution

-- `Uuid::new_v5`: a namespace and a name, hashed
variable (newV5 : Uuid → List UInt8 → Uuid)

def fingerprint (config : DeviceConfig) : Uuid := newV5 deviceNamespace (fingerprintBytes config)

/-- Fold the defaults into one raw device, failing if a required field is unset. -/
def resolve (defaults : Defaults) (device : RawDevice) : Except ConfigError DeviceConfig := do
  let id := device.id
  let port := (device.port.or defaults.port).getD defaultPort
  let username ← require id "username" (device.username.or defaults.username)
  let password ← require id "password" (device.password.or defaults.password)
  let connectSecs := (device.connectSecs.or defaults.connectSecs).getD defaultConnectSecs
  let exchangeSecs := (device.exchangeSecs.or defaults.exchangeSecs).getD defaultExchangeSecs
  let eager := (device.eager.or defaults.eager).getD false
  let sisKeepaliveSecs :=
    (device.sisKeepaliveSecs.or defaults.sisKeepaliveSecs).getD defaultSisKeepaliveSecs
  let eagerRetrySecs :=
    (device.eagerRetrySecs.or defaults.eagerRetrySecs).getD defaultEagerRetrySecs
  let coldBackoffSecs :=
    (device.coldBackoffSecs.or defaults.coldBackoffSecs).getD defaultColdBackoffSecs
  -- a device's list replaces the fleet's rather than adding to it
  let disabledFields ←
    canonicalizeDisabled id (device.disabledFields.or defaults.disabledFields)
  let autoDisableAfter :=
    (device.autoDisableAfter.or defaults.autoDisableAfter).getD defaultAutoDisableAfter
  let selfHealSecs := (device.selfHealSecs.or defaults.selfHealSecs).getD defaultSelfHealSecs
  let resolved : DeviceConfig := {
    uuid := Uuid.nil
    id := id
    host := device.host
    port := port
    username := username
    password := password
    connectTimeout := fromSecs connectSecs
    exchangeTimeout := fromSecs exchangeSecs
    eager := eager
    sisKeepalive := interval sisKeepaliveSecs
    eagerRetry := interval eagerRetrySecs
    coldBackoff := interval coldBackoffSecs
    disabledFields := disabledFields
    autoDisableAfter := autoDisableAfter
    selfHeal := interval selfHealSecs }
  return { resolved with uuid := fingerprint newV5 resolved }

/--
The barrier timeout a group gets when it names none: the slowest member's connect and
exchange timeouts, rounded up to the second. `none` where the addition panics.
-/
def defaultBarrierTimeout (devices : List DeviceConfig) (members : List DeviceId) :
    Option Duration := do
  let budgets ← (members.filterMap fun id => devices.find? fun d => d.id = id).mapM
    fun d => addDuration d.connectTimeout d.exchangeTimeout
  let slowest := budgets.foldl max 0
  let rounded := asSecs slowest + (if slowest % 1000000000 > 0 then 1 else 0)
  return fromSecs (max rounded 1)

/-- The devices, in order; `seen` is every id met before them. -/
def resolveDevices (defaults : Defaults) (seen : List String) :
    List RawDevice → Except ConfigError (List DeviceConfig)
  | [] => .ok []
  | device :: rest =>
      if device.id ∈ seen then .error (.duplicateId device.id)
      else do
        let config ← resolve newV5 defaults device
        let configs ← resolveDevices defaults (device.id :: seen) rest
        return config :: configs

/-- One group over the devices resolved before it. -/
def resolveGroup (devices : List DeviceConfig) (group : RawGroup) :
    Except (Fault ConfigError) GroupConfig :=
  if group.devices.isEmpty then .error (.refused (.emptyGroup group.id))
  else
    match group.devices.find? fun member => !(devices.map (·.id)).contains member with
    | some member => .error (.refused (.unknownGroupMember group.id member))
    | none =>
        let barrierTimeout :=
          match group.barrierTimeoutSecs with
          | some secs => some (fromSecs secs)
          | none => defaultBarrierTimeout devices group.devices
        match barrierTimeout with
        | none => .error .panicked
        | some barrierTimeout => .ok {
            id := group.id
            deviceIds := group.devices
            barrierTimeout := barrierTimeout
            barrier := (group.barrier.map Barrier.ofRaw).getD .failBatch }

def resolveGroups (devices : List DeviceConfig) (seen : List String) :
    List RawGroup → Except (Fault ConfigError) (List GroupConfig)
  | [] => .ok []
  | group :: rest =>
      if group.id ∈ seen then .error (.refused (.duplicateId group.id))
      else do
        let config ← resolveGroup devices group
        let configs ← resolveGroups devices (group.id :: seen) rest
        return config :: configs

/-- Resolve a document into a validated set of devices and groups over them. -/
def resolveConfig (raw : RawConfig) : Except (Fault ConfigError) Resolved := do
  let devices ← (resolveDevices newV5 raw.defaults [] raw.devices).mapError .refused
  let groups ← resolveGroups devices (raw.devices.map (·.id)) raw.groups
  return ⟨devices, groups⟩

end Resolution

end Sismatic.Devices
