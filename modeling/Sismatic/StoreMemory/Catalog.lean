import Sismatic.ApiTypes
import Mathlib.Data.List.Sort
import Mathlib.Data.String.Basic

/-!
# The catalog

The secret-free projection of the fleet that the read routes serve and the write routes
look targets up in: two lists behind two locks, each replaced as a whole.
-/

namespace Sismatic

inductive ConnectionStatus
  | warm | busy | cold | gated | unknown
deriving DecidableEq, Repr

structure DeviceSummary where
  id : DeviceId
  uuid : String
  host : String
  port : UInt16
  eager : Bool
  status : ConnectionStatus
  disabledFields : List FieldName
  autoDisabledFields : List FieldName
deriving DecidableEq, Repr

structure GroupSummary where
  id : GroupId
  members : List DeviceId
  barrierTimeoutSecs : UInt64
  barrier : Barrier
deriving DecidableEq, Repr

structure MemoryCatalog where
  devices : List DeviceSummary
  groups : List GroupSummary
deriving DecidableEq, Repr

namespace MemoryCatalog

def sortedDevices (devices : List DeviceSummary) : List DeviceSummary :=
  devices.insertionSort fun a b => a.id ≤ b.id

def sortedGroups (groups : List GroupSummary) : List GroupSummary :=
  groups.insertionSort fun a b => a.id ≤ b.id

def new (devices : List DeviceSummary) (groups : List GroupSummary) : MemoryCatalog :=
  ⟨sortedDevices devices, sortedGroups groups⟩

/-- The first of the two writes `replace` makes. -/
def replaceDevices (catalog : MemoryCatalog) (devices : List DeviceSummary) : MemoryCatalog :=
  { catalog with devices := sortedDevices devices }

/-- The second. -/
def replaceGroups (catalog : MemoryCatalog) (groups : List GroupSummary) : MemoryCatalog :=
  { catalog with groups := sortedGroups groups }

/-- Adopt a new device and group set wholesale. -/
def replace (catalog : MemoryCatalog) (devices : List DeviceSummary)
    (groups : List GroupSummary) : MemoryCatalog :=
  (catalog.replaceDevices devices).replaceGroups groups

def device (catalog : MemoryCatalog) (id : DeviceId) : Option DeviceSummary :=
  catalog.devices.find? fun d => d.id = id

def group (catalog : MemoryCatalog) (id : GroupId) : Option GroupSummary :=
  catalog.groups.find? fun g => g.id = id

end MemoryCatalog

end Sismatic
