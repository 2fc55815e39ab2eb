import Sismatic.StoreMemory.Reads

/-!
# A call from beginning to end

The four calls of the read store, each run through with no other call in between.
-/

namespace Sismatic

namespace MemoryStore

/-- One turn of `drop_front`'s loop. -/
def dropSlot (store : MemoryStore) (slot : Slot) : MemoryStore :=
  match store.history? slot.device with
  | none => store
  | some fields =>
      let fields := popFront fields slot.field
      let store := store.setHistory slot.device (some fields)
      if fields.isEmpty then store.removeIfEmpty slot.device else store

def dropFront (store : MemoryStore) (slots : List Slot) : MemoryStore := slots.foldl dropSlot store

def upsertLatest (layout : Layout) (store : MemoryStore) (read : Read) : MemoryStore :=
  let latest := store.latest read.device
  let displaced := (latest[read.field]?.map (latestBytes layout)).getD 0
  let store := store.setLatest read.device (latest.insert read.field read)
  let history := store.history read.device
  let series := history[read.field]?.getD [] ++ [read]
  let store := store.setHistory read.device (some (history.insert read.field series))
  let slot : Slot := ⟨read.device, read.field, read.atTime, historyBytes layout read⟩
  let (books, evicted) := store.books.admitSlot (latestBytes layout read) displaced slot
  { store with books := books }.dropFront evicted

/-- The number of entries that went. -/
def forgetDevice (layout : Layout) (store : MemoryStore) (device : DeviceId) : MemoryStore × Nat :=
  let dropped := ((store.latest device).values.map (latestBytes layout)).sum
  let store := store.setLatest device ∅
  let (books, slots) := store.books.forget device dropped
  ({ store with books := books }.setHistory device none, slots.length)

/-- The number of entries that had expired, and their bytes. -/
def prune (store : MemoryStore) (before : Timestamp) : MemoryStore × Nat × Nat :=
  let (books, expired) := store.books.expire before
  ({ store with books := books }.dropFront expired,
    expired.length, (expired.map (·.bytes)).sum)

/-- The number of entries the new cap cost. -/
def setBudget (store : MemoryStore) (budget : Option Nat) : MemoryStore × Nat :=
  let (books, evicted) := store.books.recap budget
  ({ store with books := books }.dropFront evicted, evicted.length)

def perform (layout : Layout) (store : MemoryStore) : Request → MemoryStore × Answer
  | .upsertLatest read => (store.upsertLatest layout read, .upserted)
  | .forgetDevice device =>
      let (store, entries) := store.forgetDevice layout device
      (store, .forgot entries)
  | .prune before =>
      let (store, entries, bytes) := store.prune before
      (store, .swept entries bytes)
  | .setBudget budget =>
      let (store, entries) := store.setBudget budget
      (store, .recapped entries)

end MemoryStore

end Sismatic
