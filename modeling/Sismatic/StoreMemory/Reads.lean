import Sismatic.ApiTypes
import Mathlib.Algebra.Ring.Nat
import Mathlib.Logic.Function.Basic
import Std.Data.TreeMap

/-!
# The in-memory read store

`MemoryStore` of `sismatic-store-memory`: the latest read of every field, the reads before
it, and the ledger the memory budget is enforced against. No lock is held across two of
the three, so a call is the steps it takes, and other calls come in between them.

A device with nothing filed has no entry in the source's maps, and every reader treats that
as an empty one. Whether `history` keeps an entry for such a device is part of the state;
for `latest`, which only ever loses a device whole, it is not. Byte counts are `u64` figures
that are only ever added up and subtracted saturating.
-/

namespace Sismatic

/-- One value read from a device. -/
structure Read where
  device : DeviceId
  field : FieldName
  value : ReadValue
  atTime : Timestamp
deriving DecidableEq, Repr

/-! ## What an entry costs -/

/-- What `size_of` says of the stored structs. -/
structure Layout where
  read : Nat
  alarm : Nat
  slot : Nat

/-- The sizes on a 64-bit machine. -/
def layout64 : Layout := ⟨104, 48, 80⟩

/-- The flat surcharge for what the estimate cannot see. -/
def entryOverhead : Nat := 64

/-- The part of a value that lives outside the enum. -/
def valueBytes (layout : Layout) : ReadValue → Nat
  | .text s | .version s | .ack s => s.utf8ByteSize
  | .mac mac => mac.utf8ByteSize
  | .alarms alarms =>
      (alarms.map fun a => layout.alarm + a.name.utf8ByteSize + a.level.utf8ByteSize).sum
  | .port _ | .number _ | .flag _ | .state _ => 0

def readBytes (layout : Layout) (read : Read) : Nat :=
  (layout.read + read.device.utf8ByteSize + read.field.utf8ByteSize +
    read.atTime.str.utf8ByteSize) + valueBytes layout read.value

/-- What one `latest` entry costs. -/
def latestBytes (layout : Layout) (read : Read) : Nat :=
  readBytes layout read + read.field.utf8ByteSize + entryOverhead

/-- What one history entry costs, its ledger slot included. -/
def historyBytes (layout : Layout) (read : Read) : Nat :=
  readBytes layout read + (layout.slot + read.device.utf8ByteSize + read.field.utf8ByteSize +
    read.atTime.str.utf8ByteSize) + entryOverhead

/-! ## The ledger -/

/-- The ledger's record of one stored history entry. -/
structure Slot where
  device : DeviceId
  field : FieldName
  atTime : Timestamp
  /-- What removing the entry reclaims. -/
  bytes : Nat
deriving DecidableEq, Repr

/-- Every stored history entry in write order, with the totals and the cap. -/
structure Books where
  budget : Option Nat
  queue : List Slot
  historyBytes : Nat
  latestBytes : Nat
  /-- Entries the budget has dropped since the process started. -/
  evicted : Nat

namespace Books

def used (books : Books) : Nat := books.latestBytes + books.historyBytes

/-- File a newly written history entry. -/
def record (books : Books) (slot : Slot) : Books :=
  { books with historyBytes := books.historyBytes + slot.bytes, queue := books.queue ++ [slot] }

/-- Account for `latest` gaining `added` and losing `removed`. -/
def restateLatest (books : Books) (added removed : Nat) : Books :=
  { books with latestBytes := books.latestBytes + added - removed }

/-- Claim the oldest entries of `queue` until the estimate is within `budget`. -/
def takeOverBudget (budget : Nat) (books : Books) : List Slot → Books × List Slot
  | [] => ({ books with queue := [] }, [])
  | slot :: queue =>
      if books.used > budget then
        let books := { books with
          historyBytes := books.historyBytes - slot.bytes, evicted := books.evicted + 1 }
        let (books, taken) := takeOverBudget budget books queue
        (books, slot :: taken)
      else ({ books with queue := slot :: queue }, [])

/-- Claim whatever the current cap says has to go. -/
def enforce (books : Books) : Books × List Slot :=
  match books.budget with
  | some budget => takeOverBudget budget books books.queue
  | none => (books, [])

/-- Claim every slot `p` picks, settling `historyBytes` for them. -/
def take (books : Books) (p : Slot → Bool) : Books × List Slot :=
  let taken := books.queue.filter p
  ({ books with
      queue := books.queue.filter fun slot => !p slot
      historyBytes := taken.foldl (fun bytes slot => bytes - slot.bytes) books.historyBytes },
    taken)

/-- Claim every entry stamped before `before`. -/
def takeExpired (books : Books) (before : Timestamp) : Books × List Slot :=
  books.take fun slot => decide (slot.atTime.str < before.str)

/-- Claim every slot belonging to `device`. -/
def takeDevice (books : Books) (device : DeviceId) : Books × List Slot :=
  books.take fun slot => decide (slot.device = device)

/-! The four locked operations of the ledger. -/

def admitSlot (books : Books) (added displaced : Nat) (slot : Slot) : Books × List Slot :=
  ((books.restateLatest added displaced).record slot).enforce

def recap (books : Books) (budget : Option Nat) : Books × List Slot :=
  { books with budget := budget }.enforce

def expire (books : Books) (before : Timestamp) : Books × List Slot := books.takeExpired before

def forget (books : Books) (device : DeviceId) (latestBytes : Nat) : Books × List Slot :=
  (books.restateLatest 0 latestBytes).takeDevice device

end Books

/-! ## The store -/

/-- What is filed under one device, by field. -/
abbrev Fields (α : Type) := Std.TreeMap FieldName α

structure MemoryStore where
  latest : DeviceId → Fields Read
  /-- Each field's reads, oldest first, of the devices that have an entry. -/
  history? : DeviceId → Option (Fields (List Read))
  books : Books

namespace MemoryStore

/-- An empty store under this cap. -/
def withBudget (budget : Option Nat) : MemoryStore where
  latest := fun _ => ∅
  history? := fun _ => none
  books := ⟨budget, [], 0, 0, 0⟩

/-- What is filed under a device, an absent entry read as an empty one. -/
def history (store : MemoryStore) (device : DeviceId) : Fields (List Read) :=
  (store.history? device).getD ∅

def setLatest (store : MemoryStore) (device : DeviceId) (fields : Fields Read) : MemoryStore :=
  { store with latest := Function.update store.latest device fields }

def setHistory (store : MemoryStore) (device : DeviceId) (fields : Option (Fields (List Read))) :
    MemoryStore := { store with history? := Function.update store.history? device fields }

/-- One field's series without its oldest entry, and without the series if that was its last. -/
def popFront (fields : Fields (List Read)) (field : FieldName) : Fields (List Read) :=
  match fields[field]? with
  | none => fields
  | some series =>
      match series.drop 1 with
      | [] => fields.erase field
      | rest => fields.insert field rest

/-- `remove_if`, of a device nothing is filed under. -/
def removeIfEmpty (store : MemoryStore) (device : DeviceId) : MemoryStore :=
  if (store.history? device).any (·.isEmpty) then store.setHistory device none else store

/-- `between`: the reads of one field whose stamps lie in `span`, oldest first. -/
def between (store : MemoryStore) (device : DeviceId) (field : FieldName) (span : TimeSpan) :
    List Read :=
  (((store.history device)[field]?).map (·.filter fun r => span.within r.atTime)).getD []

end MemoryStore

/-- What a call answers. -/
inductive Answer
  | upserted
  | swept (entries bytes : Nat)
  | recapped (entries : Nat)
  | forgot (entries : Nat)
deriving DecidableEq, Repr

/-- A call of the store in progress, as what it does next. -/
inductive Call
  /-- `upsert_latest`, about to file the read as the latest. -/
  | upsert (read : Read)
  /-- About to append it to its history. -/
  | append (read : Read) (displaced : Nat)
  /-- About to settle the books for it. -/
  | admitting (read : Read) (displaced : Nat)
  /-- `forget_device`, about to drop what is latest. -/
  | forget (device : DeviceId)
  /-- About to settle the books for it. -/
  | settle (device : DeviceId) (dropped : Nat)
  /-- About to drop the history. -/
  | clear (device : DeviceId) (entries : Nat)
  /-- `prune`, about to claim what has expired. -/
  | prune (before : Timestamp)
  /-- `set_budget`. -/
  | recap (budget : Option Nat)
  /-- `drop_front`, about to drop, one after another, the entries it has claimed. -/
  | dropping (slots : List Slot) (answer : Answer)
  /-- About to take out a device it has left nothing filed under, and then to go on. -/
  | vacating (device : DeviceId) (slots : List Slot) (answer : Answer)
  | done (answer : Answer)
deriving DecidableEq, Repr

/-- What the store is asked to do. -/
inductive Request
  | upsertLatest (read : Read)
  | forgetDevice (device : DeviceId)
  | prune (before : Timestamp)
  | setBudget (budget : Option Nat)

/-- The call that does it, before its first step. -/
def Request.begin : Request → Call
  | .upsertLatest read => .upsert read
  | .forgetDevice device => .forget device
  | .prune before => .prune before
  | .setBudget budget => .recap budget

/-- One step of a call. -/
def Call.step (layout : Layout) (store : MemoryStore) : Call → MemoryStore × Call
  | .upsert read =>
      let fields := store.latest read.device
      let displaced := (fields[read.field]?.map (latestBytes layout)).getD 0
      (store.setLatest read.device (fields.insert read.field read), .append read displaced)
  | .append read displaced =>
      let fields := store.history read.device
      let series := fields[read.field]?.getD [] ++ [read]
      (store.setHistory read.device (some (fields.insert read.field series)),
        .admitting read displaced)
  | .admitting read displaced =>
      let slot : Slot := ⟨read.device, read.field, read.atTime, historyBytes layout read⟩
      let (books, evicted) := store.books.admitSlot (latestBytes layout read) displaced slot
      ({ store with books := books }, .dropping evicted .upserted)
  | .forget device =>
      let dropped := ((store.latest device).values.map (latestBytes layout)).sum
      (store.setLatest device ∅, .settle device dropped)
  | .settle device dropped =>
      let (books, slots) := store.books.forget device dropped
      ({ store with books := books }, .clear device slots.length)
  | .clear device entries => (store.setHistory device none, .done (.forgot entries))
  | .prune before =>
      let (books, expired) := store.books.expire before
      ({ store with books := books },
        .dropping expired (.swept expired.length (expired.map (·.bytes)).sum))
  | .recap budget =>
      let (books, evicted) := store.books.recap budget
      ({ store with books := books }, .dropping evicted (.recapped evicted.length))
  | .dropping slots answer =>
      match slots with
      | [] => (store, .done answer)
      | slot :: slots =>
          match store.history? slot.device with
          | none => (store, .dropping slots answer)
          | some fields =>
              let fields := MemoryStore.popFront fields slot.field
              (store.setHistory slot.device (some fields),
                if fields.isEmpty then .vacating slot.device slots answer
                else .dropping slots answer)
  | .vacating device slots answer => (store.removeIfEmpty device, .dropping slots answer)
  | .done answer => (store, .done answer)

end Sismatic
