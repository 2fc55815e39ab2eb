import Sismatic.Server.Fleet

/-!
# A verb, step by step

A verb changes the document, the catalog and the registry under the document's lock, and
does what is left in the outbox after letting go of it. Other verbs and other callers come
in between, so a verb in progress is what it still has to do.
-/

namespace Sismatic

/-- One thing a verb does in the outbox once the fleet is changed. -/
inductive Errand
  | cancelQueued (device : DeviceId) (reason : String)
  | forgetGroup (group : GroupId)
deriving DecidableEq, Repr

def Errand.run (o : MemoryOutbox) : Errand → MemoryOutbox
  | .cancelQueued device reason => (o.cancelQueued device reason).1
  | .forgetGroup group => o.forgetGroup group

namespace LiveFleet

variable (newV5 : Devices.Uuid → List UInt8 → Devices.Uuid)

/-- What a verb does under the lock, and what that leaves it to do. -/
def begin (fleet : LiveFleet) : Change → LiveFleet × List Errand
  | .add write => ((fleet.add newV5 write).1, [])
  | .replace id write => ((fleet.replace newV5 id write).1, [])
  | .remove id =>
      match fleet.takeOut newV5 id with
      | (fleet, .error _) => (fleet, [])
      | (fleet, .ok _) => (fleet, [.cancelQueued id "the device was removed from the fleet"])
  | .addGroup write => ((fleet.addGroup newV5 write).1, [])
  | .replaceGroup id write => ((fleet.replaceGroup newV5 id write).1, [])
  | .removeGroup id =>
      match fleet.takeOutGroup newV5 id with
      | (fleet, .error _) => (fleet, [])
      | (fleet, .ok _) => (fleet, [.forgetGroup id])
  | .reset source =>
      match fleet.reload newV5 source with
      | (fleet, .error _) => (fleet, [])
      | (fleet, .ok (_, change)) =>
          (fleet, change.removed.map fun id =>
            .cancelQueued id "the device was removed by an inventory reset")

/-- One errand, on the fleet's outbox. -/
def runErrand (fleet : LiveFleet) (errand : Errand) : LiveFleet :=
  { fleet with outbox := errand.run fleet.outbox }

/-- Refused or not, a removal's first step leaves what taking the device out leaves. -/
theorem begin_remove (fleet : LiveFleet) (id : DeviceId) :
    (fleet.begin newV5 (.remove id)).1 = (fleet.takeOut newV5 id).1 := by
  simp only [begin]
  rcases fleet.takeOut newV5 id with ⟨after, answer⟩
  cases answer <;> rfl

theorem begin_removeGroup (fleet : LiveFleet) (id : GroupId) :
    (fleet.begin newV5 (.removeGroup id)).1 = (fleet.takeOutGroup newV5 id).1 := by
  simp only [begin]
  rcases fleet.takeOutGroup newV5 id with ⟨after, answer⟩
  cases answer <;> rfl

theorem foldl_runErrand (fleet : LiveFleet) (ids : List DeviceId) (reason : String) :
    (ids.map fun id => Errand.cancelQueued id reason).foldl runErrand fleet =
      { fleet with outbox :=
          ids.foldl (fun outbox id => (outbox.cancelQueued id reason).1) fleet.outbox } := by
  induction ids generalizing fleet with
  | nil => rfl
  | cons id ids ih =>
      rw [List.map_cons, List.foldl_cons, ih]
      rfl

/-- **With nothing in between, a verb is its first step and its errands.** -/
theorem change_eq (fleet : LiveFleet) (change : Change) :
    (fleet.change newV5 change).1 =
      (fleet.begin newV5 change).2.foldl runErrand (fleet.begin newV5 change).1 := by
  cases change with
  | add write => rfl
  | replace id write => rfl
  | addGroup write => rfl
  | replaceGroup id write => rfl
  | remove id =>
      simp only [LiveFleet.change, remove, begin]
      rcases fleet.takeOut newV5 id with ⟨after, answer⟩
      cases answer <;> rfl
  | removeGroup id =>
      simp only [LiveFleet.change, removeGroup, begin]
      rcases fleet.takeOutGroup newV5 id with ⟨after, answer⟩
      cases answer <;> rfl
  | reset source =>
      simp only [LiveFleet.change, reset, begin]
      rcases fleet.reload newV5 source with ⟨after, answer⟩
      cases answer with
      | error fault => rfl
      | ok found => exact (foldl_runErrand after found.2.removed _).symm

end LiveFleet

end Sismatic
