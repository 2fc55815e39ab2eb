import Sismatic.HttpUi.DeviceView
import Mathlib.Logic.Function.Basic

/-!
# The drafts of the registers panel

One draft per metadata register, and which of them the fleet is still owed. What the
catalog offers, what the devices report, what has been typed and what the server has
accepted are kept apart, and a row is worked out from the four as they stand.
-/

namespace Sismatic

/-- The text every device behind a card is taken to hold. -/
def assumedText : Option FieldState → Option String
  -- heard nothing at all
  | none => some ""
  | some state =>
      -- known to differ, so known not to be empty
      if state.mixed then none
      else
        match state.read with
        | none => some ""
        | some (.text value) => some value
        | some _ => none

/-- One register, as the panel draws it. -/
structure RegisterRow where
  field : FieldName
  /-- What is in the box. -/
  draft : String
  /-- What the fleet is taken to hold, as a box can hold it. -/
  fleet : String
  current : String
  /-- Edited, and the fleet has not been told yet. -/
  unsaved : Bool
  /-- Submitted and accepted; no device has reported it back yet. -/
  sent : Bool
  clearable : Bool
deriving DecidableEq, Repr

structure RegisterWrite where
  field : FieldName
  value : String
deriving DecidableEq, Repr

inductive RecordingVerb
  | start | stop | pause
deriving DecidableEq, Repr

/-- A save that has not been answered. -/
structure RegisterSave where
  writes : List RegisterWrite
  /-- The verb that is submitted once every write is accepted. -/
  verb : Option RecordingVerb
deriving DecidableEq, Repr

structure RegisterDrafts where
  /-- The registers the catalog offers a write for. -/
  registers : List FieldName
  values : FieldName → Option FieldState
  /-- What has been typed, in the boxes somebody has typed in. -/
  changes : FieldName → Option String
  /-- What the server has accepted last. -/
  submitted : FieldName → Option String
  saving : List RegisterSave

namespace RegisterDrafts

def row (d : RegisterDrafts) (field : FieldName) : RegisterRow :=
  let state := d.values field
  let assumed := assumedText state
  let changed := (d.changes field).isSome
  let draft := (d.changes field).getD (assumed.getD "")
  let matchesFleet := decide (assumed = some draft)
  { field := field
    draft := draft
    fleet := assumed.getD ""
    current := (state.map (·.display)).getD "Not read yet"
    unsaved := changed && !matchesFleet && decide (d.submitted field ≠ some draft)
    sent := changed && !matchesFleet && decide (d.submitted field = some draft)
    clearable := decide (draft ≠ "") || (!matchesFleet && !changed) }

def rows (d : RegisterDrafts) : List RegisterRow := d.registers.map d.row

def set (d : RegisterDrafts) (field : FieldName) (value : String) : RegisterDrafts :=
  { d with changes := Function.update d.changes field (some value) }

def clear (d : RegisterDrafts) (field : FieldName) : RegisterDrafts := d.set field ""

/-- Empty every box at once. -/
def clearAll (d : RegisterDrafts) : RegisterDrafts :=
  { d with changes := fun field => if field ∈ d.registers then some "" else none }

/-- Forget every change and follow the fleet again. A save under way is answered all the same. -/
def discard (d : RegisterDrafts) : RegisterDrafts :=
  { d with changes := fun _ => none, submitted := fun _ => none }

/-- What a save writes: every unsaved row. -/
def pending (d : RegisterDrafts) : List RegisterWrite :=
  (d.rows.filter (·.unsaved)).map fun row => ⟨row.field, row.draft⟩

/-- Write what is pending, and submit `verb` after it. -/
def save (d : RegisterDrafts) (verb : Option RecordingVerb) : RegisterDrafts :=
  if d.pending = [] then d else { d with saving := d.saving ++ [⟨d.pending, verb⟩] }

/-- The server takes every write of a save. -/
def accepted (d : RegisterDrafts) (save : RegisterSave) : RegisterDrafts :=
  { d with
    submitted := save.writes.foldl (fun submitted write =>
      Function.update submitted write.field (some write.value)) d.submitted
    saving := d.saving.erase save }

/-- The server refuses a write of a save: nothing of it counts as submitted. -/
def refused (d : RegisterDrafts) (save : RegisterSave) : RegisterDrafts :=
  { d with saving := d.saving.erase save }

def refetched (d : RegisterDrafts) (values : FieldName → Option FieldState) : RegisterDrafts :=
  { d with values := values }

end RegisterDrafts

/-! ## The card the panel is on -/

inductive RecordingStatus
  | recording | paused | stopped | unknown | mixed
deriving DecidableEq, Repr

/-- Whether metadata is sealed in this state. -/
def sealsMetadata : RecordingStatus → Bool
  | .recording | .paused | .mixed => true
  | .stopped | .unknown => false

structure LiveDeviceCard where
  drafts : RegisterDrafts
  /-- The verbs submitted so far. -/
  commands : List RecordingVerb

namespace LiveDeviceCard

/-- A button is pressed: what is still in the boxes has to land before a start does. -/
def run (c : LiveDeviceCard) (status : RecordingStatus) (verb : RecordingVerb) : LiveDeviceCard :=
  if verb = .start ∧ sealsMetadata status = false ∧ c.drafts.pending ≠ [] then
    { c with drafts := c.drafts.save (some verb) }
  else { c with commands := c.commands ++ [verb] }

/-- A save is answered: the verb that waited for it is submitted. -/
def accepted (c : LiveDeviceCard) (save : RegisterSave) : LiveDeviceCard :=
  ⟨c.drafts.accepted save, c.commands ++ save.verb.toList⟩

end LiveDeviceCard

end Sismatic
