import Sismatic.Core.Device
import Mathlib.Logic.Function.Basic

/-!
# Fields a device has been observed to refuse

What a device has learned about its recorder, a record for each field that has refused
without answering since. A field that has refused often enough is left alone until a
deadline, or for good. A deadline is an instant some way from now, and an instant that
cannot be represented is never armed: the addition panics.
-/

namespace Sismatic.Devices

/-- An `Instant`, in nanoseconds. -/
abbrev Instant := Nat

/-- `Instant + Duration`, below the end of what an instant can hold; `none` where it panics. -/
def addInstant (instantEnd now : Instant) (wait : Duration) : Option Instant :=
  if now + wait < instantEnd then some (now + wait) else none

/-- What one refusal did to the record. -/
inductive Refusal
  | counted (refusals : UInt32)
  | disabled (refusals : UInt32)
  /-- The field was already vetoed, or nothing is counted. -/
  | still
deriving DecidableEq, Repr

/-- One field's record. -/
structure Record where
  refusals : UInt32
  /-- `none` while the count is below the threshold, `some none` where there is no retry. -/
  vetoedUntil : Option (Option Instant)
deriving DecidableEq, Repr

/-- One field's record, as an observer reads it. -/
structure AutoDisabledField where
  name : FieldName
  refusals : UInt32
  /-- Whether the field is vetoed, and not merely watched. -/
  disabled : Bool
  /-- How long until the next attempt; `none` where there will never be one. -/
  retryIn : Option Duration
deriving DecidableEq, Repr

/-- A device's inferred vetoes. -/
structure AutoDisabled where
  fields : FieldName → Option Record

namespace AutoDisabled

def new : AutoDisabled := ⟨fun _ => none⟩

/-- Whether `field` is vetoed at `now`, and for how much longer. -/
def veto (learned : AutoDisabled) (field : FieldName) (now : Instant) :
    Option (Option Duration) := do
  let record ← learned.fields field
  match ← record.vetoedUntil with
  | none => some none
  | some untilThen => if now < untilThen then some (some (untilThen - now)) else none

/-- `u32::saturating_add(1)`. -/
def saturatingSucc (n : UInt32) : UInt32 := UInt32.ofNat (min (n.toNat + 1) (2 ^ 32 - 1))

def set (learned : AutoDisabled) (field : FieldName) (record : Option Record) : AutoDisabled :=
  ⟨Function.update learned.fields field record⟩

/-- `field` was refused at `now`. `none` where arming the veto panics, with the lock held. -/
def refused (instantEnd : Instant) (learned : AutoDisabled) (field : FieldName)
    (threshold : UInt32) (selfHeal : Option Duration) (now : Instant) :
    Option (AutoDisabled × Refusal) :=
  if threshold = 0 then some (learned, .still)
  else
    let record := (learned.fields field).getD ⟨0, none⟩
    let already := record.vetoedUntil.isSome
    let refusals := saturatingSucc record.refusals
    if refusals < threshold then
      some (learned.set field (some { record with refusals := refusals }), .counted refusals)
    else
      let armed (vetoedUntil : Option Instant) : AutoDisabled × Refusal :=
        (learned.set field (some ⟨refusals, some vetoedUntil⟩),
          if already then .still else .disabled refusals)
      match selfHeal with
      | none => some (armed none)
      | some wait => (addInstant instantEnd now wait).map fun untilThen => armed (some untilThen)

/-- `field` answered. Whether this cleared a veto. -/
def answered (learned : AutoDisabled) (field : FieldName) : AutoDisabled × Bool :=
  (learned.set field none,
    ((learned.fields field).map fun record => record.vetoedUntil.isSome).getD false)

/-- The entry for `field` of a snapshot taken at `now`, where anything is recorded against it. -/
def listed (learned : AutoDisabled) (field : FieldName) (now : Instant) :
    Option AutoDisabledField :=
  (learned.fields field).map fun record => {
    name := field
    refusals := record.refusals
    disabled := record.vetoedUntil.isSome
    -- `Instant::checked_duration_since`
    retryIn := record.vetoedUntil.join.bind fun untilThen =>
      if now ≤ untilThen then some (untilThen - now) else none }

end AutoDisabled

/-- Why `field` is not asked for, if it is not: what is declared before what is learned. -/
def fieldVeto (config : DeviceConfig) (learned : AutoDisabled) (field : FieldName)
    (now : Instant) : Option (VetoSource × Option Duration) :=
  if field ∈ config.disabledFields then some (.declared, none)
  else (learned.veto field now).map fun retryIn => (.inferred, retryIn)

/-- The gate a failed dial arms: `none` where arming it panics, with the connection lock held. -/
def armGate (instantEnd : Instant) (config : DeviceConfig) (now : Instant) :
    Option (Option Instant) :=
  match config.coldBackoff with
  | none => some none
  | some backoff => (addInstant instantEnd now backoff).map some

end Sismatic.Devices
