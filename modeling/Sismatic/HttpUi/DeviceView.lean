import Sismatic.HttpApi.GroupReads

/-!
# What a card shows of a field

The values of a field as a browser writes them out, and a group's field rolled up to the
one text a card has room for.
-/

namespace Sismatic

/-- What the fleet behind a card holds for one field. -/
structure FieldState where
  /-- The value, where there is one answer to give. -/
  read : Option ReadValue
  display : String
  /-- The devices that have answered disagree. -/
  mixed : Bool
deriving DecidableEq, Repr

/-- `charAt(0).toUpperCase() + slice(1)` -/
def capitalized (s : String) : String :=
  match s.toList with
  | [] => ""
  | first :: rest => String.ofList (first.toUpper :: rest)

def alarmWords (alarm : Alarm) : String := alarm.name ++ " (" ++ alarm.level ++ ")"

/-- Plain-English text for any read value. -/
def formatValue : ReadValue → String
  | .text s | .version s | .ack s | .mac s => s
  | .port p => toString p.toNat
  | .number n => toString n.toNat
  | .flag b => if b then "Yes" else "No"
  | .state s => capitalized (stateName s)
  | .alarms alarms => if alarms.isEmpty then "None" else ", ".intercalate (alarms.map alarmWords)

/-- One group field, rolled up to the single answer a card can show. -/
def rollUp (field : GroupFieldState) : FieldState :=
  let reads := field.members.filterMap (·.read)
  let distinct := (reads.map fun read => formatValue read.value).eraseDups
  match reads with
  | [] => ⟨none, "Not read yet", false⟩
  | first :: _ =>
      if distinct.length > 1 then ⟨none, "Differs across devices", true⟩
      else ⟨some first.value, distinct.headD "", false⟩

end Sismatic
