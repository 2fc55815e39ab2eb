import Sismatic.StoreMemory.Outbox

/-!
# A clock to run the outbox with

The store takes its calendar from the `chrono` crate. `utc` is that calendar for
timestamps in UTC at millisecond precision from 1970 on, which are the ones the
store itself writes; it is what the runs on fixed inputs are evaluated with.
-/

namespace Sismatic

/-- Days from 1970-01-01 to a civil date, with the year starting in March. -/
def daysFromCivil (year month day : Nat) : Nat :=
  let y := if month ≤ 2 then year - 1 else year
  let era := y / 400
  let yoe := y % 400
  let doy := (153 * ((month + 9) % 12) + 2) / 5 + day - 1
  era * 146097 + (yoe * 365 + yoe / 4 - yoe / 100 + doy) - 719468

/-- The civil date a day falls on. -/
def civilFromDays (days : Nat) : Nat × Nat × Nat :=
  let z := days + 719468
  let era := z / 146097
  let doe := z % 146097
  let yoe := (doe - doe / 1460 + doe / 36524 - doe / 146096) / 365
  let doy := doe - (365 * yoe + yoe / 4 - yoe / 100)
  let mp := (5 * doy + 2) / 153
  let day := doy - (153 * mp + 2) / 5 + 1
  let month := if mp < 10 then mp + 3 else mp - 9
  (yoe + era * 400 + (if month ≤ 2 then 1 else 0), month, day)

/-- The number a run of decimal digits names. -/
def fieldValue (cs : List Char) : Option Nat :=
  cs.foldl (fun acc ch => acc.bind fun n =>
    if ch.isDigit then some (n * 10 + (ch.toNat - 48)) else none) (some 0)

/-- `n` in decimal, padded with zeros to `width`. -/
def padded (width n : Nat) : List Char :=
  let digits := Nat.toDigits 10 n
  List.replicate (width - digits.length) '0' ++ digits

/-- Read `YYYY-MM-DDTHH:MM:SS.mmmZ`, with or without the milliseconds. -/
def parseUtc (s : String) : Option Int :=
  match s.toList with
  | y1 :: y2 :: y3 :: y4 :: '-' :: m1 :: m2 :: '-' :: d1 :: d2 :: 'T' ::
      h1 :: h2 :: ':' :: i1 :: i2 :: ':' :: s1 :: s2 :: rest => do
      let year ← fieldValue [y1, y2, y3, y4]
      let month ← fieldValue [m1, m2]
      let day ← fieldValue [d1, d2]
      let hour ← fieldValue [h1, h2]
      let minute ← fieldValue [i1, i2]
      let second ← fieldValue [s1, s2]
      let millis ← match rest with
        | ['Z'] => some 0
        | ['.', f1, f2, f3, 'Z'] => fieldValue [f1, f2, f3]
        | _ => none
      if 1970 ≤ year ∧ 1 ≤ month ∧ month ≤ 12 ∧ 1 ≤ day ∧ day ≤ 31 ∧ hour < 24 ∧ minute < 60 ∧
          second < 60 then
        let seconds := ((daysFromCivil year month day * 24 + hour) * 60 + minute) * 60 + second
        some ((seconds * 1000 + millis) * 1000000)
      else none
  | _ => none

/-- Write an instant as `YYYY-MM-DDTHH:MM:SS.mmmZ`. -/
def formatUtc (t : Int) : String :=
  let millis := t.toNat / 1000000
  let seconds := millis / 1000
  let (year, month, day) := civilFromDays (seconds / 86400)
  String.ofList (padded 4 year ++ ['-'] ++ padded 2 month ++ ['-'] ++ padded 2 day ++ ['T'] ++
    padded 2 (seconds / 3600 % 24) ++ [':'] ++ padded 2 (seconds / 60 % 60) ++ [':'] ++
    padded 2 (seconds % 60) ++ ['.'] ++ padded 3 (millis % 1000) ++ ['Z'])

/-- The calendar, panicking past the year 9999. -/
def utc : Chrono where
  parseFromRfc3339 := parseUtc
  add := fun t delay => if t + delay < 253402300800 * 1000000000 then some (t + delay) else none
  toRfc3339 := formatUtc

example : delayFrom utc ⟨"2024-02-29T23:59:58.250Z"⟩ (2 * 1000000000)
    = some ⟨"2024-03-01T00:00:00.250Z"⟩ := by decide +kernel

end Sismatic
