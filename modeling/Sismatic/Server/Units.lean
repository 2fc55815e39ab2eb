import Sismatic.Core.Config
import Mathlib.Data.Int.Log
import Mathlib.Data.Rat.Floor

/-!
# Quantities an operator writes in words

Purely lexical: `30d`, `512MiB`, `2026-01-01`. Nothing here knows what a duration is for,
and the words that switch a setting off belong to the settings that have them. Spans of
time are `humantime`'s and instants are `chrono`'s, and each comes with what its crate
documents; sizes are read and written here.
-/

namespace Sismatic

open Devices (fromSecs)

/-- One past the longest `std::time::Duration`: its seconds are a `u64`. -/
def durationBound : Nat := 2 ^ 64 * 1000000000

/-! ## What the crates bring -/

/-- What is used of the `humantime` crate. An error is its text. -/
structure Humantime where
  parseDuration : String → Except String Duration
  formatDuration : Duration → String

/-- A span of time is written as terms of a number and its unit, and reads back. -/
structure Humantime.Documented (h : Humantime) : Prop where
  represented : ∀ {text d}, h.parseDuration text = .ok d → d < durationBound
  reads_back : ∀ d < durationBound, h.parseDuration (h.formatDuration d) = .ok d
  spelled : ∀ d, ∃ first terms last,
    h.formatDuration d = String.ofList (first :: (terms ++ [last])) ∧
      first.isDigit = true ∧ last.isAlpha = true
  undashed : ∀ {text d}, h.parseDuration text = .ok d → '-' ∉ text.toList

/-- What is used of the `chrono` crate to read an instant and to write one. -/
structure Calendar where
  /-- `DateTime<Utc>`. -/
  Instant : Type
  /-- `DateTime::parse_from_rfc3339`, brought to UTC. -/
  parseFromRfc3339 : String → Option Instant
  /-- `NaiveDate::parse_from_str` with `%Y-%m-%d`, at midnight UTC. -/
  parseDate : String → Option Instant
  /-- `to_rfc3339_opts(SecondsFormat::Millis, true)`. -/
  toRfc3339 : Instant → String
  year : Instant → Int

/-- The years RFC 3339 has room for. -/
def Calendar.FourDigits (c : Calendar) (t : c.Instant) : Prop := 0 ≤ c.year t ∧ c.year t ≤ 9999

/--
An instant is written with its year first, a sign before it where four digits do not
hold it, and `Z` last. Only a year of four digits is read back.
-/
structure Calendar.Documented (c : Calendar) : Prop where
  dated : ∀ t, ∃ first year rest,
    c.toRfc3339 t = String.ofList (first :: (year ++ '-' :: (rest ++ ['Z']))) ∧
      (first.isDigit = true ∨ first = '+' ∨ first = '-')
  reads_back : ∀ t, c.FourDigits t →
    ∃ again, c.parseFromRfc3339 (c.toRfc3339 t) = some again ∧ c.toRfc3339 again = c.toRfc3339 t
  signed : ∀ t, ¬ c.FourDigits t →
    c.parseFromRfc3339 (c.toRfc3339 t) = none ∧ c.parseDate (c.toRfc3339 t) = none

/-! ## Durations and instants -/

/-- A duration written in words, or a bare integer read as seconds. -/
def duration (h : Humantime) (written : String) : Except String Duration :=
  let text := trim written
  match parseUnsigned (2 ^ 64) text with
  | some secs => .ok (fromSecs (UInt64.ofNat secs))
  | none =>
      match h.parseDuration text with
      | .ok d => .ok d
      | .error e =>
          .error ("'" ++ text ++ "' is not a duration (" ++ e ++ "); write it as e.g. 30d, " ++
            "2 weeks, 1h 30min, or a plain number of seconds")

/-- An absolute instant: RFC 3339, or a bare date read as midnight UTC. -/
def instant (c : Calendar) (written : String) : Except String c.Instant :=
  let text := trim written
  match c.parseFromRfc3339 text with
  | some stamped => .ok stamped
  | none =>
      match c.parseDate text with
      | some date => .ok date
      | none =>
          .error ("'" ++ text ++ "' is not an instant; write it as e.g. 2026-01-01T00:00:00Z " ++
            "or 2026-01-01")

/-! ## Sizes -/

/-- What a suffix multiplies by, already in lower case. -/
def byteScale : String → Option Nat
  | "" | "b" => some 1
  | "k" | "kib" => some (2 ^ 10)
  | "m" | "mib" => some (2 ^ 20)
  | "g" | "gib" => some (2 ^ 30)
  | "t" | "tib" => some (2 ^ 40)
  | "kb" => some 1000
  | "mb" => some 1000000
  | "gb" => some 1000000000
  | "tb" => some 1000000000000
  | _ => none

/-- `str::parse::<f64>` on digits around one point, before it is rounded. -/
def parseDecimal (number : List Char) : Option ℚ :=
  let whole := number.takeWhile (· != '.')
  let fraction := (number.dropWhile (· != '.')).drop 1
  if '.' ∈ fraction ∨ (whole = [] ∧ fraction = []) then none
  else some (digitsValue (whole ++ fraction) / 10 ^ fraction.length)

/-- The `f64` nearest to a non-negative value, ties to even; `none` where that is infinite. -/
def nearestDouble (x : ℚ) : Option ℚ :=
  if x = 0 then some 0
  else
    let step : ℚ := 2 ^ max (Int.log 2 x - 52) (-1074)
    let below := ⌊x / step⌋
    let rest := x / step - below
    let n := if rest < 1 / 2 ∨ (rest = 1 / 2 ∧ below % 2 = 0) then below else below + 1
    if 2 ^ 1024 ≤ n * step then none else some (n * step)

/-- A byte size written in words, or a bare integer read as bytes. -/
def bytes (written : String) : Except String UInt64 :=
  let text := trim written
  let bad (what : String) : Except String UInt64 :=
    .error ("'" ++ text ++ "' is not a size (" ++ what ++ "); write it as e.g. 512MiB, 2GB, or " ++
      "a plain number of bytes")
  -- the unit is whatever follows the number
  let number := text.toList.takeWhile fun c => c.isDigit || c == '.'
  let unit := text.toList.dropWhile fun c => c.isDigit || c == '.'
  let unit := toAsciiLowercase (trim (String.ofList unit))
  match byteScale unit with
  | none => bad ("unknown unit '" ++ unit ++ "'")
  | some scale =>
      if '.' ∈ number then
        match parseDecimal number with
        | none => bad "not a number"
        | some value =>
            match nearestDouble value with
            | none => bad "not a positive number"
            | some value =>
                match nearestDouble (value * scale) with
                | none => bad "too large"
                | some scaled =>
                    -- `u64::MAX as f64` rounds up, and `as u64` stops at `u64::MAX`
                    if 2 ^ 64 < scaled then bad "too large"
                    else .ok (UInt64.ofNat (min ⌊scaled⌋.toNat (2 ^ 64 - 1)))
      else
        match parseUnsigned (2 ^ 64) (String.ofList number) with
        | none => bad "not a number"
        | some value =>
            if value * scale < 2 ^ 64 then .ok (UInt64.ofNat (value * scale)) else bad "too large"

/-- The units a size is written in, largest first. -/
def byteUnits : List (Nat × String) :=
  [(2 ^ 40, "TiB"), (2 ^ 30, "GiB"), (2 ^ 20, "MiB"), (2 ^ 10, "KiB")]

/-- A byte count in the largest unit that divides it, or in plain bytes. -/
def formatBytes (bytes : UInt64) : String :=
  match byteUnits.find? fun unit => unit.1 ≤ bytes.toNat ∧ bytes.toNat % unit.1 = 0 with
  | none => toString bytes.toNat
  | some (scale, suffix) => toString (bytes.toNat / scale) ++ suffix

end Sismatic
