import Sismatic.Store
import Sismatic.Core.Protocol

/-!
# Whether a device does what its group was told

An expectation that a write left carries the caller's text. It is read in the shape the
device answered in, which is the authority on what kind of value the field holds.
-/

namespace Sismatic

/-- The spellings the setting encoder folds onto `1` and `0`. -/
def flagOf (text : String) : Option Bool :=
  match toAsciiLowercase text with
  | "1" | "true" | "on" | "yes" => some true
  | "0" | "false" | "off" | "no" => some false
  | _ => none

/-- The wire spelling of a recording state. -/
def stateName : RecordingState → String
  | .stopped => "stopped"
  | .started => "started"
  | .paused => "paused"
  | .unknown => "unknown"

/-- Read `want` as a value of whatever shape `observed` turned out to be. -/
def matchesText (want : String) : ReadValue → Bool
  | .text got | .version got | .ack got => want == got
  | .port got => parseUnsigned (2 ^ 16) want == some got.toNat
  | .number got => parseUnsigned (2 ^ 32) want == some got.toNat
  | .flag got => flagOf want == some got
  | .mac got => eqIgnoreAsciiCase want got
  | .state got => eqIgnoreAsciiCase want (stateName got)
  | .alarms _ => false

/-- Whether what a device reported satisfies what was expected of it. -/
def satisfies (expected observed : ReadValue) : Bool :=
  if expected = observed then true
  else
    match expected with
    | .text want => matchesText (trim want) observed
    | _ => false

end Sismatic
