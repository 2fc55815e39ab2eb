import Sismatic.ApiTypes
import Sismatic.Core.Protocol

/-!
# What a read route makes of its URL

The bounds of `ReadQuery` are whatever text the caller sent; an omitted one is the
lowest or the highest text a stamp can be. A field is taken in any case, and with dashes.
-/

namespace Sismatic

def beginningOfTime : String := "0000-01-01T00:00:00Z"
def endOfTime : String := "9999-12-31T23:59:59Z"

/-- The two bounds of a reads query. -/
structure ReadQuery where
  start : Option Timestamp
  «end» : Option Timestamp

def spanOf (query : ReadQuery) : TimeSpan where
  start := query.start.getD ⟨beginningOfTime⟩
  «end» := query.end.getD ⟨endOfTime⟩

/-- Fold a URL path segment onto the canonical spelling: upper case, with `_` for `-`. -/
def normalizeField (raw : String) : FieldName :=
  toAsciiUppercase (String.ofList (raw.toList.map fun c => if c = '-' then '_' else c))

end Sismatic
