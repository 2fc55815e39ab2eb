import Sismatic.HttpUi.RegisterDrafts
import Mathlib.Data.List.Infix

/-!
# Which cards are shown

What the control bar's three filters mean, and the text search behind the free-text box. Texts are
the code units that a browser compares. Folding case and accents away is the browser's own and comes
from outside.
-/

namespace Sismatic

/-- How each status is written for a reader. -/
def RecordingStatus.label : RecordingStatus → String
  | .recording => "Recording"
  | .paused => "Paused"
  | .stopped => "Not recording"
  | .unknown => "Unknown"
  | .mixed => "Mixed"

namespace FleetFilters

inductive CardKind
  | device | group
deriving DecidableEq, Repr

def CardKind.word : CardKind → String
  | .device => "device"
  | .group => "group"

structure DetailRow where
  label : String
  value : String
deriving DecidableEq, Repr

structure MemberRow where
  id : String
  status : RecordingStatus
  title : Option String
deriving DecidableEq, Repr

/-- What a search reads of a card. -/
structure DeviceView where
  kind : CardKind
  id : String
  status : RecordingStatus
  title : Option String
  details : List DetailRow
  /-- Of a group. -/
  members : Option (List MemberRow)
deriving DecidableEq, Repr

structure Filters where
  /-- Free text, matched against every field behind a card. -/
  query : String
  /-- Groups or devices, or both. -/
  kind : Option CardKind
  /-- One recording state, or all of them. -/
  status : Option RecordingStatus
deriving DecidableEq, Repr

/-- A text, in the code units of a browser. -/
abbrev Units := List UInt16

/-- `\s`, which is also what `trim` takes off. -/
def isSpace (unit : UInt16) : Bool :=
  (9 ≤ unit && unit ≤ 13) || (0x2000 ≤ unit && unit ≤ 0x200a) ||
    [0x20, 0xa0, 0x1680, 0x2028, 0x2029, 0x202f, 0x205f, 0x3000, 0xfeff].contains unit

def trimUnits (text : Units) : Units :=
  ((text.dropWhile isSpace).reverse.dropWhile isSpace).reverse

/-- `split(/\s+/)` of a text without spaces at its ends. -/
def termsOf (query : Units) : List Units :=
  (query.splitOnP isSpace).filter fun term => !term.isEmpty

def includes (field query : Units) : Bool := field.tails.any query.isPrefixOf

def within (term field : Units) : Bool := includes field term

/-- How much of the term has been found when the field has been read. -/
def found (term : Units) : Units → Nat → Nat
  | [], n => n
  | unit :: field, n =>
      if term[n]? = some unit then found term field (n + 1) else found term field n

/-- The term's units appear in the field in order, not necessarily together. -/
def inOrder (term field : Units) : Bool := found term field 0 == term.length

/-- Every term has to match, each one somewhere. -/
def matchesEvery (fields terms : List Units) (fits : Units → Units → Bool) : Bool :=
  terms.all fun term => fields.any (fits term)

/-- A card with the texts a search looks through. -/
structure Searchable where
  view : DeviceView
  fields : List Units

section Normalize

variable (normalize : String → Units)

/-- A list rather than one text, so that no term can match across a boundary. -/
def fieldsOf (view : DeviceView) : List Units :=
  let fields := [view.id, view.kind.word, view.status.label] ++ view.title.toList ++
    view.details.flatMap (fun row => [row.label, row.value]) ++
    (view.members.getD []).flatMap fun member =>
      [member.id, member.status.label] ++ member.title.toList
  fields.map normalize

def searchable (views : List DeviceView) : List Searchable :=
  views.map fun view => ⟨view, fieldsOf normalize view⟩

def Filters.passes (filters : Filters) (view : DeviceView) : Bool :=
  filters.kind.all (· = view.kind) && filters.status.all (· = view.status)

def queryOf (filters : Filters) : Units := trimUnits (normalize filters.query)

/-- Three readings of one query, each tried only once the narrower one has come back empty. -/
def applyFilters (rows : List Searchable) (filters : Filters) : List DeviceView :=
  let byFacet := rows.filter fun row => filters.passes row.view
  let query := queryOf normalize filters
  if query.isEmpty then byFacet.map (·.view)
  else
    let terms := termsOf query
    let phrase := byFacet.filter fun row => row.fields.any fun field => includes field query
    if phrase.length > 0 then phrase.map (·.view)
    else
      let scattered := byFacet.filter fun row => matchesEvery row.fields terms within
      if scattered.length > 0 then scattered.map (·.view)
      else (byFacet.filter fun row => matchesEvery row.fields terms inOrder).map (·.view)

end Normalize

end FleetFilters

end Sismatic
