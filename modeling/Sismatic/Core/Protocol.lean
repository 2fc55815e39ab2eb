import Sismatic.ApiTypes

/-!
# The SIS protocol

One exchange is an `Instruction`: a payload to send and a parser for the reply. The
parsers are `winnow` parsers over input that may still be growing, so each of the
three the catalog is built from has two ways not to succeed: the input contradicts
it, or there is not enough of it yet.
-/

namespace Sismatic

/-! ## Control characters -/

/-- Escape. Opens most verbs. -/
def esc : Char := '\x1b'
/-- Carriage return. Ends a command. -/
def cr : Char := '\r'
/-- Line feed. The device appends it after the return it echoes. -/
def lf : Char := '\n'

def rcdr : String := "RCDR"
def rcdrLower : String := "Rcdr"

/-- `char::is_control`: the general category `Cc`. -/
def isControl (c : Char) : Bool := decide (c.toNat < 0x20) || decide (0x7f ≤ c.toNat ∧ c.toNat ≤ 0x9f)

/-! ## Text of the standard library -/

/-- `char::is_whitespace`: the property `White_Space`. -/
def isWhitespace (c : Char) : Bool :=
  decide (0x09 ≤ c.toNat ∧ c.toNat ≤ 0x0d) || decide (0x2000 ≤ c.toNat ∧ c.toNat ≤ 0x200a) ||
    [0x20, 0x85, 0xa0, 0x1680, 0x2028, 0x2029, 0x202f, 0x205f, 0x3000].contains c.toNat

/-- `str::trim`. -/
def trim (s : String) : String :=
  String.ofList ((s.toList.dropWhile isWhitespace).reverse.dropWhile isWhitespace).reverse

/-- `str::to_ascii_lowercase`. -/
def toAsciiLowercase (s : String) : String := String.ofList (s.toList.map Char.toLower)

/-- `str::to_ascii_uppercase`. -/
def toAsciiUppercase (s : String) : String := String.ofList (s.toList.map Char.toUpper)

/-- `str::eq_ignore_ascii_case`. -/
def eqIgnoreAsciiCase (a b : String) : Bool := toAsciiLowercase a == toAsciiLowercase b

/-- The value of a run of decimal digits. -/
def digitsValue (digits : List Char) : Nat :=
  digits.foldl (fun n c => n * 10 + (c.toNat - '0'.toNat)) 0

/-- `str::parse` into an unsigned integer below `bound`. A leading `+` is allowed. -/
def parseUnsigned (bound : Nat) (s : String) : Option Nat :=
  let digits :=
    match s.toList with
    | '+' :: digits => digits
    | digits => digits
  if digits = [] ∨ ¬ digits.all Char.isDigit ∨ bound ≤ digitsValue digits then none
  else some (digitsValue digits)

/-! ## Payload helpers -/

def normalize (s : String) : String :=
  String.ofList ((toAsciiUppercase s).toList.map fun c => if c = '-' then '_' else c)

def shorten (s : String) (max : Nat) : String := String.ofList (s.toList.take max)

def isNotCr (c : Char) : Bool := c != cr

/-- A verb as the device echoes it: title case. -/
def echoed (verb : String) : String :=
  match verb.toList with
  | [] => ""
  | first :: chars => String.ofList (first.toUpper :: chars.map Char.toLower)

/-! ## Values -/

/-- A decoded response value. -/
inductive Value
  | text (s : String)
  | version (s : String)
  | port (p : UInt16)
  | number (n : UInt32)
  | flag (b : Bool)
  | mac (bytes : Vector UInt8 6)
  | ack (s : String)
  | state (s : RecordingState)
  | alarms (as : List (String × String))
deriving DecidableEq

/-- What the recorder's state code stands for. -/
def RecordingState.fromCode : Nat → RecordingState
  | 0 => .stopped
  | 2 => .paused
  | 1 => .started
  | _ => .unknown

/-- Whether a recorder in this state holds a recording. -/
def RecordingState.isRecording : RecordingState → Bool
  | .started => true
  | .paused => true
  | _ => false

/-! ## Streaming parsers -/

/-- The result of feeding the accumulated buffer to a parser. -/
inductive Step (α : Type)
  | needMore
  | done (value : α)

/-- `winnow`'s error modes. Nothing reads what they carry. -/
inductive ErrMode
  | incomplete
  | backtrack
  | cut

/-- A parser over input that may still be growing. -/
abbrev Parser := StateT (List Char) (Except ErrMode)

/-- `literal`: incomplete while the input is a proper initial part of the tag. -/
def literalChars : List Char → List Char → Except ErrMode (Unit × List Char)
  | [], input => .ok ((), input)
  | _ :: _, [] => .error .incomplete
  | t :: tag, c :: input => if c = t then literalChars tag input else .error .backtrack

def literal (tag : String) : Parser Unit := literalChars tag.toList

/-- `take_while(0.., p)`: incomplete until a character that fails `p` has arrived. -/
def takeWhile0 (p : Char → Bool) : Parser String := fun input =>
  match input.dropWhile p with
  | [] => .error .incomplete
  | rest => .ok (String.ofList (input.takeWhile p), rest)

/-- `take_while(1.., p)`. -/
def takeWhile1 (p : Char → Bool) : Parser String := fun input =>
  match input.dropWhile p with
  | [] => .error .incomplete
  | rest =>
      if input.takeWhile p = [] then .error .backtrack
      else .ok (String.ofList (input.takeWhile p), rest)

/-- `one_of`: incomplete at the end of what has arrived. -/
def oneOf (chars : List Char) : Parser Char := fun input =>
  match input with
  | [] => .error .incomplete
  | c :: rest => if chars.contains c then .ok (c, rest) else .error .backtrack

/-- `take_while(n..=n, p)`: exactly `n` characters, whatever follows them. -/
def takeExactly (p : Char → Bool) (n : Nat) : Parser String := fun input =>
  if (input.take n).all p then
    if n ≤ input.length then .ok (String.ofList (input.take n), input.drop n)
    else .error .incomplete
  else .error .backtrack

/--
What follows the first element of `separated(0.., item, sep)`: it ends in front of a separator
that does not come, or that no further element follows. Without `fuel` the input is used up.
-/
def separatedRest {α : Type} (item : Parser α) (sep : Char) : Nat → Parser (List α)
  | 0, _ => .error .incomplete
  | fuel + 1, input =>
      match oneOf [sep] input with
      | .error .backtrack => .ok ([], input)
      | .error mode => .error mode
      | .ok (_, rest) =>
          match item rest with
          | .error .backtrack => .ok ([], input)
          | .error mode => .error mode
          | .ok (value, rest) =>
              match separatedRest item sep fuel rest with
              | .error mode => .error mode
              | .ok (values, rest) => .ok (value :: values, rest)

/-- `separated(0.., item, sep)`. Every further element takes at least its separator. -/
def separated0 {α : Type} (item : Parser α) (sep : Char) : Parser (List α) := fun input =>
  match item input with
  | .error .backtrack => .ok ([], input)
  | .error mode => .error mode
  | .ok (value, rest) =>
      match separatedRest item sep rest.length rest with
      | .error mode => .error mode
      | .ok (values, rest) => .ok (value :: values, rest)

/-- Try `core` at every offset of the buffer; a committed error stops the search. -/
def search {α : Type} (core : Parser α) : List Char → Step α
  | [] => .needMore
  | c :: rest =>
      match core (c :: rest) with
      | .ok (value, _) => .done value
      | .error .cut => .needMore
      | .error _ => search core rest

/-- `parser_of`. -/
def parserOf {α : Type} (core : Parser α) (wrap : α → Value) (buffer : String) : Step Value :=
  match search core buffer.toList with
  | .done value => .done (wrap value)
  | .needMore => .needMore

/-! ## Refusals -/

/-- A SIS error reply, as the two-digit code the device sent. -/
structure SisError where
  code : UInt8
deriving DecidableEq, Repr

namespace SisError

/-- `E` followed by exactly two ASCII digits, and nothing else. -/
def ofLine : List Char → Option SisError
  | ['E', a, b] =>
      if a.isDigit && b.isDigit then some ⟨UInt8.ofNat (digitsValue [a, b])⟩ else none
  | _ => none

/-- The lines of a text that have their terminator; a trailing fragment is no line yet. -/
def completeLines : List Char → List (List Char)
  | [] => []
  | '\r' :: '\n' :: rest => [] :: completeLines rest
  | c :: rest =>
      match completeLines rest with
      | [] => []
      | line :: lines => (c :: line) :: lines

/-- Find an error token in the accumulated reply buffer. -/
def inReply (buffer : String) : Option SisError :=
  (completeLines buffer.toList).findSome? ofLine

end SisError

/-! ## Instructions -/

/-- A single exchange: what to send and how to interpret the reply. -/
structure Instruction where
  name : String
  /-- Raw characters written to the channel, control characters included. -/
  payload : String
  parseStep : String → Step Value

/-- A catalog's `FromStr`: the variant one of whose spellings the normalized input is. -/
def fromCatalog {α : Type} (all : List α) (accepted : α → List String) (s : String) : Option α :=
  all.find? fun variant => (accepted variant).contains (normalize s)

end Sismatic
