import Sismatic.Core.Query

/-!
# One exchange

A controller writes an instruction's payload and feeds what comes back to the
instruction's parser until a reply is complete. The reply is accumulated as bytes, and only
what of it is valid UTF-8, from the front, is looked at.
-/

namespace Sismatic.Devices

/-- The longest part of `bytes`, from the front, that is UTF-8. -/
def validPrefix (bytes : List UInt8) : String :=
  ((List.range (bytes.length + 1)).reverse.findSome? fun n =>
    String.fromUTF8? ⟨(bytes.take n).toArray⟩).getD ""

/-- A failure on an open channel. -/
inductive TransportError
  | io (e : String)
deriving DecidableEq, Repr

/-- Why a single exchange failed. -/
inductive ControllerError
  /-- No complete reply arrived within `exchange_timeout`. -/
  | timeout (instruction : String) (after : Duration)
  /-- The device answered, and the answer was a refusal. -/
  | rejected (instruction : String) (error : SisError)
  /-- The channel closed before a complete reply was parsed. -/
  | connectionClosed (instruction : String)
  | transport (instruction : String) (source : TransportError)
deriving DecidableEq, Repr

/-- How much one read takes at most. -/
def bufLen : Nat := 1024

/-- What the bytes read so far come to: a refusal, a value, or nothing yet. -/
def parseReply (instruction : Instruction) (acc : List UInt8) :
    Option (Except ControllerError Value) :=
  let reply := validPrefix acc
  match SisError.inReply reply with
  | some error => some (.error (.rejected instruction.name error))
  | none =>
      match instruction.parseStep reply with
      | .done value => some (.ok value)
      | .needMore => none

/-- What one read of the channel gives. No bytes are its end. -/
abbrev ChannelRead := Except TransportError (List UInt8)

/--
The loop of `exchange`, over what its reads give: the outcome and the reads left, or
nothing when these reads are used up and it waits for another.
-/
def exchangeLoop (instruction : Instruction) (acc : List UInt8) :
    List ChannelRead → Option (Except ControllerError Value × List ChannelRead)
  | [] => none
  | .error source :: later => some (.error (.transport instruction.name source), later)
  | .ok chunk :: later =>
      if chunk = [] then some (.error (.connectionClosed instruction.name), later)
      else
        match parseReply instruction (acc ++ chunk) with
        | some outcome => some (outcome, later)
        | none => exchangeLoop instruction (acc ++ chunk) later

/-- Write the payload, then read until the reply is complete. -/
def exchange (instruction : Instruction) (written : Except TransportError Unit)
    (reads : List ChannelRead) : Option (Except ControllerError Value × List ChannelRead) :=
  match written with
  | .error source => some (.error (.transport instruction.name source), reads)
  | .ok () => exchangeLoop instruction [] reads

end Sismatic.Devices
