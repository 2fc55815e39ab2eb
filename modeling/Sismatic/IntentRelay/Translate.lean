import Sismatic.Core.Instructions

/-!
# Intents to instructions, and replies to values

The two seams of the relay: `translate`, from what a caller asked for to what goes
out on the wire, and `dto`, from what a device answered to what a caller reads.
-/

namespace Sismatic

/-- Why an intent has no instruction. -/
inductive TranslateError
  | unknownRegister (name : String)
  | unknownSetting (name : String)
  /-- A metadata register through the settings route, which has no freeze. -/
  | metadataThroughSettings (name : String)
  | value (e : ValueError)
deriving DecidableEq, Repr

/-- `Display`. -/
def TranslateError.display : TranslateError → String
  | .unknownRegister name => "no metadata register named '" ++ name ++ "'"
  | .unknownSetting name => "no device setting named '" ++ name ++ "'"
  | .metadataThroughSettings name =>
      "'" ++ name ++ "' is a metadata register; submit it to the metadata route, " ++
        "which enforces the recording freeze"
  | .value e => e.display

def toInstruction : Intent → Except TranslateError Instruction
  | .startRecording => .ok Command.start.instruction
  | .stopRecording => .ok Command.stop.instruction
  | .pauseRecording => .ok Command.pause.instruction
  | .setMetadata field value =>
      match Register.fromStr field with
      | some register => .ok (register.instruction value)
      | none => .error (.unknownRegister field)
  | .setSetting field value =>
      if (Register.fromStr field).isSome then .error (.metadataThroughSettings field)
      else
        match Setting.fromStr field with
        | none => .error (.unknownSetting field)
        | some setting =>
            match setting.instruction value with
            | .ok instruction => .ok instruction
            | .error e => .error (.value e)

/-- Two upper-case hexadecimal digits. -/
def hexByte (b : UInt8) : String :=
  let digit (n : Nat) : Char := (Nat.digitChar n).toUpper
  String.ofList [digit (b.toNat / 16), digit (b.toNat % 16)]

/-- The hyphenated rendering of a hardware address. -/
def macText (bytes : Vector UInt8 6) : String := "-".intercalate (bytes.toList.map hexByte)

/-- A decoded device value as its wire form. -/
def toDto : Value → ReadValue
  | .text s => .text s
  | .version s => .version s
  | .port p => .port p
  | .number n => .number n
  | .flag b => .flag b
  | .mac bytes => .mac (macText bytes)
  | .ack s => .ack s
  | .state s => .state s
  | .alarms as => .alarms (as.map fun (name, level) => ⟨name, level⟩)

/-- The decoded running state, if this value carries one. -/
def Value.asState : Value → Option RecordingState
  | .state s => some s
  | _ => none

end Sismatic
