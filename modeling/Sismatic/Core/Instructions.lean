import Sismatic.Core.Protocol

/-!
# The write half of the catalog

The three kinds of instruction that change a device: recorder commands, metadata
registers, and settings. A register takes any text and shortens it; a setting has a
`Shape`, which says what its value must look like, and a `Form`, which says where
the value sits in the payload.
-/

namespace Sismatic

/-! ## Commands -/

/-- A built-in recorder command. -/
inductive Command
  | start | stop | pause
deriving DecidableEq, Repr

def Command.name : Command → String
  | .start => "STARTRECORDING"
  | .stop => "STOPRECORDING"
  | .pause => "PAUSERECORDING"

def Command.verb : Command → String
  | .start => "Y1"
  | .stop => "Y0"
  | .pause => "Y2"

/-- Echo after a recording command. -/
def commandEcho (verb : String) : String → Step Value :=
  let token := rcdrLower ++ verb
  parserOf (do literal token; literal "\r\n"; pure token) .ack

def Command.instruction (command : Command) : Instruction where
  name := command.name
  payload := String.singleton esc ++ command.verb ++ rcdr ++ String.singleton cr
  parseStep := commandEcho command.verb

/-! ## Metadata registers -/

/-- A built-in metadata register that can be written to. -/
inductive Register
  | contributor | course | coverage | description | format | language | presenter | publisher
  | relation | rights | source | subject | systemName | title | type
deriving DecidableEq, Repr

def Register.all : List Register :=
  [.contributor, .course, .coverage, .description, .format, .language, .presenter, .publisher,
    .relation, .rights, .source, .subject, .systemName, .title, .type]

def Register.name : Register → String
  | .contributor => "CONTRIBUTOR"
  | .course => "COURSE"
  | .coverage => "COVERAGE"
  | .description => "DESCRIPTION"
  | .format => "FORMAT"
  | .language => "LANGUAGE"
  | .presenter => "PRESENTER"
  | .publisher => "PUBLISHER"
  | .relation => "RELATION"
  | .rights => "RIGHTS"
  | .source => "SOURCE"
  | .subject => "SUBJECT"
  | .systemName => "SYSTEMNAME"
  | .title => "TITLE"
  | .type => "TYPE"

/-- No register has an alias. -/
def Register.accepted (register : Register) : List String := [register.name]

def Register.fromStr : String → Option Register := fromCatalog Register.all Register.accepted

/-- The indices 3 and 6 are read-only and have no register. -/
def Register.index : Register → Nat
  | .contributor => 0
  | .coverage => 1
  | .presenter => 2
  | .description => 4
  | .format => 5
  | .language => 7
  | .publisher => 8
  | .relation => 9
  | .rights => 10
  | .source => 11
  | .subject => 12
  | .title => 13
  | .type => 14
  | .systemName => 15
  | .course => 16

/-- `M`-prefixed register address. -/
def Register.reg (register : Register) : String := "M" ++ toString register.index

/-- Maximum value length the device accepts for a register. -/
def maxValueLen : Nat := 127

/-- Echo after writing a register. -/
def settableEcho (reg : String) : String → Step Value :=
  let head := rcdrLower ++ reg ++ "*"
  parserOf (do literal head; let v ← takeWhile0 isNotCr; literal "\r\n"; pure v) .text

/-- The wire instruction that writes `value` into this register, shortened to `maxValueLen`. -/
def Register.instruction (register : Register) (value : String) : Instruction where
  name := register.name
  payload :=
    String.singleton esc ++ register.reg ++ "*" ++ shorten value maxValueLen ++ rcdr ++
      String.singleton cr
  parseStep := settableEcho register.reg

/-! ## Settings -/

/-- A built-in device setting that can be written. -/
inductive Setting
  | unitName | timezone | dhcpMode | snmpState | snmpUnitLocation | snmpUnitContact
  | telnetPort | httpPort
  | stream1Name | stream2Name | stream3Name
  | stream1State | stream2State | stream3State
  | rtmpStream1PublishURL | rtmpStream1BackupPublishURL
  | rtmpStream2PublishURL | rtmpStream2BackupPublishURL
  | rtmpStream3PublishURL | rtmpStream3BackupPublishURL
  | rtmpStream1State | rtmpStream2State | rtmpStream3State
deriving DecidableEq, Repr

def Setting.all : List Setting :=
  [.unitName, .timezone, .dhcpMode, .snmpState, .snmpUnitLocation, .snmpUnitContact, .telnetPort,
    .httpPort, .stream1Name, .stream2Name, .stream3Name, .stream1State, .stream2State,
    .stream3State, .rtmpStream1PublishURL, .rtmpStream1BackupPublishURL, .rtmpStream2PublishURL,
    .rtmpStream2BackupPublishURL, .rtmpStream3PublishURL, .rtmpStream3BackupPublishURL,
    .rtmpStream1State, .rtmpStream2State, .rtmpStream3State]

/-- Every spelling `fromStr` takes for this setting, canonical name first. -/
def Setting.accepted : Setting → List String
  | .unitName => ["UNIT_NAME"]
  | .timezone => ["TIMEZONE"]
  | .dhcpMode => ["DHCP_MODE"]
  | .snmpState => ["SNMP_STATE"]
  | .snmpUnitLocation => ["SNMP_UNIT_LOCATION"]
  | .snmpUnitContact => ["SNMP_UNIT_CONTACT"]
  | .telnetPort => ["TELNET_PORT"]
  | .httpPort => ["HTTP_PORT"]
  | .stream1Name => ["STREAM_1_NAME", "STREAM_NAME_1"]
  | .stream2Name => ["STREAM_2_NAME", "STREAM_NAME_2"]
  | .stream3Name => ["STREAM_3_NAME", "STREAM_NAME_3"]
  | .stream1State => ["STREAM_1_STATE", "STREAM_1_ENABLED", "STREAM_1_STATUS"]
  | .stream2State => ["STREAM_2_STATE", "STREAM_2_ENABLED", "STREAM_2_STATUS"]
  | .stream3State => ["STREAM_3_STATE", "STREAM_3_ENABLED", "STREAM_3_STATUS"]
  | .rtmpStream1PublishURL => ["RTMP_1_URL", "RTMP_URL_1"]
  | .rtmpStream1BackupPublishURL => ["RTMP_1_BACKUP_URL", "RTMP_BACKUP_URL_1"]
  | .rtmpStream2PublishURL => ["RTMP_2_URL", "RTMP_URL_2"]
  | .rtmpStream2BackupPublishURL => ["RTMP_2_BACKUP_URL", "RTMP_BACKUP_URL_2"]
  | .rtmpStream3PublishURL => ["RTMP_3_URL", "RTMP_URL_3"]
  | .rtmpStream3BackupPublishURL => ["RTMP_3_BACKUP_URL", "RTMP_BACKUP_URL_3"]
  | .rtmpStream1State =>
      ["RTMP_1_STATE", "RTMP_1_ENABLED", "RTMP_1_STATUS", "RTMP_STREAM_1_STATE"]
  | .rtmpStream2State =>
      ["RTMP_2_STATE", "RTMP_2_ENABLED", "RTMP_2_STATUS", "RTMP_STREAM_2_STATE"]
  | .rtmpStream3State =>
      ["RTMP_3_STATE", "RTMP_3_ENABLED", "RTMP_3_STATUS", "RTMP_STREAM_3_STATE"]

def Setting.name (setting : Setting) : String := setting.accepted.headD ""

def Setting.fromStr : String → Option Setting := fromCatalog Setting.all Setting.accepted

/-- What a setting's value must look like on the wire. -/
inductive Shape
  /-- `0` or `1`, in the spellings a human writes. -/
  | flag
  /-- A TCP port. -/
  | port
  /-- Free text with a ceiling. -/
  | text (max : Nat)
  /-- Free text that must survive a frame delimited by `*`. -/
  | token (max : Nat)
  /-- A publish target: a token with a scheme. The empty text clears it. -/
  | url (max : Nat)
deriving DecidableEq, Repr

/-- Where the value sits in the payload. -/
inductive Form
  /-- `ESC <value><verb> CR`. -/
  | prefixed
  /-- `ESC <addr>*<value><verb> CR`. -/
  | addressed (addr : String)
deriving DecidableEq, Repr

/-- Why a value was refused before any byte was sent. -/
inductive ValueError
  | notAFlag (value : String)
  | notAPort (value : String)
  | tooLong (max got : Nat)
  | illegalCharacter (c : Char)
  | notAnRtmpUrl (value : String)
deriving DecidableEq, Repr

/-- `char::escape_debug`, of the characters an encoder refuses. -/
def escapeDebug (c : Char) : String :=
  if c = '\x00' then "\\0"
  else if c = '\t' then "\\t"
  else if c = '\r' then "\\r"
  else if c = '\n' then "\\n"
  else if isControl c then "\\u\x7b" ++ String.ofList (Nat.toDigits 16 c.toNat) ++ "\x7d"
  else String.singleton c

/-- `Display`. -/
def ValueError.display : ValueError → String
  | .notAFlag v => "'" ++ v ++ "' is not a flag; use 1/0, true/false, on/off"
  | .notAPort v => "'" ++ v ++ "' is not a TCP port in 1..=65535"
  | .tooLong max got =>
      "value is " ++ toString got ++ " characters; this setting accepts " ++ toString max
  | .illegalCharacter c =>
      "'" ++ escapeDebug c ++ "' cannot appear in this value; it delimits the field on the wire"
  | .notAnRtmpUrl v =>
      "'" ++ v ++ "' is not an RTMP publish target; expected rtmp://host/... or rtmps://host/... " ++
        "(empty clears the target)"

/-- The scheme is matched without regard to case, and the host must not be empty. -/
def isRtmpUrl (value : String) : Bool :=
  let lower := (toAsciiLowercase value).toList
  match (lower.dropPrefix? "rtmp://".toList).or (lower.dropPrefix? "rtmps://".toList) with
  | none => false
  | some rest => !rest.isEmpty && rest.head? != some '/'

/-- `encode` at `Shape::Text`: refused rather than shortened. -/
def encodeText (max : Nat) (value : String) : Except ValueError String :=
  let got := value.toList.length
  if max < got then .error (.tooLong max got) else .ok value

/-- `encode` at `Shape::Token`. -/
def encodeToken (max : Nat) (value : String) : Except ValueError String := do
  let text ← encodeText max value
  match text.toList.find? fun c => c == '*' || isControl c with
  | some c => .error (.illegalCharacter c)
  | none => .ok text

/-- Render `value` in the wire form `shape` demands. -/
def encode (shape : Shape) (value : String) : Except ValueError String :=
  match shape with
  | .flag =>
      match toAsciiLowercase (trim value) with
      | "1" | "true" | "on" | "yes" => .ok "1"
      | "0" | "false" | "off" | "no" => .ok "0"
      | _ => .error (.notAFlag value)
  | .port =>
      match (parseUnsigned (2 ^ 16) (trim value)).filter (0 < ·) with
      | some p => .ok (toString p)
      | none => .error (.notAPort value)
  | .text max => encodeText max value
  | .token max => encodeToken max value
  | .url max => do
      let text ← encodeToken max value
      if text.isEmpty || isRtmpUrl text then .ok text else .error (.notAnRtmpUrl value)

def Setting.shape : Setting → Shape
  | .dhcpMode | .snmpState => .flag
  | .telnetPort | .httpPort => .port
  | .snmpUnitLocation | .snmpUnitContact => .text 64
  | .unitName => .text 63
  | .timezone => .text 64
  | .stream1State | .stream2State | .stream3State => .flag
  | .stream1Name | .stream2Name | .stream3Name => .token 127
  | .rtmpStream1State | .rtmpStream2State | .rtmpStream3State => .flag
  | .rtmpStream1PublishURL | .rtmpStream2PublishURL | .rtmpStream3PublishURL
  | .rtmpStream1BackupPublishURL | .rtmpStream2BackupPublishURL
  | .rtmpStream3BackupPublishURL => .url 127

def Setting.form : Setting → Form
  | .stream1Name => .addressed "N1"
  | .stream2Name => .addressed "N2"
  | .stream3Name => .addressed "N3"
  | .stream1State => .addressed "1"
  | .stream2State => .addressed "2"
  | .stream3State => .addressed "3"
  | .unitName | .timezone | .dhcpMode | .snmpState | .snmpUnitLocation | .snmpUnitContact
  | .telnetPort | .httpPort => .prefixed
  | .rtmpStream1State => .addressed "E1"
  | .rtmpStream2State => .addressed "E2"
  | .rtmpStream3State => .addressed "E3"
  | .rtmpStream2PublishURL => .addressed "U1*2"
  | .rtmpStream1PublishURL => .addressed "U1*1"
  | .rtmpStream3PublishURL => .addressed "U1*3"
  | .rtmpStream1BackupPublishURL => .addressed "U2*1"
  | .rtmpStream2BackupPublishURL => .addressed "U2*2"
  | .rtmpStream3BackupPublishURL => .addressed "U2*3"

/-- The SIS verb this setting writes through. -/
def Setting.verb : Setting → String
  | .unitName => "CN"
  | .timezone => "TZON"
  | .dhcpMode => "DH"
  | .snmpState => "ESNMP"
  | .snmpUnitLocation => "LSNMP"
  | .snmpUnitContact => "CSNMP"
  | .telnetPort => "MT"
  | .httpPort => "MH"
  | .stream1Name | .stream2Name | .stream3Name
  | .stream1State | .stream2State | .stream3State => "STRC"
  | .rtmpStream1State | .rtmpStream2State | .rtmpStream3State
  | .rtmpStream1PublishURL | .rtmpStream2PublishURL | .rtmpStream3PublishURL
  | .rtmpStream1BackupPublishURL | .rtmpStream2BackupPublishURL
  | .rtmpStream3BackupPublishURL => "RTMP"

/-- Echo after writing an unaddressed setting. -/
def settingEcho (verb : String) : String → Step Value :=
  parserOf (do literal verb; let v ← takeWhile0 isNotCr; literal "\r\n"; pure v) .text

/-- One component of an address: the letters before its digits, and the digits' value. -/
structure AddressPart where
  letters : String
  index : Option Nat
deriving DecidableEq, Repr

/-- Split an address at its `*`s, each component before its trailing digits. -/
def addressParts (addr : String) : List AddressPart :=
  (addr.toList.splitOn '*').map fun part =>
    let digitsAt := part.length - (part.reverse.takeWhile Char.isDigit).length
    { letters := String.ofList (part.take digitsAt)
      index := parseUnsigned (2 ^ 32) (String.ofList (part.drop digitsAt)) }

/-- Match one component. An index is compared as a number: the device pads it with zeros. -/
def AddressPart.parse (n : Nat) (part : AddressPart) : Parser Unit := do
  if 0 < n then literal "*"
  if part.letters ≠ "" then literal part.letters
  match part.index with
  | none => pure ()
  | some expected =>
      let digits ← takeWhile1 Char.isDigit
      if parseUnsigned (2 ^ 32) digits ≠ some expected then throw .backtrack

/-- Echo after an addressed write. -/
def addressedEcho (verb addr : String) : String → Step Value :=
  let head := echoed verb
  let parts := addressParts addr
  parserOf (do
    literal head
    parts.zipIdx.forM fun (part, n) => part.parse n
    literal "*"
    let v ← takeWhile0 isNotCr
    literal "\r\n"
    pure v) .text

/-- The wire instruction that writes `value` into this setting. -/
def Setting.instruction (setting : Setting) (value : String) : Except ValueError Instruction := do
  let encoded ← encode setting.shape value
  match setting.form with
  | .prefixed =>
      .ok {
        name := setting.name
        payload := String.singleton esc ++ encoded ++ setting.verb ++ String.singleton cr
        parseStep := settingEcho setting.verb }
  | .addressed addr =>
      .ok {
        name := setting.name
        payload :=
          String.singleton esc ++ addr ++ "*" ++ encoded ++ setting.verb ++ String.singleton cr
        parseStep := addressedEcho setting.verb addr }

end Sismatic
