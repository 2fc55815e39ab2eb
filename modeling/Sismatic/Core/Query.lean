import Sismatic.Core.Instructions

/-!
# The read half of the catalog

Every field a device can be asked for, in catalog order, with what is asked on the wire
and how the reply is read. A query's name is what the rest of the program knows it by.
-/

namespace Sismatic

/-- A built-in field that can be queried. -/
inductive Query
  | stream1Name | stream2Name | stream3Name | firmware | runningState | unitName | telnetPort
  | sshPort | httpPort | snmpPort | httpsPort | snmpUnitLocation | snmpUnitContact
  | snmpPrivateCommunityString | snmpPublicCommunityString | snmpState | dhcpMode | timezone
  | macAddress | portTimeout | globalPortTimeout | modelName | modelDescription | activeAlarms
  | partNumber | contributor | course | coverage | date | description | format | identifier
  | language | presenter | publisher | relation | rights | source | subject | systemName
  | title | type | stream1State | stream2State | stream3State | rtmpStream1LiveState
  | rtmpStream2LiveState | rtmpStream3LiveState | rtmpBackupStream1LiveState
  | rtmpBackupStream2LiveState | rtmpBackupStream3LiveState
deriving DecidableEq, Repr

def Query.all : List Query :=
  [.stream1Name, .stream2Name, .stream3Name, .firmware,
    .runningState, .unitName, .telnetPort, .sshPort, .httpPort, .snmpPort, .httpsPort,
    .snmpUnitLocation, .snmpUnitContact, .snmpPrivateCommunityString, .snmpPublicCommunityString,
    .snmpState, .dhcpMode, .timezone, .macAddress, .portTimeout, .globalPortTimeout, .modelName,
    .modelDescription, .activeAlarms, .partNumber, .contributor, .course, .coverage, .date,
    .description, .format, .identifier, .language, .presenter, .publisher, .relation, .rights,
    .source, .subject, .systemName, .title, .type, .stream1State, .stream2State, .stream3State,
    .rtmpStream1LiveState, .rtmpStream2LiveState, .rtmpStream3LiveState,
    .rtmpBackupStream1LiveState, .rtmpBackupStream2LiveState, .rtmpBackupStream3LiveState]

/-- Every spelling `fromStr` takes for this query, canonical name first. -/
def Query.accepted : Query → List String
  | .stream1Name => ["STREAM_1_NAME", "STREAM_NAME_1"]
  | .stream2Name => ["STREAM_2_NAME", "STREAM_NAME_2"]
  | .stream3Name => ["STREAM_3_NAME", "STREAM_NAME_3"]
  | .firmware => ["FIRMWARE"]
  | .runningState => ["RUNNING_STATE"]
  | .unitName => ["UNIT_NAME"]
  | .telnetPort => ["TELNET_PORT"]
  | .sshPort => ["SSH_PORT"]
  | .httpPort => ["HTTP_PORT"]
  | .snmpPort => ["SNMP_PORT"]
  | .httpsPort => ["HTTPS_PORT"]
  | .snmpUnitLocation => ["SNMP_UNIT_LOCATION"]
  | .snmpUnitContact => ["SNMP_UNIT_CONTACT"]
  | .snmpPrivateCommunityString => ["SNMP_PRIVATE_COMMUNITY_STRING"]
  | .snmpPublicCommunityString => ["SNMP_PUBLIC_COMMUNITY_STRING"]
  | .snmpState => ["SNMP_STATE"]
  | .dhcpMode => ["DHCP_MODE"]
  | .timezone => ["TIMEZONE"]
  | .macAddress => ["MAC_ADDRESS"]
  | .portTimeout => ["PORT_TIMEOUT"]
  | .globalPortTimeout => ["GLOBAL_PORT_TIMEOUT"]
  | .modelName => ["MODEL_NAME"]
  | .modelDescription => ["MODEL_DESCRIPTION"]
  | .activeAlarms => ["ACTIVE_ALARMS"]
  | .partNumber => ["PART_NUMBER"]
  | .contributor => ["CONTRIBUTOR"]
  | .course => ["COURSE"]
  | .coverage => ["COVERAGE"]
  | .date => ["DATE"]
  | .description => ["DESCRIPTION"]
  | .format => ["FORMAT"]
  | .identifier => ["IDENTIFIER"]
  | .language => ["LANGUAGE"]
  | .presenter => ["PRESENTER"]
  | .publisher => ["PUBLISHER"]
  | .relation => ["RELATION"]
  | .rights => ["RIGHTS"]
  | .source => ["SOURCE"]
  | .subject => ["SUBJECT"]
  | .systemName => ["SYSTEMNAME"]
  | .title => ["TITLE"]
  | .type => ["TYPE"]
  | .stream1State => ["STREAM_1_STATE", "STREAM_1_ENABLED", "STREAM_1_STATUS"]
  | .stream2State => ["STREAM_2_STATE", "STREAM_2_ENABLED", "STREAM_2_STATUS"]
  | .stream3State => ["STREAM_3_STATE", "STREAM_3_ENABLED", "STREAM_3_STATUS"]
  | .rtmpStream1LiveState =>
      ["RTMP_STREAM_1_LIVE_STATE", "RTMP_STREAM_LIVE_STATE_1", "RTMP_1_LIVE_STATE"]
  | .rtmpStream2LiveState =>
      ["RTMP_STREAM_2_LIVE_STATE", "RTMP_STREAM_LIVE_STATE_2", "RTMP_2_LIVE_STATE"]
  | .rtmpStream3LiveState =>
      ["RTMP_STREAM_3_LIVE_STATE", "RTMP_STREAM_LIVE_STATE_3", "RTMP_3_LIVE_STATE"]
  | .rtmpBackupStream1LiveState =>
      ["RTMP_BACKUP_STREAM_1_LIVE_STATE", "RTMP_BACKUP_STREAM_LIVE_STATE_1", "RTMP_1_BACKUP_LIVE_STATE"]
  | .rtmpBackupStream2LiveState =>
      ["RTMP_BACKUP_STREAM_2_LIVE_STATE", "RTMP_BACKUP_STREAM_LIVE_STATE_2", "RTMP_2_BACKUP_LIVE_STATE"]
  | .rtmpBackupStream3LiveState =>
      ["RTMP_BACKUP_STREAM_3_LIVE_STATE", "RTMP_BACKUP_STREAM_LIVE_STATE_3", "RTMP_3_BACKUP_LIVE_STATE"]

def Query.name (query : Query) : String := query.accepted.headD ""

def Query.fromStr : String → Option Query := fromCatalog Query.all Query.accepted

/-! ## Replies -/

/-- `ESC <body> CR`. -/
def escCr (body : String) : String := String.singleton esc ++ body ++ String.singleton cr

/-- `ESC <body>RCDR CR`. -/
def escRcdr (body : String) : String :=
  String.singleton esc ++ body ++ rcdr ++ String.singleton cr

/-- `<value> CR LF`. -/
def plainText : String → Step Value :=
  parserOf (do let v ← takeWhile0 isNotCr; literal "\r\n"; pure v) .text

/-- Digits that overflow the number they stand for end the search: no later offset is tried. -/
def plainDigits (bound : Nat) : Parser Nat := do
  let digits ← takeWhile1 Char.isDigit
  literal "\r\n"
  match parseUnsigned bound digits with
  | some n => pure n
  | none => throw .cut

/-- `<digits> CR LF` as a port. -/
def plainPort : String → Step Value :=
  parserOf (plainDigits (2 ^ 16)) fun n => .port (UInt16.ofNat n)

def plainNumber : String → Step Value :=
  parserOf (plainDigits (2 ^ 32)) fun n => .number (UInt32.ofNat n)

/-- `(0|1) CR LF`. -/
def booleanFlag : String → Step Value :=
  parserOf (do let b ← oneOf ['0', '1']; literal "\r\n"; pure (b == '1')) .flag

/-- `(0|1|2) CR LF`. -/
def parseState : String → Step Value :=
  parserOf (do
    let d ← oneOf ['0', '1', '2']
    literal "\r\n"
    pure (RecordingState.fromCode (d.toNat - '0'.toNat))) .state

def isHexDigit (c : Char) : Bool :=
  c.isDigit || ('a' ≤ c && c ≤ 'f') || ('A' ≤ c && c ≤ 'F')

/-- `u8::from_str_radix(_, 16)`, of hexadecimal digits. -/
def hexValue (digits : List Char) : UInt8 :=
  UInt8.ofNat (digits.foldl (fun n c =>
    n * 16 + if c.isDigit then c.toNat - '0'.toNat else c.toLower.toNat - 'a'.toNat + 10) 0)

def macByte : Parser UInt8 := do
  let h ← takeExactly isHexDigit 2
  pure (hexValue h.toList)

/-- `xx-xx-xx-xx-xx-xx`. -/
def parseMac : Parser (Vector UInt8 6) := do
  let a ← macByte
  literal "-"
  let b ← macByte
  literal "-"
  let c ← macByte
  literal "-"
  let d ← macByte
  literal "-"
  let e ← macByte
  literal "-"
  let f ← macByte
  pure #v[a, b, c, d, e, f]

def macAddress : String → Step Value :=
  parserOf (do let mac ← parseMac; literal "\r\n"; pure mac) .mac

/-- `<name:NAME,level:LEVEL>`. -/
def alarmEntry : Parser (String × String) := do
  literal "<name:"
  let name ← takeWhile0 fun c => c != ',' && c != '>'
  literal ",level:"
  let level ← takeWhile0 fun c => c != '>'
  literal ">"
  pure (name, level)

/-- Alarm records joined by `*`. -/
def activeAlarms : String → Step Value :=
  parserOf (do let alarms ← separated0 alarmEntry '*'; literal "\r\n"; pure alarms) .alarms

/-- What is asked on the wire, and the parser of the reply. -/
def Query.wire : Query → String × (String → Step Value)
  | .stream1Name => (escCr "N1STRC", plainText)
  | .stream2Name => (escCr "N2STRC", plainText)
  | .stream3Name => (escCr "N3STRC", plainText)
  | .stream1State => (escCr "1STRC", booleanFlag)
  | .stream2State => (escCr "2STRC", booleanFlag)
  | .stream3State => (escCr "3STRC", booleanFlag)
  | .rtmpStream1LiveState => (escCr "S1*1RTMP", booleanFlag)
  | .rtmpStream2LiveState => (escCr "S1*2RTMP", booleanFlag)
  | .rtmpStream3LiveState => (escCr "S1*3RTMP", booleanFlag)
  | .rtmpBackupStream1LiveState => (escCr "S2*1RTMP", booleanFlag)
  | .rtmpBackupStream2LiveState => (escCr "S2*2RTMP", booleanFlag)
  | .rtmpBackupStream3LiveState => (escCr "S2*3RTMP", booleanFlag)
  | .firmware => ("Q", plainText)
  | .runningState => (escRcdr "Y", parseState)
  | .unitName => (escCr "CN", plainText)
  | .telnetPort => (escCr "MT", plainPort)
  | .sshPort => (escCr "BPMAP", plainPort)
  | .httpPort => (escCr "MH", plainPort)
  | .snmpPort => (escCr "APMAP", plainPort)
  | .httpsPort => (escCr "SPMAP", plainPort)
  | .snmpUnitLocation => (escCr "LSNMP", plainText)
  | .snmpUnitContact => (escCr "CSNMP", plainText)
  | .snmpPrivateCommunityString => (escCr "XSNMP", plainText)
  | .snmpPublicCommunityString => (escCr "PSNMP", plainText)
  | .snmpState => (escCr "ESNMP", booleanFlag)
  | .dhcpMode => (escCr "DH", booleanFlag)
  | .timezone => (escCr "TZON", plainText)
  | .macAddress => (escCr "CH", Sismatic.macAddress)
  | .portTimeout => (escCr "0TC", plainNumber)
  | .globalPortTimeout => (escCr "1TC", plainNumber)
  | .modelName => ("1I", plainText)
  | .modelDescription => ("2I", plainText)
  | .activeAlarms => ("39I", Sismatic.activeAlarms)
  | .partNumber => ("N", plainText)
  | .contributor => (escRcdr "M0", plainText)
  | .course => (escRcdr "M16", plainText)
  | .coverage => (escRcdr "M1", plainText)
  | .date => (escRcdr "M3", plainText)
  | .description => (escRcdr "M4", plainText)
  | .format => (escRcdr "M5", plainText)
  | .identifier => (escRcdr "M6", plainText)
  | .language => (escRcdr "M7", plainText)
  | .presenter => (escRcdr "M2", plainText)
  | .publisher => (escRcdr "M8", plainText)
  | .relation => (escRcdr "M9", plainText)
  | .rights => (escRcdr "M10", plainText)
  | .source => (escRcdr "M11", plainText)
  | .subject => (escRcdr "M12", plainText)
  | .systemName => (escRcdr "M15", plainText)
  | .title => (escRcdr "M13", plainText)
  | .type => (escRcdr "M14", plainText)

def Query.instruction (query : Query) : Instruction where
  name := query.name
  payload := query.wire.1
  parseStep := query.wire.2

/-! ## Names -/

/-- The canonical spelling of `written`, from whichever catalog claims it. -/
def canonicalField (written : String) : Option FieldName :=
  ((Query.fromStr written).map Query.name).or
    (((Setting.fromStr written).map Setting.name).or
      ((Register.fromStr written).map Register.name))

end Sismatic
