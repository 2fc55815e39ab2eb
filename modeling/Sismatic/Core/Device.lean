import Sismatic.Core.Config
import Sismatic.Core.Controller

/-!
# A device in use

Any number of calls share one device and its one connection, which a lock gives to one
call at a time. A call waits for the lock, dials if there is no connection, writes its
payload and reads until it has a reply; at every one of these it may be aborted, and the
lock is then free again with the connection as it stands. The recorder is the other end:
it answers the payloads a connection has brought it, in order.
-/

namespace Sismatic.Devices

/-- Why opening a connection failed. -/
inductive ConnectError
  | failed (e : String)
  | timeout (after : Duration)
deriving DecidableEq, Repr

/-- Who keeps a field from being asked for. -/
inductive VetoSource
  | declared | inferred
deriving DecidableEq, Repr

/-- Why a call against a device failed. -/
inductive DeviceError
  | connect (e : ConnectError)
  | command (e : ControllerError)
  | cold (retryIn : Duration)
  | disabled (field : FieldName) (source : VetoSource) (retryIn : Option Duration)
deriving DecidableEq, Repr

/-- Whether a call may dial a device the cold gate is holding shut. -/
inductive Dial
  | whenWarm | always
deriving DecidableEq, Repr

/-- An open channel, with what is under way on it. -/
structure Channel where
  /-- The payloads it has brought the recorder that are not answered, with who sent each. -/
  owed : List (Nat × String)
  /-- What the recorder has answered and no one has read. -/
  unread : List UInt8
deriving DecidableEq, Repr

def Channel.open : Channel := ⟨[], []⟩

/-- Everything the connection lock guards. -/
structure Link where
  conn : Option Channel
  /-- When the gate a failed dial has shut opens again. -/
  coldUntil : Option Nat
deriving DecidableEq, Repr

/-- What a call waits for. -/
inductive Phase
  /-- The connection lock. -/
  | waiting
  | dialing (reconnected : Bool)
  /-- Its payload to be taken. -/
  | writing (wasCached reconnected : Bool)
  /-- More than the bytes it has accumulated. -/
  | reading (wasCached reconnected : Bool) (acc : List UInt8)
  | returned (result : Except DeviceError Value)
  | aborted
deriving DecidableEq

/-- A call of `exec`. -/
structure Exec where
  instruction : Instruction
  dial : Dial
  phase : Phase

/-- A line of the recorder's, and what it answers. -/
structure Reply where
  exec : Nat
  payload : String
  line : List UInt8
deriving DecidableEq, Repr

/-- A device with its calls so far, numbered as they were made. -/
structure Session where
  link : Link
  /-- The call that has the connection lock. -/
  holder : Option Nat
  execs : List Exec
  /-- What the recorder has answered so far. -/
  replies : List Reply

/-- How a dial ends. -/
inductive Dialed
  | connected
  | failed (e : String)
  | elapsed
deriving DecidableEq, Repr

/-- What a read gives. -/
inductive Received
  | bytes (count : Nat)
  | closed
  | failed (source : TransportError)
deriving DecidableEq, Repr

/-- What happens next to a device: a call, a call going on, or its recorder. -/
inductive Act
  /-- `run` or `probe` is called; `veto` is what `field_veto` says of the field. -/
  | call (dial : Dial) (instruction : Instruction)
      (veto : Option (VetoSource × Option Duration))
  | lock (n now : Nat)
  | dialed (n now : Nat) (outcome : Dialed)
  | wrote (n now : Nat) (failure : Option TransportError)
  | read (n now : Nat) (received : Received)
  /-- `exchange_timeout` runs out. -/
  | elapsed (n now : Nat)
  | abort (n : Nat)
  /-- The recorder answers the oldest payload it has not answered. -/
  | answer (line : List UInt8)

namespace Session

/-- A device before its first call. -/
def start : Session := ⟨⟨none, none⟩, none, [], []⟩

def turn (s : Session) (n : Nat) (exec : Exec) (phase : Phase) : Session :=
  { s with execs := s.execs.set n { exec with phase := phase } }

/-- The call ends, and the lock with it. -/
def finish (s : Session) (n : Nat) (exec : Exec) (phase : Phase) : Session :=
  { s.turn n exec phase with holder := none }

/-- The head of `exec`'s loop, up to the first await of `dial`. -/
def ensure (s : Session) (n now : Nat) (exec : Exec) (reconnected : Bool) : Session :=
  match s.link.conn with
  | some _ => s.turn n exec (.writing true reconnected)
  | none =>
      match exec.dial, s.link.coldUntil with
      | .whenWarm, some untilThen =>
          if now < untilThen then
            s.finish n exec (.returned (.error (.cold (untilThen - now))))
          else s.turn n exec (.dialing reconnected)
      | _, _ => s.turn n exec (.dialing reconnected)

/-- The exchange failed: the connection goes, and one that was cached is healed once. -/
def fail (s : Session) (n now : Nat) (exec : Exec) (wasCached reconnected : Bool)
    (e : ControllerError) : Session :=
  let s := { s with link := { s.link with conn := none } }
  if wasCached && !reconnected then s.ensure n now exec true
  else s.finish n exec (.returned (.error (.command e)))

/-- The rest of `dial`. -/
def afterDial (config : DeviceConfig) (s : Session) (n now : Nat) (exec : Exec)
    (reconnected : Bool) : Dialed → Session
  | .connected =>
      { s with link := ⟨some .open, none⟩ }.turn n exec (.writing false reconnected)
  | .failed e =>
      { s with link := { s.link with coldUntil := config.coldBackoff.map (now + ·) } }.finish n exec
        (.returned (.error (.connect (.failed e))))
  | .elapsed =>
      { s with link := { s.link with coldUntil := config.coldBackoff.map (now + ·) } }.finish n exec
        (.returned (.error (.connect (.timeout config.connectTimeout))))

/-- `run` asks the veto first, and `probe` does not. -/
def call (s : Session) (dial : Dial) (instruction : Instruction)
    (veto : Option (VetoSource × Option Duration)) : Session :=
  let phase :=
    match dial, veto with
    | .whenWarm, some (source, retryIn) =>
        .returned (.error (.disabled instruction.name source retryIn))
    | _, _ => .waiting
  { s with execs := s.execs ++ [⟨instruction, dial, phase⟩] }

/-- The payload is with the recorder, or the channel has failed. -/
def wrote (s : Session) (n now : Nat) (exec : Exec) (wasCached reconnected : Bool) :
    Option TransportError → Session
  | some source =>
      s.fail n now exec wasCached reconnected (.transport exec.instruction.name source)
  | none =>
      match s.link.conn with
      | none => s
      | some conn =>
          { s with link := { s.link with
              conn := some { conn with
                owed := conn.owed ++ [(n, exec.instruction.payload)] } } }.turn n exec
            (.reading wasCached reconnected [])

/-- One turn of `exchange`'s loop. A read of nothing is one that still waits. -/
def read (s : Session) (n now : Nat) (exec : Exec) (wasCached reconnected : Bool)
    (acc : List UInt8) : Received → Session
  | .closed =>
      s.fail n now exec wasCached reconnected (.connectionClosed exec.instruction.name)
  | .failed source =>
      s.fail n now exec wasCached reconnected (.transport exec.instruction.name source)
  | .bytes count =>
      match s.link.conn with
      | none => s
      | some conn =>
          match conn.unread.take (min count bufLen) with
          | [] => s
          | chunk =>
              let s := { s with link := { s.link with
                conn := some { conn with unread := conn.unread.drop chunk.length } } }
              match parseReply exec.instruction (acc ++ chunk) with
              | none => s.turn n exec (.reading wasCached reconnected (acc ++ chunk))
              | some (.ok value) => s.finish n exec (.returned (.ok value))
              | some (.error e) => s.finish n exec (.returned (.error (.command e)))

/-- One step of one call, if what the act says can happen to it. -/
def advance (config : DeviceConfig) (s : Session) (n : Nat) (exec : Exec) : Act → Session
  | .lock _ now =>
      match exec.phase, s.holder with
      | .waiting, none => { s with holder := some n }.ensure n now exec false
      | _, _ => s
  | .dialed _ now outcome =>
      match exec.phase with
      | .dialing reconnected => s.afterDial config n now exec reconnected outcome
      | _ => s
  | .wrote _ now failure =>
      match exec.phase with
      | .writing wasCached reconnected => s.wrote n now exec wasCached reconnected failure
      | _ => s
  | .read _ now received =>
      match exec.phase with
      | .reading wasCached reconnected acc => s.read n now exec wasCached reconnected acc received
      | _ => s
  | .elapsed _ now =>
      let e := .timeout exec.instruction.name config.exchangeTimeout
      match exec.phase with
      | .writing wasCached reconnected => s.fail n now exec wasCached reconnected e
      | .reading wasCached reconnected _ => s.fail n now exec wasCached reconnected e
      | _ => s
  | .abort _ =>
      match exec.phase with
      | .waiting => s.turn n exec .aborted
      | .dialing _ => s.finish n exec .aborted
      | .writing _ _ => s.finish n exec .aborted
      | .reading _ _ _ => s.finish n exec .aborted
      | _ => s
  | _ => s

/-- The recorder answers what it owes, in order. -/
def answer (s : Session) (line : List UInt8) : Session :=
  match s.link.conn with
  | none => s
  | some conn =>
      match conn.owed with
      | [] => s
      | (n, payload) :: owed =>
          { s with
            link := { s.link with conn := some ⟨owed, conn.unread ++ line⟩ }
            replies := s.replies ++ [⟨n, payload, line⟩] }

def step (config : DeviceConfig) (s : Session) (act : Act) : Session :=
  match act with
  | .call dial instruction veto => s.call dial instruction veto
  | .answer line => s.answer line
  | .lock n _ | .dialed n _ _ | .wrote n _ _ | .read n _ _ | .elapsed n _ | .abort n =>
      match s.execs[n]? with
      | none => s
      | some exec => s.advance config n exec act

end Session

end Sismatic.Devices
