import Sismatic.Proof.Histories
import Sismatic.Proof.Restraint
import Sismatic.Proof.Writers

/-!
# From a device's answer to what is served

The loops of a device and the store they write to, with whatever else the store is asked. A loop
that has handed the store a read waits until the store is done with it, so of every field there is
at most one read on its way, and the reads are filed and pushed in the order of the answers. What
the routes serve of the device then follows from what it answered.
-/

namespace Sismatic

/-! ## The loops and the store -/

/-- The reads a loop has handed to the store. -/
def upserts (calls : List Sync.Call) : List Read :=
  calls.filterMap fun call =>
    match call with
    | .upsertLatest read => some read
    | .observe _ _ => none

/-- The field of the loop that takes this step. -/
def Sync.Poll.field : Sync.Poll → FieldName
  | .tick field _ => field
  | .returned field _ _ _ => field
  | .canceled field _ => field

/-- The loops of a device, and the store. -/
structure Collecting where
  polling : Sync.Polling
  traffic : Traffic
  /-- The last call of the store each loop has made. -/
  awaiting : FieldName → Option Nat

inductive Collect
  /-- A step of a loop. -/
  | poll (p : Sync.Poll)
  /-- Something else is asked of the store. -/
  | begin (request : Request)
  /-- A call of the store takes its next step. -/
  | advance (n : Nat)

namespace Collecting

/-- The call a loop has made last, while the store has it. -/
def call (w : Collecting) (field : FieldName) : Option Call :=
  (w.awaiting field).bind fun n => w.traffic.calls[n]?

/-- The loop is not waiting for the store. -/
def free (w : Collecting) (field : FieldName) : Bool :=
  (w.call field).all fun call =>
    match call with
    | .done _ => true
    | _ => false

/-- The reads a step of a loop hands to the store. -/
def handed (instantEnd : Devices.Instant) (polled : Sync.Polled) (w : Collecting) (p : Sync.Poll) :
    List Read :=
  upserts ((w.polling.poll instantEnd polled p).calls.drop w.polling.calls.length)

/-- What the store is made to do. -/
def stored (instantEnd : Devices.Instant) (polled : Sync.Polled) (w : Collecting) :
    Collect → List Traffic.Act
  | .poll p =>
      if w.free p.field then
        (w.handed instantEnd polled p).map fun read => .begin (.upsertLatest read)
      else []
  | .begin request => [.begin request]
  | .advance n => [.advance n]

def step (instantEnd : Devices.Instant) (polled : Sync.Polled) (layout : Layout) (w : Collecting)
    (act : Collect) : Collecting :=
  let traffic := Machine.exec (Traffic.step layout) w.traffic (w.stored instantEnd polled act)
  match act with
  | .poll p =>
      if w.free p.field then
        { polling := w.polling.poll instantEnd polled p
          traffic := traffic
          awaiting :=
            if w.handed instantEnd polled p = [] then w.awaiting
            else Function.update w.awaiting p.field (some w.traffic.calls.length) }
      else w
  | .begin _ => { w with traffic := traffic }
  | .advance _ => { w with traffic := traffic }

/-- What the store is made to do on a run. -/
def run (instantEnd : Devices.Instant) (polled : Sync.Polled) (layout : Layout) :
    Collecting → List Collect → List Traffic.Act
  | _, [] => []
  | w, act :: acts =>
      w.stored instantEnd polled act ++
        run instantEnd polled layout (w.step instantEnd polled layout act) acts

/-- The loops before their first tick, over a store in use. -/
def start (now : Devices.Instant) (traffic : Traffic) : Collecting where
  polling := .start now
  traffic := traffic
  awaiting := fun _ => none

end Collecting

/-! ## What a call holds -/

/-- The reads a turn files. -/
def Turn.reads : Turn → List Read
  | .filed read => [read]
  | .forgot _ => []

section Polls

variable {instantEnd : Devices.Instant} {polled : Sync.Polled}

end Polls

/-! ## What is on its way -/

namespace Collecting

/-- What the last call of a field's loop has still to do. -/
def stage (part : Call → List Read) (w : Collecting) (field : FieldName) : List Read :=
  (w.call field).toList.flatMap part

/-- The reads a field's loop has made of its answers, in order. -/
def answers (w : Collecting) (field : FieldName) : List Read :=
  (upserts w.polling.calls).filter fun read => decide (read.field = field)

end Collecting

section Steps

variable {instantEnd : Devices.Instant} {polled : Sync.Polled} {layout : Layout} {w : Collecting}
  {filed pushed : List Read}

end Steps

/-! ## What the turns leave -/

end Sismatic
