import Sismatic.StoreMemory.Outbox
import Sismatic.StoreMemory.Reads

/-!
# What the groups were told, as the maps it is kept in

`MemoryOutbox.groups` is what is found under a group and a field. A listing goes through the
maps behind it, field by field, so here they are, beside the outbox whose lock guards them: a
submission that is accepted files in both at once, and a group that goes is taken out of both.
-/

namespace Sismatic

/-- `State::groups`. -/
abbrev GroupMap := Std.TreeMap GroupId (Fields GroupExpectation)

namespace GroupMap

/-- File what a group was told. -/
def expect (told : GroupMap) (s : Submission) : GroupMap :=
  match s.group with
  | none => told
  | some group =>
      let (field, value) := expects s.intent
      told.insert group ((told[group]?.getD ∅).insert field ⟨field, value, s.atTime⟩)

/-- `GroupState::expected`. -/
def expected (told : GroupMap) (group : GroupId) (field : FieldName) : Option GroupExpectation :=
  told[group]?.bind fun fields => fields[field]?

/-- `GroupState::expected_all`: what a group was told, by field. -/
def expectedAll (told : GroupMap) (group : GroupId) : List GroupExpectation :=
  (told[group]?.map (·.values)).getD []

end GroupMap

/-- The outbox and its maps. -/
structure GroupOutbox where
  outbox : MemoryOutbox
  told : GroupMap

/-- What the outbox is asked to do. -/
inductive GroupOp
  | call (op : MemoryOutbox.Op)
  | forgetGroup (group : GroupId)

namespace GroupOutbox

def withMaxAttempts (maxAttempts : Nat) (backoff : Duration) : GroupOutbox where
  outbox := .withMaxAttempts maxAttempts backoff
  told := ∅

/-- Whether the submission is accepted, and not for having been accepted before. -/
def files (o : MemoryOutbox) (s : Submission) : Bool :=
  (o.replayed s).isNone && (o.submit s).2.isOk

/-- What one call leaves of both. -/
def step (c : Chrono) (w : GroupOutbox) : GroupOp → GroupOutbox
  | .call op =>
      { outbox := w.outbox.step c op
        told :=
          match op with
          | .submit s => if files w.outbox s then w.told.expect s else w.told
          | _ => w.told }
  | .forgetGroup group => ⟨w.outbox.forgetGroup group, w.told.erase group⟩

end GroupOutbox

end Sismatic
