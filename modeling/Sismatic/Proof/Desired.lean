import Sismatic.Proof.Table
import Sismatic.Proof.Fifo

/-!
# Who moves the desired state

Three writers share a device's desired state: admission, the poll driver's
`reconcile`, and the rollback of a write that failed. A call moves a device's
desired state through one of them at most, and cancellation through none.
-/

namespace Sismatic

open MemoryOutbox

/-- The device's desired state. -/
abbrev MemoryOutbox.desired (o : MemoryOutbox) (d : DeviceId) : DesiredRecordingState :=
  (o.logs d).desiredRecordingState

/-- The call admits a write with this verb on `d`: a record of it appears. -/
def Admits (c : Chrono) (o : MemoryOutbox) (op : Op) (d : DeviceId) (verb : Verb) : Prop :=
  ∃ w r, o.records w = none ∧ (step c o op).records w = some r ∧ r.device = d ∧
    Verb.of r.intent = verb

/-- The call fails the write `w`, which was still to end. -/
def Fails (c : Chrono) (o : MemoryOutbox) (op : Op) (w : WriteId) (r : WriteRecord) : Prop :=
  o.records w = some r ∧ ¬ r.status.terminal ∧
    ∃ r' reason, (step c o op).records w = some r' ∧ r'.status = .failed reason

/-- What one call may make of `d`'s desired state. -/
inductive DesiredStep (c : Chrono) (o : MemoryOutbox) (op : Op) (d : DeviceId) : Prop
  | kept : (step c o op).desired d = o.desired d → DesiredStep c o op d
  | admitted (verb : Verb) : Admits c o op d verb →
      admitVerb (o.desired d) verb = .ok ((step c o op).desired d) → DesiredStep c o op d
  | observed (state : RecordingState) : op = .observe d state →
      (step c o op).desired d = reconcile (o.desired d) state → DesiredStep c o op d
  | rolledBack (w : WriteId) (r : WriteRecord) : Fails c o op w r → r.device = d →
      (step c o op).desired d = rollback (o.desired d) (Verb.of r.intent) → DesiredStep c o op d

section Desired

variable {o : MemoryOutbox}

/-- What is admitted was admitted by the table, and leaves the state the table says. -/
theorem desired_of_admits (c : Chrono) (hc : Conserved o) {op : Op} (hfresh : Fresh o op)
    {d : DeviceId} {verb : Verb} (h : Admits c o op d verb) :
    admitVerb (o.desired d) verb = .ok ((step c o op).desired d) := by
  obtain ⟨w, r, hnone, hr, rfl, rfl⟩ := h
  obtain ⟨s, rows, row, rfl, happ, hrow, _, rfl⟩ := record_new c hc hfresh hnone hr
  obtain ⟨hbefore, haccept, _⟩ := happ.admitted row hrow
  show admitVerb (o.desired row.device) (Verb.of s.intent) = .ok (((step c o (.submit s)).logs
    row.device).desiredRecordingState)
  rw [happ.desired row hrow, ← haccept, hbefore]

/-- Failing heads rolls back the desired state of each. -/
theorem desired_of_failsHeads {c : Chrono} {op : Op} {now : Timestamp} {ms : List DeviceId}
    {o₁ : MemoryOutbox} (h : FailsHeads now ms o₁ (step c o op)) (hlogs : o₁.logs = o.logs)
    (hrecs : o₁.records = o.records) (d : DeviceId) : DesiredStep c o op d := by
  by_cases hd : d ∈ ms
  · obtain ⟨id, q, r, hat, hlog, hrec⟩ := h.head d hd
    refine .rolledBack id r ⟨hrecs ▸ hat.2.1, ?_, _, _, hrec, rfl⟩ hat.2.2.1 ?_
    · rw [hat.2.2.2]
      exact fun h => by cases h
    · show ((step c o op).logs d).desiredRecordingState = _
      rw [hlog, hlogs]
      rfl
  · refine .kept ?_
    show ((step c o op).logs d).desiredRecordingState = _
    rw [h.logs d hd, hlogs]

theorem desired_of_claimsHeads {o' o₁ : MemoryOutbox} {now : Timestamp} {ms : List DeviceId}
    (h : ClaimsHeads now ms o₁ o') (hlogs : o₁.logs = o.logs) (d : DeviceId) :
    o'.desired d = o.desired d := by
  show (o'.logs d).desiredRecordingState = (o.logs d).desiredRecordingState
  by_cases hd : d ∈ ms
  · obtain ⟨id, q, r, _, hlog, _⟩ := h.head d hd
    rw [hlog, hlogs]
  · rw [h.logs d hd, hlogs]

/-- A settlement moves the desired state of the write's device, and only by rolling it back. -/
theorem desired_of_settled {c : Chrono} {id : WriteId} {outcome : Outcome} {now : Timestamp}
    {res : Except DrainError Unit}
    (h : Settled o id outcome now (step c o (.settle id outcome now)) res) (d : DeviceId) :
    DesiredStep c o (.settle id outcome now) d := by
  cases h with
  | refused what heq _ => exact .kept (by rw [heq])
  | succeeded r value _ _ _ heq => exact .kept (by rw [heq]; rfl)
  | retried r _ _ _ _ _ _ _ _ hlogs =>
      refine .kept ?_
      rw [desired, hlogs]
      by_cases hd : d = r.device
      · subst hd
        rw [Function.update_self]
      · rw [Function.update_of_ne hd]
  | dead r reason hr hst _ _ hlogs hrecs =>
      -- a write that fails for good rolls its own device back, and no other
      by_cases hd : d = r.device
      · subst hd
        refine .rolledBack id r ⟨hr, ?_, _, reason, (congrFun hrecs id).trans
          (Function.update_self ..), rfl⟩ rfl ?_
        · rw [hst]
          exact fun h => by cases h
        · rw [desired, hlogs, Function.update_self]
          rfl
      · refine .kept ?_
        rw [desired, hlogs, Function.update_of_ne hd]

theorem desired_cancels {o' : MemoryOutbox} {p : WriteId → Prop} {gone : BatchId → Prop}
    (h : Cancels p gone o o') (d : DeviceId) : o'.desired d = o.desired d := by
  show (o'.logs d).desiredRecordingState = _
  rw [h.logs d]

/-- **One writer at a time.** -/
theorem desired_step (c : Chrono) (hc : Conserved o) {op : Op} (hfresh : Fresh o op)
    (d : DeviceId) : DesiredStep c o op d := by
  cases step_spec c hc hfresh with
  | submitted s res hsubmit =>
      cases hsubmit with
      | refused e heq => exact .kept (by rw [heq])
      | replayed acceptance heq _ => exact .kept (by rw [heq])
      | appended rows _ _ happ =>
          -- a device addressed admitted the verb; one not addressed was not written
          by_cases hd : d ∈ s.targets
          · rw [← happ.targets] at hd
            obtain ⟨row, hrow, rfl⟩ := List.mem_map.mp hd
            have hadm : Admits c o (.submit s) row.device (Verb.of s.intent) :=
              ⟨row.id, row.record s, hfresh.2.1 row.id (happ.mem_ids hrow), happ.new row hrow, rfl, rfl⟩
            exact .admitted _ hadm (desired_of_admits c hc hfresh hadm)
          · refine .kept ?_
            rw [desired, happ.untouched d hd]
  | claimed d' now res hclaim =>
      cases hclaim with
      | idle _ _ _ hlogs =>
          refine .kept ?_
          rw [desired, hlogs]
      | one _ _ _ h => exact .kept (desired_of_claimsHeads h rfl d)
      | release _ _ _ _ _ _ _ _ _ h => exact .kept (desired_of_claimsHeads h rfl d)
      | late _ _ _ _ _ _ _ h => exact desired_of_failsHeads h rfl rfl d
      | expire _ _ _ _ _ _ _ _ _ _ h => exact desired_of_failsHeads h rfl rfl d
  | settled id outcome now res hsettle => exact desired_of_settled hsettle d
  | observed d' state _ =>
      have hlogs : (step c o (.observe d' state)).logs = Function.update o.logs d' _ := rfl
      by_cases hd : d = d'
      · subst hd
        refine .observed state rfl ?_
        rw [desired, hlogs, Function.update_self]
      · refine .kept ?_
        rw [desired, hlogs, Function.update_of_ne hd]
  | canceledQueue d' reason h => exact .kept (desired_cancels h d)
  | canceledBatch b reason h => exact .kept (desired_cancels h d)

end Desired

end Sismatic
