import Sismatic.Proof.Conserved
import Sismatic.StoreMemory.Clock

/-!
# When a device's writes run in the order they were submitted

A device has one queue, one head and one retry at a time, so its writes run in
order as long as its head is only taken while nothing of it is in flight. A device's
own task sees to that by settling what it claimed before it claims again. A member
of a batch claimed by *another* member's task has no such protection: its own task
is idle, and claims the next write while the batch is still on the wire.

The condition below is exact, for every run.
-/

namespace Sismatic

open MemoryOutbox

/-! ## Order of execution -/

namespace MemoryOutbox

def InFlight (o : MemoryOutbox) (w : WriteId) : Prop :=
  ∃ r, o.records w = some r ∧ r.status = .inFlight

def Ended (o : MemoryOutbox) (w : WriteId) : Prop :=
  ∃ r, o.records w = some r ∧ r.status.terminal

instance (o : MemoryOutbox) (w : WriteId) : Decidable (o.InFlight w) :=
  decidable_of_iff ((o.records w).any fun r => decide (r.status = .inFlight))
    (by simp [InFlight, Option.any_eq_true])

instance (o : MemoryOutbox) (w : WriteId) : Decidable (o.Ended w) :=
  decidable_of_iff ((o.records w).any fun r => decide r.status.terminal)
    (by simp [Ended, Option.any_eq_true])

/-- `v` was submitted for `d` before `w` was. -/
def SubmittedBefore (o : MemoryOutbox) (d : DeviceId) (v w : WriteId) : Prop :=
  [v, w].Sublist (o.logs d).history

end MemoryOutbox

/-- A write this call puts in flight has nothing of its device unfinished before it. -/
def InOrder (c : Chrono) (o : MemoryOutbox) (op : Op) : Prop :=
  ∀ d v w, (step c o op).SubmittedBefore d v w → ¬ o.InFlight w → (step c o op).InFlight w →
    (step c o op).Ended v

/-- Every device whose head this call takes has nothing in flight. -/
def ClearClaims (c : Chrono) (o : MemoryOutbox) (op : Op) : Prop :=
  ∀ d, Takes c o op d → ∀ w r, o.records w = some r → r.device = d → r.status ≠ .inFlight

/-- What holds while every claim has been clear: conservation, and every device worked in order. -/
structure InOrderSoFar (o : MemoryOutbox) : Prop where
  conserved : Conserved o
  ordered : ∀ d, Lanes.OrderedAt d o.board

theorem inOrderSoFar_init (n : Nat) (backoff : Duration) :
    InOrderSoFar (withMaxAttempts n backoff) where
  conserved := conserved_init n backoff
  ordered := fun d => {
    queue := List.Sublist.refl _
    busy := fun w h => by simp [board, withMaxAttempts, Lanes.Board.At] at h
    one := fun v w h => by simp [board, withMaxAttempts, Lanes.Board.At] at h }

/-- A clear claim finds the lane idle. -/
theorem ClearClaims.idle {c : Chrono} {o : MemoryOutbox} {op : Op} (h : ClearClaims c o op)
    {d : DeviceId} (htakes : Takes c o op d) (w : WriteId) : ¬ o.board.At .busy d w := by
  intro hbusy
  obtain ⟨r, hr, hdev, hphase⟩ := board_at.mp hbusy
  exact h d htakes w r hr hdev (WriteStatus.phase_busy.mp hphase)

theorem inOrderSoFar_step (c : Chrono) {o : MemoryOutbox} (h : InOrderSoFar o) {op : Op}
    (hfresh : Fresh o op) (hclear : ClearClaims c o op) : InOrderSoFar (step c o op) where
  conserved := conserved_step c h.conserved hfresh
  ordered := by
    intro d
    obtain ⟨taken, hmove, htaken⟩ := step_move c h.conserved hfresh
    exact Lanes.orderedAt_move (h.ordered d) h.conserved.board hmove
      fun hd => hclear.idle ((htaken d).mp hd)

/-- A clear claim takes the oldest write not ended. -/
theorem inOrder_of_clearClaims (c : Chrono) {o : MemoryOutbox} (h : InOrderSoFar o) {op : Op}
    (hfresh : Fresh o op) (hclear : ClearClaims c o op) : InOrder c o op := by
  intro d v w hbefore hno hflight
  obtain ⟨taken, hmove, htaken⟩ := step_move c h.conserved hfresh
  have hc' := conserved_step c h.conserved hfresh
  have hdev : ∃ r, (step c o op).records w = some r ∧ r.device = d :=
    hc'.device_of_mem_history (hbefore.subset (by simp))
  have hbusy : (step c o op).board.At .busy d w := by
    obtain ⟨r, hr, hst⟩ := hflight
    obtain ⟨r', hr', hd⟩ := hdev
    obtain rfl := Option.some.inj (hr.symm.trans hr')
    exact board_at.mpr ⟨r, hr, hd, by rw [hst]; rfl⟩
  have hidle : ¬ o.board.At .busy d w := by
    intro hb
    obtain ⟨r, hr, _, hphase⟩ := board_at.mp hb
    exact hno ⟨r, hr, WriteStatus.phase_busy.mp hphase⟩
  obtain ⟨hd, hq, hqueued⟩ := hmove.taken_of_busy h.conserved.board hidle hbusy
  have htakes := (htaken d).mp hd
  -- a claim enters nothing, so what came before the head came before it already
  have hhist : (step c o op).board.history d = o.board.history d := by
    cases op with
    | claimNext d' now =>
        cases hmove with
        | take hm => exact hm.history d
        | _ => exact hd.elim
    | _ => exact htakes.elim
  have hbefore' : Lanes.Before o.board d v w := by
    unfold Lanes.Before
    rw [← hhist]
    exact hbefore
  obtain ⟨r, hr, _, hphase⟩ := board_at.mp
    ((h.ordered d).done_before_head h.conserved.board (hclear.idle htakes) hq hbefore')
  -- what had ended before the call is as it was
  obtain ⟨r', hr', hev⟩ := record_step c h.conserved hfresh hr
  obtain rfl := hev.terminal hphase
  exact ⟨r', hr', hphase⟩

/-- Taking a head over a write in flight puts the younger write in flight before the older ended. -/
theorem clearClaims_of_inOrder (c : Chrono) {o : MemoryOutbox} (h : InOrderSoFar o) {op : Op}
    (hfresh : Fresh o op) (hin : InOrder c o op) : ClearClaims c o op := by
  intro d htakes v r hr hdev hst
  obtain ⟨taken, hmove, htaken⟩ := step_move c h.conserved hfresh
  have hd := (htaken d).mpr htakes
  cases hmove with
  | take hm =>
      obtain ⟨w, hq, hqueued, hbusy, hkeep⟩ := hm.busy h.conserved.board hd
      have hv : o.board.At .busy d v := board_at.mpr ⟨r, hr, hdev, by rw [hst]; rfl⟩
      have hmem : w ∈ o.board.queue d := by rw [hq]; exact List.mem_cons_self ..
      -- the write already in flight is older than anything still queued behind it
      have hbefore : (step c o op).SubmittedBefore d v w := by
        have hb := (h.ordered d).busy_before hv hmem
        unfold Lanes.Before at hb
        rw [← hm.history d] at hb
        exact hb
      have hnot : ¬ o.InFlight w := by
        intro h'
        obtain ⟨rw', hrw, hstw⟩ := h'
        obtain ⟨r₁, hr₁, _, hphase⟩ := board_at.mp hqueued
        obtain rfl := Option.some.inj (hrw.symm.trans hr₁)
        rw [hstw] at hphase
        cases hphase
      have hflight : (step c o op).InFlight w := by
        obtain ⟨r₁, hr₁, _, hphase⟩ := board_at.mp hbusy
        exact ⟨r₁, hr₁, WriteStatus.phase_busy.mp hphase⟩
      obtain ⟨r₁, hr₁, hterm⟩ := hin d v w hbefore hnot hflight
      obtain ⟨r₂, hr₂, _, hphase⟩ := board_at.mp (hkeep v hv)
      obtain rfl := Option.some.inj (hr₁.symm.trans hr₂)
      rw [WriteStatus.terminal, hphase] at hterm
      cases hterm
  | _ => exact hd.elim

/--
**Per-device FIFO, exactly.** Over any run from an empty outbox, every write goes in
flight with everything submitted before it for its device ended, if and only if no
call of the run takes the head of a device that has a write in flight.
-/
theorem fifo_iff_clearClaims (c : Chrono) (n : Nat) (backoff : Duration) (ops : List Op)
    (hfresh : Machine.Along (step c) Fresh (withMaxAttempts n backoff) ops) :
    Machine.Along (step c) (InOrder c) (withMaxAttempts n backoff) ops ↔
      Machine.Along (step c) (ClearClaims c) (withMaxAttempts n backoff) ops := by
  have hstep : ∀ o op, InOrderSoFar o → Fresh o op → ClearClaims c o op →
      InOrderSoFar (step c o op) := fun _ _ h hf hclear => inOrderSoFar_step c h hf hclear
  have hiff : ∀ o op, InOrderSoFar o → Fresh o op → (InOrder c o op ↔ ClearClaims c o op) :=
    fun _ _ h hf => ⟨clearClaims_of_inOrder c h hf, inOrder_of_clearClaims c h hf⟩
  exact Machine.along_iff_of_invariant hstep hiff hfresh (inOrderSoFar_init n backoff)

/-! ## The relay's tasks overtake -/

/-- The ids a claim hands over. -/
def claimedIds : Except DrainError (Option Claim) → List WriteId
  | .ok (some (.one r)) => [r.id]
  | .ok (some (.batch _ rs)) => rs.map (·.id)
  | _ => []

/-- The outbox, and what each device's relay task has claimed and not settled. -/
structure Tasks where
  outbox : MemoryOutbox
  held : DeviceId → List WriteId

def Tasks.step (c : Chrono) (t : Tasks) (op : Op) : Tasks where
  outbox := MemoryOutbox.step c t.outbox op
  held :=
    match op with
    | .claimNext d now =>
        Function.update t.held d (t.held d ++ claimedIds (t.outbox.claimNext c d now).2)
    | .settle id _ _ => fun d => (t.held d).erase id
    | _ => t.held

/-- A task claims with nothing in hand, and settles what it has in hand. -/
def Tasks.InTurn (t : Tasks) : Op → Prop
  | .claimNext d _ => t.held d = []
  | .settle id _ _ => ∃ d, id ∈ t.held d
  | _ => True

/-- A second on the morning the fixed runs are played on. -/
def tenOClock (seconds : String) : Timestamp := ⟨"2024-01-01T10:00:" ++ seconds ++ ".000Z"⟩

/-- A write of `intent` to the one device `a`, alone. -/
def writeTo (id : WriteId) (intent : Intent) (seconds : String) : Op :=
  .submit {
    ids := [id]
    targets := ["a"]
    group := none
    batch := none
    barrier := none
    intent := intent
    atTime := tenOClock seconds
    idempotencyKey := none }

theorem fresh_writeTo {o : MemoryOutbox} {id : WriteId} {intent : Intent} {seconds : String}
    (h : o.records id = none) : Fresh o (writeTo id intent seconds) :=
  ⟨List.nodup_singleton id, fun w hw => by rw [List.mem_singleton.mp hw]; exact h,
    fun _ h => by cases h⟩

/-- Start `a` and `d` together. -/
def startTogether : Submission where
  ids := ["w1", "w2"]
  targets := ["a", "d"]
  group := some "hall"
  batch := some "b"
  barrier := some ⟨15 * 1000000000, .dispatchReady⟩
  intent := .startRecording
  atTime := tenOClock "00"
  idempotencyKey := none

/-- Then change a setting on `d`. -/
def settingBehind : Submission where
  ids := ["w3"]
  targets := ["d"]
  group := none
  batch := none
  barrier := none
  intent := .setSetting "UNIT_NAME" "studio"
  atTime := tenOClock "01"
  idempotencyKey := none

/-- `a`'s task takes the batch, and `d`'s task, which holds nothing, takes the next write. -/
def overtakingRun : List Op :=
  [.submit startTogether, .claimNext "a" (tenOClock "01"), .submit settingBehind,
    .claimNext "d" (tenOClock "02")]

theorem overtakingRun_fresh :
    Machine.Along (step utc) Fresh (withMaxAttempts 3 1000000000) overtakingRun := by
  refine ⟨⟨by decide, fun _ _ => rfl, fun _ _ _ _ h => by cases h⟩, trivial, ⟨by decide, ?_, ?_⟩,
    trivial, trivial⟩
  · decide +kernel
  · exact fun _ h => by cases h

/-- The settings write goes out while the start before it is on the wire. -/
theorem fifo_overtaken :
    Machine.Along (Tasks.step utc) Tasks.InTurn ⟨withMaxAttempts 3 1000000000, fun _ => []⟩
        overtakingRun ∧
      Machine.Along (step utc) Fresh (withMaxAttempts 3 1000000000) overtakingRun ∧
      ¬ Machine.Along (step utc) (InOrder utc) (withMaxAttempts 3 1000000000) overtakingRun := by
  refine ⟨⟨trivial, rfl, trivial, ?_, trivial⟩, overtakingRun_fresh, ?_⟩
  · show Tasks.held _ "d" = []
    decide +kernel
  · intro h
    obtain ⟨_, _, _, hlast, _⟩ := h
    have hended := hlast "d" "w2" "w3" (by unfold SubmittedBefore; decide +kernel)
      (by decide +kernel) (by decide +kernel)
    exact absurd hended (by decide +kernel)

/-- The exact condition, on that run. -/
theorem fifo_iff_overtakingRun :
    Machine.Along (step utc) (InOrder utc) (withMaxAttempts 3 1000000000) overtakingRun ↔
      Machine.Along (step utc) (ClearClaims utc) (withMaxAttempts 3 1000000000) overtakingRun :=
  fifo_iff_clearClaims utc 3 1000000000 overtakingRun overtakingRun_fresh

end Sismatic
