import Sismatic.Proof.Steps
import Sismatic.Lib.Run

/-!
# Every write is conserved

The outbox is a board of lanes: a device is a lane, a write is an item, and a
record's status is its phase. Every call is one move of that board, so queues,
histories and records stay in step with each other over any run.

Only two things are asked of the caller, and both are what minting ids at random
gives: a submission brings ids no record has, and a batch id no record carries.
-/

namespace Sismatic

open MemoryOutbox

/-! ## The board -/

def WriteStatus.phase : WriteStatus → Lanes.Phase
  | .pending => .queued
  | .inFlight => .busy
  | .succeeded _ => .done
  | .failed _ => .done
  | .canceled _ => .done

theorem WriteStatus.phase_queued {st : WriteStatus} : st.phase = .queued ↔ st = .pending := by
  cases st <;> simp [phase]

theorem WriteStatus.phase_busy {st : WriteStatus} : st.phase = .busy ↔ st = .inFlight := by
  cases st <;> simp [phase]

/-- Whether a write will not move again. -/
def WriteStatus.terminal (st : WriteStatus) : Prop := st.phase = .done

instance (st : WriteStatus) : Decidable st.terminal :=
  inferInstanceAs (Decidable (st.phase = .done))

def WriteRecord.item (r : WriteRecord) : Lanes.Item DeviceId := ⟨r.device, r.status.phase, r.attempts⟩

namespace MemoryOutbox

/-- The outbox as a board of lanes. -/
def board (o : MemoryOutbox) : Lanes.Board DeviceId WriteId where
  queue := fun d => (o.logs d).queue
  history := fun d => (o.logs d).history
  item := fun w => (o.records w).map WriteRecord.item

theorem board_item {o : MemoryOutbox} {w : WriteId} {r : WriteRecord} (h : o.records w = some r) :
    o.board.item w = some r.item := by
  simp [board, h]

theorem board_item_some {o : MemoryOutbox} {w : WriteId} {it : Lanes.Item DeviceId}
    (h : o.board.item w = some it) : ∃ r, o.records w = some r ∧ r.item = it := by
  simpa [board] using h

theorem board_at {o : MemoryOutbox} {p : Lanes.Phase} {d : DeviceId} {w : WriteId} :
    o.board.At p d w ↔ ∃ r, o.records w = some r ∧ r.device = d ∧ r.status.phase = p := by
  refine ⟨?_, ?_⟩
  · intro h
    obtain ⟨it, hit, hl, hp⟩ := h
    obtain ⟨r, hr, rfl⟩ := board_item_some hit
    exact ⟨r, hr, hl, hp⟩
  · intro h
    obtain ⟨r, hr, hd, hp⟩ := h
    exact ⟨r.item, board_item hr, hd, hp⟩

theorem board_congr {o o' : MemoryOutbox} (hlogs : o'.logs = o.logs)
    (hrecs : o'.records = o.records) : o'.board = o.board := by
  simp only [board, hlogs, hrecs]

end MemoryOutbox

/-- The outbox conserves its writes: its board does, and every record is filed under its own id. -/
structure Conserved (o : MemoryOutbox) : Prop where
  board : Lanes.WF o.board
  named : ∀ w r, o.records w = some r → r.id = w

theorem Conserved.tidy {o : MemoryOutbox} (h : Conserved o) : Tidy o where
  filed := by
    intro d w hw
    obtain ⟨r, hr, hdev, hphase⟩ := board_at.mp ((h.board.queue_iff d w).mp hw)
    exact ⟨r, hr, hdev, WriteStatus.phase_queued.mp hphase⟩
  queued := by
    intro w r hr hst
    refine (h.board.queue_iff r.device w).mpr (board_at.mpr ⟨r, hr, rfl, ?_⟩)
    rw [hst]; rfl
  nodup := h.board.queue_nodup

theorem Conserved.mem_history {o : MemoryOutbox} (h : Conserved o) {w : WriteId} {r : WriteRecord}
    (hr : o.records w = some r) : w ∈ (o.logs r.device).history :=
  (h.board.history_iff r.device w).mpr ⟨r.item, board_item hr, rfl⟩

theorem Conserved.device_of_mem_history {o : MemoryOutbox} (h : Conserved o) {d : DeviceId}
    {w : WriteId} (hw : w ∈ (o.logs d).history) : ∃ r, o.records w = some r ∧ r.device = d := by
  obtain ⟨it, hit, hl⟩ := (h.board.history_iff d w).mp hw
  obtain ⟨r, hr, rfl⟩ := board_item_some hit
  exact ⟨r, hr, hl⟩

/-! ## Every call is a move -/

/-- What the caller of `submit` sees to: ids no record has, and a batch id no record carries. -/
def Fresh (o : MemoryOutbox) : Op → Prop
  | .submit s => s.ids.Nodup ∧ (∀ w ∈ s.ids, o.records w = none) ∧
      ∀ b, s.batch = some b → ∀ w r, o.records w = some r → r.batch ≠ some b
  | _ => True

/-- What one call did, with everything that led to it. -/
inductive Stepped (c : Chrono) (o o' : MemoryOutbox) : Op → Prop
  | submitted (s : Submission) (res : Except SubmitError Acceptance) :
      Submitted o s o' res → Stepped c o o' (.submit s)
  | claimed (d : DeviceId) (now : Timestamp) (res : Except DrainError (Option Claim)) :
      Claimed c o d now o' res → Stepped c o o' (.claimNext d now)
  | settled (id : WriteId) (outcome : Outcome) (now : Timestamp) (res : Except DrainError Unit) :
      Settled o id outcome now o' res → Stepped c o o' (.settle id outcome now)
  | observed (d : DeviceId) (state : RecordingState) : o' = o.observe d state →
      Stepped c o o' (.observe d state)
  | canceledQueue (d : DeviceId) (reason : String) :
      Cancels (fun w => (∃ r, o.records w = some r ∧ r.device = d) ∨ o.Doomed (o.Waits d) w)
        (o.Waits d) o o' → Stepped c o o' (.cancelQueued d reason)
  | canceledBatch (b : BatchId) (reason : String) : Cancels (o.Doomed (· = b)) (· = b) o o' →
      Stepped c o o' (.cancelBatch b reason)

/-- **What a call does.** -/
theorem step_spec (c : Chrono) {o : MemoryOutbox} (hc : Conserved o) {op : Op}
    (hfresh : Fresh o op) : Stepped c o (step c o op) op := by
  have ht := hc.tidy
  cases op with
  | submit s => exact .submitted s _ (submit_spec o hfresh.1)
  | claimNext d now => exact .claimed d now _ (claimNext_spec c ht.filed d now)
  | settle id outcome now => exact .settled id outcome now _ (settle_spec c o id outcome now)
  | observe d state => exact .observed d state rfl
  | cancelQueued d reason => exact .canceledQueue d reason (cancelQueued_cancels ht d reason)
  | cancelBatch b reason => exact .canceledBatch b reason (cancelBatch_cancels ht b reason)

namespace MemoryOutbox

/-- `d`'s head is due and goes out alone: unbatched, or its batch already dispatched. -/
def Alone (o : MemoryOutbox) (d : DeviceId) (now : Timestamp) : Prop :=
  ∃ r, o.HeadDue d now r ∧ ∀ b, r.batch = some b → ∃ e, o.batches b = some e ∧ e.gate = .opened

/-- `d`'s head is due and belongs to batch `b`, whose rendezvous is `e`. -/
def AtBatch (o : MemoryOutbox) (d : DeviceId) (now : Timestamp) (b : BatchId) (e : Batch) : Prop :=
  ∃ r, o.HeadDue d now r ∧ r.batch = some b ∧ o.batches b = some e

/-- Batch `b` may be released: everyone has arrived, or time ran out under `dispatchReady`. -/
def Releasable (c : Chrono) (o : MemoryOutbox) (b : BatchId) (e : Batch) (now : Timestamp) : Prop :=
  o.arrived e b now = e.members ∨
    elapsedPast c e.armedAt e.barrier.timeout now = some true ∧
      e.barrier.onTimeout = .dispatchReady

theorem AtBatch.unique {o : MemoryOutbox} {d : DeviceId} {now : Timestamp} {b b' : BatchId}
    {e e' : Batch} (h : o.AtBatch d now b e) (h' : o.AtBatch d now b' e') : b = b' ∧ e = e' := by
  obtain ⟨r, hdue, hb, he⟩ := h
  obtain ⟨r', hdue', hb', he'⟩ := h'
  obtain rfl := hdue.unique hdue'
  obtain rfl := Option.some.inj (hb.symm.trans hb')
  exact ⟨rfl, Option.some.inj (he.symm.trans he')⟩

theorem Alone.gate {o : MemoryOutbox} {d : DeviceId} {now : Timestamp} {b : BatchId} {e : Batch}
    (h : o.Alone d now) (h' : o.AtBatch d now b e) : e.gate = .opened := by
  obtain ⟨r, hdue, hopen⟩ := h
  obtain ⟨r', hdue', hb, he⟩ := h'
  obtain rfl := hdue.unique hdue'
  obtain ⟨e', he', hg⟩ := hopen b hb
  obtain rfl := Option.some.inj (he.symm.trans he')
  exact hg

end MemoryOutbox

/-- The devices whose head a call puts in flight. -/
def Takes (c : Chrono) (o : MemoryOutbox) : Op → DeviceId → Prop
  | .claimNext d now, m => (m = d ∧ o.Alone d now) ∨
      ∃ b e, o.AtBatch d now b e ∧ e.gate = .waiting ∧ m ∈ o.arrived e b now ∧
        o.Releasable c b e now
  | _, _ => False

section Moves

variable {o o' : MemoryOutbox} {now : Timestamp} {ms : List DeviceId}

/-- The row at the head of a device in `ms` is the only one `Heads` touches. -/
theorem Heads.cases {f : DeviceLog → WriteRecord → DeviceLog} {g : WriteRecord → WriteRecord}
    (h : Heads f g ms o o') (w : WriteId) :
    (∃ m ∈ ms, ∃ q r, HeadAt o m w q r ∧ o'.records w = some (g r)) ∨
      ((∀ m ∈ ms, (o.logs m).queue.head? ≠ some w) ∧ o'.records w = o.records w) := by
  by_cases hw : ∃ m ∈ ms, (o.logs m).queue.head? = some w
  · left
    obtain ⟨m, hm, hhead⟩ := hw
    obtain ⟨id, q, r, hat, _, hrec⟩ := h.head m hm
    rw [hat.1, List.head?_cons] at hhead
    obtain rfl := Option.some.inj hhead
    exact ⟨m, hm, q, r, hat, hrec⟩
  · right
    have hno : ∀ m ∈ ms, (o.logs m).queue.head? ≠ some w := fun m hm hh => hw ⟨m, hm, hh⟩
    exact ⟨hno, h.records w hno⟩

theorem takes_of_claimsHeads (h : ClaimsHeads now ms o o') :
    Lanes.Takes (· ∈ ms) o.board o'.board where
  head := by
    intro m hm
    obtain ⟨id, q, r, hat, hlog, hrec⟩ := h.head m hm
    refine ⟨id, ?_, ?_⟩
    · show (o.logs m).queue = id :: (o'.logs m).queue
      rw [hlog, hat.1]
    · intro it hit
      rw [board_item hat.2.1] at hit
      obtain rfl := Option.some.inj hit
      rw [board_item hrec]
      rfl
  queue := fun m hm => congrArg DeviceLog.queue (h.logs m hm)
  history := by
    intro m
    by_cases hm : m ∈ ms
    · obtain ⟨id, q, r, hat, hlog, _⟩ := h.head m hm
      show (o'.logs m).history = (o.logs m).history
      rw [hlog]
    · exact congrArg DeviceLog.history (h.logs m hm)
  item := by
    intro w hw
    show (o'.records w).map WriteRecord.item = (o.records w).map WriteRecord.item
    rw [h.records w hw]

theorem drops_of_failsHeads (hc : Conserved o) (h : FailsHeads now ms o o') :
    Lanes.Drops (fun w => ∃ m ∈ ms, (o.logs m).queue.head? = some w) o.board o'.board where
  sub := by
    intro m
    by_cases hm : m ∈ ms
    · obtain ⟨id, q, r, hat, hlog, _⟩ := h.head m hm
      show (o'.logs m).queue.Sublist (o.logs m).queue
      rw [hlog, hat.1]
      exact List.sublist_cons_self ..
    · show (o'.logs m).queue.Sublist (o.logs m).queue
      rw [h.logs m hm]
  kept := by
    intro m w hw
    change w ∈ (o.logs m).queue at hw
    show w ∈ (o'.logs m).queue ↔ _
    -- a row is in one lane, so a failed head of `m'` in `m`'s queue is `m`'s own
    have hlane : ∀ m', (o.logs m').queue.head? = some w → m' = m := fun m' hh =>
      hc.board.lane_unique (List.mem_of_mem_head? hh) hw
    by_cases hm : m ∈ ms
    · obtain ⟨id, q, r, hat, hlog, _⟩ := h.head m hm
      have hnd := hc.board.queue_nodup m
      have hqueue : (o'.logs m).queue = q := by rw [hlog]; rfl
      change (o.logs m).queue.Nodup at hnd
      rw [hat.1, List.nodup_cons] at hnd
      rw [hat.1, List.mem_cons] at hw
      rw [hqueue]
      refine ⟨?_, ?_⟩
      · intro hq h'
        obtain ⟨m', _, hh⟩ := h'
        obtain rfl := hlane m' hh
        rw [hat.1, List.head?_cons] at hh
        obtain rfl := Option.some.inj hh
        exact hnd.1 hq
      · intro hno
        rcases hw with rfl | hq
        · exact absurd ⟨m, hm, by rw [hat.1, List.head?_cons]⟩ hno
        · exact hq
    · rw [h.logs m hm]
      refine ⟨?_, fun _ => hw⟩
      intro _ h'
      obtain ⟨m', hm', hh⟩ := h'
      exact hm (hlane m' hh ▸ hm')
  history := by
    intro m
    by_cases hm : m ∈ ms
    · obtain ⟨id, q, r, hat, hlog, _⟩ := h.head m hm
      show (o'.logs m).history = (o.logs m).history
      rw [hlog]; rfl
    · exact congrArg DeviceLog.history (h.logs m hm)
  item_drop := by
    intro w it hit hq hp
    obtain ⟨m, hm, hhead⟩ := hp
    rcases h.cases w with ⟨m', _, q, r, hat, hrec⟩ | ⟨hno, _⟩
    · rw [board_item hat.2.1] at hit
      obtain rfl := Option.some.inj hit
      rw [board_item hrec]
      rfl
    · exact absurd hhead (hno m hm)
  item := by
    intro w hw
    rcases h.cases w with ⟨m, hm, q, r, hat, _⟩ | ⟨_, hrec⟩
    · refine absurd ⟨m, hm, by rw [hat.1, List.head?_cons]⟩ (hw r.item (board_item hat.2.1) ?_)
      show r.status.phase = .queued
      rw [hat.2.2.2]; rfl
    · show (o'.records w).map WriteRecord.item = (o.records w).map WriteRecord.item
      rw [hrec]

theorem drops_of_cancels {p : WriteId → Prop} {gone : BatchId → Prop}
    (h : Cancels p gone o o') : Lanes.Drops p o.board o'.board where
  sub := h.sub
  kept := h.kept
  history := by
    intro d
    show (o'.logs d).history = (o.logs d).history
    rw [h.logs d]
  item_drop := by
    intro w it hit hq hp
    obtain ⟨r, hr, rfl⟩ := board_item_some hit
    obtain ⟨reason, hr'⟩ := h.drop w r hr (WriteStatus.phase_queued.mp hq) hp
    rw [board_item hr']
    rfl
  item := by
    intro w hw
    show (o'.records w).map WriteRecord.item = (o.records w).map WriteRecord.item
    rw [h.records w ?_]
    intro r hr hst
    refine hw r.item (board_item hr) ?_
    show r.status.phase = .queued
    rw [hst]; rfl

theorem enqueues_of_appends {s : Submission} {rows : List Row} (hfresh : Fresh o (.submit s))
    (h : Appends s rows o o') : Lanes.Enqueues (rows.map Row.entry) o.board o'.board where
  fresh := by
    intro x hx
    obtain ⟨row, hrow, rfl⟩ := List.mem_map.mp hx
    have hnone := hfresh.2.1 row.id (h.mem_ids hrow)
    show (o.records row.id).map WriteRecord.item = none
    rw [hnone]; rfl
  nodup := by
    rw [List.map_map]
    exact h.ids ▸ hfresh.1
  queue := h.queue
  history := h.history
  item_new := by
    intro x hx
    obtain ⟨row, hrow, rfl⟩ := List.mem_map.mp hx
    exact board_item (h.new row hrow)
  item_old := by
    intro w hw
    show (o'.records w).map WriteRecord.item = (o.records w).map WriteRecord.item
    rw [h.old w ?_]
    rw [List.map_map] at hw
    exact h.ids ▸ hw

end Moves

/-- Settling is staying, finishing, or requeueing. -/
theorem move_of_settled {o o' : MemoryOutbox} {id : WriteId} {outcome : Outcome} {now : Timestamp}
    {res : Except DrainError Unit} (h : Settled o id outcome now o' res) :
    Lanes.Move o.board o'.board (fun _ => False) := by
  -- a settled row other than `id` keeps its record, and with it its item
  have hitem : ∀ (r' : WriteRecord) (w : WriteId), w ≠ id →
      o'.records = Function.update o.records id (some r') → o'.board.item w = o.board.item w := by
    intro r' w hw hrecs
    show (o'.records w).map WriteRecord.item = (o.records w).map WriteRecord.item
    rw [hrecs, Function.update_of_ne hw]
  cases h with
  | refused what heq hno => rw [heq]; exact .stay rfl
  | succeeded r value hr hst hout heq =>
      refine .finish (i := id) ⟨⟨r.item, board_item hr, ?_, ?_⟩, ?_, ?_, ?_⟩
      · show r.status.phase = .busy
        rw [hst]; rfl
      · rw [heq]
        exact board_item (o := o.setRecord id _) (Function.update_self ..)
      · rw [heq]; exact fun _ => rfl
      · rw [heq]; exact fun _ => rfl
      · exact fun w hw => hitem _ w hw (by rw [heq]; rfl)
  | retried r reason notBefore updatedAt res hr hst hout hatt hlogs hrecs hrv hmax =>
      refine .requeue (i := id) ⟨⟨r.item, board_item hr, ?_, ?_, ?_, ?_⟩, ?_, ?_⟩
      · show r.status.phase = .busy
        rw [hst]; rfl
      · exact board_item (by rw [hrecs]; exact Function.update_self ..)
      · show (o'.logs r.device).queue = _
        rw [hlogs, Function.update_self]; rfl
      · intro d hd
        have hd' : d ≠ r.device := hd
        show (o'.logs d).queue = (o.logs d).queue
        rw [hlogs, Function.update_of_ne hd']
      · intro d
        show (o'.logs d).history = (o.logs d).history
        rw [hlogs]
        by_cases hd : d = r.device
        · subst hd; rw [Function.update_self]
        · rw [Function.update_of_ne hd]
      · exact fun w hw => hitem _ w hw hrecs
  | dead r reason hr hst hout hatt hlogs hrecs hrv hmax =>
      have hlog : ∀ d, (o'.logs d).queue = (o.logs d).queue ∧
          (o'.logs d).history = (o.logs d).history := by
        intro d
        rw [hlogs]
        by_cases hd : d = r.device
        · subst hd; rw [Function.update_self]; exact ⟨rfl, rfl⟩
        · rw [Function.update_of_ne hd]; exact ⟨rfl, rfl⟩
      refine .finish (i := id) ⟨⟨r.item, board_item hr, ?_, ?_⟩, ?_, ?_, ?_⟩
      · show r.status.phase = .busy
        rw [hst]; rfl
      · exact board_item (by rw [hrecs]; exact Function.update_self ..)
      · exact fun d => (hlog d).1
      · exact fun d => (hlog d).2
      · exact fun w hw => hitem _ w hw hrecs

/-- A head at a batch that is not released takes nothing. -/
theorem not_takes_of_atBatch {c : Chrono} {o : MemoryOutbox} {d : DeviceId} {now : Timestamp}
    {b : BatchId} {e : Batch} (hat : o.AtBatch d now b e) (hg : e.gate ≠ .opened)
    (hrel : e.gate = .waiting → ¬ o.Releasable c b e now) (m : DeviceId) :
    ¬ Takes c o (.claimNext d now) m := by
  intro h
  rcases h with ⟨_, halone⟩ | ⟨b', e', hat', hg', _, hrel'⟩
  · exact hg (halone.gate hat)
  · obtain ⟨rfl, rfl⟩ := hat.unique hat'
    exact hrel hg' hrel'

theorem move_of_claimed {c : Chrono} {o o' : MemoryOutbox} (hc : Conserved o) {d : DeviceId}
    {now : Timestamp} {res : Except DrainError (Option Claim)} (h : Claimed c o d now o' res) :
    ∃ taken, Lanes.Move o.board o'.board taken ∧ ∀ m, taken m ↔ Takes c o (.claimNext d now) m := by
  cases h with
  | idle _ hblocked _ hlogs hrecs =>
      refine ⟨fun _ => False, .stay (board_congr hlogs hrecs), ?_⟩
      intro m
      refine iff_of_false id ?_
      cases hblocked with
      | notDue hno =>
          intro h'
          rcases h' with ⟨_, r, hdue, _⟩ | ⟨_, _, ⟨r, hdue, _⟩, _⟩
          · exact hno r hdue
          · exact hno r hdue
      | vanished r b hdue hb hnone =>
          intro h'
          rcases h' with ⟨_, r', hdue', hopen⟩ | ⟨b', e, ⟨r', hdue', hb', he⟩, _⟩
          · obtain rfl := hdue.unique hdue'
            obtain ⟨e, he, _⟩ := hopen b hb
            rw [hnone] at he
            cases he
          · obtain rfl := hdue.unique hdue'
            obtain rfl := Option.some.inj (hb.symm.trans hb')
            rw [hnone] at he
            cases he
      | waiting r b e hdue hb he hg hne hel =>
          refine not_takes_of_atBatch ⟨r, hdue, hb, he⟩ (by rw [hg]; decide) ?_ m
          exact fun _ hrel => hrel.elim hne fun h => hel h.1
  | one r hdue hopen hheads =>
      refine ⟨(· ∈ [d]), .take (takes_of_claimsHeads hheads), ?_⟩
      intro m
      show m ∈ [d] ↔ _
      rw [List.mem_singleton]
      refine ⟨fun hm => .inl ⟨hm, r, hdue, hopen⟩, ?_⟩
      intro h'
      rcases h' with ⟨hm, _⟩ | ⟨b, e, hat, hg, _⟩
      · exact hm
      · rw [Alone.gate ⟨r, hdue, hopen⟩ hat] at hg
        cases hg
  | release r b e rs hdue hb he hg hwhy hheads =>
      have hat : o.AtBatch d now b e := ⟨r, hdue, hb, he⟩
      refine ⟨(· ∈ (o.arrived e b now).elems),
        .take (takes_of_claimsHeads (o := o.resolved b e now .opened) hheads), ?_⟩
      intro m
      refine ⟨fun hm => .inr ⟨b, e, hat, hg, hm, hwhy⟩, ?_⟩
      intro h'
      rcases h' with ⟨_, halone⟩ | ⟨b', e', hat', _, hm, _⟩
      · rw [halone.gate hat] at hg
        cases hg
      · obtain ⟨rfl, rfl⟩ := hat.unique hat'
        exact hm
  | late r b e hdue hb he hg hheads =>
      refine ⟨fun _ => False, .drop (drops_of_failsHeads hc hheads), ?_⟩
      refine fun m => iff_of_false id (not_takes_of_atBatch ⟨r, hdue, hb, he⟩ ?_ ?_ m)
      · rw [hg]; decide
      · rw [hg]; exact fun h => by cases h
  | expire r b e hdue hb he hg hne hel hpol hheads =>
      have hcr : Conserved (o.resolved b e now .abandoned) := ⟨hc.board, hc.named⟩
      have hdrop : Lanes.Move o.board o'.board (fun _ => False) :=
        .drop (b := (o.resolved b e now .abandoned).board) (drops_of_failsHeads hcr hheads)
      refine ⟨fun _ => False, hdrop, ?_⟩
      refine fun m => iff_of_false id (not_takes_of_atBatch ⟨r, hdue, hb, he⟩ ?_ ?_ m)
      · rw [hg]; decide
      · intro _ h'
        rcases h' with hall | ⟨_, hpol'⟩
        · exact hne hall
        · rw [hpol] at hpol'
          cases hpol'

/-- **Every call is one move of the board**, and it takes exactly the heads `Takes` names. -/
theorem step_move (c : Chrono) {o : MemoryOutbox} (hc : Conserved o) {op : Op}
    (hfresh : Fresh o op) :
    ∃ taken, Lanes.Move o.board (step c o op).board taken ∧ ∀ m, taken m ↔ Takes c o op m := by
  have hspec := step_spec c hc hfresh
  generalize step c o op = o' at hspec ⊢
  cases hspec with
  | submitted s _ h =>
      refine ⟨fun _ => False, ?_, fun _ => Iff.rfl⟩
      cases h with
      | refused e heq => rw [heq]; exact .stay rfl
      | replayed acceptance heq _ => rw [heq]; exact .stay rfl
      | appended rows _ _ happ => exact .enqueue (enqueues_of_appends hfresh happ)
  | claimed d now _ h => exact move_of_claimed hc h
  | settled id outcome now _ h => exact ⟨fun _ => False, move_of_settled h, fun _ => Iff.rfl⟩
  | observed d state h =>
      refine ⟨fun _ => False, .stay ?_, fun _ => Iff.rfl⟩
      have hlog : ∀ d', ((o.observe d state).logs d').queue = (o.logs d').queue ∧
          ((o.observe d state).logs d').history = (o.logs d').history := by
        intro d'
        by_cases hd : d' = d
        · subst hd; simp [observe, setLog]
        · simp [observe, setLog, Function.update_of_ne hd]
      rw [h]
      simp only [board, hlog]
      rfl
  | canceledQueue d reason h =>
      exact ⟨fun _ => False, .drop (drops_of_cancels h), fun _ => Iff.rfl⟩
  | canceledBatch b reason h =>
      exact ⟨fun _ => False, .drop (drops_of_cancels h), fun _ => Iff.rfl⟩

/-! ## How a record evolves -/

/-- What one call may make of a record: nothing, a claim, a settlement, or giving it up unsent. -/
inductive Evolves (r : WriteRecord) : WriteRecord → Prop
  | same : Evolves r r
  | claimed (now : Timestamp) : r.status = .pending → Evolves r (r.claimed now)
  | settled (status : WriteStatus) (notBefore updatedAt : Timestamp) : r.status = .inFlight →
      status ≠ .inFlight → Evolves r { r with
        status := status, notBefore := notBefore, updatedAt := updatedAt }
  | dropped (status : WriteStatus) (updatedAt : Timestamp) : r.status = .pending →
      status.terminal → (∀ value, status ≠ .succeeded value) →
      Evolves r { r with status := status, updatedAt := updatedAt }

/-- The fields no call rewrites. -/
structure SameWrite (r r' : WriteRecord) : Prop where
  id : r'.id = r.id
  device : r'.device = r.device
  intent : r'.intent = r.intent
  batch : r'.batch = r.batch
  epoch : r'.epoch = r.epoch

theorem SameWrite.refl (r : WriteRecord) : SameWrite r r := ⟨rfl, rfl, rfl, rfl, rfl⟩

theorem SameWrite.trans {r₁ r₂ r₃ : WriteRecord} (h : SameWrite r₁ r₂) (h' : SameWrite r₂ r₃) :
    SameWrite r₁ r₃ :=
  ⟨h'.id.trans h.id, h'.device.trans h.device, h'.intent.trans h.intent, h'.batch.trans h.batch,
    h'.epoch.trans h.epoch⟩

theorem Evolves.sameWrite {r r' : WriteRecord} (h : Evolves r r') : SameWrite r r' := by
  cases h <;> exact ⟨rfl, rfl, rfl, rfl, rfl⟩

theorem Evolves.terminal {r r' : WriteRecord} (h : Evolves r r') (ht : r.status.terminal) :
    r' = r := by
  cases h with
  | same => rfl
  | claimed now hst => rw [hst] at ht; cases ht
  | settled status notBefore updatedAt hst hne => rw [hst] at ht; cases ht
  | dropped status updatedAt hst hterm _ => rw [hst] at ht; cases ht

theorem evolves_expired {now : Timestamp} (r : WriteRecord) (hst : r.status = .pending) :
    Evolves r (r.expired now) :=
  .dropped (.failed "the group barrier expired before every member was ready") now hst rfl
    fun _ h => by cases h

/-- A record evolves at every call that finds it, and one in flight only at its own settlement. -/
theorem record_moves (c : Chrono) {o : MemoryOutbox} (hc : Conserved o) {op : Op}
    (hfresh : Fresh o op) {w : WriteId} {r : WriteRecord} (hr : o.records w = some r) :
    ∃ r', (step c o op).records w = some r' ∧ Evolves r r' ∧
      (r.status = .inFlight → r' = r ∨ ∃ outcome now, op = .settle w outcome now) := by
  have hspec := step_spec c hc hfresh
  generalize step c o op = o' at hspec ⊢
  have hsame : o'.records w = o.records w → ∃ r', o'.records w = some r' ∧ Evolves r r' ∧
      (r.status = .inFlight → r' = r ∨ ∃ outcome now, op = .settle w outcome now) :=
    fun h => ⟨r, h.trans hr, .same, fun _ => .inl rfl⟩
  -- what a call does to a waiting record, it does not do to one in flight
  have hwaiting : ∀ {r'}, o'.records w = some r' → r.status = .pending → Evolves r r' →
      ∃ r', o'.records w = some r' ∧ Evolves r r' ∧
        (r.status = .inFlight → r' = r ∨ ∃ outcome now, op = .settle w outcome now) := by
    intro r' hr' hst hev
    refine ⟨r', hr', hev, ?_⟩
    intro hflight
    rw [hst] at hflight
    cases hflight
  have hheads : ∀ {f g ms} {o₁ : MemoryOutbox}, Heads f g ms o₁ o' → o₁.records = o.records →
      (∀ r, r.status = .pending → Evolves r (g r)) → ∃ r', o'.records w = some r' ∧ Evolves r r' ∧
        (r.status = .inFlight → r' = r ∨ ∃ outcome now, op = .settle w outcome now) := by
    intro f g ms o₁ h hrecs hg
    rcases h.cases w with ⟨m, _, q, r₁, hat, hrec⟩ | ⟨_, hrec⟩
    · have hr₁ := hat.2.1
      rw [hrecs, hr] at hr₁
      obtain rfl := Option.some.inj hr₁
      exact hwaiting hrec hat.2.2.2 (hg r hat.2.2.2)
    · exact hsame (by rw [hrec, hrecs])
  have hcancel : ∀ {p gone}, Cancels p gone o o' → ∃ r', o'.records w = some r' ∧ Evolves r r' ∧
      (r.status = .inFlight → r' = r ∨ ∃ outcome now, op = .settle w outcome now) := by
    intro p gone h
    rcases h.record hr with hkept | ⟨hst, _, reason, hcan⟩
    · exact hsame (hkept.trans hr.symm)
    · exact hwaiting hcan hst (.dropped (.canceled reason) r.updatedAt hst rfl fun _ h => by cases h)
  cases hspec with
  | submitted s _ h =>
      cases h with
      | refused e heq => exact hsame (by rw [heq])
      | replayed acceptance heq _ => exact hsame (by rw [heq])
      | appended rows _ _ happ =>
          refine hsame (happ.old w ?_)
          intro hw
          rw [hfresh.2.1 w hw] at hr
          cases hr
  | claimed d now _ h =>
      cases h with
      | idle _ _ _ _ hrecs => exact hsame (by rw [hrecs])
      | one _ _ _ h => exact hheads h rfl fun r => .claimed now
      | release _ _ _ _ _ _ _ _ _ h => exact hheads h rfl fun r => .claimed now
      | late _ _ _ _ _ _ _ h => exact hheads h rfl evolves_expired
      | expire _ _ _ _ _ _ _ _ _ _ h => exact hheads h rfl evolves_expired
  | settled id outcome now _ h =>
      have hother : ∀ r₁ r₁', o.records id = some r₁ → Evolves r₁ r₁' →
          o'.records = Function.update o.records id (some r₁') →
          ∃ r', o'.records w = some r' ∧ Evolves r r' ∧ (r.status = .inFlight →
            r' = r ∨ ∃ outcome' now', Op.settle id outcome now = .settle w outcome' now') := by
        intro r₁ r₁' hr₁ hev hrecs
        by_cases hw : w = id
        · subst hw
          obtain rfl := Option.some.inj (hr.symm.trans hr₁)
          exact ⟨r₁', by rw [hrecs]; exact Function.update_self .., hev,
            fun _ => .inr ⟨outcome, now, rfl⟩⟩
        · exact hsame (by rw [hrecs, Function.update_of_ne hw])
      cases h with
      | refused what heq _ => exact hsame (by rw [heq])
      | succeeded r₁ value hr₁ hst _ heq =>
          exact hother r₁ _ hr₁ (.settled (.succeeded value) r₁.notBefore now hst (by simp))
            (by rw [heq]; rfl)
      | retried r₁ reason notBefore updatedAt _ hr₁ hst _ _ _ hrecs =>
          exact hother r₁ _ hr₁ (.settled .pending notBefore updatedAt hst (by simp)) hrecs
      | dead r₁ reason hr₁ hst _ _ _ hrecs =>
          exact hother r₁ _ hr₁ (.settled (.failed reason) r₁.notBefore now hst (by simp)) hrecs
  | observed d state heq => exact hsame (by rw [heq]; rfl)
  | canceledQueue d reason h => exact hcancel h
  | canceledBatch b reason h => exact hcancel h

/-- **A record evolves** at every call that finds it. -/
theorem record_step (c : Chrono) {o : MemoryOutbox} (hc : Conserved o) {op : Op}
    (hfresh : Fresh o op) {w : WriteId} {r : WriteRecord} (hr : o.records w = some r) :
    ∃ r', (step c o op).records w = some r' ∧ Evolves r r' := by
  obtain ⟨r', hr', hev, _⟩ := record_moves c hc hfresh hr
  exact ⟨r', hr', hev⟩

/-- A write in flight stays in flight until it is settled. -/
theorem flight_kept (c : Chrono) {o : MemoryOutbox} (hc : Conserved o) {op : Op}
    (hfresh : Fresh o op) {w : WriteId} {r : WriteRecord} (hr : o.records w = some r)
    (hst : r.status = .inFlight) :
    (step c o op).records w = some r ∨ ∃ outcome now, op = .settle w outcome now := by
  obtain ⟨r', hr', _, hmoved⟩ := record_moves c hc hfresh hr
  rcases hmoved hst with rfl | hsettled
  · exact .inl hr'
  · exact .inr hsettled

/-- A record no call found was filed by this one, which is then a submission. -/
theorem record_new (c : Chrono) {o : MemoryOutbox} (hc : Conserved o) {op : Op}
    (hfresh : Fresh o op) {w : WriteId} {r' : WriteRecord} (hr : o.records w = none)
    (hr' : (step c o op).records w = some r') :
    ∃ s rows row, op = .submit s ∧ Appends s rows o (step c o op) ∧ row ∈ rows ∧ row.id = w ∧
      r' = row.record s := by
  have hspec := step_spec c hc hfresh
  generalize step c o op = o' at hspec hr' ⊢
  have hsame : o'.records w ≠ o.records w := by
    intro h
    rw [h, hr] at hr'
    cases hr'
  have hheads : ∀ {f g ms} {o₁ : MemoryOutbox}, Heads f g ms o₁ o' → ¬ o₁.records = o.records := by
    intro f g ms o₁ h hrecs
    rcases h.cases w with ⟨m, _, q, r₁, hat, _⟩ | ⟨_, hrec⟩
    · have hsome := hat.2.1
      rw [hrecs, hr] at hsome
      cases hsome
    · exact hsame (by rw [hrec, hrecs])
  cases hspec with
  | submitted s _ h =>
      cases h with
      | refused e heq => exact absurd (by rw [heq]) hsame
      | replayed acceptance heq _ => exact absurd (by rw [heq]) hsame
      | appended rows _ _ happ =>
          by_cases hw : w ∈ s.ids
          · rw [← happ.ids] at hw
            obtain ⟨row, hrow, rfl⟩ := List.mem_map.mp hw
            rw [happ.new row hrow] at hr'
            exact ⟨s, rows, row, rfl, happ, hrow, rfl, (Option.some.inj hr').symm⟩
          · exact absurd (happ.old w hw) hsame
  | claimed d now _ h =>
      cases h with
      | idle _ _ _ _ hrecs => exact absurd (by rw [hrecs]) hsame
      | one _ _ _ h => exact (hheads h rfl).elim
      | release _ _ _ _ _ _ _ _ _ h => exact (hheads h rfl).elim
      | late _ _ _ _ _ _ _ h => exact (hheads h rfl).elim
      | expire _ _ _ _ _ _ _ _ _ _ h => exact (hheads h rfl).elim
  | settled id outcome now _ h =>
      have hother : ∀ r₁ r₁', o.records id = some r₁ →
          o'.records ≠ Function.update o.records id (some r₁') := by
        intro r₁ r₁' hr₁ hrecs
        refine hsame ?_
        rw [hrecs, Function.update_of_ne]
        intro hw
        rw [hw, hr₁] at hr
        cases hr
      cases h with
      | refused what heq _ => exact absurd (by rw [heq]) hsame
      | succeeded r₁ value hr₁ _ _ heq => exact absurd (by rw [heq]; rfl) (hother r₁ _ hr₁)
      | retried r₁ reason notBefore updatedAt _ hr₁ _ _ _ _ hrecs =>
          exact absurd hrecs (hother r₁ _ hr₁)
      | dead r₁ reason hr₁ _ _ _ _ hrecs => exact absurd hrecs (hother r₁ _ hr₁)
  | observed d state heq => exact absurd (by rw [heq]; rfl) hsame
  | canceledQueue d reason h => exact absurd (h.records w (by simp [hr])) hsame
  | canceledBatch b reason h => exact absurd (h.records w (by simp [hr])) hsame

/-- A history only grows, by ids that had no record. -/
theorem history_grows (c : Chrono) {o : MemoryOutbox} (hc : Conserved o) {op : Op}
    (hfresh : Fresh o op) (d : DeviceId) :
    ∃ new, ((step c o op).logs d).history = (o.logs d).history ++ new ∧
      ∀ w ∈ new, o.records w = none := by
  obtain ⟨taken, hmove, _⟩ := step_move c hc hfresh
  show ∃ new, (step c o op).board.history d = o.board.history d ++ new ∧ _
  have hsame : (step c o op).board.history d = o.board.history d →
      ∃ new, (step c o op).board.history d = o.board.history d ++ new ∧
        ∀ w ∈ new, o.records w = none :=
    fun heq => ⟨[], by rw [heq, List.append_nil], fun w hw => absurd hw List.not_mem_nil⟩
  cases hmove with
  | stay heq => exact hsame (by rw [heq])
  | @enqueue xs hm =>
      refine ⟨_, hm.history d, ?_⟩
      intro w hw
      have hnone := hm.fresh _ (Lanes.mem_onLane.mp hw)
      simpa [board] using hnone
  | take hm => exact hsame (hm.history d)
  | drop hm => exact hsame (hm.history d)
  | finish hm => exact hsame (hm.history d)
  | requeue hm => exact hsame (hm.history d)

/-- What a call that is no submission leaves of `d`'s log; only a report of `d` moves its epoch. -/
structure LogKept (op : Op) (d : DeviceId) (log log' : DeviceLog) : Prop where
  history : log'.history = log.history
  keys : log'.keys = log.keys
  epoch : (∀ state, op ≠ .observe d state) → log'.epoch = log.epoch

theorem log_step (c : Chrono) {o : MemoryOutbox} (hc : Conserved o) {op : Op}
    (hfresh : Fresh o op) (hop : ∀ s, op ≠ .submit s) (d : DeviceId) :
    LogKept op d (o.logs d) ((step c o op).logs d) := by
  have hspec := step_spec c hc hfresh
  generalize step c o op = o' at hspec ⊢
  have hsame : o'.logs d = o.logs d → LogKept op d (o.logs d) (o'.logs d) := by
    intro h
    rw [h]
    exact ⟨rfl, rfl, fun _ => rfl⟩
  have hheads : ∀ {f g} {ms : List DeviceId} {o₁ : MemoryOutbox}, Heads f g ms o₁ o' →
      o₁.logs = o.logs → (∀ log r, LogKept op d log (f log r)) →
      LogKept op d (o.logs d) (o'.logs d) := by
    intro f g ms o₁ h hlogs hf
    by_cases hd : d ∈ ms
    · obtain ⟨id, q, r, _, hlog, _⟩ := h.head d hd
      have hkept := hf { o₁.logs d with queue := q } r
      rw [hlog, ← hlogs]
      exact ⟨hkept.history, hkept.keys, hkept.epoch⟩
    · exact hsame (by rw [h.logs d hd, hlogs])
  have hclaims : ∀ log (r : WriteRecord), LogKept op d log ((fun log _ => log) log r) :=
    fun _ _ => ⟨rfl, rfl, fun _ => rfl⟩
  have hfails : ∀ log r, LogKept op d log (DeviceLog.rolledBack log r) :=
    fun _ _ => ⟨rfl, rfl, fun _ => rfl⟩
  have hcancel : ∀ {p gone}, Cancels p gone o o' → LogKept op d (o.logs d) (o'.logs d) := by
    intro p gone h
    rw [h.logs d]
    exact ⟨rfl, rfl, fun _ => rfl⟩
  have hupdate : ∀ {d' log}, o'.logs = Function.update o.logs d' log →
      (d = d' → LogKept op d (o.logs d) log) → LogKept op d (o.logs d) (o'.logs d) := by
    intro d' log hlogs hkept
    by_cases hd : d = d'
    · rw [hlogs, ← hd, Function.update_self]
      exact hkept hd
    · exact hsame (by rw [hlogs, Function.update_of_ne hd])
  cases hspec with
  | submitted s _ _ => exact absurd rfl (hop s)
  | claimed d' now _ h =>
      cases h with
      | idle _ _ _ hlogs => exact hsame (by rw [hlogs])
      | one _ _ _ h => exact hheads h rfl hclaims
      | release _ _ _ _ _ _ _ _ _ h => exact hheads h rfl hclaims
      | late _ _ _ _ _ _ _ h => exact hheads h rfl hfails
      | expire _ _ _ _ _ _ _ _ _ _ h => exact hheads h rfl hfails
  | settled id outcome now _ h =>
      cases h with
      | refused what heq _ => exact hsame (by rw [heq])
      | succeeded r value _ _ _ heq => exact hsame (by rw [heq]; rfl)
      | retried _ _ _ _ _ _ _ _ _ hlogs =>
          exact hupdate hlogs fun hd => hd ▸ ⟨rfl, rfl, fun _ => rfl⟩
      | dead _ _ _ _ _ _ hlogs => exact hupdate hlogs fun hd => hd ▸ ⟨rfl, rfl, fun _ => rfl⟩
  | observed d' state heq =>
      have hlogs : o'.logs = Function.update o.logs d' _ := congrArg MemoryOutbox.logs heq
      exact hupdate hlogs fun hd => hd ▸ ⟨rfl, rfl, fun hno => absurd rfl (hno state)⟩
  | canceledQueue d' reason h => exact hcancel h
  | canceledBatch b reason h => exact hcancel h

/-! ## Every run conserves -/

/-- An empty outbox conserves what it has not got. -/
theorem conserved_init (n : Nat) (backoff : Duration) :
    Conserved (withMaxAttempts n backoff) where
  board := {
    queue_iff := fun d w => by simp [board, withMaxAttempts, DeviceLog.default, Lanes.Board.At]
    history_iff := fun d w => by simp [board, withMaxAttempts, DeviceLog.default, Lanes.Board.In]
    queue_nodup := fun d => List.nodup_nil
    history_nodup := fun d => List.nodup_nil
    busy_tried := fun w it h => by simp [board, withMaxAttempts] at h }
  named := fun w r h => by simp [withMaxAttempts] at h

theorem conserved_step (c : Chrono) {o : MemoryOutbox} (hc : Conserved o) {op : Op}
    (hfresh : Fresh o op) : Conserved (step c o op) := by
  obtain ⟨taken, hmove, _⟩ := step_move c hc hfresh
  refine ⟨Lanes.wf_move hc.board hmove, ?_⟩
  intro w r' hr'
  cases hr : o.records w with
  | none =>
      obtain ⟨s, rows, row, _, _, _, rfl, rfl⟩ := record_new c hc hfresh hr hr'
      rfl
  | some r =>
      obtain ⟨r₁, hr₁, hev⟩ := record_step c hc hfresh hr
      obtain rfl := Option.some.inj (hr'.symm.trans hr₁)
      rw [hev.sameWrite.id]
      exact hc.named w r hr

/-- Only a submission enters anything. -/
theorem history_step (c : Chrono) {o : MemoryOutbox} (hc : Conserved o) {op : Op}
    (hfresh : Fresh o op) (hop : ∀ s, op ≠ .submit s) (d : DeviceId) :
    ((step c o op).logs d).history = (o.logs d).history := (log_step c hc hfresh hop d).history

/-- Conservation is kept over a run, whatever the calls and their order. -/
theorem conserved_exec (c : Chrono) {o : MemoryOutbox} (hc : Conserved o) {ops : List Op}
    (hrun : Machine.Along (step c) Fresh o ops) : Conserved (Machine.exec (step c) o ops) := by
  have hstep : ∀ o op, Conserved o → Fresh o op → Conserved (step c o op) :=
    fun _ _ hc hf => conserved_step c hc hf
  exact Machine.exec_invariant hstep hrun hc

/-- **Conservation over a run** from an empty outbox. -/
theorem conserved_run (c : Chrono) (n : Nat) (backoff : Duration) {ops : List Op}
    (hrun : Machine.Along (step c) Fresh (withMaxAttempts n backoff) ops) :
    Conserved (Machine.exec (step c) (withMaxAttempts n backoff) ops) :=
  conserved_exec c (conserved_init n backoff) hrun

end Sismatic
