import Sismatic.Proof.Heads
import Sismatic.Lib.Lanes

/-!
# What the other calls do

`submit`, `settle` and the two cancellations, each in one statement that names
every field it changes and every guard it passed. With `Claimed` for `claim_next`
these are all the ways the outbox changes, and the invariants below are derived
from them alone.
-/

namespace Sismatic

open MemoryOutbox

/-! ## Submitting -/

/-- The lane a row enters and the id it enters under. -/
def MemoryOutbox.Row.entry (row : Row) : DeviceId × WriteId := (row.device, row.id)

/-- Submission `s` was admitted whole: `rows`, one for each target in order, were appended. -/
structure Appends (s : Submission) (rows : List Row) (o o' : MemoryOutbox) : Prop where
  ids : rows.map Row.id = s.ids
  targets : rows.map Row.device = s.targets
  /-- Every row was admitted against the state before the call. -/
  admitted : ∀ row ∈ rows, row.before = (o.logs row.device).desiredRecordingState ∧
    admitVerb row.before (Verb.of s.intent) = .ok row.after ∧
    row.epoch = epochOf row.before row.after (o.logs row.device).epoch
  new : ∀ row ∈ rows, o'.records row.id = some (row.record s)
  old : ∀ w, w ∉ s.ids → o'.records w = o.records w
  queue : ∀ d, (o'.logs d).queue = (o.logs d).queue ++ Lanes.onLane (rows.map Row.entry) d
  history : ∀ d, (o'.logs d).history = (o.logs d).history ++ Lanes.onLane (rows.map Row.entry) d
  desired : ∀ row ∈ rows, (o'.logs row.device).desiredRecordingState = row.after
  /-- A device no row is for keeps its log. -/
  untouched : ∀ d, d ∉ s.targets → o'.logs d = o.logs d
  key : ∀ d ∈ s.targets, ∀ k, s.idempotencyKey = some k →
    ∃ row ∈ rows, row.device = d ∧ (o'.logs d).keys k = some row.id
  otherKey : ∀ d k, s.idempotencyKey ≠ some k → (o'.logs d).keys k = (o.logs d).keys k
  batches : ∀ b, o'.batches b = if s.batch = some b then some (armedBatch s) else o.batches b
  maxAttempts : o'.maxAttempts = o.maxAttempts

theorem Appends.mem_ids {s : Submission} {rows : List Row} {o o' : MemoryOutbox}
    (happ : Appends s rows o o') {row : Row} (hrow : row ∈ rows) : row.id ∈ s.ids :=
  happ.ids ▸ List.mem_map_of_mem hrow

theorem mem_onLane_entry {rows : List Row} {d : DeviceId} {w : WriteId} :
    w ∈ Lanes.onLane (rows.map Row.entry) d ↔ ∃ row ∈ rows, row.id = w ∧ row.device = d := by
  rw [Lanes.mem_onLane, List.mem_map]
  simp [Row.entry, and_comm]

/-- A lane is given as many items as it has rows. -/
theorem onLane_length (rows : List Row) (d : DeviceId) :
    (Lanes.onLane (rows.map Row.entry) d).length = (rows.map Row.device).count d := by
  unfold Lanes.onLane
  rw [List.length_map, ← List.countP_eq_length_filter, List.countP_map, List.count,
    List.countP_map]
  rfl

theorem admitAll_spec {o : MemoryOutbox} {verb : Verb} {pairs : List (WriteId × DeviceId)}
    {rows : List Row} (h : o.admitAll verb pairs = .ok rows) :
    rows.map (fun row => (row.id, row.device)) = pairs ∧
    ∀ row ∈ rows, row.before = (o.logs row.device).desiredRecordingState ∧
      admitVerb row.before verb = .ok row.after ∧
      row.epoch = epochOf row.before row.after (o.logs row.device).epoch := by
  induction pairs generalizing rows with
  | nil =>
      simp only [admitAll, Except.ok.injEq] at h
      subst h
      simp
  | cons pair pairs ih =>
      obtain ⟨id, device⟩ := pair
      simp only [admitAll] at h
      cases haccept : admitVerb (o.logs device).desiredRecordingState verb with
      | error rejection => rw [haccept] at h; cases h
      | ok after =>
          rw [haccept] at h
          cases hrest : o.admitAll verb pairs with
          | error e => rw [hrest] at h; cases h
          | ok rest =>
              rw [hrest] at h
              simp only [Except.ok.injEq] at h
              subst h
              obtain ⟨hmap, hall⟩ := ih hrest
              refine ⟨by rw [List.map_cons, hmap], ?_⟩
              intro row hrow
              rcases List.mem_cons.mp hrow with rfl | hrow
              · exact ⟨rfl, haccept, rfl⟩
              · exact hall row hrow

/-- The rows are the targets', in order and under the ids given. -/
theorem admitAll_rows {o : MemoryOutbox} {verb : Verb} {ids : List WriteId}
    {targets : List DeviceId} {rows : List Row} (hlen : ids.length = targets.length)
    (h : o.admitAll verb (ids.zip targets) = .ok rows) :
    rows.map Row.id = ids ∧ rows.map Row.device = targets := by
  obtain ⟨hmap, _⟩ := admitAll_spec h
  refine ⟨?_, ?_⟩
  · have hfst := congrArg (List.map Prod.fst) hmap
    rw [List.map_map, List.map_fst_zip (by omega)] at hfst
    exact hfst
  · have hsnd := congrArg (List.map Prod.snd) hmap
    rw [List.map_map, List.map_snd_zip (by omega)] at hsnd
    exact hsnd

section AppendRows

variable (s : Submission) (rows : List Row) (o : MemoryOutbox)

theorem foldl_appendRow_records_old {w : WriteId} (hw : w ∉ rows.map Row.id) :
    (rows.foldl (appendRow s) o).records w = o.records w := by
  induction rows generalizing o with
  | nil => rfl
  | cons row rows ih =>
      rw [List.map_cons, List.mem_cons, not_or] at hw
      rw [List.foldl_cons, ih _ hw.2]
      exact Function.update_of_ne hw.1 ..

theorem foldl_appendRow_records_new (hnd : (rows.map Row.id).Nodup) :
    ∀ row ∈ rows, (rows.foldl (appendRow s) o).records row.id = some (row.record s) := by
  induction rows generalizing o with
  | nil => simp
  | cons row rows ih =>
      rw [List.map_cons, List.nodup_cons] at hnd
      intro row' hrow'
      rw [List.foldl_cons]
      rcases List.mem_cons.mp hrow' with rfl | hrow'
      · rw [foldl_appendRow_records_old s rows _ hnd.1]
        exact Function.update_self ..
      · exact ih _ hnd.2 row' hrow'

theorem appendRow_logs_of_ne (row : Row) {d : DeviceId} (hd : d ≠ row.device) :
    (appendRow s o row).logs d = o.logs d := Function.update_of_ne hd ..

theorem appendRow_logs_self (row : Row) :
    (appendRow s o row).logs row.device
      = DeviceLog.push (o.logs row.device) s.idempotencyKey row := Function.update_self ..

theorem foldl_appendRow_untouched {d : DeviceId} (hd : d ∉ rows.map Row.device) :
    (rows.foldl (appendRow s) o).logs d = o.logs d := by
  induction rows generalizing o with
  | nil => rfl
  | cons row rows ih =>
      rw [List.map_cons, List.mem_cons, not_or] at hd
      rw [List.foldl_cons, ih _ hd.2, appendRow_logs_of_ne s o row hd.1]

theorem foldl_appendRow_queue (d : DeviceId) :
    ((rows.foldl (appendRow s) o).logs d).queue
        = (o.logs d).queue ++ Lanes.onLane (rows.map Row.entry) d ∧
      ((rows.foldl (appendRow s) o).logs d).history
        = (o.logs d).history ++ Lanes.onLane (rows.map Row.entry) d := by
  induction rows generalizing o with
  | nil => simp [Lanes.onLane]
  | cons row rows ih =>
      obtain ⟨hq, hh⟩ := ih (appendRow s o row)
      rw [List.foldl_cons, hq, hh]
      by_cases hd : d = row.device
      · subst hd
        rw [appendRow_logs_self]
        simp [Lanes.onLane, Row.entry, DeviceLog.push]
      · rw [appendRow_logs_of_ne s o row hd]
        have hd' : ¬ row.device = d := fun h => hd h.symm
        simp [Lanes.onLane, Row.entry, hd']

/-- The last row appended for a device decides its desired state and what its key names. -/
theorem foldl_appendRow_last {d : DeviceId} (hd : d ∈ rows.map Row.device) :
    ∃ row ∈ rows, row.device = d ∧
      ((rows.foldl (appendRow s) o).logs d).desiredRecordingState = row.after ∧
      ∀ k, s.idempotencyKey = some k →
        ((rows.foldl (appendRow s) o).logs d).keys k = some row.id := by
  induction rows generalizing o with
  | nil => simp at hd
  | cons row rows ih =>
      rw [List.foldl_cons]
      by_cases hrest : d ∈ rows.map Row.device
      · obtain ⟨row', hrow', h⟩ := ih (appendRow s o row) hrest
        exact ⟨row', List.mem_cons_of_mem _ hrow', h⟩
      · have hrow : d = row.device := by
          rw [List.map_cons, List.mem_cons] at hd
          exact hd.resolve_right hrest
        subst hrow
        refine ⟨row, List.mem_cons_self .., rfl, ?_⟩
        rw [foldl_appendRow_untouched s rows _ hrest, appendRow_logs_self]
        refine ⟨rfl, ?_⟩
        intro k hk
        simp [DeviceLog.push, hk]

theorem foldl_appendRow_otherKey (d : DeviceId) {k : String} (hk : s.idempotencyKey ≠ some k) :
    ((rows.foldl (appendRow s) o).logs d).keys k = (o.logs d).keys k := by
  induction rows generalizing o with
  | nil => rfl
  | cons row rows ih =>
      rw [List.foldl_cons, ih]
      by_cases hd : d = row.device
      · subst hd
        rw [appendRow_logs_self]
        cases hs : s.idempotencyKey with
        | none => simp [DeviceLog.push]
        | some k' =>
            have hne : k ≠ k' := fun h => hk (by rw [hs, h])
            simp [DeviceLog.push, Function.update_of_ne hne]
      · rw [appendRow_logs_of_ne s o row hd]

theorem foldl_appendRow_frame :
    (rows.foldl (appendRow s) o).batches = o.batches ∧
      (rows.foldl (appendRow s) o).maxAttempts = o.maxAttempts := by
  induction rows generalizing o with
  | nil => exact ⟨rfl, rfl⟩
  | cons row rows ih => rw [List.foldl_cons]; exact ih (appendRow s o row)

end AppendRows

theorem expectGroup_frame (s : Submission) (o : MemoryOutbox) :
    (expectGroup s o).logs = o.logs ∧ (expectGroup s o).records = o.records ∧
      (expectGroup s o).batches = o.batches ∧ (expectGroup s o).maxAttempts = o.maxAttempts := by
  unfold expectGroup
  cases s.group with
  | none => exact ⟨rfl, rfl, rfl, rfl⟩
  | some group => exact ⟨rfl, rfl, rfl, rfl⟩

theorem armBatch_frame (s : Submission) (o : MemoryOutbox) :
    (armBatch s o).logs = o.logs ∧ (armBatch s o).records = o.records ∧
      (armBatch s o).maxAttempts = o.maxAttempts := by
  unfold armBatch
  cases s.batch with
  | none => exact ⟨rfl, rfl, rfl⟩
  | some batch => exact ⟨rfl, rfl, rfl⟩

theorem armBatch_batches (s : Submission) (o : MemoryOutbox) (b : BatchId) :
    (armBatch s o).batches b = if s.batch = some b then some (armedBatch s) else o.batches b := by
  unfold armBatch
  cases hs : s.batch with
  | none => simp
  | some batch =>
      by_cases hb : b = batch
      · subst hb
        simp [setBatch]
      · have hb' : ¬ batch = b := fun h => hb h.symm
        simp [setBatch, Function.update_of_ne hb, hb']

theorem appends_of_admitAll {s : Submission} {o : MemoryOutbox} {rows : List Row}
    (hlen : s.ids.length = s.targets.length) (hnd : s.ids.Nodup)
    (h : o.admitAll (Verb.of s.intent) (s.ids.zip s.targets) = .ok rows) :
    Appends s rows o (armBatch s (expectGroup s (rows.foldl (appendRow s) o))) := by
  obtain ⟨_, haccept⟩ := admitAll_spec h
  obtain ⟨hids, htargets⟩ := admitAll_rows hlen h
  obtain ⟨hlogs, hrecs, hmax⟩ := armBatch_frame s (expectGroup s (rows.foldl (appendRow s) o))
  obtain ⟨hlogs', hrecs', hbat', hmax'⟩ := expectGroup_frame s (rows.foldl (appendRow s) o)
  obtain ⟨hbat'', hmax''⟩ := foldl_appendRow_frame s rows o
  -- two rows of one device were decided against the same state, so they agree on the next
  have hagree : ∀ row ∈ rows, ∀ row' ∈ rows, row'.device = row.device → row'.after = row.after := by
    intro row hrow row' hrow' hdev
    obtain ⟨hb, ha, _⟩ := haccept row hrow
    obtain ⟨hb', ha', _⟩ := haccept row' hrow'
    rw [hb] at ha
    rw [hb', hdev, ha] at ha'
    exact (Except.ok.inj ha').symm
  refine ⟨hids, htargets, haccept, ?_, ?_, ?_, ?_, ?_, ?_, ?_, ?_, ?_, ?_⟩
  · rw [hrecs, hrecs']
    exact foldl_appendRow_records_new s rows o (hids ▸ hnd)
  · intro w hw
    rw [hrecs, hrecs']
    exact foldl_appendRow_records_old s rows o (hids ▸ hw)
  · intro d
    rw [hlogs, hlogs']
    exact (foldl_appendRow_queue s rows o d).1
  · intro d
    rw [hlogs, hlogs']
    exact (foldl_appendRow_queue s rows o d).2
  · intro row hrow
    rw [hlogs, hlogs']
    obtain ⟨row', hrow', hdev, hafter, _⟩ :=
      foldl_appendRow_last s rows o (List.mem_map_of_mem (f := Row.device) hrow)
    rw [hafter]
    exact hagree row hrow row' hrow' hdev
  · intro d hd
    rw [hlogs, hlogs']
    exact foldl_appendRow_untouched s rows o (htargets ▸ hd)
  · intro d hd k hk
    rw [hlogs, hlogs']
    obtain ⟨row, hrow, hdev, _, hkey⟩ := foldl_appendRow_last s rows o (htargets ▸ hd)
    exact ⟨row, hrow, hdev, hkey k hk⟩
  · intro d k hk
    rw [hlogs, hlogs']
    exact foldl_appendRow_otherKey s rows o d hk
  · intro b
    rw [armBatch_batches, hbat', hbat'']
  · rw [hmax, hmax', hmax'']

/-- What one `submit` did. -/
inductive Submitted (o : MemoryOutbox) (s : Submission) (o' : MemoryOutbox) :
    Except SubmitError Acceptance → Prop
  | refused (e : SubmitError) : o' = o → Submitted o s o' (.error e)
  /-- The key was known; nothing was written. -/
  | replayed (acceptance : Acceptance) : o' = o → o.replayed s = some acceptance →
      Submitted o s o' (.ok acceptance)
  | appended (rows : List Row) : s.targets ≠ [] → o.replayed s = none → Appends s rows o o' →
      Submitted o s o' (.ok ⟨s.batch, rows.map Row.accepted⟩)

/-- **What `submit` does**, with ids minted apart. -/
theorem submit_spec (o : MemoryOutbox) {s : Submission} (hnd : s.ids.Nodup) :
    Submitted o s (o.submit s).1 (o.submit s).2 := by
  unfold MemoryOutbox.submit
  by_cases ht : s.targets = []
  · rw [if_pos ht]
    exact .refused _ rfl
  · rw [if_neg ht]
    by_cases hlen : s.ids.length ≠ s.targets.length
    · rw [if_pos hlen]
      exact .refused _ rfl
    · rw [if_neg hlen]
      cases hrep : o.replayed s with
      | some acceptance => exact .replayed acceptance rfl hrep
      | none =>
          cases hadm : o.admitAll (Verb.of s.intent) (s.ids.zip s.targets) with
          | error e => exact .refused e rfl
          | ok rows => exact .appended rows ht hrep (appends_of_admitAll (not_not.mp hlen) hnd hadm)

/-! ## Settling -/

/-- The rendezvous with one member gone. -/
def Rendezvous.without (v : Rendezvous) (d : DeviceId) : Rendezvous :=
  { v with members := v.members.erase d }

theorem unready_frame (o : MemoryOutbox) (batch : Option BatchId) (d : DeviceId) :
    (o.unready batch d).logs = o.logs ∧ (o.unready batch d).records = o.records ∧
      (o.unready batch d).maxAttempts = o.maxAttempts ∧
      (o.unready batch d).rendezvous = o.rendezvous := by
  cases batch with
  | none => exact ⟨rfl, rfl, rfl, rfl⟩
  | some b =>
      cases he : o.batches b with
      | none => simp only [unready, he, and_self]
      | some e =>
          simp only [unready, he]
          refine ⟨rfl, rfl, rfl, ?_⟩
          funext b'
          by_cases hb : b' = b
          · subst hb
            simp [rendezvous, setBatch, he, Batch.rendezvous]
          · simp [rendezvous, setBatch, Function.update_of_ne hb]

theorem dropMember_frame (o : MemoryOutbox) (batch : Option BatchId) (d : DeviceId) :
    (o.dropMember batch d).logs = o.logs ∧ (o.dropMember batch d).records = o.records ∧
      (o.dropMember batch d).maxAttempts = o.maxAttempts := by
  cases batch with
  | none => exact ⟨rfl, rfl, rfl⟩
  | some b =>
      cases he : o.batches b with
      | none => simp only [dropMember, he, and_self]
      | some e =>
          simp only [dropMember, he]
          exact ⟨rfl, rfl, rfl⟩

theorem rendezvous_dropMember (o : MemoryOutbox) (batch : Option BatchId) (d : DeviceId)
    (b : BatchId) : (o.dropMember batch d).rendezvous b =
      if batch = some b then (o.rendezvous b).map (Rendezvous.without · d) else o.rendezvous b := by
  cases batch with
  | none => simp [dropMember]
  | some b' =>
      cases he : o.batches b' with
      | none =>
          simp only [dropMember, he]
          by_cases hb : b' = b
          · subst hb
            simp [rendezvous, he]
          · simp [hb]
      | some e =>
          simp only [dropMember, he]
          by_cases hb : b' = b
          · subst hb
            simp [rendezvous, setBatch, he, Batch.rendezvous, Rendezvous.without]
          · have hb' : b ≠ b' := fun h => hb h.symm
            simp [rendezvous, setBatch, Function.update_of_ne hb', hb]

/-- What one `settle` did, with everything that led to it. -/
inductive Settled (o : MemoryOutbox) (id : WriteId) (outcome : Outcome) (now : Timestamp)
    (o' : MemoryOutbox) : Except DrainError Unit → Prop
  | refused (what : String) : o' = o → (∀ r, o.records id = some r → r.status ≠ .inFlight) →
      Settled o id outcome now o' (.error (.backend what))
  | succeeded (r : WriteRecord) (value : ReadValue) : o.records id = some r →
      r.status = .inFlight → outcome = .succeeded value →
      o' = o.setRecord id { r with status := .succeeded value, updatedAt := now } →
      Settled o id outcome now o' (.ok ())
  /-- Failed with tries left: back to the front of its queue. -/
  | retried (r : WriteRecord) (reason : String) (notBefore updatedAt : Timestamp)
      (res : Except DrainError Unit) : o.records id = some r → r.status = .inFlight →
      outcome = .failed reason → r.attempts < o.maxAttempts →
      o'.logs = Function.update o.logs r.device
        { o.logs r.device with queue := id :: (o.logs r.device).queue } →
      o'.records = Function.update o.records id
        (some { r with status := .pending, notBefore := notBefore, updatedAt := updatedAt }) →
      o'.rendezvous = o.rendezvous → o'.maxAttempts = o.maxAttempts →
      Settled o id outcome now o' res
  /-- Failed with no try left. -/
  | dead (r : WriteRecord) (reason : String) : o.records id = some r → r.status = .inFlight →
      outcome = .failed reason → o.maxAttempts ≤ r.attempts →
      o'.logs = Function.update o.logs r.device ((o.logs r.device).rolledBack r) →
      o'.records = Function.update o.records id
        (some { r with status := .failed reason, updatedAt := now }) →
      (∀ b, o'.rendezvous b = if r.batch = some b then
        (o.rendezvous b).map (Rendezvous.without · r.device) else o.rendezvous b) →
      o'.maxAttempts = o.maxAttempts → Settled o id outcome now o' (.ok ())

/-- **What `settle` does.** -/
theorem settle_spec (c : Chrono) (o : MemoryOutbox) (id : WriteId) (outcome : Outcome)
    (now : Timestamp) :
    Settled o id outcome now (o.settle c id outcome now).1 (o.settle c id outcome now).2 := by
  unfold settle
  cases hr : o.records id with
  | none => exact .refused _ rfl (by simp [hr])
  | some r =>
      simp only
      by_cases hst : r.status = .inFlight
      · rw [if_neg (not_not.mpr hst)]
        cases outcome with
        | succeeded value => exact .succeeded r value hr hst rfl rfl
        | failed reason =>
            simp only
            by_cases hatt : r.attempts < o.maxAttempts
            · have hback : ∀ log, (o.setLog r.device log).backoff = o.backoff := fun _ => rfl
              rw [if_pos hatt]
              cases hdelay : (mulDuration o.backoff r.attempts).bind (delayFrom c now) with
              | none =>
                  simp only [hback, hdelay]
                  exact .retried r reason r.notBefore r.updatedAt _ hr hst rfl hatt rfl rfl rfl rfl
              | some notBefore =>
                  simp only [hback, hdelay]
                  obtain ⟨hlogs, hrecs, hmax, hrv⟩ := unready_frame (o.setLog r.device
                    { o.logs r.device with queue := id :: (o.logs r.device).queue }) r.batch r.device
                  refine .retried r reason notBefore now _ hr hst rfl hatt ?_ ?_ ?_ ?_
                  · exact hlogs
                  · exact congrArg (Function.update · id _) hrecs
                  · exact hrv
                  · exact hmax
            · rw [if_neg hatt]
              obtain ⟨hlogs, hrecs, hmax⟩ := dropMember_frame ((o.setRecord id
                { r with status := .failed reason, updatedAt := now }).setLog r.device
                ((o.logs r.device).rolledBack r)) r.batch r.device
              refine .dead r reason hr hst rfl (by omega) ?_ ?_ ?_ ?_
              · exact hlogs
              · exact hrecs
              · exact rendezvous_dropMember _ r.batch r.device
              · exact hmax
      · rw [if_pos hst]
        refine .refused _ rfl ?_
        intro r' hr'
        rw [hr] at hr'
        obtain rfl := Option.some.inj hr'
        exact hst

/-! ## Cancelling -/

/-- Queues and records agree: what waits is queued, once, at its own device. -/
structure Tidy (o : MemoryOutbox) : Prop where
  filed : o.Filed
  queued : ∀ w r, o.records w = some r → r.status = .pending → w ∈ (o.logs r.device).queue
  nodup : ∀ d, (o.logs d).queue.Nodup

/--
The waiting rows in `p` are canceled and leave their queues, and the rendezvous of
the batches in `gone` are forgotten. No log loses anything but queued ids.
-/
structure Cancels (p : WriteId → Prop) (gone : BatchId → Prop) (o o' : MemoryOutbox) : Prop where
  logs : ∀ d, o'.logs d = { o.logs d with queue := (o'.logs d).queue }
  sub : ∀ d, ((o'.logs d).queue).Sublist (o.logs d).queue
  kept : ∀ d, ∀ w ∈ (o.logs d).queue, (w ∈ (o'.logs d).queue ↔ ¬ p w)
  drop : ∀ w r, o.records w = some r → r.status = .pending → p w →
    ∃ reason, o'.records w = some { r with status := .canceled reason }
  records : ∀ w, (∀ r, o.records w = some r → r.status = .pending → ¬ p w) →
    o'.records w = o.records w
  forgotten : ∀ b, gone b → o'.batches b = none
  batches : ∀ b, ¬ gone b → o'.batches b = o.batches b
  maxAttempts : o'.maxAttempts = o.maxAttempts

theorem Cancels.refl {o : MemoryOutbox} : Cancels (fun _ => False) (fun _ => False) o o where
  logs := fun _ => rfl
  sub := fun _ => List.Sublist.refl _
  kept := fun _ _ hw => ⟨fun _ h => h, fun _ => hw⟩
  drop := fun _ _ _ _ h => h.elim
  records := fun _ _ => rfl
  forgotten := fun _ h => h.elim
  batches := fun _ _ => rfl
  maxAttempts := rfl

/-- Cancelling twice is cancelling what either cancels. -/
theorem Cancels.comp {p q : WriteId → Prop} {g h : BatchId → Prop} {o o₁ o₂ : MemoryOutbox}
    (h₁ : Cancels p g o o₁) (h₂ : Cancels q h o₁ o₂) :
    Cancels (fun w => p w ∨ q w) (fun b => g b ∨ h b) o o₂ where
  logs := fun d => by rw [h₂.logs d, h₁.logs d]
  sub := fun d => (h₂.sub d).trans (h₁.sub d)
  kept := by
    intro d w hw
    by_cases hp : p w
    · have hout : w ∉ (o₁.logs d).queue := fun hin => ((h₁.kept d w hw).mp hin) hp
      exact ⟨fun hin => absurd ((h₂.sub d).subset hin) hout, fun hn => absurd (Or.inl hp) hn⟩
    · have hin := (h₁.kept d w hw).mpr hp
      rw [h₂.kept d w hin]
      exact ⟨fun hq hor => hor.elim hp hq, fun hn hq => hn (Or.inr hq)⟩
  drop := by
    intro w r hr hst hpq
    by_cases hp : p w
    -- what the first cancelled the second finds ended, and leaves
    · obtain ⟨reason, hr₁⟩ := h₁.drop w r hr hst hp
      refine ⟨reason, ?_⟩
      rw [h₂.records w ?_, hr₁]
      intro r' hr' hst'
      rw [hr₁] at hr'
      obtain rfl := Option.some.inj hr'
      cases hst'
    · have hr₁ : o₁.records w = some r := by
        rw [h₁.records w (fun _ _ _ => hp), hr]
      exact h₂.drop w r hr₁ hst (hpq.resolve_left hp)
  records := by
    intro w hw
    have hr₁ : o₁.records w = o.records w :=
      h₁.records w fun r hr hst hp => hw r hr hst (Or.inl hp)
    rw [h₂.records w ?_, hr₁]
    intro r hr hst hq
    rw [hr₁] at hr
    exact hw r hr hst (Or.inr hq)
  forgotten := by
    intro b hb
    by_cases hh : h b
    · exact h₂.forgotten b hh
    · rw [h₂.batches b hh]
      exact h₁.forgotten b (hb.resolve_right hh)
  batches := by
    intro b hb
    rw [not_or] at hb
    rw [h₂.batches b hb.2, h₁.batches b hb.1]
  maxAttempts := by rw [h₂.maxAttempts, h₁.maxAttempts]

/-- Only what the predicates say of waiting rows and of batches in the table matters. -/
theorem Cancels.congr {p q : WriteId → Prop} {g h : BatchId → Prop} {o o' : MemoryOutbox}
    (ht : Tidy o) (hc : Cancels p g o o')
    (hpq : ∀ w r, o.records w = some r → r.status = .pending → (p w ↔ q w))
    (hgh : ∀ b, o.batches b ≠ none → (g b ↔ h b)) : Cancels q h o o' where
  logs := hc.logs
  sub := hc.sub
  kept := by
    intro d w hw
    obtain ⟨r, hr, _, hst⟩ := ht.filed d w hw
    rw [hc.kept d w hw, hpq w r hr hst]
  drop := fun w r hr hst hq => hc.drop w r hr hst ((hpq w r hr hst).mpr hq)
  records := fun w hw => hc.records w fun r hr hst hp => hw r hr hst ((hpq w r hr hst).mp hp)
  forgotten := by
    intro b hb
    by_cases hn : o.batches b = none
    · by_cases hg : g b
      · exact hc.forgotten b hg
      · rw [hc.batches b hg, hn]
    · exact hc.forgotten b ((hgh b hn).mpr hb)
  batches := by
    intro b hb
    by_cases hn : o.batches b = none
    · by_cases hg : g b
      · rw [hc.forgotten b hg, hn]
      · exact hc.batches b hg
    · exact hc.batches b fun hg => hb ((hgh b hn).mp hg)
  maxAttempts := hc.maxAttempts

/-- A cancellation changes a record's status at most, and only to canceled. -/
theorem Cancels.record {p : WriteId → Prop} {g : BatchId → Prop} {o o' : MemoryOutbox}
    (hc : Cancels p g o o') {w : WriteId} {r : WriteRecord} (hr : o.records w = some r) :
    o'.records w = some r ∨
      (r.status = .pending ∧ p w ∧
        ∃ reason, o'.records w = some { r with status := .canceled reason }) := by
  by_cases h : r.status = .pending ∧ p w
  · exact Or.inr ⟨h.1, h.2, hc.drop w r hr h.1 h.2⟩
  · left
    rw [hc.records w ?_, hr]
    intro r' hr' hst hp
    rw [hr] at hr'
    obtain rfl := Option.some.inj hr'
    exact h ⟨hst, hp⟩

/-- A row a cancellation leaves waiting was waiting, and was not meant. -/
theorem Cancels.pending {p : WriteId → Prop} {g : BatchId → Prop} {o o' : MemoryOutbox}
    (hc : Cancels p g o o') {w : WriteId} {r' : WriteRecord} (hr' : o'.records w = some r')
    (hst : r'.status = .pending) : o.records w = some r' ∧ ¬ p w := by
  cases hr : o.records w with
  | none =>
      rw [hc.records w (by simp [hr]), hr] at hr'
      cases hr'
  | some r =>
      by_cases hp : r.status = .pending ∧ p w
      · obtain ⟨reason, hcan⟩ := hc.drop w r hr hp.1 hp.2
        rw [hcan] at hr'
        obtain rfl := Option.some.inj hr'
        cases hst
      · rcases hc.record hr with hsame | ⟨hst', hp', _⟩
        · rw [hsame] at hr'
          obtain rfl := Option.some.inj hr'
          exact ⟨rfl, fun h => hp ⟨hst, h⟩⟩
        · exact absurd ⟨hst', hp'⟩ hp

theorem Cancels.tidy {p : WriteId → Prop} {g : BatchId → Prop} {o o' : MemoryOutbox}
    (hc : Cancels p g o o') (ht : Tidy o) : Tidy o' where
  filed := by
    intro d w hw
    have hin := (hc.sub d).subset hw
    obtain ⟨r, hr, hdev, hst⟩ := ht.filed d w hin
    refine ⟨r, ?_, hdev, hst⟩
    rw [hc.records w fun _ _ _ => (hc.kept d w hin).mp hw, hr]
  queued := by
    intro w r hr hst
    obtain ⟨hr₀, hnp⟩ := hc.pending hr hst
    exact (hc.kept r.device w (ht.queued w r hr₀ hst)).mpr hnp
  nodup := fun d => (ht.nodup d).sublist (hc.sub d)

/-! ### The rows one call takes -/

/-- Rewriting one record after another is rewriting them all at once. -/
theorem foldl_rewrite {f : MemoryOutbox × Nat → WriteId → MemoryOutbox × Nat}
    {P : WriteRecord → Prop} {g : WriteRecord → WriteRecord}
    (hf : ∀ acc id r, acc.1.records id = some r → P r → (f acc id).1 = acc.1.setRecord id (g r))
    {ids : List WriteId} (hnd : ids.Nodup) {acc : MemoryOutbox × Nat}
    (h : ∀ w ∈ ids, ∃ r, acc.1.records w = some r ∧ P r) :
    (ids.foldl f acc).1 = { acc.1 with
      records := fun w => if w ∈ ids then (acc.1.records w).map g else acc.1.records w } := by
  induction ids generalizing acc with
  | nil => simp
  | cons id ids ih =>
      obtain ⟨r, hr, hP⟩ := h id (List.mem_cons_self ..)
      obtain ⟨hid, hnd'⟩ := List.nodup_cons.mp hnd
      have hstep := hf acc id r hr hP
      rw [List.foldl_cons, ih hnd' ?_, hstep]
      · simp only [setRecord]
        congr 1
        funext w
        by_cases hw : w = id
        · subst hw
          simp [hid, hr]
        · simp [hw]
      · intro w hw
        have hne : w ≠ id := fun he => hid (he ▸ hw)
        have hother : (f acc id).1.records w = acc.1.records w := by
          rw [hstep]
          exact Function.update_of_ne hne ..
        rw [hother]
        exact h w (List.mem_cons_of_mem _ hw)

/--
Taking the queued rows of `d` that `doomed` picks, and canceling them, cancels the
waiting rows of `d` it picks.
-/
theorem cancels_of_filter {o : MemoryOutbox} (ht : Tidy o) (d : DeviceId)
    (doomed : WriteId → Bool) {g : WriteRecord → WriteRecord}
    (hg : ∀ r, ∃ reason, g r = { r with status := .canceled reason })
    {f : MemoryOutbox × Nat → WriteId → MemoryOutbox × Nat}
    (hf : ∀ acc id r, acc.1.records id = some r → r.status = .pending →
      (f acc id).1 = acc.1.setRecord id (g r)) (n : Nat) :
    Cancels (fun w => ∃ r, o.records w = some r ∧ r.device = d ∧ doomed w = true) (fun _ => False) o
      (((o.logs d).queue.filter doomed).foldl f
        (o.setLog d { o.logs d with queue := (o.logs d).queue.filter fun w => !doomed w }, n)).1 := by
  have hrecs : ∀ w ∈ (o.logs d).queue.filter doomed, ∃ r,
      (o.setLog d { o.logs d with queue := (o.logs d).queue.filter fun w => !doomed w }).records w
        = some r ∧ r.status = .pending := by
    intro w hw
    obtain ⟨r, hr, _, hst⟩ := ht.filed d w (List.mem_of_mem_filter hw)
    exact ⟨r, hr, hst⟩
  rw [foldl_rewrite hf ((ht.nodup d).filter doomed) hrecs]
  have hlog : ∀ d', d' ≠ d → Function.update o.logs d
      { o.logs d with queue := (o.logs d).queue.filter fun w => !doomed w } d' = o.logs d' :=
    fun d' hd => Function.update_of_ne hd ..
  -- only `d`'s log and the records of what was picked from its queue have changed
  refine ⟨?_, ?_, ?_, ?_, ?_, fun _ h => h.elim, fun _ _ => rfl, rfl⟩
  · intro d'
    by_cases hd : d' = d
    · subst hd
      simp [setLog]
    · simp only [setLog, hlog d' hd]
  · intro d'
    by_cases hd : d' = d
    · subst hd
      simp only [setLog, Function.update_self]
      exact List.filter_sublist
    · simp only [setLog, hlog d' hd]
      exact List.Sublist.refl _
  · intro d' w hw
    obtain ⟨r, hr, hdev, _⟩ := ht.filed d' w hw
    by_cases hd : d' = d
    · subst hd
      simp only [setLog, Function.update_self, List.mem_filter, hw, true_and]
      refine ⟨?_, ?_⟩
      · intro hk hp
        obtain ⟨_, _, _, hdoom⟩ := hp
        simp [hdoom] at hk
      · intro hp
        cases hdoom : doomed w with
        | false => rfl
        | true => exact absurd ⟨r, hr, hdev, hdoom⟩ hp
    · simp only [setLog, hlog d' hd, hw, true_iff]
      intro hp
      obtain ⟨r', hr', hdev', _⟩ := hp
      rw [hr] at hr'
      obtain rfl := Option.some.inj hr'
      exact hd (hdev.symm.trans hdev')
  · intro w r hr hst hp
    obtain ⟨r', hr', hdev, hdoom⟩ := hp
    rw [hr] at hr'
    obtain rfl := Option.some.inj hr'
    have hin : w ∈ (o.logs d).queue.filter doomed :=
      List.mem_filter.mpr ⟨hdev ▸ ht.queued w r hr hst, hdoom⟩
    obtain ⟨reason, hreason⟩ := hg r
    refine ⟨reason, ?_⟩
    simp only [setLog, if_pos hin, hr, Option.map_some, hreason]
  · intro w hw
    have hout : w ∉ (o.logs d).queue.filter doomed := by
      intro hin
      obtain ⟨hq, hdoom⟩ := List.mem_filter.mp hin
      obtain ⟨r, hr, hdev, hst⟩ := ht.filed d w hq
      exact hw r hr hst ⟨r, hr, hdev, hdoom⟩
    simp only [setLog, if_neg hout]

/-- Row `w` is for a device of `ds`, in batch `b`. -/
def MemoryOutbox.BatchRow (o : MemoryOutbox) (b : BatchId) (ds : DeviceId → Prop) (w : WriteId) :
    Prop := ∃ r, o.records w = some r ∧ ds r.device ∧ r.batch = some b

/-- What a cancellation leaves of a row is in the same batch, for the same device. -/
theorem Cancels.batchRow {p : WriteId → Prop} {g : BatchId → Prop} {o o' : MemoryOutbox}
    (hc : Cancels p g o o') {b : BatchId} {ds : DeviceId → Prop} {w : WriteId} :
    o'.BatchRow b ds w ↔ o.BatchRow b ds w := by
  unfold BatchRow
  cases hr : o.records w with
  | none => simp [hc.records w (by simp [hr]), hr]
  | some r =>
      rcases hc.record hr with hsame | ⟨_, _, reason, hcan⟩
      · simp [hsame]
      · simp [hcan]

theorem cancelMember_cancels {o : MemoryOutbox} (ht : Tidy o) (b : BatchId) (reason : String)
    (n : Nat) (m : DeviceId) :
    Cancels (o.BatchRow b (· = m)) (fun _ => False) o (cancelMember b reason (o, n) m).1 := by
  have hpart : (cancelMember b reason (o, n) m).1 = (((o.logs m).queue.filter fun id =>
        (o.records id).any fun record => decide (record.batch = some b)).foldl (cancelPending reason)
      (o.setLog m { o.logs m with queue := (o.logs m).queue.filter fun id =>
        !((o.records id).any fun record => decide (record.batch = some b)) }, n)).1 := by
    simp only [cancelMember, List.partition_eq_filter_filter]
    rfl
  rw [hpart]
  refine Cancels.congr ht (cancels_of_filter ht m _ (g := fun r =>
    { r with status := .canceled (groupReason reason) }) (fun r => ⟨_, rfl⟩) ?_ n) ?_ (by simp)
  · intro acc id r hr hst
    simp [cancelPending, hr, hst]
  · intro w r hr _
    simp [BatchRow, hr]

theorem foldl_cancelMember_cancels {o : MemoryOutbox} (ht : Tidy o) (b : BatchId)
    (reason : String) (n : Nat) (ms : List DeviceId) :
    Cancels (o.BatchRow b (· ∈ ms)) (fun _ => False) o
      (ms.foldl (cancelMember b reason) (o, n)).1 := by
  induction ms generalizing o n with
  | nil =>
      refine Cancels.congr ht Cancels.refl ?_ (by simp)
      intro w r hr _
      simp [BatchRow]
  | cons m ms ih =>
      -- each member's rows are picked by their batch, which no cancellation rewrites
      have h₁ := cancelMember_cancels ht b reason n m
      have h₂ := ih (h₁.tidy ht) (cancelMember b reason (o, n) m).2
      rw [List.foldl_cons]
      refine Cancels.congr ht (h₁.comp h₂) ?_ (by simp)
      intro w r hr _
      rw [h₁.batchRow]
      simp only [BatchRow, hr, Option.some.injEq, exists_eq_left', List.mem_cons]
      tauto

/-- Forgetting a batch no row is filed under changes nothing a cancellation speaks of. -/
theorem cancels_setBatch_none (o : MemoryOutbox) (b : BatchId) :
    Cancels (fun _ => False) (· = b) o (o.setBatch b none) where
  logs := fun _ => rfl
  sub := fun _ => List.Sublist.refl _
  kept := fun _ _ hw => ⟨fun _ h => h, fun _ => hw⟩
  drop := fun _ _ _ _ h => h.elim
  records := fun _ _ => rfl
  forgotten := by
    intro b' h'
    subst h'
    exact Function.update_self ..
  batches := fun b' hb => Function.update_of_ne hb ..
  maxAttempts := rfl

/-- Row `w` belongs to a batch of `bs` in the table, which waits for the row's own device. -/
def MemoryOutbox.Doomed (o : MemoryOutbox) (bs : BatchId → Prop) (w : WriteId) : Prop :=
  ∃ b e, bs b ∧ o.batches b = some e ∧ o.BatchRow b (· ∈ e.members) w

/-- **What `cancel_batch` does.** -/
theorem cancelBatch_cancels {o : MemoryOutbox} (ht : Tidy o) (b : BatchId) (reason : String) :
    Cancels (o.Doomed (· = b)) (· = b) o (o.cancelBatch b reason).1 := by
  unfold cancelBatch
  cases he : o.batches b with
  | none =>
      refine Cancels.congr ht Cancels.refl ?_ ?_
      · intro w r hr _
        simp [Doomed, he]
      · intro b' hb'
        simp only [false_iff]
        intro h'
        subst h'
        exact hb' he
  | some e =>
      have h₁ := cancels_setBatch_none o b
      have h₂ := foldl_cancelMember_cancels (h₁.tidy ht) b reason 0 e.members.elems
      refine Cancels.congr ht (h₁.comp h₂) ?_ (by simp)
      intro w r hr _
      rw [h₁.batchRow]
      simp only [Doomed, false_or]
      refine ⟨?_, ?_⟩
      · intro h
        exact ⟨b, e, rfl, he, h⟩
      · intro h'
        obtain ⟨b', e', rfl, he', h⟩ := h'
        rw [he] at he'
        obtain rfl := Option.some.inj he'
        exact h

theorem foldl_cancelBatch_cancels {o : MemoryOutbox} (ht : Tidy o) (reason : String) (n : Nat)
    (bs : List BatchId) :
    Cancels (o.Doomed (· ∈ bs)) (· ∈ bs) o
      (bs.foldl (fun acc batch =>
        let (o, n) := acc.1.cancelBatch batch reason
        (o, acc.2 + n)) (o, n)).1 := by
  induction bs generalizing o n with
  | nil =>
      refine Cancels.congr ht Cancels.refl ?_ (by simp)
      intro w r hr _
      simp [Doomed]
  | cons b bs ih =>
      -- a batch cancelled already is out of the table, and dooms nothing further
      have h₁ := cancelBatch_cancels ht b reason
      have h₂ := ih (h₁.tidy ht) (n + (o.cancelBatch b reason).2)
      rw [List.foldl_cons]
      refine Cancels.congr ht (h₁.comp h₂) ?_ (by simp)
      intro w r hr _
      refine ⟨?_, ?_⟩
      · intro h
        rcases h with ⟨b', e, rfl, he, hrow⟩ | ⟨b', e, hmem, he, hrow⟩
        · exact ⟨b', e, List.mem_cons_self .., he, hrow⟩
        · by_cases hb : b' = b
          · rw [h₁.forgotten b' hb] at he
            cases he
          · rw [h₁.batches b' hb] at he
            exact ⟨b', e, List.mem_cons_of_mem _ hmem, he, h₁.batchRow.mp hrow⟩
      · intro h
        obtain ⟨b', e, hmem, he, hrow⟩ := h
        by_cases hb : b' = b
        · exact Or.inl ⟨b', e, hb, he, hrow⟩
        · refine Or.inr ⟨b', e, (List.mem_cons.mp hmem).resolve_left hb, ?_, h₁.batchRow.mpr hrow⟩
          rw [h₁.batches b' hb, he]

/-- Batch `b` has a waiting row of device `d`. -/
def MemoryOutbox.Waits (o : MemoryOutbox) (d : DeviceId) (b : BatchId) : Prop :=
  ∃ w r, o.records w = some r ∧ r.status = .pending ∧ r.device = d ∧ r.batch = some b

theorem mem_doomedBatches {o : MemoryOutbox} (ht : Tidy o) {d : DeviceId} {b : BatchId} :
    b ∈ (o.doomedBatches (o.logs d).queue).elems ↔ o.Waits d b := by
  rw [← OrderedSet.mem_def, doomedBatches, OrderedSet.mem_ofList, List.mem_filterMap]
  refine ⟨?_, ?_⟩
  · intro h
    obtain ⟨w, hw, hb⟩ := h
    obtain ⟨r, hr, hdev, hst⟩ := ht.filed d w hw
    rw [hr] at hb
    exact ⟨w, r, hr, hst, hdev, hb⟩
  · intro h
    obtain ⟨w, r, hr, hst, rfl, hb⟩ := h
    exact ⟨w, ht.queued w r hr hst, by rw [hr]; exact hb⟩

/-- **What `cancel_queued` does.** -/
theorem cancelQueued_cancels {o : MemoryOutbox} (ht : Tidy o) (d : DeviceId) (reason : String) :
    Cancels (fun w => (∃ r, o.records w = some r ∧ r.device = d) ∨ o.Doomed (o.Waits d) w)
      (o.Waits d) o (o.cancelQueued d reason).1 := by
  -- first `d`'s own queue, whole, and then the batches it had rows of
  have h₁ := cancels_of_filter ht d (fun _ => true)
    (g := fun r => { r with status := .canceled reason }) (fun r => ⟨_, rfl⟩)
    (f := cancelDrained reason) (fun acc id r hr _ => by simp [cancelDrained, hr]) 0
  simp only [List.filter_true, Bool.not_true, List.filter_false, and_true] at h₁
  have h₂ := foldl_cancelBatch_cancels (h₁.tidy ht) reason
    ((o.logs d).queue.foldl (cancelDrained reason)
      (o.setLog d { o.logs d with queue := [] }, 0)).2 (o.doomedBatches (o.logs d).queue).elems
  refine Cancels.congr ht (h₁.comp h₂) ?_ ?_
  · intro w r hr _
    refine or_congr Iff.rfl ?_
    unfold Doomed
    refine exists_congr fun b => exists_congr fun e => ?_
    rw [h₁.batches b (by simp), h₁.batchRow]
    exact and_congr (mem_doomedBatches ht) Iff.rfl
  · intro b _
    simp only [false_or]
    exact mem_doomedBatches ht

end Sismatic
