import Sismatic.StoreMemory.Outbox

/-!
# What a claim does

`claim_next` in one statement. Whatever it decides, it does one of two things to
queues and records: nothing, or the same thing to the head of each of several
devices at once. `Heads` says the second, whatever is done to a head; `Claimed`
lists the outcomes with every guard that leads to each, so nothing below this
module unfolds `claimNext` again.
-/

namespace Sismatic

open MemoryOutbox

/-! ## Reading the state -/

/-- A batch's rendezvous, without the recorded readiness that every evaluation recomputes. -/
structure Rendezvous where
  members : OrderedSet DeviceId
  armedAt : Timestamp
  barrier : BarrierPolicy
  gate : Gate

def Batch.rendezvous (e : Batch) : Rendezvous := ⟨e.members, e.armedAt, e.barrier, e.gate⟩

namespace MemoryOutbox

def rendezvous (o : MemoryOutbox) (b : BatchId) : Option Rendezvous :=
  (o.batches b).map Batch.rendezvous

theorem rendezvous_eq {o : MemoryOutbox} {b : BatchId} {e : Batch} (h : o.batches b = some e) :
    o.rendezvous b = some e.rendezvous := by
  simp [rendezvous, h]

theorem rendezvous_some {o : MemoryOutbox} {b : BatchId} {v : Rendezvous}
    (h : o.rendezvous b = some v) : ∃ e, o.batches b = some e ∧ e.rendezvous = v := by
  unfold rendezvous at h
  cases he : o.batches b with
  | none => rw [he] at h; cases h
  | some e => rw [he] at h; exact ⟨e, rfl, Option.some.inj h⟩

theorem rendezvous_none {o : MemoryOutbox} {b : BatchId} :
    o.rendezvous b = none ↔ o.batches b = none := by
  simp [rendezvous]

/-- The write at the head of `d`'s queue is `r`, and its backoff has run out. -/
def HeadDue (o : MemoryOutbox) (d : DeviceId) (now : Timestamp) (r : WriteRecord) : Prop :=
  ∃ id q, (o.logs d).queue = id :: q ∧ o.records id = some r ∧ r.notBefore.str ≤ now.str

theorem HeadDue.unique {o : MemoryOutbox} {d : DeviceId} {now : Timestamp} {r r' : WriteRecord}
    (h : o.HeadDue d now r) (h' : o.HeadDue d now r') : r = r' := by
  obtain ⟨id, q, hq, hr, _⟩ := h
  obtain ⟨id', q', hq', hr', _⟩ := h'
  rw [hq] at hq'
  obtain ⟨rfl, _⟩ := List.cons.inj hq'
  rw [hr] at hr'
  exact Option.some.inj hr'

/-- The members of a batch whose row of it is at the head of their queue and due. -/
def arrived (o : MemoryOutbox) (e : Batch) (b : BatchId) (now : Timestamp) : OrderedSet DeviceId :=
  e.members.filter fun member => o.isReadyFor member b now

theorem isReadyFor_iff {o : MemoryOutbox} {m : DeviceId} {b : BatchId} {now : Timestamp} :
    o.isReadyFor m b now = true ↔ ∃ r, o.HeadDue m now r ∧ r.batch = some b := by
  unfold isReadyFor HeadDue
  cases hq : (o.logs m).queue with
  | nil => simp
  | cons id q =>
      simp only [List.head?_cons]
      cases hr : o.records id with
      | none => simp [hr]
      | some r =>
          simp only [Bool.and_eq_true, decide_eq_true_eq]
          refine ⟨fun h => ⟨r, ⟨id, q, rfl, hr, h.2⟩, h.1⟩, ?_⟩
          intro h
          obtain ⟨r', ⟨id', q', hcons, hr', hdue⟩, hb⟩ := h
          obtain ⟨rfl, rfl⟩ := List.cons.inj hcons
          rw [hr] at hr'
          obtain rfl := Option.some.inj hr'
          exact ⟨hb, hdue⟩

theorem mem_arrived {o : MemoryOutbox} {e : Batch} {b : BatchId} {now : Timestamp} {m : DeviceId} :
    m ∈ o.arrived e b now ↔ m ∈ e.members ∧ ∃ r, o.HeadDue m now r ∧ r.batch = some b := by
  unfold arrived
  rw [OrderedSet.mem_filter, isReadyFor_iff]

/--
Every queued id has a record behind it, of that queue's device and waiting. The
source relies on it where it answers "a queued id has no record behind it".
-/
def Filed (o : MemoryOutbox) : Prop :=
  ∀ d, ∀ id ∈ (o.logs d).queue,
    ∃ r, o.records id = some r ∧ r.device = d ∧ r.status = .pending

end MemoryOutbox

/-! ## Doing one thing to several heads -/

/-- The filed head of `m`: its id, what queues behind it, and its record. -/
def HeadAt (o : MemoryOutbox) (m : DeviceId) (id : WriteId) (q : List WriteId)
    (r : WriteRecord) : Prop :=
  (o.logs m).queue = id :: q ∧ o.records id = some r ∧ r.device = m ∧ r.status = .pending

theorem HeadAt.unique {o : MemoryOutbox} {m : DeviceId} {id id' : WriteId} {q q' : List WriteId}
    {r r' : WriteRecord} (h : HeadAt o m id q r) (h' : HeadAt o m id' q' r') :
    id = id' ∧ q = q' ∧ r = r' := by
  obtain ⟨rfl, rfl⟩ := List.cons.inj (h.1.symm.trans h'.1)
  exact ⟨rfl, rfl, Option.some.inj (h.2.1.symm.trans h'.2.1)⟩

/-- One device's part of `Heads`. -/
def actOnHead (f : DeviceLog → WriteRecord → DeviceLog) (g : WriteRecord → WriteRecord)
    (o : MemoryOutbox) (m : DeviceId) : MemoryOutbox :=
  match (o.logs m).queue with
  | [] => o
  | id :: q =>
      match o.records id with
      | none => o.setLog m { o.logs m with queue := q }
      | some r => (o.setLog m (f { o.logs m with queue := q } r)).setRecord id (g r)

section ActOnHead

variable {f : DeviceLog → WriteRecord → DeviceLog} {g : WriteRecord → WriteRecord}
  {o : MemoryOutbox} {m : DeviceId} {id : WriteId} {q : List WriteId} {r : WriteRecord}

theorem actOnHead_eq (h : HeadAt o m id q r) :
    actOnHead f g o m = (o.setLog m (f { o.logs m with queue := q } r)).setRecord id (g r) := by
  simp [actOnHead, h.1, h.2.1]

theorem actOnHead_logs (h : HeadAt o m id q r) {d : DeviceId} (hd : d ≠ m) :
    (actOnHead f g o m).logs d = o.logs d := by
  rw [actOnHead_eq h]
  exact Function.update_of_ne hd ..

theorem actOnHead_records (h : HeadAt o m id q r) {w : WriteId} (hw : w ≠ id) :
    (actOnHead f g o m).records w = o.records w := by
  rw [actOnHead_eq h]
  exact Function.update_of_ne hw ..

/-- Heads of different devices are different rows. -/
theorem HeadAt.ne (h : HeadAt o m id q r) {m' : DeviceId} {id' : WriteId} {q' : List WriteId}
    {r' : WriteRecord} (h' : HeadAt o m' id' q' r') (hm : m' ≠ m) : id' ≠ id := by
  intro he
  subst he
  have hrr := h'.2.1
  rw [h.2.1] at hrr
  obtain rfl := Option.some.inj hrr
  exact hm (h'.2.2.1.symm.trans h.2.2.1)

theorem HeadAt.single (h : HeadAt o m id q r) : ∀ m' ∈ [m], ∃ id q r, HeadAt o m' id q r := by
  intro m' hm'
  rw [List.mem_singleton] at hm'
  subst hm'
  exact ⟨id, q, r, h⟩

/-- Acting on one head leaves the other devices' heads where they are. -/
theorem HeadAt.after (h : HeadAt o m id q r) {m' : DeviceId} {id' : WriteId} {q' : List WriteId}
    {r' : WriteRecord} (h' : HeadAt o m' id' q' r') (hm : m' ≠ m) :
    HeadAt (actOnHead f g o m) m' id' q' r' := by
  refine ⟨?_, ?_, h'.2.2⟩
  · rw [actOnHead_logs h hm]; exact h'.1
  · rw [actOnHead_records h (h.ne h' hm)]; exact h'.2.1

end ActOnHead

/--
Each device in `ms` loses the head of its queue. `f` is what else happens to its
log, given the head's record, and `g` what happens to the record.
-/
structure Heads (f : DeviceLog → WriteRecord → DeviceLog) (g : WriteRecord → WriteRecord)
    (ms : List DeviceId) (o o' : MemoryOutbox) : Prop where
  head : ∀ m ∈ ms, ∃ id q r, HeadAt o m id q r ∧
    o'.logs m = f { o.logs m with queue := q } r ∧ o'.records id = some (g r)
  logs : ∀ d, d ∉ ms → o'.logs d = o.logs d
  records : ∀ id, (∀ m ∈ ms, (o.logs m).queue.head? ≠ some id) → o'.records id = o.records id
  batches : o'.batches = o.batches
  groups : o'.groups = o.groups
  maxAttempts : o'.maxAttempts = o.maxAttempts
  backoff : o'.backoff = o.backoff

/-- Acting on heads one device after another is acting on them all at once. -/
theorem heads_foldl {f : DeviceLog → WriteRecord → DeviceLog} {g : WriteRecord → WriteRecord}
    {ms : List DeviceId} (hnd : ms.Nodup) {o : MemoryOutbox}
    (hms : ∀ m ∈ ms, ∃ id q r, HeadAt o m id q r) :
    Heads f g ms o (ms.foldl (actOnHead f g) o) := by
  -- on the devices still to come: acting on `m` leaves each of their heads where it was
  induction ms generalizing o with
  | nil => exact ⟨by simp, fun _ _ => rfl, fun _ _ => rfl, rfl, rfl, rfl, rfl⟩
  | cons m ms ih =>
      obtain ⟨hm, hnd'⟩ := List.nodup_cons.mp hnd
      obtain ⟨id, q, r, h⟩ := hms m (List.mem_cons_self ..)
      have hne : ∀ m' ∈ ms, m' ≠ m := fun m' hm' he => hm (he ▸ hm')
      have hrest : ∀ m' ∈ ms, ∃ id q r, HeadAt o m' id q r :=
        fun m' hm' => hms m' (List.mem_cons_of_mem _ hm')
      have hih := ih hnd' (o := actOnHead f g o m) (by
        intro m' hm'
        obtain ⟨id', q', r', h'⟩ := hrest m' hm'
        exact ⟨id', q', r', h.after h' (hne m' hm')⟩)
      have hqueue : ∀ m' ∈ ms,
          ((actOnHead f g o m).logs m').queue.head? = (o.logs m').queue.head? :=
        fun m' hm' => by rw [actOnHead_logs h (hne m' hm')]
      rw [List.foldl_cons]
      refine ⟨?_, ?_, ?_, ?_, ?_, ?_, ?_⟩
      · intro m' hm'
        rcases List.mem_cons.mp hm' with rfl | hm'
        · refine ⟨id, q, r, h, ?_, ?_⟩
          · rw [hih.logs m' hm, actOnHead_eq h]
            exact Function.update_self ..
          · rw [hih.records id, actOnHead_eq h]
            · exact Function.update_self ..
            · intro m'' hm'' hhead
              obtain ⟨id'', q'', r'', h''⟩ := hrest m'' hm''
              rw [hqueue m'' hm'', h''.1, List.head?_cons] at hhead
              exact h.ne h'' (hne m'' hm'') (Option.some.inj hhead)
        · obtain ⟨id', q', r', h'⟩ := hrest m' hm'
          obtain ⟨id₁, q₁, r₁, h₁, hlog, hrec⟩ := hih.head m' hm'
          have ha := h.after (f := f) (g := g) h' (hne m' hm')
          obtain ⟨rfl, rfl, rfl⟩ := ha.unique h₁
          rw [actOnHead_logs h (hne m' hm')] at hlog
          exact ⟨id', q', r', h', hlog, hrec⟩
      · intro d hd
        rw [List.mem_cons, not_or] at hd
        rw [hih.logs d hd.2, actOnHead_logs h hd.1]
      · intro w hw
        have hwid : w ≠ id := by
          intro he
          refine hw m (List.mem_cons_self ..) ?_
          rw [h.1, List.head?_cons, he]
        rw [hih.records w ?_, actOnHead_records h hwid]
        intro m' hm'
        rw [hqueue m' hm']
        exact hw m' (List.mem_cons_of_mem _ hm')
      · rw [hih.batches, actOnHead_eq h]; rfl
      · rw [hih.groups, actOnHead_eq h]; rfl
      · rw [hih.maxAttempts, actOnHead_eq h]; rfl
      · rw [hih.backoff, actOnHead_eq h]; rfl

/-! ## Claiming and failing heads -/

/-- A record as a claim leaves it. -/
def WriteRecord.claimed (now : Timestamp) (r : WriteRecord) : WriteRecord :=
  { r with status := .inFlight, attempts := r.attempts + 1, updatedAt := now }

/-- A record as an expired barrier leaves it. -/
def WriteRecord.expired (now : Timestamp) (r : WriteRecord) : WriteRecord :=
  { r with
    status := .failed "the group barrier expired before every member was ready"
    updatedAt := now }

/-- A log after the write `r` of it failed: the desired state rolled back. -/
def DeviceLog.rolledBack (log : DeviceLog) (r : WriteRecord) : DeviceLog :=
  { log with desiredRecordingState := rollback log.desiredRecordingState (Verb.of r.intent) }

/-- The heads of `ms` are claimed. -/
abbrev ClaimsHeads (now : Timestamp) (ms : List DeviceId) (o o' : MemoryOutbox) : Prop :=
  Heads (fun log _ => log) (WriteRecord.claimed now) ms o o'

/-- The heads of `ms` are failed and rolled back. -/
abbrev FailsHeads (now : Timestamp) (ms : List DeviceId) (o o' : MemoryOutbox) : Prop :=
  Heads DeviceLog.rolledBack (WriteRecord.expired now) ms o o'

theorem claimHead_eq {o : MemoryOutbox} {m : DeviceId} {now : Timestamp} {id : WriteId}
    {q : List WriteId} {r : WriteRecord} (h : HeadAt o m id q r) :
    o.claimHead m now =
      (actOnHead (fun log _ => log) (WriteRecord.claimed now) o m, .ok (some (r.claimed now))) := by
  have hr : (o.setLog m { o.logs m with queue := q }).records id = some r := h.2.1
  simp only [claimHead, h.1, hr, actOnHead_eq h]
  rfl

theorem failHead_eq (now : Timestamp) (o : MemoryOutbox) (m : DeviceId) :
    o.failHead now m = actOnHead DeviceLog.rolledBack (WriteRecord.expired now) o m := by
  cases hq : (o.logs m).queue with
  | nil => simp only [failHead, actOnHead, hq]
  | cons id q =>
      cases hr : o.records id with
      | none => simp only [failHead, actOnHead, hq, hr]
      | some r =>
          simp only [failHead, actOnHead, hq, hr]
          rfl

/-- Failing members' heads in order fails them all. -/
theorem failsHeads_foldl {ms : List DeviceId} (hnd : ms.Nodup) {o : MemoryOutbox}
    (now : Timestamp) (hms : ∀ m ∈ ms, ∃ id q r, HeadAt o m id q r) :
    FailsHeads now ms o (ms.foldl (failHead · now) o) := by
  have hact : (failHead · now) = actOnHead DeviceLog.rolledBack (WriteRecord.expired now) := by
    funext o m
    exact failHead_eq now o m
  rw [hact]
  exact heads_foldl hnd hms

/-- Claiming one head is claiming the heads of that device alone. -/
theorem claimsHeads_single {o : MemoryOutbox} {m : DeviceId} {id : WriteId} {q : List WriteId}
    {r : WriteRecord} (now : Timestamp) (h : HeadAt o m id q r) :
    ClaimsHeads now [m] o (o.claimHead m now).1 := by
  rw [claimHead_eq h]
  exact heads_foldl (List.nodup_singleton m) h.single

/-- Claiming members in order takes all their heads, and answers with one record for each. -/
theorem claimAll_spec {ms : List DeviceId} (hnd : ms.Nodup) {o : MemoryOutbox} (now : Timestamp)
    (hms : ∀ m ∈ ms, ∃ id q r, HeadAt o m id q r) :
    ∃ rs, o.claimAll now ms =
        (ms.foldl (actOnHead (fun log _ => log) (WriteRecord.claimed now)) o, .ok rs) ∧
      List.Forall₂ (fun m r' => ∃ id q r, HeadAt o m id q r ∧ r' = r.claimed now) ms rs := by
  induction ms generalizing o with
  | nil => exact ⟨[], rfl, List.Forall₂.nil⟩
  | cons m ms ih =>
      obtain ⟨hm, hnd'⟩ := List.nodup_cons.mp hnd
      obtain ⟨id, q, r, h⟩ := hms m (List.mem_cons_self ..)
      have hne : ∀ m' ∈ ms, m' ≠ m := fun m' hm' he => hm (he ▸ hm')
      have hrest : ∀ m' ∈ ms, ∃ id q r, HeadAt o m' id q r :=
        fun m' hm' => hms m' (List.mem_cons_of_mem _ hm')
      obtain ⟨rs, hclaim, hrs⟩ := ih hnd'
        (o := actOnHead (fun log _ => log) (WriteRecord.claimed now) o m) (by
          intro m' hm'
          obtain ⟨id', q', r', h'⟩ := hrest m' hm'
          exact ⟨id', q', r', h.after h' (hne m' hm')⟩)
      refine ⟨r.claimed now :: rs, ?_, List.Forall₂.cons ⟨id, q, r, h, rfl⟩ ?_⟩
      · simp only [claimAll, claimHead_eq h, hclaim, List.foldl_cons]
        rfl
      -- the records claimed after `m`'s are those of the state before it
      · have hboth := (List.forall₂_and_left ms rs).mpr ⟨fun m' hm' => hm', hrs⟩
        refine hboth.imp ?_
        intro m' r' hm'
        obtain ⟨hmem, id₁, q₁, r₁, h₁, hr'⟩ := hm'
        obtain ⟨id', q', r₀, h'⟩ := hrest m' hmem
        obtain ⟨rfl, rfl, rfl⟩ := (h.after h' (hne m' hmem)).unique h₁
        exact ⟨id', q', r₀, h', hr'⟩

/-! ## Claiming the next write -/

/-- A due head of a filed queue. -/
theorem MemoryOutbox.Filed.headAt {o : MemoryOutbox} (hf : o.Filed) {d : DeviceId}
    {now : Timestamp} {r : WriteRecord} (h : o.HeadDue d now r) : ∃ id q, HeadAt o d id q r := by
  obtain ⟨id, q, hq, hr, _⟩ := h
  obtain ⟨r', hr', hdev, hst⟩ := hf d id (by rw [hq]; exact List.mem_cons_self ..)
  rw [hr] at hr'
  obtain rfl := Option.some.inj hr'
  exact ⟨id, q, hq, hr, hdev, hst⟩

/-- The state with batch `b`'s evaluation recorded: who had arrived, and the new gate. -/
def MemoryOutbox.resolved (o : MemoryOutbox) (b : BatchId) (e : Batch) (now : Timestamp)
    (gate : Gate) : MemoryOutbox :=
  o.setBatch b (some { e with ready := o.arrived e b now, gate := gate })

/-- Why a device's turn comes to nothing. -/
inductive Blocked (c : Chrono) (o : MemoryOutbox) (d : DeviceId) (now : Timestamp) : Prop
  /-- Nothing is queued, or the head is still backing off. -/
  | notDue : (∀ r, ¬ o.HeadDue d now r) → Blocked c o d now
  /-- The head's rendezvous has vanished. -/
  | vanished (r : WriteRecord) (b : BatchId) : o.HeadDue d now r → r.batch = some b →
      o.batches b = none → Blocked c o d now
  /-- The head's batch still waits for someone, inside its timeout. -/
  | waiting (r : WriteRecord) (b : BatchId) (e : Batch) : o.HeadDue d now r → r.batch = some b →
      o.batches b = some e → e.gate = .waiting → o.arrived e b now ≠ e.members →
      elapsedPast c e.armedAt e.barrier.timeout now ≠ some true → Blocked c o d now

/-- What one `claim_next` of `d` at `now` did, with everything that led to it. -/
inductive Claimed (c : Chrono) (o : MemoryOutbox) (d : DeviceId) (now : Timestamp)
    (o' : MemoryOutbox) : Except DrainError (Option Claim) → Prop
  /-- Nothing was claimed. -/
  | idle (res : Except DrainError (Option Claim)) : Blocked c o d now →
      (∀ claim, res ≠ .ok (some claim)) → o'.logs = o.logs → o'.records = o.records →
      o'.rendezvous = o.rendezvous → o'.groups = o.groups → o'.maxAttempts = o.maxAttempts →
      Claimed c o d now o' res
  /-- The head went out alone: unbatched, or its batch was already resolved by dispatch. -/
  | one (r : WriteRecord) : o.HeadDue d now r →
      (∀ b, r.batch = some b → ∃ e, o.batches b = some e ∧ e.gate = .opened) →
      ClaimsHeads now [d] o o' → Claimed c o d now o' (.ok (some (.one (r.claimed now))))
  /-- The rendezvous was released: everyone had arrived, or time ran out under `dispatchReady`. -/
  | release (r : WriteRecord) (b : BatchId) (e : Batch) (rs : List WriteRecord) :
      o.HeadDue d now r → r.batch = some b → o.batches b = some e → e.gate = .waiting →
      (o.arrived e b now = e.members ∨
        elapsedPast c e.armedAt e.barrier.timeout now = some true ∧
          e.barrier.onTimeout = .dispatchReady) →
      ClaimsHeads now (o.arrived e b now).elems (o.resolved b e now .opened) o' →
      List.Forall₂ (fun m r' => ∃ id q r, HeadAt o m id q r ∧ r' = r.claimed now)
        (o.arrived e b now).elems rs →
      Claimed c o d now o' (.ok (some (.batch b rs)))
  /-- The head came late to a batch that had expired. -/
  | late (r : WriteRecord) (b : BatchId) (e : Batch) :
      o.HeadDue d now r → r.batch = some b → o.batches b = some e → e.gate = .abandoned →
      FailsHeads now [d] o o' → Claimed c o d now o' (.ok none)
  /-- Time ran out under `failBatch`. -/
  | expire (r : WriteRecord) (b : BatchId) (e : Batch) :
      o.HeadDue d now r → r.batch = some b → o.batches b = some e → e.gate = .waiting →
      o.arrived e b now ≠ e.members →
      elapsedPast c e.armedAt e.barrier.timeout now = some true →
      e.barrier.onTimeout = .failBatch →
      FailsHeads now (o.arrived e b now).elems (o.resolved b e now .abandoned) o' →
      Claimed c o d now o' (.ok none)

/-- Recording who has arrived changes no rendezvous. -/
theorem rendezvous_resolved_waiting {o : MemoryOutbox} {b : BatchId} {e : Batch} {now : Timestamp}
    (hb : o.batches b = some e) (hg : e.gate = .waiting) :
    (o.resolved b e now .waiting).rendezvous = o.rendezvous := by
  funext b'
  unfold rendezvous resolved setBatch
  by_cases h : b' = b
  · subst h
    simp only [Function.update_self, Option.map_some, hb]
    rw [← hg]
    rfl
  · simp only [Function.update_of_ne h]

/-- What evaluating batch `b`, in the table as `e`, decided when `d` came to it at `now`. -/
inductive Stepping (c : Chrono) (o : MemoryOutbox) (b : BatchId) (e : Batch) (d : DeviceId)
    (now : Timestamp) : MemoryOutbox × Except DrainError BatchStep → Prop
  | alone : e.gate = .opened → Stepping c o b e d now (o, .ok .alone)
  | late : e.gate = .abandoned → Stepping c o b e d now (o, .ok (.fail [d]))
  /-- The clock could not say whether the timeout has passed. -/
  | panicked : e.gate = .waiting → o.arrived e b now ≠ e.members →
      elapsedPast c e.armedAt e.barrier.timeout now = none →
      Stepping c o b e d now (o, .error .panicked)
  | wait : e.gate = .waiting → o.arrived e b now ≠ e.members →
      elapsedPast c e.armedAt e.barrier.timeout now = some false →
      Stepping c o b e d now (o.resolved b e now .waiting, .ok .wait)
  | release : e.gate = .waiting →
      (o.arrived e b now = e.members ∨
        elapsedPast c e.armedAt e.barrier.timeout now = some true ∧
          e.barrier.onTimeout = .dispatchReady) →
      Stepping c o b e d now (o.resolved b e now .opened, .ok (.release (o.arrived e b now).elems))
  | expire : e.gate = .waiting → o.arrived e b now ≠ e.members →
      elapsedPast c e.armedAt e.barrier.timeout now = some true →
      e.barrier.onTimeout = .failBatch →
      Stepping c o b e d now (o.resolved b e now .abandoned, .ok (.fail (o.arrived e b now).elems))

theorem stepBatch_spec (c : Chrono) {o : MemoryOutbox} {b : BatchId} {e : Batch}
    (he : o.batches b = some e) (d : DeviceId) (now : Timestamp) :
    Stepping c o b e d now (o.stepBatch c b d now) := by
  -- the gate decides first; only a waiting one looks at who has arrived
  cases hg : e.gate with
  | opened =>
      have hstep : o.stepBatch c b d now = (o, .ok .alone) := by simp only [stepBatch, he, hg]
      rw [hstep]
      exact .alone hg
  | abandoned =>
      have hstep : o.stepBatch c b d now = (o, .ok (.fail [d])) := by simp only [stepBatch, he, hg]
      rw [hstep]
      exact .late hg
  | waiting =>
      have harrived : (e.members.filter fun member => o.isReadyFor member b now)
          = o.arrived e b now := rfl
      unfold stepBatch
      rw [he]
      simp only [hg, harrived]
      by_cases hall : o.arrived e b now = e.members
      · rw [if_pos hall]
        exact .release hg (.inl hall)
      · rw [if_neg hall]
        cases hel : elapsedPast c e.armedAt e.barrier.timeout now with
        | none => exact .panicked hg hall hel
        | some past =>
            cases past with
            | false => exact .wait hg hall hel
            | true =>
                cases hpol : e.barrier.onTimeout with
                | dispatchReady => exact .release hg (.inr ⟨hel, hpol⟩)
                | failBatch => exact .expire hg hall hel hpol

/-- The case of a due head whose batch is in the table. -/
theorem claimNext_batched (c : Chrono) {o : MemoryOutbox} (hf : o.Filed) {d : DeviceId}
    {now : Timestamp} {r : WriteRecord} {b : BatchId} {e : Batch} (hdue : o.HeadDue d now r)
    (hbatch : r.batch = some b) (he : o.batches b = some e) :
    Claimed c o d now (o.claimNext c d now).1 (o.claimNext c d now).2 := by
  obtain ⟨id, q, hat⟩ := hf.headAt hdue
  have hbackoff : ¬ now.str < r.notBefore.str := by
    obtain ⟨_, _, _, _, hle⟩ := hdue
    exact not_lt.mpr hle
  have hnone : ∀ claim, (Except.ok none : Except DrainError (Option Claim)) ≠ .ok (some claim) :=
    fun _ h => by cases h
  have hnd := (o.arrived e b now).nodup
  -- resolving the batch moves no queue and no record, so the heads are where they were
  have hheads : ∀ gate, ∀ m ∈ (o.arrived e b now).elems,
      ∃ id q r, HeadAt (o.resolved b e now gate) m id q r := by
    intro gate m hm
    obtain ⟨_, r', hdue', _⟩ := mem_arrived.mp hm
    obtain ⟨id', q', hat'⟩ := hf.headAt hdue'
    exact ⟨id', q', r', hat'⟩
  have hspec := stepBatch_spec c he d now
  generalize hsb : o.stepBatch c b d now = step at hspec
  cases hspec with
  | alone hg =>
      have hstep : o.claimNext c d now
          = ((o.claimHead d now).1, .ok (some (.one (r.claimed now)))) := by
        simp [claimNext, hat.1, hat.2.1, hbackoff, hbatch, hsb, claimHead_eq hat, Except.map]
      rw [hstep]
      refine .one r hdue ?_ (claimsHeads_single now hat)
      intro b' hb'
      rw [hbatch] at hb'
      obtain rfl := Option.some.inj hb'
      exact ⟨e, he, hg⟩
  | late hg =>
      have hstep : o.claimNext c d now = ([d].foldl (failHead · now) o, .ok none) := by
        simp [claimNext, hat.1, hat.2.1, hbackoff, hbatch, hsb]
      rw [hstep]
      exact .late r b e hdue hbatch he hg
        (failsHeads_foldl (List.nodup_singleton d) now hat.single)
  | panicked hg hall hel =>
      have hstep : o.claimNext c d now = (o, .error .panicked) := by
        simp [claimNext, hat.1, hat.2.1, hbackoff, hbatch, hsb]
      rw [hstep]
      refine .idle _ (.waiting r b e hdue hbatch he hg hall (by rw [hel]; simp)) ?_
        rfl rfl rfl rfl rfl
      exact fun _ h => by cases h
  | wait hg hall hel =>
      have hstep : o.claimNext c d now = (o.resolved b e now .waiting, .ok none) := by
        simp [claimNext, hat.1, hat.2.1, hbackoff, hbatch, hsb]
      rw [hstep]
      exact .idle _ (.waiting r b e hdue hbatch he hg hall (by rw [hel]; simp)) hnone rfl rfl
        (rendezvous_resolved_waiting he hg) rfl rfl
  | release hg hwhy =>
      obtain ⟨rs, hclaim, hrs⟩ := claimAll_spec hnd now (hheads .opened)
      have hstep : o.claimNext c d now
          = ((o.arrived e b now).elems.foldl
              (actOnHead (fun log _ => log) (WriteRecord.claimed now)) (o.resolved b e now .opened),
            .ok (some (.batch b rs))) := by
        simp [claimNext, hat.1, hat.2.1, hbackoff, hbatch, hsb, hclaim, Except.map]
      rw [hstep]
      exact .release r b e rs hdue hbatch he hg hwhy (heads_foldl hnd (hheads .opened)) hrs
  | expire hg hall hel hpol =>
      have hstep : o.claimNext c d now
          = ((o.arrived e b now).elems.foldl (failHead · now) (o.resolved b e now .abandoned),
            .ok none) := by
        simp [claimNext, hat.1, hat.2.1, hbackoff, hbatch, hsb]
      rw [hstep]
      exact .expire r b e hdue hbatch he hg hall hel hpol
        (failsHeads_foldl hnd now (hheads .abandoned))

/-- **What `claim_next` does**, of an outbox whose queues are filed. -/
theorem claimNext_spec (c : Chrono) {o : MemoryOutbox} (hf : o.Filed) (d : DeviceId)
    (now : Timestamp) : Claimed c o d now (o.claimNext c d now).1 (o.claimNext c d now).2 := by
  have hnone : ∀ claim, (Except.ok none : Except DrainError (Option Claim)) ≠ .ok (some claim) :=
    fun _ h => by cases h
  cases hq : (o.logs d).queue with
  | nil =>
      have hstep : o.claimNext c d now = (o, .ok none) := by simp [claimNext, hq]
      rw [hstep]
      refine .idle _ (.notDue ?_) hnone rfl rfl rfl rfl rfl
      intro r hdue
      obtain ⟨id, q, hcons, _⟩ := hdue
      rw [hq] at hcons
      cases hcons
  | cons id q =>
      obtain ⟨r, hr, hdev, hst⟩ := hf d id (by rw [hq]; exact List.mem_cons_self ..)
      have hat : HeadAt o d id q r := ⟨hq, hr, hdev, hst⟩
      -- a head still serving its backoff blocks whatever is behind it
      by_cases hbackoff : now.str < r.notBefore.str
      · have hstep : o.claimNext c d now = (o, .ok none) := by simp [claimNext, hq, hr, hbackoff]
        rw [hstep]
        refine .idle _ (.notDue ?_) hnone rfl rfl rfl rfl rfl
        intro r' hdue
        obtain ⟨id', q', hq', hr', hle⟩ := hdue
        rw [hq] at hq'
        obtain ⟨rfl, _⟩ := List.cons.inj hq'
        rw [hr] at hr'
        obtain rfl := Option.some.inj hr'
        exact absurd hbackoff (not_lt.mpr hle)
      · have hdue : o.HeadDue d now r := ⟨id, q, hq, hr, not_lt.mp hbackoff⟩
        cases hbatch : r.batch with
        | none =>
            have hstep : o.claimNext c d now
                = ((o.claimHead d now).1, .ok (some (.one (r.claimed now)))) := by
              simp [claimNext, hq, hr, hbackoff, hbatch, claimHead_eq hat, Except.map]
            rw [hstep]
            refine .one r hdue ?_ (claimsHeads_single now hat)
            intro b hb
            rw [hbatch] at hb
            cases hb
        | some b =>
            cases he : o.batches b with
            | none =>
                have hstep : o.claimNext c d now = (o, .ok none) := by
                  simp [claimNext, hq, hr, hbackoff, hbatch, stepBatch, he]
                rw [hstep]
                exact .idle _ (.vanished r b hdue hbatch he) hnone rfl rfl rfl rfl rfl
            | some e =>
                exact claimNext_batched c hf hdue hbatch he

end Sismatic
