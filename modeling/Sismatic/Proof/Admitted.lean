import Sismatic.Proof.Conserved
import Sismatic.Proof.Fifo

/-!
# What a run admits

A submission that is accepted and is no repeat admits one write for each target, and
its answer names them. Collected over a run, these answers are the whole of every
device's history, in the order they were given. Where a write has got to is then
read off its record: the queues hold what is pending and nothing else.
-/

namespace Sismatic

open MemoryOutbox

/-- The writes a call admits, as its caller is told of them. -/
def admitted (o : MemoryOutbox) : Op → List Accepted
  | .submit s =>
      match o.replayed s, (o.submit s).2 with
      | none, .ok acceptance => acceptance.writes
      | _, _ => []
  | _ => []

/-- Every write a run admits, oldest first. -/
def admissions (c : Chrono) : MemoryOutbox → List Op → List Accepted
  | _, [] => []
  | o, op :: ops => admitted o op ++ admissions c (step c o op) ops

/-- The ids of `d`'s writes among these, in order. -/
def idsOf (d : DeviceId) (writes : List Accepted) : List WriteId :=
  (writes.filter fun a => decide (a.device = d)).map Accepted.id

theorem mem_idsOf {d : DeviceId} {writes : List Accepted} {w : WriteId} :
    w ∈ idsOf d writes ↔ ∃ a ∈ writes, a.device = d ∧ a.id = w := by
  simp [idsOf, and_assoc]

theorem idsOf_append (d : DeviceId) (xs ys : List Accepted) :
    idsOf d (xs ++ ys) = idsOf d xs ++ idsOf d ys := by
  simp [idsOf]

/-- The rows appended on a device are the ones its caller is told of. -/
theorem idsOf_accepted (d : DeviceId) (rows : List Row) :
    idsOf d (rows.map Row.accepted) = Lanes.onLane (rows.map Row.entry) d := by
  unfold idsOf Lanes.onLane
  rw [List.filter_map, List.filter_map, List.map_map, List.map_map]
  rfl

section Admitted

variable (c : Chrono) {o : MemoryOutbox}

/-- A submission that was refused, or answered from what was there, admits nothing. -/
theorem admitted_submit {s : Submission} (hnd : s.ids.Nodup) :
    ((o.submit s).1 = o ∧ admitted o (.submit s) = []) ∨
      ∃ rows, Appends s rows o (o.submit s).1 ∧
        (o.submit s).2 = .ok ⟨s.batch, rows.map Row.accepted⟩ ∧
        admitted o (.submit s) = rows.map Row.accepted := by
  have hspec := submit_spec o hnd
  generalize hres : (o.submit s).2 = res at hspec
  cases hspec with
  | refused e heq =>
      left
      refine ⟨heq, ?_⟩
      simp only [admitted, hres]
      cases o.replayed s <;> rfl
  | replayed acceptance heq hrep =>
      left
      refine ⟨heq, ?_⟩
      simp only [admitted, hrep]
  | appended rows _ hrep happ =>
      right
      refine ⟨rows, happ, rfl, ?_⟩
      simp only [admitted, hres, hrep]

/-- A history grows by what the call admits on that device. -/
theorem history_admitted (hc : Conserved o) {op : Op} (hfresh : Fresh o op) (d : DeviceId) :
    ((step c o op).logs d).history = (o.logs d).history ++ idsOf d (admitted o op) := by
  have hother : (∀ s, op ≠ .submit s) → admitted o op = [] →
      ((step c o op).logs d).history = (o.logs d).history ++ idsOf d (admitted o op) := by
    intro hop hnone
    rw [history_step c hc hfresh hop d, hnone]
    exact (List.append_nil _).symm
  cases op with
  | submit s =>
      rcases admitted_submit (o := o) hfresh.1 with ⟨hsame, hnone⟩ | ⟨rows, happ, _, hadm⟩
      · show ((o.submit s).1.logs d).history = _
        rw [hsame, hnone]
        exact (List.append_nil _).symm
      · rw [hadm, idsOf_accepted]
        exact happ.history d
  | claimNext d' now => exact hother (fun _ h => by cases h) rfl
  | settle id outcome now => exact hother (fun _ h => by cases h) rfl
  | observe d' state => exact hother (fun _ h => by cases h) rfl
  | cancelQueued d' reason => exact hother (fun _ h => by cases h) rfl
  | cancelBatch b reason => exact hother (fun _ h => by cases h) rfl

/-- **A history is the list of what was admitted**, in the order it was. -/
theorem history_run (hc : Conserved o) {ops : List Op}
    (hrun : Machine.Along (step c) Fresh o ops) (d : DeviceId) :
    ((Machine.exec (step c) o ops).logs d).history
      = (o.logs d).history ++ idsOf d (admissions c o ops) := by
  induction ops generalizing o with
  | nil => exact (List.append_nil _).symm
  | cons op ops ih =>
      rw [Machine.exec_cons, ih (conserved_step c hc hrun.1) hrun.2,
        history_admitted c hc hrun.1 d, List.append_assoc, ← idsOf_append]
      rfl

end Admitted

/-! ## Tries -/

/-- A waiting write has a try left, and no write has had more than there are. -/
def Tried (o : MemoryOutbox) : Prop :=
  ∀ w r, o.records w = some r →
    r.attempts ≤ o.maxAttempts ∧ (r.status = .pending → r.attempts < o.maxAttempts)

theorem tried_init (n : Nat) (backoff : Duration) : Tried (withMaxAttempts n backoff) := by
  intro w r hr
  cases hr

section Tries

variable {o o' : MemoryOutbox}

/-- A call that only ends waiting writes spends no try. -/
theorem tried_of_ended (h : Tried o) (hmax : o'.maxAttempts = o.maxAttempts)
    (hrecs : ∀ w r', o'.records w = some r' → o.records w = some r' ∨
      ∃ r, o.records w = some r ∧ r'.attempts = r.attempts ∧ r'.status ≠ .pending) : Tried o' := by
  intro w r' hr'
  rw [hmax]
  rcases hrecs w r' hr' with hold | ⟨r, hr, hatt, hst⟩
  · exact h w r' hold
  · rw [hatt]
    exact ⟨(h w r hr).1, fun hp => absurd hp hst⟩

theorem tried_heads {f : DeviceLog → WriteRecord → DeviceLog} {g : WriteRecord → WriteRecord}
    {ms : List DeviceId} {o₁ : MemoryOutbox} (h : Tried o) (hh : Heads f g ms o₁ o')
    (hrecs : o₁.records = o.records) (hmax : o₁.maxAttempts = o.maxAttempts)
    (hg : ∀ r, (g r).status ≠ .pending ∧ (g r).attempts ≤ r.attempts + 1) : Tried o' := by
  intro w r' hr'
  rw [hh.maxAttempts, hmax]
  rcases hh.cases w with ⟨m, _, q, r, hat, hrec⟩ | ⟨_, hrec⟩
  · rw [hrec] at hr'
    obtain rfl := Option.some.inj hr'
    have hleft := (h w r (hrecs ▸ hat.2.1)).2 hat.2.2.2
    exact ⟨by have := (hg r).2; omega, fun hp => absurd hp (hg r).1⟩
  · rw [hrec, hrecs] at hr'
    exact h w r' hr'

theorem tried_cancels {p : WriteId → Prop} {gone : BatchId → Prop} (h : Tried o)
    (hcan : Cancels p gone o o') : Tried o' := by
  refine tried_of_ended h hcan.maxAttempts ?_
  intro w r' hr'
  cases hr : o.records w with
  | none =>
      rw [hcan.records w (by simp [hr]), hr] at hr'
      cases hr'
  | some r =>
      rcases hcan.record hr with hkept | ⟨_, _, reason, hgone⟩
      · rw [hkept] at hr'
        exact .inl hr'
      · rw [hgone] at hr'
        obtain rfl := Option.some.inj hr'
        exact .inr ⟨r, rfl, rfl, fun h => by cases h⟩

theorem tried_settled {id : WriteId} {outcome : Outcome} {now : Timestamp}
    {res : Except DrainError Unit} (h : Tried o) (hset : Settled o id outcome now o' res) :
    Tried o' := by
  -- the one record settled, and the rest as they were
  have hupdate : ∀ r r' : WriteRecord, o.records id = some r →
      o'.records = Function.update o.records id (some r') → r'.attempts = r.attempts →
      (r'.status = .pending → r.attempts < o.maxAttempts) → o'.maxAttempts = o.maxAttempts →
      Tried o' := by
    intro r r' hr hrecs hatt hleft hmax w r₁ hr₁
    rw [hrecs] at hr₁
    rw [hmax]
    by_cases hw : w = id
    · subst hw
      rw [Function.update_self] at hr₁
      obtain rfl := Option.some.inj hr₁
      rw [hatt]
      exact ⟨(h w r hr).1, hleft⟩
    · rw [Function.update_of_ne hw] at hr₁
      exact h w r₁ hr₁
  cases hset with
  | refused what heq _ => rw [heq]; exact h
  | succeeded r value hr _ _ heq =>
      exact hupdate r _ hr (congrArg MemoryOutbox.records heq) rfl (fun hp => by cases hp)
        (by rw [heq]; rfl)
  | retried r reason notBefore updatedAt _ hr _ _ hatt _ hrecs _ hmax =>
      exact hupdate r _ hr hrecs rfl (fun _ => hatt) hmax
  | dead r reason hr _ _ _ _ hrecs _ hmax =>
      exact hupdate r _ hr hrecs rfl (fun hp => by cases hp) hmax

end Tries

/-- How many tries a write has is set when the outbox is built. -/
theorem maxAttempts_step (c : Chrono) {o : MemoryOutbox} (hc : Conserved o) {op : Op}
    (hfresh : Fresh o op) : (step c o op).maxAttempts = o.maxAttempts := by
  have hspec := step_spec c hc hfresh
  generalize step c o op = o' at hspec ⊢
  cases hspec with
  | submitted s _ hsub =>
      cases hsub with
      | refused e heq => rw [heq]
      | replayed acceptance heq _ => rw [heq]
      | appended rows _ _ happ => exact happ.maxAttempts
  | claimed d now _ hclaim =>
      cases hclaim with
      | idle _ _ _ _ _ _ _ hmax => exact hmax
      | one _ _ _ hh => exact hh.maxAttempts
      | release _ _ _ _ _ _ _ _ _ hh => exact hh.maxAttempts
      | late _ _ _ _ _ _ _ hh => exact hh.maxAttempts
      | expire _ _ _ _ _ _ _ _ _ _ hh => exact hh.maxAttempts
  | settled id outcome now _ hset =>
      cases hset with
      | refused what heq _ => rw [heq]
      | succeeded r value _ _ _ heq => rw [heq]; rfl
      | retried _ _ _ _ _ _ _ _ _ _ _ _ hmax => exact hmax
      | dead _ _ _ _ _ _ _ _ _ hmax => exact hmax
  | observed d state heq => rw [heq]; rfl
  | canceledQueue d reason hcan => exact hcan.maxAttempts
  | canceledBatch b reason hcan => exact hcan.maxAttempts

/-- **Tries are counted**: by the claim alone, and only while there are some left. -/
theorem tried_step (c : Chrono) {o : MemoryOutbox} (hc : Conserved o) (h : Tried o)
    (hmax : 0 < o.maxAttempts) {op : Op} (hfresh : Fresh o op) : Tried (step c o op) := by
  have hspec := step_spec c hc hfresh
  generalize step c o op = o' at hspec ⊢
  cases hspec with
  | submitted s _ hsub =>
      cases hsub with
      | refused e heq => rw [heq]; exact h
      | replayed acceptance heq _ => rw [heq]; exact h
      | appended rows _ _ happ =>
          intro w r' hr'
          rw [happ.maxAttempts]
          by_cases hw : w ∈ s.ids
          · rw [← happ.ids] at hw
            obtain ⟨row, hrow, rfl⟩ := List.mem_map.mp hw
            rw [happ.new row hrow] at hr'
            obtain rfl := Option.some.inj hr'
            exact ⟨Nat.zero_le _, fun _ => hmax⟩
          · rw [happ.old w hw] at hr'
            exact h w r' hr'
  | claimed d now _ hclaim =>
      have hclaimed : ∀ r : WriteRecord, (r.claimed now).status ≠ .pending ∧
          (r.claimed now).attempts ≤ r.attempts + 1 := fun r => ⟨by simp [WriteRecord.claimed], le_refl _⟩
      have hexpired : ∀ r : WriteRecord, (r.expired now).status ≠ .pending ∧
          (r.expired now).attempts ≤ r.attempts + 1 :=
        fun r => ⟨by simp [WriteRecord.expired], Nat.le_succ _⟩
      cases hclaim with
      | idle _ _ _ _ hrecs _ _ hmax' =>
          intro w r' hr'
          rw [hrecs] at hr'
          rw [hmax']
          exact h w r' hr'
      | one _ _ _ hh => exact tried_heads h hh rfl rfl hclaimed
      | release _ _ _ _ _ _ _ _ _ hh => exact tried_heads h hh rfl rfl hclaimed
      | late _ _ _ _ _ _ _ hh => exact tried_heads h hh rfl rfl hexpired
      | expire _ _ _ _ _ _ _ _ _ _ hh => exact tried_heads h hh rfl rfl hexpired
  | settled id outcome now _ hset => exact tried_settled h hset
  | observed d state heq => rw [heq]; exact h
  | canceledQueue d reason hcan => exact tried_cancels h hcan
  | canceledBatch b reason hcan => exact tried_cancels h hcan

/-! ## Row conservation -/

/-- Write `w` waits for `d` and for no other device, and once. -/
def MemoryOutbox.QueuedOnce (o : MemoryOutbox) (d : DeviceId) (w : WriteId) : Prop :=
  (o.logs d).queue.count w = 1 ∧ ∀ d', d' ≠ d → w ∉ (o.logs d').queue

/-- A write waits in one queue, once, exactly when its record says it waits. -/
theorem Conserved.pending_iff {o : MemoryOutbox} (hc : Conserved o) {w : WriteId}
    {r : WriteRecord} (hr : o.records w = some r) :
    (r.status = .pending ↔ ∃ d, o.QueuedOnce d w) ∧
      (r.status ≠ .pending → ∀ d, w ∉ (o.logs d).queue) := by
  have hqueue : ∀ d, w ∈ (o.logs d).queue ↔ r.device = d ∧ r.status = .pending := by
    intro d
    refine (hc.board.queue_iff d w).trans ?_
    rw [Lanes.Board.at_iff (board_item hr), ← WriteStatus.phase_queued]
    rfl
  refine ⟨⟨?_, ?_⟩, ?_⟩
  · intro hst
    refine ⟨r.device, ?_, ?_⟩
    · exact List.count_eq_one_of_mem (hc.board.queue_nodup r.device) ((hqueue _).mpr ⟨rfl, hst⟩)
    · intro d' hd' hmem
      exact hd' ((hqueue d').mp hmem).1.symm
  · intro h'
    obtain ⟨d, hone, _⟩ := h'
    exact ((hqueue d).mp (List.count_pos_iff.mp (by omega))).2
  · intro hst d hmem
    exact hst ((hqueue d).mp hmem).2

/-- A write that has ended stays as it ended, over any run. -/
theorem terminal_run (c : Chrono) {o : MemoryOutbox} (hc : Conserved o) {ops : List Op}
    (hrun : Machine.Along (step c) Fresh o ops) {w : WriteId} {r : WriteRecord}
    (hr : o.records w = some r) (hterm : r.status.terminal) :
    (Machine.exec (step c) o ops).records w = some r := by
  have hstep : ∀ o op, (Conserved o ∧ o.records w = some r) → Fresh o op →
      (Conserved (step c o op) ∧ (step c o op).records w = some r) := by
    intro o op hinv hfresh
    obtain ⟨hc, hr⟩ := hinv
    obtain ⟨r', hr', hev⟩ := record_step c hc hfresh hr
    rw [hev.terminal hterm] at hr'
    exact ⟨conserved_step c hc hfresh, hr'⟩
  exact (Machine.exec_invariant hstep hrun ⟨hc, hr⟩).2

theorem tried_run (c : Chrono) (n : Nat) (backoff : Duration) {ops : List Op}
    (hrun : Machine.Along (step c) Fresh (withMaxAttempts n backoff) ops) :
    Tried (Machine.exec (step c) (withMaxAttempts n backoff) ops) ∧
      (Machine.exec (step c) (withMaxAttempts n backoff) ops).maxAttempts = max n 1 := by
  have hstep : ∀ o op, (Conserved o ∧ Tried o ∧ o.maxAttempts = max n 1) → Fresh o op →
      (Conserved (step c o op) ∧ Tried (step c o op) ∧ (step c o op).maxAttempts = max n 1) := by
    intro o op hinv hfresh
    obtain ⟨hc, htried, hmax⟩ := hinv
    exact ⟨conserved_step c hc hfresh, tried_step c hc htried (by omega) hfresh,
      (maxAttempts_step c hc hfresh).trans hmax⟩
  exact (Machine.exec_invariant hstep hrun
    ⟨conserved_init n backoff, tried_init n backoff, rfl⟩).2

/--
**Rows are conserved** over every run from an empty outbox whose retry bound is `n`
(a `0` is read as `1`). A write that was admitted waits in one queue, once, exactly
when its record says so, and otherwise in none; one that has ended stays as it is;
no write is tried more often than the bound; every id in a queue or a history has a
record; and a device's history is what was admitted for it, in order and once.
-/
theorem rows_conserved (c : Chrono) (n : Nat) (backoff : Duration) (ops : List Op)
    (hrun : Machine.Along (step c) Fresh (withMaxAttempts n backoff) ops) (o : MemoryOutbox)
    (ho : o = Machine.exec (step c) (withMaxAttempts n backoff) ops) :
    (∀ a ∈ admissions c (withMaxAttempts n backoff) ops, ∃ r, o.records a.id = some r ∧
        r.device = a.device ∧ (r.status = .pending ↔ ∃ d, o.QueuedOnce d a.id) ∧
        (r.status ≠ .pending → ∀ d, a.id ∉ (o.logs d).queue)) ∧
      (∀ earlier later, ops = earlier ++ later → ∀ w r,
        (Machine.exec (step c) (withMaxAttempts n backoff) earlier).records w = some r →
        r.status.terminal → o.records w = some r) ∧
      (∀ w r, o.records w = some r → r.attempts ≤ max n 1) ∧
      (∀ d w, w ∈ (o.logs d).queue ∨ w ∈ (o.logs d).history → ∃ r, o.records w = some r) ∧
      ∀ d, (o.logs d).history = idsOf d (admissions c (withMaxAttempts n backoff) ops) ∧
        (o.logs d).history.Nodup := by
  have hc : Conserved o := ho ▸ conserved_run c n backoff hrun
  have hhist : ∀ d, (o.logs d).history
      = idsOf d (admissions c (withMaxAttempts n backoff) ops) := by
    intro d
    rw [ho, history_run c (conserved_init n backoff) hrun d]
    rfl
  refine ⟨?_, ?_, ?_, ?_, ?_⟩
  · intro a ha
    have hmem : a.id ∈ (o.logs a.device).history := by
      rw [hhist]
      exact mem_idsOf.mpr ⟨a, ha, rfl, rfl⟩
    obtain ⟨r, hr, hdev⟩ := hc.device_of_mem_history hmem
    exact ⟨r, hr, hdev, hc.pending_iff hr⟩
  · intro earlier later hsplit w r hr hterm
    subst hsplit
    rw [Machine.along_append] at hrun
    rw [ho, Machine.exec_append]
    exact terminal_run c (conserved_run c n backoff hrun.1) hrun.2 hr hterm
  · intro w r hr
    obtain ⟨htried, hmax⟩ := tried_run c n backoff hrun
    rw [← ho] at htried hmax
    exact hmax ▸ (htried w r hr).1
  · intro d w hw
    rcases hw with hq | hh
    · obtain ⟨r, hr, _⟩ := hc.tidy.filed d w hq
      exact ⟨r, hr⟩
    · obtain ⟨r, hr, _⟩ := hc.device_of_mem_history hh
      exact ⟨r, hr⟩
  · exact fun d => ⟨hhist d, hc.board.history_nodup d⟩

/-- A group start and a setting behind it: `d` was asked for two things, in this order. -/
theorem rows_conserved_overtakingRun :
    ((Machine.exec (step utc) (withMaxAttempts 3 1000000000) overtakingRun).logs "d").history
        = ["w2", "w3"] ∧
      ((Machine.exec (step utc) (withMaxAttempts 3 1000000000) overtakingRun).logs
        "d").history.Nodup := by
  obtain ⟨_, _, _, _, hhist⟩ :=
    rows_conserved utc 3 1000000000 overtakingRun overtakingRun_fresh _ rfl
  refine ⟨(hhist "d").1.trans ?_, (hhist "d").2⟩
  decide +kernel

end Sismatic
