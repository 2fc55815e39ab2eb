import Sismatic.Proof.Table
import Sismatic.Proof.Fifo
import Mathlib.Data.List.Find

/-!
# When a repeated request is given its first answer

A key is remembered under the first target and never forgotten, so a repeat always
finds the write it first produced, and never writes anything. What it is answered
with is rebuilt on the spot: from that one write, if it is of no batch, and from the
batch's table entry otherwise. The one is right for a request to one device. The
other is right while the entry still lists the targets, in the order they were given.
-/

namespace Sismatic

open MemoryOutbox

/-! ## What an answer is rebuilt from -/

/-- The record as an acceptance. -/
def WriteRecord.accepted (r : WriteRecord) : Accepted := ⟨r.id, r.device, r.epoch⟩

theorem SameWrite.accepted {r r' : WriteRecord} (h : SameWrite r r') : r'.accepted = r.accepted := by
  simp only [WriteRecord.accepted, h.id, h.device, h.epoch]

namespace MemoryOutbox

/-- The write the key of `s` first produced, as the first target remembers it. -/
def known (o : MemoryOutbox) (s : Submission) : Option WriteRecord := do
  let key ← s.idempotencyKey
  let target ← s.targets.head?
  let existing ← (o.logs target).keys key
  o.records existing

/-- The members the table still has for `b`, in order. -/
def memberList (o : MemoryOutbox) (b : BatchId) : List DeviceId :=
  ((o.batches b).map fun e => e.members.elems).getD []

/-- The newest row of `b` in `d`'s history. -/
def newestRow (o : MemoryOutbox) (b : BatchId) (d : DeviceId) : Option WriteId :=
  (o.logs d).history.reverse.find? fun w => (o.records w).any fun r => decide (r.batch = some b)

/-- What `d`'s newest row of `b` is answered as. -/
def rowAnswer (o : MemoryOutbox) (b : BatchId) (d : DeviceId) : Option Accepted :=
  (o.newestRow b d).bind fun w => (o.records w).map WriteRecord.accepted

theorem batchAcceptances_eq (o : MemoryOutbox) (b : BatchId) :
    o.batchAcceptances b = (o.memberList b).filterMap (o.rowAnswer b) := by
  unfold batchAcceptances memberList
  cases he : o.batches b with
  | none => rfl
  | some e =>
      simp only [Option.map_some, Option.getD_some, List.map_filterMap]
      refine List.filterMap_congr ?_
      intro d _
      rw [List.find?_filterMap]
      unfold rowAnswer newestRow
      rw [Option.map_bind]
      rfl

theorem memberList_nodup (o : MemoryOutbox) (b : BatchId) : (o.memberList b).Nodup := by
  unfold memberList
  cases he : o.batches b with
  | none => exact List.nodup_nil
  | some e => exact e.members.nodup

theorem mem_memberList {o : MemoryOutbox} {b : BatchId} {d : DeviceId} :
    d ∈ o.memberList b ↔ ∃ v, o.rendezvous b = some v ∧ d ∈ v.members := by
  unfold memberList rendezvous
  cases he : o.batches b with
  | none => simp
  | some e =>
      simp only [Option.map_some, Option.getD_some, Option.some.injEq, exists_eq_left']
      exact Iff.rfl

theorem replayed_eq {o : MemoryOutbox} {s : Submission} : o.replayed s = (o.known s).map fun r =>
    ⟨r.batch, match r.batch with
      | some b => o.batchAcceptances b
      | none => [r.accepted]⟩ := by
  unfold replayed known
  cases s.idempotencyKey with
  | none => rfl
  | some key =>
      cases s.targets.head? with
      | none => rfl
      | some target =>
          cases hk : (o.logs target).keys key with
          | none => simp [hk]
          | some existing =>
              cases hr : o.records existing with
              | none => simp [hk, hr]
              | some r => simp [hk, hr]; rfl

end MemoryOutbox

section Rows

variable {o : MemoryOutbox} {b : BatchId} {d : DeviceId}

theorem newestRow_some (hc : Conserved o) {w : WriteId} (h : o.newestRow b d = some w) :
    ∃ r, o.RowOf b w r ∧ r.device = d ∧ o.rowAnswer b d = some r.accepted := by
  have hbatch := List.find?_some h
  have hmem := List.mem_of_find?_eq_some h
  obtain ⟨r, hr, hdev⟩ := hc.device_of_mem_history (List.mem_reverse.mp hmem)
  rw [hr] at hbatch
  refine ⟨r, ⟨hr, by simpa using hbatch⟩, hdev, ?_⟩
  rw [rowAnswer, h]
  simp [hr]

/-- A device with a row of the batch has a newest one. -/
theorem exists_newestRow (hc : Conserved o) (h : ∃ w r, o.RowOf b w r ∧ r.device = d) :
    ∃ w, o.newestRow b d = some w := by
  obtain ⟨w, r, hrow, rfl⟩ := h
  refine Option.isSome_iff_exists.mp (List.find?_isSome.mpr ⟨w, ?_, ?_⟩)
  · exact List.mem_reverse.mpr (hc.mem_history hrow.1)
  · rw [hrow.1]
    simpa using hrow.2

/-- What is rebuilt of a batch names the members the table still has, in its order. -/
theorem batchAcceptances_devices (hc : Conserved o) (hm : MembersFiled o) :
    (o.batchAcceptances b).map Accepted.device = o.memberList b := by
  rw [batchAcceptances_eq]
  have hall : ∀ d ∈ o.memberList b, ∃ a, o.rowAnswer b d = some a ∧ a.device = d := by
    intro d hd
    obtain ⟨v, hv, hin⟩ := mem_memberList.mp hd
    obtain ⟨w, hw⟩ := exists_newestRow hc (hm b v hv d hin)
    obtain ⟨r, _, hdev, hans⟩ := newestRow_some hc hw
    exact ⟨_, hans, hdev⟩
  generalize o.memberList b = ds at hall
  induction ds with
  | nil => rfl
  | cons d ds ih =>
      obtain ⟨a, ha, hdev⟩ := hall d (List.mem_cons_self ..)
      rw [List.filterMap_cons_some ha, List.map_cons, hdev,
        ih fun d' hd' => hall d' (List.mem_cons_of_mem _ hd')]

/-- A batch with a row gets no newer one: its id is taken. -/
theorem newestRow_step (c : Chrono) (hc : Conserved o) {op : Op} (hfresh : Fresh o op)
    (hrow : ∃ w r, o.RowOf b w r) : (step c o op).newestRow b d = o.newestRow b d := by
  obtain ⟨new, hhist, hnew⟩ := history_grows c hc hfresh d
  -- a row this call filed is of another batch: `b` is no longer a fresh id
  have hother : ∀ w ∈ new, ((step c o op).records w).any
      (fun r => decide (r.batch = some b)) = false := by
    intro w hw
    cases hr' : (step c o op).records w with
    | none => rfl
    | some r' =>
        obtain ⟨s, rows, row, rfl, _, _, _, rfl⟩ := record_new c hc hfresh (hnew w hw) hr'
        obtain ⟨w₀, r₀, hr₀, hb₀⟩ := hrow
        have hne : s.batch ≠ some b := fun hb => hfresh.2.2 b hb w₀ r₀ hr₀ hb₀
        simpa [Row.record] using hne
  have hkeep : ∀ w ∈ (o.logs d).history.reverse,
      ((step c o op).records w).any (fun r => decide (r.batch = some b))
        = (o.records w).any (fun r => decide (r.batch = some b)) := by
    intro w hw
    obtain ⟨r, hr, _⟩ := hc.device_of_mem_history (List.mem_reverse.mp hw)
    obtain ⟨r', hr', hev⟩ := record_step c hc hfresh hr
    rw [hr, hr']
    simp only [Option.any_some, hev.sameWrite.batch]
  unfold newestRow
  rw [hhist, List.reverse_append, List.find?_append, List.find?_congr hkeep]
  have hnone : new.reverse.find? (fun w => ((step c o op).records w).any
      fun r => decide (r.batch = some b)) = none := by
    refine List.find?_eq_none.mpr ?_
    intro w hw
    rw [hother w (List.mem_reverse.mp hw)]
    simp
  rw [hnone, Option.none_or]

/-- A batch's rows are answered the same after any call, whatever became of them. -/
theorem rowAnswer_step (c : Chrono) (hc : Conserved o) {op : Op} (hfresh : Fresh o op)
    (hrow : ∃ w r, o.RowOf b w r) : (step c o op).rowAnswer b d = o.rowAnswer b d := by
  unfold rowAnswer
  rw [newestRow_step c hc hfresh hrow]
  cases hw : o.newestRow b d with
  | none => rfl
  | some w =>
      obtain ⟨r, hr, _, _⟩ := newestRow_some hc hw
      obtain ⟨r', hr', hev⟩ := record_step c hc hfresh hr.1
      simp only [Option.bind_some, hr.1, hr', Option.map_some, hev.sameWrite.accepted]

end Rows

/-! ## Keys are never forgotten -/

/-- A submission under another key, or no submission. -/
def OtherKey (k : String) : Op → Prop
  | .submit s => s.idempotencyKey ≠ some k
  | _ => True

theorem keys_step (c : Chrono) {o : MemoryOutbox} (hc : Conserved o) {op : Op}
    (hfresh : Fresh o op) {k : String} (hother : OtherKey k op) (d : DeviceId) :
    ((step c o op).logs d).keys k = (o.logs d).keys k := by
  by_cases hsub : ∃ s, op = .submit s
  · obtain ⟨s, rfl⟩ := hsub
    have hspec := submit_spec o hfresh.1
    show ((o.submit s).1.logs d).keys k = _
    generalize (o.submit s).1 = o', (o.submit s).2 = res at hspec
    cases hspec with
    | refused e heq => rw [heq]
    | replayed acceptance heq _ => rw [heq]
    | appended rows _ _ happ => exact happ.otherKey d k hother
  · rw [(log_step c hc hfresh (fun s hs => hsub ⟨s, hs⟩) d).keys]

/-! ## The answer over a run -/

/-- What a run keeps of a write some key names. -/
structure Answers (k : String) (t : DeviceId) (w : WriteId) (r : WriteRecord)
    (answer : DeviceId → Option Accepted) (o : MemoryOutbox) : Prop where
  conserved : Conserved o
  membersFiled : MembersFiled o
  key : (o.logs t).keys k = some w
  record : ∃ r', o.records w = some r' ∧ SameWrite r r'
  answer : ∀ b, r.batch = some b → ∀ d, o.rowAnswer b d = answer d

theorem answers_run (c : Chrono) {k : String} {t : DeviceId} {w : WriteId} {r : WriteRecord}
    {answer : DeviceId → Option Accepted} {o : MemoryOutbox} (h : Answers k t w r answer o)
    {ops : List Op} (hrun : Machine.Along (step c) (fun o op => Fresh o op ∧ OtherKey k op) o ops) :
    Answers k t w r answer (Machine.exec (step c) o ops) := by
  have hstep : ∀ o op, Answers k t w r answer o → Fresh o op ∧ OtherKey k op →
      Answers k t w r answer (step c o op) := by
    intro o op h hop
    obtain ⟨r', hr', hsame⟩ := h.record
    refine ⟨conserved_step c h.conserved hop.1, membersFiled_step c h.conserved h.membersFiled hop.1,
      ?_, ?_, ?_⟩
    · rw [keys_step c h.conserved hop.1 hop.2, h.key]
    · obtain ⟨r₁, hr₁, hev⟩ := record_step c h.conserved hop.1 hr'
      exact ⟨r₁, hr₁, hsame.trans hev.sameWrite⟩
    · intro b hb d
      rw [rowAnswer_step c h.conserved hop.1 ⟨w, r', hr', hsame.batch.trans hb⟩, h.answer b hb d]
  exact Machine.exec_invariant hstep hrun h

/--
Whether a repeat of `s`, first made in `o`, can be given its first answer in `o'`.
If the key was already known in `o`, its batch must still list the members it listed
then. If it was not, a request of no batch must be for one device, and a batch must
list exactly the targets, in the order they were given.
-/
def Replayable (o : MemoryOutbox) (s : Submission) (o' : MemoryOutbox) : Prop :=
  match o.known s with
  | some r => ∀ b, r.batch = some b → o'.memberList b = o.memberList b
  | none =>
      match s.batch with
      | none => s.targets.length = 1
      | some b => o'.memberList b = s.targets

/-- What a repeat is answered with. -/
def WriteRecord.replay (r : WriteRecord) (o : MemoryOutbox) : Acceptance :=
  ⟨r.batch, match r.batch with
    | some b => o.batchAcceptances b
    | none => [r.accepted]⟩

/-- A repeat under a key the first target knows writes nothing, and is answered from the record. -/
theorem submit_of_known {o : MemoryOutbox} {s : Submission} {k : String} {t : DeviceId}
    {ts : List DeviceId} {w : WriteId} {r : WriteRecord} (hkey : s.idempotencyKey = some k)
    (ht : s.targets = t :: ts) (hlen : s.ids.length = s.targets.length)
    (hk : (o.logs t).keys k = some w) (hr : o.records w = some r) :
    o.submit s = (o, .ok (r.replay o)) := by
  have hknown : o.known s = some r := by
    simp [known, hkey, ht, hk, hr]
  have hreplayed : o.replayed s = some (r.replay o) := by
    rw [replayed_eq, hknown]
    rfl
  have hne : s.targets ≠ [] := by rw [ht]; simp
  rw [MemoryOutbox.submit, if_neg hne, if_neg (not_not.mpr hlen), hreplayed]

/-- The same write is answered the same, apart from its batch's rows. -/
theorem SameWrite.replay_eq_iff {r r' : WriteRecord} (h : SameWrite r r') {o o' : MemoryOutbox} :
    r'.replay o' = r.replay o ↔
      ∀ b, r.batch = some b → o'.batchAcceptances b = o.batchAcceptances b := by
  unfold WriteRecord.replay
  rw [h.batch]
  cases hb : r.batch with
  | none => simp [h.accepted]
  | some b => simp

/-- Two states that answer every device's row alike answer the batch alike if they list it alike. -/
theorem batchAcceptances_eq_iff {o o' : MemoryOutbox} {b : BatchId} (hc : Conserved o)
    (hm : MembersFiled o) (hc' : Conserved o') (hm' : MembersFiled o')
    (hans : ∀ d, o'.rowAnswer b d = o.rowAnswer b d) :
    o'.batchAcceptances b = o.batchAcceptances b ↔ o'.memberList b = o.memberList b := by
  refine ⟨?_, ?_⟩
  · intro heq
    rw [← batchAcceptances_devices hc' hm', ← batchAcceptances_devices hc hm, heq]
  · intro heq
    rw [batchAcceptances_eq, batchAcceptances_eq, heq]
    exact List.filterMap_congr fun d _ => hans d

/-- The rows of a batch just filed, answered in target order. -/
theorem filterMap_rowAnswer_appends {o o' : MemoryOutbox} {s : Submission} {rows : List Row}
    {b : BatchId} (hc' : Conserved o') (hfresh : Fresh o (.submit s)) (hb : s.batch = some b)
    (happ : Appends s rows o o') (hnd : s.targets.Nodup) :
    s.targets.filterMap (o'.rowAnswer b) = rows.map Row.accepted := by
  rw [← happ.targets] at hnd ⊢
  rw [List.filterMap_map, ← List.filterMap_eq_map]
  refine List.filterMap_congr ?_
  intro row hrow
  show o'.rowAnswer b row.device = some row.accepted
  obtain ⟨w, hw⟩ := exists_newestRow hc' ⟨row.id, row.record s, ⟨happ.new row hrow, hb⟩, rfl⟩
  obtain ⟨r, hr, hdev, hans⟩ := newestRow_some hc' hw
  -- the id is new to the table, so the row found is one just filed, and the device tells which
  rcases rowOf_appends happ hr with hold | ⟨_, row', hrow', _, rfl⟩
  · exact absurd hold.2 (hfresh.2.2 b hb w r hold.1)
  · obtain rfl := List.inj_on_of_nodup_map hnd hrow' hrow hdev
    exact hans

/-- A repeat finds the write its key named, and is answered from it, however much later. -/
theorem repeat_found (c : Chrono) {o o' : MemoryOutbox} (hc : Conserved o) (hm : MembersFiled o)
    {k : String} {later : List Op}
    (hlater : Machine.Along (step c) (fun o op => Fresh o op ∧ OtherKey k op) o later)
    (ho' : o' = Machine.exec (step c) o later) {s : Submission} {t : DeviceId} {ts : List DeviceId}
    (hkey : s.idempotencyKey = some k) (ht : s.targets = t :: ts)
    (hlen : s.ids.length = s.targets.length) {w : WriteId} {r : WriteRecord}
    (hr : o.records w = some r) (hk : (o.logs t).keys k = some w) :
    ∃ r', SameWrite r r' ∧ Conserved o' ∧ MembersFiled o' ∧
      o'.submit s = (o', .ok (r'.replay o')) ∧
      ∀ b, r.batch = some b → ∀ d, o'.rowAnswer b d = o.rowAnswer b d := by
  -- what every device's row of the write's batch, if it has one, is answered as
  let answer := fun d => r.batch.bind fun b => o.rowAnswer b d
  have hans : Answers k t w r answer o := by
    refine ⟨hc, hm, hk, ⟨r, hr, .refl r⟩, ?_⟩
    intro b hb d
    simp only [answer, hb, Option.bind_some]
  have hend := answers_run c hans hlater
  rw [← ho'] at hend
  obtain ⟨r', hr', hsame⟩ := hend.record
  refine ⟨r', hsame, hend.conserved, hend.membersFiled,
    submit_of_known hkey ht hlen hend.key hr', ?_⟩
  intro b hb d
  rw [hend.answer b hb d]
  simp only [answer, hb, Option.bind_some]

/-- When what a repeat is answered with is what the rows just filed were answered with. -/
theorem replay_eq_accepted_iff {o o' : MemoryOutbox} {s : Submission} {rows : List Row}
    (hfresh : Fresh o (.submit s)) {o₁ : MemoryOutbox} (hc₁ : Conserved o₁)
    (happ : Appends s rows o o₁) (hc' : Conserved o') (hm' : MembersFiled o') {row : Row}
    (hrow : row ∈ rows) {r' : WriteRecord} (hsame : SameWrite (row.record s) r')
    (hans : ∀ b, s.batch = some b → ∀ d, o'.rowAnswer b d = o₁.rowAnswer b d) :
    r'.replay o' = ⟨s.batch, rows.map Row.accepted⟩ ↔
      match s.batch with
      | none => s.targets.length = 1
      | some b => o'.memberList b = s.targets := by
  have hlength : rows.length = s.targets.length := by
    rw [← happ.targets, List.length_map]
  cases hb : s.batch with
  | none =>
      -- answered from the one record: right when there was one row
      have hb' : r'.batch = none := hsame.batch.trans hb
      have hone : r'.replay o' = ⟨none, [row.accepted]⟩ := by
        unfold WriteRecord.replay
        rw [hb', hsame.accepted]
        rfl
      rw [hone]
      simp only [Acceptance.mk.injEq, true_and]
      refine ⟨?_, ?_⟩
      · intro heq
        have hlen := congrArg List.length heq
        simp only [List.length_cons, List.length_nil, List.length_map] at hlen
        omega
      · intro hlen
        obtain ⟨row₀, hrows⟩ := List.length_eq_one_iff.mp (hlength.trans hlen)
        rw [hrows] at hrow ⊢
        rw [List.mem_singleton.mp hrow]
        rfl
  | some b =>
      have hb' : r'.batch = some b := hsame.batch.trans hb
      -- answered from the table: right when it lists the targets as they were given
      have hall : r'.replay o' = ⟨some b, o'.batchAcceptances b⟩ := by
        unfold WriteRecord.replay
        rw [hb']
      rw [hall]
      simp only [Acceptance.mk.injEq, true_and]
      refine ⟨?_, ?_⟩
      · intro heq
        have hdevs := congrArg (List.map Accepted.device) heq
        rw [batchAcceptances_devices hc' hm', List.map_map] at hdevs
        exact hdevs.trans happ.targets
      · intro heq
        have hnd : s.targets.Nodup := heq ▸ memberList_nodup o' b
        rw [batchAcceptances_eq, heq, ← filterMap_rowAnswer_appends hc₁ hfresh hb happ hnd]
        exact List.filterMap_congr fun d _ => hans b hb d

/--
**Idempotent replay, exactly.** A request under a key is accepted in a state some run
reaches, and repeated, for the same targets, after any further run that uses other
keys. The repeat is given the first answer, and changes nothing, if and only if it is
replayable.
-/
theorem replay_iff_replayable (c : Chrono) (n : Nat) (backoff : Duration) (first later : List Op)
    (hfirst : Machine.Along (step c) Fresh (withMaxAttempts n backoff) first)
    (o : MemoryOutbox) (ho : o = Machine.exec (step c) (withMaxAttempts n backoff) first)
    (s : Submission) (k : String) (hkey : s.idempotencyKey = some k) (hs : Fresh o (.submit s))
    (acceptance : Acceptance) (hok : (o.submit s).2 = .ok acceptance)
    (hlater : Machine.Along (step c) (fun o op => Fresh o op ∧ OtherKey k op) (o.submit s).1 later)
    (o' : MemoryOutbox) (ho' : o' = Machine.exec (step c) (o.submit s).1 later)
    (s' : Submission) (htargets : s'.targets = s.targets)
    (hkey' : s'.idempotencyKey = some k) (hlen : s'.ids.length = s'.targets.length) :
    o'.submit s' = (o', .ok acceptance) ↔ Replayable o s o' := by
  have hbase : Conserved o ∧ MembersFiled o := by
    have hstep : ∀ o op, (Conserved o ∧ MembersFiled o) → Fresh o op →
        (Conserved (step c o op) ∧ MembersFiled (step c o op)) := fun _ _ h hf =>
      ⟨conserved_step c h.1 hf, membersFiled_step c h.1 h.2 hf⟩
    rw [ho]
    refine Machine.exec_invariant hstep hfirst ⟨conserved_init n backoff, ?_⟩
    intro b v hv
    cases hv
  have hc₁ : Conserved (o.submit s).1 := conserved_step c hbase.1 hs
  have hm₁ : MembersFiled (o.submit s).1 := membersFiled_step c hbase.1 hbase.2 hs
  have hspec := submit_spec o hs.1
  rw [hok] at hspec
  cases ht : s.targets with
  | nil =>
      exfalso
      rw [MemoryOutbox.submit, if_pos ht] at hok
      cases hok
  | cons t ts =>
      have ht' : s'.targets = t :: ts := htargets.trans ht
      have hanswer : ∀ {r'}, o'.submit s' = (o', .ok (WriteRecord.replay r' o')) →
          (o'.submit s' = (o', .ok acceptance) ↔ r'.replay o' = acceptance) := by
        intro r' heq
        rw [heq]
        simp
      unfold Replayable
      cases hspec with
      | replayed _ hsame hrep =>
          -- the first call was a repeat itself, and left the state as it found it
          rw [replayed_eq] at hrep
          obtain ⟨r, hknown, hacc⟩ := Option.map_eq_some_iff.mp hrep
          rw [hknown]
          have hstate : ∃ w, o.records w = some r ∧ (o.logs t).keys k = some w := by
            simp only [known, hkey, ht, List.head?_cons, Option.bind_eq_bind, Option.bind_some] at hknown
            obtain ⟨w, hw, hr⟩ := Option.bind_eq_some_iff.mp hknown
            exact ⟨w, hr, hw⟩
          obtain ⟨w, hr, hk⟩ := hstate
          obtain ⟨r', hsw, hc', hm', hsub, hans⟩ := repeat_found c hc₁ hm₁ hlater ho' hkey' ht' hlen
            (hsame.symm ▸ hr) (hsame.symm ▸ hk)
          rw [hanswer hsub, ← show r.replay o = acceptance from hacc, hsw.replay_eq_iff]
          refine forall_congr' fun b => forall_congr' fun hb => ?_
          refine batchAcceptances_eq_iff hbase.1 hbase.2 hc' hm' fun d => ?_
          rw [hans b hb d, hsame]
      | appended rows _ hrep happ =>
          have hunknown : o.known s = none := by
            rw [replayed_eq, Option.map_eq_none_iff] at hrep
            exact hrep
          rw [hunknown]
          obtain ⟨row, hrow, hdev, hk⟩ := happ.key t (by rw [ht]; exact List.mem_cons_self ..) k hkey
          obtain ⟨r', hsw, hc', hm', hsub, hans⟩ := repeat_found c hc₁ hm₁ hlater ho' hkey' ht' hlen
            (happ.new row hrow) hk
          rw [hanswer hsub]
          exact replay_eq_accepted_iff hs hc₁ happ hc' hm' hrow hsw hans

/-- Start `a` and `b`, each for itself, under a key. -/
def startBoth : Submission where
  ids := ["w1", "w2"]
  targets := ["a", "b"]
  group := none
  batch := none
  barrier := none
  intent := .startRecording
  atTime := tenOClock "00"
  idempotencyKey := some "k"

/-- The same request again, with ids minted anew. -/
def startBothAgain : Submission := { startBoth with ids := ["w3", "w4"], atTime := tenOClock "05" }

/-- Two writes were accepted; the repeat, made at once, is told of one. -/
theorem replay_startBoth :
    ∃ acceptance, ((withMaxAttempts 3 1000000000).submit startBoth).2 = .ok acceptance ∧
      ((withMaxAttempts 3 1000000000).submit startBoth).1.submit startBothAgain
        ≠ (((withMaxAttempts 3 1000000000).submit startBoth).1, .ok acceptance) := by
  refine ⟨_, rfl, ?_⟩
  intro h
  have hwrites : ((((withMaxAttempts 3 1000000000).submit startBoth).1.submit startBothAgain).2.map
      fun a => a.writes.length).toOption = some 2 := by rw [h]; rfl
  exact absurd hwrites (by decide +kernel)

/-- The exact condition, on that request. -/
theorem replay_iff_startBoth :
    ∃ acceptance, ((withMaxAttempts 3 1000000000).submit startBoth).2 = .ok acceptance ∧
      (((withMaxAttempts 3 1000000000).submit startBoth).1.submit startBothAgain
          = (((withMaxAttempts 3 1000000000).submit startBoth).1, .ok acceptance) ↔
        Replayable (withMaxAttempts 3 1000000000) startBoth
          ((withMaxAttempts 3 1000000000).submit startBoth).1) :=
  ⟨_, rfl, replay_iff_replayable utc 3 1000000000 [] [] trivial _ rfl startBoth "k" rfl
    ⟨by decide, fun _ _ => rfl, fun _ h => by cases h⟩ _ rfl trivial _ rfl startBothAgain rfl rfl rfl⟩

end Sismatic
