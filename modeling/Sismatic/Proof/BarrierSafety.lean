import Sismatic.Proof.Barrier
import Sismatic.Proof.Fifo

/-!
# Barrier safety

What a batch's members may rely on, over any run: the batch goes out once; what goes
out is one row of it for each member released; under `failBatch` it goes out whole
or, once it has expired, not at all; and under `dispatchReady` nobody is left behind
before the timeout.

The gate carries all of it. A gate that has left `waiting` never moves again, because
the only call that arms a batch brings an id no row carries.
-/

namespace Sismatic

open MemoryOutbox

/-! ## The gate over a step -/

section Gate

variable {o : MemoryOutbox} {b : BatchId}

/--
A batched row goes in flight through its batch's gate: alone, once it has opened, or
with everyone who had arrived when it was released.
-/
theorem gate_of_claimed (c : Chrono) (h : Guarded o) {op : Op} (hmint : Minted o op)
    {w : WriteId} {r' : WriteRecord} (hrow : (step c o op).RowOf b w r') (hno : ¬ o.InFlight w)
    (hst : r'.status = .inFlight) :
    ∃ d now e, op = .claimNext d now ∧ o.batches b = some e ∧
      (e.gate = .opened ∨
        e.gate = .waiting ∧ o.Releasable c b e now ∧
          ∀ m ∈ o.arrived e b now, ∃ id q r, HeadAt o m id q r ∧
            (step c o op).records id = some (r.claimed now)) := by
  obtain ⟨taken, hmove, htaken⟩ := step_move c h.conserved hmint.1
  have hbusy : (step c o op).board.At .busy r'.device w :=
    board_at.mpr ⟨r', hrow.1, rfl, by rw [hst]; rfl⟩
  have hidle : ¬ o.board.At .busy r'.device w := by
    intro hb
    obtain ⟨r, hr, _, hphase⟩ := board_at.mp hb
    exact hno ⟨r, hr, WriteStatus.phase_busy.mp hphase⟩
  -- a row newly in flight is the head of a lane the call took, so the call is a claim
  obtain ⟨hd, _, hqueued⟩ := hmove.taken_of_busy h.conserved.board hidle hbusy
  have htakes := (htaken _).mp hd
  cases op with
  | claimNext d now =>
      refine ⟨d, now, ?_⟩
      have hspec := claimNext_spec c h.conserved.tidy.filed d now
      change (o.claimNext c d now).1.RowOf b w r' at hrow
      show ∃ e, _ ∧ _ ∧ (_ ∨ _ ∧ _ ∧ ∀ m ∈ o.arrived e b now, ∃ id q r, HeadAt o m id q r ∧
        (o.claimNext c d now).1.records id = some (r.claimed now))
      generalize (o.claimNext c d now).1 = o' at hspec hrow
      generalize (o.claimNext c d now).2 = res at hspec
      obtain ⟨r₀, hr₀, _, hphase⟩ := board_at.mp hqueued
      have hpend := WriteStatus.phase_queued.mp hphase
      cases hspec with
      | idle _ _ _ _ hrecs =>
          have hr := hrow.1
          rw [hrecs, hr₀] at hr
          obtain rfl := Option.some.inj hr
          rw [hpend] at hst
          cases hst
      | one r hdue hopen hheads =>
          rcases rowOf_heads hheads (fun _ => rfl) hrow with ⟨m, hm, q, r₁, hat, hrow₁, _⟩ | ⟨_, hold⟩
          · rw [List.mem_singleton] at hm
            subst hm
            obtain rfl := headAt_of_due hdue hat
            obtain ⟨e, he, hg⟩ := hopen b hrow₁.2
            exact ⟨e, rfl, he, .inl hg⟩
          · exact absurd ⟨r', hold.1, hst⟩ hno
      | release r b' e rs hdue hb' he hg hwhy hheads =>
          rcases rowOf_heads hheads (fun _ => rfl) hrow with ⟨m, hm, q, r₁, hat, hrow₁, _⟩ | ⟨_, hold⟩
          · have harr := headAt_arrived hm hat
            obtain rfl := Option.some.inj (hrow₁.2.symm.trans harr)
            refine ⟨e, rfl, he, .inr ⟨hg, hwhy, ?_⟩⟩
            intro m' hm'
            obtain ⟨id, q', r₂, hat', _, hrec⟩ := hheads.head m' hm'
            exact ⟨id, q', r₂, hat', hrec⟩
          · exact absurd ⟨r', hold.1, hst⟩ hno
      | late r b' e hdue hb' he hg hheads =>
          rcases rowOf_heads hheads (fun _ => rfl) hrow with ⟨m, hm, q, r₁, hat, _, heq⟩ | ⟨_, hold⟩
          · rw [heq] at hst
            cases hst
          · exact absurd ⟨r', hold.1, hst⟩ hno
      | expire r b' e hdue hb' he hg hne hel hpol hheads =>
          rcases rowOf_heads hheads (fun _ => rfl) hrow with ⟨m, hm, q, r₁, hat, _, heq⟩ | ⟨_, hold⟩
          · rw [heq] at hst
            cases hst
          · exact absurd ⟨r', hold.1, hst⟩ hno
  | _ => exact htakes.elim

end Gate

/-! ## The pieces -/

section Pieces

variable {c : Chrono} {o : MemoryOutbox} {b : BatchId} {d : DeviceId} {now : Timestamp}
  {rs : List WriteRecord}

/-- A claim that answers with a batch released it. -/
theorem released_of_answer (h : Guarded o)
    (hans : (o.claimNext c d now).2 = .ok (some (.batch b rs))) :
    ∃ r e, o.HeadDue d now r ∧ r.batch = some b ∧ o.batches b = some e ∧ e.gate = .waiting ∧
      o.Releasable c b e now ∧
      ClaimsHeads now (o.arrived e b now).elems (o.resolved b e now .opened)
        (o.claimNext c d now).1 ∧
      List.Forall₂ (fun m r' => ∃ id q r, HeadAt o m id q r ∧ r' = r.claimed now)
        (o.arrived e b now).elems rs := by
  have hspec := claimNext_spec c h.conserved.tidy.filed d now
  rw [hans] at hspec
  cases hspec with
  | idle _ _ hres => exact absurd rfl (hres _)
  | release r _ e _ hdue hb he hg hwhy hheads hrs => exact ⟨r, e, hdue, hb, he, hg, hwhy, hheads, hrs⟩

/-- A batch that has left `waiting` for good. -/
structure Resolved (gate : Gate) (o : MemoryOutbox) (b : BatchId) : Prop where
  row : ∃ w r, o.RowOf b w r
  gate : ∀ v, o.rendezvous b = some v → v.gate = gate

theorem resolved_step {gate : Gate} (hgate : gate ≠ .waiting) (h : Guarded o) {op : Op}
    (hmint : Minted o op) (hres : Resolved gate o b) : Resolved gate (step c o op) b where
  row := by
    obtain ⟨w, r, hrow⟩ := hres.row
    obtain ⟨r', hrow', _⟩ := rowOf_step c h.conserved hmint.1 hrow
    exact ⟨w, r', hrow'⟩
  gate := by
    intro v' hv'
    obtain ⟨v, hv, hfollows⟩ := rendezvous_follows c h.conserved hmint.1 hres.row hv'
    rw [hfollows.gate (by rw [hres.gate v hv]; exact hgate), hres.gate v hv]

theorem resolved_run {gate : Gate} (hgate : gate ≠ .waiting) (h : Guarded o)
    (hres : Resolved gate o b) {ops : List Op} (hrun : Machine.Along (step c) Minted o ops) :
    Resolved gate (Machine.exec (step c) o ops) b := by
  have hstep : ∀ o op, (Guarded o ∧ Resolved gate o b) → Minted o op →
      (Guarded (step c o op) ∧ Resolved gate (step c o op) b) :=
    fun _ _ hi hm => ⟨guarded_step c hi.1 hm, resolved_step hgate hi.1 hm hi.2⟩
  exact (Machine.exec_invariant hstep hrun ⟨h, hres⟩).2

/-- Releasing a batch leaves it resolved. -/
theorem resolved_of_answer (h : Guarded o)
    (hans : (o.claimNext c d now).2 = .ok (some (.batch b rs))) :
    Resolved .opened (step c o (.claimNext d now)) b := by
  obtain ⟨r, e, hdue, hb, _, _, _, hheads, _⟩ := released_of_answer h hans
  refine ⟨?_, ?_⟩
  · obtain ⟨id, q, hat⟩ := h.conserved.tidy.filed.headAt hdue
    obtain ⟨r', hrow', _⟩ := rowOf_step c h.conserved
      (show Fresh o (.claimNext d now) from trivial)
      ⟨hat.2.1, hb⟩
    exact ⟨id, r', hrow'⟩
  · intro v hv
    change (o.claimNext c d now).1.rendezvous b = some v at hv
    rw [rendezvous_heads hheads, rendezvous_resolved_self] at hv
    obtain rfl := Option.some.inj hv
    rfl

/-- **A batch is released once.** -/
theorem released_once (h : Guarded o)
    (hans : (o.claimNext c d now).2 = .ok (some (.batch b rs))) {ops : List Op}
    (hrun : Machine.Along (step c) Minted (step c o (.claimNext d now)) ops) (d' : DeviceId)
    (now' : Timestamp) (rs' : List WriteRecord) :
    ((Machine.exec (step c) (step c o (.claimNext d now)) ops).claimNext c d' now').2
      ≠ .ok (some (.batch b rs')) := by
  intro hans'
  have h₁ : Guarded (step c o (.claimNext d now)) := guarded_step c h ⟨trivial, trivial⟩
  -- the gate has opened for good, and a release needs it waiting
  have hres := resolved_run (by simp) h₁ (resolved_of_answer h hans) hrun
  obtain ⟨_, e, _, _, he, hg, _⟩ := released_of_answer (guarded_run c h₁ hrun) hans'
  have hopen := hres.gate e.rendezvous (rendezvous_eq he)
  rw [show e.gate = .opened from hopen] at hg
  cases hg

/-- **What is released is one row for each member released**, in device order, and nothing else. -/
theorem released_rows (h : Guarded o)
    (hans : (o.claimNext c d now).2 = .ok (some (.batch b rs))) :
    (∃ e, o.batches b = some e ∧ rs.map (·.device) = (o.arrived e b now).elems) ∧
      (∀ r ∈ rs, r.batch = some b ∧ r.status = .inFlight ∧ ¬ o.InFlight r.id ∧
        (step c o (.claimNext d now)).records r.id = some r) ∧
      ∀ w, ¬ o.InFlight w → (step c o (.claimNext d now)).InFlight w → w ∈ rs.map (·.id) := by
  obtain ⟨_, e, _, _, he, hg, _, hheads, hrs⟩ := released_of_answer h hans
  refine ⟨⟨e, he, ?_⟩, ?_, ?_⟩
  -- each record answered with is its member's head, claimed
  · have hdev : List.Forall₂ (fun m (r' : WriteRecord) => r'.device = m)
        (o.arrived e b now).elems rs := by
      refine hrs.imp ?_
      intro m r' h'
      obtain ⟨id, q, r, hat, rfl⟩ := h'
      exact hat.2.2.1
    have heq := List.forall₂_map_right_iff.mpr (hdev.imp fun _ _ hd => hd.symm)
    rw [List.forall₂_eq_eq_eq] at heq
    exact heq.symm
  · intro r' hr'
    obtain ⟨m, hm, id, q, r, hat, rfl⟩ : ∃ m ∈ (o.arrived e b now).elems, ∃ id q r,
        HeadAt o m id q r ∧ r' = r.claimed now := by
      obtain ⟨i, hi, rfl⟩ := List.mem_iff_getElem.mp hr'
      have hlen := hrs.length_eq
      have hi' : i < (o.arrived e b now).elems.length := by omega
      exact ⟨_, List.getElem_mem hi', List.Forall₂.get hrs hi' hi⟩
    have hid : r.id = id := h.conserved.named id r hat.2.1
    have hbatch : r.batch = some b := headAt_arrived hm hat
    refine ⟨hbatch, rfl, ?_, ?_⟩
    · intro h'
      obtain ⟨r₁, hr₁, hst⟩ := h'
      change o.records r.id = some r₁ at hr₁
      rw [hid, hat.2.1] at hr₁
      obtain rfl := Option.some.inj hr₁
      rw [hat.2.2.2] at hst
      cases hst
    · obtain ⟨id', q', r₁, hat', _, hrec⟩ := hheads.head m hm
      obtain ⟨rfl, _, rfl⟩ := HeadAt.unique hat hat'
      show (o.claimNext c d now).1.records r.id = _
      rw [hid, hrec]
  · intro w hno h'
    obtain ⟨r', hr', hst⟩ := h'
    change (o.claimNext c d now).1.records w = some r' at hr'
    rcases hheads.cases w with ⟨m, hm, q, r, hat, hrec⟩ | ⟨_, hrec⟩
    · rw [hrec] at hr'
      obtain rfl := Option.some.inj hr'
      obtain ⟨i, hi, hmi⟩ := List.mem_iff_getElem.mp hm
      have hi' : i < rs.length := by rw [← hrs.length_eq]; exact hi
      obtain ⟨id, q', r₁, hat₁, heq⟩ := List.Forall₂.get hrs hi hi'
      simp only [List.get_eq_getElem, hmi] at hat₁
      obtain ⟨rfl, _, rfl⟩ := HeadAt.unique hat hat₁
      refine List.mem_map.mpr ⟨rs[i], List.getElem_mem hi', ?_⟩
      rw [List.get_eq_getElem] at heq
      rw [heq]
      exact h.conserved.named w r hat.2.1
    · rw [hrec] at hr'
      exact absurd ⟨r', hr', hst⟩ hno

/-- Whatever is in the table has a row filed under it. -/
def Listed (o : MemoryOutbox) : Prop := ∀ b v, o.rendezvous b = some v → ∃ w r, o.RowOf b w r

theorem listed_step (h : Guarded o) (hlist : Listed o) {op : Op} (hmint : Minted o op) :
    Listed (step c o op) := by
  intro b v' hv'
  rcases rendezvous_step c h.conserved hmint.1 hv' with ⟨v, hv, _⟩ | ⟨s, rows, _, hb, htargets, happ, _⟩
  · obtain ⟨w, r, hrow⟩ := hlist b v hv
    obtain ⟨r', hrow', _⟩ := rowOf_step c h.conserved hmint.1 hrow
    exact ⟨w, r', hrow'⟩
  · cases hrows : rows with
    | nil =>
        have hnil := happ.targets
        rw [hrows] at hnil
        exact absurd hnil.symm htargets
    | cons row rest =>
        have hmem : row ∈ rows := by rw [hrows]; exact List.mem_cons_self ..
        exact ⟨row.id, row.record s, happ.new row hmem, hb⟩

/-- Batch `b` has expired: its gate is shut for good. -/
def MemoryOutbox.Expired (o : MemoryOutbox) (b : BatchId) : Prop :=
  ∃ e, o.batches b = some e ∧ e.gate = .abandoned

/-- A turn taken past the deadline of a `failBatch` batch that is not complete expires it. -/
theorem expired_of_deadline (h : Guarded o) {e : Batch} (hat : o.AtBatch d now b e)
    (hg : e.gate = .waiting) (hpol : e.barrier.onTimeout = .failBatch)
    (hne : o.arrived e b now ≠ e.members)
    (hel : elapsedPast c e.armedAt e.barrier.timeout now = some true) :
    (step c o (.claimNext d now)).Expired b := by
  have hspec := claimNext_spec c h.conserved.tidy.filed d now
  show (o.claimNext c d now).1.Expired b
  generalize (o.claimNext c d now).1 = o' at hspec
  generalize (o.claimNext c d now).2 = res at hspec
  have hgate : ∀ {b' e' r}, o.HeadDue d now r → r.batch = some b' → o.batches b' = some e' →
      b' = b ∧ e' = e := by
    intro b' e' r hdue hb he
    exact AtBatch.unique ⟨r, hdue, hb, he⟩ hat
  cases hspec with
  | idle _ hblocked =>
      cases hblocked with
      | notDue hno =>
          obtain ⟨r, hdue, _⟩ := hat
          exact absurd hdue (hno r)
      | vanished r b' hdue hb hnone =>
          obtain ⟨r', hdue', hb', he⟩ := hat
          obtain rfl := hdue.unique hdue'
          obtain rfl := Option.some.inj (hb.symm.trans hb')
          rw [hnone] at he
          cases he
      | waiting r b' e' hdue hb he _ _ hel' =>
          obtain ⟨rfl, rfl⟩ := hgate hdue hb he
          exact absurd hel hel'
  | one r hdue hopen =>
      have hopened := Alone.gate ⟨r, hdue, hopen⟩ hat
      rw [hopened] at hg
      cases hg
  | release r b' e' rs hdue hb he _ hwhy =>
      obtain ⟨rfl, rfl⟩ := hgate hdue hb he
      rcases hwhy with hall | ⟨_, hpol'⟩
      · exact absurd hall hne
      · rw [hpol] at hpol'
        cases hpol'
  | late r b' e' hdue hb he hg' =>
      obtain ⟨rfl, rfl⟩ := hgate hdue hb he
      rw [hg] at hg'
      cases hg'
  | expire r b' e' hdue hb he _ _ _ _ hheads =>
      obtain ⟨rfl, rfl⟩ := hgate hdue hb he
      refine ⟨{ e' with ready := o.arrived e' b' now, gate := .abandoned }, ?_, rfl⟩
      rw [hheads.batches]
      exact Function.update_self ..

/-- **Once a batch has expired, none of its rows is ever claimed.** -/
theorem expired_never_claimed (h : Guarded o) (hlist : Listed o) (hexp : o.Expired b)
    {ops : List Op} (hrun : Machine.Along (step c) Minted o ops) :
    ∀ w r, (Machine.exec (step c) o ops).RowOf b w r → r.status ≠ .inFlight := by
  -- carried along: the gate stays abandoned, so whatever would claim a row finds it shut
  have hres : Resolved .abandoned o b := by
    obtain ⟨e, he, hg⟩ := hexp
    refine ⟨hlist b _ (rendezvous_eq he), ?_⟩
    intro v hv
    obtain rfl := Option.some.inj ((rendezvous_eq he).symm.trans hv)
    exact hg
  have hstart : ∀ w r, o.RowOf b w r → r.status ≠ .inFlight := by
    obtain ⟨e, he, hg⟩ := hexp
    exact fun w r hw => (((h.batch b).abandoned _ (rendezvous_eq he) hg).2 w r hw).2
  have hstep : ∀ o op, (Guarded o ∧ Resolved .abandoned o b ∧
        ∀ w r, o.RowOf b w r → r.status ≠ .inFlight) → Minted o op →
      (Guarded (step c o op) ∧ Resolved .abandoned (step c o op) b ∧
        ∀ w r, (step c o op).RowOf b w r → r.status ≠ .inFlight) := by
    intro o op h' hmint
    obtain ⟨hg, hr, hno⟩ := h'
    refine ⟨guarded_step c hg hmint, resolved_step (by simp) hg hmint hr, ?_⟩
    intro w r' hw hst
    have hidle : ¬ o.InFlight w := by
      intro h'
      obtain ⟨r, hr', hst'⟩ := h'
      obtain ⟨r₁, hr₁, hev⟩ := record_step c hg.conserved hmint.1 hr'
      obtain rfl := Option.some.inj (hw.1.symm.trans hr₁)
      exact hno w r ⟨hr', hev.sameWrite.batch ▸ hw.2⟩ hst'
    obtain ⟨_, _, e, _, he, hgate⟩ := gate_of_claimed c hg hmint hw hidle hst
    have hab : e.gate = .abandoned := hr.gate e.rendezvous (rendezvous_eq he)
    rcases hgate with hopen | ⟨hwait, _⟩
    · rw [hab] at hopen
      cases hopen
    · rw [hab] at hwait
      cases hwait
  exact (Machine.exec_invariant hstep hrun ⟨h, hres, hstart⟩).2.2

/-- Batch `b` is what submission `s` armed, as far as the table still knows it. -/
structure ArmedBy (s : Submission) (b : BatchId) (o : MemoryOutbox) : Prop where
  row : ∃ w r, o.RowOf b w r
  policy : ∀ v, o.rendezvous b = some v → v.barrier = (armedBatch s).barrier
  waiting : ∀ v, o.rendezvous b = some v → v.gate = .waiting → v = (armedBatch s).rendezvous

theorem armedBy_submit {s : Submission} (hmint : Minted o (.submit s))
    (hb : s.batch = some b) (hnew : o.replayed s = none) {acceptance : Acceptance}
    (hok : (o.submit s).2 = .ok acceptance) : ArmedBy s b (step c o (.submit s)) := by
  have hspec := submit_spec o hmint.1.1
  rw [hok] at hspec
  have hrv : (step c o (.submit s)).rendezvous b = some (armedBatch s).rendezvous := by
    cases hspec with
    | replayed _ _ hrep => rw [hnew] at hrep; cases hrep
    | appended rows _ _ happ => exact (rendezvous_appends happ).trans (if_pos hb)
  have hfollow : ∀ v, (step c o (.submit s)).rendezvous b = some v →
      v = (armedBatch s).rendezvous := fun v hv => Option.some.inj (hv.symm.trans hrv)
  refine ⟨?_, fun v hv => by rw [hfollow v hv]; rfl, fun v hv _ => hfollow v hv⟩
  cases hspec with
  | replayed _ _ hrep => rw [hnew] at hrep; cases hrep
  | appended rows htargets _ happ =>
      cases hrows : rows with
      | nil =>
          have hnil := happ.targets
          rw [hrows] at hnil
          exact absurd hnil.symm htargets
      | cons row rest =>
          have hmem : row ∈ rows := by rw [hrows]; exact List.mem_cons_self ..
          exact ⟨row.id, row.record s, happ.new row hmem, hb⟩

theorem armedBy_step (h : Guarded o) {s : Submission} {op : Op} (hmint : Minted o op)
    (harm : ArmedBy s b o) : ArmedBy s b (step c o op) where
  row := by
    obtain ⟨w, r, hrow⟩ := harm.row
    obtain ⟨r', hrow', _⟩ := rowOf_step c h.conserved hmint.1 hrow
    exact ⟨w, r', hrow'⟩
  policy := by
    intro v' hv'
    obtain ⟨v, hv, hfollows⟩ := rendezvous_follows c h.conserved hmint.1 harm.row hv'
    rw [hfollows.barrier, harm.policy v hv]
  waiting := by
    intro v' hv' hg
    obtain ⟨v, hv, hfollows⟩ := rendezvous_follows c h.conserved hmint.1 harm.row hv'
    cases hfollows with
    | same => exact harm.waiting v' hv hg
    | resolved gate _ hne => exact absurd hg hne
    | without w r hrow hst =>
        -- a row in flight: the batch cannot be waiting
        have hpend := ((h.batch b).waiting v hv hg w r hrow).1
        rw [hst] at hpend
        cases hpend

/-- The state a run from a submission that armed `b` reaches. -/
theorem armedBy_run (h : Guarded o) {s : Submission} (harm : ArmedBy s b o) {ops : List Op}
    (hrun : Machine.Along (step c) Minted o ops) :
    ArmedBy s b (Machine.exec (step c) o ops) := by
  have hstep : ∀ o op, (Guarded o ∧ ArmedBy s b o) → Minted o op →
      (Guarded (step c o op) ∧ ArmedBy s b (step c o op)) :=
    fun _ _ hi hm => ⟨guarded_step c hi.1 hm, armedBy_step hi.1 hm hi.2⟩
  exact (Machine.exec_invariant hstep hrun ⟨h, harm⟩).2

/-- No row of `b` has been dispatched so far. -/
def Undispatched (b : BatchId) (o : MemoryOutbox) : Prop :=
  ∀ w r, o.RowOf b w r → r.status ≠ .inFlight

/-- Rows that are never dispatched are never tried. -/
theorem untried_of_undispatched (h : Guarded o) (hrows : ∀ w r, o.RowOf b w r → r.attempts = 0)
    {ops : List Op} (hrun : Machine.Along (step c) Minted o ops)
    (hno : Machine.Along (step c) (fun o op => Undispatched b (step c o op)) o ops) :
    ∀ w r, (Machine.exec (step c) o ops).RowOf b w r → r.attempts = 0 := by
  have hstep : ∀ o op, (Guarded o ∧ ∀ w r, o.RowOf b w r → r.attempts = 0) →
      (Minted o op ∧ Undispatched b (step c o op)) →
      (Guarded (step c o op) ∧ ∀ w r, (step c o op).RowOf b w r → r.attempts = 0) := by
    intro o op hinv hok
    obtain ⟨h, hrows⟩ := hinv
    refine ⟨guarded_step c h hok.1, ?_⟩
    intro w r' hw
    cases hr : o.records w with
    | none =>
        obtain ⟨s, rows, row, _, _, _, _, rfl⟩ := record_new c h.conserved hok.1.1 hr hw.1
        rfl
    | some r =>
        obtain ⟨r₁, hr₁, hev⟩ := record_step c h.conserved hok.1.1 hr
        obtain rfl := Option.some.inj (hw.1.symm.trans hr₁)
        have hatt := hrows w r ⟨hr, hev.sameWrite.batch ▸ hw.2⟩
        cases hev with
        | same => exact hatt
        -- a row is tried by being claimed, which would put it in flight
        | claimed now _ => exact absurd rfl (hok.2 w _ hw)
        | settled _ _ _ _ _ => exact hatt
        | dropped _ _ _ _ _ => exact hatt
  exact (Machine.exec_invariant hstep (Machine.along_and.mpr ⟨hrun, hno⟩) ⟨h, hrows⟩).2

/-- **Under `failBatch` the first dispatch of a batch is of all of it.** -/
theorem first_dispatch_whole (h : Guarded o) {s : Submission} (harm : ArmedBy s b o)
    (hpol : (armedBatch s).barrier.onTimeout = .failBatch)
    (huntried : ∀ w r, o.RowOf b w r → r.attempts = 0)
    (hsome : ¬ Undispatched b (step c o (.claimNext d now))) :
    ∀ m ∈ s.targets, ∃ w r, (step c o (.claimNext d now)).RowOf b w r ∧ r.device = m ∧
      r.status = .inFlight := by
  unfold Undispatched at hsome
  push Not at hsome
  obtain ⟨w, r', hrow', hst⟩ := hsome
  -- the row was not in flight before: an untried row cannot be
  have hidle : ¬ o.InFlight w := by
    intro h'
    obtain ⟨r, hr, hst'⟩ := h'
    obtain ⟨r₁, hr₁, hev⟩ := record_step c h.conserved
      (show Fresh o (.claimNext d now) from trivial) hr
    obtain rfl := Option.some.inj (hrow'.1.symm.trans hr₁)
    have hzero := huntried w r ⟨hr, hev.sameWrite.batch ▸ hrow'.2⟩
    have hpos := h.conserved.board.busy_tried w r.item (board_item hr)
      (by rw [WriteRecord.item, hst']; rfl)
    simp only [WriteRecord.item] at hpos
    omega
  obtain ⟨_, _, e, heq, he, hgate⟩ := gate_of_claimed c h
    (show Minted o (.claimNext d now) from ⟨trivial, trivial⟩) hrow' hidle hst
  obtain ⟨rfl, rfl⟩ := Op.claimNext.inj heq
  have hrv := rendezvous_eq he
  have hpol' : e.barrier.onTimeout = .failBatch := by
    rw [show e.barrier = (armedBatch s).barrier from harm.policy _ hrv]
    exact hpol
  rcases hgate with hopen | ⟨hwait, hrel, hheads⟩
  · -- an opened gate under `failBatch` would mean the batch had already gone out
    obtain ⟨w₀, r₀, hrow₀⟩ := harm.row
    have hpos := (h.batch b).opened _ hrv hopen hpol' w₀ r₀ hrow₀
    have hzero := huntried w₀ r₀ hrow₀
    omega
  · have hall : o.arrived e b now = e.members := by
      rcases hrel with hall | ⟨_, hready⟩
      · exact hall
      · rw [hpol'] at hready
        cases hready
    have hmem : e.members = OrderedSet.ofList s.targets :=
      congrArg Rendezvous.members (harm.waiting _ hrv hwait)
    intro m hm
    have harr : m ∈ o.arrived e b now := by
      rw [hall, hmem]
      exact OrderedSet.mem_ofList.mpr hm
    obtain ⟨id, q, r, hat, hrec⟩ := hheads m harr
    have hbatch : r.batch = some b := headAt_arrived harr hat
    exact ⟨id, r.claimed now, ⟨hrec, hbatch⟩, hat.2.2.1, rfl⟩

/-- **Nobody is left behind before the timeout.** -/
theorem left_behind_late (h : Guarded o) {s : Submission} (harm : ArmedBy s b o)
    (hans : (o.claimNext c d now).2 = .ok (some (.batch b rs))) {m : DeviceId}
    (hm : m ∈ s.targets) (hout : m ∉ rs.map (·.device)) :
    elapsedPast c s.atTime (armedBatch s).barrier.timeout now = some true := by
  obtain ⟨_, e, _, _, he, hg, hrel, _, _⟩ := released_of_answer h hans
  obtain ⟨⟨e', he', hdev⟩, _⟩ := released_rows h hans
  obtain rfl := Option.some.inj (he.symm.trans he')
  have harmed := harm.waiting _ (rendezvous_eq he) hg
  rcases hrel with hall | ⟨hel, _⟩
  · exfalso
    apply hout
    rw [hdev, hall, show e.members = OrderedSet.ofList s.targets from
      congrArg Rendezvous.members harmed]
    exact OrderedSet.mem_ofList.mpr hm
  · rw [show e.armedAt = s.atTime from congrArg Rendezvous.armedAt harmed,
      show e.barrier = (armedBatch s).barrier from congrArg Rendezvous.barrier harmed] at hel
    exact hel

end Pieces

/-! ## Over every run -/

/-- A state some run of the outbox ends in, ids minted apart and targets distinct. -/
def Reachable (c : Chrono) (o : MemoryOutbox) : Prop :=
  ∃ n backoff ops, Machine.Along (step c) Minted (withMaxAttempts n backoff) ops ∧
    Machine.exec (step c) (withMaxAttempts n backoff) ops = o

theorem guarded_reachable {c : Chrono} {o : MemoryOutbox} (h : Reachable c o) :
    Guarded o ∧ Listed o := by
  obtain ⟨n, backoff, ops, hrun, rfl⟩ := h
  have hstep : ∀ o op, (Guarded o ∧ Listed o) → Minted o op →
      (Guarded (step c o op) ∧ Listed (step c o op)) :=
    fun _ _ hi hm => ⟨guarded_step c hi.1 hm, listed_step hi.1 hi.2 hm⟩
  refine Machine.exec_invariant hstep hrun ⟨guarded_init n backoff, ?_⟩
  intro b v hv
  cases hv

/-- The rows of a batch just armed are untried. -/
theorem untried_submit {c : Chrono} {o : MemoryOutbox} (h : Guarded o) {s : Submission}
    (hmint : Minted o (.submit s)) {b : BatchId} (hb : s.batch = some b) :
    ∀ w r, (step c o (.submit s)).RowOf b w r → r.attempts = 0 := by
  intro w r hw
  cases hr : o.records w with
  | none =>
      obtain ⟨s', rows, row, _, _, _, _, rfl⟩ := record_new c h.conserved hmint.1 hr hw.1
      rfl
  | some r₀ =>
      obtain ⟨r₁, hr₁, hev⟩ := record_step c h.conserved hmint.1 hr
      obtain rfl := Option.some.inj (hw.1.symm.trans hr₁)
      exact absurd (hev.sameWrite.batch ▸ hw.2) (hmint.1.2.2 b hb w r₀ hr)

/--
**Barrier safety.** In every reachable state, for every batch `b`:

* a claim that answers with `b` is the last one to, and hands over one row of `b` for
  each member released and nothing else;
* if a submission arms `b` under `failBatch`, the first dispatch of any of its rows,
  however much later, puts a row of every device addressed in flight in that step;
* if it arms `b` under `dispatchReady`, a release that leaves a device out comes after
  the timeout;
* a turn taken past the deadline of an incomplete `failBatch` batch expires it, and
  no row of an expired batch is ever in flight again.
-/
theorem barrier_safety (c : Chrono) {o : MemoryOutbox} (ho : Reachable c o) (b : BatchId) :
    (∀ d now rs, (o.claimNext c d now).2 = .ok (some (.batch b rs)) →
      (∀ ops, Machine.Along (step c) Minted (step c o (.claimNext d now)) ops →
        ∀ d' now' rs', ((Machine.exec (step c) (step c o (.claimNext d now)) ops).claimNext
          c d' now').2 ≠ .ok (some (.batch b rs'))) ∧
      (∃ e, o.batches b = some e ∧ rs.map (·.device) = (o.arrived e b now).elems) ∧
      (∀ r ∈ rs, r.batch = some b ∧ r.status = .inFlight ∧ ¬ o.InFlight r.id ∧
        (step c o (.claimNext d now)).records r.id = some r) ∧
      ∀ w, ¬ o.InFlight w → (step c o (.claimNext d now)).InFlight w → w ∈ rs.map (·.id)) ∧
    (∀ s acceptance, Minted o (.submit s) → s.batch = some b → o.replayed s = none →
      (o.submit s).2 = .ok acceptance →
      ∀ ops, Machine.Along (step c) Minted (step c o (.submit s)) ops →
      ∀ o', o' = Machine.exec (step c) (step c o (.submit s)) ops →
        ((armedBatch s).barrier.onTimeout = .failBatch →
          Machine.Along (step c) (fun o op => Undispatched b (step c o op))
            (step c o (.submit s)) ops →
          ∀ d now, ¬ Undispatched b (step c o' (.claimNext d now)) →
            ∀ m ∈ s.targets, ∃ w r, (step c o' (.claimNext d now)).RowOf b w r ∧ r.device = m ∧
              r.status = .inFlight) ∧
        ((armedBatch s).barrier.onTimeout = .dispatchReady →
          ∀ d now rs, (o'.claimNext c d now).2 = .ok (some (.batch b rs)) →
            ∀ m ∈ s.targets, m ∉ rs.map (·.device) →
              elapsedPast c s.atTime (armedBatch s).barrier.timeout now = some true)) ∧
    (∀ d now e, o.AtBatch d now b e → e.gate = .waiting → e.barrier.onTimeout = .failBatch →
      o.arrived e b now ≠ e.members →
      elapsedPast c e.armedAt e.barrier.timeout now = some true →
      (step c o (.claimNext d now)).Expired b) ∧
    (o.Expired b → ∀ ops, Machine.Along (step c) Minted o ops →
      Undispatched b (Machine.exec (step c) o ops)) := by
  obtain ⟨h, hlist⟩ := guarded_reachable ho
  refine ⟨?_, ?_, ?_, ?_⟩
  · intro d now rs hans
    obtain ⟨hdev, hrows, hnew⟩ := released_rows h hans
    exact ⟨fun ops hrun d' now' rs' => released_once h hans hrun d' now' rs', hdev, hrows, hnew⟩
  · intro s acceptance hmint hb hnew hok ops hrun o' ho'
    have h₁ := guarded_step c h hmint
    have harm₁ := armedBy_submit (c := c) hmint hb hnew hok
    have harm := armedBy_run h₁ harm₁ hrun
    have h' := guarded_run c h₁ hrun
    rw [← ho'] at harm h'
    refine ⟨?_, ?_⟩
    · intro hpol hno d now hsome
      have huntried := untried_of_undispatched h₁ (untried_submit h hmint hb) hrun hno
      rw [← ho'] at huntried
      exact first_dispatch_whole h' harm hpol huntried hsome
    · intro _ d now rs hans m hm hout
      exact left_behind_late h' harm hans hm hout
  · exact fun d now e hat hg hpol hne hel => expired_of_deadline h hat hg hpol hne hel
  · exact fun hexp ops hrun => expired_never_claimed h hlist hexp hrun

/-- A group of two starts together: its one release takes a row of each. -/
theorem barrier_safety_startTogether :
    ∃ rs, ((step utc (withMaxAttempts 3 1000000000) (.submit startTogether)).claimNext utc "a"
        (tenOClock "01")).2 = .ok (some (.batch "b" rs)) ∧ rs.length = 2 ∧
      ∀ r ∈ rs, r.batch = some "b" ∧ r.status = .inFlight := by
  have hmint : Minted (withMaxAttempts 3 1000000000) (.submit startTogether) :=
    ⟨overtakingRun_fresh.1, fun _ => by decide⟩
  obtain ⟨hone, _⟩ := barrier_safety utc
    ⟨3, 1000000000, [.submit startTogether], ⟨hmint, trivial⟩, rfl⟩ "b"
  refine ⟨_, rfl, rfl, ?_⟩
  intro r hr
  obtain ⟨_, _, hrows, _⟩ := hone "a" (tenOClock "01") _ rfl
  exact ⟨(hrows r hr).1, (hrows r hr).2.1⟩

end Sismatic
