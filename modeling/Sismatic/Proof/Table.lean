import Sismatic.Proof.Conserved

/-!
# The batch table

What one call may make of the table: a batch is armed by the submission that brings
its id; its gate resolves once; a member leaves it when a row in flight fails for
good; and it is forgotten. And what it may make of a batch's rows, which are never
unfiled.
-/

namespace Sismatic

open MemoryOutbox

/-- `r` is the record of `w`, a row of batch `b`. -/
def MemoryOutbox.RowOf (o : MemoryOutbox) (b : BatchId) (w : WriteId) (r : WriteRecord) : Prop :=
  o.records w = some r ∧ r.batch = some b

section Table

variable {o o' : MemoryOutbox} {b : BatchId}

/-- A row stays filed under its batch. -/
theorem rowOf_step (c : Chrono) (hc : Conserved o) {op : Op} (hfresh : Fresh o op) {w : WriteId}
    {r : WriteRecord} (hrow : o.RowOf b w r) : ∃ r', (step c o op).RowOf b w r' ∧ Evolves r r' := by
  obtain ⟨r', hr', hev⟩ := record_step c hc hfresh hrow.1
  exact ⟨r', ⟨hr', hev.sameWrite.batch ▸ hrow.2⟩, hev⟩

/-! ## Submitting -/

theorem rowOf_appends {s : Submission} {rows : List Row} (happ : Appends s rows o o')
    {w : WriteId} {r : WriteRecord} (hw : o'.RowOf b w r) :
    o.RowOf b w r ∨ (s.batch = some b ∧ ∃ row ∈ rows, row.id = w ∧ r = row.record s) := by
  by_cases hin : w ∈ s.ids
  · right
    rw [← happ.ids] at hin
    obtain ⟨row, hrow, rfl⟩ := List.mem_map.mp hin
    have hr := hw.1
    rw [happ.new row hrow] at hr
    obtain rfl := Option.some.inj hr
    exact ⟨hw.2, row, hrow, rfl, rfl⟩
  · left
    exact ⟨(happ.old w hin) ▸ hw.1, hw.2⟩

theorem rendezvous_appends {s : Submission} {rows : List Row} (happ : Appends s rows o o') :
    o'.rendezvous b = if s.batch = some b then some (armedBatch s).rendezvous
      else o.rendezvous b := by
  unfold rendezvous
  rw [happ.batches b]
  by_cases hb : s.batch = some b
  · rw [if_pos hb, if_pos hb]; rfl
  · rw [if_neg hb, if_neg hb]

/-! ## Claiming -/

/-- The head a device is claimed or failed by is the one that was due. -/
theorem headAt_of_due {o : MemoryOutbox} {d : DeviceId} {now : Timestamp} {r r' : WriteRecord}
    (hdue : o.HeadDue d now r) {w : WriteId} {q : List WriteId} (hat : HeadAt o d w q r') :
    r' = r := by
  obtain ⟨id, q', hq, hr, _⟩ := hdue
  obtain ⟨rfl, _⟩ := List.cons.inj (hat.1.symm.trans hq)
  exact Option.some.inj (hat.2.1.symm.trans hr)

/-- Acting on heads leaves the rows of a batch with none among them alone. -/
theorem rowOf_heads_other {f : DeviceLog → WriteRecord → DeviceLog}
    {g : WriteRecord → WriteRecord} {ms : List DeviceId} (h : Heads f g ms o o')
    (hg : ∀ r, (g r).batch = r.batch)
    (hother : ∀ m ∈ ms, ∀ w q r, HeadAt o m w q r → r.batch ≠ some b) (w : WriteId)
    (r : WriteRecord) : o'.RowOf b w r ↔ o.RowOf b w r := by
  rcases h.cases w with ⟨m, hm, q, r₁, hat, hrec⟩ | ⟨_, hrec⟩
  · have hne := hother m hm w q r₁ hat
    refine ⟨?_, ?_⟩
    · intro hw
      have hr := hw.1
      rw [hrec] at hr
      obtain rfl := Option.some.inj hr
      exact absurd ((hg r₁).symm.trans hw.2) hne
    · intro hw
      obtain rfl := Option.some.inj (hw.1.symm.trans hat.2.1)
      exact absurd hw.2 hne
  · unfold RowOf
    rw [hrec]

/-- A row after acting on heads: rewritten, if it was one of them, and as it was otherwise. -/
theorem rowOf_heads {f : DeviceLog → WriteRecord → DeviceLog}
    {g : WriteRecord → WriteRecord} {ms : List DeviceId} (h : Heads f g ms o o')
    (hg : ∀ r, (g r).batch = r.batch) {w : WriteId} {r : WriteRecord} (hw : o'.RowOf b w r) :
    (∃ m ∈ ms, ∃ q r₀, HeadAt o m w q r₀ ∧ o.RowOf b w r₀ ∧ r = g r₀) ∨
      ((∀ m ∈ ms, (o.logs m).queue.head? ≠ some w) ∧ o.RowOf b w r) := by
  rcases h.cases w with ⟨m, hm, q, r₀, hat, hrec⟩ | ⟨hno, hrec⟩
  · left
    have hr := hw.1
    rw [hrec] at hr
    obtain rfl := Option.some.inj hr
    exact ⟨m, hm, q, r₀, hat, ⟨hat.2.1, (hg r₀).symm.trans hw.2⟩, rfl⟩
  · exact Or.inr ⟨hno, hrec ▸ hw.1, hw.2⟩

/-- The head of an arrived member is a row of the batch. -/
theorem headAt_arrived {e : Batch} {now : Timestamp} {m : DeviceId} (hm : m ∈ o.arrived e b now)
    {w : WriteId} {q : List WriteId} {r : WriteRecord} (hat : HeadAt o m w q r) :
    r.batch = some b := by
  obtain ⟨_, r', ⟨id, q', hq, hr', _⟩, hb⟩ := mem_arrived.mp hm
  obtain ⟨rfl, _⟩ := List.cons.inj (hat.1.symm.trans hq)
  obtain rfl := Option.some.inj (hat.2.1.symm.trans hr')
  exact hb

theorem rendezvous_resolved_self {e : Batch} {now : Timestamp} {gate : Gate} :
    (o.resolved b e now gate).rendezvous b = some { e.rendezvous with gate := gate } := by
  simp [rendezvous, resolved, setBatch, Batch.rendezvous]

theorem rendezvous_resolved_other {b' : BatchId} {e : Batch} {now : Timestamp} {gate : Gate}
    (hb : b' ≠ b) : (o.resolved b e now gate).rendezvous b' = o.rendezvous b' := by
  simp [rendezvous, resolved, setBatch, Function.update_of_ne hb]

theorem rendezvous_heads {f : DeviceLog → WriteRecord → DeviceLog}
    {g : WriteRecord → WriteRecord} {ms : List DeviceId} (h : Heads f g ms o o') :
    o'.rendezvous = o.rendezvous := by
  unfold rendezvous
  rw [h.batches]

/-! ## Cancelling -/

/-- What `cancel_queued` drops of a batch, it forgets the batch of. -/
theorem cancelQueued_whole {d : DeviceId} {w : WriteId} {r : WriteRecord} (hrow : o.RowOf b w r)
    (hst : r.status = .pending)
    (hp : (∃ r, o.records w = some r ∧ r.device = d) ∨ o.Doomed (o.Waits d) w) : o.Waits d b := by
  rcases hp with ⟨r', hr', hdev⟩ | ⟨b', e, hwaits, _, r', hr', _, hb'⟩
  · obtain rfl := Option.some.inj (hrow.1.symm.trans hr')
    exact ⟨w, r, hrow.1, hst, hdev, hrow.2⟩
  · obtain rfl := Option.some.inj (hrow.1.symm.trans hr')
    obtain rfl := Option.some.inj (hrow.2.symm.trans hb')
    exact hwaits

/-- A forgotten batch drops the rows of every device it waits for. -/
theorem doomed_of_member {bs : BatchId → Prop} {w : WriteId} {r : WriteRecord} {v : Rendezvous}
    (hgone : bs b) (hrow : o.RowOf b w r) (hv : o.rendezvous b = some v)
    (hmem : r.device ∈ v.members) : o.Doomed bs w := by
  obtain ⟨e, he, rfl⟩ := rendezvous_some hv
  exact ⟨b, e, hgone, he, r, hrow.1, hmem, hrow.2⟩

/-! ## The table over a step -/

/-- What one call may make of a batch's rendezvous. -/
inductive Follows (o : MemoryOutbox) (b : BatchId) (v : Rendezvous) : Rendezvous → Prop
  | same : Follows o b v v
  | resolved (gate : Gate) : v.gate = .waiting → gate ≠ .waiting →
      Follows o b v { v with gate := gate }
  | without (w : WriteId) (r : WriteRecord) : o.RowOf b w r → r.status = .inFlight →
      Follows o b v (v.without r.device)

theorem Follows.barrier {v v' : Rendezvous} (h : Follows o b v v') : v'.barrier = v.barrier := by
  cases h <;> rfl

theorem Follows.members {v v' : Rendezvous} (h : Follows o b v v') {d : DeviceId}
    (hd : d ∈ v'.members) : d ∈ v.members := by
  cases h with
  | same => exact hd
  | resolved _ _ _ => exact hd
  | without _ _ _ _ => exact (OrderedSet.mem_erase.mp hd).1

/-- A gate that has resolved stays as it is. -/
theorem Follows.gate {v v' : Rendezvous} (h : Follows o b v v') (hg : v.gate ≠ .waiting) :
    v'.gate = v.gate := by
  cases h with
  | same => rfl
  | resolved _ hw _ => exact absurd hw hg
  | without _ _ _ _ => rfl

/--
What is in the table after a call was there before, or the call is a submission that
armed it.
-/
theorem rendezvous_step (c : Chrono) (hc : Conserved o) {op : Op} (hfresh : Fresh o op)
    {v' : Rendezvous} (hv' : (step c o op).rendezvous b = some v') :
    (∃ v, o.rendezvous b = some v ∧ Follows o b v v') ∨
      ∃ s rows, op = .submit s ∧ s.batch = some b ∧ s.targets ≠ [] ∧
        Appends s rows o (step c o op) ∧ v' = (armedBatch s).rendezvous := by
  have hspec := step_spec c hc hfresh
  generalize step c o op = o' at hspec hv' ⊢
  have hsame : o'.rendezvous b = o.rendezvous b →
      ∃ v, o.rendezvous b = some v ∧ Follows o b v v' := fun heq => ⟨v', heq ▸ hv', .same⟩
  have hcancel : ∀ {p gone}, Cancels p gone o o' →
      ∃ v, o.rendezvous b = some v ∧ Follows o b v v' := by
    intro p gone hcan
    by_cases hg : gone b
    · rw [rendezvous_none.mpr (hcan.forgotten b hg)] at hv'
      cases hv'
    · refine hsame ?_
      unfold rendezvous
      rw [hcan.batches b hg]
  cases hspec with
  | submitted s _ h =>
      cases h with
      | refused e heq => exact .inl (hsame (by rw [heq]))
      | replayed acceptance heq _ => exact .inl (hsame (by rw [heq]))
      | appended rows htargets _ happ =>
          have hrv := rendezvous_appends (b := b) happ
          by_cases hb : s.batch = some b
          · rw [if_pos hb, hv'] at hrv
            exact .inr ⟨s, rows, rfl, hb, htargets, happ, Option.some.inj hrv⟩
          · rw [if_neg hb] at hrv
            exact .inl (hsame hrv)
  | claimed d now _ h =>
      left
      -- of the batches, a claim resolves the one it evaluates and leaves the others
      have hresolved : ∀ {f g b'} {e : Batch} {gate : Gate},
          Heads f g (o.arrived e b' now).elems (o.resolved b' e now gate) o' →
          o.batches b' = some e → e.gate = .waiting → gate ≠ .waiting →
          ∃ v, o.rendezvous b = some v ∧ Follows o b v v' := by
        intro f g b' e gate hheads he hg hne
        by_cases hbb : b = b'
        · subst hbb
          rw [rendezvous_heads hheads, rendezvous_resolved_self] at hv'
          obtain rfl := Option.some.inj hv'
          exact ⟨e.rendezvous, rendezvous_eq he, .resolved gate hg hne⟩
        · exact hsame (by rw [rendezvous_heads hheads, rendezvous_resolved_other hbb])
      cases h with
      | idle _ _ _ _ _ hrv => exact hsame (by rw [hrv])
      | one _ _ _ hheads => exact hsame (by rw [rendezvous_heads hheads])
      | release _ _ _ _ _ _ he hg _ hheads => exact hresolved hheads he hg (by simp)
      | late _ _ _ _ _ _ _ hheads => exact hsame (by rw [rendezvous_heads hheads])
      | expire _ _ _ _ _ he hg _ _ _ hheads => exact hresolved hheads he hg (by simp)
  | settled id outcome now _ h =>
      left
      cases h with
      | refused what heq _ => exact hsame (by rw [heq])
      | succeeded r value hr _ _ heq => exact hsame (by rw [heq]; rfl)
      | retried _ _ _ _ _ _ _ _ _ _ _ hrv => exact hsame (by rw [hrv])
      | dead r reason hr hst _ _ _ _ hrv =>
          by_cases hbr : r.batch = some b
          · rw [hrv b, if_pos hbr] at hv'
            obtain ⟨v, hv, rfl⟩ := Option.map_eq_some_iff.mp hv'
            exact ⟨v, hv, .without id r ⟨hr, hbr⟩ hst⟩
          · exact hsame (by rw [hrv b, if_neg hbr])
  | observed d state heq => exact .inl (hsame (by rw [heq]; rfl))
  | canceledQueue d reason h => exact .inl (hcancel h)
  | canceledBatch b' reason h => exact .inl (hcancel h)

/-- A batch with a row filed under it is never armed again. -/
theorem rendezvous_follows (c : Chrono) (hc : Conserved o) {op : Op} (hfresh : Fresh o op)
    (hrow : ∃ w r, o.RowOf b w r) {v' : Rendezvous} (hv' : (step c o op).rendezvous b = some v') :
    ∃ v, o.rendezvous b = some v ∧ Follows o b v v' := by
  -- arming it again would take a batch id that a row already carries
  rcases rendezvous_step c hc hfresh hv' with hfollows | ⟨s, _, rfl, hb, _⟩
  · exact hfollows
  · obtain ⟨w, r, hr, hbr⟩ := hrow
    exact absurd hbr (hfresh.2.2 b hb w r hr)

/-- The members of a batch in the table each have a row of it. -/
def MembersFiled (o : MemoryOutbox) : Prop :=
  ∀ b v, o.rendezvous b = some v → ∀ d ∈ v.members, ∃ w r, o.RowOf b w r ∧ r.device = d

theorem membersFiled_step (c : Chrono) (hc : Conserved o) (h : MembersFiled o) {op : Op}
    (hfresh : Fresh o op) : MembersFiled (step c o op) := by
  intro b v' hv' d hd
  rcases rendezvous_step c hc hfresh hv' with ⟨v, hv, hfollows⟩ | ⟨s, rows, _, hb, _, happ, rfl⟩
  · obtain ⟨w, r, hrow, hdev⟩ := h b v hv d (hfollows.members hd)
    obtain ⟨r', hrow', hev⟩ := rowOf_step c hc hfresh hrow
    exact ⟨w, r', hrow', hev.sameWrite.device.trans hdev⟩
  · have hmem : d ∈ s.targets := OrderedSet.mem_ofList.mp hd
    rw [← happ.targets] at hmem
    obtain ⟨row, hrow, rfl⟩ := List.mem_map.mp hmem
    exact ⟨row.id, row.record s, ⟨happ.new row hrow, hb⟩, rfl⟩

end Table

end Sismatic
