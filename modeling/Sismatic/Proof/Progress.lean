import Sismatic.Proof.BarrierSafety

/-!
# No cycle of waiting batches

Overlapping groups wait for each other only through shared devices, and a device's
queue holds its writes in the order they were submitted. Submissions are atomic
across their targets, so there is one order of submissions that every queue agrees
with: a *rank*. Of everything queued, take what was submitted first. Its batch, if
it has one, has every row at the head of its queue, because whatever stood before
one of them would have been submitted earlier still.

Retries are the exception to the order, and never in the way: a write that has been
tried is of no waiting batch, so a head that has been tried goes out at once.
-/

namespace Sismatic

open MemoryOutbox

/-- A call that cancels nothing. -/
def NoCancel : Op → Prop
  | .cancelQueued _ _ => False
  | .cancelBatch _ _ => False
  | _ => True

/-- Ids minted apart, targets distinct, nothing canceled. -/
def Uncanceled (o : MemoryOutbox) (op : Op) : Prop := Minted o op ∧ NoCancel op

/-! ## The rank of a submission -/

/-- Every record of `w` there may be is of no batch. -/
def MemoryOutbox.Unbatched (o : MemoryOutbox) (w : WriteId) : Prop :=
  ∀ r, o.records w = some r → r.batch = none

/--
`rank` orders the writes by submission: every device's history climbs in it, and the
rows of one batch share it. Rows of one submission to one device share it too, if
the submission repeats a target, and are then of no batch.
-/
structure RankedBy (o : MemoryOutbox) (rank : WriteId → Nat) (bound : Nat) : Prop where
  below : ∀ w r, o.records w = some r → rank w < bound
  climbs : ∀ d, (o.logs d).history.Pairwise fun v w =>
    rank v < rank w ∨ (rank v = rank w ∧ o.Unbatched w)
  shared : ∀ b w w' r r', o.RowOf b w r → o.RowOf b w' r' → rank w = rank w'

/-- What a run without cancellations keeps. -/
structure Orderly (o : MemoryOutbox) : Prop where
  guarded : Guarded o
  fresh : ∀ d, Lanes.FreshTailAt o.board d
  /-- No batch with a row has been forgotten. -/
  kept : ∀ b w r, o.RowOf b w r → ∃ v, o.rendezvous b = some v
  ranked : ∃ rank bound, RankedBy o rank bound

section Step

variable {o : MemoryOutbox}

/-- Nothing but a cancellation forgets a batch. -/
theorem rendezvous_kept (c : Chrono) (h : Guarded o) {op : Op} (hun : Uncanceled o op)
    {b : BatchId} {v : Rendezvous} (hv : o.rendezvous b = some v) :
    ∃ v', (step c o op).rendezvous b = some v' := by
  have hspec := step_spec c h.conserved hun.1.1
  generalize step c o op = o' at hspec ⊢
  have hsame : o'.rendezvous b = o.rendezvous b → ∃ v', o'.rendezvous b = some v' :=
    fun heq => ⟨v, heq.trans hv⟩
  cases hspec with
  | submitted s _ h =>
      cases h with
      | refused e heq => exact hsame (by rw [heq])
      | replayed acceptance heq _ => exact hsame (by rw [heq])
      | appended rows _ _ happ =>
          have hrv := rendezvous_appends (b := b) happ
          by_cases hb : s.batch = some b
          · exact ⟨_, hrv.trans (if_pos hb)⟩
          · exact hsame (hrv.trans (if_neg hb))
  | claimed d now _ h =>
      have hresolved : ∀ {f g b'} {e : Batch} {gate : Gate},
          Heads f g (o.arrived e b' now).elems (o.resolved b' e now gate) o' →
          ∃ v', o'.rendezvous b = some v' := by
        intro f g b' e gate hheads
        by_cases hbb : b = b'
        · subst hbb
          exact ⟨_, by rw [rendezvous_heads hheads]; exact rendezvous_resolved_self⟩
        · exact hsame (by rw [rendezvous_heads hheads, rendezvous_resolved_other hbb])
      cases h with
      | idle _ _ _ _ _ hrv => exact hsame (by rw [hrv])
      | one _ _ _ hheads => exact hsame (by rw [rendezvous_heads hheads])
      | release _ _ _ _ _ _ _ _ _ hheads => exact hresolved hheads
      | late _ _ _ _ _ _ _ hheads => exact hsame (by rw [rendezvous_heads hheads])
      | expire _ _ _ _ _ _ _ _ _ _ hheads => exact hresolved hheads
  | settled id outcome now _ h =>
      cases h with
      | refused what heq _ => exact hsame (by rw [heq])
      | succeeded r value _ _ _ heq => exact hsame (by rw [heq]; rfl)
      | retried _ _ _ _ _ _ _ _ _ _ _ hrv => exact hsame (by rw [hrv])
      | dead r reason _ _ _ _ _ _ hrv =>
          -- a member gone leaves the entry, less that member
          by_cases hbr : r.batch = some b
          · exact ⟨v.without r.device, by rw [hrv b, if_pos hbr, hv]; rfl⟩
          · exact hsame (by rw [hrv b, if_neg hbr])
  | observed d state heq => exact hsame (by rw [heq]; rfl)
  | canceledQueue d reason _ => exact hun.2.elim
  | canceledBatch b' reason _ => exact hun.2.elim

theorem kept_step (c : Chrono) (h : Orderly o) {op : Op} (hun : Uncanceled o op) :
    ∀ b w r, (step c o op).RowOf b w r → ∃ v, (step c o op).rendezvous b = some v := by
  intro b w r' hw
  cases hr : o.records w with
  | some r =>
      obtain ⟨r₁, hr₁, hev⟩ := record_step c h.guarded.conserved hun.1.1 hr
      obtain rfl := Option.some.inj (hw.1.symm.trans hr₁)
      obtain ⟨v, hv⟩ := h.kept b w r ⟨hr, hev.sameWrite.batch ▸ hw.2⟩
      exact rendezvous_kept c h.guarded hun hv
  | none =>
      obtain ⟨s, rows, row, _, happ, _, _, rfl⟩ :=
        record_new c h.guarded.conserved hun.1.1 hr hw.1
      exact ⟨_, (rendezvous_appends happ).trans (if_pos hw.2)⟩

/-- Unless it is a submission, a call ranks nothing anew. -/
theorem ranked_of_no_submit (c : Chrono) (hc : Conserved o) {op : Op} (hfresh : Fresh o op)
    (hop : ∀ s, op ≠ .submit s) {rank : WriteId → Nat} {bound : Nat}
    (h : RankedBy o rank bound) : RankedBy (step c o op) rank bound := by
  -- with nothing filed, every record is an old one with its batch unchanged
  have hold : ∀ w r', (step c o op).records w = some r' →
      ∃ r, o.records w = some r ∧ SameWrite r r' := by
    intro w r' hr'
    cases hr : o.records w with
    | none =>
        obtain ⟨s, _, _, hs, _⟩ := record_new c hc hfresh hr hr'
        exact absurd hs (hop s)
    | some r =>
        obtain ⟨r₁, hr₁, hev⟩ := record_step c hc hfresh hr
        obtain rfl := Option.some.inj (hr'.symm.trans hr₁)
        exact ⟨r, rfl, hev.sameWrite⟩
  refine ⟨?_, ?_, ?_⟩
  · intro w r' hr'
    obtain ⟨r, hr, _⟩ := hold w r' hr'
    exact h.below w r hr
  · intro d
    rw [history_step c hc hfresh hop d]
    refine (h.climbs d).imp ?_
    intro v w h'
    rcases h' with hlt | ⟨heq, hun⟩
    · exact .inl hlt
    · refine .inr ⟨heq, ?_⟩
      intro r' hr'
      obtain ⟨r, hr, hsame⟩ := hold w r' hr'
      rw [hsame.batch]
      exact hun r hr
  · intro b w w' r r' hw hw'
    obtain ⟨r₀, hr₀, hsame⟩ := hold w r hw.1
    obtain ⟨r₀', hr₀', hsame'⟩ := hold w' r' hw'.1
    exact h.shared b w w' r₀ r₀' ⟨hr₀, hsame.batch ▸ hw.2⟩ ⟨hr₀', hsame'.batch ▸ hw'.2⟩

/-- One submission's rows for a device share its rank, and are then of no batch. -/
theorem Appends.climbs {s : Submission} {rows : List Row} {o' : MemoryOutbox}
    (happ : Appends s rows o o') (hmint : Minted o (.submit s)) {rank : WriteId → Nat}
    {n : Nat} (hrank : ∀ w ∈ s.ids, rank w = n) (d : DeviceId) :
    (Lanes.onLane (rows.map Row.entry) d).Pairwise fun v w =>
      rank v < rank w ∨ (rank v = rank w ∧ o'.Unbatched w) := by
  refine List.pairwise_iff_forall_sublist.mpr ?_
  intro v w hvw
  have hnd : (Lanes.onLane (rows.map Row.entry) d).Nodup := by
    refine List.Nodup.sublist (Lanes.onLane_sublist _ d) ?_
    rw [List.map_map]
    exact happ.ids ▸ hmint.1.1
  have hne : v ≠ w := by
    have hpair := hnd.sublist hvw
    simpa using hpair
  obtain ⟨row, hrow, rfl, hdev⟩ := mem_onLane_entry.mp (hvw.subset (List.mem_cons_self ..))
  obtain ⟨row', hrow', rfl, hdev'⟩ :=
    mem_onLane_entry.mp (hvw.subset (by simp : w ∈ [row.id, w]))
  rw [hrank _ (happ.mem_ids hrow), hrank _ (happ.mem_ids hrow')]
  refine .inr ⟨rfl, ?_⟩
  -- two rows for one device: the submission repeats a target, so it is of no batch
  intro r hr
  rw [happ.new row' hrow'] at hr
  obtain rfl := Option.some.inj hr
  by_contra hbatch
  have hnodup : (rows.map Row.device).Nodup := by
    rw [happ.targets]
    exact hmint.2 hbatch
  exact hne (congrArg Row.id
    (List.inj_on_of_nodup_map hnodup hrow hrow' (hdev.trans hdev'.symm)))

/-- A submission ranks its rows above everything before it. -/
theorem ranked_of_appends {s : Submission} {rows : List Row} {o' : MemoryOutbox}
    (hc : Conserved o) (hmint : Minted o (.submit s)) (happ : Appends s rows o o')
    {rank : WriteId → Nat} {bound : Nat} (h : RankedBy o rank bound) :
    RankedBy o' (fun w => if w ∈ s.ids then bound else rank w) (bound + 1) := by
  have hold : ∀ d, ∀ w ∈ (o.logs d).history, w ∉ s.ids := by
    intro d w hw hin
    obtain ⟨r, hr, _⟩ := hc.device_of_mem_history hw
    rw [hmint.1.2.1 w hin] at hr
    cases hr
  -- ranks: below the new bound; climbing along each history; shared within a batch
  refine ⟨?_, ?_, ?_⟩
  · intro w r hr
    by_cases hw : w ∈ s.ids
    · rw [if_pos hw]; omega
    · rw [if_neg hw]
      rw [happ.old w hw] at hr
      have hlt := h.below w r hr
      omega
  · intro d
    rw [happ.history d]
    refine List.pairwise_append.mpr ⟨?_, happ.climbs hmint (fun w hw => if_pos hw) d, ?_⟩
    · refine List.Pairwise.imp_of_mem ?_ (h.climbs d)
      intro v w hv hw hvw
      rw [if_neg (hold d v hv), if_neg (hold d w hw)]
      refine hvw.imp id fun ⟨heq, hun⟩ => ⟨heq, ?_⟩
      intro r hr
      rw [happ.old w (hold d w hw)] at hr
      exact hun r hr
    · intro v hv w hw
      obtain ⟨row, hrow, rfl, _⟩ := mem_onLane_entry.mp hw
      obtain ⟨r, hr, _⟩ := hc.device_of_mem_history hv
      rw [if_neg (hold d v hv), if_pos (happ.mem_ids hrow)]
      exact .inl (h.below v r hr)
  · intro b w w' r r' hw hw'
    have hcases : ∀ {w r}, o'.RowOf b w r → (w ∈ s.ids ∧ s.batch = some b) ∨
        (w ∉ s.ids ∧ o.RowOf b w r) := by
      intro w r hrow
      rcases rowOf_appends happ hrow with hold | ⟨hb, row, hmem, rfl, _⟩
      · refine .inr ⟨?_, hold⟩
        intro hin
        have hnone := hmint.1.2.1 w hin
        rw [hold.1] at hnone
        cases hnone
      · exact .inl ⟨happ.mem_ids hmem, hb⟩
    rcases hcases hw with ⟨hin, hb⟩ | ⟨hout, hold⟩
    · rcases hcases hw' with ⟨hin', _⟩ | ⟨_, hold'⟩
      · rw [if_pos hin, if_pos hin']
      · exact absurd hold'.2 (hmint.1.2.2 b hb w' r' hold'.1)
    · rcases hcases hw' with ⟨_, hb⟩ | ⟨hout', hold'⟩
      · exact absurd hold.2 (hmint.1.2.2 b hb w r hold.1)
      · rw [if_neg hout, if_neg hout']
        exact h.shared b w w' r r' hold hold'

theorem ranked_step (c : Chrono) (hc : Conserved o) {op : Op} (hmint : Minted o op)
    (h : ∃ rank bound, RankedBy o rank bound) :
    ∃ rank bound, RankedBy (step c o op) rank bound := by
  obtain ⟨rank, bound, hr⟩ := h
  cases op with
  | submit s =>
      have hspec := submit_spec o hmint.1.1
      show ∃ rank bound, RankedBy (o.submit s).1 rank bound
      generalize (o.submit s).1 = o' at hspec
      generalize (o.submit s).2 = res at hspec
      cases hspec with
      | refused e heq => exact ⟨rank, bound, by rw [heq]; exact hr⟩
      | replayed acceptance heq _ => exact ⟨rank, bound, by rw [heq]; exact hr⟩
      | appended rows _ _ happ => exact ⟨_, _, ranked_of_appends hc hmint happ hr⟩
  | _ => exact ⟨rank, bound, ranked_of_no_submit c hc hmint.1 (by simp) hr⟩

theorem orderly_step (c : Chrono) (h : Orderly o) {op : Op} (hun : Uncanceled o op) :
    Orderly (step c o op) where
  guarded := guarded_step c h.guarded hun.1
  fresh := by
    intro d
    obtain ⟨taken, hmove, _⟩ := step_move c h.guarded.conserved hun.1.1
    exact Lanes.freshTailAt_move (h.fresh d) h.guarded.conserved.board hmove
  kept := kept_step c h hun
  ranked := ranked_step c h.guarded.conserved hun.1 h.ranked

end Step

theorem orderly_init (n : Nat) (backoff : Duration) : Orderly (withMaxAttempts n backoff) where
  guarded := guarded_init n backoff
  fresh := fun d => List.Pairwise.nil
  kept := by
    intro b w r h
    obtain ⟨hr, _⟩ := h
    cases hr
  ranked := ⟨fun _ => 0, 0, by
    refine ⟨?_, fun d => List.Pairwise.nil, ?_⟩
    · intro w r hr
      cases hr
    · intro b w w' r r' h
      obtain ⟨hr, _⟩ := h
      cases hr⟩

/-! ## Somebody's turn comes to something -/

/-- `d`'s turn claims something, or fails a write that was waiting. -/
def TurnMoves (c : Chrono) (o : MemoryOutbox) (d : DeviceId) (now : Timestamp) : Prop :=
  (∃ claim, (o.claimNext c d now).2 = .ok (some claim)) ∨
    ∃ w r r', o.records w = some r ∧ r.status = .pending ∧
      (step c o (.claimNext d now)).records w = some r' ∧ r'.status.terminal

/-- A due head moves, unless its batch waits for someone who has not arrived. -/
theorem turnMoves_of_arrived (c : Chrono) {o : MemoryOutbox} (h : Orderly o) {d : DeviceId}
    {now : Timestamp} {r : WriteRecord} (hdue : o.HeadDue d now r)
    (harr : ∀ b e, r.batch = some b → o.batches b = some e → e.gate = .waiting →
      o.arrived e b now = e.members) : TurnMoves c o d now := by
  have hf := h.guarded.conserved.tidy.filed
  have hspec := claimNext_spec c hf d now
  unfold TurnMoves
  show _ ∨ ∃ w r r', _ ∧ _ ∧ (o.claimNext c d now).1.records w = some r' ∧ _
  generalize (o.claimNext c d now).1 = o' at hspec
  generalize (o.claimNext c d now).2 = res at hspec
  cases hspec with
  | idle _ hblocked =>
      exfalso
      -- the head is due, no batch is forgotten without a cancellation, and nobody is missing
      cases hblocked with
      | notDue hno => exact hno r hdue
      | vanished r' b hdue' hb hnone =>
          obtain ⟨id, q, hat⟩ := hf.headAt hdue'
          obtain ⟨v, hv⟩ := h.kept b id r' ⟨hat.2.1, hb⟩
          rw [rendezvous_none.mpr hnone] at hv
          cases hv
      | waiting r' b e hdue' hb he hg hne _ =>
          obtain rfl := hdue.unique hdue'
          exact hne (harr b e hb he hg)
  | one r' => exact .inl ⟨_, rfl⟩
  | release r' b e rs => exact .inl ⟨_, rfl⟩
  | late r' b e hdue' hb he hg hheads =>
      obtain ⟨id, q, r₁, hat, _, hrec⟩ := hheads.head d (List.mem_singleton.mpr rfl)
      exact .inr ⟨id, r₁, _, hat.2.1, hat.2.2.2, hrec, rfl⟩
  | expire r' b e hdue' hb he hg hne _ _ _ =>
      obtain rfl := hdue.unique hdue'
      exact absurd (harr b e hb he hg) hne

/-- Of all heads, one was submitted no later than any other. -/
theorem exists_oldest_head {o : MemoryOutbox} (rank : WriteId → Nat)
    (hsome : ∃ d id q r, HeadAt o d id q r) :
    ∃ d id q r, HeadAt o d id q r ∧
      ∀ d' id' q' r', HeadAt o d' id' q' r' → rank id ≤ rank id' := by
  classical
  -- the least rank any head has
  have hex : ∃ n d id q r, HeadAt o d id q r ∧ rank id = n := by
    obtain ⟨d, id, q, r, hat⟩ := hsome
    exact ⟨rank id, d, id, q, r, hat, rfl⟩
  obtain ⟨d, id, q, r, hat, hrank⟩ := Nat.find_spec hex
  refine ⟨d, id, q, r, hat, ?_⟩
  intro d' id' q' r' hat'
  rw [hrank]
  exact Nat.find_min' hex ⟨d', id', q', r', hat', rfl⟩

/--
**Barrier progress.** In every state a run without cancellations reaches, if something
is queued, then once every backoff has run out there is a device whose turn claims
something or fails a write that was waiting. What is in flight has no say in it.
-/
theorem barrier_progress (c : Chrono) (n : Nat) (backoff : Duration) (ops : List Op)
    (hrun : Machine.Along (step c) Uncanceled (withMaxAttempts n backoff) ops)
    {o : MemoryOutbox} (ho : o = Machine.exec (step c) (withMaxAttempts n backoff) ops)
    (hqueued : ∃ d, (o.logs d).queue ≠ []) (now : Timestamp)
    (hnow : ∀ w r, o.records w = some r → r.status = .pending → r.notBefore.str ≤ now.str) :
    ∃ d, TurnMoves c o d now := by
  have hstep : ∀ o op, Orderly o → Uncanceled o op → Orderly (step c o op) :=
    fun _ _ h hun => orderly_step c h hun
  have h : Orderly o := ho ▸ Machine.exec_invariant hstep hrun (orderly_init n backoff)
  have ht := h.guarded.conserved.tidy
  have hhead : ∀ d, (o.logs d).queue ≠ [] → ∃ id q r, HeadAt o d id q r := by
    intro d hd
    cases hq : (o.logs d).queue with
    | nil => exact absurd hq hd
    | cons id q =>
        obtain ⟨r, hr, hdev, hst⟩ := ht.filed d id (by rw [hq]; exact List.mem_cons_self ..)
        exact ⟨id, q, r, hq, hr, hdev, hst⟩
  have hdue : ∀ {d id q r}, HeadAt o d id q r → o.HeadDue d now r := fun {d id q r} hat =>
    ⟨id, q, hat.1, hat.2.1, hnow id r hat.2.1 hat.2.2.2⟩
  by_cases htried : ∃ d id q r, HeadAt o d id q r ∧ 0 < r.attempts
  · -- a write that has been tried is of no waiting batch
    obtain ⟨d, id, q, r, hat, hatt⟩ := htried
    refine ⟨d, turnMoves_of_arrived c h (hdue hat) ?_⟩
    intro b e hb he hg
    have hzero := ((h.guarded.batch b).waiting _ (rendezvous_eq he) hg id r ⟨hat.2.1, hb⟩).2
    omega
  · -- every head is fresh: take the one submitted first
    obtain ⟨rank, bound, hrank⟩ := h.ranked
    obtain ⟨d₀, hd₀⟩ := hqueued
    obtain ⟨d, id, q, r, hat, hmin⟩ := exists_oldest_head rank ⟨d₀, hhead d₀ hd₀⟩
    refine ⟨d, turnMoves_of_arrived c h (hdue hat) ?_⟩
    intro b e hb he hg
    refine OrderedSet.filter_eq_self.mpr ?_
    intro m hm
    rw [isReadyFor_iff]
    obtain ⟨x, rx, hrow, hdev⟩ := (h.guarded.batch b).members _ (rendezvous_eq he) hg m hm
    have hpend := ((h.guarded.batch b).waiting _ (rendezvous_eq he) hg x rx hrow).1
    have hxq : x ∈ (o.logs m).queue := hdev ▸ ht.queued x rx hrow.1 hpend
    obtain ⟨g, q', rg, hatg⟩ := hhead m (List.ne_nil_of_mem hxq)
    refine ⟨rx, ?_, hrow.2⟩
    have hxg : x = g := by
      by_contra hne
      have hx' : x ∈ q' := by
        rw [hatg.1, List.mem_cons] at hxq
        exact hxq.resolve_left hne
      -- the head would have entered before the batch's row, yet is no older than the oldest head
      have hfresh := h.fresh m
      unfold Lanes.FreshTailAt at hfresh
      rw [show o.board.queue m = g :: q' from hatg.1] at hfresh
      rcases (List.pairwise_cons.mp hfresh).1 x hx' with hpos | ⟨_, hbefore⟩
      · rw [Lanes.Board.tries_eq (board_item hatg.2.1)] at hpos
        exact htried ⟨m, g, q', rg, hatg, hpos⟩
      · have hpair := (hrank.climbs m).sublist hbefore
        rw [List.pairwise_pair] at hpair
        have hsame := hrank.shared b x id rx r hrow ⟨hat.2.1, hb⟩
        have hle := hmin m g q' rg hatg
        rcases hpair with hlt | ⟨_, hunb⟩
        · omega
        · have hnone := hunb rx hrow.1
          rw [hrow.2] at hnone
          cases hnone
    subst hxg
    obtain rfl := Option.some.inj (hrow.1.symm.trans hatg.2.1)
    exact hdue hatg

/-- With a group of two queued, somebody's turn moves. -/
theorem barrier_progress_startTogether :
    ∃ d, TurnMoves utc (step utc (withMaxAttempts 3 1000000000) (.submit startTogether)) d
      (tenOClock "01") := by
  have hmint : Minted (withMaxAttempts 3 1000000000) (.submit startTogether) :=
    ⟨overtakingRun_fresh.1, fun _ => by decide⟩
  refine barrier_progress utc 3 1000000000 [.submit startTogether] ⟨⟨hmint, trivial⟩, trivial⟩
    rfl ⟨"a", by decide +kernel⟩ (tenOClock "01") ?_
  -- every record there is was filed by the one submission, at its own instant
  intro w r hr _
  have hnone : (withMaxAttempts 3 1000000000).records w = none := rfl
  obtain ⟨s, rows, row, hs, _, _, _, rfl⟩ :=
    record_new utc (conserved_init 3 1000000000) hmint.1 hnone hr
  obtain rfl := Op.submit.inj hs
  show startTogether.atTime.str ≤ (tenOClock "01").str
  decide +kernel

end Sismatic
