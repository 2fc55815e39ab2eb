import Sismatic.Proof.Barrier
import Sismatic.Proof.Fifo

/-!
# When no queue is wedged

A waiting row whose batch has left the table is answered `Wait` on every turn, and
blocks its queue for ever. Every call that forgets a batch cancels the waiting rows
of it; what it cannot cancel is a row in flight. Such a row comes back if it fails
with tries left, to a batch that is gone.

So it is settling alone that can wedge a queue, and the condition below says exactly
when it does not. A run that meets it wedges nothing, and a run that wedges nothing
has met it at every step.
-/

namespace Sismatic

open MemoryOutbox

/-- Every waiting row's batch is in the table, and waits for the row's own device. -/
def Unwedged (o : MemoryOutbox) : Prop :=
  ∀ w r b, o.RowOf b w r → r.status = .pending →
    ∃ e, o.batches b = some e ∧ r.device ∈ e.members

/--
Settling a batched row as failed leaves its batch able to take it. With tries left,
the batch is still in the table and waits for the row's device. With none left, the
device has no other row of the batch waiting.
-/
def KeepsRendezvous (o : MemoryOutbox) : Op → Prop
  | .settle id (.failed _) _ => ∀ r b, o.RowOf b id r → r.status = .inFlight →
      (r.attempts < o.maxAttempts → ∃ e, o.batches b = some e ∧ r.device ∈ e.members) ∧
      (o.maxAttempts ≤ r.attempts → ∀ w r', o.RowOf b w r' → r'.status = .pending →
        r'.device ≠ r.device)
  | _ => True

section Wedge

variable {o o' : MemoryOutbox}

theorem unwedged_iff_rendezvous : Unwedged o ↔ ∀ w r b, o.RowOf b w r → r.status = .pending →
    ∃ v, o.rendezvous b = some v ∧ r.device ∈ v.members := by
  unfold Unwedged
  refine ⟨?_, ?_⟩
  · intro h w r b hrow hst
    obtain ⟨e, he, hmem⟩ := h w r b hrow hst
    exact ⟨_, rendezvous_eq he, hmem⟩
  · intro h w r b hrow hst
    obtain ⟨v, hv, hmem⟩ := h w r b hrow hst
    obtain ⟨e, he, rfl⟩ := rendezvous_some hv
    exact ⟨e, he, hmem⟩

/-- A call that makes no row wait and takes no member out of the table wedges nothing. -/
theorem Unwedged.mono (h : Unwedged o)
    (hrows : ∀ b w r, o'.RowOf b w r → r.status = .pending → o.RowOf b w r)
    (hrv : ∀ b v, o.rendezvous b = some v →
      ∃ v', o'.rendezvous b = some v' ∧ v'.members = v.members) : Unwedged o' := by
  rw [unwedged_iff_rendezvous] at h ⊢
  intro w r b hrow hst
  obtain ⟨v, hv, hmem⟩ := h w r b (hrows b w r hrow hst) hst
  obtain ⟨v', hv', heq⟩ := hrv b v hv
  exact ⟨v', hv', heq ▸ hmem⟩

theorem unwedged_appends {s : Submission} {rows : List Row} (h : Unwedged o)
    (hfresh : Fresh o (.submit s)) (happ : Appends s rows o o') : Unwedged o' := by
  intro w r b hrow hst
  rcases rowOf_appends happ hrow with hold | ⟨hb, row, hmem, _, rfl⟩
  · obtain ⟨e, he, hin⟩ := h w r b hold hst
    refine ⟨e, ?_, hin⟩
    rw [happ.batches b, if_neg fun hb => hfresh.2.2 b hb w r hold.1 hold.2, he]
  · refine ⟨armedBatch s, by rw [happ.batches b, if_pos hb], OrderedSet.mem_ofList.mpr ?_⟩
    rw [← happ.targets]
    exact List.mem_map_of_mem hmem

theorem unwedged_claimed {c : Chrono} (h : Unwedged o) {d : DeviceId} {now : Timestamp}
    {res : Except DrainError (Option Claim)} (hcl : Claimed c o d now o' res) : Unwedged o' := by
  have hheads : ∀ {f g} {ms : List DeviceId} {o₁ : MemoryOutbox}, Heads f g ms o₁ o' →
      (∀ r, (g r).status ≠ .pending) → o₁.records = o.records →
      ∀ b w r, o'.RowOf b w r → r.status = .pending → o.RowOf b w r := by
    intro f g ms o₁ hh hg hrecs b w r hrow hst
    rcases hh.cases w with ⟨_, _, _, r₀, _, hrec⟩ | ⟨_, hrec⟩
    · have hr := hrow.1
      rw [hrec] at hr
      obtain rfl := Option.some.inj hr
      exact absurd hst (hg r₀)
    · exact ⟨by rw [← hrecs, ← hrec]; exact hrow.1, hrow.2⟩
  have hsame : o'.rendezvous = o.rendezvous → ∀ b v, o.rendezvous b = some v →
      ∃ v', o'.rendezvous b = some v' ∧ v'.members = v.members :=
    fun heq b v hv => ⟨v, by rw [heq, hv], rfl⟩
  have hresolved : ∀ {f g b'} {e : Batch} {gate : Gate}, o.batches b' = some e →
      Heads f g (o.arrived e b' now).elems (o.resolved b' e now gate) o' →
      ∀ b v, o.rendezvous b = some v →
        ∃ v', o'.rendezvous b = some v' ∧ v'.members = v.members := by
    intro f g b' e gate he hh b v hv
    rw [rendezvous_heads hh]
    by_cases hb : b = b'
    · subst hb
      obtain rfl := Option.some.inj ((rendezvous_eq he).symm.trans hv)
      exact ⟨_, rendezvous_resolved_self, rfl⟩
    · exact ⟨v, by rw [rendezvous_resolved_other hb, hv], rfl⟩
  cases hcl with
  | idle _ _ _ _ hrecs hrv =>
      exact h.mono (fun b w r hrow _ => ⟨hrecs ▸ hrow.1, hrow.2⟩) (hsame hrv)
  | one _ _ _ hh =>
      exact h.mono (hheads hh (by simp [WriteRecord.claimed]) rfl) (hsame (rendezvous_heads hh))
  | release _ _ _ _ _ _ he _ _ hh =>
      exact h.mono (hheads hh (by simp [WriteRecord.claimed]) rfl) (hresolved he hh)
  | late _ _ _ _ _ _ _ hh =>
      exact h.mono (hheads hh (by simp [WriteRecord.expired]) rfl) (hsame (rendezvous_heads hh))
  | expire _ _ _ _ _ he _ _ _ _ hh =>
      exact h.mono (hheads hh (by simp [WriteRecord.expired]) rfl) (hresolved he hh)

theorem unwedged_cancels {p : WriteId → Prop} {gone : BatchId → Prop} (h : Unwedged o)
    (hcan : Cancels p gone o o')
    (hall : ∀ w r b v, gone b → o.RowOf b w r → o.rendezvous b = some v →
      r.device ∈ v.members → p w) : Unwedged o' := by
  intro w r b hrow hst
  obtain ⟨hr, hnp⟩ := hcan.pending hrow.1 hst
  obtain ⟨e, he, hmem⟩ := h w r b ⟨hr, hrow.2⟩ hst
  refine ⟨e, ?_, hmem⟩
  rw [hcan.batches b ?_, he]
  exact fun hgone => hnp (hall w r b _ hgone ⟨hr, hrow.2⟩ (rendezvous_eq he) hmem)

/-- A row that failed with tries left wedges nothing exactly when its batch still waits for it. -/
theorem unwedged_retried_iff (h : Unwedged o) {id : WriteId} {r r' : WriteRecord}
    (hr : o.records id = some r) (hrecs : o'.records = Function.update o.records id (some r'))
    (hst : r'.status = .pending) (hsame : SameWrite r r') (hrv : o'.rendezvous = o.rendezvous) :
    Unwedged o' ↔ ∀ b, o.RowOf b id r → ∃ e, o.batches b = some e ∧ r.device ∈ e.members := by
  have hself : o'.records id = some r' := by rw [hrecs]; exact Function.update_self ..
  refine ⟨?_, ?_⟩
  · intro h' b hrow
    rw [unwedged_iff_rendezvous] at h'
    obtain ⟨v, hv, hmem⟩ := h' id r' b ⟨hself, hsame.batch ▸ hrow.2⟩ hst
    rw [hrv] at hv
    obtain ⟨e, he, rfl⟩ := rendezvous_some hv
    exact ⟨e, he, hsame.device ▸ hmem⟩
  -- the row that came back is the one new thing waiting
  · intro hback
    rw [unwedged_iff_rendezvous]
    intro w r₁ b hrow hst₁
    rw [hrv]
    by_cases hw : w = id
    · subst hw
      obtain rfl := Option.some.inj (hrow.1.symm.trans hself)
      obtain ⟨e, he, hmem⟩ := hback b ⟨hr, hsame.batch ▸ hrow.2⟩
      exact ⟨_, rendezvous_eq he, hsame.device ▸ hmem⟩
    · have hr₁ := hrow.1
      rw [hrecs, Function.update_of_ne hw] at hr₁
      obtain ⟨e, he, hmem⟩ := h w r₁ b ⟨hr₁, hrow.2⟩ hst₁
      exact ⟨_, rendezvous_eq he, hmem⟩

/-- A row that failed for good wedges nothing exactly when its device waits with no other. -/
theorem unwedged_dead_iff (h : Unwedged o) {id : WriteId} {r r' : WriteRecord}
    (hr : o.records id = some r) (hflight : r.status = .inFlight)
    (hrecs : o'.records = Function.update o.records id (some r')) (hst : r'.status.terminal)
    (hrv : ∀ b, o'.rendezvous b = if r.batch = some b then
      (o.rendezvous b).map (Rendezvous.without · r.device) else o.rendezvous b) :
    Unwedged o' ↔ ∀ b, o.RowOf b id r → ∀ w r₁, o.RowOf b w r₁ → r₁.status = .pending →
      r₁.device ≠ r.device := by
  have hother : ∀ {w b r₁}, r₁.status = .pending → (o'.RowOf b w r₁ ↔ o.RowOf b w r₁) := by
    intro w b r₁ hst₁
    unfold RowOf
    rw [hrecs]
    by_cases hw : w = id
    · subst hw
      rw [Function.update_self, hr]
      refine ⟨?_, ?_⟩
      · intro hx
        obtain ⟨heq, _⟩ := hx
        obtain rfl := Option.some.inj heq
        rw [hst₁] at hst
        cases hst
      · intro hx
        obtain ⟨heq, _⟩ := hx
        obtain rfl := Option.some.inj heq
        rw [hst₁] at hflight
        cases hflight
    · rw [Function.update_of_ne hw]
  refine ⟨?_, ?_⟩
  · intro h' b hrow w r₁ hrow₁ hst₁
    rw [unwedged_iff_rendezvous] at h'
    obtain ⟨v, hv, hmem⟩ := h' w r₁ b ((hother hst₁).mpr hrow₁) hst₁
    rw [hrv b, if_pos hrow.2] at hv
    obtain ⟨v₀, _, rfl⟩ := Option.map_eq_some_iff.mp hv
    exact (OrderedSet.mem_erase.mp hmem).2
  -- the batch lost one member, and what waits of it is for others
  · intro hclear
    rw [unwedged_iff_rendezvous]
    intro w r₁ b hrow₁ hst₁
    have hold := (hother hst₁).mp hrow₁
    obtain ⟨e, he, hmem⟩ := h w r₁ b hold hst₁
    rw [hrv b]
    by_cases hb : r.batch = some b
    · rw [if_pos hb, rendezvous_eq he]
      exact ⟨_, rfl, OrderedSet.mem_erase.mpr ⟨hmem, hclear b ⟨hr, hb⟩ w r₁ hold hst₁⟩⟩
    · rw [if_neg hb]
      exact ⟨_, rendezvous_eq he, hmem⟩

/-- **One step wedges nothing exactly when the condition holds of it.** -/
theorem unwedged_step_iff (c : Chrono) (hc : Conserved o) (h : Unwedged o) {op : Op}
    (hfresh : Fresh o op) : Unwedged (step c o op) ↔ KeepsRendezvous o op := by
  have hspec := step_spec c hc hfresh
  generalize step c o op = o' at hspec ⊢
  cases hspec with
  | submitted s _ hsub =>
      refine iff_of_true ?_ trivial
      cases hsub with
      | refused e heq => rw [heq]; exact h
      | replayed acceptance heq _ => rw [heq]; exact h
      | appended rows _ _ happ => exact unwedged_appends h hfresh happ
  | claimed d now _ hcl => exact iff_of_true (unwedged_claimed h hcl) trivial
  | observed d state heq => exact iff_of_true (heq ▸ h) trivial
  | canceledQueue d reason hcan =>
      refine iff_of_true (unwedged_cancels h hcan ?_) trivial
      exact fun w r b v hgone hrow hv hmem => .inr (doomed_of_member hgone hrow hv hmem)
  | canceledBatch b' reason hcan =>
      refine iff_of_true (unwedged_cancels h hcan ?_) trivial
      exact fun w r b v hgone hrow hv hmem => doomed_of_member hgone hrow hv hmem
  | settled id outcome now _ hset =>
      cases hset with
      | refused what heq hno =>
          rw [heq]
          refine iff_of_true h ?_
          cases outcome with
          | succeeded value => trivial
          | failed reason => exact fun r b hrow hst => absurd hst (hno r hrow.1)
      | succeeded r value hr hst hout heq =>
          subst hout
          refine iff_of_true (h.mono ?_ fun b v hv => ⟨v, by rw [heq]; exact hv, rfl⟩) trivial
          intro b w r₁ hrow hst₁
          have hrecs : o'.records = Function.update o.records id
              (some { r with status := .succeeded value, updatedAt := now }) := by rw [heq]; rfl
          have hr₁ := hrow.1
          rw [hrecs] at hr₁
          by_cases hw : w = id
          · subst hw
            rw [Function.update_self] at hr₁
            obtain rfl := Option.some.inj hr₁
            cases hst₁
          · rw [Function.update_of_ne hw] at hr₁
            exact ⟨hr₁, hrow.2⟩
      | retried r reason notBefore updatedAt _ hr hst hout hatt _ hrecs hrv =>
          subst hout
          rw [unwedged_retried_iff h hr hrecs rfl ⟨rfl, rfl, rfl, rfl, rfl⟩ hrv]
          refine ⟨?_, ?_⟩
          · intro hback r₁ b hrow _
            obtain rfl := Option.some.inj (hr.symm.trans hrow.1)
            exact ⟨fun _ => hback b hrow, fun hle => absurd hatt (by omega)⟩
          · exact fun hkeeps b hrow => (hkeeps r b hrow hst).1 hatt
      | dead r reason hr hst hout hatt _ hrecs hrv =>
          subst hout
          rw [unwedged_dead_iff h hr hst hrecs rfl hrv]
          refine ⟨?_, ?_⟩
          · intro hclear r₁ b hrow _
            obtain rfl := Option.some.inj (hr.symm.trans hrow.1)
            exact ⟨fun hlt => absurd hatt (by omega), fun _ => hclear b hrow⟩
          · exact fun hkeeps b hrow => (hkeeps r b hrow hst).2 hatt

end Wedge

/--
**No wedged queue, exactly.** Over any run from an empty outbox, every state reached
has every waiting row's batch in the table and waiting for the row's device, if and
only if every settlement of the run keeps the rendezvous of the row it settles.
-/
theorem unwedged_iff_keepsRendezvous (c : Chrono) (n : Nat) (backoff : Duration) (ops : List Op)
    (hfresh : Machine.Along (step c) Fresh (withMaxAttempts n backoff) ops) :
    Machine.Along (step c) (fun o op => Unwedged (step c o op)) (withMaxAttempts n backoff) ops ↔
      Machine.Along (step c) KeepsRendezvous (withMaxAttempts n backoff) ops := by
  have hstep : ∀ o op, (Conserved o ∧ Unwedged o) → Fresh o op → KeepsRendezvous o op →
      (Conserved (step c o op) ∧ Unwedged (step c o op)) := fun _ _ h hf hk =>
    ⟨conserved_step c h.1 hf, (unwedged_step_iff c h.1 h.2 hf).mpr hk⟩
  have hiff : ∀ o op, (Conserved o ∧ Unwedged o) → Fresh o op →
      (Unwedged (step c o op) ↔ KeepsRendezvous o op) := fun _ _ h hf =>
    unwedged_step_iff c h.1 h.2 hf
  refine Machine.along_iff_of_invariant hstep hiff hfresh ⟨conserved_init n backoff, ?_⟩
  intro w r b h'
  obtain ⟨hr, _⟩ := h'
  cases hr

/--
`a` and `d` go out together, `a`'s start fails and is queued again, `a`'s queue is
canceled and the batch with it, and only then does `d`'s start fail and come back.
-/
def wedgingRun : List Op :=
  [.submit startTogether, .claimNext "a" (tenOClock "01"),
    .settle "w1" (.failed "no answer") (tenOClock "02"), .cancelQueued "a" "retired",
    .settle "w2" (.failed "no answer") (tenOClock "03")]

theorem wedgingRun_fresh :
    Machine.Along (step utc) Fresh (withMaxAttempts 3 1000000000) wedgingRun :=
  ⟨overtakingRun_fresh.1, trivial, trivial, trivial, trivial, trivial⟩

/-- `d`'s start waits in a batch that is no longer in the table. -/
theorem unwedged_wedged :
    Machine.Along (step utc) Fresh (withMaxAttempts 3 1000000000) wedgingRun ∧
      ¬ Machine.Along (step utc) (fun o op => Unwedged (step utc o op))
        (withMaxAttempts 3 1000000000) wedgingRun := by
  refine ⟨wedgingRun_fresh, ?_⟩
  intro h
  obtain ⟨_, _, _, _, hlast, _⟩ := h
  have hrow : ((Machine.exec (step utc) (withMaxAttempts 3 1000000000) wedgingRun).records
      "w2").map (fun r => (r.status, r.batch)) = some (.pending, some "b") := by decide +kernel
  have hgone : (Machine.exec (step utc) (withMaxAttempts 3 1000000000) wedgingRun).batches
      "b" = none := by rfl
  obtain ⟨r, hr, heq⟩ := Option.map_eq_some_iff.mp hrow
  obtain ⟨hst, hb⟩ := Prod.mk.inj heq
  obtain ⟨e, he, _⟩ := hlast "w2" r "b" ⟨hr, hb⟩ hst
  exact absurd (he.symm.trans hgone) (by simp)

/-- The exact condition, on that run. -/
theorem unwedged_iff_wedgingRun :
    Machine.Along (step utc) (fun o op => Unwedged (step utc o op))
        (withMaxAttempts 3 1000000000) wedgingRun ↔
      Machine.Along (step utc) KeepsRendezvous (withMaxAttempts 3 1000000000) wedgingRun :=
  unwedged_iff_keepsRendezvous utc 3 1000000000 wedgingRun wedgingRun_fresh

end Sismatic
