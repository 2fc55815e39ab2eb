import Sismatic.Proof.Recovery

/-!
# From one task to the next

Replacing a device's task does not wait: the old task finishes the exchange it is in and
settles what it claimed, and the new one starts by asking what is in flight. It takes
all of it for what an earlier process left behind, and nothing tells it otherwise.

So two tasks stay out of each other's way as long as what the new one finds in flight is
in no task's hand. Then every write that is in hand is in one hand, what is settled is
the claim that was made, and no write is in two exchanges.
-/

namespace Sismatic

open MemoryOutbox

/--
The world, with what each task has in hand as it found or claimed it, and the exchange
that answered, with its replies, while the task reports.
-/
structure Handover where
  world : World
  held : Nat → List WriteRecord
  ran : Nat → Option (Exchange × (DeviceId → Reply))

/-- What a task has in hand after a turn that took it from `before` to `after`. -/
def Phase.heldAfter (before after : Phase) (held : List WriteRecord) : List WriteRecord :=
  match before, after with
  | .settling _, .settling _ => held.tail
  | _, .settling _ => held
  | _, after => after.carried

/-- The exchange that answered, after such a turn. -/
def Phase.ranAfter (before after : Phase) (reply : DeviceId → Reply)
    (ran : Option (Exchange × (DeviceId → Reply))) : Option (Exchange × (DeviceId → Reply)) :=
  match before.onWire, after with
  | some e, _ => some (e, reply)
  | none, .settling _ => ran
  | none, _ => none

def Handover.step (c : Chrono) (v : Handover) (act : Act) : Handover :=
  let world := v.world.step c act
  match act with
  | .turn i _ reply =>
      match v.world.tasks[i]?, world.tasks[i]? with
      | some task, some task' =>
          { world := world
            held := Function.update v.held i (task.phase.heldAfter task'.phase (v.held i))
            ran := Function.update v.ran i (task.phase.ranAfter task'.phase reply (v.ran i)) }
      | _, _ => { v with world := world }
  | _ => { v with world := world }

def Handover.start (o : MemoryOutbox) (registry : Registry) : Handover :=
  ⟨World.over o registry, fun _ => [], fun _ => none⟩

/-- What a task finds in flight when it starts, no task has in hand. -/
def TakesOverNothing (w : World) (act : Act) : Prop :=
  ∀ (i : Nat) (now : Timestamp) (reply : DeviceId → Reply) (task : RelayTask),
    act = .turn i now reply → w.tasks[i]? = some task → task.phase = .recover →
    ∀ r ∈ w.outbox.inFlight task.device.id,
      ∀ (j : Nat) (task' : RelayTask), w.tasks[j]? = some task' → r.id ∉ task'.phase.taken

/-- The exchange `e` is in progress, run by the task at `i`. -/
def World.InProgress (w : World) (i : Nat) (e : Exchange) : Prop :=
  ∃ task, w.tasks[i]? = some task ∧ task.phase.onWire = some e

/-- No write is in two exchanges in progress, or twice in one. -/
structure World.OneExchange (w : World) : Prop where
  apart : ∀ i j e e' id, w.InProgress i e → w.InProgress j e' → e.Carries id → e'.Carries id →
    i = j
  once : ∀ i e, w.InProgress i e → (e.records.map (·.id)).Nodup

/--
What a step settles is what its task found or claimed, still as it was handed out, and
the outcome is the one the task's own exchange gave that write, if it came to one.
-/
def SettlesOwn (v : Handover) (act : Act) : Prop :=
  ∀ (i : Nat) (now : Timestamp) (reply : DeviceId → Reply) (task : RelayTask) (id : WriteId)
    (outcome : Outcome) (rest : List (WriteId × Outcome)),
    act = .turn i now reply → v.world.tasks[i]? = some task →
    task.phase = .settling ((id, outcome) :: rest) →
    ∃ r ∈ v.held i, r.id = id ∧ v.world.outbox.records id = some r ∧ r.status = .inFlight ∧
      ∀ e reply, v.ran i = some (e, reply) →
        r ∈ e.records ∧ outcome = e.outcome task.device reply r

/-! ## What one task has in hand -/

/-- The outcome `p` is reported for the write `r`, as the exchange that ran gave it. -/
def Reports (device : Device) (ran : Option (Exchange × (DeviceId → Reply)))
    (p : WriteId × Outcome) (r : WriteRecord) : Prop :=
  p.1 = r.id ∧ ∀ e reply, ran = some (e, reply) → r ∈ e.records ∧ p.2 = e.outcome device reply r

inductive InHand (task : RelayTask) :
    List WriteRecord → Option (Exchange × (DeviceId → Reply)) → Prop
  | carrying : (∀ outcomes, task.phase ≠ .settling outcomes) →
      InHand task task.phase.carried none
  | reporting (outcomes : List (WriteId × Outcome)) (held : List WriteRecord)
      (ran : Option (Exchange × (DeviceId → Reply))) : task.phase = .settling outcomes →
      List.Forall₂ (Reports task.device ran) outcomes held → InHand task held ran

section Handover

variable {c : Chrono}

theorem Reports.ids {device : Device} {ran : Option (Exchange × (DeviceId → Reply))}
    {outcomes : List (WriteId × Outcome)} {held : List WriteRecord}
    (h : List.Forall₂ (Reports device ran) outcomes held) :
    held.map (·.id) = outcomes.map Prod.fst := by
  induction h with
  | nil => rfl
  | cons hhead _ ih => rw [List.map_cons, List.map_cons, ih, hhead.1]

theorem InHand.taken {task : RelayTask} {held : List WriteRecord}
    {ran : Option (Exchange × (DeviceId → Reply))} (h : InHand task held ran) :
    held.map (·.id) = task.phase.taken := by
  cases h with
  | carrying hno => exact (Phase.taken_of_carried hno).symm
  | reporting outcomes _ _ hphase hall =>
      rw [hphase]
      exact Reports.ids hall

theorem InHand.congr {task task' : RelayTask} {held : List WriteRecord}
    {ran : Option (Exchange × (DeviceId → Reply))} (h : InHand task held ran)
    (hphase : task'.phase = task.phase) (hdev : task'.device = task.device) :
    InHand task' held ran := by
  cases h with
  | carrying hno =>
      rw [← hphase] at hno ⊢
      exact .carrying hno
  | reporting outcomes _ _ hfrom hall =>
      rw [← hdev] at hall
      exact .reporting outcomes _ _ (hphase.trans hfrom) hall

/-- A task that is not reporting carries what it has in hand. -/
theorem InHand.of_carrying {task : RelayTask} {held : List WriteRecord}
    {ran : Option (Exchange × (DeviceId → Reply))} (h : InHand task held ran)
    (hno : ∀ outcomes, task.phase ≠ .settling outcomes) :
    held = task.phase.carried ∧ ran = none := by
  cases h with
  | carrying _ => exact ⟨rfl, rfl⟩
  | reporting outcomes _ _ hphase _ => exact absurd hphase (hno outcomes)

theorem heldAfter_carried {before after : Phase} (hno : ∀ outcomes, after ≠ .settling outcomes)
    (held : List WriteRecord) : before.heldAfter after held = after.carried := by
  unfold Phase.heldAfter
  split
  · exact absurd rfl (hno _)
  · exact absurd rfl (hno _)
  · rfl

theorem heldAfter_settling {before : Phase} (hno : ∀ outcomes, before ≠ .settling outcomes)
    (outcomes : List (WriteId × Outcome)) (held : List WriteRecord) :
    before.heldAfter (.settling outcomes) held = held := by
  cases before with
  | settling outcomes => exact absurd rfl (hno outcomes)
  | _ => rfl

theorem ranAfter_carried {before after : Phase} (hwire : before.onWire = none)
    (hno : ∀ outcomes, after ≠ .settling outcomes) (reply : DeviceId → Reply)
    (ran : Option (Exchange × (DeviceId → Reply))) : before.ranAfter after reply ran = none := by
  unfold Phase.ranAfter
  rw [hwire]
  cases after with
  | settling outcomes => exact absurd rfl (hno outcomes)
  | _ => rfl

theorem ranAfter_settling {before : Phase} (hwire : before.onWire = none)
    (outcomes : List (WriteId × Outcome)) (reply : DeviceId → Reply)
    (ran : Option (Exchange × (DeviceId → Reply))) :
    before.ranAfter (.settling outcomes) reply ran = ran := by
  unfold Phase.ranAfter
  rw [hwire]

theorem inHand_carrying {before : Phase} (task : RelayTask) (hwire : before.onWire = none)
    (hno : ∀ outcomes, task.phase ≠ .settling outcomes) (held : List WriteRecord)
    (reply : DeviceId → Reply) (ran : Option (Exchange × (DeviceId → Reply))) :
    InHand task (before.heldAfter task.phase held) (before.ranAfter task.phase reply ran) := by
  rw [heldAfter_carried hno, ranAfter_carried hwire hno]
  exact .carrying hno

theorem reports_settleAll {device : Device} {ran : Option (Exchange × (DeviceId → Reply))}
    {outcomeFor : WriteRecord → Outcome} {records : List WriteRecord}
    (h : ∀ r ∈ records, ∀ e reply, ran = some (e, reply) →
      r ∈ e.records ∧ outcomeFor r = e.outcome device reply r) :
    List.Forall₂ (Reports device ran) (settleAll records outcomeFor) records := by
  refine List.forall₂_map_left_iff.mpr (List.forall₂_same.mpr ?_)
  exact fun r hr => ⟨rfl, h r hr⟩

/-- **A turn keeps what a task has in hand in step with its phase.** -/
theorem inHand_turned {w : World} {task task' : RelayTask} {now : Timestamp}
    {reply : DeviceId → Reply} (hdev : task'.device = task.device)
    (hhandled : Handled c w task now reply task'.phase) {held : List WriteRecord}
    {ran : Option (Exchange × (DeviceId → Reply))} (h : InHand task held ran) :
    InHand task' (task.phase.heldAfter task'.phase held)
      (task.phase.ranAfter task'.phase reply ran) := by
  generalize hphase : task'.phase = phase at hhandled
  cases hhandled with
  | clear hrec _ =>
      rw [hrec, ← hphase]
      exact inHand_carrying task' rfl (by simp [hphase]) held reply ran
  | found hrec =>
      rw [hrec, ← hphase]
      exact inHand_carrying task' rfl (by simp [hphase]) held reply ran
  | asked stranded hfrom =>
      have hno : ∀ outcomes, task.phase ≠ .settling outcomes := by simp [hfrom]
      obtain ⟨rfl, rfl⟩ := h.of_carrying hno
      rw [heldAfter_settling hno, ranAfter_settling (by rw [hfrom]; rfl), hfrom]
      refine .reporting _ _ _ hphase (reports_settleAll ?_)
      intro r _ e reply' hran
      cases hran
  | claimed claim hidle _ _ =>
      rw [hidle, ← hphase]
      refine inHand_carrying task' rfl ?_ held reply ran
      rw [hphase]
      cases claim <;> simp [Claim.phase]
  | refused e reason hex =>
      have hno : ∀ outcomes, task.phase ≠ .settling outcomes := by
        intro outcomes heq
        rw [heq] at hex
        cases hex
      have hwire : task.phase.onWire = none := by
        cases hfrom : task.phase <;> rw [hfrom] at hex <;> cases hex <;> rfl
      obtain ⟨rfl, rfl⟩ := h.of_carrying hno
      rw [heldAfter_settling hno, ranAfter_settling hwire, (taken_of_exchange hex).1]
      refine .reporting _ _ _ hphase (reports_settleAll ?_)
      intro r _ e reply' hran
      cases hran
  | heard e hwire =>
      have hno : ∀ outcomes, task.phase ≠ .settling outcomes := by
        intro outcomes heq
        rw [heq] at hwire
        cases hwire
      obtain ⟨rfl, rfl⟩ := h.of_carrying hno
      rw [heldAfter_settling hno, (taken_of_onWire hwire).1]
      have hran : ∀ outcomes, task.phase.ranAfter (.settling outcomes) reply none =
          some (e, reply) := by
        intro outcomes
        unfold Phase.ranAfter
        rw [hwire]
      rw [hran]
      rw [← hdev] at hphase
      refine .reporting _ _ _ hphase (reports_settleAll ?_)
      intro r hr e' reply' heq
      obtain ⟨rfl, rfl⟩ := Prod.mk.inj (Option.some.inj heq)
      exact ⟨hr, rfl⟩
  | settled id outcome rest hfrom =>
      rw [hfrom, ranAfter_settling rfl]
      show InHand task' held.tail ran
      cases h with
      | carrying hno => exact absurd hfrom (hno _)
      | reporting outcomes _ _ hfrom' hall =>
          obtain rfl := Phase.settling.inj (hfrom.symm.trans hfrom')
          cases hall with
          | cons _ htail =>
              rw [← hdev] at htail
              exact .reporting _ _ _ hphase htail
  | reported hfrom =>
      rw [hfrom, ← hphase]
      exact inHand_carrying task' rfl (by simp [hphase]) held reply ran
  | worked _ _ _ hwire hno _ _ =>
      subst hphase
      exact inHand_carrying task' hwire hno held reply ran

/-! ## Every write in hand is in one hand -/

structure Handed (v : Handover) : Prop where
  conserved : Conserved v.world.outbox
  inHand : ∀ (i : Nat) (task : RelayTask), v.world.tasks[i]? = some task →
    InHand task (v.held i) (v.ran i)
  /-- No task, nothing in hand. -/
  empty : ∀ i, v.world.tasks[i]? = none → v.held i = [] ∧ v.ran i = none
  once : ∀ i, ((v.held i).map (·.id)).Nodup
  apart : ∀ i j, ∀ r ∈ v.held i, ∀ s ∈ v.held j, r.id = s.id → i = j
  /-- What is in hand is in flight, and on record as it was handed out. -/
  live : ∀ i, ∀ r ∈ v.held i, v.world.outbox.records r.id = some r ∧ r.status = .inFlight

theorem handed_start {o : MemoryOutbox} (hc : Conserved o) (registry : Registry) :
    Handed (Handover.start o registry) where
  conserved := hc
  inHand := by
    intro i task h
    cases h
  empty := fun _ _ => ⟨rfl, rfl⟩
  once := fun _ => List.nodup_nil
  apart := by
    intro i j r hr
    cases hr
  live := by
    intro i r hr
    cases hr

/-- The world goes on as it does without the record of what is in hand. -/
@[simp] theorem handover_step_world (v : Handover) (act : Act) :
    (v.step c act).world = v.world.step c act := by
  unfold Handover.step
  cases act with
  | turn i now reply =>
      dsimp only
      split <;> rfl
  | _ => rfl

/-- A task that does not move keeps what it has. -/
theorem handover_step_kept {v : Handover} {act : Act} {j : Nat}
    (hother : ∀ now reply, act ≠ .turn j now reply) :
    (v.step c act).held j = v.held j ∧ (v.step c act).ran j = v.ran j := by
  unfold Handover.step
  cases act with
  | turn i now reply =>
      have hij : j ≠ i := fun hij => hother now reply (by rw [hij])
      dsimp only
      split
      · exact ⟨Function.update_of_ne hij .., Function.update_of_ne hij ..⟩
      · exact ⟨rfl, rfl⟩
  | _ => exact ⟨rfl, rfl⟩

/-- One that moves has what its phases say. -/
theorem handover_step_turned {v : Handover} {i : Nat} {now : Timestamp} {reply : DeviceId → Reply}
    {task task' : RelayTask} (htask : v.world.tasks[i]? = some task)
    (htask' : (v.world.step c (.turn i now reply)).tasks[i]? = some task') :
    (v.step c (.turn i now reply)).held i = task.phase.heldAfter task'.phase (v.held i) ∧
      (v.step c (.turn i now reply)).ran i =
        task.phase.ranAfter task'.phase reply (v.ran i) := by
  unfold Handover.step
  simp only [htask, htask', Function.update_self, and_self]

theorem inHand_step {v : Handover} (h : Handed v) {act : Act} {i : Nat} {task' : RelayTask}
    (htask' : (v.world.step c act).tasks[i]? = some task') :
    InHand task' ((v.step c act).held i) ((v.step c act).ran i) := by
  cases task_moved act htask' with
  | kept task htask hphase hdev hother =>
      obtain ⟨hheld, hran⟩ := handover_step_kept (c := c) (v := v) hother
      rw [hheld, hran]
      exact (h.inHand i task htask).congr hphase hdev
  | spawned hnone hrec hother =>
      obtain ⟨hheld, hran⟩ := handover_step_kept (c := c) (v := v) hother
      obtain ⟨hnil, hnoran⟩ := h.empty i hnone
      have hcarried : task'.phase.carried = [] := by rw [hrec]; rfl
      rw [hheld, hran, hnil, hnoran, ← hcarried]
      exact .carrying (by simp [hrec])
  | turned task now reply hact htask hdev hhandled =>
      subst hact
      obtain ⟨hheld, hran⟩ := handover_step_turned htask htask'
      rw [hheld, hran]
      exact inHand_turned hdev hhandled (h.inHand i task htask)

/-- What a task has in hand after a step: part of what it had, what it found, or its claim. -/
inductive Gained (c : Chrono) (v : Handover) (act : Act) (i : Nat) : List WriteRecord → Prop
  | kept (held : List WriteRecord) : List.Sublist held (v.held i) → Gained c v act i held
  | found (now : Timestamp) (reply : DeviceId → Reply) (task : RelayTask) :
      act = .turn i now reply → v.world.tasks[i]? = some task → task.phase = .recover →
      Gained c v act i (v.world.outbox.inFlight task.device.id)
  | claimed (now : Timestamp) (reply : DeviceId → Reply) (d : DeviceId) (claim : Claim) :
      act = .turn i now reply → act.call v.world = some (.claimNext d now) →
      (v.world.outbox.claimNext c d now).2 = .ok (some claim) →
      Gained c v act i claim.exchange.records

theorem gained_turned {v : Handover} (h : Handed v) {i : Nat} {now : Timestamp}
    {reply : DeviceId → Reply} {task task' : RelayTask} (htask : v.world.tasks[i]? = some task)
    (hhandled : Handled c v.world task now reply task'.phase) :
    Gained c v (.turn i now reply) i (task.phase.heldAfter task'.phase (v.held i)) := by
  have hhand := h.inHand i task htask
  generalize task'.phase = phase at hhandled
  cases hhandled with
  | clear hrec _ | reported hrec =>
      rw [hrec]
      exact .kept _ (List.nil_sublist _)
  | found hrec =>
      rw [heldAfter_carried (by simp)]
      exact .found now reply task rfl htask hrec
  | asked stranded hfrom =>
      rw [heldAfter_settling (by simp [hfrom])]
      exact .kept _ (List.Sublist.refl _)
  | claimed claim hidle hcan hans =>
      rw [heldAfter_carried (by cases claim <;> simp [Claim.phase]), Claim.carried_phase]
      exact .claimed now reply task.device.id claim rfl (call_of_claimed htask hidle hcan) hans
  | refused e _ hex | heard e hex =>
      have hno : ∀ outcomes, task.phase ≠ .settling outcomes := by
        intro outcomes heq
        rw [heq] at hex
        cases hex
      rw [heldAfter_settling hno]
      exact .kept _ (List.Sublist.refl _)
  | settled id outcome rest hfrom =>
      rw [hfrom]
      exact .kept _ (List.tail_sublist _)
  | worked _ hset _ _ hno _ hcarried =>
      rw [heldAfter_carried hno, hcarried, ← (hhand.of_carrying hset).1]
      exact .kept _ (List.Sublist.refl _)

theorem gained_step {v : Handover} (h : Handed v) (act : Act) (i : Nat) :
    Gained c v act i ((v.step c act).held i) := by
  by_cases hturn : ∃ now reply, act = .turn i now reply
  · obtain ⟨now, reply, rfl⟩ := hturn
    cases htask' : (v.world.step c (.turn i now reply)).tasks[i]? with
    | none =>
        have hsame : (v.step c (.turn i now reply)).held i = v.held i := by
          unfold Handover.step
          dsimp only
          rw [htask']
          split
          · rename_i _ heq
            cases heq
          · rfl
        rw [hsame]
        exact .kept _ (List.Sublist.refl _)
    | some task' =>
        cases task_moved _ htask' with
        | kept _ _ _ _ hother => exact absurd rfl (hother now reply)
        | spawned _ _ hother => exact absurd rfl (hother now reply)
        | turned task now' reply' hact htask _ hhandled =>
            cases hact
            rw [(handover_step_turned htask htask').1]
            exact gained_turned h htask hhandled
  · have hother : ∀ now reply, act ≠ .turn i now reply :=
      fun now reply hact => hturn ⟨now, reply, hact⟩
    rw [(handover_step_kept hother).1]
    exact .kept _ (List.Sublist.refl _)

theorem empty_step {v : Handover} (h : Handed v) {act : Act} {i : Nat}
    (hnone : (v.world.step c act).tasks[i]? = none) :
    (v.step c act).held i = [] ∧ (v.step c act).ran i = none := by
  have hwas : v.world.tasks[i]? = none := by
    have hle := List.getElem?_eq_none_iff.mp hnone
    exact List.getElem?_eq_none (le_trans (tasks_length_le v.world act) hle)
  obtain ⟨hheld, hran⟩ := h.empty i hwas
  unfold Handover.step
  cases act with
  | turn j now reply =>
      by_cases hij : i = j
      · subst hij
        simp only [hwas, hheld, hran, and_self]
      · dsimp only
        split
        · simp only [Function.update_of_ne hij, hheld, hran, and_self]
        · exact ⟨hheld, hran⟩
  | _ => exact ⟨hheld, hran⟩

/-- What a task claims was in no hand: it was waiting. -/
theorem claimed_not_held {v : Handover} (h : Handed v) {d : DeviceId} {now : Timestamp}
    {claim : Claim} (hans : (v.world.outbox.claimNext c d now).2 = .ok (some claim))
    {r : WriteRecord} (hr : r ∈ claim.exchange.records) {j : Nat} {s : WriteRecord}
    (hs : s ∈ v.held j) : r.id ≠ s.id := by
  intro heq
  obtain ⟨_, ⟨r₀, hr₀, hpending⟩, _⟩ := (claimed_rows h.conserved hans).1 r hr
  obtain ⟨hrec, hflight⟩ := h.live j s hs
  rw [heq, hrec] at hr₀
  obtain rfl := Option.some.inj hr₀
  rw [hpending] at hflight
  cases hflight

/-- Nor was what it finds, if it takes over nothing. -/
theorem found_not_held {v : Handover} (h : Handed v) {i : Nat} {now : Timestamp}
    {reply : DeviceId → Reply} (hnothing : TakesOverNothing v.world (.turn i now reply))
    {task : RelayTask} (htask : v.world.tasks[i]? = some task) (hrec : task.phase = .recover)
    {r : WriteRecord} (hr : r ∈ v.world.outbox.inFlight task.device.id) {j : Nat}
    {s : WriteRecord} (hs : s ∈ v.held j) : r.id ≠ s.id := by
  intro heq
  cases htask' : v.world.tasks[j]? with
  | none =>
      rw [(h.empty j htask').1] at hs
      cases hs
  | some task' =>
      refine hnothing i now reply task rfl htask hrec r hr j task' htask' ?_
      rw [← (h.inHand j task' htask').taken, heq]
      exact List.mem_map_of_mem hs

/-- What a task has in hand it had, or got with this turn of its own from no task's hand. -/
theorem mem_held_step {v : Handover} (h : Handed v) {act : Act}
    (hnothing : TakesOverNothing v.world act) {i : Nat} {r : WriteRecord}
    (hr : r ∈ (v.step c act).held i) :
    r ∈ v.held i ∨ (∃ now reply, act = .turn i now reply) ∧
      ∀ j, ∀ s ∈ v.held j, r.id ≠ s.id := by
  have hgained := gained_step (c := c) h act i
  generalize (v.step c act).held i = held at hr hgained
  cases hgained with
  | kept _ hsub => exact .inl (hsub.subset hr)
  | found now reply task hact htask hrec =>
      subst hact
      exact .inr ⟨⟨now, reply, rfl⟩, fun j s hs => found_not_held h hnothing htask hrec hr hs⟩
  | claimed now reply d claim hact _ hans =>
      exact .inr ⟨⟨now, reply, hact⟩, fun j s hs => claimed_not_held h hans hr hs⟩

theorem apart_step {v : Handover} (h : Handed v) {act : Act}
    (hnothing : TakesOverNothing v.world act) :
    ∀ i j, ∀ r ∈ (v.step c act).held i, ∀ s ∈ (v.step c act).held j, r.id = s.id → i = j := by
  intro i j r hr s hs heq
  rcases mem_held_step h hnothing hr with hr | ⟨⟨now, reply, hact⟩, hnew⟩
  · rcases mem_held_step h hnothing hs with hs | ⟨_, hnew⟩
    · exact h.apart i j r hr s hs heq
    · exact absurd heq.symm (hnew i r hr)
  · rcases mem_held_step h hnothing hs with hs | ⟨⟨now', reply', hact'⟩, _⟩
    · exact absurd heq (hnew j s hs)
    · rw [hact] at hact'
      cases hact'
      rfl

/-- A device's writes in flight are found once each. -/
theorem inFlight_nodup {o : MemoryOutbox} (hc : Conserved o) (d : DeviceId) :
    ((o.inFlight d).map (·.id)).Nodup := by
  unfold inFlight
  refine List.Nodup.sublist (List.filter_sublist.map _) ?_
  rw [List.map_filterMap]
  refine (hc.board.history_nodup d).filterMap ?_
  intro w w' id hw hw'
  obtain ⟨r, hr, rfl⟩ := Option.map_eq_some_iff.mp hw
  obtain ⟨r', hr', hid⟩ := Option.map_eq_some_iff.mp hw'
  rw [← hc.named w r hr, ← hc.named w' r' hr', hid]

theorem once_step {v : Handover} (h : Handed v) (act : Act) (i : Nat) :
    (((v.step c act).held i).map (·.id)).Nodup := by
  have hgained := gained_step (c := c) h act i
  generalize (v.step c act).held i = held at hgained
  cases hgained with
  | kept _ hsub => exact (h.once i).sublist (hsub.map _)
  | found now reply task _ _ _ => exact inFlight_nodup h.conserved _
  | claimed now reply d claim _ _ hans => exact (claimed_rows h.conserved hans).2

/-- A settlement is of the first write its task has in hand. -/
theorem head_of_settling {v : Handover} (h : Handed v) {i : Nat} {task : RelayTask}
    {id : WriteId} {outcome : Outcome} {rest : List (WriteId × Outcome)}
    (htask : v.world.tasks[i]? = some task)
    (hphase : task.phase = .settling ((id, outcome) :: rest)) :
    ∃ r held, v.held i = r :: held ∧ Reports task.device (v.ran i) (id, outcome) r := by
  have hhand := h.inHand i task htask
  generalize v.held i = held at hhand
  generalize v.ran i = ran at hhand
  cases hhand with
  | carrying hno => exact absurd hphase (hno _)
  | reporting outcomes _ _ hfrom hall =>
      obtain rfl := Phase.settling.inj (hphase.symm.trans hfrom)
      cases hall with
      | cons hhead _ => exact ⟨_, _, rfl, hhead⟩

theorem held_settled {v : Handover} {i : Nat} (now : Timestamp) (reply : DeviceId → Reply)
    {task : RelayTask} {first : WriteId × Outcome} {rest : List (WriteId × Outcome)}
    (htask : v.world.tasks[i]? = some task) (hphase : task.phase = .settling (first :: rest)) :
    (v.step c (.turn i now reply)).held i = (v.held i).tail := by
  obtain ⟨phase, hhandled, htasks⟩ := turn_handled (c := c) htask now reply
  obtain rfl := hhandled.of_settling hphase
  have hnow : (v.world.step c (.turn i now reply)).tasks[i]? =
      some { task with phase := .settling rest } := by
    show (World.turn c v.world i now reply).tasks[i]? = _
    rw [htasks, List.getElem?_set_self (List.getElem?_eq_some_iff.mp htask).1]
  rw [(handover_step_turned htask hnow).1, hphase]
  rfl

theorem live_step {v : Handover} (h : Handed v) {act : Act} (hfresh : ActFresh v.world act)
    (hnothing : TakesOverNothing v.world act) (i : Nat) :
    ∀ r ∈ (v.step c act).held i,
      (v.world.step c act).outbox.records r.id = some r ∧ r.status = .inFlight := by
  intro r hr
  -- what was in hand is on record as it was, unless this step settles it
  have hold : r ∈ v.held i → (v.world.step c act).outbox.records r.id = some r ∧
      r.status = .inFlight := by
    intro hwas
    obtain ⟨hrec, hflight⟩ := h.live i r hwas
    obtain ⟨r', hr', _, hmoved⟩ := record_act (c := c) h.conserved hfresh hrec
    rcases hmoved hflight with rfl | ⟨outcome, now, hcall⟩
    · exact ⟨hr', hflight⟩
    · obtain ⟨j, reply, task, rest, rfl, htask, hphase⟩ := settling_of_call hcall
      obtain ⟨r₀, held, hheld, hid, _⟩ := head_of_settling h htask hphase
      have hmem : r₀ ∈ v.held j := by rw [hheld]; exact List.mem_cons_self ..
      obtain rfl := h.apart i j r hwas r₀ hmem hid
      -- the write settled has left the task's hand, and was in it once
      have honce := h.once i
      rw [hheld, List.map_cons, List.nodup_cons] at honce
      rw [held_settled now reply htask hphase, hheld, List.tail_cons] at hr
      exact absurd (hid ▸ List.mem_map_of_mem hr) honce.1
  have hgained := gained_step (c := c) h act i
  generalize (v.step c act).held i = held at hr hgained
  cases hgained with
  | kept _ hsub => exact hold (hsub.subset hr)
  | found now reply task hact htask hrec =>
      subst hact
      obtain ⟨hon, _, hflight⟩ := mem_inFlight h.conserved hr
      refine ⟨?_, hflight⟩
      have hcall : (Act.turn i now reply).call v.world = none := by
        simp [Act.call, htask, RelayTask.call, hrec]
      rw [outbox_step, hcall]
      exact hon
  | claimed now reply d claim _ hcall hans =>
      obtain ⟨hflight, _, hon⟩ := (claimed_rows h.conserved hans).1 r hr
      rw [outbox_step, hcall]
      exact ⟨hon, hflight⟩

/-- **Every step that takes over nothing keeps hands apart.** -/
theorem handed_step {v : Handover} (h : Handed v) {act : Act} (hfresh : ActFresh v.world act)
    (hnothing : TakesOverNothing v.world act) : Handed (v.step c act) where
  conserved := by
    rw [handover_step_world]
    exact conserved_act h.conserved hfresh
  inHand := by
    intro i task htask
    rw [handover_step_world] at htask
    exact inHand_step h htask
  empty := by
    intro i hnone
    rw [handover_step_world] at hnone
    exact empty_step h hnone
  once := once_step h act
  apart := apart_step h hnothing
  live := by
    intro i r hr
    rw [handover_step_world]
    exact live_step h hfresh hnothing i r hr

/-! ## One exchange, and its own outcome -/

/-- What is on the wire is in the hand of the task that sent it. -/
theorem held_of_inProgress {v : Handover} (h : Handed v) {i : Nat} {e : Exchange}
    (he : v.world.InProgress i e) : v.held i = e.records := by
  obtain ⟨task, htask, hwire⟩ := he
  have hno : ∀ outcomes, task.phase ≠ .settling outcomes := by
    intro outcomes heq
    rw [heq] at hwire
    cases hwire
  rw [((h.inHand i task htask).of_carrying hno).1, (taken_of_onWire hwire).1]

theorem Handed.oneExchange {v : Handover} (h : Handed v) : v.world.OneExchange where
  apart := by
    intro i j e e' id he he' hcarries hcarries'
    obtain ⟨r, hr, rfl⟩ := hcarries
    obtain ⟨s, hs, hid⟩ := hcarries'
    rw [← held_of_inProgress h he] at hr
    rw [← held_of_inProgress h he'] at hs
    exact h.apart i j r hr s hs hid.symm
  once := by
    intro i e he
    rw [← held_of_inProgress h he]
    exact h.once i

theorem Handed.settlesOwn {v : Handover} (h : Handed v) (act : Act) : SettlesOwn v act := by
  intro i now reply task id outcome rest _ htask hphase
  obtain ⟨r, held, hheld, hid, hran⟩ := head_of_settling h htask hphase
  have hmem : r ∈ v.held i := by rw [hheld]; exact List.mem_cons_self ..
  obtain ⟨hrec, hflight⟩ := h.live i r hmem
  obtain rfl : id = r.id := hid
  exact ⟨r, hmem, rfl, hrec, hflight, hran⟩

end Handover

/--
**A write is in one exchange at a time, and is settled by its own**, over whatever an
earlier process left in flight and through any interleaving of tasks, changes of the
device set, polls and cancellations, as long as no task starts by taking over a write
that another task has in hand.
-/
theorem one_exchange (c : Chrono) (n : Nat) (backoff : Duration) {ops : List Op}
    (hops : Machine.Along (MemoryOutbox.step c) Fresh (withMaxAttempts n backoff) ops)
    (registry : Registry) {acts : List Act}
    (hrun : Machine.Along (World.step c) ActFresh
      (World.over (Machine.exec (MemoryOutbox.step c) (withMaxAttempts n backoff) ops) registry)
      acts)
    (hnothing : Machine.Along (World.step c) TakesOverNothing
      (World.over (Machine.exec (MemoryOutbox.step c) (withMaxAttempts n backoff) ops) registry)
      acts) :
    Machine.Along (Handover.step c) (fun v act => v.world.OneExchange ∧ SettlesOwn v act)
        (Handover.start
          (Machine.exec (MemoryOutbox.step c) (withMaxAttempts n backoff) ops) registry) acts ∧
      (Machine.exec (World.step c)
        (World.over (Machine.exec (MemoryOutbox.step c) (withMaxAttempts n backoff) ops) registry)
        acts).OneExchange := by
  have hc := conserved_run c n backoff hops
  generalize Machine.exec (MemoryOutbox.step c) (withMaxAttempts n backoff) ops = o at *
  have hboth := Machine.along_and.mpr ⟨hrun, hnothing⟩
  have hghost := (Machine.along_map (f := Handover.world) (t := Handover.start o registry)
    handover_step_world).mpr hboth
  have hstep : ∀ v act, Handed v → ActFresh v.world act ∧ TakesOverNothing v.world act →
      Handed (v.step c act) := fun _ _ h hok => handed_step h hok.1 hok.2
  refine ⟨?_, ?_⟩
  · exact Machine.along_of_invariant hstep (fun _ act h _ => ⟨h.oneExchange, h.settlesOwn act⟩)
      hghost (handed_start hc registry)
  · have hlast := Machine.exec_invariant hstep hghost (handed_start hc registry)
    have hworld : (Machine.exec (Handover.step c) (Handover.start o registry) acts).world =
        Machine.exec (World.step c) (World.over o registry) acts :=
      Machine.exec_map handover_step_world _ acts
    exact hworld ▸ hlast.oneExchange

/-- Start `a`. -/
def startA : Submission where
  ids := ["w1"]
  targets := ["a"]
  group := none
  batch := none
  barrier := none
  intent := .startRecording
  atTime := tenOClock "00"
  idempotencyKey := none

/-- The task at `i` takes its next step; no device answers. -/
def silentTurn (i : Nat) (seconds : String) : Act :=
  .turn i (tenOClock seconds) fun _ => .error "no answer"

/-- `a`'s task claims the start and sends it. -/
def sendingTurns : List Act :=
  [.apply, .submit startA, turnOfA "01", turnOfA "01", turnOfA "01", turnOfA "01"]

/-- `a` is edited: another handle under the same id. -/
def editedA : Registry := ⟨OrderedSet.ofList ["a"], fun id => id ++ "-edited"⟩

/-- The new task finds the start in flight, gets no answer, and sends the start itself. -/
def takeoverTurns : List Act :=
  sendingTurns ++ [.register editedA, .apply, silentTurn 1 "02", silentTurn 1 "02",
    silentTurn 1 "03", silentTurn 1 "03", silentTurn 1 "10", silentTurn 1 "10", silentTurn 1 "10"]

/-- Where the runs below start: nothing was left behind. -/
def nothingLeft : World := World.over (withMaxAttempts 3 1000000000) (registryOf ["a"])

theorem inProgress_of_wire (w : World) (i : Nat) {ids : List WriteId}
    (h : (w.tasks[i]?.bind fun task => task.phase.onWire).map (fun e => e.records.map (·.id)) =
      some ids) {id : WriteId} (hid : id ∈ ids) :
    ∃ e, w.InProgress i e ∧ e.Carries id := by
  obtain ⟨e, hwire, rfl⟩ := Option.map_eq_some_iff.mp h
  obtain ⟨task, htask, hwire⟩ := Option.bind_eq_some_iff.mp hwire
  exact ⟨e, ⟨task, htask, hwire⟩, List.mem_map.mp hid⟩

/-- Both tasks are in an exchange of the one start. -/
theorem takeover_twice :
    Machine.Along (World.step utc) ActFresh nothingLeft takeoverTurns ∧
      ¬ (Machine.exec (World.step utc) nothingLeft takeoverTurns).OneExchange := by
  refine ⟨?_, ?_⟩
  · exact ⟨trivial, fresh_writeTo rfl, trivial, trivial, trivial, trivial, trivial, trivial,
      trivial, trivial, trivial, trivial, trivial, trivial, trivial, trivial⟩
  · intro h
    obtain ⟨e, he, hcarries⟩ := inProgress_of_wire
      (Machine.exec (World.step utc) nothingLeft takeoverTurns) 0 (by decide +kernel)
      (List.mem_singleton_self "w1")
    obtain ⟨e', he', hcarries'⟩ := inProgress_of_wire
      (Machine.exec (World.step utc) nothingLeft takeoverTurns) 1 (by decide +kernel)
      (List.mem_singleton_self "w1")
    exact absurd (h.apart 0 1 e e' "w1" he he' hcarries hcarries') (by decide)

/-- A task that starts with nothing in flight takes over nothing. -/
theorem takesOverNothing_of_clear {w : World} {i : Nat} {now : Timestamp}
    {reply : DeviceId → Reply}
    (h : (w.tasks[i]?.all fun task =>
      match task.phase with
      | .recover => (w.outbox.inFlight task.device.id).isEmpty
      | _ => true) = true) :
    TakesOverNothing w (.turn i now reply) := by
  intro j now' reply' task hact htask hrec r hr
  cases hact
  rw [htask, Option.all_some, hrec] at h
  rw [List.isEmpty_iff.mp h] at hr
  cases hr

/-- Edited between exchanges, `a` is sent the start once, by its old task. -/
def editedBetween : List Act :=
  sendingTurns ++ [turnOfA "02", turnOfA "02", turnOfA "02", .register editedA, .apply,
    silentTurn 1 "03", turnOfA "03"]

theorem one_exchange_editedBetween :
    Machine.Along (Handover.step utc) (fun v act => v.world.OneExchange ∧ SettlesOwn v act)
        (Handover.start (withMaxAttempts 3 1000000000) (registryOf ["a"])) editedBetween ∧
      (Machine.exec (World.step utc) nothingLeft editedBetween).OneExchange := by
  have hops : Machine.Along (MemoryOutbox.step utc) Fresh (withMaxAttempts 3 1000000000) [] :=
    trivial
  refine one_exchange utc 3 1000000000 hops (registryOf ["a"]) ?_ ?_
  · exact ⟨trivial, fresh_writeTo rfl, trivial, trivial, trivial, trivial, trivial, trivial,
      trivial, trivial, trivial, trivial, trivial, trivial⟩
  · have hquiet : ∀ {w : World} {act : Act}, (∀ i now reply, act ≠ .turn i now reply) →
        TakesOverNothing w act := fun hno i now reply _ hact => absurd hact (hno i now reply)
    refine ⟨hquiet (by simp), hquiet (by simp), ?_, ?_, ?_, ?_, ?_, ?_, ?_, hquiet (by simp),
      hquiet (by simp), ?_, ?_, trivial⟩ <;>
      exact takesOverNothing_of_clear (by decide +kernel)

end Sismatic
