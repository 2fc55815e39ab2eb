import Sismatic.Proof.AllOrNothing
import Sismatic.Proof.Held

/-!
# What recovery replays

A task that finds writes in flight asks the device once and settles each write by the
answer. What it decides it says with an outcome, and a failed outcome is the outbox's
to read: with a try left the write goes back to the front of its queue. So a lifecycle
command whose effect the device does not show is not settled for good unless its tries
are spent; it is sent a second time.

What recovery does settle for good never goes out again: it has ended, and a claim
hands out only what waits.
-/

namespace Sismatic

open MemoryOutbox

/-- A process that starts over what an earlier one left in the outbox. -/
def World.over (o : MemoryOutbox) (registry : Registry) : World where
  outbox := o
  registry := registry
  tasks := []
  running := fun _ => none
  exchanges := []

/-- The world, and what each task's device answered while the task reports what it found. -/
structure Recovery where
  world : World
  answer : Nat → Option (Option RecordingState)

def RelayTask.answerAfter (task : RelayTask) (w : World) (reply : DeviceId → Reply)
    (answer : Option (Option RecordingState)) : Option (Option RecordingState) :=
  match task.phase with
  | .recovering _ => some (observeState w.outbox task.device reply).2
  | .settling [] => none
  | _ => answer

def Recovery.step (c : Chrono) (v : Recovery) (act : Act) : Recovery where
  world := v.world.step c act
  answer :=
    match act with
    | .turn i _ reply =>
        match v.world.tasks[i]? with
        | some task => Function.update v.answer i (task.answerAfter v.world reply (v.answer i))
        | none => v.answer
    | _ => v.answer

def Recovery.start (o : MemoryOutbox) (registry : Registry) : Recovery :=
  ⟨World.over o registry, fun _ => none⟩

/-- The intents a repeat of which is not harmless. -/
def Intent.isLifecycle : Intent → Bool
  | .startRecording | .stopRecording | .pauseRecording => true
  | .setMetadata _ _ | .setSetting _ _ => false

/-- The device's answer shows that the command took effect. -/
def TookEffect : Intent → Option RecordingState → Bool
  | .startRecording, some .started | .startRecording, some .paused => true
  | .stopRecording, some .stopped => true
  | .pauseRecording, some .paused => true
  | _, _ => false

/-- The act settles what recovery decided about the write `id`, in flight as `r`. -/
def RecoverSettles (v : Recovery) (act : Act) (id : WriteId) (r : WriteRecord)
    (observed : Option RecordingState) : Prop :=
  ∃ i now reply task outcome rest, act = .turn i now reply ∧ v.world.tasks[i]? = some task ∧
    task.phase = .settling ((id, outcome) :: rest) ∧ v.answer i = some observed ∧
    v.world.outbox.records id = some r ∧ r.status = .inFlight

/-- The device shows the effect of the command, or the write has no try left. -/
def SettlesForGood (o : MemoryOutbox) (r : WriteRecord) (observed : Option RecordingState) :
    Prop :=
  TookEffect r.intent observed = true ∨ o.maxAttempts ≤ r.attempts

/-- The exchange carries the write `id`. -/
def Exchange.Carries (id : WriteId) (e : Exchange) : Prop := ∃ r ∈ e.records, r.id = id

/--
From `w'` on, along `later`, no claim hands out the write `id`, and an exchange that
carries it was begun, or on its way, in `w`.
-/
def NotReplayed (c : Chrono) (w w' : World) (later : List Act) (id : WriteId) : Prop :=
  Machine.Along (World.step c) (fun w₁ act => ∀ d now claim,
      act.call w₁ = some (.claimNext d now) → (w₁.outbox.claimNext c d now).2 = .ok (some claim) →
      ¬ claim.exchange.Carries id) w' later ∧
    ∀ e ∈ (Machine.exec (World.step c) w' later).exchanges, e.Carries id →
      e ∈ w.exchanges ∨ w.Bound e

/-- The write has ended with `act`, and no later step sends it again. -/
def SettledOnce (c : Chrono) (w : World) (act : Act) (later : List Act) (id : WriteId) : Prop :=
  (∃ r, (w.step c act).outbox.records id = some r ∧ r.status.terminal) ∧
    NotReplayed c w (w.step c act) later id

section Recovery

variable {c : Chrono}

/-! ## What has ended is not sent -/

/-- A claim hands out no write that has ended. -/
theorem not_carries_of_terminal {o : MemoryOutbox} (hc : Conserved o) {id : WriteId}
    {r : WriteRecord} (hr : o.records id = some r) (hterm : r.status.terminal) {d : DeviceId}
    {now : Timestamp} {claim : Claim} (hans : (o.claimNext c d now).2 = .ok (some claim)) :
    ¬ claim.exchange.Carries id := by
  intro h
  obtain ⟨r', hr', rfl⟩ := h
  obtain ⟨_, ⟨r₀, hr₀, hst⟩, _⟩ := (claimed_rows hc hans).1 r' hr'
  obtain rfl := Option.some.inj (hr.symm.trans hr₀)
  rw [hst] at hterm
  cases hterm

/-- What holds from the moment a write has ended; `w` is the world just before. -/
structure Ended (w : World) (id : WriteId) (w' : World) : Prop where
  conserved : Conserved w'.outbox
  translated : w'.Translated
  record : ∃ r, w'.outbox.records id = some r ∧ r.status.terminal
  bound : ∀ e, w'.Bound e → e.Carries id → w.Bound e
  sent : ∀ e ∈ w'.exchanges, e.Carries id → e ∈ w.exchanges ∨ w.Bound e

theorem ended_step {w w' : World} {id : WriteId} (h : Ended w id w') {act : Act}
    (hfresh : ActFresh w' act) : Ended w id (w'.step c act) := by
  obtain ⟨r, hr, hterm⟩ := h.record
  refine ⟨conserved_act h.conserved hfresh, translated_step h.translated act, ?_, ?_, ?_⟩
  · obtain ⟨r', hr', hev, _⟩ := record_act (c := c) h.conserved hfresh hr
    exact ⟨r', hr', by rw [hev.terminal hterm]; exact hterm⟩
  · intro e hbound hcarries
    rcases bound_step hbound with hold | ⟨d, now, claim, _, hans, rfl⟩
    · exact h.bound e hold hcarries
    · exact absurd hcarries (not_carries_of_terminal h.conserved hr hterm hans)
  · intro e he hcarries
    rcases wire_step (c := c) h.translated act with heq | ⟨e', hbound, _, heq⟩
    · exact h.sent e (heq ▸ he) hcarries
    · rw [heq] at he
      rcases List.mem_append.mp he with hold | hnew
      · exact h.sent e hold hcarries
      · obtain rfl := List.mem_singleton.mp hnew
        exact .inr (h.bound e hbound hcarries)

theorem notReplayed_of_ended {w w' : World} {id : WriteId} (h : Ended w id w') {later : List Act}
    (hrun : Machine.Along (World.step c) ActFresh w' later) : NotReplayed c w w' later id := by
  have hstep : ∀ w₁ act, Ended w id w₁ → ActFresh w₁ act → Ended w id (w₁.step c act) :=
    fun _ _ h hfresh => ended_step h hfresh
  refine ⟨Machine.along_of_invariant hstep ?_ hrun h, (Machine.exec_invariant hstep hrun h).sent⟩
  intro w₁ act h₁ _ d now claim _ hans
  obtain ⟨r, hr, hterm⟩ := h₁.record
  exact not_carries_of_terminal h₁.conserved hr hterm hans

/-! ## What recovery decides -/

/-- What is being settled after a recovery is what recovery decided, write by write. -/
structure Answered (v : Recovery) : Prop where
  conserved : Conserved v.world.outbox
  translated : v.world.Translated
  found : ∀ (j : Nat) (task : RelayTask) (stranded : List WriteRecord), v.world.tasks[j]? = some task →
    task.phase = .recovering stranded →
    ∀ s ∈ stranded, ∃ r, v.world.outbox.records s.id = some r ∧ r.intent = s.intent
  decided : ∀ (j : Nat) (observed : Option RecordingState), v.answer j = some observed →
    ∃ (task : RelayTask) (outcomes : List (WriteId × Outcome)),
    v.world.tasks[j]? = some task ∧ task.phase = .settling outcomes ∧
      ∀ p ∈ outcomes, ∃ r, v.world.outbox.records p.1 = some r ∧
        p.2 = recoverOutcome r.intent observed

/-- A record keeps the intent it was filed with. -/
theorem intent_act {w : World} (hc : Conserved w.outbox) {act : Act} (hfresh : ActFresh w act)
    {id : WriteId} {r : WriteRecord} (hr : w.outbox.records id = some r) :
    ∃ r', (w.step c act).outbox.records id = some r' ∧ r'.intent = r.intent := by
  obtain ⟨r', hr', hev, _⟩ := record_act (c := c) hc hfresh hr
  exact ⟨r', hr', hev.sameWrite.intent⟩

theorem answered_found {v : Recovery} (h : Answered v) {act : Act}
    (hfresh : ActFresh v.world act) {j : Nat} {task' : RelayTask} {stranded : List WriteRecord}
    (htask' : (v.world.step c act).tasks[j]? = some task')
    (hphase' : task'.phase = .recovering stranded) :
    ∀ s ∈ stranded, ∃ r, (v.world.step c act).outbox.records s.id = some r ∧
      r.intent = s.intent := by
  intro s hs
  have hwas : ∃ r, v.world.outbox.records s.id = some r ∧ r.intent = s.intent := by
    cases task_moved act htask' with
    | kept task htask hphase _ _ => exact h.found j task stranded htask (hphase ▸ hphase') s hs
    | spawned _ hrec _ =>
        rw [hrec] at hphase'
        cases hphase'
    | turned task now reply _ htask _ hhandled =>
        rw [hphase'] at hhandled
        obtain ⟨_, rfl⟩ := hhandled.of_found
        exact ⟨s, (mem_inFlight h.conserved hs).1, rfl⟩
  obtain ⟨r, hr, hint⟩ := hwas
  obtain ⟨r', hr', hint'⟩ := intent_act (c := c) h.conserved hfresh hr
  exact ⟨r', hr', hint'.trans hint⟩

/-- The task that moves has asked the device, or reports the next of what it decided. -/
theorem answered_turn {v : Recovery} (h : Answered v) {j : Nat} (now : Timestamp)
    (reply : DeviceId → Reply) {observed : Option RecordingState}
    (hans : (v.step c (.turn j now reply)).answer j = some observed) :
    ∃ (task : RelayTask) (outcomes : List (WriteId × Outcome)),
      (v.step c (.turn j now reply)).world.tasks[j]? = some task ∧
        task.phase = .settling outcomes ∧
        ∀ p ∈ outcomes, ∃ r, (v.step c (.turn j now reply)).world.outbox.records p.1 = some r ∧
          p.2 = recoverOutcome r.intent observed := by
  -- what is on record keeps its intent
  have hkept : ∀ {p : WriteId × Outcome}, (∃ r, v.world.outbox.records p.1 = some r ∧
      p.2 = recoverOutcome r.intent observed) →
      ∃ r, (v.step c (.turn j now reply)).world.outbox.records p.1 = some r ∧
        p.2 = recoverOutcome r.intent observed := by
    intro p hp
    obtain ⟨r, hr, hout⟩ := hp
    have hfresh : ActFresh v.world (.turn j now reply) := trivial
    obtain ⟨r', hr', hint⟩ := intent_act (c := c) h.conserved hfresh hr
    exact ⟨r', hr', by rw [hint, hout]⟩
  have hlt : ∀ {task : RelayTask}, v.world.tasks[j]? = some task → j < v.world.tasks.length := by
    intro task htask
    obtain ⟨hlt, _⟩ := List.getElem?_eq_some_iff.mp htask
    exact hlt
  unfold Recovery.step at hans
  cases htask : v.world.tasks[j]? with
  | none =>
      simp only [htask] at hans
      obtain ⟨task, _, htask', _⟩ := h.decided j observed hans
      rw [htask] at htask'
      cases htask'
  | some task =>
      simp only [htask, Function.update_self] at hans
      obtain ⟨phase, hhandled, htasks⟩ := turn_handled (c := c) htask now reply
      have hnow : (v.step c (.turn j now reply)).world.tasks[j]? =
          some { task with phase := phase } := by
        show (World.turn c v.world j now reply).tasks[j]? = _
        rw [htasks, List.getElem?_set_self (hlt htask)]
      cases hphase : task.phase with
      | recovering stranded =>
          simp only [RelayTask.answerAfter, hphase, Option.some.injEq] at hans
          obtain rfl := hhandled.of_recovering hphase
          refine ⟨_, _, hnow, rfl, ?_⟩
          intro p hp
          obtain ⟨s, hs, rfl⟩ := List.mem_map.mp hp
          obtain ⟨r, hr, hint⟩ := h.found j task stranded htask hphase s hs
          exact hkept ⟨r, hr, by rw [hint, ← hans]⟩
      | settling outcomes =>
          cases outcomes with
          | nil =>
              simp only [RelayTask.answerAfter, hphase] at hans
              cases hans
          | cons first rest =>
              simp only [RelayTask.answerAfter, hphase] at hans
              obtain ⟨task₀, outcomes, htask₀, hphase₀, hall⟩ := h.decided j observed hans
              obtain rfl := Option.some.inj (htask.symm.trans htask₀)
              obtain rfl := Phase.settling.inj (hphase.symm.trans hphase₀)
              obtain rfl := hhandled.of_settling hphase
              refine ⟨_, _, hnow, rfl, ?_⟩
              intro p hp
              exact hkept (hall p (List.mem_cons_of_mem _ hp))
      | _ =>
          simp only [RelayTask.answerAfter, hphase] at hans
          obtain ⟨task₀, outcomes, htask₀, hphase₀, _⟩ := h.decided j observed hans
          obtain rfl := Option.some.inj (htask.symm.trans htask₀)
          rw [hphase] at hphase₀
          cases hphase₀

/-- A task reporting what it found goes on doing so while anything is left to report. -/
theorem answered_step {v : Recovery} (h : Answered v) {act : Act}
    (hfresh : ActFresh v.world act) : Answered (v.step c act) := by
  refine ⟨conserved_act h.conserved hfresh, translated_step h.translated act, ?_, ?_⟩
  · intro j task stranded htask hphase
    exact answered_found h hfresh htask hphase
  · intro j observed hans
    -- a task other than the one to move keeps its answer and what it has to report
    have hstays : v.answer j = some observed → (∀ now reply, act ≠ .turn j now reply) →
        ∃ (task : RelayTask) (outcomes : List (WriteId × Outcome)),
          (v.step c act).world.tasks[j]? = some task ∧ task.phase = .settling outcomes ∧
            ∀ p ∈ outcomes, ∃ r, (v.step c act).world.outbox.records p.1 = some r ∧
              p.2 = recoverOutcome r.intent observed := by
      intro hans hother
      obtain ⟨task, outcomes, htask, hphase, hall⟩ := h.decided j observed hans
      obtain ⟨task', htask', hphase', _⟩ := task_stays (c := c) htask hother
      refine ⟨task', outcomes, htask', hphase'.trans hphase, ?_⟩
      intro p hp
      obtain ⟨r, hr, hout⟩ := hall p hp
      obtain ⟨r', hr', hint⟩ := intent_act (c := c) h.conserved hfresh hr
      exact ⟨r', hr', by rw [hint, hout]⟩
    by_cases hturn : ∃ now reply, act = .turn j now reply
    · obtain ⟨now, reply, rfl⟩ := hturn
      exact answered_turn h now reply hans
    · have hother : ∀ now reply, act ≠ .turn j now reply :=
        fun now reply hact => hturn ⟨now, reply, hact⟩
      refine hstays ?_ hother
      cases act with
      | turn i now reply =>
          have hij : j ≠ i := fun hij => hother now reply (by rw [hij])
          unfold Recovery.step at hans
          cases htask : v.world.tasks[i]? with
          | none => simpa only [htask] using hans
          | some task => simpa only [htask, Function.update_of_ne hij] using hans
      | _ => exact hans

theorem answered_start {o : MemoryOutbox} (hc : Conserved o) (registry : Registry) :
    Answered (Recovery.start o registry) where
  conserved := hc
  translated := fun _ h => by cases h
  found := by
    intro j task stranded h
    cases h
  decided := by
    intro j observed h
    cases h

theorem answered_run {v : Recovery} (h : Answered v) {acts : List Act}
    (hrun : Machine.Along (World.step c) ActFresh v.world acts) :
    Answered (Machine.exec (Recovery.step c) v acts) := by
  have hstep : ∀ v act, Answered v → ActFresh v.world act → Answered (v.step c act) :=
    fun _ _ h hfresh => answered_step h hfresh
  exact Machine.exec_invariant hstep ((Machine.along_map fun _ _ => rfl).mpr hrun) h

/-! ## What a settlement ends -/

/-- Of a lifecycle command, recovery reports success when the device shows its effect. -/
theorem recoverOutcome_succeeded {intent : Intent} (hlife : intent.isLifecycle = true)
    (observed : Option RecordingState) :
    (∃ value, recoverOutcome intent observed = .succeeded value) ↔
      TookEffect intent observed = true := by
  cases intent with
  | setMetadata field value => cases hlife
  | setSetting field value => cases hlife
  | _ =>
      cases observed with
      | none => simp [recoverOutcome, TookEffect]
      | some state => cases state <;> simp [recoverOutcome, TookEffect]

/-- A settlement ends a write by its success, or when no try is left. -/
theorem ends_iff {o o' : MemoryOutbox} {id : WriteId} {outcome : Outcome} {now : Timestamp}
    {res : Except DrainError Unit} (h : Settled o id outcome now o' res) {r : WriteRecord}
    (hr : o.records id = some r) (hst : r.status = .inFlight) :
    (∃ r', o'.records id = some r' ∧ r'.status.terminal) ↔
      (∃ value, outcome = .succeeded value) ∨ o.maxAttempts ≤ r.attempts := by
  cases h with
  | refused _ _ hno => exact absurd hst (hno r hr)
  | succeeded r₀ value _ _ hout ho' =>
      refine ⟨fun _ => .inl ⟨value, hout⟩, fun _ => ?_⟩
      rw [ho']
      exact ⟨_, Function.update_self .., rfl⟩
  | retried r₀ reason notBefore updatedAt _ hr₀ _ hout hlt _ hrecs _ _ =>
      obtain rfl := Option.some.inj (hr.symm.trans hr₀)
      refine ⟨?_, ?_⟩
      · intro hends
        obtain ⟨r', hr', hterm⟩ := hends
        rw [hrecs, Function.update_self] at hr'
        obtain rfl := Option.some.inj hr'
        cases hterm
      · intro hor
        rcases hor with ⟨value, heq⟩ | hspent
        · rw [hout] at heq
          cases heq
        · omega
  | dead r₀ reason hr₀ _ _ hspent _ hrecs _ _ =>
      obtain rfl := Option.some.inj (hr.symm.trans hr₀)
      refine ⟨fun _ => .inr hspent, fun _ => ?_⟩
      rw [hrecs]
      exact ⟨_, Function.update_self .., rfl⟩

end Recovery

open MemoryOutbox in
/--
**Recovery does not replay what it settles for good.** Over whatever an earlier process
left in flight, and through any interleaving of tasks, polls, cancellations and changes
of the device set: a lifecycle command that recovery settles ends there, and goes out
no more, exactly when the device shows its effect or it has no try left.
-/
theorem settledOnce_iff (c : Chrono) (n : Nat) (backoff : Duration) {ops : List Op}
    (hops : Machine.Along (MemoryOutbox.step c) Fresh (withMaxAttempts n backoff) ops)
    (registry : Registry) {earlier later : List Act} {act : Act}
    (hrun : Machine.Along (World.step c) ActFresh
      (World.over (Machine.exec (MemoryOutbox.step c) (withMaxAttempts n backoff) ops) registry)
      (earlier ++ act :: later)) {id : WriteId} {r : WriteRecord}
    {observed : Option RecordingState}
    (hsettles : RecoverSettles (Machine.exec (Recovery.step c) (Recovery.start
      (Machine.exec (MemoryOutbox.step c) (withMaxAttempts n backoff) ops) registry) earlier)
      act id r observed) (hlife : r.intent.isLifecycle = true) :
    SettledOnce c (Machine.exec (World.step c) (World.over
        (Machine.exec (MemoryOutbox.step c) (withMaxAttempts n backoff) ops) registry) earlier)
        act later id ↔
      SettlesForGood (Machine.exec (World.step c) (World.over
        (Machine.exec (MemoryOutbox.step c) (withMaxAttempts n backoff) ops) registry)
        earlier).outbox r observed := by
  have hc := conserved_run c n backoff hops
  generalize Machine.exec (MemoryOutbox.step c) (withMaxAttempts n backoff) ops = o at *
  rw [Machine.along_append] at hrun
  obtain ⟨hearlier, hact, hlater⟩ := hrun
  have h := answered_run (c := c) (answered_start hc registry) hearlier
  have hworld : (Machine.exec (Recovery.step c) (Recovery.start o registry) earlier).world =
      Machine.exec (World.step c) (World.over o registry) earlier := 
    Machine.exec_map (fun _ _ => rfl) _ earlier
  generalize Machine.exec (Recovery.step c) (Recovery.start o registry) earlier = v at *
  rw [← hworld] at hact hlater ⊢
  obtain ⟨i, now, reply, task, outcome, rest, rfl, htask, hphase, hans, hr, hst⟩ := hsettles
  -- what is reported is what recovery made of the answer
  have houtcome : outcome = recoverOutcome r.intent observed := by
    obtain ⟨task₀, outcomes, htask₀, hphase₀, hall⟩ := h.decided i observed hans
    obtain rfl := Option.some.inj (htask.symm.trans htask₀)
    obtain rfl := Phase.settling.inj (hphase.symm.trans hphase₀)
    obtain ⟨r₀, hr₀, hout⟩ := hall _ (List.mem_cons_self ..)
    obtain rfl := Option.some.inj (hr.symm.trans hr₀)
    exact hout
  have hcall : (Act.turn i now reply).call v.world = some (.settle id outcome now) := by
    simp [Act.call, htask, RelayTask.call, hphase]
  have hends : (∃ r', (v.world.step c (.turn i now reply)).outbox.records id = some r' ∧
      r'.status.terminal) ↔ SettlesForGood v.world.outbox r observed := by
    rw [outbox_step, hcall]
    refine (ends_iff (settle_spec c v.world.outbox id outcome now) hr hst).trans ?_
    rw [houtcome, recoverOutcome_succeeded hlife]
    rfl
  refine ⟨fun honce => hends.mp honce.1, ?_⟩
  intro hgood
  obtain ⟨r', hr', hterm⟩ := hends.mpr hgood
  refine ⟨⟨r', hr', hterm⟩, notReplayed_of_ended (w := v.world) ?_ hlater⟩
  refine ⟨conserved_act h.conserved hact, translated_step h.translated _, ⟨r', hr', hterm⟩, ?_, ?_⟩
  · intro e hbound _
    rcases bound_step hbound with hold | ⟨d, now', claim, hcall', _, _⟩
    · exact hold
    · rw [hcall] at hcall'
      cases hcall'
  · intro e he _
    rcases wire_step (c := c) h.translated (.turn i now reply) with heq | ⟨e', hbound, _, heq⟩
    · exact .inl (heq ▸ he)
    · rw [heq] at he
      rcases List.mem_append.mp he with hold | hnew
      · exact .inl hold
      · rw [List.mem_singleton.mp hnew]
        exact .inr hbound

/-- A start of `a`, claimed by a process that then died. -/
def leftInFlight : List MemoryOutbox.Op :=
  [writeTo "w1" .startRecording "00", .claimNext "a" (tenOClock "01")]

/-- What the next process finds. -/
def afterTheCrash : World :=
  World.over (Machine.exec (MemoryOutbox.step utc) (withMaxAttempts 3 1000000000) leftInFlight)
    (registryOf ["a"])

/-- `a`'s task finds the start in flight and asks `a` what it is doing. -/
def askedTurns (answer : Reply) : List Act :=
  [.apply, .turn 0 (tenOClock "10") fun _ => answer, .turn 0 (tenOClock "10") fun _ => answer]

/-- It reports what it decided, and goes on to claim and run what is waiting. -/
def onwardTurns : List Act := [turnOfA "11", turnOfA "20", turnOfA "20", turnOfA "20"]

theorem fresh_leftInFlight :
    Machine.Along (MemoryOutbox.step utc) Fresh (withMaxAttempts 3 1000000000) leftInFlight :=
  ⟨fresh_writeTo rfl, trivial, trivial⟩

/-- The start, as the dead process left it. -/
def strandedStart : WriteRecord where
  id := "w1"
  device := "a"
  intent := .startRecording
  batch := none
  epoch := 1
  status := .inFlight
  attempts := 1
  enqueuedAt := tenOClock "00"
  updatedAt := tenOClock "01"
  notBefore := tenOClock "00"

/-- `a` does not answer, and the start is sent again. -/
theorem silent_replayed :
    RecoverSettles (Machine.exec (Recovery.step utc) ⟨afterTheCrash, fun _ => none⟩
        (askedTurns (.error "no answer"))) (turnOfA "11") "w1" strandedStart none ∧
      strandedStart.intent.isLifecycle = true ∧
      ¬ SettledOnce utc (Machine.exec (World.step utc) afterTheCrash
        (askedTurns (.error "no answer"))) (turnOfA "11") onwardTurns "w1" := by
  refine ⟨⟨0, _, _, _, _, _, rfl, rfl, rfl, rfl, by decide +kernel, rfl⟩, rfl, ?_⟩
  intro h
  -- nothing had gone out, and no task was on its way
  have hbefore : (Machine.exec (World.step utc) afterTheCrash
      (askedTurns (.error "no answer"))).exchanges = [] := rfl
  have hidle : (Machine.exec (World.step utc) afterTheCrash
      (askedTurns (.error "no answer"))).tasks.map (fun task => task.phase.exchange) = [none] :=
    rfl
  have hafter : (Machine.exec (World.step utc) ((Machine.exec (World.step utc) afterTheCrash
      (askedTurns (.error "no answer"))).step utc (turnOfA "11")) onwardTurns).exchanges.map
        (fun e => e.records.map (·.id)) = [["w1"]] := by decide +kernel
  obtain ⟨e, he, hids⟩ := List.mem_map.mp (hafter ▸ List.mem_singleton_self ["w1"])
  have hcarries : e.Carries "w1" := List.mem_map.mp (hids ▸ List.mem_singleton_self "w1")
  rcases h.2.2 e he hcarries with hold | ⟨task, htask, hex⟩
  · rw [hbefore] at hold
    cases hold
  · have hnone := List.mem_map_of_mem (f := fun task : RelayTask => task.phase.exchange) htask
    rw [hidle, List.mem_singleton, hex] at hnone
    cases hnone

/-- `a` answers that it is recording: the start has ended, and goes out no more. -/
theorem settledOnce_iff_started :
    SettledOnce utc (Machine.exec (World.step utc) afterTheCrash
      (askedTurns (.ok (.state .started)))) (turnOfA "11") onwardTurns "w1" := by
  have hsettles : RecoverSettles (Machine.exec (Recovery.step utc) ⟨afterTheCrash, fun _ => none⟩
      (askedTurns (.ok (.state .started)))) (turnOfA "11") "w1" strandedStart (some .started) :=
    ⟨0, _, _, _, _, _, rfl, rfl, rfl, rfl, by decide +kernel, rfl⟩
  refine (settledOnce_iff utc 3 1000000000 fresh_leftInFlight (registryOf ["a"]) ?_ hsettles
    rfl).mpr (.inl rfl)
  exact ⟨trivial, trivial, trivial, trivial, trivial, trivial, trivial, trivial, trivial⟩

end Sismatic
