import Sismatic.Proof.Dispatch

/-!
# What each task has in hand

From the claim that hands it a write, or the look at what was left in flight that
finds one, to the settlement it reports, a task has the write in hand. Where a task
has got to says which writes those are; a step moves one task at most, and only
finding, claiming and settling change what is in its hand.

Nothing but settling moves a write that is in flight. So whatever is in flight was
left there before the process began, or is in the hand of some task.
-/

namespace Sismatic

open MemoryOutbox

/-- The writes a task in this phase has in hand. -/
def Phase.taken : Phase → List WriteId
  | .recover | .idle | .stopped => []
  | .recovering stranded => stranded.map (·.id)
  | .alone record | .exchanging record | .awaiting record => [record.id]
  | .batch _ records | .gathering _ records _ | .running _ records => records.map (·.id)
  | .settling outcomes => outcomes.map Prod.fst

/-- Them as they were found or claimed; a task that reports no longer needs them. -/
def Phase.carried : Phase → List WriteRecord
  | .recover | .idle | .stopped | .settling _ => []
  | .recovering stranded => stranded
  | .alone record | .exchanging record | .awaiting record => [record]
  | .batch _ records | .gathering _ records _ | .running _ records => records

theorem Phase.taken_of_carried {phase : Phase} (h : ∀ outcomes, phase ≠ .settling outcomes) :
    phase.taken = phase.carried.map (·.id) := by
  cases phase with
  | settling outcomes => exact absurd rfl (h outcomes)
  | _ => rfl

/-- The exchange in progress. -/
def Phase.onWire : Phase → Option Exchange
  | .awaiting record => some (.alone record)
  | .running id records => some (.group id records)
  | _ => none

/-- What the device's task makes of the replies to an exchange, write by write. -/
def Exchange.outcome (device : Device) (reply : DeviceId → Reply) :
    Exchange → WriteRecord → Outcome
  | .alone _, _ =>
      match reply device.id with
      | .ok value => .succeeded (toDto value)
      | .error e => .failed e
  | .group id records, record => groupOutcome id records reply record

/-- The phase a task is in with what it has just claimed. -/
def Claim.phase : Claim → Phase
  | .one record => .alone record
  | .batch id records => .batch id records

theorem Claim.carried_phase (claim : Claim) : claim.phase.carried = claim.exchange.records := by
  cases claim <;> rfl

theorem Claim.taken_phase (claim : Claim) :
    claim.phase.taken = claim.exchange.records.map (·.id) := by
  cases claim <;> rfl

theorem taken_settleAll (records : List WriteRecord) (outcomeFor : WriteRecord → Outcome) :
    (Phase.settling (settleAll records outcomeFor)).taken = records.map (·.id) := by
  simp [Phase.taken, settleAll]

theorem taken_of_exchange {phase : Phase} {e : Exchange} (h : phase.exchange = some e) :
    phase.carried = e.records ∧ phase.taken = e.records.map (·.id) := by
  cases phase <;> cases h <;> exact ⟨rfl, rfl⟩

theorem taken_of_onWire {phase : Phase} {e : Exchange} (h : phase.onWire = some e) :
    phase.carried = e.records ∧ phase.taken = e.records.map (·.id) := by
  cases phase <;> cases h <;> exact ⟨rfl, rfl⟩

/-! ## A step of one task -/

/-- How a task's turn changes what it has in hand; the index is the phase it leaves the task in. -/
inductive Handled (c : Chrono) (w : World) (task : RelayTask) (now : Timestamp)
    (reply : DeviceId → Reply) : Phase → Prop
  /-- Nothing was left in flight. -/
  | clear : task.phase = .recover → w.outbox.inFlight task.device.id = [] →
      Handled c w task now reply .idle
  /-- Something was. -/
  | found : task.phase = .recover →
      Handled c w task now reply (.recovering (w.outbox.inFlight task.device.id))
  /-- The device was asked, and an outcome decided for each write found. -/
  | asked (stranded : List WriteRecord) : task.phase = .recovering stranded →
      Handled c w task now reply (.settling (settleAll stranded fun record =>
        recoverOutcome record.intent (observeState w.outbox task.device reply).2))
  | claimed (claim : Claim) : task.phase = .idle → task.cancelled = false →
      (w.outbox.claimNext c task.device.id now).2 = .ok (some claim) →
      Handled c w task now reply claim.phase
  /-- What was claimed did not go out. -/
  | refused (e : Exchange) (reason : String) : task.phase.exchange = some e →
      Handled c w task now reply (.settling (settleAll e.records fun _ => .failed reason))
  /-- What went out was answered. -/
  | heard (e : Exchange) : task.phase.onWire = some e →
      Handled c w task now reply (.settling (settleAll e.records (e.outcome task.device reply)))
  | settled (id : WriteId) (outcome : Outcome) (rest : List (WriteId × Outcome)) :
      task.phase = .settling ((id, outcome) :: rest) → Handled c w task now reply (.settling rest)
  | reported : task.phase = .settling [] → Handled c w task now reply .idle
  /-- It went on with what it had. -/
  | worked (phase : Phase) : (∀ outcomes, task.phase ≠ .settling outcomes) →
      (∀ stranded, task.phase ≠ .recovering stranded) → task.phase.onWire = none →
      (∀ outcomes, phase ≠ .settling outcomes) → (∀ stranded, phase ≠ .recovering stranded) →
      phase.carried = task.phase.carried → Handled c w task now reply phase

section Turn

variable {c : Chrono} {w : World}

theorem set_getElem {α : Type*} {xs : List α} {i : Nat} {x : α} (h : xs[i]? = some x) :
    xs.set i x = xs := by
  refine List.ext_getElem? fun j => ?_
  rw [List.getElem?_set]
  by_cases hij : i = j
  · subst hij
    obtain ⟨hlt, _⟩ := List.getElem?_eq_some_iff.mp h
    rw [if_pos rfl, if_pos hlt, h]
  · rw [if_neg hij]

/-- **What a turn does to a task's hand.** -/
theorem turn_handled {i : Nat} {task : RelayTask} (htask : w.tasks[i]? = some task)
    (now : Timestamp) (reply : DeviceId → Reply) :
    ∃ phase, Handled c w task now reply phase ∧
      (World.turn c w i now reply).tasks = w.tasks.set i { task with phase := phase } := by
  -- a turn that goes on with what it had
  have hwork : ∀ {w' : World} (phase : Phase),
      ((∀ outcomes, task.phase ≠ .settling outcomes) ∧
        (∀ stranded, task.phase ≠ .recovering stranded) ∧ task.phase.onWire = none) →
      ((∀ outcomes, phase ≠ .settling outcomes) ∧ (∀ stranded, phase ≠ .recovering stranded)) →
      phase.carried = task.phase.carried →
      w'.tasks = w.tasks.set i { task with phase := phase } →
      ∃ phase, Handled c w task now reply phase ∧
        w'.tasks = w.tasks.set i { task with phase := phase } :=
    fun phase hfrom hto hcarried htasks =>
      ⟨phase, .worked phase hfrom.1 hfrom.2.1 hfrom.2.2 hto.1 hto.2 hcarried, htasks⟩
  cases hphase : task.phase with
  | recover =>
      simp only [World.turn, htask, hphase]
      split
      · rename_i hnone
        exact ⟨.idle, .clear hphase hnone, rfl⟩
      · exact ⟨_, .found hphase, rfl⟩
  | recovering stranded =>
      simp only [World.turn, htask, hphase]
      exact ⟨_, .asked stranded hphase, rfl⟩
  | idle =>
      simp only [World.turn, htask, hphase]
      split
      · exact hwork .stopped (by simp [hphase, Phase.onWire]) (by simp) (by rw [hphase]; rfl) rfl
      · rename_i hcan
        have hcan : task.cancelled = false := by simpa using hcan
        split
        · rename_i record hres
          exact ⟨_, .claimed (.one record) hphase hcan hres, rfl⟩
        · rename_i id records hres
          exact ⟨_, .claimed (.batch id records) hphase hcan hres, rfl⟩
        · exact hwork task.phase (by simp [hphase, Phase.onWire])
            (by simp [hphase]) rfl (set_getElem htask).symm
  | alone record =>
      have hex : task.phase.exchange = some (.alone record) := by rw [hphase]; rfl
      cases hint : record.intent with
      | setMetadata field value =>
          simp only [World.turn, htask, hphase, hint]
          split
          · exact ⟨_, .refused (.alone record) _ hex, rfl⟩
          · exact hwork (.exchanging _) (by simp [hphase, Phase.onWire])
              (by simp) (by rw [hphase]; rfl) rfl
      | _ =>
          simp only [World.turn, htask, hphase, hint]
          exact hwork (.exchanging _) (by simp [hphase, Phase.onWire])
            (by simp) (by rw [hphase]; rfl) rfl
  | exchanging record =>
      have hex : task.phase.exchange = some (.alone record) := by rw [hphase]; rfl
      simp only [World.turn, htask, hphase]
      split
      · exact ⟨_, .refused (.alone record) _ hex, rfl⟩
      · exact hwork (.awaiting _) (by simp [hphase, Phase.onWire])
          (by simp) (by rw [hphase]; rfl) rfl
  | awaiting record =>
      simp only [World.turn, htask, hphase]
      exact ⟨_, .heard (.alone record) (by rw [hphase]; rfl), rfl⟩
  | batch id records =>
      have hex : task.phase.exchange = some (.group id records) := by rw [hphase]; rfl
      cases records with
      | nil =>
          simp only [World.turn, htask, hphase]
          exact hwork .idle (by simp [hphase, Phase.onWire]) (by simp) (by rw [hphase]; rfl) rfl
      | cons first records =>
          simp only [World.turn, htask, hphase]
          split
          · exact ⟨_, .refused (.group id (first :: records)) _ hex, rfl⟩
          · exact hwork (.gathering _ _ _) (by simp [hphase, Phase.onWire])
              (by simp) (by rw [hphase]; rfl) rfl
  | gathering id records rest =>
      have hex : task.phase.exchange = some (.group id records) := by rw [hphase]; rfl
      cases rest with
      | nil =>
          simp only [World.turn, htask, hphase]
          exact hwork (.running _ _) (by simp [hphase, Phase.onWire])
            (by simp) (by rw [hphase]; rfl) rfl
      | cons record rest =>
          simp only [World.turn, htask, hphase]
          split
          · exact hwork (.gathering _ _ _) (by simp [hphase, Phase.onWire])
              (by simp) (by rw [hphase]; rfl) rfl
          · exact ⟨_, .refused (.group id records) _ hex, rfl⟩
  | running id records =>
      simp only [World.turn, htask, hphase]
      exact ⟨_, .heard (.group id records) (by rw [hphase]; rfl), rfl⟩
  | settling outcomes =>
      cases outcomes with
      | nil =>
          simp only [World.turn, htask, hphase]
          exact ⟨.idle, .reported hphase, rfl⟩
      | cons first rest =>
          obtain ⟨id, outcome⟩ := first
          simp only [World.turn, htask, hphase]
          exact ⟨_, .settled id outcome rest hphase, rfl⟩
  | stopped =>
      simp only [World.turn, htask, hphase]
      exact hwork task.phase (by simp [hphase, Phase.onWire])
        (by simp [hphase]) rfl (set_getElem htask).symm

/-- A task that asks the device reports an outcome for every write it found. -/
theorem Handled.of_recovering {task : RelayTask} {now : Timestamp} {reply : DeviceId → Reply}
    {phase : Phase} (h : Handled c w task now reply phase) {stranded : List WriteRecord}
    (hphase : task.phase = .recovering stranded) :
    phase = .settling (settleAll stranded fun record =>
      recoverOutcome record.intent (observeState w.outbox task.device reply).2) := by
  cases h with
  | asked stranded' hphase' =>
      obtain rfl := Phase.recovering.inj (hphase.symm.trans hphase')
      rfl
  | refused e reason hex | heard e hex =>
      rw [hphase] at hex
      cases hex
  | worked _ _ hno _ _ _ _ => exact absurd hphase (hno stranded)
  | clear hphase' | found hphase' | claimed _ hphase' | settled _ _ _ hphase' | reported hphase' =>
      rw [hphase] at hphase'
      cases hphase'

/-- A task that reports goes on to the next thing it has to report. -/
theorem Handled.of_settling {task : RelayTask} {now : Timestamp} {reply : DeviceId → Reply}
    {phase : Phase} (h : Handled c w task now reply phase) {first : WriteId × Outcome}
    {rest : List (WriteId × Outcome)} (hphase : task.phase = .settling (first :: rest)) :
    phase = .settling rest := by
  cases h with
  | settled id outcome rest' hphase' =>
      obtain ⟨_, rfl⟩ := List.cons.inj (Phase.settling.inj (hphase.symm.trans hphase'))
      rfl
  | refused e reason hex | heard e hex =>
      rw [hphase] at hex
      cases hex
  | worked _ hno _ _ _ _ _ => exact absurd hphase (hno _)
  | clear hphase' | found hphase' | claimed _ hphase' | asked _ hphase' | reported hphase' =>
      rw [hphase] at hphase'
      cases hphase'

/-- What a task finds is what was left in flight of its device. -/
theorem Handled.of_found {task : RelayTask} {now : Timestamp} {reply : DeviceId → Reply}
    {stranded : List WriteRecord} (h : Handled c w task now reply (.recovering stranded)) :
    task.phase = .recover ∧ stranded = w.outbox.inFlight task.device.id := by
  generalize hphase : Phase.recovering stranded = phase at h
  cases h with
  | found hrec => exact ⟨hrec, Phase.recovering.inj hphase⟩
  | claimed claim _ _ _ => cases claim <;> cases hphase
  | worked _ _ _ _ _ hno _ => exact absurd hphase.symm (hno stranded)
  | _ => cases hphase

/-! ## A step of the world -/

/-- Where the task now at `j` comes from. -/
inductive Moved (c : Chrono) (w : World) (act : Act) (j : Nat) (task' : RelayTask) : Prop
  | kept (task : RelayTask) : w.tasks[j]? = some task → task'.phase = task.phase →
      task'.device = task.device → (∀ now reply, act ≠ .turn j now reply) → Moved c w act j task'
  | spawned : w.tasks[j]? = none → task'.phase = .recover →
      (∀ now reply, act ≠ .turn j now reply) → Moved c w act j task'
  | turned (task : RelayTask) (now : Timestamp) (reply : DeviceId → Reply) :
      act = .turn j now reply → w.tasks[j]? = some task → task'.device = task.device →
      Handled c w task now reply task'.phase → Moved c w act j task'

theorem startTask_getElem (device : Device) {j : Nat} {task' : RelayTask}
    (h : (w.startTask device).tasks[j]? = some task') :
    w.tasks[j]? = some task' ∨ (w.tasks[j]? = none ∧ task'.phase = .recover) := by
  unfold World.startTask at h
  cases hrun : w.running device.id with
  | some running =>
      rw [hrun] at h
      exact .inl h
  | none =>
      rw [hrun] at h
      rw [List.getElem?_append] at h
      by_cases hj : j < w.tasks.length
      · rw [if_pos hj] at h
        exact .inl h
      · rw [if_neg hj, List.getElem?_singleton] at h
        right
        refine ⟨List.getElem?_eq_none (by omega), ?_⟩
        split at h
        · rw [← Option.some.inj h]
        · cases h

theorem foldl_startTask_getElem (devices : List Device) {j : Nat} {task' : RelayTask}
    (h : (devices.foldl World.startTask w).tasks[j]? = some task') :
    w.tasks[j]? = some task' ∨ (w.tasks[j]? = none ∧ task'.phase = .recover) := by
  induction devices generalizing w with
  | nil => exact .inl h
  | cons device devices ih =>
      rcases ih h with hmid | ⟨hnone, hrec⟩
      · exact startTask_getElem device hmid
      · -- a place still free after the first device was free before it
        refine .inr ⟨?_, hrec⟩
        by_contra hsome
        obtain ⟨task, htask⟩ := Option.ne_none_iff_exists'.mp hsome
        have hlt := (List.getElem?_eq_some_iff.mp htask).1
        have hle := List.getElem?_eq_none_iff.mp hnone
        unfold World.startTask at hle
        split at hle
        · omega
        · rw [List.length_append] at hle
          omega

theorem stopStale_getElem {j : Nat} {task' : RelayTask} (h : w.stopStale.tasks[j]? = some task') :
    ∃ task, w.tasks[j]? = some task ∧ task'.phase = task.phase ∧ task'.device = task.device := by
  unfold World.stopStale at h
  rw [List.getElem?_map, List.getElem?_zipIdx] at h
  obtain ⟨⟨task, i⟩, hti, rfl⟩ := Option.map_eq_some_iff.mp h
  obtain ⟨task, htask, heq⟩ := Option.map_eq_some_iff.mp hti
  obtain ⟨rfl, rfl⟩ := Prod.mk.inj heq
  refine ⟨task, htask, ?_⟩
  dsimp only
  split <;> exact ⟨rfl, rfl⟩

/-- **One task moves at most.** -/
theorem task_moved (act : Act) {j : Nat} {task' : RelayTask}
    (h : (w.step c act).tasks[j]? = some task') : Moved c w act j task' := by
  cases act with
  | apply =>
      rcases foldl_startTask_getElem _ h with hmid | ⟨hnone, hrec⟩
      · obtain ⟨task, htask, hphase, hdev⟩ := stopStale_getElem hmid
        exact .kept task htask hphase hdev fun _ _ h => by cases h
      · refine .spawned ?_ hrec fun _ _ h => by cases h
        have hle := List.getElem?_eq_none_iff.mp hnone
        unfold World.stopStale at hle
        rw [List.length_map, List.length_zipIdx] at hle
        exact List.getElem?_eq_none hle
  | turn i now reply =>
      change (w.turn c i now reply).tasks[j]? = some task' at h
      cases htask : w.tasks[i]? with
      | none =>
          have hturn : w.turn c i now reply = w := by simp only [World.turn, htask]
          rw [hturn] at h
          refine .kept task' h rfl rfl ?_
          intro now' reply' heq
          obtain ⟨rfl, _⟩ := Act.turn.inj heq
          rw [h] at htask
          cases htask
      | some task =>
          obtain ⟨phase, hhandled, htasks⟩ := turn_handled (c := c) htask now reply
          rw [htasks, List.getElem?_set] at h
          by_cases hij : i = j
          · subst hij
            obtain ⟨hlt, _⟩ := List.getElem?_eq_some_iff.mp htask
            rw [if_pos rfl, if_pos hlt] at h
            obtain rfl := Option.some.inj h
            exact .turned task now reply rfl htask rfl hhandled
          · rw [if_neg hij] at h
            exact .kept task' h rfl rfl fun _ _ heq => hij (Act.turn.inj heq).1
  | submit s => exact .kept task' h rfl rfl fun _ _ h => by cases h
  | register registry => exact .kept task' h rfl rfl fun _ _ h => by cases h
  | cancel device reason => exact .kept task' h rfl rfl fun _ _ h => by cases h
  | poll device observed => exact .kept task' h rfl rfl fun _ _ h => by cases h

theorem tasks_length_le (w : World) (act : Act) :
    w.tasks.length ≤ (w.step c act).tasks.length := by
  have hstart : ∀ (devices : List Device) (w : World),
      w.tasks.length ≤ (devices.foldl World.startTask w).tasks.length := by
    intro devices
    induction devices with
    | nil => exact fun _ => le_refl _
    | cons device devices ih =>
        intro w
        refine le_trans ?_ (ih (w.startTask device))
        unfold World.startTask
        split
        · exact le_refl _
        · rw [List.length_append]
          exact Nat.le_add_right ..
  cases act with
  | apply =>
      refine le_trans (le_of_eq ?_) (hstart w.registry.devices w.stopStale)
      unfold World.stopStale
      rw [List.length_map, List.length_zipIdx]
  | turn i now reply =>
      show _ ≤ (w.turn c i now reply).tasks.length
      cases htask : w.tasks[i]? with
      | none => simp only [World.turn, htask, le_refl]
      | some task =>
          obtain ⟨phase, _, htasks⟩ := turn_handled (c := c) htask now reply
          rw [htasks, List.length_set]
  | _ => exact le_refl _

/-- A task that is not the one to move stays where it has got to. -/
theorem task_stays {w : World} {act : Act} {j : Nat} {task : RelayTask}
    (htask : w.tasks[j]? = some task) (hother : ∀ now reply, act ≠ .turn j now reply) :
    ∃ task', (w.step c act).tasks[j]? = some task' ∧ task'.phase = task.phase ∧
      task'.device = task.device := by
  obtain ⟨hlt, _⟩ := List.getElem?_eq_some_iff.mp htask
  have hlt' := lt_of_lt_of_le hlt (tasks_length_le (c := c) w act)
  have hsome := List.getElem?_eq_getElem hlt'
  refine ⟨_, hsome, ?_⟩
  cases task_moved act hsome with
  | kept task₀ htask₀ hphase hdev _ =>
      obtain rfl := Option.some.inj (htask.symm.trans htask₀)
      exact ⟨hphase, hdev⟩
  | spawned hnone _ _ =>
      rw [htask] at hnone
      cases hnone
  | turned _ now reply hact _ _ _ => exact absurd hact (hother now reply)

end Turn

/-! ## What is claimed -/

/-- What the caller of `submit` sees to, over a run of the world. -/
def ActFresh (w : World) : Act → Prop
  | .submit s => Fresh w.outbox (.submit s)
  | _ => True

section Claims

variable {c : Chrono}

theorem fresh_call {w : World} {act : Act} (hfresh : ActFresh w act) {op : Op}
    (hop : act.call w = some op) : Fresh w.outbox op := by
  cases op with
  | submit s =>
      obtain rfl := submit_of_call hop
      exact hfresh
  | _ => exact trivial

theorem conserved_act {w : World} (hc : Conserved w.outbox) {act : Act} (hfresh : ActFresh w act) :
    Conserved (w.step c act).outbox := by
  rw [outbox_step]
  cases hcall : act.call w with
  | none => exact hc
  | some op => exact conserved_step c hc (fresh_call hfresh hcall)

/-- A record evolves at every step of the world, and one in flight only at its own settlement. -/
theorem record_act {w : World} (hc : Conserved w.outbox) {act : Act} (hfresh : ActFresh w act)
    {id : WriteId} {r : WriteRecord} (hr : w.outbox.records id = some r) :
    ∃ r', (w.step c act).outbox.records id = some r' ∧ Evolves r r' ∧
      (r.status = .inFlight → r' = r ∨
        ∃ outcome now, act.call w = some (.settle id outcome now)) := by
  rw [outbox_step]
  cases hcall : act.call w with
  | none => exact ⟨r, hr, .same, fun _ => .inl rfl⟩
  | some op =>
      obtain ⟨r', hr', hev, hmoved⟩ := record_moves c hc (fresh_call hfresh hcall) hr
      refine ⟨r', hr', hev, ?_⟩
      intro hst
      rcases hmoved hst with hsame | ⟨outcome, now, rfl⟩
      · exact .inl hsame
      · exact .inr ⟨outcome, now, rfl⟩

/-- **What a claim hands out** was waiting and is in flight now, each write once. -/
theorem claimed_rows {o : MemoryOutbox} (hc : Conserved o) {d : DeviceId} {now : Timestamp}
    {claim : Claim} (hans : (o.claimNext c d now).2 = .ok (some claim)) :
    (∀ r ∈ claim.exchange.records, r.status = .inFlight ∧
        (∃ r₀, o.records r.id = some r₀ ∧ r₀.status = .pending) ∧
        (step c o (.claimNext d now)).records r.id = some r) ∧
      (claim.exchange.records.map (·.id)).Nodup := by
  -- a head claimed: it waited, and is on record as it was handed out
  have hhead : ∀ {m id q r} {o₁ : MemoryOutbox} {ms : List DeviceId}, m ∈ ms → HeadAt o m id q r →
      ClaimsHeads now ms o₁ (o.claimNext c d now).1 → o₁.logs = o.logs → o₁.records = o.records →
      (r.claimed now).status = .inFlight ∧
        (∃ r₀, o.records (r.claimed now).id = some r₀ ∧ r₀.status = .pending) ∧
        (step c o (.claimNext d now)).records (r.claimed now).id = some (r.claimed now) := by
    intro m id q r o₁ ms hm hat hheads hlogs hrecs
    have hid : (r.claimed now).id = id := hc.named id r hat.2.1
    obtain ⟨id', q', r', hat', _, hrec⟩ := hheads.head m hm
    have hat₁ : HeadAt o₁ m id q r := by
      refine ⟨?_, ?_, hat.2.2⟩
      · rw [hlogs]
        exact hat.1
      · rw [hrecs]
        exact hat.2.1
    obtain ⟨rfl, _, rfl⟩ := hat₁.unique hat'
    rw [hid]
    exact ⟨rfl, ⟨r, hat.2.1, hat.2.2.2⟩, hrec⟩
  have hspec := claimNext_spec c hc.tidy.filed d now
  rw [hans] at hspec
  cases hspec with
  | idle _ _ hres => exact absurd rfl (hres _)
  | one r hdue _ hheads =>
      obtain ⟨id, q, hat⟩ := hc.tidy.filed.headAt hdue
      refine ⟨?_, List.nodup_singleton _⟩
      intro r' hr'
      obtain rfl := List.mem_singleton.mp hr'
      exact hhead (List.mem_singleton_self d) hat hheads rfl rfl
  | release r b e rs _ _ _ _ _ hheads hrs =>
      have hall : ∀ r' ∈ rs, r'.status = .inFlight ∧
          (∃ r₀, o.records r'.id = some r₀ ∧ r₀.status = .pending) ∧
          (step c o (.claimNext d now)).records r'.id = some r' := by
        intro r' hr'
        obtain ⟨i, hi, rfl⟩ := List.mem_iff_getElem.mp hr'
        have hlen := hrs.length_eq
        have hi' : i < (o.arrived e b now).elems.length := by omega
        obtain ⟨id, q, r₀, hat, heq⟩ := List.Forall₂.get hrs hi' hi
        change rs[i] = _ at heq
        rw [heq]
        exact hhead (List.getElem_mem hi') hat hheads rfl rfl
      refine ⟨hall, ?_⟩
      have hdevs : rs.map (·.device) = (o.arrived e b now).elems := by
        have hdev : List.Forall₂ (fun m (r' : WriteRecord) => m = r'.device)
            (o.arrived e b now).elems rs := by
          refine hrs.imp ?_
          intro m r' h'
          obtain ⟨id, q, r, hat, rfl⟩ := h'
          exact hat.2.2.1.symm
        have heq := List.forall₂_map_right_iff.mpr hdev
        rw [List.forall₂_eq_eq_eq] at heq
        exact heq.symm
      have hnd : rs.Nodup := List.Nodup.of_map _ (hdevs ▸ (o.arrived e b now).nodup)
      refine hnd.map_on ?_
      intro x hx y hy hxy
      have hrx := (hall x hx).2.2
      rw [hxy, (hall y hy).2.2] at hrx
      exact (Option.some.inj hrx).symm

/-- What is found in flight is on record under its own id. -/
theorem mem_inFlight {o : MemoryOutbox} (hc : Conserved o) {d : DeviceId} {s : WriteRecord}
    (hs : s ∈ o.inFlight d) : o.records s.id = some s ∧ s.device = d ∧ s.status = .inFlight := by
  obtain ⟨hmem, hst⟩ := List.mem_filter.mp hs
  obtain ⟨id, hid, hr⟩ := List.mem_filterMap.mp hmem
  obtain ⟨r, hr', hdev⟩ := hc.device_of_mem_history hid
  obtain rfl := Option.some.inj (hr.symm.trans hr')
  rw [hc.named id s hr]
  exact ⟨hr, hdev, of_decide_eq_true hst⟩

theorem call_of_claimed {w : World} {i : Nat} {task : RelayTask} {now : Timestamp}
    {reply : DeviceId → Reply} (htask : w.tasks[i]? = some task) (hidle : task.phase = .idle)
    (hcan : task.cancelled = false) :
    (Act.turn i now reply).call w = some (.claimNext task.device.id now) := by
  simp [Act.call, htask, RelayTask.call, hidle, hcan]

end Claims

end Sismatic
