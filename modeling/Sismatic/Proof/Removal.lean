import Sismatic.StoreMemory.Reads
import Sismatic.Server.Verbs
import Sismatic.Proof.Handover
import Sismatic.Proof.Expectations

/-!
# A device leaving

A removal takes its device out of the registry, cancels what is queued for it and drops
what was read of it, one step after another. Callers whose catalog check is behind them,
the relay's tasks and the poll loops' calls of the store go on in between and afterwards.

Whatever is in flight is in the hand of some task, and is gone from there once it is
settled. So what the removal leaves behind is what came in after it had looked: a
submission or a retry after the queue was cancelled, a read filed after it was dropped.
-/

namespace Sismatic

open MemoryOutbox

/-! ## What is in flight is in hand -/

/-- Every write in flight is in some task's hand. -/
def World.AllInHand (w : World) : Prop :=
  ∀ id r, w.outbox.records id = some r → r.status = .inFlight →
    ∃ task ∈ w.tasks, id ∈ task.phase.taken

section InHand

variable {c : Chrono} {w : World}

/-- A waiting write that a claim puts in flight is handed out by it. -/
theorem claimed_of_flight {o : MemoryOutbox} (hc : Conserved o) {d : DeviceId} {now : Timestamp}
    {id : WriteId} {r r' : WriteRecord} (hr : o.records id = some r) (hst : r.status = .pending)
    (hr' : (o.claimNext c d now).1.records id = some r') (hst' : r'.status = .inFlight) :
    ∃ claim, (o.claimNext c d now).2 = .ok (some claim) ∧
      id ∈ claim.exchange.records.map (·.id) := by
  have hspec := claimNext_spec c hc.tidy.filed d now
  generalize (o.claimNext c d now).1 = o' at hspec hr'
  generalize (o.claimNext c d now).2 = res at hspec ⊢
  have hsame : o'.records id ≠ o.records id := by
    intro h
    rw [h, hr] at hr'
    obtain rfl := Option.some.inj hr'
    rw [hst] at hst'
    cases hst'
  have hfails : ∀ {ms} {o₁ : MemoryOutbox}, FailsHeads now ms o₁ o' → o₁.records ≠ o.records := by
    intro ms o₁ h hrecs
    rcases h.cases id with ⟨m, _, q, r₁, hat, hrec⟩ | ⟨_, hrec⟩
    · obtain rfl := Option.some.inj (hr'.symm.trans hrec)
      cases hst'
    · exact hsame (by rw [hrec, hrecs])
  cases hspec with
  | idle _ _ _ _ hrecs => exact absurd (by rw [hrecs]) hsame
  | late _ _ _ _ _ _ _ h => exact (hfails h rfl).elim
  | expire _ _ _ _ _ _ _ _ _ _ h => exact (hfails h rfl).elim
  | one r₁ hdue _ h =>
      refine ⟨_, rfl, ?_⟩
      rcases h.cases id with ⟨m, hm, q, r₂, hat, _⟩ | ⟨_, hrec⟩
      · obtain rfl := List.mem_singleton.mp hm
        obtain ⟨id', q', hq', hr₁, _⟩ := hdue
        rw [hat.1] at hq'
        obtain ⟨rfl, _⟩ := List.cons.inj hq'
        exact List.mem_singleton.mpr (hc.named id r₁ hr₁).symm
      · exact absurd hrec hsame
  | release r₁ b e rs _ _ _ _ _ h hrs =>
      refine ⟨_, rfl, ?_⟩
      rcases h.cases id with ⟨m, hm, q, r₂, hat, _⟩ | ⟨_, hrec⟩
      · obtain ⟨i, hi, rfl⟩ := List.mem_iff_getElem.mp hm
        have hi' : i < rs.length := hrs.length_eq ▸ hi
        obtain ⟨id', q', r₃, hat', heq⟩ := List.Forall₂.get hrs hi hi'
        change rs[i] = _ at heq
        obtain ⟨rfl, _, rfl⟩ := hat.unique hat'
        refine List.mem_map.mpr ⟨rs[i], List.getElem_mem hi', ?_⟩
        rw [heq]
        exact hc.named id r₂ hat.2.1
      · exact absurd hrec hsame

/-- Only a claim puts a waiting write in flight. -/
theorem claim_of_flight {o : MemoryOutbox} (hc : Conserved o) {op : Op} (hfresh : Fresh o op)
    {id : WriteId} {r r' : WriteRecord} (hr : o.records id = some r) (hst : r.status = .pending)
    (hr' : (step c o op).records id = some r') (hst' : r'.status = .inFlight) :
    ∃ d now, op = .claimNext d now := by
  have hspec := step_spec c hc hfresh
  generalize step c o op = o' at hspec hr'
  have hsame : o'.records id ≠ o.records id := by
    intro h
    rw [h, hr] at hr'
    obtain rfl := Option.some.inj hr'
    rw [hst] at hst'
    cases hst'
  have hcancel : ∀ {p gone}, ¬ Cancels p gone o o' := by
    intro p gone h
    rcases h.record hr with hkept | ⟨_, _, reason, hcan⟩
    · exact hsame (hkept.trans hr.symm)
    · obtain rfl := Option.some.inj (hr'.symm.trans hcan)
      cases hst'
  cases hspec with
  | claimed d now _ _ => exact ⟨d, now, rfl⟩
  | submitted s _ h =>
      cases h with
      | refused e heq => exact absurd (by rw [heq]) hsame
      | replayed acceptance heq _ => exact absurd (by rw [heq]) hsame
      | appended rows _ _ happ =>
          refine absurd (happ.old id ?_) hsame
          intro hid
          rw [hfresh.2.1 id hid] at hr
          cases hr
  | settled settledId outcome now _ h =>
      -- what is settled was in flight, so it is another write
      have hother : ∀ {r₁ r₁'}, o.records settledId = some r₁ → r₁.status = .inFlight →
          o'.records ≠ Function.update o.records settledId (some r₁') := by
        intro r₁ r₁' hr₁ hst₁ hrecs
        refine hsame ?_
        rw [hrecs, Function.update_of_ne]
        rintro rfl
        obtain rfl := Option.some.inj (hr.symm.trans hr₁)
        rw [hst] at hst₁
        cases hst₁
      cases h with
      | refused what heq _ => exact absurd (by rw [heq]) hsame
      | succeeded r₁ value hr₁ hst₁ _ heq => exact absurd (by rw [heq]; rfl) (hother hr₁ hst₁)
      | retried r₁ reason notBefore updatedAt _ hr₁ hst₁ _ _ _ hrecs =>
          exact absurd hrecs (hother hr₁ hst₁)
      | dead r₁ reason hr₁ hst₁ _ _ _ hrecs => exact absurd hrecs (hother hr₁ hst₁)
  | observed d state heq => exact absurd (by rw [heq]; rfl) hsame
  | canceledQueue d reason h => exact (hcancel h).elim
  | canceledBatch b reason h => exact (hcancel h).elim

/-- What is settled is in flight no longer, and waits again only if it failed with tries left. -/
theorem status_of_settle {o : MemoryOutbox} {id : WriteId} {outcome : Outcome} {now : Timestamp}
    {r r' : WriteRecord} (hr : o.records id = some r) (hst : r.status = .inFlight)
    (hr' : (step c o (.settle id outcome now)).records id = some r') :
    r'.status ≠ .inFlight ∧ (r'.status = .pending →
      (∃ reason, outcome = .failed reason) ∧ r.attempts < o.maxAttempts) := by
  have hspec := settle_spec c o id outcome now
  change (o.settle c id outcome now).1.records id = some r' at hr'
  generalize (o.settle c id outcome now).1 = o' at hspec hr'
  generalize (o.settle c id outcome now).2 = res at hspec
  have hnow : ∀ {r₁}, o'.records = Function.update o.records id (some r₁) → r' = r₁ := by
    intro r₁ hrecs
    rw [hrecs, Function.update_self] at hr'
    exact (Option.some.inj hr').symm
  cases hspec with
  | refused what _ hno => exact absurd hst (hno r hr)
  | succeeded r₁ value _ _ _ heq =>
      obtain rfl := hnow (by rw [heq]; rfl)
      exact ⟨by simp, fun h => by cases h⟩
  | retried r₁ reason notBefore updatedAt _ hr₁ _ hout hlt _ hrecs =>
      obtain rfl := hnow hrecs
      obtain rfl := Option.some.inj (hr.symm.trans hr₁)
      exact ⟨by simp, fun _ => ⟨⟨reason, hout⟩, hlt⟩⟩
  | dead r₁ reason _ _ _ _ _ hrecs =>
      obtain rfl := hnow hrecs
      exact ⟨by simp, fun h => by cases h⟩

/-- A task keeps what it has in hand until it settles it. -/
theorem taken_of_handled {task : RelayTask} {now : Timestamp} {reply : DeviceId → Reply}
    {phase : Phase} (h : Handled c w task now reply phase) {id : WriteId}
    (hid : id ∈ task.phase.taken) :
    id ∈ phase.taken ∨ ∃ outcome rest, task.phase = .settling ((id, outcome) :: rest) := by
  cases h with
  | clear hphase | found hphase | claimed _ hphase =>
      rw [hphase] at hid
      cases hid
  | asked stranded hphase =>
      rw [hphase] at hid
      rw [taken_settleAll]
      exact .inl hid
  | refused e reason hex =>
      rw [(taken_of_exchange hex).2] at hid
      rw [taken_settleAll]
      exact .inl hid
  | heard e hwire =>
      rw [(taken_of_onWire hwire).2] at hid
      rw [taken_settleAll]
      exact .inl hid
  | settled settledId outcome rest hphase =>
      rw [hphase] at hid
      rcases List.mem_cons.mp hid with rfl | hid
      · exact .inr ⟨outcome, rest, hphase⟩
      · exact .inl hid
  | reported hphase =>
      rw [hphase] at hid
      cases hid
  | worked phase hno _ _ hno' _ hcarried =>
      rw [Phase.taken_of_carried hno, ← hcarried, ← Phase.taken_of_carried hno'] at hid
      exact .inl hid

/-- A call that claims comes from a task with nothing to do. -/
theorem idle_of_call {act : Act} {d : DeviceId} {now : Timestamp}
    (hcall : act.call w = some (.claimNext d now)) :
    ∃ i reply task, act = .turn i now reply ∧ w.tasks[i]? = some task ∧ task.phase = .idle ∧
      task.cancelled = false ∧ task.device.id = d := by
  cases act with
  | turn i now' reply =>
      obtain ⟨task, htask, hop⟩ := Option.bind_eq_some_iff.mp hcall
      unfold RelayTask.call at hop
      cases hphase : task.phase with
      | idle =>
          cases hcancelled : task.cancelled with
          | true => simp [hphase, hcancelled] at hop
          | false =>
              simp only [hphase, hcancelled, Bool.false_eq_true, if_false, Option.some.injEq,
                Op.claimNext.injEq] at hop
              obtain ⟨rfl, rfl⟩ := hop
              exact ⟨i, reply, task, rfl, htask, hphase, hcancelled, rfl⟩
      | _ => grind [Option.map_eq_some_iff]
  | _ => cases hcall

/-- The task that claims has what it was handed in hand. -/
theorem taken_of_claim {act : Act} {d : DeviceId} {now : Timestamp} {claim : Claim}
    (hcall : act.call w = some (.claimNext d now))
    (hans : (w.outbox.claimNext c d now).2 = .ok (some claim)) {id : WriteId}
    (hid : id ∈ claim.exchange.records.map (·.id)) :
    ∃ task ∈ (w.step c act).tasks, id ∈ task.phase.taken := by
  obtain ⟨i, reply, task, rfl, htask, hidle, hcancelled, rfl⟩ := idle_of_call hcall
  obtain ⟨hlt, _⟩ := List.getElem?_eq_some_iff.mp htask
  have htasks : (w.turn c i now reply).tasks =
      w.tasks.set i { task with phase := claim.phase } := by
    cases claim <;>
      simp [World.turn, htask, hidle, hcancelled, hans, World.goto, World.withOutbox, Claim.phase]
  refine ⟨{ task with phase := claim.phase }, ?_, ?_⟩
  · show _ ∈ (w.turn c i now reply).tasks
    rw [htasks]
    exact List.mem_set hlt _
  · rw [claim.taken_phase]
    exact hid

/-- **Whatever is in flight is in hand**, and stays there until it is settled. -/
theorem allInHand_step (hc : Conserved w.outbox) (h : w.AllInHand) {act : Act}
    (hfresh : ActFresh w act) : (w.step c act).AllInHand := by
  intro id r' hr' hst'
  have hplace : ∀ {j : Nat} {task : RelayTask}, w.tasks[j]? = some task →
      ∃ task', (w.step c act).tasks[j]? = some task' ∧ task' ∈ (w.step c act).tasks := by
    intro j task htask
    obtain ⟨hlt, _⟩ := List.getElem?_eq_some_iff.mp htask
    have hlt' := lt_of_lt_of_le hlt (tasks_length_le (c := c) w act)
    exact ⟨_, List.getElem?_eq_getElem hlt', List.getElem_mem hlt'⟩
  have hafter := hr'
  rw [outbox_step] at hafter
  cases hr : w.outbox.records id with
  | none =>
      -- what is filed is waiting
      cases hcall : act.call w with
      | none =>
          rw [hcall] at hafter
          exact absurd (hr.symm.trans hafter) (by simp)
      | some op =>
          rw [hcall] at hafter
          obtain ⟨s, rows, row, _, _, _, _, rfl⟩ :=
            record_new c hc (fresh_call hfresh hcall) hr hafter
          cases hst'
  | some r =>
      by_cases hst : r.status = .inFlight
      · obtain ⟨task, htask, hid⟩ := h id r hr hst
        obtain ⟨j, hget⟩ := List.mem_iff_getElem?.mp htask
        obtain ⟨task', hget', hmem'⟩ := hplace hget
        refine ⟨task', hmem', ?_⟩
        cases task_moved act hget' with
        | kept task₀ htask₀ hphase _ _ =>
            obtain rfl := Option.some.inj (hget.symm.trans htask₀)
            rw [hphase]
            exact hid
        | spawned hnone _ _ =>
            rw [hget] at hnone
            cases hnone
        | turned task₀ now reply hact htask₀ _ hhandled =>
            obtain rfl := Option.some.inj (hget.symm.trans htask₀)
            rcases taken_of_handled hhandled hid with hid' | ⟨outcome, rest, hphase⟩
            · exact hid'
            · have hcall : act.call w = some (.settle id outcome now) := by
                subst hact
                simp [Act.call, hget, RelayTask.call, hphase]
              rw [hcall] at hafter
              exact absurd hst' (status_of_settle hr hst hafter).1
      · obtain ⟨r₁, hr₁, hev, _⟩ := record_act (c := c) hc hfresh hr
        obtain rfl := Option.some.inj (hr'.symm.trans hr₁)
        have hpending : r.status = .pending := by
          cases hev with
          | same => exact absurd hst' hst
          | settled status _ _ hwas _ => exact absurd hwas hst
          | dropped status _ hwas _ _ => exact hwas
          | claimed now hwas => exact hwas
        -- it waited, and the task that claimed it has it in hand
        cases hcall : act.call w with
        | none =>
            rw [hcall] at hafter
            obtain rfl := Option.some.inj (hr.symm.trans hafter)
            exact absurd hst' hst
        | some op =>
            rw [hcall] at hafter
            obtain ⟨d, now, rfl⟩ :=
              claim_of_flight hc (fresh_call hfresh hcall) hr hpending hafter hst'
            obtain ⟨claim, hans, hmem⟩ := claimed_of_flight hc hr hpending hafter hst'
            exact taken_of_claim hcall hans hmem

/-! ## What waits for the device -/

/-- Nothing of the device waits to be sent. -/
def World.NoneWaits (w : World) (device : DeviceId) : Prop :=
  ∀ id r, w.outbox.records id = some r → r.device = device → r.status ≠ .pending

/-- The outcome a task reports next. -/
def RelayTask.reports (task : RelayTask) : Option (WriteId × Outcome) :=
  match task.phase with
  | .settling (first :: _) => some first
  | _ => none

def Outcome.isFailed : Outcome → Bool
  | .succeeded _ => false
  | .failed _ => true

/-- The act puts nothing of the device back into its queue: no new row, and no failed one. -/
def LeavesAlone (w : World) (device : DeviceId) : Act → Prop
  | .submit s => w.outbox.Accepts s → device ∉ s.targets
  | .turn i _ _ => ∀ task ∈ w.tasks[i]?, ∀ first ∈ task.reports,
      ∀ r ∈ w.outbox.records first.1, r.device = device → r.status = .inFlight →
        first.2.isFailed = true → w.outbox.maxAttempts ≤ r.attempts
  | _ => True

instance (w : World) (device : DeviceId) (act : Act) : Decidable (LeavesAlone w device act) := by
  cases act <;> unfold LeavesAlone <;> infer_instance

/-- A submission that files a record is accepted as new. -/
theorem accepts_of_record {o : MemoryOutbox} {s : Submission} {id : WriteId} {r : WriteRecord}
    (hnd : s.ids.Nodup) (hnone : o.records id = none)
    (hr : (o.submit s).1.records id = some r) : o.Accepts s := by
  have hspec := submit_spec o hnd
  have hchanged : (o.submit s).1 ≠ o := by
    intro heq
    rw [heq, hnone] at hr
    cases hr
  generalize hres : (o.submit s).2 = res at hspec
  cases hspec with
  | refused e heq => exact absurd heq hchanged
  | replayed acceptance heq _ => exact absurd heq hchanged
  | appended rows _ hreplayed _ =>
      refine ⟨hreplayed, ?_⟩
      rw [hres]
      rfl

theorem noneWaits_step (hc : Conserved w.outbox) {device : DeviceId} (h : w.NoneWaits device)
    {act : Act} (hfresh : ActFresh w act) (halone : LeavesAlone w device act) :
    (w.step c act).NoneWaits device := by
  intro id r' hr' hdevice hst'
  have hafter := hr'
  rw [outbox_step] at hafter
  cases hr : w.outbox.records id with
  | none =>
      cases hcall : act.call w with
      | none =>
          rw [hcall] at hafter
          exact absurd (hr.symm.trans hafter) (by simp)
      | some op =>
          rw [hcall] at hafter
          obtain ⟨s, rows, row, rfl, happ, hrow, _, rfl⟩ :=
            record_new c hc (fresh_call hfresh hcall) hr hafter
          obtain rfl := submit_of_call hcall
          have haccepts : w.outbox.Accepts s := accepts_of_record hfresh.1 hr hafter
          refine halone haccepts ?_
          rw [← happ.targets]
          exact List.mem_map.mpr ⟨row, hrow, hdevice⟩
  | some r =>
      obtain ⟨r₁, hr₁, hev, hkept⟩ := record_act (c := c) hc hfresh hr
      obtain rfl := Option.some.inj (hr'.symm.trans hr₁)
      have hdevice₀ : r.device = device := hev.sameWrite.device.symm.trans hdevice
      have hnot : r.status ≠ .pending := h id r hr hdevice₀
      -- only a settlement makes a write wait again
      by_cases hst : r.status = .inFlight
      · rcases hkept hst with rfl | ⟨outcome, now, hcall⟩
        · exact hnot hst'
        · rw [hcall] at hafter
          obtain ⟨⟨reason, rfl⟩, hlt⟩ := (status_of_settle hr hst hafter).2 hst'
          obtain ⟨i, reply, task, rest, rfl, htask, hphase⟩ := settling_of_call hcall
          have hreports : task.reports = some (id, .failed reason) := by
            unfold RelayTask.reports
            rw [hphase]
          have hle := halone task htask _ hreports r hr hdevice₀ hst rfl
          omega
      · cases hev with
        | same => exact hnot hst'
        | claimed now hwas => exact hnot hwas
        | settled status _ _ hwas _ => exact hst hwas
        | dropped status _ hwas _ _ => exact hnot hwas

/-- **Cancelling a queue** leaves nothing of its device waiting. -/
theorem noneWaits_cancel (hc : Conserved w.outbox) (device : DeviceId) (reason : String) :
    (w.step c (.cancel device reason)).NoneWaits device := by
  intro id r' hr' hdevice hst'
  have hcancels := cancelQueued_cancels hc.tidy device reason
  change (w.outbox.cancelQueued device reason).1.records id = some r' at hr'
  cases hr : w.outbox.records id with
  | none =>
      rw [hcancels.records id (by simp [hr])] at hr'
      rw [hr] at hr'
      cases hr'
  | some r =>
      rcases hcancels.record hr with hsame | ⟨_, _, reason', hcan⟩
      · obtain rfl := Option.some.inj (hr'.symm.trans hsame)
        obtain ⟨reason', hdrop⟩ := hcancels.drop id r' hr hst' (.inl ⟨r', hr, hdevice⟩)
        rw [Option.some.inj (hr'.symm.trans hdrop)] at hst'
        cases hst'
      · obtain rfl := Option.some.inj (hr'.symm.trans hcan)
        cases hst'

end InHand

/-! ## What the store holds of the device -/

section Store

variable {layout : Layout} {store : MemoryStore} {device : DeviceId}

theorem latest_call {call : Call} (h : store.latest device = ∅)
    (hcall : ∀ read, call = .upsert read → read.device ≠ device) :
    (call.step layout store).1.latest device = ∅ := by
  cases call with
  | upsert read =>
      have hne : device ≠ read.device := fun heq => hcall read rfl heq.symm
      show Function.update store.latest read.device _ device = ∅
      rw [Function.update_of_ne hne]
      exact h
  | forget other =>
      show Function.update store.latest other ∅ device = ∅
      by_cases hother : device = other
      · subst hother
        rw [Function.update_self]
      · rw [Function.update_of_ne hother]
        exact h
  | dropping slots answer =>
      cases slots with
      | nil => exact h
      | cons slot slots =>
          simp only [Call.step]
          split
          · exact h
          · exact h
  | vacating other slots answer =>
      show (store.removeIfEmpty other).latest device = ∅
      unfold MemoryStore.removeIfEmpty
      split
      · exact h
      · exact h
  | append | admitting | settle | clear | prune | recap | done => exact h

/-- An entry is replaced, of this device or of another. -/
theorem history_setHistory (other : DeviceId) (fields : Option (Fields (List Read))) :
    (store.setHistory other fields).history device =
      if device = other then fields.getD ∅ else store.history device := by
  show (Function.update store.history? other fields device).getD ∅ = _
  by_cases h : device = other
  · subst h
    rw [if_pos rfl, Function.update_self]
  · rw [if_neg h, Function.update_of_ne h]
    rfl

theorem popFront_empty (field : FieldName) : MemoryStore.popFront ∅ field = ∅ := by
  simp [MemoryStore.popFront]

theorem history_removeIfEmpty (h : store.history device = ∅) (other : DeviceId) :
    (store.removeIfEmpty other).history device = ∅ := by
  unfold MemoryStore.removeIfEmpty
  split
  · rw [history_setHistory]
    split
    · rfl
    · exact h
  · exact h

theorem history_call {call : Call} (h : store.history device = ∅)
    (hcall : ∀ read n, call = .append read n → read.device ≠ device) :
    (call.step layout store).1.history device = ∅ := by
  cases call with
  | append read n =>
      show (store.setHistory read.device _).history device = ∅
      rw [history_setHistory, if_neg fun heq => hcall read n rfl heq.symm]
      exact h
  | clear other n =>
      show (store.setHistory other none).history device = ∅
      rw [history_setHistory]
      split
      · rfl
      · exact h
  | dropping slots answer =>
      cases slots with
      | nil => exact h
      | cons slot slots =>
          simp only [Call.step]
          split
          · exact h
          · rename_i fields hfields
            rw [history_setHistory]
            split
            · -- what is filed under the device is nothing, and stays so
              rename_i hdevice
              rw [hdevice, MemoryStore.history, hfields, Option.getD_some] at h
              rw [h, Option.getD_some, popFront_empty]
            · exact h
  | vacating other slots answer => exact history_removeIfEmpty h other
  | upsert | admitting | settle | forget | prune | recap | done => exact h

end Store

/-! ## Taken out of the fleet -/

/-- The devices the registry hands out, as the relay sees them. -/
def handlesOf (r : Devices.Registry) : Registry where
  ids := OrderedSet.ofList (r.devices.map (·.config.id))
  uuid := fun id => ((r.device id).map (·.config.uuid.toString)).getD ""

section TakenOut

variable {newV5 : Devices.Uuid → List UInt8 → Devices.Uuid} {fleet : LiveFleet}

/-- A removal that is not refused leaves no handle of its device. -/
theorem takeOut_gone (hone : fleet.registry.OneEach) {id : DeviceId} {resolved : Devices.Resolved}
    (h : (fleet.takeOut newV5 id).2 = .ok resolved) :
    id ∉ (handlesOf (fleet.takeOut newV5 id).1.registry).ids := by
  rcases takeOut_cases newV5 fleet id with ⟨fault, hout⟩ | ⟨amended, resolved, rfl, hresolves, hout⟩
  · rw [hout] at h
    cases h
  · rw [hout]
    intro hmem
    obtain ⟨d, hd, hid⟩ := List.mem_map.mp (OrderedSet.mem_ofList.mp hmem)
    obtain ⟨_, _, honly⟩ := apply_device hone (sound_of_resolveConfig hresolves).devices_nodup
    obtain ⟨config, hconfig, hsame⟩ := honly d hd
    obtain ⟨raw, hraw, hresolve⟩ :=
      (mem_resolveDevices (resolveConfig_ok.mp hresolves).1).mp hconfig
    have hrawId : raw.id = id := by rw [← (Devices.resolve_ok hresolve).1, hsame, hid]
    have hkept := (List.mem_filter.mp hraw).2
    simp [hrawId] at hkept

/-- Nor does a reset that reports the device as removed. -/
theorem apply_gone (r : Devices.Registry) (resolved : Devices.Resolved) {id : DeviceId}
    (h : id ∈ (r.apply resolved).2.removed) : id ∉ (handlesOf (r.apply resolved).1).ids := by
  intro hmem
  obtain ⟨d, hd, hid⟩ := List.mem_map.mp (OrderedSet.mem_ofList.mp hmem)
  obtain ⟨d', hd', hid'⟩ := List.mem_map.mp ((List.mem_insertionSort _).mp h)
  have hstays := (List.mem_filter.mp hd).2
  have hgoes := (List.mem_filter.mp hd').2
  dsimp only at hstays hgoes
  rw [hid', ← hid, hstays] at hgoes
  cases hgoes

end TakenOut

/-! ## A removal under way -/

/-- Which device leaves, and what goes with it. -/
structure Leaving where
  device : DeviceId
  /-- What its cancelled writes are told. -/
  reason : String
  /-- Whether its recorded reads go too. -/
  cleanupOnRemove : Bool

/-- How far the removal has got. -/
inductive Removal
  /-- About to take the device out of the fleet. -/
  | amending
  /-- About to cancel what is queued for it. -/
  | cancelling
  /-- In `forget_device`. -/
  | forgetting (call : Call)
  | returned
deriving DecidableEq

/-- The queue has been cancelled. -/
def Removal.cancelled : Removal → Bool
  | .amending | .cancelling => false
  | .forgetting _ | .returned => true

/-- What was latest has been dropped. -/
def Removal.latestGone : Removal → Bool
  | .forgetting (.settle _ _) | .forgetting (.clear _ _) | .returned => true
  | _ => false

/-- A removal, and everything that goes on beside it. -/
structure Departure where
  world : World
  store : MemoryStore
  /-- The store's calls, each as what it does next. -/
  calls : List Call
  removal : Removal

inductive Doing
  /-- A handler submits, the relay goes on, another verb changes the fleet. -/
  | world (act : Act)
  /-- A poll loop, the sweeper or another removal calls the store. -/
  | request (request : Request)
  /-- A call of the store takes its next step. -/
  | call (n : Nat)
  /-- The removal changes the fleet: its device is not in it. -/
  | amend (registry : Registry)
  /-- The removal takes its next step. -/
  | goOn

namespace Departure

/-- The process as it starts, with whatever reads it has. -/
def start (maxAttempts : Nat) (backoff : Duration) (registry : Registry) (store : MemoryStore) :
    Departure where
  world := World.init maxAttempts backoff registry
  store := store
  calls := []
  removal := .amending

def step (c : Chrono) (layout : Layout) (leaving : Leaving) (s : Departure) : Doing → Departure
  | .world act => { s with world := s.world.step c act }
  | .request request => { s with calls := s.calls ++ [request.begin] }
  | .call n =>
      match s.calls[n]? with
      | none => s
      | some call =>
          let (store, call) := call.step layout s.store
          { s with store := store, calls := s.calls.set n call }
  | .amend registry =>
      if s.removal = .amending ∧ leaving.device ∉ registry.ids then
        { s with world := s.world.step c (.register registry), removal := .cancelling }
      else s
  | .goOn =>
      match s.removal with
      | .amending | .returned => s
      | .cancelling =>
          { s with
            world := s.world.step c (.cancel leaving.device leaving.reason)
            removal :=
              if leaving.cleanupOnRemove then .forgetting (.forget leaving.device)
              else .returned }
      | .forgetting call =>
          let (store, call) := call.step layout s.store
          { s with
            store := store
            removal :=
              match call with
              | .done _ => .returned
              | call => .forgetting call }

/-- What the caller of `submit` sees to. -/
def Fresh (s : Departure) : Doing → Prop
  | .world act => ActFresh s.world act
  | _ => True

/-- The read a call is about to file where the removal has already looked. -/
def late (s : Departure) : Call → Option Read
  | .upsert read => if s.removal.latestGone then some read else none
  | .append read _ => if s.removal = .returned then some read else none
  | _ => none

/--
Nothing of the device comes in behind the removal: once its queue is cancelled no row of it
is filed or queued again, and once its reads are dropped none is filed.
-/
def Quiet (leaving : Leaving) (s : Departure) : Doing → Prop
  | .world act => s.removal.cancelled = true → LeavesAlone s.world leaving.device act
  | .call n => leaving.cleanupOnRemove = true → ∀ call ∈ s.calls[n]?, ∀ read ∈ s.late call,
      read.device ≠ leaving.device
  | _ => True

instance (leaving : Leaving) (s : Departure) (doing : Doing) :
    Decidable (Quiet leaving s doing) := by
  cases doing <;> unfold Quiet <;> infer_instance

/-- No task has a write of the device in hand. -/
def Settled (leaving : Leaving) (s : Departure) : Prop :=
  ∀ task ∈ s.world.tasks, ∀ id ∈ task.phase.taken, ∀ r, s.world.outbox.records id = some r →
    r.device ≠ leaving.device

/-- Once the removal has returned and what was in hand is settled, nothing of the device is left. -/
def Complete (leaving : Leaving) (s : Departure) : Prop :=
  s.removal = .returned → s.Settled leaving →
    (∀ id r, s.world.outbox.records id = some r → r.device = leaving.device →
      r.status ≠ .pending ∧ r.status ≠ .inFlight) ∧
    (leaving.cleanupOnRemove = true →
      s.store.latest leaving.device = ∅ ∧ s.store.history leaving.device = ∅)

/-- What the removal has seen to so far. -/
structure Inv (leaving : Leaving) (s : Departure) : Prop where
  conserved : Conserved s.world.outbox
  inHand : s.world.AllInHand
  noneWaits : s.removal.cancelled = true → s.world.NoneWaits leaving.device
  forgetting : ∀ call, s.removal = .forgetting call → call = .forget leaving.device ∨
    (∃ dropped, call = .settle leaving.device dropped) ∨ ∃ n, call = .clear leaving.device n
  latest : leaving.cleanupOnRemove = true → s.removal.latestGone = true →
    s.store.latest leaving.device = ∅
  history : leaving.cleanupOnRemove = true → s.removal = .returned →
    s.store.history leaving.device = ∅

theorem Inv.complete {leaving : Leaving} {s : Departure} (h : s.Inv leaving) :
    s.Complete leaving := by
  intro hreturned hsettled
  have hcancelled : s.removal.cancelled = true := by rw [hreturned]; rfl
  have hlatest : s.removal.latestGone = true := by rw [hreturned]; rfl
  refine ⟨?_, ?_⟩
  · intro id r hr hdevice
    refine ⟨h.noneWaits hcancelled id r hr hdevice, ?_⟩
    intro hst
    obtain ⟨task, htask, hid⟩ := h.inHand id r hr hst
    exact hsettled task htask id hid r hr hdevice
  · intro hcleanup
    exact ⟨h.latest hcleanup hlatest, h.history hcleanup hreturned⟩

end Departure

section Runs

variable {c : Chrono} {layout : Layout} {leaving : Leaving} {s : Departure}

theorem departure_inv_start (leaving : Leaving) (maxAttempts : Nat) (backoff : Duration)
    (registry : Registry) (store : MemoryStore) :
    (Departure.start maxAttempts backoff registry store).Inv leaving where
  conserved := conserved_init maxAttempts backoff
  inHand := by
    intro id r hr
    cases hr
  noneWaits := by
    intro hcancelled
    cases hcancelled
  forgetting := by
    intro call hremoval
    cases hremoval
  latest := by
    intro _ hgone
    cases hgone
  history := by
    intro _ hreturned
    cases hreturned

/-- The world goes on beside the removal. -/
theorem departure_inv_world (h : s.Inv leaving) {act : Act} (hfresh : ActFresh s.world act)
    (hquiet : s.removal.cancelled = true → LeavesAlone s.world leaving.device act) :
    (s.step c layout leaving (.world act)).Inv leaving where
  conserved := conserved_act h.conserved hfresh
  inHand := allInHand_step h.conserved h.inHand hfresh
  noneWaits := fun hcancelled =>
    noneWaits_step h.conserved (h.noneWaits hcancelled) hfresh (hquiet hcancelled)
  forgetting := h.forgetting
  latest := h.latest
  history := h.history

/-- Another call of the store takes a step. -/
theorem departure_inv_call (h : s.Inv leaving) {n : Nat} (hquiet : s.Quiet leaving (.call n)) :
    (s.step c layout leaving (.call n)).Inv leaving := by
  cases hcall : s.calls[n]? with
  | none =>
      have hsame : s.step c layout leaving (.call n) = s := by
        simp only [Departure.step, hcall]
      rw [hsame]
      exact h
  | some call =>
      have hstep : s.step c layout leaving (.call n) = { s with
          store := (call.step layout s.store).1
          calls := s.calls.set n (call.step layout s.store).2 } := by
        simp only [Departure.step, hcall]
      have hlate : leaving.cleanupOnRemove = true → ∀ read ∈ s.late call,
          read.device ≠ leaving.device := fun hcleanup => hquiet hcleanup call hcall
      rw [hstep]
      refine ⟨h.conserved, h.inHand, h.noneWaits, h.forgetting, ?_, ?_⟩
      · intro hcleanup hgone
        refine latest_call (h.latest hcleanup hgone) ?_
        rintro read rfl
        exact hlate hcleanup read (if_pos hgone)
      · intro hcleanup hreturned
        refine history_call (h.history hcleanup hreturned) ?_
        rintro read displaced rfl
        exact hlate hcleanup read (if_pos hreturned)

/-- The removal takes its next step. -/
theorem departure_inv_goOn (h : s.Inv leaving) : (s.step c layout leaving .goOn).Inv leaving := by
  cases hremoval : s.removal with
  | amending | returned =>
      have hsame : s.step c layout leaving .goOn = s := by
        simp only [Departure.step, hremoval]
      rw [hsame]
      exact h
  | cancelling =>
      have hstep : s.step c layout leaving .goOn = { s with
          world := s.world.step c (.cancel leaving.device leaving.reason)
          removal := if leaving.cleanupOnRemove then .forgetting (.forget leaving.device)
            else .returned } := by
        simp only [Departure.step, hremoval]
      rw [hstep]
      refine ⟨conserved_act h.conserved trivial, allInHand_step h.conserved h.inHand trivial,
        fun _ => noneWaits_cancel (c := c) h.conserved leaving.device leaving.reason, ?_, ?_, ?_⟩
      · intro call hcall
        dsimp only at hcall
        split at hcall
        · exact .inl (Removal.forgetting.inj hcall).symm
        · cases hcall
      · intro hcleanup hgone
        dsimp only at hgone
        rw [if_pos hcleanup] at hgone
        cases hgone
      · intro hcleanup hreturned
        dsimp only at hreturned
        rw [if_pos hcleanup] at hreturned
        cases hreturned
  | forgetting call =>
      have hwaits := h.noneWaits (by rw [hremoval]; rfl)
      rcases h.forgetting call hremoval with rfl | ⟨dropped, rfl⟩ | ⟨n, rfl⟩
      · -- what is latest goes
        simp only [Departure.step, hremoval, Call.step]
        refine ⟨h.conserved, h.inHand, fun _ => hwaits, ?_, ?_, ?_⟩
        · intro call hcall
          exact .inr (.inl ⟨_, (Removal.forgetting.inj hcall).symm⟩)
        · intro _ _
          exact Function.update_self ..
        · intro _ hreturned
          cases hreturned
      · simp only [Departure.step, hremoval, Call.step]
        refine ⟨h.conserved, h.inHand, fun _ => hwaits, ?_, ?_, ?_⟩
        · intro call hcall
          exact .inr (.inr ⟨_, (Removal.forgetting.inj hcall).symm⟩)
        · intro hcleanup _
          exact h.latest hcleanup (by rw [hremoval]; rfl)
        · intro _ hreturned
          cases hreturned
      · -- and the history last
        simp only [Departure.step, hremoval, Call.step]
        refine ⟨h.conserved, h.inHand, fun _ => hwaits, ?_, ?_, ?_⟩
        · intro call hcall
          cases hcall
        · intro hcleanup _
          exact h.latest hcleanup (by rw [hremoval]; rfl)
        · intro _ _
          show (s.store.setHistory leaving.device none).history leaving.device = ∅
          rw [history_setHistory, if_pos rfl]
          rfl

theorem departure_inv_step (h : s.Inv leaving) {doing : Doing} (hfresh : s.Fresh doing)
    (hquiet : s.Quiet leaving doing) : (s.step c layout leaving doing).Inv leaving := by
  cases doing with
  | world act => exact departure_inv_world h hfresh hquiet
  | request request =>
      exact ⟨h.conserved, h.inHand, h.noneWaits, h.forgetting, h.latest, h.history⟩
  | call n => exact departure_inv_call h hquiet
  | amend registry =>
      by_cases hgoes : s.removal = .amending ∧ leaving.device ∉ registry.ids
      · have hstep : s.step c layout leaving (.amend registry) = { s with
            world := s.world.step c (.register registry), removal := .cancelling } := by
          simp only [Departure.step, if_pos hgoes]
        rw [hstep]
        refine ⟨conserved_act h.conserved trivial, allInHand_step h.conserved h.inHand trivial,
          ?_, ?_, ?_, ?_⟩
        · intro hcancelled
          cases hcancelled
        · intro call hcall
          cases hcall
        · intro _ hgone
          cases hgone
        · intro _ hreturned
          cases hreturned
      · have hsame : s.step c layout leaving (.amend registry) = s := by
          simp only [Departure.step, if_neg hgoes]
        rw [hsame]
        exact h
  | goOn => exact departure_inv_goOn h

end Runs

/--
**A removal is complete**, in every run in which nothing of its device comes in behind it:
once it has returned and no task has a write of the device in hand, none is waiting or in
flight, and with the cleanup no read of it is stored.
-/
theorem removal_complete (c : Chrono) (layout : Layout) (leaving : Leaving) (maxAttempts : Nat)
    (backoff : Duration) (registry : Registry) (store : MemoryStore) {doings : List Doing}
    (hfresh : Machine.Along (Departure.step c layout leaving) Departure.Fresh
      (.start maxAttempts backoff registry store) doings)
    (hquiet : Machine.Along (Departure.step c layout leaving) (Departure.Quiet leaving)
      (.start maxAttempts backoff registry store) doings) :
    (Machine.exec (Departure.step c layout leaving) (.start maxAttempts backoff registry store)
      doings).Complete leaving := by
  have hstep : ∀ s doing, Departure.Inv leaving s →
      Departure.Fresh s doing ∧ Departure.Quiet leaving s doing →
      (Departure.step c layout leaving s doing).Inv leaving := fun _ _ h hok =>
    departure_inv_step h hok.1 hok.2
  exact (Machine.exec_invariant hstep (Machine.along_and.mpr ⟨hfresh, hquiet⟩)
    (departure_inv_start leaving maxAttempts backoff registry store)).complete

/-! ## A submission behind a removal -/

/-- `a` leaves; what was read of it stays, or goes too. -/
def leavingA (cleanupOnRemove : Bool) : Leaving where
  device := "a"
  reason := "the device was removed from the fleet"
  cleanupOnRemove := cleanupOnRemove

/-- Where the runs below start: `a` is in the fleet, and nothing has been read. -/
def beforeLeaving : Departure := .start 3 1000000000 (registryOf ["a"]) (.withBudget none)

/-- A start of `a` that found it in the catalog is filed when the removal is over. -/
def lateSubmission : List Doing :=
  [.world .apply, .amend (registryOf []), .world .apply, .goOn, .world (.submit startA)]

/-- The start waits, and no task will ever claim it. -/
theorem removal_outlived :
    Machine.Along (Departure.step utc layout64 (leavingA false)) Departure.Fresh beforeLeaving
        lateSubmission ∧
      ¬ (Machine.exec (Departure.step utc layout64 (leavingA false)) beforeLeaving
        lateSubmission).Complete (leavingA false) := by
  refine ⟨?_, ?_⟩
  · exact ⟨trivial, trivial, trivial, trivial, fresh_writeTo rfl, trivial⟩
  · intro h
    have hreturned : (Machine.exec (Departure.step utc layout64 (leavingA false)) beforeLeaving
        lateSubmission).removal = .returned := by decide +kernel
    have hidle : ((Machine.exec (Departure.step utc layout64 (leavingA false)) beforeLeaving
        lateSubmission).world.tasks.all fun task => task.phase.taken.isEmpty) = true := by
      decide +kernel
    have hfiled : ((Machine.exec (Departure.step utc layout64 (leavingA false)) beforeLeaving
        lateSubmission).world.outbox.records "w1").map (fun r => (r.device, r.status)) =
          some ("a", .pending) := by decide +kernel
    obtain ⟨r, hr, hwaits⟩ := Option.map_eq_some_iff.mp hfiled
    obtain ⟨hdevice, hst⟩ := Prod.mk.inj hwaits
    refine ((h hreturned ?_).1 "w1" r hr hdevice).1 hst
    intro task htask id hid
    rw [List.isEmpty_iff.mp (List.all_eq_true.mp hidle task htask)] at hid
    cases hid

/-- Stop `a`. -/
def stopA : Submission := { startA with ids := ["w2"], intent := .stopRecording }

/-- `a` says it is recording. -/
def readOfA : Read := ⟨"a", "RUNNING_STATE", .state .started, tenOClock "02"⟩

/--
`a` leaves while it is being started: a stop waits behind the start, and a read is filed as
the removal goes on.
-/
def leavingTurns : List Doing :=
  (sendingTurns.map .world) ++
  [.request (.upsertLatest readOfA), .world (.submit stopA), .amend (registryOf []), .call 0,
    .goOn, .world .apply, .world (turnOfA "03"), .call 0, .world (turnOfA "03"), .goOn, .goOn,
    .call 0, .goOn]

theorem removal_complete_leavingTurns :
    Machine.Along (Departure.step utc layout64 (leavingA true)) (Departure.Quiet (leavingA true))
        beforeLeaving leavingTurns ∧
      (Machine.exec (Departure.step utc layout64 (leavingA true)) beforeLeaving
        leavingTurns).removal = .returned ∧
      (Machine.exec (Departure.step utc layout64 (leavingA true)) beforeLeaving
        leavingTurns).Complete (leavingA true) := by
  have hfresh : Machine.Along (Departure.step utc layout64 (leavingA true)) Departure.Fresh
      beforeLeaving leavingTurns :=
    ⟨trivial, fresh_writeTo rfl, trivial, trivial, trivial, trivial, trivial,
      fresh_writeTo (by decide +kernel), trivial, trivial, trivial, trivial, trivial, trivial,
      trivial, trivial, trivial, trivial, trivial, trivial⟩
  have hquiet : Machine.Along (Departure.step utc layout64 (leavingA true))
      (Departure.Quiet (leavingA true)) beforeLeaving leavingTurns := by decide +kernel
  exact ⟨hquiet, by decide +kernel, removal_complete utc layout64 (leavingA true) 3 1000000000
    (registryOf ["a"]) (.withBudget none) hfresh hquiet⟩

end Sismatic
