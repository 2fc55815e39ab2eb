import Sismatic.IntentRelay.Relay
import Sismatic.Proof.BarrierSafety

/-!
# What the relay puts on the wire

Between a claim and the exchange it leads to, a relay task holds records. The
exchange it is on its way to is a function of its phase, so the claim is where
every exchange comes from: a task bound for one was bound for it before its turn, or
has just been handed it. What is said of an exchange is then said of a claim.
-/

namespace Sismatic

open MemoryOutbox

/-- The exchange a claim asks for. -/
def Claim.exchange : Claim → Exchange
  | .one record => .alone record
  | .batch id records => .group id records

/-- The exchange a task in this phase is on its way to. -/
def Phase.exchange : Phase → Option Exchange
  | .alone record | .exchanging record => some (.alone record)
  | .batch id records | .gathering id records _ => some (.group id records)
  | _ => none

/-- The call a task's next step makes on the outbox, if it makes one. -/
def RelayTask.call (task : RelayTask) (now : Timestamp) (reply : DeviceId → Reply) : Option Op :=
  let look := ((reply task.device.id).toOption.bind Value.asState).map (Op.observe task.device.id)
  match task.phase with
  | .recovering _ => look
  | .idle => if task.cancelled then none else some (.claimNext task.device.id now)
  | .alone record =>
      match record.intent with
      | .setMetadata _ _ => look
      | _ => none
  | .settling ((id, outcome) :: _) => some (.settle id outcome now)
  | _ => none

/-- The call an act makes on the outbox. -/
def Act.call (w : World) : Act → Option Op
  | .submit s => some (.submit s)
  | .register _ | .apply => none
  | .cancel device reason => some (.cancelQueued device reason)
  | .poll device observed => some (.observe device observed)
  | .turn i now reply => w.tasks[i]?.bind fun task => task.call now reply

/-- The outbox after the call, if there is one. -/
def MemoryOutbox.after (c : Chrono) (o : MemoryOutbox) (call : Option Op) : MemoryOutbox :=
  (call.map (step c o)).getD o

/-- Ids are minted apart and a batch addresses no device twice, over a run of the world. -/
def ActMinted (w : World) : Act → Prop
  | .submit s => Minted w.outbox (.submit s)
  | _ => True

section Steps

variable {c : Chrono} {w : World}

/-! ## Starting tasks -/

theorem startTask_frame (device : Device) :
    (w.startTask device).outbox = w.outbox ∧ (w.startTask device).exchanges = w.exchanges ∧
      ∀ task ∈ (w.startTask device).tasks, task ∈ w.tasks ∨ task.phase = .recover := by
  unfold World.startTask
  cases w.running device.id with
  | some running => exact ⟨rfl, rfl, fun task htask => .inl htask⟩
  | none =>
      refine ⟨rfl, rfl, ?_⟩
      intro task htask
      rcases List.mem_append.mp htask with hold | hnew
      · exact .inl hold
      · rw [List.mem_singleton.mp hnew]
        exact .inr rfl

theorem foldl_startTask_frame (devices : List Device) :
    (devices.foldl World.startTask w).outbox = w.outbox ∧
      (devices.foldl World.startTask w).exchanges = w.exchanges ∧
      ∀ task ∈ (devices.foldl World.startTask w).tasks, task ∈ w.tasks ∨ task.phase = .recover := by
  induction devices generalizing w with
  | nil => exact ⟨rfl, rfl, fun task htask => .inl htask⟩
  | cons device devices ih =>
      obtain ⟨hout, hex, htasks⟩ := startTask_frame (w := w) device
      obtain ⟨hout', hex', htasks'⟩ := ih (w := w.startTask device)
      refine ⟨hout'.trans hout, hex'.trans hex, ?_⟩
      intro task htask
      rcases htasks' task htask with hmid | hrec
      · exact htasks task hmid
      · exact .inr hrec

theorem stopStale_phase {task : RelayTask} (htask : task ∈ w.stopStale.tasks) :
    ∃ task₀ ∈ w.tasks, task.phase = task₀.phase := by
  obtain ⟨⟨task₀, i⟩, hmem, rfl⟩ := List.mem_map.mp htask
  refine ⟨task₀, List.fst_mem_of_mem_zipIdx hmem, ?_⟩
  dsimp only
  split <;> rfl

/-- Replacing the relay's device set touches neither the outbox nor the wire. -/
theorem apply_frame : w.apply.outbox = w.outbox ∧ w.apply.exchanges = w.exchanges ∧
    ∀ task ∈ w.apply.tasks, (∃ task₀ ∈ w.tasks, task.phase = task₀.phase) ∨
      task.phase = .recover := by
  obtain ⟨hout, hex, htasks⟩ := foldl_startTask_frame (w := w.stopStale) w.registry.devices
  refine ⟨hout, hex, ?_⟩
  intro task htask
  rcases htasks task htask with hmid | hrec
  · exact .inl (stopStale_phase hmid)
  · exact .inr hrec

/-! ## A task's turn -/

/-- How a task's turn moves it on: the phase it leaves it in, and the exchange it begins. -/
inductive Turned (c : Chrono) (w : World) (task : RelayTask) (now : Timestamp) :
    Phase → Option Exchange → Prop
  | rests (phase : Phase) : phase.exchange = none → Turned c w task now phase none
  | claims (claim : Claim) (phase : Phase) :
      task.phase = .idle → task.cancelled = false →
      (w.outbox.claimNext c task.device.id now).2 = .ok (some claim) →
      (∀ id records rest, phase ≠ .gathering id records rest) →
      phase.exchange = some claim.exchange → Turned c w task now phase none
  | looks (record : WriteRecord) : task.phase = .alone record →
      Turned c w task now (.exchanging record) none
  | translates (id : BatchId) (first : WriteRecord) (records : List WriteRecord)
      (instruction : Instruction) : task.phase = .batch id (first :: records) →
      toInstruction first.intent = .ok instruction →
      Turned c w task now (.gathering id (first :: records) (first :: records)) none
  | gathers (id : BatchId) (records : List WriteRecord) (record : WriteRecord)
      (rest : List WriteRecord) : task.phase = .gathering id records (record :: rest) →
      Turned c w task now (.gathering id records rest) none
  | runsAlone (record : WriteRecord) (instruction : Instruction) :
      task.phase = .exchanging record → toInstruction record.intent = .ok instruction →
      Turned c w task now (.awaiting record) (some (.alone record))
  | runsGroup (id : BatchId) (records : List WriteRecord) :
      task.phase = .gathering id records [] →
      Turned c w task now (.running id records) (some (.group id records))

/-- What `task`, the one at `i`, did with its turn, when it had one. -/
def TurnTaken (c : Chrono) (w : World) (i : Nat) (now : Timestamp) (w' : World) : Prop :=
  (w'.tasks = w.tasks ∧ w'.exchanges = w.exchanges) ∨
    ∃ task phase exchange, w.tasks[i]? = some task ∧ Turned c w task now phase exchange ∧
      w'.tasks = w.tasks.set i { task with phase := phase } ∧
      w'.exchanges = w.exchanges ++ exchange.toList

theorem observeState_eq (o : MemoryOutbox) (device : Device) (reply : DeviceId → Reply) :
    (observeState o device reply).1 = o.after c
      (((reply device.id).toOption.bind Value.asState).map (Op.observe device.id)) := by
  unfold observeState
  cases (reply device.id).toOption.bind Value.asState <;> rfl

/-- **What a turn does.** -/
theorem turn_spec (i : Nat) (now : Timestamp) (reply : DeviceId → Reply) :
    TurnTaken c w i now (w.turn c i now reply) ∧
      (w.turn c i now reply).outbox =
        w.outbox.after c (w.tasks[i]?.bind fun task => task.call now reply) := by
  cases htask : w.tasks[i]? with
  | none =>
      have hturn : w.turn c i now reply = w := by simp only [World.turn, htask]
      rw [hturn]
      exact ⟨.inl ⟨rfl, rfl⟩, rfl⟩
  | some task =>
      -- a turn that leaves the task with nothing to run
      have hrest : ∀ {w'} (phase : Phase), phase.exchange = none →
          w'.tasks = w.tasks.set i { task with phase := phase } → w'.exchanges = w.exchanges →
          TurnTaken c w i now w' := by
        intro w' phase hphase htasks hex
        refine .inr ⟨task, phase, none, htask, .rests phase hphase, htasks, ?_⟩
        rw [hex, Option.toList_none, List.append_nil]
      have hmove : ∀ {w'} {phase : Phase}, Turned c w task now phase none →
          w'.tasks = w.tasks.set i { task with phase := phase } → w'.exchanges = w.exchanges →
          TurnTaken c w i now w' := by
        intro w' phase hturned htasks hex
        refine .inr ⟨task, phase, none, htask, hturned, htasks, ?_⟩
        rw [hex, Option.toList_none, List.append_nil]
      have hlook := observeState_eq (c := c) w.outbox task.device reply
      cases hphase : task.phase with
      | recover =>
          simp only [World.turn, htask, hphase, Option.bind_some, RelayTask.call]
          split
          · exact ⟨hrest .idle rfl rfl rfl, rfl⟩
          · exact ⟨hrest (.recovering _) rfl rfl rfl, rfl⟩
      | recovering stranded =>
          simp only [World.turn, htask, hphase, Option.bind_some, RelayTask.call]
          exact ⟨hrest (.settling _) rfl rfl rfl, hlook⟩
      | idle =>
          cases hcan : task.cancelled with
          | true =>
              simp only [World.turn, htask, hphase, Option.bind_some, RelayTask.call, hcan,
                if_true]
              exact ⟨hrest .stopped rfl rfl rfl, rfl⟩
          | false =>
              simp only [World.turn, htask, hphase, Option.bind_some, RelayTask.call, hcan,
                Bool.false_eq_true, if_false]
              split
              · rename_i record hres
                exact ⟨hmove (.claims (.one record) _ hphase hcan hres (by simp) rfl) rfl rfl,
                  rfl⟩
              · rename_i id records hres
                exact ⟨hmove (.claims (.batch id records) _ hphase hcan hres (by simp) rfl)
                  rfl rfl, rfl⟩
              · exact ⟨.inl ⟨rfl, rfl⟩, rfl⟩
      | alone record =>
          cases hint : record.intent with
          | setMetadata field value =>
              simp only [World.turn, htask, hphase, Option.bind_some, RelayTask.call, hint]
              refine ⟨?_, hlook⟩
              split
              · exact hrest (.settling _) rfl rfl rfl
              · exact hmove (.looks record hphase) rfl rfl
          | _ =>
              simp only [World.turn, htask, hphase, Option.bind_some, RelayTask.call, hint]
              exact ⟨hmove (.looks record hphase) rfl rfl, rfl⟩
      | exchanging record =>
          simp only [World.turn, htask, hphase, Option.bind_some, RelayTask.call]
          split
          · exact ⟨hrest (.settling _) rfl rfl rfl, rfl⟩
          · rename_i instruction hins
            exact ⟨.inr ⟨task, _, _, htask, .runsAlone record instruction hphase hins, rfl, rfl⟩,
              rfl⟩
      | awaiting record =>
          simp only [World.turn, htask, hphase, Option.bind_some, RelayTask.call]
          exact ⟨hrest (.settling _) rfl rfl rfl, rfl⟩
      | batch id records =>
          cases records with
          | nil =>
              simp only [World.turn, htask, hphase, Option.bind_some, RelayTask.call]
              exact ⟨hrest .idle rfl rfl rfl, rfl⟩
          | cons first records =>
              simp only [World.turn, htask, hphase, Option.bind_some, RelayTask.call]
              split
              · exact ⟨hrest (.settling _) rfl rfl rfl, rfl⟩
              · rename_i instruction hins
                exact ⟨hmove (.translates id first records instruction hphase hins) rfl rfl, rfl⟩
      | gathering id records rest =>
          cases rest with
          | nil =>
              simp only [World.turn, htask, hphase, Option.bind_some, RelayTask.call]
              exact ⟨.inr ⟨task, _, _, htask, .runsGroup id records hphase, rfl, rfl⟩, rfl⟩
          | cons record rest =>
              simp only [World.turn, htask, hphase, Option.bind_some, RelayTask.call]
              split
              · exact ⟨hmove (.gathers id records record rest hphase) rfl rfl, rfl⟩
              · exact ⟨hrest (.settling _) rfl rfl rfl, rfl⟩
      | running id records =>
          simp only [World.turn, htask, hphase, Option.bind_some, RelayTask.call]
          exact ⟨hrest (.settling _) rfl rfl rfl, rfl⟩
      | settling outcomes =>
          cases outcomes with
          | nil =>
              simp only [World.turn, htask, hphase, Option.bind_some, RelayTask.call]
              exact ⟨hrest .idle rfl rfl rfl, rfl⟩
          | cons first outcomes =>
              obtain ⟨id, outcome⟩ := first
              simp only [World.turn, htask, hphase, Option.bind_some, RelayTask.call]
              exact ⟨hrest (.settling _) rfl rfl rfl, rfl⟩
      | stopped =>
          simp only [World.turn, htask, hphase, Option.bind_some, RelayTask.call]
          exact ⟨.inl ⟨rfl, rfl⟩, rfl⟩

/-! ## What a task is bound for -/

/-- A task is on its way to the exchange `e`. -/
def World.Bound (w : World) (e : Exchange) : Prop := ∃ task ∈ w.tasks, task.phase.exchange = some e

/-- An intent that has an instruction. -/
def Intent.Translatable (intent : Intent) : Prop :=
  ∃ instruction, toInstruction intent = .ok instruction

/-- Tasks that gather a group have translated what they gather for. -/
def World.Translated (w : World) : Prop :=
  ∀ task ∈ w.tasks, ∀ id records rest, task.phase = .gathering id records rest →
    ∃ first ∈ records, first.intent.Translatable

theorem outbox_step (act : Act) : (w.step c act).outbox = w.outbox.after c (act.call w) := by
  cases act with
  | apply => exact apply_frame.1
  | turn i now reply => exact (turn_spec i now reply).2
  | _ => rfl

/-- A call that settles comes from a task that is settling. -/
theorem settling_of_call {act : Act} {id : WriteId} {outcome : Outcome} {now : Timestamp}
    (hcall : act.call w = some (.settle id outcome now)) :
    ∃ i reply task rest, act = .turn i now reply ∧ w.tasks[i]? = some task ∧
      task.phase = .settling ((id, outcome) :: rest) := by
  cases act with
  | turn i now' reply =>
      obtain ⟨task, htask, hop⟩ := Option.bind_eq_some_iff.mp hcall
      unfold RelayTask.call at hop
      cases hphase : task.phase with
      | settling outcomes =>
          cases outcomes with
          | nil => simp [hphase] at hop
          | cons first rest =>
              simp only [hphase, Option.some.injEq, Op.settle.injEq] at hop
              obtain ⟨rfl, rfl, rfl⟩ := hop
              exact ⟨i, reply, task, rest, rfl, htask, hphase⟩
      | _ => grind [Option.map_eq_some_iff]
  | _ => cases hcall

/-- No task submits. -/
theorem submit_of_call {act : Act} {s : Submission} (hcall : act.call w = some (.submit s)) :
    act = .submit s := by
  cases act with
  | submit s' =>
      obtain rfl := Op.submit.inj (Option.some.inj hcall)
      rfl
  | turn i now reply =>
      obtain ⟨task, _, hop⟩ := Option.bind_eq_some_iff.mp hcall
      unfold RelayTask.call at hop
      grind [Option.map_eq_some_iff]
  | _ => cases hcall

theorem minted_call {act : Act} (hmint : ActMinted w act) {op : Op} (hop : act.call w = some op) :
    Minted w.outbox op := by
  cases op with
  | submit s =>
      obtain rfl := submit_of_call hop
      exact hmint
  | _ => exact ⟨trivial, trivial⟩

/-- What every call of the outbox keeps, every step of the world keeps. -/
theorem outbox_kept {P : MemoryOutbox → Prop} (hP : ∀ o op, P o → Minted o op → P (step c o op))
    {act : Act} (hmint : ActMinted w act) (h : P w.outbox) : P (w.step c act).outbox := by
  rw [outbox_step]
  cases hcall : act.call w with
  | none => exact h
  | some op => exact hP _ _ h (minted_call hmint hcall)

/-- **A task is bound for what it was bound for, or for what it has just claimed.** -/
theorem bound_step {act : Act} {e : Exchange} (hbound : (w.step c act).Bound e) :
    w.Bound e ∨ ∃ d now claim, act.call w = some (.claimNext d now) ∧
      (w.outbox.claimNext c d now).2 = .ok (some claim) ∧ claim.exchange = e := by
  obtain ⟨task, htask, hex⟩ := hbound
  cases act with
  | apply =>
      rcases apply_frame.2.2 task htask with ⟨task₀, hmem, hphase⟩ | hrec
      · exact .inl ⟨task₀, hmem, hphase ▸ hex⟩
      · rw [hrec] at hex
        cases hex
  | turn i now reply =>
      change task ∈ (w.turn c i now reply).tasks at htask
      rcases (turn_spec i now reply).1 with ⟨htasks, _⟩ | ⟨task₀, phase, ex, hi, hturned, htasks, _⟩
      · exact .inl ⟨task, htasks ▸ htask, hex⟩
      · have hmem : task₀ ∈ w.tasks := List.mem_of_getElem? hi
        rw [htasks] at htask
        rcases List.mem_or_eq_of_mem_set htask with hold | rfl
        · exact .inl ⟨task, hold, hex⟩
        · have hkept : phase.exchange = task₀.phase.exchange → w.Bound e :=
            fun heq => ⟨task₀, hmem, heq ▸ hex⟩
          cases hturned with
          | rests _ hnone =>
              rw [show phase.exchange = some e from hex] at hnone
              cases hnone
          | claims claim _ hidle hcan hres _ hclaim =>
              refine .inr ⟨task₀.device.id, now, claim, ?_, hres, ?_⟩
              · simp only [Act.call, hi, Option.bind_some, RelayTask.call, hidle, hcan,
                  Bool.false_eq_true, if_false]
              · exact Option.some.inj (hclaim.symm.trans hex)
          | looks record hphase => exact .inl (hkept (by rw [hphase]; rfl))
          | translates id first records _ hphase => exact .inl (hkept (by rw [hphase]; rfl))
          | gathers id records record rest hphase => exact .inl (hkept (by rw [hphase]; rfl))
          | runsAlone => cases hex
          | runsGroup => cases hex
  | _ => exact .inl ⟨task, htask, hex⟩

/-- **An exchange is begun by a task bound for it**, over a translated write. -/
theorem wire_step (htrans : w.Translated) (act : Act) :
    (w.step c act).exchanges = w.exchanges ∨
      ∃ e, w.Bound e ∧ (∃ r ∈ e.records, r.intent.Translatable) ∧
        (w.step c act).exchanges = w.exchanges ++ [e] := by
  cases act with
  | apply => exact .inl apply_frame.2.1
  | turn i now reply =>
      show (w.turn c i now reply).exchanges = _ ∨ ∃ e, _ ∧ _ ∧ (w.turn c i now reply).exchanges = _
      rcases (turn_spec i now reply).1 with ⟨_, hex⟩ | ⟨task, phase, ex, hi, hturned, _, hex⟩
      · exact .inl hex
      · have hmem : task ∈ w.tasks := List.mem_of_getElem? hi
        rw [hex]
        cases hturned with
        | runsAlone record instruction hphase hins =>
            exact .inr ⟨.alone record, ⟨task, hmem, by rw [hphase]; rfl⟩,
              ⟨record, List.mem_singleton_self record, instruction, hins⟩, rfl⟩
        | runsGroup id records hphase =>
            exact .inr ⟨.group id records, ⟨task, hmem, by rw [hphase]; rfl⟩,
              htrans task hmem id records [] hphase, rfl⟩
        | _ => exact .inl (List.append_nil _)
  | _ => exact .inl rfl

theorem translated_step (htrans : w.Translated) (act : Act) : (w.step c act).Translated := by
  intro task htask id records rest hphase
  cases act with
  | apply =>
      rcases apply_frame.2.2 task htask with ⟨task₀, hmem, heq⟩ | hrec
      · exact htrans task₀ hmem id records rest (heq ▸ hphase)
      · rw [hrec] at hphase
        cases hphase
  | turn i now reply =>
      change task ∈ (w.turn c i now reply).tasks at htask
      rcases (turn_spec i now reply).1 with ⟨htasks, _⟩ | ⟨task₀, phase, ex, hi, hturned, htasks, _⟩
      · exact htrans task (htasks ▸ htask) id records rest hphase
      · have hmem : task₀ ∈ w.tasks := List.mem_of_getElem? hi
        rw [htasks] at htask
        rcases List.mem_or_eq_of_mem_set htask with hold | rfl
        · exact htrans task hold id records rest hphase
        · change phase = _ at hphase
          subst hphase
          cases hturned with
          | rests _ hnone => cases hnone
          | claims _ _ _ _ _ hno => exact absurd rfl (hno id records rest)
          | translates _ first _ instruction _ hins =>
              exact ⟨first, List.mem_cons_self .., instruction, hins⟩
          | gathers _ _ record _ hphase => exact htrans task₀ hmem id records _ hphase
  | _ => exact htrans task htask id records rest hphase

/-! ## What is sent is on record -/

/-- The writes an exchange carries are on record as claimed, a group's under its batch. -/
structure Exchange.Filed (o : MemoryOutbox) (e : Exchange) : Prop where
  record : ∀ r ∈ e.records, ∃ r', o.records r.id = some r' ∧ SameWrite r r'
  batch : ∀ id records, e = .group id records → ∀ r ∈ records, r.batch = some id

theorem Exchange.Filed.step {o : MemoryOutbox} (hg : Guarded o) {op : Op} (hmint : Minted o op)
    {e : Exchange} (h : e.Filed o) : e.Filed (step c o op) where
  record := by
    intro r hr
    obtain ⟨r', hr', hsame⟩ := h.record r hr
    obtain ⟨r'', hr'', hev⟩ := record_step c hg.conserved hmint.1 hr'
    exact ⟨r'', hr'', hsame.trans hev.sameWrite⟩
  batch := h.batch

/-- A claim that answers with one write claimed the head of the queue it asked for. -/
theorem head_of_answer {o : MemoryOutbox} (hg : Guarded o) {d : DeviceId} {now : Timestamp}
    {r : WriteRecord} (hans : (o.claimNext c d now).2 = .ok (some (.one r))) :
    ∃ id q r₀, HeadAt o d id q r₀ ∧ r = r₀.claimed now ∧ o.Alone d now ∧ o.HeadDue d now r₀ ∧
      (o.claimNext c d now).1.records id = some r := by
  have hspec := claimNext_spec c hg.conserved.tidy.filed d now
  rw [hans] at hspec
  cases hspec with
  | idle _ _ hres => exact absurd rfl (hres _)
  | one r₀ hdue hopen hheads =>
      obtain ⟨id, q, r₁, hat, _, hrec⟩ := hheads.head d (List.mem_singleton_self d)
      obtain rfl := headAt_of_due hdue hat
      exact ⟨id, q, _, hat, rfl, ⟨_, hdue, hopen⟩, hdue, hrec⟩

theorem filed_of_claim {o : MemoryOutbox} (hg : Guarded o) {d : DeviceId} {now : Timestamp}
    {claim : Claim} (hans : (o.claimNext c d now).2 = .ok (some claim)) :
    claim.exchange.Filed (step c o (.claimNext d now)) := by
  cases claim with
  | one r =>
      obtain ⟨id, q, r₀, hat, rfl, _, _, hrec⟩ := head_of_answer hg hans
      refine ⟨?_, fun _ _ h => by cases h⟩
      intro r hr
      obtain rfl := List.mem_singleton.mp hr
      have hid : r₀.id = id := hg.conserved.named id r₀ hat.2.1
      refine ⟨_, ?_, SameWrite.refl _⟩
      show (o.claimNext c d now).1.records r₀.id = _
      rw [hid, hrec]
  | batch b rs =>
      obtain ⟨_, hrows, _⟩ := released_rows hg hans
      refine ⟨fun r hr => ⟨r, (hrows r hr).2.2.2, SameWrite.refl r⟩, ?_⟩
      intro id records heq r hr
      obtain ⟨rfl, rfl⟩ := Exchange.group.inj heq
      exact (hrows r hr).1

/-! ## The relay accounts for what it sends -/

/-- What holds of the outbox and the relay together, over any run. -/
structure Accounted (w : World) : Prop where
  guarded : Guarded w.outbox
  translated : w.Translated
  /-- What a task is bound for is on record as it was claimed. -/
  bound : ∀ e, w.Bound e → e.Filed w.outbox
  /-- So is everything that has gone out. -/
  sent : ∀ e ∈ w.exchanges, e.Filed w.outbox
  /-- Nothing goes out untranslated. -/
  spoken : ∀ e ∈ w.exchanges, ∃ r ∈ e.records, r.intent.Translatable

theorem accounted_init (n : Nat) (backoff : Duration) (registry : Registry) :
    Accounted (World.init n backoff registry) where
  guarded := guarded_init n backoff
  translated := fun _ h => by cases h
  bound := by
    intro e h'
    obtain ⟨task, htask, _⟩ := h'
    cases htask
  sent := fun _ h => by cases h
  spoken := fun _ h => by cases h

/-- **Every step keeps the relay accounted for.** -/
theorem accounted_step (h : Accounted w) {act : Act} (hmint : ActMinted w act) :
    Accounted (w.step c act) := by
  have hkept : ∀ {e : Exchange}, e.Filed w.outbox → e.Filed (w.step c act).outbox := by
    intro e hfiled
    rw [outbox_step]
    cases hcall : act.call w with
    | none => exact hfiled
    | some op => exact hfiled.step h.guarded (minted_call hmint hcall)
  have hwire := wire_step (c := c) h.translated act
  refine ⟨?_, ?_, ?_, ?_, ?_⟩
  · exact outbox_kept (fun _ _ hg hm => guarded_step c hg hm) hmint h.guarded
  · exact translated_step h.translated act
  · intro e hbound
    rcases bound_step hbound with hold | ⟨d, now, claim, hcall, hans, rfl⟩
    · exact hkept (h.bound e hold)
    · rw [outbox_step, hcall]
      exact filed_of_claim h.guarded hans
  · intro e he
    rcases hwire with heq | ⟨e', hbound, _, heq⟩
    · exact hkept (h.sent e (heq ▸ he))
    · rw [heq] at he
      rcases List.mem_append.mp he with hold | hnew
      · exact hkept (h.sent e hold)
      · rw [List.mem_singleton.mp hnew]
        exact hkept (h.bound e' hbound)
  · intro e he
    rcases hwire with heq | ⟨e', _, hspoken, heq⟩
    · exact h.spoken e (heq ▸ he)
    · rw [heq] at he
      rcases List.mem_append.mp he with hold | hnew
      · exact h.spoken e hold
      · rw [List.mem_singleton.mp hnew]
        exact hspoken

theorem accounted_run (h : Accounted w) {acts : List Act}
    (hrun : Machine.Along (World.step c) ActMinted w acts) :
    Accounted (Machine.exec (World.step c) w acts) := by
  have hstep : ∀ w act, Accounted w → ActMinted w act → Accounted (w.step c act) :=
    fun _ _ hi hm => accounted_step hi hm
  exact Machine.exec_invariant hstep hrun h

end Steps

end Sismatic
