import Sismatic.Proof.Desired
import Mathlib.Data.List.Chain

/-!
# What a device's writes will leave its recorder in

A recorder changes state when a transport write of it succeeds, in the order the
writes were handed out; so the outbox alone does not say what a recorder is doing,
and `Trail` adds the one thing missing, every write handed out in the order it last
was. Its `line` is everything a device was sent and has not refused, followed by
everything still queued for it: what the last transport write in line asks for is
what the recorder is left in once the line has run.

Claiming moves a write from one half of the line to the other and succeeding moves
nothing. Admission puts its own target last. The desired state is all that a failure is
rolled back from, and it says no more than what came last: so it keeps up with the line
as long as the line is taken from at its end.
-/

namespace Sismatic

open MemoryOutbox

/-! ## The trail -/

/-- The state a verb asks its recorder for. -/
def Verb.target : Verb → Option DesiredRecordingState
  | .start => some .recording
  | .stop => some .idle
  | .pause => some .paused
  | _ => none

/-- The device has this write, or has acted on it. -/
def WriteStatus.sent : WriteStatus → Bool
  | .inFlight => true
  | .succeeded _ => true
  | _ => false

def WriteStatus.hasSucceeded : WriteStatus → Bool
  | .succeeded _ => true
  | _ => false

/-- Every id handed out, each where it last was. -/
def resend (sent ids : List WriteId) : List WriteId := sent.filter (· ∉ ids) ++ ids

/-- The outbox, and the writes it has handed out, in order. -/
structure Trail where
  outbox : MemoryOutbox
  sent : List WriteId

def Trail.step (c : Chrono) (t : Trail) (op : Op) : Trail where
  outbox := MemoryOutbox.step c t.outbox op
  sent :=
    match op with
    | .claimNext d now => resend t.sent (claimedIds (t.outbox.claimNext c d now).2)
    | _ => t.sent

def Trail.start (n : Nat) (backoff : Duration) : Trail := ⟨withMaxAttempts n backoff, []⟩

/-- Write `w` is `d`'s, and its status is one of `statuses`. -/
def MemoryOutbox.writeOf (o : MemoryOutbox) (statuses : WriteStatus → Bool) (d : DeviceId)
    (w : WriteId) : Bool := (o.records w).any fun r => decide (r.device = d) && statuses r.status

/-- The states the transport writes among `line` ask for, in order. -/
def MemoryOutbox.targets (o : MemoryOutbox) (line : List WriteId) : List DesiredRecordingState :=
  line.filterMap fun w => (o.records w).bind fun r => (Verb.of r.intent).target

/-- The state an idle recorder is in once the writes of `line` have run. -/
def MemoryOutbox.intended (o : MemoryOutbox) (line : List WriteId) : DesiredRecordingState :=
  (o.targets line).getLast?.getD .idle

/-- What `d`'s recorder is doing: what the last transport write to succeed asked for. -/
def Trail.recorder (t : Trail) (d : DeviceId) : DesiredRecordingState :=
  t.outbox.intended (t.sent.filter (t.outbox.writeOf WriteStatus.hasSucceeded d))

/-- What `d` was sent and has not refused. -/
def Trail.ran (t : Trail) (d : DeviceId) : List WriteId :=
  t.sent.filter (t.outbox.writeOf WriteStatus.sent d)

/-- What `d` was sent and has not refused, then what is queued for it. -/
def Trail.line (t : Trail) (d : DeviceId) : List WriteId := t.ran d ++ (t.outbox.logs d).queue

/-! ## Targets -/

/-- A transport verb moves the desired state to its target, any other leaves it alone. -/
theorem admitVerb_target {s s' : DesiredRecordingState} {verb : Verb}
    (h : admitVerb s verb = .ok s') : verb.target.getD s = s' := by
  cases s <;> cases verb <;> simp_all [admitVerb, Verb.target]

section Targets

variable {o o' : MemoryOutbox}

theorem targets_append (xs ys : List WriteId) :
    o.targets (xs ++ ys) = o.targets xs ++ o.targets ys := List.filterMap_append ..

theorem targets_singleton {w : WriteId} {r : WriteRecord} (hr : o.records w = some r) :
    o.targets [w] = (Verb.of r.intent).target.toList := by
  rw [targets, List.filterMap_cons, hr, Option.bind_some]
  cases (Verb.of r.intent).target <;> rfl

/-- The targets depend on the intents in line alone. -/
theorem targets_congr {line : List WriteId}
    (h : ∀ w ∈ line, (o'.records w).map (·.intent) = (o.records w).map (·.intent)) :
    o'.targets line = o.targets line := by
  refine List.filterMap_congr ?_
  intro w hw
  have hmap := congrArg (·.bind fun intent => (Verb.of intent).target) (h w hw)
  simpa only [Option.bind_map, Function.comp_def] using hmap

/-- A line whose writes are all on record has the same targets after any call. -/
theorem targets_step (c : Chrono) (hc : Conserved o) {op : Op} (hfresh : Fresh o op)
    {line : List WriteId} (hline : ∀ w ∈ line, ∃ r, o.records w = some r) :
    (step c o op).targets line = o.targets line := by
  refine targets_congr ?_
  intro w hw
  obtain ⟨r, hr⟩ := hline w hw
  obtain ⟨r', hr', hev⟩ := record_step c hc hfresh hr
  rw [hr, hr', Option.map_some, Option.map_some, hev.sameWrite.intent]

/-- Writes that move nothing can be left out. -/
theorem targets_filter {line : List WriteId} {f : WriteId → Bool}
    (h : ∀ w ∈ line, f w = false → o.targets [w] = []) :
    o.targets (line.filter f) = o.targets line := by
  induction line with
  | nil => rfl
  | cons w line ih =>
      have hrest := ih fun w' hw' => h w' (List.mem_cons_of_mem w hw')
      have hcons : o.targets (w :: line) = o.targets [w] ++ o.targets line :=
        targets_append [w] line
      by_cases hf : f w = true
      · have hcons' : o.targets (w :: line.filter f) = o.targets [w] ++ o.targets (line.filter f) :=
          targets_append [w] (line.filter f)
        rw [List.filter_cons_of_pos hf, hcons', hcons, hrest]
      · rw [List.filter_cons_of_neg hf, hcons, h w List.mem_cons_self (by simpa using hf), hrest,
          List.nil_append]

/-- No transport write stands behind `w` in `line`. -/
def MemoryOutbox.LastMover (o : MemoryOutbox) (w : WriteId) (line : List WriteId) : Prop :=
  ∃ before after, line = before ++ w :: after ∧ o.targets after = []

theorem filter_ne_of_nodup {α : Type} [DecidableEq α] {w : α} {before after : List α}
    (hnd : (before ++ w :: after).Nodup) :
    (before ++ w :: after).filter (· ≠ w) = before ++ after := by
  obtain ⟨-, hcons, hdisjoint⟩ := List.nodup_append.mp hnd
  have hbefore : before.filter (· ≠ w) = before := List.filter_eq_self.mpr fun v hv =>
    decide_eq_true (hdisjoint v hv w List.mem_cons_self)
  have hafter : (w :: after).filter (· ≠ w) = after := by
    rw [List.filter_cons_of_neg (by simp)]
    refine List.filter_eq_self.mpr fun v hv => decide_eq_true ?_
    exact fun heq => (List.nodup_cons.mp hcons).1 (heq ▸ hv)
  rw [List.filter_append, hbefore, hafter]

/-- Taken out, what moves the recorder last is what the line ends with. -/
theorem targets_of_lastMover {w : WriteId} {line : List WriteId} (hnd : line.Nodup)
    (h : o.LastMover w line) :
    o.targets line = o.targets (line.filter (· ≠ w)) ++ o.targets [w] := by
  obtain ⟨before, after, rfl, hnone⟩ := h
  have hsplit : o.targets (w :: after) = o.targets [w] ++ o.targets after :=
    targets_append [w] after
  rw [filter_ne_of_nodup hnd, targets_append, targets_append, hsplit, hnone, List.append_nil,
    List.append_nil]

/-- A write that goes to the end of a line changes its targets only if it was passed. -/
theorem targets_moved {w : WriteId} {r : WriteRecord} {line : List WriteId} (hnd : line.Nodup)
    (hr : o.records w = some r)
    (hlast : (Verb.of r.intent).target ≠ none → o.LastMover w line) :
    o.targets line = o.targets (line.filter (· ≠ w)) ++ o.targets [w] := by
  by_cases htarget : (Verb.of r.intent).target = none
  · have hnone : o.targets [w] = [] := by rw [targets_singleton hr, htarget]; rfl
    rw [hnone, List.append_nil, targets_filter fun v _ hv => ?_]
    obtain rfl : v = w := by simpa using hv
    exact hnone
  · exact targets_of_lastMover hnd (hlast htarget)

end Targets

/-! ## What takes a write out of line -/

/-- The claim of `d` at `now` fails `m`'s head `r` unsent: its batch has expired. -/
def FailsHead (c : Chrono) (o : MemoryOutbox) (d : DeviceId) (now : Timestamp) (m : DeviceId)
    (r : WriteRecord) : Prop :=
  o.HeadDue m now r ∧ ∃ b e, o.AtBatch d now b e ∧
    (e.gate = .abandoned ∧ m = d ∨
      e.gate = .waiting ∧ o.arrived e b now ≠ e.members ∧
        elapsedPast c e.armedAt e.barrier.timeout now = some true ∧
        e.barrier.onTimeout = .failBatch ∧ m ∈ o.arrived e b now)

/-- Cancelling batch `b` takes the write `w` queued for `d` with it. -/
def MemoryOutbox.struck (o : MemoryOutbox) (d : DeviceId) (w : WriteId) (b : BatchId) : Bool :=
  (o.batches b).any fun e =>
    decide (d ∈ e.members) && (o.records w).any fun r => decide (r.batch = some b)

/-- What is left of `line` moves its recorder as `line` began to, and leaves it where `line` did. -/
structure MemoryOutbox.Shortens (o : MemoryOutbox) (line left : List WriteId) : Prop where
  begins : o.targets left <+: o.targets line
  ends : o.intended left = o.intended line

/--
Whatever a call adds to `d`'s line or takes from it, it does at the end: a submission adds
one transport write; one that fails for good, or expires with its batch, is the last in
line, and one that is to be tried again is the last that was handed out; what is cancelled
ends the line and leads back to where it began.
-/
def AtTheEnd (c : Chrono) (d : DeviceId) (t : Trail) : Op → Prop
  | .submit s => (Verb.of s.intent).target ≠ none → s.targets.count d ≤ 1
  | .settle id (.failed _) _ => ∀ r, t.outbox.records id = some r → r.status = .inFlight →
      r.device = d → (Verb.of r.intent).target ≠ none →
        t.outbox.LastMover id (if r.attempts < t.outbox.maxAttempts then t.ran d else t.line d)
  | .claimNext d' now => ∀ r, FailsHead c t.outbox d' now d r → (Verb.of r.intent).target ≠ none →
      t.outbox.LastMover r.id (t.line d)
  | .cancelQueued d' _ => t.outbox.Shortens (t.line d) (t.ran d ++ if d = d' then [] else
      (t.outbox.logs d).queue.filter fun w =>
        !(t.outbox.doomedBatches (t.outbox.logs d').queue).elems.any (t.outbox.struck d w))
  | .cancelBatch b _ => t.outbox.Shortens (t.line d)
      (t.ran d ++ (t.outbox.logs d).queue.filter fun w => !t.outbox.struck d w b)
  | _ => True

/-- No poll reports anything. -/
def NoPoll : Op → Prop
  | .observe _ _ => False
  | _ => True

/-- A call that submits one of `verbs`, if any. -/
def Submits (verbs : Verb → Prop) : Op → Prop
  | .submit s => verbs (Verb.of s.intent)
  | _ => True

/--
What the desired state is held to: the verbs there are, the states they lead a recorder
through, and how the desired state stands to the last of these. An admission keeps it, and
so does rolling back what came last.
-/
structure Footing where
  verbs : Verb → Prop
  follows : DesiredRecordingState → DesiredRecordingState → Prop
  agrees : DesiredRecordingState → DesiredRecordingState → Prop
  idle : agrees .idle .idle
  admitted : ∀ {left desired next : DesiredRecordingState} {verb : Verb}, verbs verb →
    agrees left desired → admitVerb desired verb = .ok next → verb.target = some next →
    follows left next ∧ agrees next next
  rolledBack : ∀ {left next desired : DesiredRecordingState} {verb : Verb}, follows left next →
    verb.target = some next → agrees next desired → agrees left (rollback desired verb)

/-- A verb that is no transport verb is not rolled back. -/
theorem rollback_eq {s : DesiredRecordingState} {verb : Verb} (h : verb.target = none) :
    rollback s verb = s := by
  cases verb with
  | writeMetadata => cases s <;> rfl
  | writeSetting => cases s <;> rfl
  | _ => cases h

/-- A recorder led from idle through `targets`, and what it is desired to be in. -/
structure Footing.Holds (f : Footing) (targets : List DesiredRecordingState)
    (desired : DesiredRecordingState) : Prop where
  follows : (.idle :: targets).IsChain f.follows
  agrees : f.agrees (targets.getLast?.getD .idle) desired

namespace Footing.Holds

variable {f : Footing} {targets targets' : List DesiredRecordingState}
  {desired next : DesiredRecordingState} {verb : Verb}

theorem init (f : Footing) : f.Holds [] .idle := ⟨.singleton _, f.idle⟩

theorem getLast?_idle_cons (targets : List DesiredRecordingState) :
    (DesiredRecordingState.idle :: targets).getLast? = some (targets.getLast?.getD .idle) := by
  cases targets with
  | nil => rfl
  | cons s targets => rw [List.getLast?_cons_cons, List.getLast?_cons, Option.getD_some]

theorem admitted (h : f.Holds targets desired) (hverb : f.verbs verb)
    (hok : admitVerb desired verb = .ok next) : f.Holds (targets ++ verb.target.toList) next := by
  have hnext := admitVerb_target hok
  cases htarget : verb.target with
  | none =>
      rw [htarget] at hnext
      obtain rfl : desired = next := hnext
      rwa [Option.toList_none, List.append_nil]
  | some s =>
      rw [htarget] at hnext
      obtain rfl : s = next := hnext
      obtain ⟨hfollows, hagrees⟩ := f.admitted hverb h.agrees hok htarget
      refine ⟨?_, ?_⟩
      · rw [Option.toList_some, ← List.cons_append, List.isChain_append]
        refine ⟨h.follows, .singleton s, fun left hleft s' hs' => ?_⟩
        rw [getLast?_idle_cons] at hleft
        obtain rfl := Option.some.inj hleft
        obtain rfl := Option.some.inj hs'
        exact hfollows
      · rw [Option.toList_some, List.getLast?_concat, Option.getD_some]
        exact hagrees

/-- Rolling back the last verb takes its target off the end. -/
theorem rollBack (h : f.Holds (targets ++ verb.target.toList) desired) :
    f.Holds targets (rollback desired verb) := by
  cases htarget : verb.target with
  | none =>
      rw [htarget, Option.toList_none, List.append_nil] at h
      rwa [rollback_eq htarget]
  | some s =>
      rw [htarget, Option.toList_some] at h
      obtain ⟨hfollows, hagrees⟩ := h
      rw [← List.cons_append, List.isChain_append] at hfollows
      rw [List.getLast?_concat, Option.getD_some] at hagrees
      refine ⟨hfollows.1, f.rolledBack (hfollows.2.2 _ ?_ s rfl) htarget hagrees⟩
      exact getLast?_idle_cons targets

/-- Nor does it matter if the end is cut off where it leads back to. -/
theorem shorten (h : f.Holds targets desired) (hbegins : targets' <+: targets)
    (hends : targets'.getLast?.getD .idle = targets.getLast?.getD .idle) :
    f.Holds targets' desired := by
  obtain ⟨rest, rfl⟩ := hbegins
  refine ⟨(List.isChain_append.mp (List.cons_append ▸ h.follows)).1, ?_⟩
  rw [hends]
  exact h.agrees

end Footing.Holds

/-- The desired state of `d` keeps up with its line. -/
structure InLine (f : Footing) (d : DeviceId) (t : Trail) : Prop where
  conserved : Conserved t.outbox
  sent_nodup : t.sent.Nodup
  holds : f.Holds (t.outbox.targets (t.line d)) (t.outbox.desired d)

section Line

variable {t t' : Trail} {d : DeviceId} {o' : MemoryOutbox}

theorem writeOf_eq_true {o : MemoryOutbox} {statuses : WriteStatus → Bool} {w : WriteId} :
    o.writeOf statuses d w = true ↔
      ∃ r, o.records w = some r ∧ r.device = d ∧ statuses r.status = true := by
  simp [writeOf, Option.any_eq_true]

/-- What was sent is on record. -/
theorem mem_ran {w : WriteId} (h : w ∈ t.ran d) : ∃ r, t.outbox.records w = some r := by
  obtain ⟨r, hr, _⟩ := writeOf_eq_true.mp (List.mem_filter.mp h).2
  exact ⟨r, hr⟩

theorem mem_queue_record (hc : Conserved t.outbox) {w : WriteId}
    (h : w ∈ (t.outbox.logs d).queue) : ∃ r, t.outbox.records w = some r := by
  obtain ⟨r, hr, _⟩ := hc.tidy.filed d w h
  exact ⟨r, hr⟩

/-- A call after which every record is as sent as it was keeps what ran. -/
theorem ran_congr (hsent : t'.sent = t.sent)
    (h : ∀ w, t'.outbox.writeOf WriteStatus.sent d w = t.outbox.writeOf WriteStatus.sent d w) :
    t'.ran d = t.ran d := by
  rw [Trail.ran, Trail.ran, hsent]
  exact List.filter_congr fun w _ => h w

/-- Failing heads takes back nothing that was sent: they were still queued. -/
theorem writeOf_failsHeads {o o₁ : MemoryOutbox} {now : Timestamp} {ms : List DeviceId}
    (h : FailsHeads now ms o₁ o') (hrecs : o₁.records = o.records) (w : WriteId) :
    o'.writeOf WriteStatus.sent d w = o.writeOf WriteStatus.sent d w := by
  rcases h.cases w with ⟨m, _, q, r, hat, hrec⟩ | ⟨_, hrec⟩
  · have hr : o.records w = some r := hrecs ▸ hat.2.1
    simp [writeOf, hrec, hr, WriteRecord.expired, hat.2.2.2, WriteStatus.sent]
  · rw [writeOf, writeOf, hrec, hrecs]

/-- Nor does cancelling. -/
theorem writeOf_cancels {o : MemoryOutbox} {p : WriteId → Prop} {gone : BatchId → Prop}
    (h : Cancels p gone o o') (w : WriteId) :
    o'.writeOf WriteStatus.sent d w = o.writeOf WriteStatus.sent d w := by
  cases hr : o.records w with
  | none => rw [writeOf, writeOf, h.records w (by simp [hr]), hr]
  | some r =>
      rcases h.record hr with hsame | ⟨hst, _, reason, hcan⟩
      · rw [writeOf, writeOf, hsame, hr]
      · simp [writeOf, hcan, hr, hst, WriteStatus.sent]

/-- A sublist of a list without repeats is what its members are filtered by. -/
theorem eq_filter_of_sublist {α : Type} {l l' : List α} {f : α → Bool} (hsub : l'.Sublist l)
    (hnd : l.Nodup) (h : ∀ a ∈ l, a ∈ l' ↔ f a = true) : l' = l.filter f := by
  have hall : ∀ a ∈ l', f a = true := fun a ha => (h a (hsub.subset ha)).mp ha
  have hfilter : l'.Sublist (l.filter f) := by
    rw [← List.filter_eq_self.mpr hall]
    exact hsub.filter f
  refine hfilter.eq_of_length_le ?_
  refine (hnd.filter f).length_le_of_subset ?_
  intro a ha
  obtain ⟨hal, hfa⟩ := List.mem_filter.mp ha
  exact (h a hal).mpr hfa

theorem struck_iff {o : MemoryOutbox} (hf : o.Filed) {w : WriteId} (hw : w ∈ (o.logs d).queue)
    {b : BatchId} : o.struck d w b = true ↔
      ∃ e, o.batches b = some e ∧ o.BatchRow b (· ∈ e.members) w := by
  obtain ⟨r, hr, rfl, _⟩ := hf d w hw
  simp [struck, BatchRow, hr, Option.any_eq_true]

theorem queue_cancelBatch {o : MemoryOutbox} (ht : Tidy o) (b : BatchId) (reason : String) :
    ((o.cancelBatch b reason).1.logs d).queue
      = (o.logs d).queue.filter fun w => !o.struck d w b := by
  have h := cancelBatch_cancels ht b reason
  refine eq_filter_of_sublist (h.sub d) (ht.nodup d) ?_
  intro w hw
  rw [h.kept d w hw, Bool.not_eq_true', ← Bool.not_eq_true, struck_iff ht.filed hw]
  simp [Doomed]

theorem queue_cancelQueued {o : MemoryOutbox} (ht : Tidy o) (d' : DeviceId) (reason : String) :
    ((o.cancelQueued d' reason).1.logs d).queue = if d = d' then [] else
      (o.logs d).queue.filter fun w =>
        !(o.doomedBatches (o.logs d').queue).elems.any (o.struck d w) := by
  have h := cancelQueued_cancels ht d' reason
  have hown : ∀ w ∈ (o.logs d).queue, (∃ r, o.records w = some r ∧ r.device = d') ↔ d = d' := by
    intro w hw
    obtain ⟨r, hr, rfl, _⟩ := ht.filed d w hw
    simp [hr]
  split
  · rename_i hd
    rw [List.eq_nil_iff_forall_not_mem]
    intro w hw
    have hold := (h.sub d).subset hw
    exact (h.kept d w hold).mp hw (.inl ((hown w hold).mpr hd))
  · rename_i hd
    refine eq_filter_of_sublist (h.sub d) (ht.nodup d) ?_
    intro w hw
    rw [h.kept d w hw, hown w hw, Bool.not_eq_true', ← Bool.not_eq_true, List.any_eq_true]
    simp only [hd, false_or, not_iff_not, Doomed]
    refine ⟨?_, ?_⟩
    · intro h'
      obtain ⟨b, e, hb, he, hrow⟩ := h'
      exact ⟨b, (mem_doomedBatches ht).mpr hb, (struck_iff ht.filed hw).mpr ⟨e, he, hrow⟩⟩
    · intro h'
      obtain ⟨b, hb, hstruck⟩ := h'
      obtain ⟨e, he, hrow⟩ := (struck_iff ht.filed hw).mp hstruck
      exact ⟨b, e, (mem_doomedBatches ht).mp hb, he, hrow⟩

/-- The ids at the heads of `ms`, in order. -/
def MemoryOutbox.headIds (o : MemoryOutbox) (ms : List DeviceId) : List WriteId :=
  ms.filterMap fun m => (o.logs m).queue.head?

/-- Each device has its own head. -/
theorem headIds_nodup {o : MemoryOutbox} (hf : o.Filed) {ms : List DeviceId} (hnd : ms.Nodup) :
    (o.headIds ms).Nodup := by
  refine hnd.filterMap fun m m' w hm hm' => ?_
  obtain ⟨r, hr, rfl, _⟩ := hf m w (List.mem_of_mem_head? hm)
  obtain ⟨r', hr', rfl, _⟩ := hf m' w (List.mem_of_mem_head? hm')
  exact congrArg WriteRecord.device (Option.some.inj (hr.symm.trans hr'))

theorem resend_nodup {sent ids : List WriteId} (hsent : sent.Nodup) (hids : ids.Nodup) :
    (resend sent ids).Nodup := by
  refine (hsent.filter _).append hids fun w hw hw' => ?_
  exact of_decide_eq_true (List.mem_filter.mp hw).2 hw'

/-- Claiming hands out heads: they leave one half of the line for the other. -/
theorem line_claimsHeads {o₁ : MemoryOutbox} {now : Timestamp} {ms : List DeviceId}
    (hnd : ms.Nodup) (h : ClaimsHeads now ms o₁ o') (hlogs : o₁.logs = t.outbox.logs)
    (hrecs : o₁.records = t.outbox.records) :
    Trail.line ⟨o', resend t.sent (t.outbox.headIds ms)⟩ d = t.line d := by
  have hhead : ∀ m ∈ ms, ∃ id q r, HeadAt t.outbox m id q r ∧
      o'.records id = some (r.claimed now) ∧ o'.logs m = { t.outbox.logs m with queue := q } := by
    intro m hm
    obtain ⟨id, q, r, hat, hlog, hrec⟩ := h.head m hm
    refine ⟨id, q, r, ⟨hlogs ▸ hat.1, hrecs ▸ hat.2.1, hat.2.2⟩, hrec, ?_⟩
    rw [hlog, hlogs]
  -- what was sent before the call is what it was, and was not waiting
  have hold : ((t.sent.filter (· ∉ t.outbox.headIds ms)).filter (o'.writeOf WriteStatus.sent d))
      = t.ran d := by
    rw [List.filter_filter, Trail.ran]
    refine List.filter_congr ?_
    intro w _
    by_cases hw : w ∈ t.outbox.headIds ms
    · obtain ⟨m, hm, hq⟩ := List.mem_filterMap.mp hw
      obtain ⟨id, q, r, hat, _⟩ := hhead m hm
      rw [hat.1, List.head?_cons] at hq
      obtain rfl := Option.some.inj hq
      simp [hw, writeOf, hat.2.1, hat.2.2.2, WriteStatus.sent]
    · have hrec : o'.records w = t.outbox.records w := by
        rw [h.records w ?_, hrecs]
        intro m hm hq
        rw [hlogs] at hq
        exact hw (List.mem_filterMap.mpr ⟨m, hm, hq⟩)
      simp [hw, writeOf, hrec]
  -- of the heads handed out, `d`'s own is the one that counts
  have hnew : (t.outbox.headIds ms).filter (o'.writeOf WriteStatus.sent d)
      = t.outbox.headIds (ms.filter (· = d)) := by
    rw [headIds, headIds, List.filter_filterMap, List.filterMap_filter]
    refine List.filterMap_congr ?_
    intro m hm
    obtain ⟨id, q, r, hat, hrec, _⟩ := hhead m hm
    rw [hat.1, List.head?_cons, Option.filter_some]
    simp [writeOf, hrec, WriteRecord.claimed, hat.2.2.1, WriteStatus.sent]
  show (resend t.sent (t.outbox.headIds ms)).filter (o'.writeOf WriteStatus.sent d) ++
    (o'.logs d).queue = _
  rw [resend, List.filter_append, hold, hnew, List.filter_eq, Trail.line, List.append_assoc]
  refine congrArg (t.ran d ++ ·) ?_
  by_cases hd : d ∈ ms
  · obtain ⟨id, q, r, hat, _, hlog⟩ := hhead d hd
    rw [List.count_eq_one_of_mem hnd hd, hlog, hat.1]
    simp [headIds, hat.1]
  · rw [List.count_eq_zero_of_not_mem hd, h.logs d hd, hlogs]
    rfl

theorem map_id_of_heads {o : MemoryOutbox} (hc : Conserved o) {now : Timestamp}
    {ms : List DeviceId} {rs : List WriteRecord}
    (h : List.Forall₂ (fun m r' => ∃ id q r, HeadAt o m id q r ∧ r' = r.claimed now) ms rs) :
    rs.map (·.id) = o.headIds ms := by
  induction h with
  | nil => rfl
  | @cons m r' ms rs hhead _ ih =>
      obtain ⟨id, q, r, hat, rfl⟩ := hhead
      have hid : (r.claimed now).id = id := hc.named id r hat.2.1
      rw [List.map_cons, ih, hid, headIds, headIds, List.filterMap_cons_some]
      rw [hat.1, List.head?_cons]

/-- The ids a claim answers with are the heads it took. -/
theorem claimedIds_spec {c : Chrono} {o : MemoryOutbox} (hc : Conserved o) {d' : DeviceId}
    {now : Timestamp} {res : Except DrainError (Option Claim)}
    (h : Claimed c o d' now o' res) :
    claimedIds res = [] ∧ o'.logs = o.logs ∧ o'.records = o.records ∨
      (∃ ms o₁, ms.Nodup ∧ claimedIds res = o.headIds ms ∧ ClaimsHeads now ms o₁ o' ∧
        o₁.logs = o.logs ∧ o₁.records = o.records) ∨
      (∃ ms o₁, claimedIds res = [] ∧ FailsHeads now ms o₁ o' ∧ o₁.logs = o.logs ∧
        o₁.records = o.records ∧ ∀ m ∈ ms, ∃ r, FailsHead c o d' now m r) := by
  cases h with
  | idle _ _ hnone hlogs hrecs =>
      refine .inl ⟨?_, hlogs, hrecs⟩
      cases res with
      | error e => rfl
      | ok claim =>
          cases claim with
          | none => rfl
          | some claim => exact absurd rfl (hnone claim)
  | one r hdue _ hheads =>
      refine .inr (.inl ⟨[d'], o, List.nodup_singleton d', ?_, hheads, rfl, rfl⟩)
      obtain ⟨id, q, hq, hr, _⟩ := hdue
      have hid : r.id = id := hc.named id r hr
      simp [claimedIds, headIds, hq, WriteRecord.claimed, hid]
  | release r b e rs _ _ _ _ _ hheads hrs =>
      exact .inr (.inl ⟨_, _, (o.arrived e b now).nodup, map_id_of_heads hc hrs, hheads, rfl, rfl⟩)
  | late r b e hdue hb he hg hheads =>
      refine .inr (.inr ⟨[d'], o, rfl, hheads, rfl, rfl, ?_⟩)
      intro m hm
      obtain rfl := List.mem_singleton.mp hm
      exact ⟨r, hdue, b, e, ⟨r, hdue, hb, he⟩, .inl ⟨hg, rfl⟩⟩
  | expire r b e hdue hb he hg hne hpast hpolicy hheads =>
      refine .inr (.inr ⟨_, _, rfl, hheads, rfl, rfl, ?_⟩)
      intro m hm
      obtain ⟨_, r', hdue', _⟩ := mem_arrived.mp hm
      exact ⟨r', hdue', b, e, ⟨r, hdue, hb, he⟩, .inr ⟨hg, hne, hpast, hpolicy, hm⟩⟩

/-! ## One call -/

variable {f : Footing} {op : Op}

/-- Whether the line holds after a call can be checked on the records before it. -/
theorem InLine.of_line (c : Chrono) (hc : Conserved t.outbox) (hfresh : Fresh t.outbox op)
    (hsent : (t.step c op).sent.Nodup) {line : List WriteId} (hline : (t.step c op).line d = line)
    (hrecs : ∀ w ∈ line, ∃ r, t.outbox.records w = some r)
    (hholds : f.Holds (t.outbox.targets line) ((t.step c op).outbox.desired d)) :
    InLine f d (t.step c op) where
  conserved := conserved_step c hc hfresh
  sent_nodup := hsent
  holds := by
    have htargets : (t.step c op).outbox.targets line = t.outbox.targets line :=
      targets_step c hc hfresh hrecs
    rw [hline, htargets]
    exact hholds

theorem mem_line (hc : Conserved t.outbox) {w : WriteId} (h : w ∈ t.line d) :
    ∃ r, t.outbox.records w = some r :=
  (List.mem_append.mp h).elim mem_ran (mem_queue_record hc)

/-- What was sent is not queued, and nothing is twice in line. -/
theorem InLine.nodup (h : InLine f d t) : (t.line d).Nodup := by
  refine (h.sent_nodup.filter _).append (h.conserved.tidy.nodup d) fun w hw hw' => ?_
  obtain ⟨r, hr, _, hst⟩ := writeOf_eq_true.mp (List.mem_filter.mp hw).2
  obtain ⟨r', hr', _, hst'⟩ := h.conserved.tidy.filed d w hw'
  obtain rfl := Option.some.inj (hr.symm.trans hr')
  rw [hst'] at hst
  cases hst

/-- A call that moves neither the line nor the desired state. -/
theorem InLine.of_same (c : Chrono) (h : InLine f d t) (hfresh : Fresh t.outbox op)
    (hsent : (t.step c op).sent.Nodup) (hline : (t.step c op).line d = t.line d)
    (hdesired : (t.step c op).outbox.desired d = t.outbox.desired d) :
    InLine f d (t.step c op) := by
  refine .of_line c h.conserved hfresh hsent hline (fun w hw => mem_line h.conserved hw) ?_
  rw [hdesired]
  exact h.holds

/-- What came last is taken out of line, and rolled back. -/
theorem InLine.rolledBack (h : InLine f d t) {w : WriteId} {r : WriteRecord}
    (hr : t.outbox.records w = some r)
    (hlast : (Verb.of r.intent).target ≠ none → t.outbox.LastMover w (t.line d)) :
    f.Holds (t.outbox.targets ((t.line d).filter (· ≠ w)))
      (rollback (t.outbox.desired d) (Verb.of r.intent)) := by
  refine .rollBack ?_
  rw [← targets_singleton hr, ← targets_moved h.nodup hr hlast]
  exact h.holds

/-- What a submission adds to `d`'s line is its one verb. -/
theorem targets_onLane {s : Submission} {rows : List Row} (happ : Appends s rows t.outbox o')
    (hd : d ∈ s.targets) (hone : (Verb.of s.intent).target ≠ none → s.targets.count d ≤ 1) :
    o'.targets (Lanes.onLane (rows.map Row.entry) d) = (Verb.of s.intent).target.toList := by
  have hverb : o'.targets (Lanes.onLane (rows.map Row.entry) d) =
      (Lanes.onLane (rows.map Row.entry) d).filterMap fun _ => (Verb.of s.intent).target := by
    refine List.filterMap_congr fun w hw => ?_
    obtain ⟨row, hrow, rfl, _⟩ := mem_onLane_entry.mp hw
    rw [happ.new row hrow]
    rfl
  rw [hverb]
  cases htarget : (Verb.of s.intent).target with
  | none => exact List.filterMap_eq_nil_iff.mpr fun _ _ => rfl
  | some next =>
      have hcount : (Lanes.onLane (rows.map Row.entry) d).length = 1 := by
        rw [onLane_length, happ.targets]
        have hpos := List.count_pos_iff.mpr hd
        have hle := hone (by rw [htarget]; exact Option.some_ne_none next)
        omega
      obtain ⟨w, hw⟩ := List.length_eq_one_iff.mp hcount
      rw [hw]
      rfl

theorem inLine_submit (c : Chrono) (h : InLine f d t) {s : Submission}
    (hverbs : f.verbs (Verb.of s.intent)) (hfresh : Fresh t.outbox (.submit s))
    (hend : AtTheEnd c d t (.submit s)) : InLine f d (t.step c (.submit s)) := by
  have hspec := submit_spec t.outbox hfresh.1
  have hstep : (t.outbox.submit s).1 = (t.step c (.submit s)).outbox := rfl
  have hsame : (t.step c (.submit s)).outbox = t.outbox → InLine f d (t.step c (.submit s)) := by
    intro heq
    have ht : t.step c (.submit s) = t := congrArg (Trail.mk · t.sent) heq
    rw [ht]
    exact h
  rw [hstep] at hspec
  generalize (t.outbox.submit s).2 = res at hspec
  cases hspec with
  | refused e heq => exact hsame heq
  | replayed acceptance heq _ => exact hsame heq
  | appended rows _ _ happ =>
      have hran : (t.step c (.submit s)).ran d = t.ran d := by
        refine ran_congr rfl ?_
        intro w
        by_cases hw : w ∈ s.ids
        · have hnone := hfresh.2.1 w hw
          obtain ⟨row, hrow, rfl⟩ := List.mem_map.mp (happ.ids ▸ hw)
          simp [writeOf, hnone, happ.new row hrow, Row.record, WriteStatus.sent]
        · rw [writeOf, writeOf, happ.old w hw]
      have hline : (t.step c (.submit s)).line d
          = t.line d ++ Lanes.onLane (rows.map Row.entry) d := by
        rw [Trail.line, Trail.line, hran, happ.queue d, List.append_assoc]
      -- what enters the line is one verb, and the table moves the desired state to its target
      by_cases hd : d ∈ s.targets
      · obtain ⟨row, hrow, rfl⟩ := List.mem_map.mp (happ.targets ▸ hd)
        obtain ⟨hbefore, haccept, _⟩ := happ.admitted row hrow
        have hkept : (t.step c (.submit s)).outbox.targets (t.line row.device)
            = t.outbox.targets (t.line row.device) :=
          targets_step c h.conserved hfresh fun w hw => mem_line h.conserved hw
        refine ⟨conserved_step c h.conserved hfresh, h.sent_nodup, ?_⟩
        rw [hline, targets_append, hkept, targets_onLane happ hd hend, desired,
          happ.desired row hrow]
        rw [hbefore] at haccept
        exact h.holds.admitted hverbs haccept
      · have hnone : Lanes.onLane (rows.map Row.entry) d = [] := by
          rw [List.eq_nil_iff_forall_not_mem]
          intro w hw
          obtain ⟨row, hrow, _, rfl⟩ := mem_onLane_entry.mp hw
          exact hd (happ.targets ▸ List.mem_map_of_mem hrow)
        refine h.of_same c hfresh h.sent_nodup (by rw [hline, hnone, List.append_nil]) ?_
        rw [desired, happ.untouched d hd]

theorem inLine_claim (c : Chrono) (h : InLine f d t) {d' : DeviceId} {now : Timestamp}
    (hend : AtTheEnd c d t (.claimNext d' now)) : InLine f d (t.step c (.claimNext d' now)) := by
  have hfresh : Fresh t.outbox (.claimNext d' now) := trivial
  have hspec := claimNext_spec c h.conserved.tidy.filed d' now
  have hstep : (t.outbox.claimNext c d' now).1 = (t.step c (.claimNext d' now)).outbox := rfl
  rw [hstep] at hspec
  have hsent : ∀ {ids}, claimedIds (t.outbox.claimNext c d' now).2 = ids →
      (t.step c (.claimNext d' now)).sent = resend t.sent ids :=
    fun heq => congrArg (resend t.sent) heq
  have hresend : resend t.sent [] = t.sent := by simp [resend]
  rcases claimedIds_spec h.conserved hspec with ⟨hids, hlogs, hrecs⟩ |
    ⟨ms, o₁, hnd, hids, hheads, hlogs, hrecs⟩ | ⟨ms, o₁, hids, hheads, hlogs, hrecs, hwhy⟩
  · -- nothing was claimed
    have hsame := (hsent hids).trans hresend
    have hran : (t.step c (.claimNext d' now)).ran d = t.ran d :=
      ran_congr hsame fun w => by rw [writeOf, writeOf, hrecs]
    refine h.of_same c hfresh (hsame ▸ h.sent_nodup)
      (by rw [Trail.line, Trail.line, hran, hlogs]) ?_
    show ((t.step c (.claimNext d' now)).outbox.logs d).desiredRecordingState = _
    rw [hlogs]
  · -- heads went out: they moved along the line
    refine h.of_same c hfresh ?_ ?_ (desired_of_claimsHeads hheads hlogs d)
    · rw [hsent hids]
      exact resend_nodup h.sent_nodup (headIds_nodup h.conserved.tidy.filed hnd)
    · rw [← line_claimsHeads hnd hheads hlogs hrecs, ← hsent hids]
  · -- heads failed unsent: they left the line, and were rolled back
    have hsame := (hsent hids).trans hresend
    have hran : (t.step c (.claimNext d' now)).ran d = t.ran d :=
      ran_congr hsame fun w => writeOf_failsHeads hheads hrecs w
    by_cases hd : d ∈ ms
    · obtain ⟨id, q, r, hat, hlog, _⟩ := hheads.head d hd
      obtain ⟨r', hfails⟩ := hwhy d hd
      have hat' : HeadAt t.outbox d id q r := ⟨hlogs ▸ hat.1, hrecs ▸ hat.2.1, hat.2.2⟩
      obtain rfl := headAt_of_due hfails.1 hat'
      obtain rfl : r.id = id := h.conserved.named id r hat'.2.1
      have hsplit : t.line d = t.ran d ++ r.id :: q := by rw [Trail.line, hat'.1]
      have hline : (t.step c (.claimNext d' now)).line d = (t.line d).filter (· ≠ r.id) := by
        have hnodup := h.nodup
        rw [hsplit] at hnodup ⊢
        rw [Trail.line, hran, hlog, filter_ne_of_nodup hnodup]
        rfl
      have hdesired : (t.step c (.claimNext d' now)).outbox.desired d
          = rollback (t.outbox.desired d) (Verb.of r.intent) := by
        show ((t.step c (.claimNext d' now)).outbox.logs d).desiredRecordingState = _
        rw [hlog, hlogs]
        rfl
      refine .of_line c h.conserved hfresh (hsame ▸ h.sent_nodup) hline ?_ ?_
      · exact fun w hw => mem_line h.conserved (List.mem_of_mem_filter hw)
      · rw [hdesired]
        exact h.rolledBack hat'.2.1 (hend r hfails)
    · refine h.of_same c hfresh (hsame ▸ h.sent_nodup) ?_ ?_
      · rw [Trail.line, Trail.line, hran, hheads.logs d hd, hlogs]
      · show ((t.step c (.claimNext d' now)).outbox.logs d).desiredRecordingState = _
        rw [hheads.logs d hd, hlogs]

/-- A write of `d` that comes back, or ends without success, was sent and no longer is. -/
theorem ran_unsent {id : WriteId} {r' : WriteRecord} (hsent : t'.sent = t.sent)
    (hrecs : t'.outbox.records = Function.update t.outbox.records id (some r'))
    (hst : r'.status.sent = false) : t'.ran d = (t.ran d).filter (· ≠ id) := by
  rw [Trail.ran, Trail.ran, hsent, List.filter_filter]
  refine List.filter_congr ?_
  intro w _
  by_cases hw : w = id
  · subst hw
    simp [writeOf, hrecs, hst]
  · simp [writeOf, hrecs, hw]

/-- A call on another device's record and log leaves `d`'s line alone. -/
theorem InLine.of_other (c : Chrono) (h : InLine f d t) (hfresh : Fresh t.outbox op)
    {id : WriteId} {r r' : WriteRecord} {log : DeviceLog} (hsent : (t.step c op).sent = t.sent)
    (hr : t.outbox.records id = some r) (hdev : r.device ≠ d)
    (hrecs : (t.step c op).outbox.records = Function.update t.outbox.records id (some r'))
    (hdev' : r'.device = r.device)
    (hlogs : (t.step c op).outbox.logs = Function.update t.outbox.logs r.device log) :
    InLine f d (t.step c op) := by
  have hran : (t.step c op).ran d = t.ran d := by
    refine ran_congr hsent ?_
    intro w
    by_cases hw : w = id
    · subst hw
      simp [writeOf, hrecs, hr, hdev, hdev']
    · rw [writeOf, writeOf, hrecs, Function.update_of_ne hw]
  have hlog : (t.step c op).outbox.logs d = t.outbox.logs d := by
    rw [hlogs, Function.update_of_ne (Ne.symm hdev)]
  exact h.of_same c hfresh (hsent ▸ h.sent_nodup) (by rw [Trail.line, Trail.line, hran, hlog])
    (congrArg DeviceLog.desiredRecordingState hlog)

theorem inLine_settle (c : Chrono) (h : InLine f d t) {id : WriteId} {outcome : Outcome}
    {now : Timestamp} (hend : AtTheEnd c d t (.settle id outcome now)) :
    InLine f d (t.step c (.settle id outcome now)) := by
  have hfresh : Fresh t.outbox (.settle id outcome now) := trivial
  have hspec := settle_spec c t.outbox id outcome now
  have hstep : (t.outbox.settle c id outcome now).1 = (t.step c (.settle id outcome now)).outbox :=
    rfl
  rw [hstep] at hspec
  generalize (t.outbox.settle c id outcome now).2 = res at hspec
  generalize ht' : t.step c (.settle id outcome now) = t' at hspec
  have hsent : t'.sent = t.sent := by rw [← ht']; rfl
  cases hspec with
  | refused what heq _ =>
      have hsame : t' = t := by rw [← ht'] at heq ⊢; exact congrArg (Trail.mk · t.sent) heq
      rw [hsame]
      exact h
  | succeeded r value hr hst _ heq =>
      have hran : t'.ran d = t.ran d := by
        refine ran_congr hsent ?_
        intro w
        rw [heq]
        by_cases hw : w = id
        · subst hw
          simp [writeOf, setRecord, hr, hst, WriteStatus.sent]
        · simp only [writeOf, setRecord, Function.update_of_ne hw]
      -- it stays in line where its dispatch put it
      have hlogs : t'.outbox.logs = t.outbox.logs := by rw [heq]; rfl
      subst ht'
      refine h.of_same c hfresh h.sent_nodup (by rw [Trail.line, Trail.line, hran, hlogs]) ?_
      exact congrArg DeviceLog.desiredRecordingState (congrFun hlogs d)
  | retried r reason notBefore updatedAt _ hr hst hout hatt hlogs hrecs =>
      subst hout
      by_cases hdev : r.device = d
      · subst hdev
        have hran := ran_unsent (d := r.device) hsent hrecs rfl
        have hlog : t'.outbox.logs r.device
            = { t.outbox.logs r.device with queue := id :: (t.outbox.logs r.device).queue } := by
          rw [hlogs, Function.update_self]
        have hline : t'.line r.device
            = (t.ran r.device).filter (· ≠ id) ++ id :: (t.outbox.logs r.device).queue := by
          rw [Trail.line, hran, hlog]
        have hdesired : t'.outbox.desired r.device = t.outbox.desired r.device := by
          rw [desired, hlog]
        -- back at the front of the queue, where it stood in line
        have hsame : t.outbox.targets ((t.ran r.device).filter (· ≠ id) ++
            id :: (t.outbox.logs r.device).queue) = t.outbox.targets (t.line r.device) := by
          have hcons : t.outbox.targets (id :: (t.outbox.logs r.device).queue) =
              t.outbox.targets [id] ++ t.outbox.targets (t.outbox.logs r.device).queue :=
            targets_append [id] _
          rw [Trail.line, targets_append, targets_append, hcons, ← List.append_assoc]
          refine congrArg (· ++ _) (targets_moved (h.sent_nodup.filter _) hr ?_).symm
          intro htarget
          have hlast := hend r hr hst rfl htarget
          rwa [if_pos hatt] at hlast
        subst ht'
        refine .of_line c h.conserved hfresh h.sent_nodup hline ?_ ?_
        · intro w hw
          rcases List.mem_append.mp hw with hw | hw
          · exact mem_ran (List.mem_filter.mp hw).1
          · rcases List.mem_cons.mp hw with rfl | hw
            · exact ⟨r, hr⟩
            · exact mem_queue_record h.conserved hw
        · rw [hsame, hdesired]
          exact h.holds
      · subst ht'
        exact h.of_other c hfresh hsent hr hdev hrecs rfl hlogs
  | dead r reason hr hst hout hatt hlogs hrecs =>
      subst hout
      by_cases hdev : r.device = d
      · subst hdev
        have hran := ran_unsent (d := r.device) hsent hrecs rfl
        have hlog : t'.outbox.logs r.device = (t.outbox.logs r.device).rolledBack r := by
          rw [hlogs, Function.update_self]
        -- it was in flight, so it is not queued
        have hqueue : (t.outbox.logs r.device).queue.filter (· ≠ id) =
            (t.outbox.logs r.device).queue := by
          refine List.filter_eq_self.mpr fun w hw => decide_eq_true ?_
          rintro rfl
          obtain ⟨r', hr', _, hst'⟩ := h.conserved.tidy.filed _ w hw
          obtain rfl := Option.some.inj (hr.symm.trans hr')
          rw [hst] at hst'
          cases hst'
        have hline : t'.line r.device = (t.line r.device).filter (· ≠ id) := by
          rw [Trail.line, Trail.line, List.filter_append, hqueue, hran, hlog]
          rfl
        have hdesired : t'.outbox.desired r.device
            = rollback (t.outbox.desired r.device) (Verb.of r.intent) := by
          rw [desired, hlog]
          rfl
        subst ht'
        refine .of_line c h.conserved hfresh h.sent_nodup hline ?_ ?_
        · exact fun w hw => mem_line h.conserved (List.mem_of_mem_filter hw)
        · rw [hdesired]
          refine h.rolledBack hr fun htarget => ?_
          have hlast := hend r hr hst rfl htarget
          rwa [if_neg (by omega)] at hlast
      · subst ht'
        exact h.of_other c hfresh hsent hr hdev hrecs rfl hlogs

/-- A call that cancels leaves the desired state, and of the line what `left` says. -/
theorem InLine.canceled (c : Chrono) (h : InLine f d t) (hfresh : Fresh t.outbox op)
    (hsent : (t.step c op).sent = t.sent) {left : List WriteId}
    (hline : (t.step c op).line d = left) (hsub : left.Sublist (t.line d))
    (hdesired : (t.step c op).outbox.desired d = t.outbox.desired d)
    (hshort : t.outbox.Shortens (t.line d) left) : InLine f d (t.step c op) := by
  refine .of_line c h.conserved hfresh (hsent ▸ h.sent_nodup) hline ?_ ?_
  · exact fun w hw => mem_line h.conserved (hsub.subset hw)
  · rw [hdesired]
    exact h.holds.shorten hshort.begins hshort.ends

/-- **The desired state goes on keeping up**, through every call that acts at the end. -/
theorem inLine_step (c : Chrono) (h : InLine f d t) (hfresh : Fresh t.outbox op)
    (hpoll : NoPoll op) (hverbs : Submits f.verbs op) (hend : AtTheEnd c d t op) :
    InLine f d (t.step c op) := by
  cases op with
  | submit s => exact inLine_submit c h hverbs hfresh hend
  | claimNext d' now => exact inLine_claim c h hend
  | settle id outcome now => exact inLine_settle c h hend
  | observe d' state => exact hpoll.elim
  | cancelQueued d' reason =>
      have hcan := cancelQueued_cancels h.conserved.tidy d' reason
      have hran : (t.step c (.cancelQueued d' reason)).ran d = t.ran d :=
        ran_congr rfl fun w => writeOf_cancels hcan w
      refine h.canceled c hfresh rfl (congrArg₂ (· ++ ·) hran
        (queue_cancelQueued h.conserved.tidy d' reason)) ?_ (desired_cancels hcan d) hend
      split
      · exact (List.nil_sublist _).append_left _
      · exact List.filter_sublist.append_left _
  | cancelBatch b reason =>
      have hcan := cancelBatch_cancels h.conserved.tidy b reason
      have hran : (t.step c (.cancelBatch b reason)).ran d = t.ran d :=
        ran_congr rfl fun w => writeOf_cancels hcan w
      exact h.canceled c hfresh rfl (congrArg₂ (· ++ ·) hran
        (queue_cancelBatch h.conserved.tidy b reason)) (List.filter_sublist.append_left _)
        (desired_cancels hcan d) hend

end Line

end Sismatic
