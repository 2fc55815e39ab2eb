import Sismatic.Proof.Dispatch

/-!
# All or nothing

A batch under `failBatch` is meant to go out whole or not at all. The outbox holds up
its end: it releases such a batch whole, or never. Between the release and the wire
the relay may still refuse it, and it refuses by settling the rows as failed, which
with tries left puts each one back in its own queue with the gate standing open. Each
is then claimed alone.

So what keeps a batch whole is that none of its rows fails with tries left before the
batch has gone out. Until then no row of it has ever been put back, and the only claim
that can hand one over is the release.
-/

namespace Sismatic

open MemoryOutbox

/-- The exchange carries a row of batch `b`. -/
def Exchange.touches (b : BatchId) (e : Exchange) : Bool :=
  e.records.any fun r => decide (r.batch = some b)

/-- One group run of batch `b`, with one row for each device `s` addressed. -/
def Exchange.WholeOf (s : Submission) (b : BatchId) (e : Exchange) : Prop :=
  ∃ records, e = .group b records ∧
    records.map (·.device) = (OrderedSet.ofList s.targets).elems ∧
      ∀ r ∈ records, r.batch = some b

/-- The first exchange of a row of `b`, if there is one, is of all of it. -/
def World.WholeOrNever (s : Submission) (b : BatchId) (w : World) : Prop :=
  ∀ e, w.exchanges.find? (Exchange.touches b) = some e → e.WholeOf s b

/--
A row of `b` that a task is about to settle as failed either has no try left, or has no
instruction, or belongs to a batch that has already gone out.
-/
def KeepsWhole (b : BatchId) (w : World) (act : Act) : Prop :=
  ∀ i now reply task id reason rest r, act = .turn i now reply → w.tasks[i]? = some task →
    task.phase = .settling ((id, .failed reason) :: rest) → w.outbox.RowOf b id r →
    r.status = .inFlight → r.attempts < w.outbox.maxAttempts → r.intent.Translatable →
    ∃ e ∈ w.exchanges, e.touches b = true

/-- The rows of `b` that wait have never been tried. -/
def MemoryOutbox.Untried (o : MemoryOutbox) (b : BatchId) : Prop :=
  ∀ id r, o.RowOf b id r → r.status = .pending → r.attempts = 0

section Calls

variable {c : Chrono} {o : MemoryOutbox} {b : BatchId}

/-- Only a failure with tries left makes a waiting row one that has been tried. -/
theorem untried_step (hg : Guarded o) {op : Op} (hmint : Minted o op) (h : o.Untried b)
    (hkeeps : ∀ id reason now r, op = .settle id (.failed reason) now → o.RowOf b id r →
      r.status = .inFlight → o.maxAttempts ≤ r.attempts) : (step c o op).Untried b := by
  intro id r' hrow hpend
  cases hr : o.records id with
  | none =>
      obtain ⟨s, rows, row, _, _, _, _, rfl⟩ := record_new c hg.conserved hmint.1 hr hrow.1
      rfl
  | some r =>
      obtain ⟨r₁, hr₁, hev⟩ := record_step c hg.conserved hmint.1 hr
      obtain rfl := Option.some.inj (hrow.1.symm.trans hr₁)
      have hrow₀ : o.RowOf b id r := ⟨hr, hev.sameWrite.batch ▸ hrow.2⟩
      -- a row in flight comes to wait again only by failing with tries left
      by_cases hst : r.status = .inFlight
      · exfalso
        rcases flight_kept c hg.conserved hmint.1 hr hst with hsame | ⟨outcome, now, rfl⟩
        · obtain rfl := Option.some.inj (hrow.1.symm.trans hsame)
          rw [hst] at hpend
          cases hpend
        · have hspec := settle_spec c o id outcome now
          have hrec := hrow.1
          change (o.settle c id outcome now).1.records id = some r' at hrec
          generalize (o.settle c id outcome now).1 = o' at hspec hrec
          generalize (o.settle c id outcome now).2 = res at hspec
          have hself : ∀ {r₁ : WriteRecord},
              o'.records = Function.update o.records id (some r₁) → r₁.status = .pending := by
            intro r₁ hrecs
            rw [hrecs, Function.update_self] at hrec
            rw [Option.some.inj hrec]
            exact hpend
          cases hspec with
          | refused what _ hno => exact hno r hr hst
          | succeeded r₁ value _ _ _ heq => cases hself (by rw [heq]; rfl)
          | retried r₁ reason _ _ _ hr₁ _ hout hatt =>
              obtain rfl := Option.some.inj (hr.symm.trans hr₁)
              have hlast := hkeeps id reason now r (by rw [hout]) hrow₀ hst
              omega
          | dead r₁ reason _ _ _ _ _ hrecs => cases hself hrecs
      · cases hev with
        | same => exact h id r' hrow₀ hpend
        | claimed now _ => cases hpend
        | settled status _ _ hflight _ => exact absurd hflight hst
        | dropped status _ _ hterm _ =>
            change status = .pending at hpend
            rw [hpend] at hterm
            cases hterm

/-- The rows of `b` are what `s` asked for. -/
def MemoryOutbox.AskedBy (o : MemoryOutbox) (s : Submission) (b : BatchId) : Prop :=
  ∀ id r, o.RowOf b id r → r.intent = s.intent

theorem askedBy_submit (hg : Guarded o) {s : Submission} (hmint : Minted o (.submit s))
    (hb : s.batch = some b) : (step c o (.submit s)).AskedBy s b := by
  intro id r' hrow
  cases hr : o.records id with
  | none =>
      obtain ⟨s', rows, row, heq, _, _, _, rfl⟩ := record_new c hg.conserved hmint.1 hr hrow.1
      obtain rfl := Op.submit.inj heq
      rfl
  | some r =>
      obtain ⟨r₁, hr₁, hev⟩ := record_step c hg.conserved hmint.1 hr
      obtain rfl := Option.some.inj (hrow.1.symm.trans hr₁)
      exact absurd (hev.sameWrite.batch ▸ hrow.2) (hmint.1.2.2 b hb id r hr)

theorem askedBy_step (hg : Guarded o) {s : Submission} {op : Op} (hmint : Minted o op)
    (harm : ArmedBy s b o) (h : o.AskedBy s b) : (step c o op).AskedBy s b := by
  intro id r' hrow
  cases hr : o.records id with
  | none =>
      -- a row of `b` is filed by a submission, which would have to bring the id anew
      obtain ⟨s', rows, row, rfl, _, _, _, rfl⟩ := record_new c hg.conserved hmint.1 hr hrow.1
      obtain ⟨w₀, r₀, hrow₀⟩ := harm.row
      exact absurd hrow₀.2 (hmint.1.2.2 b hrow.2 w₀ r₀ hrow₀.1)
  | some r =>
      obtain ⟨r₁, hr₁, hev⟩ := record_step c hg.conserved hmint.1 hr
      obtain rfl := Option.some.inj (hrow.1.symm.trans hr₁)
      rw [hev.sameWrite.intent]
      exact h id r ⟨hr, hev.sameWrite.batch ▸ hrow.2⟩

/-- **While no row has been put back, a claim hands over all of the batch or none of it.** -/
theorem claim_whole (hg : Guarded o) {s : Submission} (harm : ArmedBy s b o)
    (hpol : (armedBatch s).barrier.onTimeout = .failBatch) (huntried : o.Untried b)
    {d : DeviceId} {now : Timestamp} {claim : Claim}
    (hans : (o.claimNext c d now).2 = .ok (some claim))
    (htouch : claim.exchange.touches b = true) : claim.exchange.WholeOf s b := by
  have hfail : ∀ e, o.batches b = some e → e.barrier.onTimeout = .failBatch := by
    intro e he
    rw [show e.barrier = (armedBatch s).barrier from harm.policy _ (rendezvous_eq he)]
    exact hpol
  obtain ⟨r, hr, hbatch⟩ := List.any_eq_true.mp htouch
  rw [decide_eq_true_eq] at hbatch
  cases claim with
  | one r₁ =>
      -- a row claimed alone has been tried before, and untried rows are claimed together
      exfalso
      obtain rfl := List.mem_singleton.mp hr
      obtain ⟨id, q, r₀, hat, rfl, halone, hdue, _⟩ := head_of_answer hg hans
      have hrow : o.RowOf b id r₀ := ⟨hat.2.1, hbatch⟩
      obtain ⟨r', hdue', hopen⟩ := halone
      obtain rfl := hdue.unique hdue'
      obtain ⟨e, he, hgate⟩ := hopen b hbatch
      have hpos := (hg.batch b).opened _ (rendezvous_eq he) hgate (hfail e he) id r₀ hrow
      have hzero := huntried id r₀ hrow hat.2.2.2
      omega
  | batch id rs =>
      obtain ⟨⟨e, he, hdev⟩, hrows, _⟩ := released_rows hg hans
      have hid : id = b := Option.some.inj ((hrows r hr).1.symm.trans hbatch)
      subst hid
      obtain ⟨_, e', _, _, he', hwait, hrel, _, _⟩ := released_of_answer hg hans
      obtain rfl := Option.some.inj (he.symm.trans he')
      refine ⟨rs, rfl, ?_, fun r hr => (hrows r hr).1⟩
      rcases hrel with hall | ⟨_, hready⟩
      · rw [hdev, hall, show e.members = OrderedSet.ofList s.targets from
          congrArg Rendezvous.members (harm.waiting _ (rendezvous_eq he) hwait)]
      · rw [hfail e he] at hready
        cases hready

end Calls

/-! ## Over a run of the relay -/

/-- Nothing of `b` has gone out, and whatever is bound to is the whole of it. -/
structure Unsent (s : Submission) (b : BatchId) (w : World) : Prop where
  none_sent : ∀ e ∈ w.exchanges, e.touches b = false
  untried : w.outbox.Untried b
  bound : ∀ e, w.Bound e → e.touches b = true → e.WholeOf s b

/-- What `s` armed as `b`, as the relay and the outbox keep it. -/
structure Kept (s : Submission) (b : BatchId) (w : World) : Prop where
  accounted : Accounted w
  armed : ArmedBy s b w.outbox
  asked : w.outbox.AskedBy s b
  whole : s.intent.Translatable →
    Unsent s b w ∨ ∃ e, w.exchanges.find? (Exchange.touches b) = some e ∧ e.WholeOf s b

section Runs

variable {c : Chrono} {w : World} {s : Submission} {b : BatchId}

/-- A filed exchange that touches `b` carries a row on record under `b`. -/
theorem row_of_touches {o : MemoryOutbox} {e : Exchange} (hfiled : e.Filed o)
    (htouch : e.touches b = true) : ∃ id r, o.RowOf b id r := by
  obtain ⟨r, hr, hbatch⟩ := List.any_eq_true.mp htouch
  rw [decide_eq_true_eq] at hbatch
  obtain ⟨r', hr', hsame⟩ := hfiled.record r hr
  exact ⟨r.id, r', hr', hsame.batch.trans hbatch⟩

/-- Whatever an exchange that touches `b` carries is of `b`. -/
theorem batch_of_touches {o : MemoryOutbox} {e : Exchange} (hfiled : e.Filed o)
    (htouch : e.touches b = true) : ∀ r ∈ e.records, r.batch = some b := by
  obtain ⟨r, hr, hbatch⟩ := List.any_eq_true.mp htouch
  rw [decide_eq_true_eq] at hbatch
  intro r' hr'
  cases e with
  | alone r₁ => rw [List.mem_singleton.mp hr', ← List.mem_singleton.mp hr, hbatch]
  | group id rs =>
      have hid : id = b :=
        Option.some.inj ((hfiled.batch id rs rfl r hr).symm.trans hbatch)
      rw [hfiled.batch id rs rfl r' hr', hid]

theorem keptWhole_submit (h : Accounted w) (hmint : ActMinted w (.submit s)) (hb : s.batch = some b)
    (hnew : w.outbox.replayed s = none) {acceptance : Acceptance}
    (hok : (w.outbox.submit s).2 = .ok acceptance) : Kept s b (w.step c (.submit s)) where
  accounted := accounted_step h hmint
  armed := armedBy_submit (c := c) hmint hb hnew hok
  asked := askedBy_submit (c := c) h.guarded hmint hb
  whole := by
    intro _
    -- the batch id is new, so nothing sent or bound can carry it
    have hno : ∀ {e : Exchange}, e.Filed w.outbox → e.touches b ≠ true := by
      intro e hfiled htouch
      obtain ⟨id, r, hrow⟩ := row_of_touches hfiled htouch
      exact hmint.1.2.2 b hb id r hrow.1 hrow.2
    refine .inl ⟨?_, ?_, ?_⟩
    · exact fun e he => Bool.eq_false_iff.mpr (hno (h.sent e he))
    · exact fun id r hrow _ => untried_submit (c := c) h.guarded hmint hb id r hrow
    · exact fun e hbound htouch => absurd htouch (hno (h.bound e hbound))

/-- **A step that keeps a batch whole.** -/
theorem keptWhole_step (hpol : (armedBatch s).barrier.onTimeout = .failBatch) (h : Kept s b w)
    {act : Act} (hmint : ActMinted w act) (hkeeps : KeepsWhole b w act) :
    Kept s b (w.step c act) where
  accounted := accounted_step h.accounted hmint
  armed := by
    have hboth : Guarded (w.step c act).outbox ∧ ArmedBy s b (w.step c act).outbox :=
      outbox_kept (P := fun o => Guarded o ∧ ArmedBy s b o)
        (fun _ _ hi hm => ⟨guarded_step c hi.1 hm, armedBy_step hi.1 hm hi.2⟩) hmint
        ⟨h.accounted.guarded, h.armed⟩
    exact hboth.2
  asked := by
    rw [outbox_step]
    cases hcall : act.call w with
    | none => exact h.asked
    | some op => exact askedBy_step h.accounted.guarded (minted_call hmint hcall) h.armed h.asked
  whole := by
    intro htrans
    rcases h.whole htrans with hunsent | ⟨e, hfirst, hwhole⟩
    · have huntried : (w.step c act).outbox.Untried b := by
        rw [outbox_step]
        cases hcall : act.call w with
        | none => exact hunsent.untried
        | some op =>
            refine untried_step h.accounted.guarded (minted_call hmint hcall) hunsent.untried ?_
            intro id reason now r h' hrow hst
            subst h'
            by_contra hatt
            obtain ⟨i, reply, task, rest, rfl, htask, hphase⟩ := settling_of_call hcall
            obtain ⟨e, he, htouch⟩ := hkeeps i now reply task id reason rest r rfl htask hphase
              hrow hst (by omega) (by rw [h.asked id r hrow]; exact htrans)
            rw [hunsent.none_sent e he] at htouch
            cases htouch
      have hbound : ∀ e, (w.step c act).Bound e → e.touches b = true → e.WholeOf s b := by
        intro e hbound htouch
        rcases bound_step hbound with hold | ⟨d, now, claim, _, hans, rfl⟩
        · exact hunsent.bound e hold htouch
        · exact claim_whole h.accounted.guarded h.armed hpol hunsent.untried hans htouch
      rcases wire_step (c := c) h.accounted.translated act with heq | ⟨e, hsent, _, heq⟩
      · exact .inl ⟨by rw [heq]; exact hunsent.none_sent, huntried, hbound⟩
      · cases htouch : e.touches b with
        | false =>
            refine .inl ⟨?_, huntried, hbound⟩
            intro e' he'
            rw [heq] at he'
            rcases List.mem_append.mp he' with hold | hnew
            · exact hunsent.none_sent e' hold
            · rw [List.mem_singleton.mp hnew, htouch]
        | true =>
            -- nothing of `b` went out before it, so it is the first
            refine .inr ⟨e, ?_, hunsent.bound e hsent htouch⟩
            have hnone : w.exchanges.find? (Exchange.touches b) = none :=
              List.find?_eq_none.mpr fun e' he' => by rw [hunsent.none_sent e' he']; decide
            rw [heq, List.find?_append, hnone, Option.none_or, List.find?_cons, htouch]
    · -- once something has gone out, the first to go out stays the first
      refine .inr ⟨e, ?_, hwhole⟩
      rcases wire_step (c := c) h.accounted.translated act with heq | ⟨e', _, _, heq⟩
      · rw [heq, hfirst]
      · rw [heq, List.find?_append, hfirst, Option.some_or]

/-- **A batch whose intent has no instruction never reaches the wire.** -/
theorem unsent_of_untranslatable (h : Kept s b w) (htrans : ¬ s.intent.Translatable) :
    ∀ e ∈ w.exchanges, e.touches b = false := by
  intro e he
  rw [← Bool.not_eq_true]
  intro htouch
  have hfiled := h.accounted.sent e he
  obtain ⟨r, hr, hspoken⟩ := h.accounted.spoken e he
  obtain ⟨r', hr', hsame⟩ := hfiled.record r hr
  have hasked := h.asked r.id r' ⟨hr', hsame.batch.trans (batch_of_touches hfiled htouch r hr)⟩
  rw [hsame.intent] at hasked
  exact htrans (hasked ▸ hspoken)

theorem Kept.wholeOrNever (h : Kept s b w) : w.WholeOrNever s b := by
  intro e hfirst
  by_cases htrans : s.intent.Translatable
  · rcases h.whole htrans with hunsent | ⟨e', hfirst', hwhole⟩
    · have htouch := hunsent.none_sent e (List.mem_of_find?_eq_some hfirst)
      rw [List.find?_some hfirst] at htouch
      cases htouch
    · obtain rfl := Option.some.inj (hfirst.symm.trans hfirst')
      exact hwhole
  · have htouch := unsent_of_untranslatable h htrans e (List.mem_of_find?_eq_some hfirst)
    rw [List.find?_some hfirst] at htouch
    cases htouch

end Runs

/--
**All or nothing, through the relay.** Whatever ran before, from the submission that
arms a `failBatch` batch on, over any interleaving of tasks, polls, cancellations and
changes of the device set: if no row of the batch fails with tries left before the
batch has gone out, then the first exchange of any row of it is the one group run of
all of it, or there is none.
-/
theorem whole_or_never (c : Chrono) (n : Nat) (backoff : Duration) (registry : Registry)
    (before after : List Act) {s : Submission} {b : BatchId} {acceptance : Acceptance}
    (hmint : Machine.Along (World.step c) ActMinted (World.init n backoff registry)
      (before ++ .submit s :: after))
    (hb : s.batch = some b) (hpol : (armedBatch s).barrier.onTimeout = .failBatch)
    (hnew : (Machine.exec (World.step c) (World.init n backoff registry) before).outbox.replayed s
      = none)
    (hok : ((Machine.exec (World.step c) (World.init n backoff registry) before).outbox.submit s).2
      = .ok acceptance)
    (hkeeps : Machine.Along (World.step c) (KeepsWhole b)
      (Machine.exec (World.step c) (World.init n backoff registry) (before ++ [.submit s])) after) :
    (Machine.exec (World.step c) (World.init n backoff registry)
      (before ++ .submit s :: after)).WholeOrNever s b := by
  rw [Machine.along_append] at hmint
  obtain ⟨hbefore, hsubmit, hafter⟩ := hmint
  have haccounted := accounted_run (accounted_init n backoff registry) hbefore
  have hkept := keptWhole_submit (c := c) haccounted hsubmit hb hnew hok
  rw [Machine.exec_append, Machine.exec_cons, Machine.exec_nil] at hkeeps
  rw [Machine.exec_append, Machine.exec_cons]
  have hstep : ∀ w act, Kept s b w → ActMinted w act ∧ KeepsWhole b w act →
      Kept s b (w.step c act) := fun _ _ h hok => keptWhole_step hpol h hok.1 hok.2
  exact (Machine.exec_invariant hstep (Machine.along_and.mpr ⟨hafter, hkeeps⟩) hkept).wholeOrNever

/-! ## A refused batch goes out in parts -/

/-- Start `a` and `d`, both or neither. -/
def startBothOrNeither : Submission :=
  { startTogether with barrier := some ⟨15 * 1000000000, .failBatch⟩ }

def registryOf (ids : List DeviceId) : Registry := ⟨OrderedSet.ofList ids, fun id => id⟩

/-- The next step of `a`'s task. -/
def turnOfA (seconds : String) : Act :=
  .turn 0 (tenOClock seconds) fun _ => .ok (.ack "done")

/-- `a`'s task takes the batch as far as looking its members up. -/
def claimingTurns : List Act := [turnOfA "01", turnOfA "01", turnOfA "01"]

/-- `d` leaves the registry, the batch is refused, and `a` is started by itself. -/
def refusedTurns : List Act :=
  claimingTurns ++ [.register (registryOf ["a"]), turnOfA "01", turnOfA "01", turnOfA "02",
    turnOfA "02", turnOfA "02", turnOfA "05", turnOfA "05", turnOfA "05"]

/-- Both are still registered, and both are started by one group run. -/
def groupTurns : List Act := claimingTurns ++ [turnOfA "01", turnOfA "01", turnOfA "01"]

/-- Where the runs below start. -/
def twoDevices : World := World.init 3 1000000000 (registryOf ["a", "d"])

theorem minted_startBothOrNeither :
    ActMinted (Machine.exec (World.step utc) twoDevices [.apply]) (.submit startBothOrNeither) :=
  ⟨⟨by decide, fun _ _ => rfl, fun _ _ _ _ h => by cases h⟩, fun _ => by decide⟩

/-- After the refusal `a` is started without `d`. -/
theorem whole_refused :
    Machine.Along (World.step utc) ActMinted twoDevices
        ([.apply] ++ .submit startBothOrNeither :: refusedTurns) ∧
      (armedBatch startBothOrNeither).barrier.onTimeout = .failBatch ∧
      ¬ (Machine.exec (World.step utc) twoDevices
        ([.apply] ++ .submit startBothOrNeither :: refusedTurns)).WholeOrNever
          startBothOrNeither "b" := by
  refine ⟨⟨trivial, minted_startBothOrNeither, ?_⟩, rfl, ?_⟩
  · exact ⟨trivial, trivial, trivial, trivial, trivial, trivial, trivial, trivial, trivial,
      trivial, trivial, trivial, trivial⟩
  · intro h
    have halone : (((Machine.exec (World.step utc) twoDevices
        ([.apply] ++ .submit startBothOrNeither :: refusedTurns)).exchanges.find?
          (Exchange.touches "b")).map fun e => e.records.map (·.device)) = some ["a"] := by
      decide +kernel
    obtain ⟨e, hfirst, hdev⟩ := Option.map_eq_some_iff.mp halone
    obtain ⟨records, rfl, hall, _⟩ := h e hfirst
    rw [show records.map (·.device) = ["a"] from hdev] at hall
    exact absurd hall (by decide +kernel)

/-- Whether a task is about to settle something. -/
def Phase.isSettling : Phase → Bool
  | .settling (_ :: _) => true
  | _ => false

theorem keepsWhole_of_notSettling {b : BatchId} {w : World} {i : Nat} {now : Timestamp}
    {reply : DeviceId → Reply} (h : (w.tasks[i]?.any fun task => task.phase.isSettling) = false) :
    KeepsWhole b w (.turn i now reply) := by
  intro _ _ _ task id reason rest r h' htask hphase
  cases h'
  rw [htask, Option.any_some, hphase] at h
  cases h

/-- The group run of two starts, with both members registered throughout. -/
theorem whole_or_never_groupTurns :
    (Machine.exec (World.step utc) twoDevices
      ([.apply] ++ .submit startBothOrNeither :: groupTurns)).WholeOrNever
        startBothOrNeither "b" := by
  refine whole_or_never utc 3 1000000000 (registryOf ["a", "d"]) [.apply] groupTurns
    ⟨trivial, minted_startBothOrNeither, trivial, trivial, trivial, trivial, trivial, trivial,
      trivial⟩ rfl rfl rfl rfl ?_
  refine ⟨?_, ?_, ?_, ?_, ?_, ?_, trivial⟩ <;>
    exact keepsWhole_of_notSettling (by decide +kernel)

end Sismatic
