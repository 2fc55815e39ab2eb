import Sismatic.Proof.Traffic
import Sismatic.Server.Configuration

/-!
# The sweeper

One task over the store: it expires what the retention window has left behind, and says how full
the store is and what the memory budget has cost since it last said so. Its policy is published,
and a policy that moves re-paces it.

The store is shared with the poll loops, with the removal of devices and with the cap being
moved. Their calls and the sweeper's own go on between each other's steps. When a tick is due and
what is logged beside the readings is not here, and neither is a call the store refuses: this one
refuses none.
-/

namespace Sismatic

open Configuration (StoreConfig)

/-! ## Policy -/

section Cutoff

variable (c : Calendar)
/- `DateTime::checked_sub_signed`, of a window that is a `TimeDelta`. -/
variable (checkedSub : c.Instant → Duration → Option c.Instant)

/-- The oldest instant worth keeping, as of `now`; `none` to keep everything. -/
def Retention.cutoff (now : c.Instant) : Retention → Option Timestamp
  | .forever => none
  -- a window that reaches further back than the calendar keeps everything
  | .age window => (checkedSub now window).map (Configuration.stamp c)
  | .since floor => some floor

end Cutoff

namespace Lifecycle

/-! ## What is said -/

/-- How much the store is holding, and against what limit. -/
structure Usage where
  bytes : Nat
  entries : Nat
  budget : Option Nat
  /-- How many entries the budget has evicted since the process started. -/
  evicted : Nat
deriving DecidableEq, Repr

def usage (books : Books) : Usage :=
  ⟨books.used, books.queue.length, books.budget, books.evicted⟩

/-- Whether the store is over the cap it was given. -/
def Usage.overBudget (usage : Usage) : Bool := usage.budget.any (· < usage.bytes)

/-- What a tick's usage reading is worth saying. -/
inductive Report
  | quiet
  /-- The budget dropped reads this interval. -/
  | evicting (entries : Nat)
  /-- There is nothing left to evict and the store is still over budget. -/
  | overBudget
deriving DecidableEq, Repr

def report (usage : Usage) (seenEvicted : Nat) : Report :=
  if usage.overBudget then .overBudget
  else if usage.evicted > seenEvicted then .evicting (usage.evicted - seenEvicted)
  else .quiet

/-! ## The task -/

/-- Where the sweeper is. -/
inductive Stage
  /-- About to take the policy up. -/
  | pacing
  | waiting
  /-- `prune` is under way, as this call of the store. -/
  | pruning (call : Nat)
  /-- About to read the usage. -/
  | reading
  | stopped
deriving DecidableEq, Repr

structure Sweeper where
  stage : Stage
  current : StoreConfig
  watching : Bool
  /-- The version of the policy that was taken up last. -/
  seen : Nat
  seenEvicted : Nat
  /-- What was announced, with the reading it was announced of. -/
  said : List (Report × Usage)

/-- The sweeper with the store it sweeps and the policy it follows. -/
structure Sweeping where
  traffic : Traffic
  policy : StoreConfig
  version : Nat
  closed : Bool
  sweeper : Sweeper

inductive Act (c : Calendar)
  /-- A step of a call of the store, the sweeper's own included. -/
  | store (act : Traffic.Act)
  | publish (policy : StoreConfig)
  /-- Nobody is left who could publish. -/
  | close
  | pace
  /-- `policy.changed()` returns. -/
  | changed
  | tick (now : c.Instant)
  /-- `prune` returns. -/
  | pruned
  | read
  | canceled

/-- `spawn`. -/
def start (budget : Option Nat) (policy : StoreConfig) : Sweeping where
  traffic := .start budget
  policy := policy
  version := 0
  closed := false
  sweeper := ⟨.pacing, policy, true, 0, 0, []⟩

namespace Sweeper

def pace (s : Sweeper) (policy : StoreConfig) (version : Nat) : Sweeper :=
  match s.stage with
  | .pacing => { s with stage := .waiting, current := policy, seen := version }
  | _ => s

/-- A change re-paces; a closed channel is not asked again. -/
def changed (s : Sweeper) (version : Nat) (closed : Bool) : Sweeper :=
  match s.stage with
  | .waiting =>
      if s.watching then
        if s.seen ≠ version then { s with stage := .pacing }
        else if closed then { s with watching := false }
        else s
      else s
  | _ => s

/-- The end of a pass: the usage, and what has happened to it since the last. -/
def read (s : Sweeper) (usage : Usage) : Sweeper :=
  match s.stage with
  | .reading =>
      { s with
        stage := .waiting
        seenEvicted := usage.evicted
        said := s.said ++ [(report usage s.seenEvicted, usage)] }
  | _ => s

def canceled (s : Sweeper) : Sweeper :=
  match s.stage with
  | .waiting => { s with stage := .stopped }
  | _ => s

end Sweeper

namespace Sweeping

variable (c : Calendar) (checkedSub : c.Instant → Duration → Option c.Instant) (layout : Layout)

/-- A pass begins, if there is a ticker at all. -/
def tick (w : Sweeping) (now : c.Instant) : Sweeping :=
  match w.sweeper.stage, w.sweeper.current.cleanup with
  | .waiting, some _ =>
      match w.sweeper.current.retain.cutoff c checkedSub now with
      | none => { w with sweeper := { w.sweeper with stage := .reading } }
      | some cutoff =>
          { w with
            traffic := w.traffic.step layout (.begin (.prune cutoff))
            sweeper := { w.sweeper with stage := .pruning w.traffic.calls.length } }
  | _, _ => w

def pruned (w : Sweeping) : Sweeping :=
  match w.sweeper.stage with
  | .pruning call =>
      match w.traffic.calls[call]? with
      | some (.done _) => { w with sweeper := { w.sweeper with stage := .reading } }
      | _ => w
  | _ => w

def step (w : Sweeping) : Act c → Sweeping
  | .store act => { w with traffic := w.traffic.step layout act }
  | .publish policy =>
      if w.closed then w else { w with policy := policy, version := w.version + 1 }
  | .close => { w with closed := true }
  | .pace => { w with sweeper := w.sweeper.pace w.policy w.version }
  | .changed => { w with sweeper := w.sweeper.changed w.version w.closed }
  | .tick now => w.tick c checkedSub layout now
  | .pruned => w.pruned
  | .read => { w with sweeper := w.sweeper.read (usage w.traffic.store.books) }
  | .canceled => { w with sweeper := w.sweeper.canceled }

end Sweeping

end Lifecycle

end Sismatic
