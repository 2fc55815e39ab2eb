import Sismatic.Proof.Turns
import Sismatic.Proof.Vetoes

/-!
# The cold gate

A dial that fails shuts the gate for a while, one that succeeds opens it, and nothing else
touches it. So there is no connection while it is shut, and a call that heeds it does not dial
before every dial that has failed since the last success is long enough ago. A probe does not
heed it. A call goes once round its loop again, when the connection it found was no good.
-/

namespace Sismatic.Devices

/-! ## What is watched -/

namespace Act

/-- The same, at this instant. -/
def timed (now : Nat) : Act → Act
  | .lock n _ => .lock n now
  | .dialed n _ outcome => .dialed n now outcome
  | .wrote n _ failure => .wrote n now failure
  | .read n _ received => .read n now received
  | .elapsed n _ => .elapsed n now
  | act => act

end Act

namespace Session

def isDialing (s : Session) (n : Nat) : Bool := s.execs[n]?.any fun exec => exec.phase.isDialing

def isWriting (s : Session) (n : Nat) : Bool := s.execs[n]?.any fun exec => exec.phase.isWriting

/-- The exchange that this ends, with what it comes to. -/
def exchanged (config : DeviceConfig) (s : Session) (act : Act) :
    Option (Nat × Except ControllerError Value) := do
  let n ← act.turn?
  let exec ← s.execs[n]?
  let outcome ← exec.outcome config s.link.conn act
  return (n, outcome)

/-- The dial of call `n` is over, and no instant is the end of the gate it shuts. -/
def Overflows (instantEnd : Instant) (config : DeviceConfig) (s : Session) : Act → Prop
  | .dialed n now outcome =>
      s.isDialing n = true ∧ outcome ≠ .connected ∧ armGate instantEnd config now = none
  | _ => False

instance (instantEnd : Instant) (config : DeviceConfig) (s : Session) (act : Act) :
    Decidable (s.Overflows instantEnd config act) := by
  unfold Overflows
  split
  · exact inferInstanceAs (Decidable (_ ∧ _ ∧ _))
  · exact inferInstanceAs (Decidable False)

/-- One step, where arming the gate can panic. A call that panics lets go of the connection as
one that is aborted does. -/
def stepWithin (instantEnd : Instant) (config : DeviceConfig) (s : Session) (act : Act) :
    Session :=
  match act.turn? with
  | some n =>
      if s.Overflows instantEnd config act then s.step config (.abort n) else s.step config act
  | none => s.step config act

end Session

/-- One exchange of a call. -/
structure Attempt where
  /-- Whether its connection was there when the call came for one. -/
  cached : Bool
  outcome : Option (Except ControllerError Value)

/-- An exchange is over. -/
def concluded (outcome : Except ControllerError Value) : List Attempt → List Attempt
  | [] => []
  | attempt :: earlier => { attempt with outcome := some outcome } :: earlier

/-- A device with its clock, and what has been seen of it. -/
structure Watched where
  session : Session
  clock : Instant
  /-- When dials have failed, since the last that succeeded. -/
  failed : List Instant
  /-- The exchanges of each call, the last of them first. -/
  attempts : Nat → List Attempt

namespace Watched

def start : Watched := ⟨.start, 0, [], fun _ => []⟩

/-- The dials that have failed since the last that succeeded, this one among them. -/
def failures (w : Watched) (now : Instant) : Act → List Instant
  | .dialed n _ outcome =>
      if w.session.isDialing n = true then
        if outcome = .connected then [] else w.failed ++ [now]
      else w.failed
  | _ => w.failed

/-- What a step does to the exchanges of call `n`. -/
def attempted (config : DeviceConfig) (w : Watched) (act : Act) (after : Session) (n : Nat) :
    List Attempt :=
  let attempts :=
    match w.session.exchanged config act with
    | some (m, outcome) => if m = n then concluded outcome (w.attempts n) else w.attempts n
    | none => w.attempts n
  if after.isWriting n = true ∧ w.session.isWriting n ≠ true then
    ⟨w.session.link.conn.isSome, none⟩ :: attempts
  else attempts

/-- An act, so long after the one before. -/
def step (instantEnd : Instant) (config : DeviceConfig) (w : Watched) (input : Duration × Act) :
    Watched :=
  let now := w.clock + input.1
  let act := input.2.timed now
  let after := w.session.stepWithin instantEnd config act
  ⟨after, now, w.failures now act, w.attempted config act after⟩

end Watched

/-- At most two exchanges, and the second only because the first was on a connection that had been
there before, and failed with no refusal. -/
def RetriesOnce (attempts : List Attempt) : Prop :=
  attempts.length ≤ 2 ∧ ∀ second first, attempts = [second, first] →
    first.cached = true ∧ ∃ e, first.outcome = some (.error e) ∧ e.isRejected = false

/-- Call `n` comes to the head of its loop and finds no connection there: it has got the lock, or
the connection it found before was no good. -/
def Watched.FindsNone (config : DeviceConfig) (w : Watched) (act : Act) (n : Nat) : Prop :=
  (∃ now, act = .lock n now) ∧ w.session.execs[n]?.map (·.phase) = some .waiting ∧
      w.session.holder = none ∧ w.session.link.conn = none ∨
    ∃ first e, w.attempts n = [first] ∧ first.cached = true ∧
      w.session.exchanged config act = some (n, .error e) ∧ e.isRejected = false

/-- What is said of a step. -/
structure Gated (config : DeviceConfig) (w : Watched) (act : Act) (after : Watched) : Prop where
  /-- Where the gate is armed there is no connection. -/
  shut : after.session.link.coldUntil.isSome → after.session.link.conn = none
  /-- A call that heeds the gate dials once every failure since a success is long enough ago. -/
  heeds : ∀ n exec, w.session.execs[n]? = some exec → exec.dial = .whenWarm →
    w.session.isDialing n ≠ true → after.session.isDialing n = true →
      ∀ backoff, config.coldBackoff = some backoff →
        ∀ failedAt ∈ w.failed, failedAt + backoff ≤ after.clock
  /-- A probe dials whenever it finds no connection. -/
  probes : ∀ n exec, w.session.execs[n]? = some exec → exec.dial = .always →
    w.FindsNone config act n → after.session.isDialing n = true
  /-- An exchange leaves the gate as it is, however it ends. -/
  unarmed : ∀ n outcome, w.session.exchanged config act = some (n, outcome) →
    after.session.link.coldUntil = w.session.link.coldUntil
  once : ∀ n, RetriesOnce (after.attempts n)

/-! ## What is kept -/

/-- The exchange before the one a call is at, where it has gone round again. -/
def Earlier (reconnected : Bool) (attempts : List Attempt) : Prop :=
  if reconnected then ∃ e, attempts = [⟨true, some (.error e)⟩] ∧ e.isRejected = false
  else attempts = []

/-- The exchanges of a call, by the phase it is in. -/
def CallSound (link : Link) (attempts : List Attempt) : Phase → Prop
  | .waiting => attempts = []
  | .dialing reconnected => link.conn = none ∧ Earlier reconnected attempts
  | .writing wasCached reconnected | .reading wasCached reconnected _ =>
      ∃ earlier, attempts = ⟨wasCached, none⟩ :: earlier ∧ Earlier reconnected earlier
  | .returned _ | .aborted => RetriesOnce attempts

theorem Earlier.retriesOnce_cons {reconnected : Bool} {earlier : List Attempt}
    (h : Earlier reconnected earlier) (attempt : Attempt) : RetriesOnce (attempt :: earlier) := by
  unfold Earlier at h
  split at h
  · obtain ⟨e, rfl, he⟩ := h
    refine ⟨Nat.le_refl _, fun second first heq => ?_⟩
    obtain ⟨-, hfirst⟩ := List.cons.inj heq
    obtain ⟨rfl, -⟩ := List.cons.inj hfirst
    exact ⟨rfl, e, rfl, he⟩
  · obtain rfl := h
    exact ⟨Nat.le_succ _, fun second first heq => by cases heq⟩

theorem Earlier.retriesOnce {reconnected : Bool} {attempts : List Attempt}
    (h : Earlier reconnected attempts) : RetriesOnce attempts := by
  unfold Earlier at h
  split at h
  · obtain ⟨e, rfl, -⟩ := h
    exact ⟨Nat.le_succ _, fun second first heq => by cases heq⟩
  · obtain rfl := h
    exact ⟨Nat.zero_le _, fun second first heq => by cases heq⟩

theorem CallSound.retriesOnce {link : Link} {attempts : List Attempt} {phase : Phase}
    (h : CallSound link attempts phase) : RetriesOnce attempts := by
  cases phase with
  | waiting =>
      obtain rfl := h
      exact ⟨Nat.zero_le _, fun second first heq => by cases heq⟩
  | dialing reconnected => exact h.2.retriesOnce
  | writing wasCached reconnected =>
      obtain ⟨earlier, rfl, hearlier⟩ := h
      exact hearlier.retriesOnce_cons _
  | reading wasCached reconnected acc =>
      obtain ⟨earlier, rfl, hearlier⟩ := h
      exact hearlier.retriesOnce_cons _
  | returned result => exact h
  | aborted => exact h

theorem CallSound.exchanging {link : Link} {attempts : List Attempt} {phase : Phase}
    {wasCached reconnected : Bool} (h : CallSound link attempts phase)
    (hphase : Exchanging wasCached reconnected phase) :
    ∃ earlier, attempts = ⟨wasCached, none⟩ :: earlier ∧ Earlier reconnected earlier := by
  cases hphase with
  | writing => exact h
  | reading acc => exact h

/-- What a step makes of the exchanges of its call. -/
def tried (conn : Option Channel) (before after : Phase)
    (outcome : Option (Except ControllerError Value)) (attempts : List Attempt) : List Attempt :=
  let attempts := (outcome.map (concluded · attempts)).getD attempts
  if after.isWriting = true ∧ before.isWriting ≠ true then ⟨conn.isSome, none⟩ :: attempts
  else attempts

section Sound

variable {config : DeviceConfig} {s : Session} {exec : Exec} {act : Act}
  {outcome : Option (Except ControllerError Value)} {link : Link} {held : Bool} {phase : Phase}

/-- A call that moves keeps its exchanges in order, and the gate open over a connection. -/
theorem Moves.sound (h : Moves config s exec act outcome link held phase)
    (hshut : s.link.coldUntil.isSome → s.link.conn = none) {attempts : List Attempt}
    (hcall : CallSound s.link attempts exec.phase) :
    CallSound link (tried s.link.conn exec.phase phase outcome attempts) phase ∧
      (link.coldUntil.isSome → link.conn = none) ∧ (phase.active = true → held = true) := by
  have hopen : s.link.conn.isSome → ∀ conn : Channel,
      s.link.coldUntil.isSome → some conn = none := by
    intro hconn conn hcold
    rw [hshut hcold] at hconn
    cases hconn
  cases h with
  | locks m now hphase hholder hhead =>
      rw [hphase] at hcall ⊢
      obtain rfl := hcall
      cases hhead with
      | cached hconn =>
          refine ⟨⟨[], ?_, rfl⟩, hshut, fun _ => rfl⟩
          simp [tried, Phase.isWriting, hconn]
      | dials hconn hwarm => exact ⟨⟨hconn, rfl⟩, hshut, fun _ => rfl⟩
      | cold untilThen hconn hdial hcold hlt =>
          exact ⟨(show CallSound s.link [] .waiting from rfl).retriesOnce, hshut, nofun⟩
  | warms m now reconnected hphase =>
      rw [hphase] at hcall ⊢
      refine ⟨⟨attempts, ?_, hcall.2⟩, nofun, fun _ => rfl⟩
      simp [tried, Phase.isWriting, hcall.1]
  | chills m now reconnected dialed e hphase hdialed =>
      rw [hphase] at hcall ⊢
      exact ⟨hcall.2.retriesOnce, fun _ => hcall.1, nofun⟩
  | goesOn act wasCached reconnected acc conn hphase hconn =>
      exact ⟨hcall.exchanging hphase, hopen hconn conn, fun _ => rfl⟩
  | answers act wasCached reconnected conn outcome result hphase hconn hrefusal =>
      obtain ⟨earlier, rfl, hearlier⟩ := hcall.exchanging hphase
      exact ⟨hearlier.retriesOnce_cons _, hopen hconn conn, nofun⟩
  | heals act now e hnow hphase he hhead =>
      obtain ⟨earlier, rfl, hearlier⟩ := hcall.exchanging hphase
      have hnone : earlier = [] := hearlier
      subst hnone
      cases hhead with
      | cached hconn => cases hconn
      | dials hconn hwarm => exact ⟨⟨rfl, e, rfl, he⟩, fun _ => rfl, fun _ => rfl⟩
      | cold untilThen hconn hdial hcold hlt =>
          exact ⟨hearlier.retriesOnce_cons _, fun _ => rfl, nofun⟩
  | fails act wasCached reconnected e result hphase hlast =>
      obtain ⟨earlier, rfl, hearlier⟩ := hcall.exchanging hphase
      exact ⟨hearlier.retriesOnce_cons _, fun _ => rfl, nofun⟩
  | aborts m hactive => exact ⟨hcall.retriesOnce, hshut, nofun⟩

/-- A call that has moved to where it dials may: the gate it heeds is open. -/
theorem Moves.dials (h : Moves config s exec act outcome link held phase) {now : Nat}
    (hnow : ∀ now', act.now? = some now' → now' = now) (hdials : phase.isDialing = true) :
    exec.dial = .whenWarm → ∀ untilThen, s.link.coldUntil = some untilThen → untilThen ≤ now := by
  cases h with
  | locks m now' hphase hholder hhead =>
      cases hhead with
      | cached hconn => cases hdials
      | dials hconn hwarm => exact hnow now' rfl ▸ hwarm
      | cold untilThen hconn hdial hcold hlt => cases hdials
  | heals act now' e hnow' hphase he hhead =>
      cases hhead with
      | cached hconn => cases hdials
      | dials hconn hwarm => exact hnow now' hnow' ▸ hwarm
      | cold untilThen hconn hdial hcold hlt => cases hdials
  | _ => cases hdials

/-- Only a dial that is over moves the gate. -/
theorem Moves.coldUntil (h : Moves config s exec act outcome link held phase)
    (hdialing : exec.phase.isDialing = false) : link.coldUntil = s.link.coldUntil := by
  cases h with
  | warms m now reconnected hphase =>
      rw [hphase] at hdialing
      cases hdialing
  | chills m now reconnected dialed e hphase hdialed =>
      rw [hphase] at hdialing
      cases hdialing
  | _ => rfl

theorem Exchanging.not_dialing {wasCached reconnected : Bool}
    (h : Exchanging wasCached reconnected phase) : phase.isDialing = false := by
  cases h with
  | writing => rfl
  | reading acc => rfl

theorem Moves.of_outcome {o : Except ControllerError Value}
    (h : Moves config s exec act (some o) link held phase) :
    ∃ wasCached reconnected, Exchanging wasCached reconnected exec.phase := by
  cases h with
  | answers act wasCached reconnected conn outcome result hphase hconn hrefusal =>
      exact ⟨wasCached, reconnected, hphase⟩
  | heals act now e hnow hphase he hhead => exact ⟨true, false, hphase⟩
  | fails act wasCached reconnected e result hphase hlast => exact ⟨wasCached, reconnected, hphase⟩

/-- A probe whose first connection was no good dials. -/
theorem Moves.probes {e : ControllerError}
    (h : Moves config s exec act (some (.error e)) link held phase) (hdial : exec.dial = .always)
    (he : e.isRejected = false) {first : Attempt} (hfirst : first.cached = true)
    (hcall : CallSound s.link [first] exec.phase) : phase.isDialing = true := by
  cases h with
  | answers act wasCached reconnected conn outcome result hphase hconn hrefusal =>
      rw [hrefusal e rfl] at he
      cases he
  | heals act now e hnow hphase he hhead =>
      cases hhead with
      | cached hconn => cases hconn
      | dials hconn hwarm => rfl
      | cold untilThen hconn hwarm hcold hlt =>
          rw [hdial] at hwarm
          cases hwarm
  | fails act wasCached reconnected e result hphase hlast =>
      obtain ⟨earlier, hattempts, hearlier⟩ := hcall.exchanging hphase
      obtain ⟨rfl, rfl⟩ := List.cons.inj hattempts
      dsimp only at hfirst
      subst hfirst
      cases reconnected with
      | false => cases hlast
      | true =>
          obtain ⟨e, hnil, -⟩ := hearlier
          cases hnil

end Sound

/-- A device with its calls in order. -/
structure Watched.Sound (config : DeviceConfig) (w : Watched) : Prop where
  shut : w.session.link.coldUntil.isSome → w.session.link.conn = none
  held : ∀ n exec, w.session.execs[n]? = some exec → exec.phase.active = true →
    w.session.holder = some n
  calls : ∀ n exec, w.session.execs[n]? = some exec →
    CallSound w.session.link (w.attempts n) exec.phase
  uncalled : ∀ n, w.session.execs[n]? = none → w.attempts n = []
  failed : ∀ failedAt ∈ w.failed, failedAt ≤ w.clock ∧
    ∀ backoff, config.coldBackoff = some backoff →
      ∃ untilThen, w.session.link.coldUntil = some untilThen ∧ failedAt + backoff ≤ untilThen

/-! ## Every step -/

section Step

variable {instantEnd : Instant} {config : DeviceConfig} {w : Watched} {act : Act} {n : Nat}
  {exec : Exec} {after : Session}

theorem exchanged_turn (hturn : act.turn? = some n) (hn : w.session.execs[n]? = some exec) :
    w.session.exchanged config act =
      (exec.outcome config w.session.link.conn act).map (n, ·) := by
  unfold Session.exchanged
  simp only [hturn, hn, bind, Option.bind, pure]
  cases exec.outcome config w.session.link.conn act with
  | none => rfl
  | some outcome => rfl

theorem attempted_self (hturn : act.turn? = some n) (hn : w.session.execs[n]? = some exec)
    {phase : Phase} (hafter : after.execs[n]? = some { exec with phase := phase }) :
    w.attempted config act after n = tried w.session.link.conn exec.phase phase
      (exec.outcome config w.session.link.conn act) (w.attempts n) := by
  have hbefore : w.session.isWriting n = exec.phase.isWriting := by
    rw [Session.isWriting, hn, Option.any_some]
  have hnow : after.isWriting n = phase.isWriting := by
    rw [Session.isWriting, hafter, Option.any_some]
  rw [Watched.attempted, tried, exchanged_turn hturn hn, hbefore, hnow]
  cases exec.outcome config w.session.link.conn act with
  | none => rfl
  | some outcome => simp only [Option.map_some, if_pos, Option.getD_some]

theorem attempted_other {m : Nat}
    (hother : ∀ outcome, w.session.exchanged config act ≠ some (m, outcome))
    (hafter : after.isWriting m = true → w.session.isWriting m = true) :
    w.attempted config act after m = w.attempts m := by
  rw [Watched.attempted, if_neg fun hboth => hboth.2 (hafter hboth.1)]
  cases hexchanged : w.session.exchanged config act with
  | none => rfl
  | some ended =>
      obtain ⟨k, outcome⟩ := ended
      have hne : k ≠ m := by
        rintro rfl
        exact hother outcome hexchanged
      simp only [if_neg hne]

/-- The failures are as they were, unless it is a dial that is over. -/
theorem failures_of_not_dialing (hturn : act.turn? = some n)
    (hdialing : w.session.isDialing n = false) (now : Instant) :
    w.failures now act = w.failed := by
  cases act with
  | dialed m now' outcome =>
      obtain rfl := Option.some.inj hturn
      simp only [Watched.failures, hdialing, Bool.false_eq_true, if_false]
  | _ => rfl

/-- A step of one call only moves that one. -/
theorem execs_moved (hn : w.session.execs[n]? = some exec) {link : Link} {held : Bool}
    {phase : Phase} :
    (w.session.moved n exec link held phase).execs[n]? = some { exec with phase := phase } ∧
      ∀ m, m ≠ n →
        (w.session.moved n exec link held phase).execs[m]? = w.session.execs[m]? := by
  refine ⟨?_, fun m hm => ?_⟩
  · exact (get_turn hn phase n).trans (if_pos rfl)
  · exact (get_turn hn phase m).trans (if_neg hm)

theorem isWriting_congr {s s' : Session} {m : Nat} (h : s'.execs[m]? = s.execs[m]?) :
    s'.isWriting m = s.isWriting m := by
  rw [Session.isWriting, Session.isWriting, h]

theorem isDialing_congr {s s' : Session} {m : Nat} (h : s'.execs[m]? = s.execs[m]?) :
    s'.isDialing m = s.isDialing m := by
  rw [Session.isDialing, Session.isDialing, h]

/-- What is so of a call that has not the lock is so whatever becomes of the connection. -/
theorem CallSound.inactive {link link' : Link} {attempts : List Attempt} {phase : Phase}
    (h : CallSound link attempts phase) (hphase : phase.active ≠ true) :
    CallSound link' attempts phase := by
  cases phase with
  | dialing reconnected => exact absurd rfl hphase
  | _ => exact h

/-- While one call moves no other has the lock. -/
theorem Moves.alone {outcome : Option (Except ControllerError Value)} {link : Link} {held : Bool}
    {phase : Phase} (h : Moves config w.session exec act outcome link held phase) :
    w.session.holder = none ∨ exec.phase.active = true := by
  have hexchanging : ∀ {wasCached reconnected phase}, Exchanging wasCached reconnected phase →
      phase.active = true := by
    intro wasCached reconnected phase hphase
    cases hphase with
    | writing => rfl
    | reading acc => rfl
  cases h with
  | locks m now hphase hholder hhead => exact .inl hholder
  | warms m now reconnected hphase => exact .inr (by rw [hphase]; rfl)
  | chills m now reconnected dialed e hphase hdialed => exact .inr (by rw [hphase]; rfl)
  | goesOn act wasCached reconnected acc conn hphase hconn => exact .inr (hexchanging hphase)
  | answers act wasCached reconnected conn outcome result hphase hconn hrefusal =>
      exact .inr (hexchanging hphase)
  | heals act now e hnow hphase he hhead => exact .inr (hexchanging hphase)
  | fails act wasCached reconnected e result hphase hlast => exact .inr (hexchanging hphase)
  | aborts m hactive => exact .inr hactive

/-- The failures after a step of a call, and the gate they have shut. -/
theorem Moves.failed {outcome : Option (Except ControllerError Value)} {link : Link} {held : Bool}
    {phase : Phase} (h : Moves config w.session exec act outcome link held phase)
    (hsound : w.Sound config) (hturn : act.turn? = some n) (hn : w.session.execs[n]? = some exec)
    {now : Instant} (hclock : w.clock ≤ now) (hnow : ∀ now', act.now? = some now' → now' = now) :
    ∀ failedAt ∈ w.failures now act, failedAt ≤ now ∧
      ∀ backoff, config.coldBackoff = some backoff →
        ∃ untilThen, link.coldUntil = some untilThen ∧ failedAt + backoff ≤ untilThen := by
  have hbefore : w.session.isDialing n = exec.phase.isDialing := by
    rw [Session.isDialing, hn, Option.any_some]
  cases hdialing : exec.phase.isDialing with
  | false =>
      rw [failures_of_not_dialing hturn (hbefore.trans hdialing), h.coldUntil hdialing]
      exact fun failedAt hmem =>
        ⟨(hsound.failed failedAt hmem).1.trans hclock, (hsound.failed failedAt hmem).2⟩
  | true =>
      rw [hdialing] at hbefore
      cases h with
      | locks m now hphase hholder hhead =>
          rw [hphase] at hdialing
          cases hdialing
      | warms m now reconnected hphase =>
          obtain rfl := Option.some.inj hturn
          simp only [Watched.failures, hbefore, if_true, List.not_mem_nil, false_imp_iff,
            implies_true]
      | chills m now' reconnected dialed e hphase hdialed =>
          obtain rfl := Option.some.inj hturn
          obtain rfl := hnow now' rfl
          simp only [Watched.failures, hbefore, if_true, if_neg hdialed]
          intro failedAt hmem
          have hle : failedAt ≤ now' := by
            rcases List.mem_append.mp hmem with hold | hnew
            · exact (hsound.failed failedAt hold).1.trans hclock
            · rw [List.mem_singleton.mp hnew]
          refine ⟨hle, fun backoff hbackoff => ⟨now' + backoff, ?_, ?_⟩⟩
          · rw [hbackoff, Option.map_some]
          · exact Nat.add_le_add_right hle backoff
      | goesOn act wasCached reconnected acc conn hphase hconn =>
          rw [hphase.not_dialing] at hdialing
          cases hdialing
      | answers act wasCached reconnected conn outcome result hphase hconn hrefusal =>
          rw [hphase.not_dialing] at hdialing
          cases hdialing
      | heals act now e hnow hphase he hhead =>
          rw [hphase.not_dialing] at hdialing
          cases hdialing
      | fails act wasCached reconnected e result hphase hlast =>
          rw [hphase.not_dialing] at hdialing
          cases hdialing
      | aborts m hactive =>
          -- a call that is aborted while it dials leaves the gate as it was
          exact fun failedAt hmem =>
            ⟨(hsound.failed failedAt hmem).1.trans hclock, (hsound.failed failedAt hmem).2⟩

/-- **A call that moves keeps the device in order.** -/
theorem sound_moved (hsound : w.Sound config) (hturn : act.turn? = some n)
    (hn : w.session.execs[n]? = some exec) {now : Instant} (hclock : w.clock ≤ now)
    (hnow : ∀ now', act.now? = some now' → now' = now) {link : Link} {held : Bool} {phase : Phase}
    (h : Moves config w.session exec act (exec.outcome config w.session.link.conn act) link held
      phase) :
    Watched.Sound config ⟨w.session.moved n exec link held phase, now, w.failures now act,
      w.attempted config act (w.session.moved n exec link held phase)⟩ := by
  obtain ⟨hself, hothers⟩ := @execs_moved w n exec hn link held phase
  obtain ⟨hcall, hshut, hheld⟩ := h.sound hsound.shut (hsound.calls n exec hn)
  have hinactive : ∀ m exec', m ≠ n → w.session.execs[m]? = some exec' →
      exec'.phase.active ≠ true := by
    intro m exec' hm hget hactive
    have hholder := hsound.held m exec' hget hactive
    rcases h.alone with hnone | hactive'
    · rw [hnone] at hholder
      cases hholder
    · rw [hsound.held n exec hn hactive'] at hholder
      exact hm (Option.some.inj hholder).symm
  have hattempts : ∀ m, m ≠ n →
      w.attempted config act (w.session.moved n exec link held phase) m = w.attempts m := by
    intro m hm
    refine attempted_other (fun outcome hexchanged => ?_) fun hwriting =>
      (isWriting_congr (hothers m hm)).symm.trans hwriting
    rw [exchanged_turn hturn hn] at hexchanged
    obtain ⟨o, -, heq⟩ := Option.map_eq_some_iff.mp hexchanged
    exact hm (Prod.mk.inj heq).1.symm
  refine ⟨hshut, ?_, ?_, ?_, h.failed hsound hturn hn hclock hnow⟩
  · intro m exec' hget hactive
    by_cases hm : m = n
    · subst hm
      rw [hself] at hget
      obtain rfl := Option.some.inj hget
      exact if_pos (hheld hactive)
    · rw [hothers m hm] at hget
      exact absurd hactive (hinactive m exec' hm hget)
  · intro m exec' hget
    by_cases hm : m = n
    · subst hm
      rw [hself] at hget
      obtain rfl := Option.some.inj hget
      dsimp only
      rw [attempted_self hturn hn hself]
      exact hcall
    · rw [hothers m hm] at hget
      dsimp only
      rw [hattempts m hm]
      exact (hsound.calls m exec' hget).inactive (hinactive m exec' hm hget)
  · intro m hget
    by_cases hm : m = n
    · rw [hm, hself] at hget
      cases hget
    · rw [hothers m hm] at hget
      dsimp only
      rw [hattempts m hm]
      exact hsound.uncalled m hget

/-- A step that ends no exchange, takes no dial to its end and leaves the gate keeps the device in
order: the calls are those there were, or have nothing to do with the connection. -/
theorem sound_quiet (hsound : w.Sound config) {now : Instant} (hclock : w.clock ≤ now)
    (hfailed : w.failures now act = w.failed) (hended : w.session.exchanged config act = none)
    (hcold : after.link.coldUntil = w.session.link.coldUntil)
    (hconn : after.link.conn = none ↔ w.session.link.conn = none)
    (hholder : after.holder = w.session.holder)
    (hexecs : ∀ (m : Nat) exec', after.execs[m]? = some exec' → w.session.execs[m]? = some exec' ∨
      exec'.phase.active = false ∧ CallSound after.link (w.attempts m) exec'.phase)
    (huncalled : ∀ m : Nat, after.execs[m]? = none → w.session.execs[m]? = none) :
    Watched.Sound config ⟨after, now, w.failures now act, w.attempted config act after⟩ := by
  have hattempts : ∀ m, w.attempted config act after m = w.attempts m := by
    intro m
    refine attempted_other (fun outcome heq => ?_) fun hwriting => ?_
    · rw [hended] at heq
      cases heq
    · obtain ⟨exec', hget, hphase⟩ := (Option.any_eq_true _ _).mp hwriting
      rcases hexecs m exec' hget with hold | ⟨hinactive, -⟩
      · exact (Option.any_eq_true _ _).mpr ⟨exec', hold, hphase⟩
      · cases hexec : exec'.phase with
        | writing wasCached reconnected =>
            rw [hexec] at hinactive
            cases hinactive
        | _ =>
            rw [hexec] at hphase
            cases hphase
  refine ⟨?_, ?_, ?_, ?_, ?_⟩
  · dsimp only
    rw [hcold, hconn]
    exact hsound.shut
  · intro m exec' hget hactive
    rcases hexecs m exec' hget with hold | ⟨hinactive, -⟩
    · exact hholder.trans (hsound.held m exec' hold hactive)
    · rw [hinactive] at hactive
      cases hactive
  · intro m exec' hget
    dsimp only
    rw [hattempts m]
    rcases hexecs m exec' hget with hold | ⟨-, hcall⟩
    · have hcall := hsound.calls m exec' hold
      cases hphase : exec'.phase with
      | dialing reconnected =>
          rw [hphase] at hcall
          exact ⟨hconn.mpr hcall.1, hcall.2⟩
      | _ =>
          rw [hphase] at hcall
          exact hcall
    · exact hcall
  · intro m hget
    exact (hattempts m).trans (hsound.uncalled m (huncalled m hget))
  · dsimp only
    rw [hfailed, hcold]
    exact fun failedAt hmem =>
      ⟨(hsound.failed failedAt hmem).1.trans hclock, (hsound.failed failedAt hmem).2⟩

/-- **Every step keeps the device in order,** if it is one that does not panic. -/
theorem sound_step (hsound : w.Sound config) {now : Instant} (hclock : w.clock ≤ now)
    (hnow : ∀ now', act.now? = some now' → now' = now) :
    Watched.Sound config ⟨w.session.step config act, now, w.failures now act,
      w.attempted config act (w.session.step config act)⟩ := by
  cases hturn : act.turn? with
  | none =>
      have hended : w.session.exchanged config act = none := by
        rw [Session.exchanged, hturn]
        rfl
      cases act with
      | call dial instruction veto =>
          refine sound_quiet hsound hclock rfl hended rfl Iff.rfl rfl ?_ ?_
          · intro m exec' hget
            change (w.session.execs ++ [_])[m]? = some exec' at hget
            rcases Nat.lt_or_ge m w.session.execs.length with hlt | hge
            · rw [List.getElem?_append_left hlt] at hget
              exact .inl hget
            · have hnone := hsound.uncalled m (List.getElem?_eq_none hge)
              rw [List.getElem?_append_right hge] at hget
              obtain rfl := List.mem_singleton.mp (List.mem_of_getElem? hget)
              rw [hnone]
              right
              dsimp only
              split
              · exact ⟨rfl, Nat.zero_le _, fun second first heq => by cases heq⟩
              · exact ⟨rfl, rfl⟩
          · intro m hget
            have hle := List.getElem?_eq_none_iff.mp hget
            change (w.session.execs ++ [_]).length ≤ m at hle
            rw [List.length_append] at hle
            exact List.getElem?_eq_none (by omega)
      | answer line =>
          have hanswer : (w.session.answer line).link.coldUntil = w.session.link.coldUntil ∧
              ((w.session.answer line).link.conn = none ↔ w.session.link.conn = none) ∧
              (w.session.answer line).holder = w.session.holder ∧
              (w.session.answer line).execs = w.session.execs := by
            unfold Session.answer
            split
            · exact ⟨rfl, Iff.rfl, rfl, rfl⟩
            · rename_i conn hconn
              split
              · exact ⟨rfl, Iff.rfl, rfl, rfl⟩
              · exact ⟨rfl, by simp [hconn], rfl, rfl⟩
          obtain ⟨hcold, hconn, hholder, hexecs⟩ := hanswer
          refine sound_quiet hsound hclock rfl hended hcold hconn hholder ?_ ?_
          · intro m exec' hget
            change (w.session.answer line).execs[m]? = some exec' at hget
            rw [hexecs] at hget
            exact .inl hget
          · intro m hget
            change (w.session.answer line).execs[m]? = none at hget
            rwa [hexecs] at hget
      | _ => cases hturn
  | some n =>
      rw [step_turn hturn]
      cases hn : w.session.execs[n]? with
      | none =>
          have hended : w.session.exchanged config act = none := by
            rw [Session.exchanged, hturn]
            simp only [hn, bind, Option.bind]
          have hundialed : w.session.isDialing n = false := by
            rw [Session.isDialing, hn, Option.any_none]
          exact sound_quiet hsound hclock (failures_of_not_dialing hturn hundialed now) hended rfl
            Iff.rfl rfl (fun m exec' hget => .inl hget) fun m hget => hget
      | some exec =>
          rw [Option.elim_some]
          have hdialing : w.session.isDialing n = exec.phase.isDialing := by
            rw [Session.isDialing, hn, Option.any_some]
          rcases @advances config w.session n exec (hsound.held n exec hn) act with
            hstays | hleaves | ⟨link, held, phase, heq, hmoves⟩
          · have hended : w.session.exchanged config act = none := by
              rw [exchanged_turn hturn hn, hstays.unended, Option.map_none]
            have hfailed : w.failures now act = w.failed := by
              cases act with
              | dialed m now' outcome =>
                  refine failures_of_not_dialing hturn ?_ now
                  rw [hdialing]
                  exact hstays.undialed m now' outcome rfl
              | _ => rfl
            rw [hstays.same]
            exact sound_quiet hsound hclock hfailed hended rfl Iff.rfl rfl
              (fun m exec' hget => .inl hget) fun m hget => hget
          · obtain ⟨k, rfl⟩ := hleaves.aborted
            have hended : w.session.exchanged config (.abort k) = none := by
              rw [exchanged_turn hturn hn]
              simp only [Exec.outcome, hleaves.waits, Option.map_none]
            have hcall := hsound.calls n exec hn
            rw [hleaves.waits] at hcall
            rw [hleaves.gone]
            refine sound_quiet hsound hclock rfl hended rfl Iff.rfl rfl ?_ ?_
            · intro m exec' hget
              change (w.session.execs.set n _)[m]? = some exec' at hget
              rw [get_turn hn] at hget
              split at hget
              · rename_i hm
                obtain rfl := Option.some.inj hget
                rw [hm]
                exact .inr ⟨rfl, hcall.retriesOnce⟩
              · exact .inl hget
            · intro m hget
              change (w.session.execs.set n _)[m]? = none at hget
              rw [get_turn hn] at hget
              split at hget
              · cases hget
              · exact hget
          · rw [heq]
            exact sound_moved hsound hturn hn hclock hnow hmoves

/-- A call that comes to dial is the one the step is of. -/
theorem heeds_step (hsound : w.Sound config) {now : Instant}
    (hnow : ∀ now', act.now? = some now' → now' = now) (hn : w.session.execs[n]? = some exec)
    (hbefore : w.session.isDialing n ≠ true)
    (hafter : (w.session.step config act).isDialing n = true) :
    exec.dial = .whenWarm →
      ∀ untilThen, w.session.link.coldUntil = some untilThen → untilThen ≤ now := by
  have hsame : (w.session.step config act).execs[n]? ≠ w.session.execs[n]? := by
    intro heq
    rw [isDialing_congr heq] at hafter
    exact hbefore hafter
  cases hturn : act.turn? with
  | none =>
      refine absurd ?_ hsame
      obtain ⟨hlt, -⟩ := List.getElem?_eq_some_iff.mp hn
      cases act with
      | call dial instruction veto => exact List.getElem?_append_left hlt
      | answer line =>
          simp only [Session.step, Session.answer]
          split
          · rfl
          · split
            · rfl
            · rfl
      | _ => cases hturn
  | some m =>
      rw [step_turn hturn] at hsame hafter
      cases hm : w.session.execs[m]? with
      | none =>
          rw [hm] at hsame
          exact absurd rfl hsame
      | some exec' =>
          rw [hm, Option.elim_some] at hsame hafter
          rcases @advances config w.session m exec' (hsound.held m exec' hm) act with
            hstays | hleaves | ⟨link, held, phase, heq, hmoves⟩
          · rw [hstays.same] at hsame
            exact absurd rfl hsame
          · have hget := get_turn hm .aborted n
            change (w.session.turn m exec' .aborted).execs[n]? = _ at hget
            rw [hleaves.gone] at hsame hafter
            rw [Session.isDialing, hget] at hafter
            rw [hget] at hsame
            split at hafter
            · cases hafter
            · rename_i hne
              rw [if_neg hne] at hsame
              exact absurd rfl hsame
          · rw [heq] at hsame hafter
            obtain ⟨hself, hothers⟩ := @execs_moved w m exec' hm link held phase
            by_cases hnm : n = m
            · subst hnm
              obtain rfl := Option.some.inj (hn.symm.trans hm)
              rw [Session.isDialing, hself, Option.any_some] at hafter
              exact hmoves.dials hnow hafter
            · exact absurd (hothers n hnm) hsame

/-- What has just ended its exchange is a call that moves. -/
theorem exchanged_moves (hsound : w.Sound config) {outcome : Except ControllerError Value}
    (h : w.session.exchanged config act = some (n, outcome)) :
    ∃ exec link held phase, w.session.execs[n]? = some exec ∧
      w.session.step config act = w.session.moved n exec link held phase ∧
        Moves config w.session exec act (some outcome) link held phase := by
  unfold Session.exchanged at h
  obtain ⟨m, hturn, h⟩ := Option.bind_eq_some_iff.mp h
  obtain ⟨exec, hm, h⟩ := Option.bind_eq_some_iff.mp h
  obtain ⟨o, houtcome, h⟩ := Option.bind_eq_some_iff.mp h
  obtain ⟨rfl, rfl⟩ := Prod.mk.inj (Option.some.inj h)
  rw [step_turn hturn, hm, Option.elim_some]
  rcases @advances config w.session m exec (hsound.held m exec hm) act with
    hstays | hleaves | ⟨link, held, phase, heq, hmoves⟩
  · rw [hstays.unended] at houtcome
    cases houtcome
  · obtain ⟨k, rfl⟩ := hleaves.aborted
    simp only [Exec.outcome, hleaves.waits] at houtcome
    cases houtcome
  · rw [houtcome] at hmoves
    exact ⟨exec, link, held, phase, rfl, heq, hmoves⟩

/-- A probe that finds no connection dials. -/
theorem probes_step (hsound : w.Sound config) (hn : w.session.execs[n]? = some exec)
    (hdial : exec.dial = .always) (hfinds : w.FindsNone config act n) :
    (w.session.step config act).isDialing n = true := by
  rcases hfinds with ⟨⟨now, rfl⟩, hwaits, hholder, hconn⟩ |
    ⟨first, e, hattempts, hcached, hended, he⟩
  · have hphase : exec.phase = .waiting := by
      rw [hn, Option.map_some] at hwaits
      exact Option.some.inj hwaits
    have hstep : w.session.step config (.lock n now) =
        { w.session with holder := some n }.turn n exec (.dialing false) := by
      simp only [Session.step, hn, Session.advance, hphase, hholder, Session.ensure, hconn, hdial]
    have hget := get_turn hn (.dialing false) n
    rw [if_pos rfl] at hget
    rw [hstep, Session.isDialing]
    exact (congrArg (·.any fun exec => exec.phase.isDialing) hget).trans rfl
  · obtain ⟨exec', link, held, phase, hget, hstep, hmoves⟩ := exchanged_moves hsound hended
    obtain rfl := Option.some.inj (hn.symm.trans hget)
    have hcall := hsound.calls n exec hn
    rw [hattempts] at hcall
    rw [hstep, Session.isDialing, (@execs_moved w n exec hn link held phase).1, Option.any_some]
    exact hmoves.probes hdial he hcached hcall

/-- **What is said of a step holds of it,** if it does not panic. -/
theorem gated_step (hsound : w.Sound config) {now : Instant} (hclock : w.clock ≤ now)
    (hnow : ∀ now', act.now? = some now' → now' = now) :
    Gated config w act ⟨w.session.step config act, now, w.failures now act,
      w.attempted config act (w.session.step config act)⟩ := by
  have hafter := sound_step hsound hclock hnow
  refine ⟨hafter.shut, ?_, fun n exec hn hdial => probes_step hsound hn hdial, ?_, ?_⟩
  · intro n exec hn hdial hbefore hdials backoff hbackoff failedAt hmem
    obtain ⟨-, hshut⟩ := hsound.failed failedAt hmem
    obtain ⟨untilThen, hcold, hle⟩ := hshut backoff hbackoff
    exact hle.trans (heeds_step hsound hnow hn hbefore hdials hdial untilThen hcold)
  · intro n outcome hended
    obtain ⟨exec, link, held, phase, hget, hstep, hmoves⟩ := exchanged_moves hsound hended
    obtain ⟨wasCached, reconnected, hphase⟩ := hmoves.of_outcome
    dsimp only
    rw [hstep]
    exact hmoves.coldUntil hphase.not_dialing
  · intro n
    cases hget : (w.session.step config act).execs[n]? with
    | none =>
        rw [hafter.uncalled n hget]
        exact ⟨Nat.zero_le _, fun second first heq => by cases heq⟩
    | some exec => exact (hafter.calls n exec hget).retriesOnce

end Step

/-! ## Every run -/

section Run

variable {instantEnd : Instant} {config : DeviceConfig}

theorem now_timed (act : Act) (now : Instant) :
    ∀ now', (act.timed now).now? = some now' → now' = now := by
  intro now' h
  cases act with
  | call dial instruction veto => cases h
  | answer line => cases h
  | abort n => cases h
  | _ => exact (Option.some.inj h).symm

/-- The gate that a failed dial shuts has an end. -/
def Watched.Ends (instantEnd : Instant) (config : DeviceConfig) (w : Watched)
    (input : Duration × Act) : Prop :=
  ¬ w.session.Overflows instantEnd config (input.2.timed (w.clock + input.1))

/-- The step of an input, with what is said of it. -/
def Watched.Keeps (instantEnd : Instant) (config : DeviceConfig) (w : Watched)
    (input : Duration × Act) : Prop :=
  Gated config w (input.2.timed (w.clock + input.1)) (w.step instantEnd config input)

theorem step_of_ends {w : Watched} {input : Duration × Act} (h : w.Ends instantEnd config input) :
    w.session.stepWithin instantEnd config (input.2.timed (w.clock + input.1)) =
      w.session.step config (input.2.timed (w.clock + input.1)) := by
  unfold Session.stepWithin
  split
  · exact if_neg h
  · rfl

theorem sound_start : Watched.start.Sound config := by
  refine ⟨nofun, ?_, ?_, fun _ _ => rfl, nofun⟩
  · intro n exec hget
    cases hget
  · intro n exec hget
    cases hget

/--
**The gate and the retry, over every run** of calls on one device, with every outcome of a dial
and of an exchange, each at any time, and every abort in between: what is said of a step is so of
each, if the gates that are shut have an end.
-/
theorem gated_run {inputs : List (Duration × Act)}
    (hrun : Machine.Along (Watched.step instantEnd config) (Watched.Ends instantEnd config) .start
      inputs) :
    Machine.Along (Watched.step instantEnd config) (Watched.Keeps instantEnd config) .start
      inputs := by
  have hclock : ∀ (w : Watched) (input : Duration × Act), w.clock ≤ w.clock + input.1 :=
    fun w input => Nat.le_add_right _ _
  have hsound : ∀ (w : Watched) (input : Duration × Act), w.Sound config →
      w.Ends instantEnd config input → (w.step instantEnd config input).Sound config := by
    intro w input hsound hends
    rw [Watched.step, step_of_ends hends]
    exact sound_step hsound (hclock w input) (now_timed _ _)
  refine Machine.along_of_invariant hsound ?_ hrun sound_start
  intro w input hsound hends
  rw [Watched.Keeps, Watched.step, step_of_ends hends]
  exact gated_step hsound (hclock w input) (now_timed _ _)

instance (w : Watched) (input : Duration × Act) :
    Decidable (w.Ends instantEnd config input) :=
  inferInstanceAs (Decidable (¬ _))

end Run

def readFirmware : Act := .call .whenWarm Query.firmware.instruction none

/-- A read finds the connection closed that a probe has left, and cannot dial another; the next
is refused, and the one after half a minute dials. -/
def gateRun : List (Duration × Act) :=
  [(0, .call .always Query.firmware.instruction none), (0, .lock 0 0), (1, .dialed 0 0 .connected),
    (0, .wrote 0 0 none), (1, .answer firmwareLine), (0, .read 0 0 (.bytes 1024)),
    (0, readFirmware), (0, .lock 1 0), (0, .wrote 1 0 none), (0, .read 1 0 .closed),
    (1, .dialed 1 0 (.failed "refused")), (0, readFirmware), (0, .lock 2 0), (0, readFirmware),
    (30000000000, .lock 3 0), (1, .dialed 3 0 .connected)]

theorem gated_run_closed :
    Machine.Along (Watched.step clockEnd plainRecorder) (Watched.Keeps clockEnd plainRecorder)
      .start gateRun :=
  gated_run (by decide +kernel)

/-- A recorder whose gate stays shut for as many seconds as can be written. -/
def gatedForGood : DeviceConfig :=
  { plainRecorder with coldBackoff := some (fromSecs (UInt64.ofNat (2 ^ 64 - 1))) }

/-- Two reads one after another, of a recorder that cannot be reached. -/
def ungatedRun : List (Duration × Act) :=
  [(0, readFirmware), (0, .lock 0 0), (1, .dialed 0 0 (.failed "refused")), (0, readFirmware),
    (1, .lock 1 0)]

/-- The gate that the first read shuts has no end, so it is not shut, and the second dials. -/
theorem not_gated_ungatedRun :
    ¬ Machine.Along (Watched.step clockEnd gatedForGood) (Watched.Keeps clockEnd gatedForGood)
      .start ungatedRun := by
  intro h
  have hlast : Gated gatedForGood
      (Machine.exec (Watched.step clockEnd gatedForGood) .start (ungatedRun.take 4)) (.lock 1 2)
      (Machine.exec (Watched.step clockEnd gatedForGood) .start ungatedRun) :=
    Machine.along_iff_split.mp h (ungatedRun.take 4) (1, .lock 1 0) [] rfl
  have hdial : ((Machine.exec (Watched.step clockEnd gatedForGood) .start
      (ungatedRun.take 4)).session.execs[1]?.map (·.dial)) = some .whenWarm := by decide +kernel
  obtain ⟨exec, hget, hwarm⟩ := Option.map_eq_some_iff.mp hdial
  have hwaited := hlast.heeds 1 exec hget hwarm (by decide +kernel) (by decide +kernel) _ rfl 1
    (by decide +kernel)
  exact absurd hwaited (by decide +kernel)

end Sismatic.Devices
