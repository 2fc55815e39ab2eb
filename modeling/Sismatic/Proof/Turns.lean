import Sismatic.Proof.Attribution

/-!
# What a step does to its call

A call is at one of six places, and an act that finds it elsewhere does nothing. The rest comes
to eight moves: each says what becomes of the connection and of the gate, whether the call keeps
the lock, and how its exchange has ended where it has. Whoever asks what a step can do asks this.
-/

namespace Sismatic.Devices

namespace Phase

def isDialing : Phase → Bool
  | .dialing _ => true
  | _ => false

end Phase

def ControllerError.isRejected : ControllerError → Bool
  | .rejected _ _ => true
  | _ => false

/-- When a call reads the clock. -/
def Act.now? : Act → Option Nat
  | .lock _ now | .dialed _ now _ | .wrote _ now _ | .read _ now _ | .elapsed _ now => some now
  | .call _ _ _ | .answer _ | .abort _ => none

/-- What `Controller::run` comes to, where this ends it. -/
def Exec.outcome (config : DeviceConfig) (conn : Option Channel) (exec : Exec) (act : Act) :
    Option (Except ControllerError Value) :=
  let name := exec.instruction.name
  match exec.phase with
  | .writing _ _ =>
      match act with
      | .wrote _ _ (some source) => some (.error (.transport name source))
      | .elapsed _ _ => some (.error (.timeout name config.exchangeTimeout))
      | _ => none
  | .reading _ _ acc =>
      match act with
      | .read _ _ .closed => some (.error (.connectionClosed name))
      | .read _ _ (.failed source) => some (.error (.transport name source))
      | .read _ _ (.bytes count) =>
          match (conn.map fun conn => conn.unread.take (min count bufLen)).getD [] with
          | [] => none
          | chunk => parseReply exec.instruction (acc ++ chunk)
      | .elapsed _ _ => some (.error (.timeout name config.exchangeTimeout))
      | _ => none
  | _ => none

/-- What the head of the loop comes to, over this connection and this gate: the call goes on with
the lock, or returns. -/
inductive Head (dial : Dial) (link : Link) (now : Nat) (reconnected : Bool) : Bool → Phase → Prop
  | cached : link.conn.isSome → Head dial link now reconnected true (.writing true reconnected)
  | dials : link.conn = none →
      (dial = .whenWarm → ∀ untilThen, link.coldUntil = some untilThen → untilThen ≤ now) →
      Head dial link now reconnected true (.dialing reconnected)
  | cold (untilThen : Nat) : link.conn = none → dial = .whenWarm →
      link.coldUntil = some untilThen → now < untilThen →
      Head dial link now reconnected false (.returned (.error (.cold (untilThen - now))))

/-- A phase in which a call exchanges. -/
inductive Exchanging (wasCached reconnected : Bool) : Phase → Prop
  | writing : Exchanging wasCached reconnected (.writing wasCached reconnected)
  | reading (acc : List UInt8) :
      Exchanging wasCached reconnected (.reading wasCached reconnected acc)

/--
What a step does to the call that has the lock, or gets it: the connection and the gate after it,
whether the call keeps the lock, its phase, and how its exchange has ended if it has.
-/
inductive Moves (config : DeviceConfig) (s : Session) (exec : Exec) : Act →
    Option (Except ControllerError Value) → Link → Bool → Phase → Prop
  | locks (m now : Nat) {held : Bool} {phase : Phase} : exec.phase = .waiting → s.holder = none →
      Head exec.dial s.link now false held phase →
      Moves config s exec (.lock m now) none s.link held phase
  | warms (m now : Nat) (reconnected : Bool) : exec.phase = .dialing reconnected →
      Moves config s exec (.dialed m now .connected) none ⟨some .open, none⟩ true
        (.writing false reconnected)
  | chills (m now : Nat) (reconnected : Bool) (outcome : Dialed) (e : DeviceError) :
      exec.phase = .dialing reconnected → outcome ≠ .connected →
      Moves config s exec (.dialed m now outcome) none
        { s.link with coldUntil := config.coldBackoff.map (now + ·) } false
        (.returned (.error e))
  | goesOn (act : Act) (wasCached reconnected : Bool) (acc : List UInt8) (conn : Channel) :
      Exchanging wasCached reconnected exec.phase → s.link.conn.isSome →
      Moves config s exec act none { s.link with conn := some conn } true
        (.reading wasCached reconnected acc)
  | answers (act : Act) (wasCached reconnected : Bool) (conn : Channel)
      (outcome : Except ControllerError Value) (result : Except DeviceError Value) :
      Exchanging wasCached reconnected exec.phase → s.link.conn.isSome →
      (∀ e, outcome = .error e → e.isRejected = true) →
      Moves config s exec act (some outcome) { s.link with conn := some conn } false
        (.returned result)
  | heals (act : Act) (now : Nat) (e : ControllerError) {held : Bool} {phase : Phase} :
      act.now? = some now → Exchanging true false exec.phase → e.isRejected = false →
      Head exec.dial { s.link with conn := none } now true held phase →
      Moves config s exec act (some (.error e)) { s.link with conn := none } held phase
  | fails (act : Act) (wasCached reconnected : Bool) (e : ControllerError) (result : DeviceError) :
      Exchanging wasCached reconnected exec.phase → (wasCached && !reconnected) = false →
      Moves config s exec act (some (.error e)) { s.link with conn := none } false
        (.returned (.error result))
  | aborts (m : Nat) : exec.phase.active = true →
      Moves config s exec (.abort m) none s.link false .aborted

/-- The device after a step of its call `n`. -/
def Session.moved (s : Session) (n : Nat) (exec : Exec) (link : Link) (held : Bool)
    (phase : Phase) : Session :=
  ⟨link, if held then some n else none, s.execs.set n { exec with phase := phase }, s.replies⟩

section Moves

variable {config : DeviceConfig} {s : Session} {n now : Nat} {exec : Exec}

theorem head_ensure (link : Link) (now : Nat) (reconnected : Bool) :
    ∃ held phase,
      ({ s with link := link, holder := some n }).ensure n now exec reconnected =
        s.moved n exec link held phase ∧ Head exec.dial link now reconnected held phase := by
  unfold Session.ensure
  dsimp only
  cases hconn : link.conn with
  | some conn => exact ⟨true, _, rfl, .cached (by rw [hconn]; rfl)⟩
  | none =>
      dsimp only
      split
      · rename_i untilThen hdial hcold
        split
        · rename_i hshut
          exact ⟨false, _, rfl, .cold untilThen hconn hdial hcold hshut⟩
        · rename_i hopen
          refine ⟨true, _, rfl, .dials hconn fun _ untilThen' heq => ?_⟩
          rw [hcold] at heq
          obtain rfl := Option.some.inj heq
          exact Nat.not_lt.mp hopen
      · rename_i hnot
        exact ⟨true, _, rfl, .dials hconn fun hdial untilThen hcold =>
          absurd hcold (hnot untilThen hdial)⟩

/-- A failed exchange takes the connection away, and goes round again where it was cached. -/
theorem moves_fail (hholder : s.holder = some n) {wasCached reconnected : Bool}
    (hphase : Exchanging wasCached reconnected exec.phase) {e : ControllerError}
    (he : e.isRejected = false) {act : Act} (hnow : act.now? = some now) :
    ∃ link held phase, s.fail n now exec wasCached reconnected e = s.moved n exec link held phase ∧
      Moves config s exec act (some (.error e)) link held phase := by
  unfold Session.fail
  dsimp only
  split
  · rename_i hretry
    obtain ⟨rfl, rfl⟩ : wasCached = true ∧ reconnected = false := by simpa using hretry
    obtain ⟨held, phase, heq, hhead⟩ :=
      @head_ensure s n exec { s.link with conn := none } now true
    rw [← hholder] at heq
    exact ⟨_, held, phase, heq, .heals act now e hnow hphase he hhead⟩
  · rename_i hlast
    exact ⟨_, false, _, rfl, .fails act wasCached reconnected e _ hphase (by simpa using hlast)⟩

theorem moves_afterDial {m : Nat} {reconnected : Bool} (hholder : s.holder = some n)
    (hphase : exec.phase = .dialing reconnected) (outcome : Dialed) :
    ∃ link held phase, s.afterDial config n now exec reconnected outcome =
        s.moved n exec link held phase ∧
      Moves config s exec (.dialed m now outcome) none link held phase := by
  cases outcome with
  | connected =>
      refine ⟨_, true, _, ?_, .warms m now reconnected hphase⟩
      rw [Session.moved, if_pos rfl, ← hholder]
      rfl
  | failed e =>
      exact ⟨_, false, _, rfl, .chills m now reconnected (.failed e) _ hphase nofun⟩
  | elapsed =>
      exact ⟨_, false, _, rfl, .chills m now reconnected .elapsed _ hphase nofun⟩

/-- What a step leaves of its call that goes nowhere. -/
structure Stays (config : DeviceConfig) (s : Session) (n : Nat) (exec : Exec) (act : Act) :
    Prop where
  same : s.advance config n exec act = s
  unended : exec.outcome config s.link.conn act = none
  undialed : ∀ m now outcome, act = .dialed m now outcome → exec.phase.isDialing = false

/-- A call that waits for the lock goes away, whoever has it. -/
structure Leaves (config : DeviceConfig) (s : Session) (n : Nat) (exec : Exec) (act : Act) :
    Prop where
  waits : exec.phase = .waiting
  aborted : ∃ m, act = .abort m
  gone : s.advance config n exec act = s.turn n exec .aborted

/-- What a step does to its call: nothing, or the call leaves, or it moves. -/
def Advances (config : DeviceConfig) (s : Session) (n : Nat) (exec : Exec) (act : Act) : Prop :=
  Stays config s n exec act ∨ Leaves config s n exec act ∨
    ∃ link held phase, s.advance config n exec act = s.moved n exec link held phase ∧
      Moves config s exec act (exec.outcome config s.link.conn act) link held phase

theorem advances_writing {wasCached reconnected : Bool} (hholder : s.holder = some n)
    (hphase : exec.phase = .writing wasCached reconnected) (act : Act) :
    Advances config s n exec act := by
  have hexchanging : Exchanging wasCached reconnected exec.phase := hphase ▸ .writing
  unfold Advances
  cases act with
  | wrote m now failure =>
      cases failure with
      | some source =>
          right; right
          simp only [Exec.outcome, hphase, Session.advance, Session.wrote]
          exact moves_fail hholder hexchanging rfl rfl
      | none =>
          cases hconn : s.link.conn with
          | none =>
              refine .inl ⟨?_, by simp only [Exec.outcome, hphase], fun _ _ _ h => by cases h⟩
              simp only [Session.advance, hphase, Session.wrote, hconn]
          | some conn =>
              right; right
              simp only [Exec.outcome, hphase, Session.advance, Session.wrote, hconn]
              refine ⟨_, true, _, ?_, .goesOn _ wasCached reconnected []
                { conn with owed := conn.owed ++ [(n, exec.instruction.payload)] } hexchanging ?_⟩
              · rw [Session.moved, if_pos rfl, ← hholder]
                rfl
              · rw [hconn]
                rfl
  | elapsed m now =>
      right; right
      simp only [Exec.outcome, hphase, Session.advance]
      exact moves_fail hholder hexchanging rfl rfl
  | abort m =>
      right; right
      refine ⟨_, false, _, by simp only [Session.advance, hphase]; rfl, ?_⟩
      simp only [Exec.outcome, hphase]
      exact .aborts m (by rw [hphase]; rfl)
  | _ =>
      exact .inl ⟨by simp only [Session.advance, hphase], by simp only [Exec.outcome, hphase],
        fun _ _ _ _ => by rw [hphase]; rfl⟩

theorem advances_reading {wasCached reconnected : Bool} {acc : List UInt8}
    (hholder : s.holder = some n) (hphase : exec.phase = .reading wasCached reconnected acc)
    (act : Act) : Advances config s n exec act := by
  have hexchanging : Exchanging wasCached reconnected exec.phase := hphase ▸ .reading acc
  unfold Advances
  cases act with
  | read m now received =>
      cases received with
      | closed =>
          right; right
          simp only [Exec.outcome, hphase, Session.advance, Session.read]
          exact moves_fail hholder hexchanging rfl rfl
      | failed source =>
          right; right
          simp only [Exec.outcome, hphase, Session.advance, Session.read]
          exact moves_fail hholder hexchanging rfl rfl
      | bytes count =>
          cases hconn : s.link.conn with
          | none =>
              refine .inl ⟨?_, ?_, fun _ _ _ h => by cases h⟩
              · simp only [Session.advance, hphase, Session.read, hconn]
              · simp only [Exec.outcome, hphase, hconn, Option.map_none, Option.getD_none]
          | some conn =>
              have hsome : s.link.conn.isSome := by rw [hconn]; rfl
              cases hchunk : conn.unread.take (min count bufLen) with
              | nil =>
                  refine .inl ⟨?_, ?_, fun _ _ _ h => by cases h⟩
                  · simp only [Session.advance, hphase, Session.read, hconn, hchunk]
                  · simp only [Exec.outcome, hphase, hconn, Option.map_some, Option.getD_some,
                      hchunk]
              | cons b chunk =>
                  right; right
                  simp only [Exec.outcome, Session.advance, hphase, Session.read, hconn,
                    Option.map_some, Option.getD_some, hchunk]
                  generalize hrest : conn.unread.drop (b :: chunk).length = rest
                  cases hreply : parseReply exec.instruction (acc ++ b :: chunk) with
                  | none =>
                      refine ⟨_, true, _, ?_, .goesOn _ wasCached reconnected (acc ++ b :: chunk)
                        { conn with unread := rest } hexchanging hsome⟩
                      rw [Session.moved, if_pos rfl, ← hholder]
                      rfl
                  | some outcome =>
                      have hrefusal : ∀ e, outcome = .error e → e.isRejected = true := by
                        rintro e rfl
                        obtain ⟨error, rfl⟩ := parseReply_error hreply
                        rfl
                      cases outcome with
                      | ok value =>
                          exact ⟨_, false, _, rfl, .answers _ wasCached reconnected
                            { conn with unread := rest } _ _ hexchanging hsome hrefusal⟩
                      | error e =>
                          exact ⟨_, false, _, rfl, .answers _ wasCached reconnected
                            { conn with unread := rest } _ _ hexchanging hsome hrefusal⟩
  | elapsed m now =>
      right; right
      simp only [Exec.outcome, hphase, Session.advance]
      exact moves_fail hholder hexchanging rfl rfl
  | abort m =>
      right; right
      refine ⟨_, false, _, by simp only [Session.advance, hphase]; rfl, ?_⟩
      simp only [Exec.outcome, hphase]
      exact .aborts m (by rw [hphase]; rfl)
  | _ =>
      exact .inl ⟨by simp only [Session.advance, hphase], by simp only [Exec.outcome, hphase],
        fun _ _ _ _ => by rw [hphase]; rfl⟩

/-- **What a step does to its call,** whatever the act and wherever the call is. -/
theorem advances (hheld : exec.phase.active = true → s.holder = some n) (act : Act) :
    Advances config s n exec act := by
  cases hphase : exec.phase with
  | waiting =>
      cases act with
      | lock m now =>
          cases hholder : s.holder with
          | none =>
              obtain ⟨held, phase, heq, hhead⟩ := @head_ensure s n exec s.link now false
              refine .inr (.inr ⟨s.link, held, phase, ?_, ?_⟩)
              · simp only [Session.advance, hphase, hholder]
                exact heq
              · simp only [Exec.outcome, hphase]
                exact .locks m now hphase hholder hhead
          | some other =>
              refine .inl ⟨?_, by simp only [Exec.outcome, hphase], fun _ _ _ h => by cases h⟩
              simp only [Session.advance, hphase, hholder]
      | abort m =>
          exact .inr (.inl ⟨hphase, ⟨m, rfl⟩, by simp only [Session.advance, hphase]⟩)
      | _ =>
          exact .inl ⟨by simp only [Session.advance, hphase], by simp only [Exec.outcome, hphase],
            fun _ _ _ _ => by rw [hphase]; rfl⟩
  | dialing reconnected =>
      have hholder := hheld (by rw [hphase]; rfl)
      cases act with
      | dialed m now outcome =>
          refine .inr (.inr ?_)
          simp only [Session.advance, Exec.outcome, hphase]
          exact moves_afterDial hholder hphase outcome
      | abort m =>
          refine .inr (.inr ⟨_, false, _, by simp only [Session.advance, hphase]; rfl, ?_⟩)
          simp only [Exec.outcome, hphase]
          exact .aborts m (by rw [hphase]; rfl)
      | _ => exact .inl ⟨by simp only [Session.advance, hphase],
          by simp only [Exec.outcome, hphase], fun _ _ _ h => by cases h⟩
  | writing wasCached reconnected =>
      exact advances_writing (hheld (by rw [hphase]; rfl)) hphase act
  | reading wasCached reconnected acc =>
      exact advances_reading (hheld (by rw [hphase]; rfl)) hphase act
  | returned result =>
      cases act with
      | _ => exact .inl ⟨by simp only [Session.advance, hphase],
          by simp only [Exec.outcome, hphase], fun _ _ _ _ => by rw [hphase]; rfl⟩
  | aborted =>
      cases act with
      | _ => exact .inl ⟨by simp only [Session.advance, hphase],
          by simp only [Exec.outcome, hphase], fun _ _ _ _ => by rw [hphase]; rfl⟩

end Moves

end Sismatic.Devices
