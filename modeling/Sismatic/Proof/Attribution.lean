import Sismatic.Core.Device
import Sismatic.Lib.Run
import Mathlib.Data.List.Infix

/-!
# Whose answer it is

A reply carries no address. What ties it to the call that reads it is that the connection
it comes on owed nothing and held nothing unread when the call's payload went out: the one
line it then brings is the answer. A call aborted between the two leaves the connection in
its place with an answer to come, and the next call reads that one.
-/

namespace Sismatic.Devices

/-- What a call has from the recorder: a value, or a refusal. -/
def heard : Except DeviceError Value → Option (Except ControllerError Value)
  | .ok value => some (.ok value)
  | .error (.command (.rejected name error)) => some (.error (.rejected name error))
  | _ => none

/-- It was read off the line with which the recorder answered the call's own payload. -/
def OwnAnswer (replies : List Reply) (n : Nat) (instruction : Instruction)
    (answer : Except ControllerError Value) : Prop :=
  ∃ line read, ⟨n, instruction.payload, line⟩ ∈ replies ∧ read <+: line ∧
    parseReply instruction read = some answer

namespace Phase

/-- The call has the connection lock. -/
def active : Phase → Bool
  | .dialing _ | .writing _ _ | .reading _ _ _ => true
  | _ => false

def isWriting : Phase → Bool
  | .writing _ _ => true
  | _ => false

def isReading : Phase → Bool
  | .reading _ _ _ => true
  | _ => false

end Phase

namespace Session

/-- Every value and refusal a call has returned is the recorder's answer to that call. -/
def Attributed (s : Session) : Prop :=
  ∀ n exec result, s.execs[n]? = some exec → exec.phase = .returned result →
    ∀ answer, heard result = some answer → OwnAnswer s.replies n exec.instruction answer

/-- A payload goes out on a connection that owes no answer and holds none unread. -/
def Clear (s : Session) : Act → Prop
  | .wrote n _ none =>
      (s.execs[n]?.any fun exec => exec.phase.isWriting) →
        ∀ conn ∈ s.link.conn, conn = .open
  | _ => True

instance (s : Session) (act : Act) : Decidable (s.Clear act) := by
  unfold Clear
  split
  · exact inferInstanceAs (Decidable (_ → _))
  · infer_instance

end Session

/-- The connection of a call that reads has its payload to answer, or the rest of its line. -/
def Expects (replies : List Reply) (n : Nat) (instruction : Instruction) (conn : Channel)
    (acc : List UInt8) : Prop :=
  conn = ⟨[(n, instruction.payload)], []⟩ ∧ acc = [] ∨
    conn.owed = [] ∧ ⟨n, instruction.payload, acc ++ conn.unread⟩ ∈ replies

/-- One call at a time has the lock, and the one that reads reads its own answer. -/
structure Exchanges (s : Session) : Prop where
  held : ∀ n exec, s.execs[n]? = some exec → exec.phase.active = true → s.holder = some n
  reading : ∀ n exec wasCached reconnected acc, s.execs[n]? = some exec →
    exec.phase = .reading wasCached reconnected acc →
      ∃ conn, s.link.conn = some conn ∧ Expects s.replies n exec.instruction conn acc
  attributed : s.Attributed

/-! ## A call goes on -/

section Turn

variable {s s' : Session} {n : Nat} {exec : Exec}

theorem get_turn (hn : s.execs[n]? = some exec) (phase : Phase) (m : Nat) :
    (s.execs.set n { exec with phase := phase })[m]? =
      if m = n then some { exec with phase := phase } else s.execs[m]? := by
  obtain ⟨hlt, -⟩ := List.getElem?_eq_some_iff.mp hn
  by_cases hm : m = n
  · subst hm
    rw [List.getElem?_set_self hlt, if_pos rfl]
  · rw [List.getElem?_set_ne (Ne.symm hm), if_neg hm]

/-- The call that has the lock goes on; no other call has anything to do with it. -/
theorem exchanges_turn (h : Exchanges s) (hn : s.execs[n]? = some exec)
    (hholder : s.holder = some n ∨ s.holder = none) {link : Link} {holder : Option Nat}
    {phase : Phase} (hactive : phase.active = true → holder = some n)
    (hreading : ∀ wasCached reconnected acc, phase = .reading wasCached reconnected acc →
      ∃ conn, link.conn = some conn ∧ Expects s.replies n exec.instruction conn acc)
    (hreturned : ∀ result, phase = .returned result → ∀ answer, heard result = some answer →
      OwnAnswer s.replies n exec.instruction answer) :
    Exchanges ⟨link, holder, s.execs.set n { exec with phase := phase }, s.replies⟩ := by
  have hothers : ∀ m exec', m ≠ n → s.execs[m]? = some exec' → exec'.phase.active ≠ true := by
    intro m exec' hm hget hact
    have hheld := h.held m exec' hget hact
    rcases hholder with heq | heq
    · rw [heq] at hheld
      exact hm (Option.some.inj hheld).symm
    · rw [heq] at hheld
      cases hheld
  refine ⟨?_, ?_, ?_⟩
  · intro m exec' hget hact
    rw [get_turn hn] at hget
    split at hget
    · rename_i hm
      obtain rfl := Option.some.inj hget
      rw [hm]
      exact hactive hact
    · rename_i hm
      exact absurd hact (hothers m exec' hm hget)
  · intro m exec' wasCached reconnected acc hget hphase
    rw [get_turn hn] at hget
    split at hget
    · rename_i hm
      obtain rfl := Option.some.inj hget
      rw [hm]
      exact hreading wasCached reconnected acc hphase
    · rename_i hm
      refine absurd ?_ (hothers m exec' hm hget)
      rw [hphase]
      rfl
  · intro m exec' result hget hphase
    rw [get_turn hn] at hget
    split at hget
    · rename_i hm
      obtain rfl := Option.some.inj hget
      rw [hm]
      exact hreturned result hphase
    · exact h.attributed m exec' result hget hphase

/-- A call that waits for the lock goes away, whoever has it. -/
theorem exchanges_aside (h : Exchanges s) (hn : s.execs[n]? = some exec) :
    Exchanges (s.turn n exec .aborted) := by
  refine ⟨?_, ?_, ?_⟩
  · intro m exec' hget hact
    rw [Session.turn, get_turn hn] at hget
    split at hget
    · obtain rfl := Option.some.inj hget
      cases hact
    · exact h.held m exec' hget hact
  · intro m exec' wasCached reconnected acc hget hphase
    rw [Session.turn, get_turn hn] at hget
    split at hget
    · obtain rfl := Option.some.inj hget
      cases hphase
    · exact h.reading m exec' wasCached reconnected acc hget hphase
  · intro m exec' result hget hphase
    rw [Session.turn, get_turn hn] at hget
    split at hget
    · obtain rfl := Option.some.inj hget
      cases hphase
    · exact h.attributed m exec' result hget hphase

/-- The link after a step: another connection or none, unless the call was not reading. -/
def Kept (s : Session) (exec : Exec) (link : Link) : Prop :=
  ∀ conn, link.conn = some conn →
    conn = .open ∨ s.link.conn = some conn ∧ exec.phase.isReading = false

/-- The call goes on, has heard nothing, and does not read. -/
def Silent (s s' : Session) (n : Nat) (exec : Exec) : Prop :=
  ∃ link holder phase, s' = ⟨link, holder, s.execs.set n { exec with phase := phase }, s.replies⟩ ∧
    (phase.active = true → holder = some n) ∧
    (∀ wasCached reconnected acc, phase ≠ .reading wasCached reconnected acc) ∧
    (∀ result, phase = .returned result → heard result = none) ∧ Kept s exec link

theorem Silent.exchanges (hsilent : Silent s s' n exec) (h : Exchanges s)
    (hn : s.execs[n]? = some exec) (hholder : s.holder = some n ∨ s.holder = none) :
    Exchanges s' := by
  obtain ⟨link, holder, phase, rfl, hactive, hreading, hreturned, -⟩ := hsilent
  refine exchanges_turn h hn hholder hactive ?_ ?_
  · intro wasCached reconnected acc hphase
    exact absurd hphase (hreading wasCached reconnected acc)
  · intro result hphase answer hanswer
    rw [hreturned result hphase] at hanswer
    cases hanswer

theorem silent_turn {link : Link} (hlink : Kept s exec link) (hholder : s.holder = some n)
    {phase : Phase}
    (hreading : ∀ wasCached reconnected acc, phase ≠ .reading wasCached reconnected acc)
    (hreturned : ∀ result, phase ≠ .returned result) :
    Silent s ({ s with link := link }.turn n exec phase) n exec :=
  ⟨link, s.holder, phase, rfl, fun _ => hholder, hreading,
    fun result hphase => absurd hphase (hreturned result), hlink⟩

theorem silent_finish {link : Link} (hlink : Kept s exec link) {phase : Phase}
    (hphase : phase = .aborted ∨ ∃ e, phase = .returned (.error e) ∧ heard (.error e) = none) :
    Silent s ({ s with link := link }.finish n exec phase) n exec := by
  refine ⟨link, none, phase, rfl, ?_, ?_, ?_, hlink⟩
  · rcases hphase with rfl | ⟨e, rfl, -⟩
    · simp [Phase.active]
    · simp [Phase.active]
  · rcases hphase with rfl | ⟨e, rfl, -⟩
    · simp
    · simp
  · rintro result rfl
    rcases hphase with hphase | ⟨e, hphase, he⟩
    · cases hphase
    · cases hphase
      exact he

theorem silent_ensure {link : Link} (hlink : Kept s exec link) (hholder : s.holder = some n)
    (now : Nat) (reconnected : Bool) :
    Silent s ({ s with link := link }.ensure n now exec reconnected) n exec := by
  unfold Session.ensure
  split
  · exact silent_turn hlink hholder (by simp) (by simp)
  · split
    · split
      · exact silent_finish hlink (.inr ⟨_, rfl, rfl⟩)
      · exact silent_turn hlink hholder (by simp) (by simp)
    · exact silent_turn hlink hholder (by simp) (by simp)

theorem silent_fail (hholder : s.holder = some n) (now : Nat) (wasCached reconnected : Bool)
    {e : ControllerError} (he : heard (.error (.command e)) = none) :
    Silent s (s.fail n now exec wasCached reconnected e) n exec := by
  have hlink : Kept s exec { s.link with conn := none } := by
    intro conn hconn
    cases hconn
  unfold Session.fail
  dsimp only
  split
  · exact silent_ensure hlink hholder now true
  · exact silent_finish hlink (.inr ⟨_, rfl, he⟩)

theorem kept_link (hreading : exec.phase.isReading = false) : Kept s exec s.link :=
  fun _ hconn => .inr ⟨hconn, hreading⟩

theorem silent_afterDial {config : DeviceConfig} {now : Nat} {reconnected : Bool}
    (outcome : Dialed) (hholder : s.holder = some n) (hreading : exec.phase.isReading = false) :
    Silent s (s.afterDial config n now exec reconnected outcome) n exec := by
  have hlink : Kept s exec { s.link with coldUntil := config.coldBackoff.map (now + ·) } :=
    fun _ hconn => .inr ⟨hconn, hreading⟩
  cases outcome with
  | connected =>
      refine silent_turn ?_ hholder (by simp) (by simp)
      intro conn hconn
      exact .inl (Option.some.inj hconn).symm
  | failed e =>
      have he : heard (.error (.connect (.failed e))) = none := rfl
      exact silent_finish hlink (.inr ⟨_, rfl, he⟩)
  | elapsed =>
      have he : heard (.error (.connect (.timeout config.connectTimeout))) = none := rfl
      exact silent_finish hlink (.inr ⟨_, rfl, he⟩)

end Turn

/-! ## Every step -/

theorem parseReply_error {instruction : Instruction} {acc : List UInt8} {e : ControllerError}
    (h : parseReply instruction acc = some (.error e)) :
    ∃ error, e = .rejected instruction.name error := by
  unfold parseReply at h
  dsimp only at h
  split at h
  · rename_i error _
    cases h
    exact ⟨error, rfl⟩
  · split at h
    · cases h
    · cases h

section Step

variable {config : DeviceConfig} {s : Session} {n now : Nat} {exec : Exec}

theorem Exchanges.holder (h : Exchanges s) (hn : s.execs[n]? = some exec)
    (hactive : exec.phase.active = true) : s.holder = some n ∨ s.holder = none :=
  .inl (h.held n exec hn hactive)

/-- The payload goes out, and the connection owes nothing else. -/
theorem exchanges_wrote {wasCached reconnected : Bool} {failure : Option TransportError}
    (h : Exchanges s) (hn : s.execs[n]? = some exec)
    (hphase : exec.phase = .writing wasCached reconnected)
    (hclear : failure = none → ∀ conn ∈ s.link.conn, conn = .open) :
    Exchanges (s.wrote n now exec wasCached reconnected failure) := by
  have hheld : s.holder = some n := h.held n exec hn (by rw [hphase]; rfl)
  unfold Session.wrote
  split
  · exact (silent_fail hheld now wasCached reconnected rfl).exchanges h hn (.inl hheld)
  · split
    · exact h
    · rename_i conn hconn
      obtain rfl := hclear rfl conn hconn
      refine exchanges_turn h hn (.inl hheld) (fun _ => hheld) ?_ ?_
      · intro c r acc hreading
        cases hreading
        exact ⟨_, rfl, .inl ⟨rfl, rfl⟩⟩
      · intro result hresult
        cases hresult

/-- What is read is the next part of the call's own line. -/
theorem exchanges_read {wasCached reconnected : Bool} {acc : List UInt8} {received : Received}
    (h : Exchanges s) (hn : s.execs[n]? = some exec)
    (hphase : exec.phase = .reading wasCached reconnected acc) :
    Exchanges (s.read n now exec wasCached reconnected acc received) := by
  have hheld : s.holder = some n := h.held n exec hn (by rw [hphase]; rfl)
  obtain ⟨conn, hconn, hexpects⟩ := h.reading n exec wasCached reconnected acc hn hphase
  cases received with
  | closed => exact (silent_fail hheld now wasCached reconnected rfl).exchanges h hn (.inl hheld)
  | failed source =>
      exact (silent_fail hheld now wasCached reconnected rfl).exchanges h hn (.inl hheld)
  | bytes count =>
      simp only [Session.read, hconn]
      split
      · exact h
      · rename_i chunk hchunk
        -- bytes to read are there only once the line is
        have hline : conn.owed = [] ∧ ⟨n, exec.instruction.payload, acc ++ conn.unread⟩ ∈
            s.replies := by
          rcases hexpects with ⟨rfl, -⟩ | hline
          · exact absurd (List.take_nil ..) hchunk
          · exact hline
        have hsplit := List.prefix_iff_eq_append.mp
          (List.take_prefix (min count bufLen) conn.unread)
        generalize conn.unread.take (min count bufLen) = chunk at hchunk hsplit ⊢
        have hread : acc ++ chunk <+: acc ++ conn.unread := by
          rw [← hsplit, ← List.append_assoc]
          exact List.prefix_append _ _
        have hown : ∀ {answer}, parseReply exec.instruction (acc ++ chunk) = some answer →
            OwnAnswer s.replies n exec.instruction answer :=
          fun hanswer => ⟨_, _, hline.2, hread, hanswer⟩
        split
        · -- the rest of the line is still to come
          refine exchanges_turn h hn (.inl hheld) (fun _ => hheld) ?_ ?_
          · intro c r acc' hreading
            cases hreading
            refine ⟨_, rfl, .inr ⟨hline.1, ?_⟩⟩
            show (⟨n, _, acc ++ chunk ++ conn.unread.drop chunk.length⟩ : Reply) ∈ s.replies
            rw [List.append_assoc, hsplit]
            exact hline.2
          · intro result hresult
            cases hresult
        · rename_i value hvalue
          refine exchanges_turn h hn (.inl hheld) (by simp [Phase.active]) (by simp) ?_
          intro result hresult answer hanswer
          cases hresult
          cases hanswer
          exact hown hvalue
        · rename_i e he
          refine exchanges_turn h hn (.inl hheld) (by simp [Phase.active]) (by simp) ?_
          intro result hresult answer hanswer
          cases hresult
          obtain ⟨error, rfl⟩ := parseReply_error he
          cases hanswer
          exact hown he

/-- A call that has the lock is aborted, and the connection stays as it is. -/
theorem exchanges_abort (h : Exchanges s) (hn : s.execs[n]? = some exec)
    (hactive : exec.phase.active = true) : Exchanges (s.finish n exec .aborted) :=
  exchanges_turn h hn (h.holder hn hactive) (by simp [Phase.active]) (by simp) (by simp)

theorem exchanges_advance (h : Exchanges s) (hn : s.execs[n]? = some exec) {act : Act}
    (hclear : ∀ m now, act = .wrote m now none → exec.phase.isWriting = true →
      ∀ conn ∈ s.link.conn, conn = .open) :
    Exchanges (s.advance config n exec act) := by
  cases act with
  | lock m now =>
      simp only [Session.advance]
      split
      · rename_i hphase hholder
        have hwaits : Exchanges { s with holder := some n } := by
          refine ⟨?_, h.reading, h.attributed⟩
          intro m exec' hget hact
          rw [h.held m exec' hget hact] at hholder
          cases hholder
        have hlink : Kept { s with holder := some n } exec s.link :=
          kept_link (by rw [hphase]; rfl)
        exact (silent_ensure hlink rfl now false).exchanges hwaits hn (.inl rfl)
      · exact h
  | dialed m now outcome =>
      simp only [Session.advance]
      split
      · rename_i hphase
        have hheld : s.holder = some n := h.held n exec hn (by rw [hphase]; rfl)
        exact (silent_afterDial outcome hheld (by rw [hphase]; rfl)).exchanges h hn (.inl hheld)
      · exact h
  | wrote m now failure =>
      simp only [Session.advance]
      split
      · rename_i hphase
        refine exchanges_wrote h hn hphase ?_
        rintro rfl
        exact hclear m now rfl (by rw [hphase]; rfl)
      · exact h
  | read m now received =>
      simp only [Session.advance]
      split
      · rename_i hphase
        exact exchanges_read h hn hphase
      · exact h
  | elapsed m now =>
      simp only [Session.advance]
      split
      · rename_i hphase
        have hheld : s.holder = some n := h.held n exec hn (by rw [hphase]; rfl)
        exact (silent_fail hheld now _ _ rfl).exchanges h hn (.inl hheld)
      · rename_i hphase
        have hheld : s.holder = some n := h.held n exec hn (by rw [hphase]; rfl)
        exact (silent_fail hheld now _ _ rfl).exchanges h hn (.inl hheld)
      · exact h
  | abort m =>
      simp only [Session.advance]
      split
      · exact exchanges_aside h hn
      · rename_i hphase
        exact exchanges_abort h hn (by rw [hphase]; rfl)
      · rename_i hphase
        exact exchanges_abort h hn (by rw [hphase]; rfl)
      · rename_i hphase
        exact exchanges_abort h hn (by rw [hphase]; rfl)
      · exact h
  | call dial instruction veto => exact h
  | answer line => exact h

theorem OwnAnswer.mono {replies replies' : List Reply} {instruction : Instruction}
    {answer : Except ControllerError Value} (h : OwnAnswer replies n instruction answer)
    (hsub : replies ⊆ replies') : OwnAnswer replies' n instruction answer := by
  obtain ⟨line, read, hmem, hread, hparse⟩ := h
  exact ⟨line, read, hsub hmem, hread, hparse⟩

/-- A call that has only been made has heard nothing and holds nothing. -/
theorem exchanges_call (h : Exchanges s) (dial : Dial) (instruction : Instruction)
    (veto : Option (VetoSource × Option Duration)) :
    Exchanges (s.call dial instruction veto) := by
  have hnew : ∀ (m : Nat) (exec' : Exec), (s.call dial instruction veto).execs[m]? = some exec' →
      s.execs[m]? = some exec' ∨ exec'.phase = .waiting ∨
        ∃ result, exec'.phase = .returned result ∧ heard result = none := by
    intro m exec' hget
    change (s.execs ++ [_])[m]? = some exec' at hget
    rw [List.getElem?_append] at hget
    split at hget
    · exact .inl hget
    · right
      obtain rfl := List.mem_singleton.mp (List.mem_of_getElem? hget)
      dsimp only
      split
      · exact .inr ⟨_, rfl, rfl⟩
      · exact .inl rfl
  refine ⟨?_, ?_, ?_⟩
  · intro m exec' hget hact
    rcases hnew m exec' hget with hold | hphase | ⟨result, hphase, -⟩
    · exact h.held m exec' hold hact
    · rw [hphase] at hact
      cases hact
    · rw [hphase] at hact
      cases hact
  · intro m exec' wasCached reconnected acc hget hreading
    rcases hnew m exec' hget with hold | hphase | ⟨result, hphase, -⟩
    · exact h.reading m exec' wasCached reconnected acc hold hreading
    · rw [hphase] at hreading
      cases hreading
    · rw [hphase] at hreading
      cases hreading
  · intro m exec' result hget hresult answer hanswer
    rcases hnew m exec' hget with hold | hphase | ⟨result', hphase, hnone⟩
    · exact h.attributed m exec' result hold hresult answer hanswer
    · rw [hphase] at hresult
      cases hresult
    · rw [hphase] at hresult
      cases hresult
      rw [hnone] at hanswer
      cases hanswer

/-- What the recorder answers is the line the call that reads has asked for. -/
theorem exchanges_answer (h : Exchanges s) (line : List UInt8) : Exchanges (s.answer line) := by
  unfold Session.answer
  split
  · exact h
  · rename_i conn hconn
    split
    · exact h
    · rename_i m payload owed howed
      refine ⟨h.held, ?_, ?_⟩
      · intro m' exec' wasCached reconnected acc hget hphase
        obtain ⟨conn', hconn', hexpects⟩ := h.reading m' exec' wasCached reconnected acc hget hphase
        obtain rfl := Option.some.inj (hconn.symm.trans hconn')
        refine ⟨_, rfl, .inr ?_⟩
        rcases hexpects with ⟨rfl, rfl⟩ | ⟨hnone, -⟩
        · cases howed
          exact ⟨rfl, List.mem_append_right _ (List.mem_singleton_self _)⟩
        · rw [hnone] at howed
          cases howed
      · intro m' exec' result hget hresult answer hanswer
        exact (h.attributed m' exec' result hget hresult answer hanswer).mono
          (List.subset_append_left _ _)

/-- The call an action is a turn of. -/
def Act.turn? : Act → Option Nat
  | .call .. | .answer _ => none
  | .lock n _ | .dialed n _ _ | .wrote n _ _ | .read n _ _ | .elapsed n _ | .abort n => some n

theorem step_turn {act : Act} {m : Nat} (h : act.turn? = some m) :
    s.step config act = (s.execs[m]?).elim s fun exec => s.advance config m exec act := by
  cases act <;> cases h <;> simp only [Session.step] <;> cases s.execs[m]? <;> rfl

theorem exchanges_step (h : Exchanges s) {act : Act} (hclear : s.Clear act) :
    Exchanges (s.step config act) := by
  cases hturn : act.turn? with
  | none =>
    cases act with
    | call dial instruction veto => exact exchanges_call h dial instruction veto
    | answer line => exact exchanges_answer h line
    | _ => cases hturn
  | some m =>
    rw [step_turn hturn]
    cases hget : s.execs[m]? with
    | none => exact h
    | some exec =>
      refine exchanges_advance h hget ?_
      rintro m' now rfl hwriting
      obtain rfl := Option.some.inj hturn
      refine hclear ?_
      rw [hget]
      exact hwriting

end Step

theorem exchanges_start : Exchanges .start where
  held := by
    intro n exec hget
    cases hget
  reading := by
    intro n exec wasCached reconnected acc hget
    cases hget
  attributed := by
    intro n exec result hget
    cases hget

/--
**Every answer is the caller's own**, in every run of calls on one device in which a payload
goes out only on a connection that owes nothing and holds nothing unread.
-/
theorem answers_attributed {config : DeviceConfig} {acts : List Act}
    (hrun : Machine.Along (Session.step config) Session.Clear .start acts) :
    (Machine.exec (Session.step config) .start acts).Attributed := by
  have hstep : ∀ (s : Session) (act : Act), Exchanges s → s.Clear act →
      Exchanges (s.step config act) := fun _ _ h hclear => exchanges_step h hclear
  exact (Machine.exec_invariant hstep hrun exchanges_start).attributed

/-! ## A keepalive aborted -/

/-- A recorder with the settings a device has without any of its own. -/
def plainRecorder : DeviceConfig where
  uuid := .nil
  id := "a"
  host := ⟨"10.0.0.1", by decide⟩
  port := 22023
  username := ⟨"admin", by decide⟩
  password := ⟨"extron", by decide⟩
  connectTimeout := 5000000000
  exchangeTimeout := 3000000000
  eager := true
  sisKeepalive := some 120000000000
  eagerRetry := some 30000000000
  coldBackoff := some 30000000000
  disabledFields := OrderedSet.empty
  autoDisableAfter := 2
  selfHeal := none

/-- `2.11` and a line end. -/
def firmwareLine : List UInt8 := [50, 46, 49, 49, 13, 10]

/-- `0` and a line end. -/
def offLine : List UInt8 := [48, 13, 10]

/-- A probe and, on its connection, a read that finds it closed and goes on another. -/
def healed : List Act :=
  [.call .always Query.firmware.instruction none, .lock 0 0, .dialed 0 0 .connected,
    .wrote 0 0 none, .answer firmwareLine, .read 0 0 (.bytes 3), .read 0 0 (.bytes 9),
    .call .whenWarm Query.rtmpStream1LiveState.instruction none, .lock 1 1, .wrote 1 1 none,
    .read 1 1 .closed, .dialed 1 2 .connected, .wrote 1 2 none, .answer offLine,
    .read 1 2 (.bytes 1024)]

theorem answers_attributed_healed :
    (Machine.exec (Session.step plainRecorder) .start healed).Attributed ∧
      (Machine.exec (Session.step plainRecorder) .start healed).replies.length = 2 :=
  ⟨answers_attributed (by decide +kernel), by decide +kernel⟩

/-- The task that probes is aborted with its answer to come, and a read follows it. -/
def abandoned : List Act :=
  [.call .always Query.firmware.instruction none, .lock 0 0, .dialed 0 0 .connected,
    .wrote 0 0 none, .abort 0, .call .whenWarm Query.rtmpStream1LiveState.instruction none,
    .lock 1 1, .wrote 1 1 none, .answer firmwareLine, .answer offLine, .read 1 1 (.bytes 1024)]

/-- The read returns that the push is live, off the firmware's line; the recorder says it is not. -/
theorem abandoned_misread :
    ((Machine.exec (Session.step plainRecorder) .start abandoned).execs[1]?.map (·.phase)) =
        some (.returned (.ok (.flag true))) ∧
      (Machine.exec (Session.step plainRecorder) .start abandoned).replies =
        [⟨0, "Q", firmwareLine⟩,
          ⟨1, Query.rtmpStream1LiveState.instruction.payload, offLine⟩] ∧
      parseReply Query.rtmpStream1LiveState.instruction offLine = some (.ok (.flag false)) ∧
      ¬ (Machine.exec (Session.step plainRecorder) .start abandoned).Attributed := by
  have hphase : ((Machine.exec (Session.step plainRecorder) .start abandoned).execs[1]?.map
      (·.phase)) = some (.returned (.ok (.flag true))) := by decide +kernel
  have hreplies : (Machine.exec (Session.step plainRecorder) .start abandoned).replies =
      [⟨0, "Q", firmwareLine⟩,
        ⟨1, Query.rtmpStream1LiveState.instruction.payload, offLine⟩] := by decide +kernel
  refine ⟨hphase, hreplies, by decide +kernel, fun hattributed => ?_⟩
  obtain ⟨exec, hget, hreturned⟩ := Option.map_eq_some_iff.mp hphase
  have hinstruction : exec.instruction = Query.rtmpStream1LiveState.instruction := by
    obtain rfl := Option.some.inj (hget.symm.trans (by rfl))
    rfl
  obtain ⟨line, read, hmem, hread, hparse⟩ := hattributed 1 exec _ hget hreturned _ rfl
  rw [hinstruction] at hmem hparse
  rw [hreplies] at hmem
  -- no part of the line that answers the read says so
  have hnone : ∀ read ∈ offLine.inits,
      parseReply Query.rtmpStream1LiveState.instruction read ≠ some (.ok (.flag true)) := by
    decide +kernel
  simp only [List.mem_cons, List.not_mem_nil, or_false, Reply.mk.injEq] at hmem
  rcases hmem with ⟨hne, -⟩ | ⟨-, -, rfl⟩
  · cases hne
  · exact hnone read ((List.mem_inits read offLine).mpr hread) hparse

end Sismatic.Devices
