import Sismatic.Proof.Attribution
import Sismatic.Proof.Fragments

/-!
# When a connection is idle again

An exchange that ends with a value or a refusal has read its answer to the end of the line,
and one that ends otherwise drops its connection. So between two exchanges a connection has
nothing on it, except where a call was aborted in the middle of one.
-/

namespace Sismatic.Devices

/-! ## A line -/

section OneLine

/-- A line end, and no other line end. -/
def OneLine (line : List UInt8) : Prop :=
  ∃ body, line = body ++ [13, 10] ∧ ¬ [13, 10] <:+: body ++ [13]

/-- What has been read of a line and has a line end in it is the line. -/
theorem OneLine.whole {line read : List UInt8} (h : OneLine line) (hread : read <+: line)
    (hends : [13, 10] <:+: read) : read = line := by
  obtain ⟨body, rfl, hbody⟩ := h
  have hline : body ++ [13, 10] = body ++ [13] ++ [10] := by
    rw [List.append_assoc]
    rfl
  rw [hline] at hread ⊢
  rcases List.prefix_concat_iff.mp hread with heq | hpart
  · exact heq
  · exact absurd (hends.trans hpart.isInfix) hbody

/-- The text that is looked at is written by the first of the bytes. -/
theorem validPrefix_bytes (bytes : List UInt8) :
    ∃ n, (validPrefix bytes).toByteArray = ⟨(bytes.take n).toArray⟩ := by
  unfold validPrefix
  cases hfind : (List.range (bytes.length + 1)).reverse.findSome? fun n =>
      String.fromUTF8? ⟨(bytes.take n).toArray⟩ with
  | none => exact ⟨0, rfl⟩
  | some text =>
      obtain ⟨n, -, htext⟩ := List.exists_of_findSome?_eq_some hfind
      refine ⟨n, ?_⟩
      unfold String.fromUTF8? at htext
      split at htext
      · obtain rfl := Option.some.inj htext
        rfl
      · cases htext

/-- A line end in the text is one in the bytes. -/
theorem crlf_bytes {bytes : List UInt8} (h : [cr, lf] <:+: (validPrefix bytes).toList) :
    [13, 10] <:+: bytes := by
  obtain ⟨n, hbytes⟩ := validPrefix_bytes bytes
  obtain ⟨before, after, htext⟩ := h
  rw [← String.utf8Encode_toList, ← htext, List.utf8Encode_append, List.utf8Encode_append]
    at hbytes
  have hends : [cr, lf].utf8Encode = ⟨#[13, 10]⟩ := rfl
  have hlist := congrArg (fun bytes : ByteArray => bytes.data.toList) hbytes
  simp only [ByteArray.data_append, Array.toList_append, hends] at hlist
  exact List.IsInfix.trans ⟨_, _, hlist⟩ (List.take_prefix n bytes).isInfix

/-- Neither a value nor a refusal is found before a line has ended. -/
theorem parseReply_ends {instruction : Instruction} (hwhole : WholeLine instruction)
    {acc : List UInt8} {answer : Except ControllerError Value}
    (h : parseReply instruction acc = some answer) : [13, 10] <:+: acc :=
  crlf_bytes (parseReply_line hwhole h)

end OneLine

/-! ## Between two exchanges -/

section Settled

/--
No call is aborted between its payload and its answer, every instruction reads to the end
of its line, and the recorder answers one line to each payload.
-/
def Session.Uninterrupted (s : Session) : Act → Prop
  | .abort n => ∀ exec, s.execs[n]? = some exec → exec.phase.isReading = false
  | .call _ instruction _ => WholeLine instruction
  | .answer line => OneLine line
  | _ => True

/-- A connection has nothing under way on it but the exchange of the call that reads. -/
structure Settled (s : Session) : Prop where
  whole : ∀ exec ∈ s.execs, WholeLine exec.instruction
  settled : ∀ conn, s.link.conn = some conn → conn = .open ∨
    ∃ (n : Nat) (exec : Exec) (wasCached reconnected : Bool) (acc : List UInt8),
      s.execs[n]? = some exec ∧ exec.phase = .reading wasCached reconnected acc ∧
        (conn.owed = [] → OneLine (acc ++ conn.unread))

variable {config : DeviceConfig} {s s' : Session} {n now : Nat} {exec : Exec}

theorem settled_turn (h : Settled s) (hn : s.execs[n]? = some exec) {link : Link}
    {holder : Option Nat} {phase : Phase} (hconn : ∀ conn, link.conn = some conn → conn = .open ∨
      ∃ wasCached reconnected acc, phase = .reading wasCached reconnected acc ∧
        (conn.owed = [] → OneLine (acc ++ conn.unread))) :
    Settled ⟨link, holder, s.execs.set n { exec with phase := phase }, s.replies⟩ := by
  refine ⟨?_, ?_⟩
  · intro exec' hmem
    rcases List.mem_or_eq_of_mem_set hmem with hold | rfl
    · exact h.whole exec' hold
    · exact h.whole exec (List.mem_of_getElem? hn)
  · intro conn hlink
    rcases hconn conn hlink with hopen | ⟨wasCached, reconnected, acc, hphase, hline⟩
    · exact .inl hopen
    · refine .inr ⟨n, { exec with phase := phase }, wasCached, reconnected, acc, ?_, hphase, hline⟩
      exact (get_turn hn phase n).trans (if_pos rfl)

/-- While a call that does not read has the lock, or none has it, the connection is idle. -/
theorem Settled.idle (h : Settled s) (hex : Exchanges s) (hn : s.execs[n]? = some exec)
    (hholder : s.holder = some n ∨ s.holder = none) (hreading : exec.phase.isReading = false)
    {conn : Channel} (hconn : s.link.conn = some conn) : conn = .open := by
  rcases h.settled conn hconn with hopen | ⟨m, exec', c, r, acc, hget, hphase, -⟩
  · exact hopen
  · have hheld := hex.held m exec' hget (by rw [hphase]; rfl)
    rcases hholder with heq | heq
    · obtain rfl := Option.some.inj (heq.symm.trans hheld)
      obtain rfl := Option.some.inj (hn.symm.trans hget)
      rw [hphase] at hreading
      cases hreading
    · rw [heq] at hheld
      cases hheld

theorem Silent.settled (hsilent : Silent s s' n exec) (h : Settled s) (hex : Exchanges s)
    (hn : s.execs[n]? = some exec) (hholder : s.holder = some n ∨ s.holder = none) :
    Settled s' := by
  obtain ⟨link, holder, phase, rfl, -, -, -, hlink⟩ := hsilent
  refine settled_turn h hn fun conn hconn => .inl ?_
  rcases hlink conn hconn with hopen | ⟨hold, hreading⟩
  · exact hopen
  · exact h.idle hex hn hholder hreading hold

/-- In such a run a payload goes out on a connection with nothing else on it. -/
theorem Settled.clear (h : Settled s) (hex : Exchanges s) (act : Act) : s.Clear act := by
  unfold Session.Clear
  split
  · rename_i n now
    intro hwriting conn hconn
    obtain ⟨exec, hget, hphase⟩ : ∃ exec, s.execs[n]? = some exec ∧
        exec.phase.isWriting = true := by
      cases hget : s.execs[n]? with
      | none =>
          rw [hget] at hwriting
          cases hwriting
      | some exec =>
          rw [hget] at hwriting
          exact ⟨exec, rfl, hwriting⟩
    have hactive : exec.phase.active = true ∧ exec.phase.isReading = false := by
      cases hcase : exec.phase with
      | writing c r => exact ⟨rfl, rfl⟩
      | waiting | dialing | reading | returned | aborted =>
          rw [hcase] at hphase
          cases hphase
    exact h.idle hex hget (hex.holder hget hactive.1) hactive.2 hconn
  · trivial

/-- A complete reply leaves the connection idle. -/
theorem settled_read {wasCached reconnected : Bool} {acc : List UInt8} {received : Received}
    (h : Settled s) (hex : Exchanges s) (hn : s.execs[n]? = some exec)
    (hphase : exec.phase = .reading wasCached reconnected acc) :
    Settled (s.read n now exec wasCached reconnected acc received) := by
  have hheld : s.holder = some n := hex.held n exec hn (by rw [hphase]; rfl)
  obtain ⟨conn, hconn, hexpects⟩ := hex.reading n exec wasCached reconnected acc hn hphase
  cases received with
  | closed =>
      exact (silent_fail hheld now wasCached reconnected rfl).settled h hex hn (.inl hheld)
  | failed source =>
      exact (silent_fail hheld now wasCached reconnected rfl).settled h hex hn (.inl hheld)
  | bytes count =>
      simp only [Session.read, hconn]
      split
      · exact h
      · rename_i chunk hchunk
        have howed : conn.owed = [] := by
          rcases hexpects with ⟨rfl, -⟩ | ⟨howed, -⟩
          · exact absurd (List.take_nil ..) hchunk
          · exact howed
        have hline : OneLine (acc ++ conn.unread) := by
          rcases h.settled conn hconn with rfl | ⟨m, exec', c, r, acc', hget, hreading, hline⟩
          · exact absurd (List.take_nil ..) hchunk
          · have hsame := hex.held m exec' hget (by rw [hreading]; rfl)
            obtain rfl := Option.some.inj (hheld.symm.trans hsame)
            obtain rfl := Option.some.inj (hn.symm.trans hget)
            obtain ⟨-, -, rfl⟩ := Phase.reading.inj (hphase.symm.trans hreading)
            exact hline howed
        have hsplit := List.prefix_iff_eq_append.mp
          (List.take_prefix (min count bufLen) conn.unread)
        generalize conn.unread.take (min count bufLen) = chunk at hchunk hsplit ⊢
        rw [← hsplit, ← List.append_assoc] at hline
        -- a reply that is complete is the whole line, and nothing is left behind it
        have hdone : ∀ {answer}, parseReply exec.instruction (acc ++ chunk) = some answer →
            (⟨conn.owed, conn.unread.drop chunk.length⟩ : Channel) = .open := by
          intro answer hanswer
          have hends := parseReply_ends (h.whole exec (List.mem_of_getElem? hn)) hanswer
          have hwhole := hline.whole (List.prefix_append _ _) hends
          rw [howed, List.self_eq_append_right.mp hwhole]
          rfl
        split
        · refine settled_turn h hn fun conn' hconn' => .inr ⟨_, _, _, rfl, fun _ => ?_⟩
          obtain rfl := Option.some.inj hconn'
          exact hline
        · rename_i value hvalue
          refine settled_turn h hn fun conn' hconn' => .inl ?_
          exact (Option.some.inj hconn').symm.trans (hdone hvalue)
        · rename_i e he
          refine settled_turn h hn fun conn' hconn' => .inl ?_
          exact (Option.some.inj hconn').symm.trans (hdone he)

theorem settled_wrote {wasCached reconnected : Bool} {failure : Option TransportError}
    (h : Settled s) (hex : Exchanges s) (hn : s.execs[n]? = some exec)
    (hphase : exec.phase = .writing wasCached reconnected) :
    Settled (s.wrote n now exec wasCached reconnected failure) := by
  have hheld : s.holder = some n := hex.held n exec hn (by rw [hphase]; rfl)
  unfold Session.wrote
  split
  · exact (silent_fail hheld now wasCached reconnected rfl).settled h hex hn (.inl hheld)
  · split
    · exact h
    · refine settled_turn h hn fun conn' hconn' => .inr ⟨_, _, _, rfl, fun howed => ?_⟩
      obtain rfl := Option.some.inj hconn'
      exact absurd howed (by simp)

/-- A call goes away that only waited; the call that reads is another. -/
theorem settled_aside (h : Settled s) (hn : s.execs[n]? = some exec)
    (hreading : exec.phase.isReading = false) : Settled (s.turn n exec .aborted) := by
  refine ⟨?_, ?_⟩
  · intro exec' hmem
    rcases List.mem_or_eq_of_mem_set hmem with hold | rfl
    · exact h.whole exec' hold
    · exact h.whole exec (List.mem_of_getElem? hn)
  · intro conn hconn
    rcases h.settled conn hconn with hopen | ⟨m, exec', c, r, acc, hget, hphase, hline⟩
    · exact .inl hopen
    · refine .inr ⟨m, exec', c, r, acc, ?_, hphase, hline⟩
      refine (get_turn hn .aborted m).trans ((if_neg ?_).trans hget)
      rintro rfl
      obtain rfl := Option.some.inj (hn.symm.trans hget)
      rw [hphase] at hreading
      cases hreading

/-- A call that has the lock goes away, not reading. -/
theorem settled_abort (h : Settled s) (hex : Exchanges s) (hn : s.execs[n]? = some exec)
    (hactive : exec.phase.active = true) (hreading : exec.phase.isReading = false) :
    Settled (s.finish n exec .aborted) := by
  have hsilent : Silent s ({ s with link := s.link }.finish n exec .aborted) n exec :=
    silent_finish (kept_link hreading) (.inl rfl)
  exact hsilent.settled h hex hn (hex.holder hn hactive)

theorem settled_advance (h : Settled s) (hex : Exchanges s) (hn : s.execs[n]? = some exec)
    {act : Act} (hact : ∀ m, act = .abort m → exec.phase.isReading = false) :
    Settled (s.advance config n exec act) := by
  cases act with
  | lock m now =>
      simp only [Session.advance]
      split
      · rename_i hphase hholder
        have hreading : exec.phase.isReading = false := by rw [hphase]; rfl
        have hidle : ∀ conn, s.link.conn = some conn → conn = .open :=
          fun conn hconn => h.idle hex hn (.inr hholder) hreading hconn
        have hlink : Kept { s with holder := some n } exec s.link := kept_link hreading
        obtain ⟨link, holder, phase, heq, -, -, -, hkept⟩ :=
          silent_ensure (n := n) hlink rfl now false
        rw [show ({ s with holder := some n } : Session).ensure n now exec false = _ from heq]
        refine settled_turn h hn fun conn hconn => .inl ?_
        rcases hkept conn hconn with hopen | ⟨hold, -⟩
        · exact hopen
        · exact hidle conn hold
      · exact h
  | dialed m now outcome =>
      simp only [Session.advance]
      split
      · rename_i hphase
        have hheld : s.holder = some n := hex.held n exec hn (by rw [hphase]; rfl)
        exact (silent_afterDial outcome hheld (by rw [hphase]; rfl)).settled h hex hn (.inl hheld)
      · exact h
  | wrote m now failure =>
      simp only [Session.advance]
      split
      · rename_i hphase
        exact settled_wrote h hex hn hphase
      · exact h
  | read m now received =>
      simp only [Session.advance]
      split
      · rename_i hphase
        exact settled_read h hex hn hphase
      · exact h
  | elapsed m now =>
      simp only [Session.advance]
      split
      · rename_i hphase
        have hheld : s.holder = some n := hex.held n exec hn (by rw [hphase]; rfl)
        exact (silent_fail hheld now _ _ rfl).settled h hex hn (.inl hheld)
      · rename_i hphase
        have hheld : s.holder = some n := hex.held n exec hn (by rw [hphase]; rfl)
        exact (silent_fail hheld now _ _ rfl).settled h hex hn (.inl hheld)
      · exact h
  | abort m =>
      have hreading := hact m rfl
      simp only [Session.advance]
      split
      · exact settled_aside h hn hreading
      · rename_i hphase
        exact settled_abort h hex hn (by rw [hphase]; rfl) hreading
      · rename_i hphase
        exact settled_abort h hex hn (by rw [hphase]; rfl) hreading
      · rename_i hphase
        exact settled_abort h hex hn (by rw [hphase]; rfl) hreading
      · exact h
  | call dial instruction veto => exact h
  | answer line => exact h

theorem settled_call (h : Settled s) (dial : Dial) {instruction : Instruction}
    (hwhole : WholeLine instruction) (veto : Option (VetoSource × Option Duration)) :
    Settled (s.call dial instruction veto) := by
  refine ⟨?_, ?_⟩
  · intro exec' hmem
    rcases List.mem_append.mp hmem with hold | hnew
    · exact h.whole exec' hold
    · obtain rfl := List.mem_singleton.mp hnew
      exact hwhole
  · intro conn hconn
    rcases h.settled conn hconn with hopen | ⟨m, exec', c, r, acc, hget, hphase, hline⟩
    · exact .inl hopen
    · refine .inr ⟨m, exec', c, r, acc, ?_, hphase, hline⟩
      have hlt := (List.getElem?_eq_some_iff.mp hget).1
      exact (List.getElem?_append_left hlt).trans hget

/-- The recorder owes one answer at most, to the call that reads. -/
theorem settled_answer (h : Settled s) (hex : Exchanges s) {line : List UInt8}
    (hline : OneLine line) : Settled (s.answer line) := by
  unfold Session.answer
  split
  · exact h
  · rename_i conn hconn
    split
    · exact h
    · rename_i m payload owed howed
      refine ⟨h.whole, ?_⟩
      rcases h.settled conn hconn with rfl | ⟨n, exec, c, r, acc, hget, hphase, -⟩
      · cases howed
      · obtain ⟨conn', hconn', hexpects⟩ := hex.reading n exec c r acc hget hphase
        obtain rfl := Option.some.inj (hconn.symm.trans hconn')
        rcases hexpects with ⟨rfl, rfl⟩ | ⟨hnone, -⟩
        · intro conn'' hconn''
          obtain rfl := Option.some.inj hconn''
          exact .inr ⟨n, exec, c, r, [], hget, hphase, fun _ => hline⟩
        · rw [hnone] at howed
          cases howed

theorem settled_step (h : Settled s) (hex : Exchanges s) {act : Act}
    (hact : s.Uninterrupted act) : Settled (s.step config act) := by
  cases hturn : act.turn? with
  | none =>
    cases act with
    | call dial instruction veto => exact settled_call h dial hact veto
    | answer line => exact settled_answer h hex hact
    | _ => cases hturn
  | some m =>
    rw [step_turn hturn]
    cases hget : s.execs[m]? with
    | none => exact h
    | some exec =>
      refine settled_advance h hex hget ?_
      rintro m' rfl
      obtain rfl := Option.some.inj hturn
      exact hact exec hget

/--
Timeouts, closed channels, refusals and the retry leave nothing on a connection that is
used again: only a call aborted between its payload and its answer does, or one that takes
less than a line for a reply.
-/
theorem clear_of_uninterrupted {acts : List Act}
    (hrun : Machine.Along (Session.step config) Session.Uninterrupted .start acts) :
    Machine.Along (Session.step config) Session.Clear .start acts := by
  have hstep : ∀ (s : Session) (act : Act), Exchanges s ∧ Settled s → s.Uninterrupted act →
      Exchanges (s.step config act) ∧ Settled (s.step config act) := by
    rintro s act ⟨hex, h⟩ hact
    exact ⟨exchanges_step hex (h.clear hex act), settled_step h hex hact⟩
  have hstart : Settled .start := by
    refine ⟨?_, ?_⟩
    · intro exec hmem
      cases hmem
    · intro conn hconn
      cases hconn
  exact Machine.along_of_invariant hstep (fun s act h _ => h.2.clear h.1 act) hrun
    ⟨exchanges_start, hstart⟩

end Settled

end Sismatic.Devices
