import Sismatic.Proof.Decoding

/-!
# A refusal, and the echo before it

A refusal is a line of its own, looked for before the instruction's parser is asked. But both
look at what has arrived so far. If a read ends between the end of the echoed request and the
end of the refusal, the parser is asked about the echo alone, and some parsers take it for a
reply. The refusal is reported exactly on the splits that give no parser that chance.
-/

namespace Sismatic

/-! ## The catalog -/

/-- Any exchange of the catalog. -/
inductive CatalogEntry
  | query (query : Query)
  | command (command : Command)
  | register (register : Register) (value : String)
  | setting (setting : Setting) (value : String)

namespace CatalogEntry

def instruction : CatalogEntry → Except ValueError Instruction
  | .query q => .ok q.instruction
  | .command c => .ok c.instruction
  | .register r value => .ok (r.instruction value)
  | .setting s value => s.instruction value

/--
What opens a line of the request that the entry's own parser takes for a reply. A free text
and an alarm list are taken from any line; a write that is confirmed by its verb or by its
register's head takes a line with that in it; the other parsers take no line of a request.
-/
def takes : CatalogEntry → Option (List Char)
  | .query q =>
      match q.kind with
      | .text | .alarms => some []
      | _ => none
  | .command _ => none
  | .register r _ => some (rcdrLower ++ r.reg ++ "*").toList
  | .setting s _ =>
      match s.form with
      | .prefixed => some s.verb.toList
      | .addressed _ => none

end CatalogEntry

/-- The request as a line: what is sent up to its return, and a line end. -/
def Instruction.requestLine (instr : Instruction) : List Char :=
  (if instr.payload.toList.getLast? = some cr then instr.payload.toList.dropLast
    else instr.payload.toList) ++ [cr, lf]

theorem requestLine_append {instr : Instruction} {body : List Char}
    (h : instr.payload.toList = body ++ [cr]) : instr.requestLine = body ++ [cr, lf] := by
  rw [Instruction.requestLine, h, List.getLast?_concat, if_pos rfl, List.dropLast_concat]

/-! ## What the other parsers read ends in a character of its own -/

section Last

variable {α β : Type}

/-- What is read ends in a character that `P` holds of. -/
def Last (P : Char → Prop) (p : Parser α) : Prop :=
  ∀ input a rest, p input = .ok (a, rest) → ∃ start c, input = start ++ c :: rest ∧ P c

variable {P : Char → Prop} {p : Parser α}

theorem Reads.last {f : α → Parser β} (hp : Reads p) (hf : ∀ a, Last P (f a)) :
    Last P (p >>= f) := by
  intro input b rest h
  obtain ⟨a, rest₁, h₁, h₂⟩ := bind_ok.mp h
  obtain ⟨start, hstart⟩ := hp _ _ _ h₁
  obtain ⟨start', c, rfl, hc⟩ := hf a _ _ _ h₂
  exact ⟨start ++ start', c, by rw [← hstart, List.append_assoc], hc⟩

theorem Last.pure {f : α → β} (hp : Last P p) : Last P (p >>= fun a => Pure.pure (f a)) := by
  intro input b rest h
  obtain ⟨a, rest₁, h₁, h₂⟩ := bind_ok.mp h
  obtain ⟨rfl, rfl⟩ := Prod.mk.inj (Except.ok.inj h₂)
  exact hp _ _ _ h₁

theorem last_oneOf (chars : List Char) : Last (· ∈ chars) (oneOf chars) := by
  intro input c rest h
  obtain ⟨rfl, hc⟩ := oneOf_ok.mp h
  exact ⟨[], c, rfl, hc⟩

theorem last_of_text {text : List Char} (rest : List Char) (hne : text ≠ [])
    (hall : ∀ c ∈ text, P c) :
    ∃ start c, text ++ rest = start ++ c :: rest ∧ P c := by
  obtain ⟨start, c, rfl⟩ := List.eq_nil_or_concat text |>.resolve_left hne
  refine ⟨start, c, by simp, hall c (by simp)⟩

theorem last_literal {tag : String} (hne : tag.toList ≠ []) :
    Last (· = tag.toList.getLast hne) (literal tag) := by
  intro input u rest h
  obtain rfl := literalChars_ok.mp h
  refine ⟨tag.toList.dropLast, _, ?_, rfl⟩
  rw [← List.singleton_append, ← List.append_assoc, List.dropLast_append_getLast hne]

theorem last_takeWhile1 (q : Char → Bool) : Last (fun c => q c = true) (takeWhile1 q) := by
  intro input v rest h
  have hsplit := List.takeWhile_append_dropWhile (p := q) (l := input)
  unfold takeWhile1 at h
  split at h
  · cases h
  · split at h
    · cases h
    · rename_i hne
      obtain ⟨-, rfl⟩ := Prod.mk.inj (Except.ok.inj h)
      have hlast := last_of_text (input.dropWhile q) hne
        (List.all_eq_true.mp List.all_takeWhile)
      rw [hsplit] at hlast
      exact hlast

theorem last_takeExactly (q : Char → Bool) {n : Nat} (hn : 0 < n) :
    Last (fun c => q c = true) (takeExactly q n) := by
  intro input v rest h
  unfold takeExactly at h
  split at h
  · rename_i hall
    split at h
    · rename_i hle
      obtain ⟨-, rfl⟩ := Prod.mk.inj (Except.ok.inj h)
      have hne : input.take n ≠ [] := by
        intro hnil
        have hlen := congrArg List.length hnil
        rw [List.length_take, List.length_nil] at hlen
        omega
      have hlast := last_of_text (input.drop n) hne (List.all_eq_true.mp hall)
      rw [List.take_append_drop] at hlast
      exact hlast
    · cases h
  · cases h

/-- A reply that is followed by a line end has one behind its last character. -/
theorem Last.ends (hp : Last P p) {f : α → Unit → Parser β} {wrap : β → Value} {buffer : String}
    {value : Value}
    (h : parserOf (p >>= fun a => literal "\r\n" >>= f a) wrap buffer = .done value) :
    ∃ before c after, buffer.toList = before ++ c :: cr :: lf :: after ∧ P c := by
  unfold parserOf at h
  split at h
  · rename_i b hdone
    obtain ⟨before, input, rest, hbuffer, hok⟩ := search_done hdone
    obtain ⟨a, rest₁, hread, hok⟩ := bind_ok.mp hok
    obtain ⟨_, rest₂, hend, -⟩ := bind_ok.mp hok
    obtain rfl := literalChars_ok.mp hend
    obtain ⟨start, c, rfl, hc⟩ := hp _ _ _ hread
    refine ⟨before ++ start, c, rest₂, ?_, hc⟩
    rw [hbuffer, List.append_assoc]
    rfl
  · cases h

end Last

/-! ## The parsers, on a request -/

/-- A parser that takes a line of a request is done exactly when such a line is there. -/
theorem needMore_iff_hasLine {entry : CatalogEntry} {instr : Instruction}
    (h : entry.instruction = .ok instr) {head : List Char} (htakes : entry.takes = some head)
    (buffer : String) :
    instr.parseStep buffer = .needMore ↔ ¬ HasLine head buffer.toList := by
  cases entry with
  | query q =>
      obtain rfl := Except.ok.inj h
      simp only [CatalogEntry.takes] at htakes
      rw [parseStep_kind]
      split at htakes
      · rename_i hkind
        obtain rfl := Option.some.inj htakes
        rw [hkind]
        exact @echoLine_needMore "" buffer
      · rename_i hkind
        obtain rfl := Option.some.inj htakes
        rw [hkind]
        refine parserOf_needMore.trans ⟨?_, ?_⟩
        · rintro hnone ⟨before, line, after, hbuffer, -⟩
          have hempty : alarmsLine (cr :: lf :: after) = .ok ([], after) :=
            @alarmsLine_text [] (fun _ h => absurd h List.not_mem_nil) after
          obtain ⟨value, hdone⟩ := search_of_ok alarmsLine_ne_cut (before ++ line)
            (List.cons_ne_nil cr (lf :: after)) hempty
          refine hnone value ?_
          rw [hbuffer, List.append_nil]
          exact hdone
        · intro hline value hdone
          obtain ⟨before, input, rest, hbuffer, hok⟩ := search_done hdone
          obtain ⟨rfl, -⟩ := alarmsLine_ok hok
          refine hline ⟨before ++ alarmsText value, [], rest, ?_, List.not_mem_nil⟩
          simp only [hbuffer, List.append_assoc, List.nil_append]
      · cases htakes
  | command c => cases htakes
  | register r value =>
      obtain rfl := Except.ok.inj h
      obtain rfl := Option.some.inj htakes
      exact echoLine_needMore
  | setting s value =>
      obtain ⟨encoded, -, ⟨hform, hparse, -⟩ | ⟨addr, hform, -, -⟩⟩ := setting_cases h
      · simp only [CatalogEntry.takes, hform] at htakes
        obtain rfl := Option.some.inj htakes
        rw [hparse]
        exact echoLine_needMore
      · simp only [CatalogEntry.takes, hform] at htakes
        cases htakes

/-- What a reply of this kind can end in. -/
def ReplyKind.ends : ReplyKind → Char → Bool
  | .port, c | .number, c => c.isDigit
  | .flag, c => ['0', '1'].contains c
  | .state, c => ['0', '1', '2'].contains c
  | .mac, c => isHexDigit c
  | .text, _ | .alarms, _ => true

theorem last_macByte : Last (fun c => isHexDigit c = true) macByte :=
  (last_takeExactly isHexDigit (by decide)).pure

theorem last_parseMac : Last (fun c => isHexDigit c = true) parseMac := by
  unfold parseMac
  repeat refine reads_macByte.last fun _ => (reads_literal "-").last fun _ => ?_
  exact last_macByte.pure

theorem kind_ends {query : Query} (htakes : (CatalogEntry.query query).takes = none)
    {buffer : String} {value : Value} (h : query.instruction.parseStep buffer = .done value) :
    ∃ before c after, buffer.toList = before ++ c :: cr :: lf :: after ∧
      query.kind.ends c = true := by
  rw [parseStep_kind] at h
  simp only [CatalogEntry.takes] at htakes
  cases hkind : query.kind with
  | port => rw [hkind] at h; exact (last_takeWhile1 Char.isDigit).ends h
  | number => rw [hkind] at h; exact (last_takeWhile1 Char.isDigit).ends h
  | flag =>
      rw [hkind] at h
      obtain ⟨before, c, after, hbuffer, hc⟩ := (last_oneOf ['0', '1']).ends h
      exact ⟨before, c, after, hbuffer, List.contains_iff_mem.mpr hc⟩
  | state =>
      rw [hkind] at h
      obtain ⟨before, c, after, hbuffer, hc⟩ := (last_oneOf ['0', '1', '2']).ends h
      exact ⟨before, c, after, hbuffer, List.contains_iff_mem.mpr hc⟩
  | mac => rw [hkind] at h; exact last_parseMac.ends h
  | text => rw [hkind] at htakes; cases htakes
  | alarms => rw [hkind] at htakes; cases htakes

/-- The request of such a field is one line, which ends in no such character. -/
theorem request_ends {query : Query} (htakes : (CatalogEntry.query query).takes = none) :
    ∃ body, query.instruction.payload.toList = body ++ [cr] ∧ cr ∉ body ∧
      body.getLast?.all (fun c => !query.kind.ends c) = true := by
  refine ⟨query.instruction.payload.toList.dropLast, ?_⟩
  cases query <;> first | (cases htakes; done) | decide +kernel

theorem command_ends {command : Command} {buffer : String} {value : Value}
    (h : command.instruction.parseStep buffer = .done value) :
    ∃ before c after, buffer.toList = before ++ c :: cr :: lf :: after ∧ c.isDigit = true := by
  have hne : (rcdrLower ++ command.verb).toList ≠ [] := by cases command <;> decide
  obtain ⟨before, c, after, hbuffer, rfl⟩ := (last_literal hne).ends h
  exact ⟨before, _, after, hbuffer, by cases command <;> rfl⟩

theorem command_request (command : Command) :
    ∃ body, command.instruction.payload.toList = body ++ [cr] ∧ cr ∉ body ∧
      body.getLast?.all (fun c => !c.isDigit) = true := by
  refine ⟨command.instruction.payload.toList.dropLast, ?_⟩
  cases command <;> decide +kernel

/-! ## The reply -/

/-- A refusal, behind the request if the device echoes it. -/
def refusedReply (instr : Instruction) (echoes : Bool) (a b : Char) : List Char :=
  (if echoes then instr.requestLine else []) ++ ['E', a, b, cr, lf]

section Refused

variable {instr : Instruction} {echoes : Bool} {a b : Char}

theorem refusedReply_ends : refusedReply instr echoes a b =
    ((if echoes then instr.requestLine else []) ++ ['E', a, b, cr]) ++ [lf] := by
  simp [refusedReply]

/-- What is between the request's line end and the refusal's is no line. -/
theorem no_line_end (before after : List Char) (ha : a.isDigit = true) (hb : b.isDigit = true) :
    ¬ before ++ cr :: lf :: after <+: ['E', a, b, cr] := by
  rintro ⟨more, hmore⟩
  have hacr : a ≠ cr := by rintro rfl; exact absurd ha (by decide)
  have hbcr : b ≠ cr := by rintro rfl; exact absurd hb (by decide)
  have hmiddle : ['E', a, b] ++ [cr] = before ++ cr :: (lf :: (after ++ more)) := by
    rw [List.append_assoc] at hmore
    exact hmore.symm
  obtain ⟨rest, -, hrest⟩ := split_after hmiddle (by
    simp only [List.mem_cons, List.not_mem_nil, or_false, not_or]
    exact ⟨by decide, hacr.symm, hbcr.symm⟩)
  have hlen := congrArg List.length hrest
  simp only [List.length_append, List.length_cons, List.length_nil] at hlen
  omega

/-- The only line that has ended before the refusal does is the request's. -/
theorem before_line_end {body before after : List Char} {c : Char} (hcr : cr ∉ body)
    (ha : a.isDigit = true) (hb : b.isDigit = true)
    (h : before ++ c :: cr :: lf :: after <+: body ++ [cr, lf] ++ ['E', a, b, cr]) :
    before ++ [c] = body := by
  obtain ⟨more, hmore⟩ := h
  have hsplit : body ++ ([cr, lf] ++ ['E', a, b, cr]) =
      (before ++ [c]) ++ cr :: (lf :: (after ++ more)) := by
    rw [← List.append_assoc, ← hmore]
    simp
  obtain ⟨rest, hbefore, hrest⟩ := split_after hsplit hcr
  cases rest with
  | nil => rw [hbefore, List.append_nil]
  | cons d rest =>
      have htail : lf :: ['E', a, b, cr] = rest ++ cr :: lf :: (after ++ more) :=
        (List.cons.inj hrest).2
      cases rest with
      | nil => exact absurd (List.cons.inj htail).1 (by decide)
      | cons d rest =>
          refine absurd ⟨more, ?_⟩ (no_line_end rest after ha hb)
          rw [List.append_assoc]
          exact (List.cons.inj htail).2.symm

/-- A parser that takes no line of a request waits for the end of the refusal. -/
theorem needMore_of_takes_none {entry : CatalogEntry} (h : entry.instruction = .ok instr)
    (htakes : entry.takes = none) (ha : a.isDigit = true) (hb : b.isDigit = true)
    {part : List Char} (hpart : part <+: refusedReply instr echoes a b)
    (hne : part ≠ refusedReply instr echoes a b) :
    instr.parseStep (String.ofList part) = .needMore := by
  have hbefore : part <+: (if echoes then instr.requestLine else []) ++ ['E', a, b, cr] := by
    rw [refusedReply_ends] at hpart hne
    exact (List.prefix_concat_iff.mp hpart).resolve_left hne
  -- a parser whose replies end in a character that no request ends in
  have hends : ∀ body, instr.payload.toList = body ++ [cr] → cr ∉ body → ∀ P : Char → Bool,
      body.getLast?.all (fun c => !P c) = true →
      (∀ value, instr.parseStep (String.ofList part) = .done value → ∃ before c after,
        (String.ofList part).toList = before ++ c :: cr :: lf :: after ∧ P c = true) →
      instr.parseStep (String.ofList part) = .needMore := by
    intro body hpayload hcr P hlast hdone
    cases hparse : instr.parseStep (String.ofList part) with
    | needMore => rfl
    | done value =>
        obtain ⟨before, c, after, hbuffer, hc⟩ := hdone value hparse
        rw [String.toList_ofList] at hbuffer
        rw [hbuffer] at hbefore
        cases echoes with
        | false =>
            refine absurd ?_ (no_line_end (before ++ [c]) after ha hb)
            rw [List.append_assoc]
            exact hbefore
        | true =>
            rw [if_pos rfl, requestLine_append hpayload] at hbefore
            rw [← before_line_end hcr ha hb hbefore, List.getLast?_concat] at hlast
            simp [hc] at hlast
  cases entry with
  | query q =>
      obtain rfl := Except.ok.inj h
      obtain ⟨body, hpayload, hcr, hlast⟩ := request_ends htakes
      exact hends body hpayload hcr q.kind.ends hlast fun value => kind_ends htakes
  | command c =>
      obtain rfl := Except.ok.inj h
      obtain ⟨body, hpayload, hcr, hlast⟩ := command_request c
      exact hends body hpayload hcr Char.isDigit hlast fun value => command_ends
  | register r value => cases htakes
  | setting s value =>
      obtain ⟨encoded, hencode, ⟨hform, -, -⟩ | ⟨addr, hform, hparse, hpayload⟩⟩ := setting_cases h
      · simp only [CatalogEntry.takes, hform] at htakes
        cases htakes
      · have hastar : a ≠ '*' := by rintro rfl; exact absurd ha (by decide)
        have hbstar : b ≠ '*' := by rintro rfl; exact absurd hb (by decide)
        have htail : '*' ∉ ['E', a, b, cr] := by
          simp only [List.mem_cons, List.not_mem_nil, or_false, not_or]
          exact ⟨by decide, hastar.symm, hbstar.symm, by decide⟩
        cases echoes with
        | true =>
            refine needMore_addressed hform hencode hparse hpayload htail ?_
            have hecho : instr.requestLine = instr.echo.toList := by
              rw [requestLine_append (by rw [hpayload, String.toList_append]; rfl),
                Instruction.echo, hpayload]
              simp
            rw [String.toList_ofList, ← hecho]
            exact hbefore
        | false =>
            cases hdone : instr.parseStep (String.ofList part) with
            | needMore => rfl
            | done value =>
                have hline := wholeLine_setting h _ value hdone
                rw [String.toList_ofList] at hline
                obtain ⟨before, after, hsplit⟩ := hline
                refine absurd ?_ (no_line_end before after ha hb)
                rw [List.append_assoc] at hsplit
                exact hsplit ▸ hbefore

end Refused

/-! ## Every split -/

namespace Devices

/-- A line opened by `head` has arrived. -/
def LineArrived (reply head : List Char) (bytes : List UInt8) : Prop :=
  ∃ part, part <+: reply ∧ utf8 part <+: bytes ∧ HasLine head part

/-- A line that is a refusal has arrived. -/
def RefusalArrived (reply : List Char) (bytes : List UInt8) : Prop :=
  ∃ part, part <+: reply ∧ utf8 part <+: bytes ∧
    ∃ error, SisError.inReply (String.ofList part) = some error

/--
No read ends where a line of the request has arrived that the entry's parser takes for a
reply, and no refusal has.
-/
def Unmistaken (entry : CatalogEntry) (reply : List Char) (reads : List (List UInt8)) : Prop :=
  ∀ head, entry.takes = some head → ∀ seen, seen <+: reads → seen ≠ reads →
    LineArrived reply head seen.flatten → RefusalArrived reply seen.flatten

/-- The refusal with these digits. -/
def refusal (a b : Char) : SisError := ⟨UInt8.ofNat (digitsValue [a, b])⟩

section Refused

variable {entry : CatalogEntry} {instr : Instruction} {echoes : Bool} {a b : Char}

/-- The first refusal of the whole reply is the request's, if it has one, and else the device's. -/
theorem inReply_refusedReply (ha : a.isDigit = true) (hb : b.isDigit = true) :
    SisError.inReply (String.ofList (refusedReply instr echoes a b)) =
      (SisError.inReply (String.ofList (if echoes then instr.requestLine else []))).or
        (some (refusal a b)) := by
  have hrefusal : (SisError.completeLines ['E', a, b, cr, lf]).findSome? SisError.ofLine =
      some (refusal a b) := by
    have hacr : a ≠ cr := by rintro rfl; exact absurd ha (by decide)
    have hbcr : b ≠ cr := by rintro rfl; exact absurd hb (by decide)
    have hline : cr ∉ ['E', a, b] := by
      simp only [List.mem_cons, List.not_mem_nil, or_false, not_or]
      exact ⟨by decide, hacr.symm, hbcr.symm⟩
    rw [show ['E', a, b, cr, lf] = ['E', a, b] ++ cr :: lf :: [] from rfl,
      completeLines_line hline, List.findSome?_cons]
    simp only [SisError.ofLine, ha, hb, Bool.and_self, if_true, refusal]
  simp only [SisError.inReply, String.toList_ofList, refusedReply]
  cases echoes with
  | false => exact hrefusal
  | true =>
      simp only [if_true, Instruction.requestLine]
      generalize (if instr.payload.toList.getLast? = some cr then instr.payload.toList.dropLast
        else instr.payload.toList) = body
      obtain ⟨line, lines, hbody, hrest⟩ := completeLines_append body
      rw [List.append_assoc, show [cr, lf] ++ ['E', a, b, cr, lf] = cr :: lf :: ['E', a, b, cr, lf]
        from rfl, hrest, hbody, List.findSome?_append, hrefusal]

/-- What is looked at of the reply is what the definitions above speak of. -/
theorem lineArrived_iff {reply head : List Char} {bytes : List UInt8} (h : bytes <+: utf8 reply) :
    LineArrived reply head bytes ↔ HasLine head (validPrefix bytes).toList := by
  obtain ⟨harrived, hlongest⟩ := validPrefix_spec bytes
  refine ⟨?_, fun hline => ⟨_, validPrefix_begins h, harrived, hline⟩⟩
  rintro ⟨part, -, hbytes, hline⟩
  obtain ⟨more, hmore⟩ := hlongest part hbytes
  exact hmore ▸ hline.mono

theorem refusalArrived_iff {reply : List Char} {bytes : List UInt8} (h : bytes <+: utf8 reply) :
    RefusalArrived reply bytes ↔ ∃ error, SisError.inReply (validPrefix bytes) = some error := by
  obtain ⟨harrived, hlongest⟩ := validPrefix_spec bytes
  refine ⟨?_, fun ⟨error, herror⟩ => ⟨_, validPrefix_begins h, harrived, error, ?_⟩⟩
  · rintro ⟨part, -, hbytes, error, herror⟩
    have hmono := inReply_mono (hlongest part hbytes) herror
    rw [String.ofList_toList] at hmono
    exact ⟨error, hmono⟩
  · rw [String.ofList_toList]
    exact herror

/-- Before the whole reply is there, the parser is done exactly when a line it takes has arrived. -/
theorem done_iff_lineArrived (h : entry.instruction = .ok instr) (ha : a.isDigit = true)
    (hb : b.isDigit = true) {bytes : List UInt8}
    (hpart : bytes <+: utf8 (refusedReply instr echoes a b))
    (hne : bytes ≠ utf8 (refusedReply instr echoes a b)) :
    instr.parseStep (validPrefix bytes) ≠ .needMore ↔
      ∃ head, entry.takes = some head ∧
        LineArrived (refusedReply instr echoes a b) head bytes := by
  cases htakes : entry.takes with
  | none =>
      have hbegins := validPrefix_begins hpart
      have hpartial : (validPrefix bytes).toList ≠ refusedReply instr echoes a b := by
        intro hall
        have harrived := (validPrefix_spec bytes).1
        rw [hall] at harrived
        exact hne (hpart.eq_of_length_le harrived.length_le)
      have hmore := needMore_of_takes_none h htakes ha hb hbegins hpartial
      rw [String.ofList_toList] at hmore
      exact ⟨fun hdone => absurd hmore hdone, fun ⟨head, hhead, _⟩ => by cases hhead⟩
  | some head =>
      rw [ne_eq, needMore_iff_hasLine h htakes, not_not, ← lineArrived_iff hpart]
      refine ⟨fun hline => ⟨head, rfl, hline⟩, ?_⟩
      rintro ⟨other, hother, hline⟩
      obtain rfl := Option.some.inj hother
      exact hline

theorem parseReply_refused {bytes : List UInt8} {error : SisError}
    (h : SisError.inReply (validPrefix bytes) = some error) :
    parseReply instr bytes = some (.error (.rejected instr.name error)) := by
  simp only [parseReply, h]

/-- What is returned is the first refusal there is, or what the parser is done with. -/
theorem parseReply_some {bytes : List UInt8} {outcome : Except ControllerError Value}
    (h : parseReply instr bytes = some outcome) :
    (∃ error, SisError.inReply (validPrefix bytes) = some error ∧
        outcome = .error (.rejected instr.name error)) ∨
      SisError.inReply (validPrefix bytes) = none ∧
        ∃ value, instr.parseStep (validPrefix bytes) = .done value ∧ outcome = .ok value := by
  unfold parseReply at h
  dsimp only at h
  split at h
  · rename_i error herror
    exact .inl ⟨error, herror, (Option.some.inj h).symm⟩
  · rename_i hnone
    split at h
    · rename_i value hvalue
      exact .inr ⟨hnone, value, hvalue, (Option.some.inj h).symm⟩
    · cases h

/-- A refusal that is found is the first of the whole reply. -/
theorem inReply_first {bytes : List UInt8} {error : SisError}
    (hbytes : bytes <+: utf8 (refusedReply instr echoes a b))
    (herror : SisError.inReply (validPrefix bytes) = some error) :
    SisError.inReply (String.ofList (refusedReply instr echoes a b)) = some error := by
  refine inReply_mono (validPrefix_begins hbytes) ?_
  rw [String.ofList_toList]
  exact herror

variable {reads : List (List UInt8)}

/-- The bytes up to a read, as the loop adds them up. -/
theorem flatten_read {before after : List (List UInt8)} {chunk bytes : List UInt8}
    (hsplit : (before ++ chunk :: after).flatten = bytes) : before.flatten ++ chunk <+: bytes := by
  rw [← hsplit]
  exact ⟨after.flatten, by rw [List.flatten_append, List.flatten_cons, List.append_assoc]⟩

/-- No line that the parser takes arrives before the refusal that is returned. -/
theorem unmistaken_of_rejected (h : entry.instruction = .ok instr) (ha : a.isDigit = true)
    (hb : b.isDigit = true) (hne : ∀ chunk ∈ reads, chunk ≠ [])
    (hsplit : reads.flatten = utf8 (refusedReply instr echoes a b)) {error : SisError}
    {later : List ChannelRead} (hrun : exchange instr (.ok ()) (reads.map .ok) =
      some (.error (.rejected instr.name error), later)) :
    SisError.inReply (String.ofList (refusedReply instr echoes a b)) = some error ∧
      Unmistaken entry (refusedReply instr echoes a b) reads := by
  obtain ⟨before, chunk, after, rfl, -, hnone, hsome⟩ := (exchangeLoop_iff hne).mp hrun
  have hread := flatten_read hsplit
  rw [List.nil_append] at hsome
  rcases parseReply_some hsome with ⟨error', herror, heq⟩ | ⟨-, value, -, heq⟩
  case inr => cases heq
  obtain ⟨-, rfl⟩ := ControllerError.rejected.inj (Except.error.inj heq)
  refine ⟨inReply_first hread herror, ?_⟩
  intro head htakes seen hbegins hpartial hline
  have hbytes := seen_begins hsplit hbegins
  rw [refusalArrived_iff hbytes]
  rcases seen_before_or_after hbegins with hshort | ⟨more, rfl⟩
  · -- after an earlier read nothing was returned, so the parser was not done
    by_cases hnil : seen = []
    · obtain ⟨part, -, hpart, hline⟩ := hline
      rw [hnil, List.flatten_nil, List.prefix_nil] at hpart
      obtain ⟨before, line, after, rfl, -⟩ := hline
      exact absurd hpart (utf8_ne_nil (by simp))
    · have hparse := hnone seen hnil hshort
      have hdone := (done_iff_lineArrived h ha hb hbytes
        (seen_ne hne hsplit hbegins hpartial)).mpr ⟨head, htakes, hline⟩
      rw [List.nil_append, parseReply] at hparse
      split at hparse
      · cases hparse
      · split at hparse
        · cases hparse
        · rename_i hmore
          exact absurd hmore hdone
  · -- and after a later one the refusal was there
    have hmono : before.flatten ++ chunk <+: (before ++ [chunk] ++ more).flatten := by
      rw [List.flatten_append, List.flatten_append, List.flatten_singleton]
      exact List.prefix_append _ _
    have hstill := @inReply_mono _ _ (validPrefix_mono hmono) error
      (by rw [String.ofList_toList]; exact herror)
    rw [String.ofList_toList] at hstill
    exact ⟨error, hstill⟩

/-- If the refusal is there whenever the parser could be done, it is returned. -/
theorem rejected_of_unmistaken (h : entry.instruction = .ok instr) (ha : a.isDigit = true)
    (hb : b.isDigit = true) (hne : ∀ chunk ∈ reads, chunk ≠ [])
    (hsplit : reads.flatten = utf8 (refusedReply instr echoes a b)) {error : SisError}
    (hfirst : SisError.inReply (String.ofList (refusedReply instr echoes a b)) = some error)
    (hunmistaken : Unmistaken entry (refusedReply instr echoes a b) reads) :
    ∃ later, exchange instr (.ok ()) (reads.map .ok) =
      some (.error (.rejected instr.name error), later) := by
  have hwhole : SisError.inReply (validPrefix reads.flatten) = some error := by
    rw [hsplit, ← hfirst, ← validPrefix_utf8 (refusedReply instr echoes a b),
      String.ofList_toList, validPrefix_utf8]
  cases hrun : exchange instr (.ok ()) (reads.map .ok) with
  | none =>
      have hne' : reads ≠ [] := by
        rintro rfl
        exact utf8_ne_nil (by simp [refusedReply]) hsplit.symm
      have hnone := exchangeLoop_none hne hrun hne' (List.prefix_refl reads)
      rw [List.nil_append, parseReply_refused hwhole] at hnone
      cases hnone
  | some result =>
      obtain ⟨outcome, later⟩ := result
      obtain ⟨before, chunk, after, rfl, -, -, hsome⟩ := (exchangeLoop_iff hne).mp hrun
      have hread := flatten_read hsplit
      have hflatten : (before ++ [chunk]).flatten = before.flatten ++ chunk := by
        rw [List.flatten_append, List.flatten_singleton]
      rw [List.nil_append] at hsome
      rcases parseReply_some hsome with ⟨found, hfound, rfl⟩ | ⟨hnone, value, hvalue, rfl⟩
      · have hsame := inReply_first hread hfound
        rw [hfirst] at hsame
        obtain rfl := Option.some.inj hsame
        exact ⟨later, rfl⟩
      · -- a value before the whole reply is there is a line taken for one
        exfalso
        have hbegins : before ++ [chunk] <+: before ++ chunk :: after :=
          ⟨after, by rw [List.append_assoc]; rfl⟩
        have hpartial : before ++ [chunk] ≠ before ++ chunk :: after := by
          intro heq
          rw [← heq, hflatten, hnone] at hwhole
          cases hwhole
        have hpart := seen_ne hne hsplit hbegins hpartial
        rw [hflatten] at hpart
        obtain ⟨head, htakes, hline⟩ := (done_iff_lineArrived h ha hb hread hpart).mp
          (by rw [hvalue]; simp)
        have harrived := hunmistaken head htakes (before ++ [chunk]) hbegins hpartial
        rw [hflatten, refusalArrived_iff hread] at harrived
        obtain ⟨found, hfound⟩ := harrived hline
        rw [hnone] at hfound
        cases hfound

/--
**Exactly when a refusal is reported.** Whatever the instruction, and whether or not its
request is echoed, the exchange returns the device's refusal unless the request holds
another refusal as a line of its own, or a read ends where the parser takes the request.
-/
theorem rejected_iff_unmistaken (h : entry.instruction = .ok instr) (ha : a.isDigit = true)
    (hb : b.isDigit = true) (hne : ∀ chunk ∈ reads, chunk ≠ [])
    (hsplit : reads.flatten = utf8 (refusedReply instr echoes a b)) :
    (∃ later, exchange instr (.ok ()) (reads.map .ok) =
        some (.error (.rejected instr.name (refusal a b)), later)) ↔
      (∀ error, SisError.inReply (String.ofList (if echoes then instr.requestLine else [])) =
          some error → error = refusal a b) ∧
        Unmistaken entry (refusedReply instr echoes a b) reads := by
  have hreply := @inReply_refusedReply instr echoes a b ha hb
  refine ⟨?_, ?_⟩
  · rintro ⟨later, hrun⟩
    obtain ⟨hfirst, hunmistaken⟩ := unmistaken_of_rejected h ha hb hne hsplit hrun
    refine ⟨fun error hown => ?_, hunmistaken⟩
    rw [hreply, hown] at hfirst
    exact Option.some.inj hfirst
  · rintro ⟨hown, hunmistaken⟩
    refine rejected_of_unmistaken h ha hb hne hsplit ?_ hunmistaken
    rw [hreply]
    cases hrequest : SisError.inReply
        (String.ofList (if echoes then instr.requestLine else [])) with
    | none => rfl
    | some error => rw [hown error hrequest]; rfl

end Refused

/-- A start of a recording, echoed and refused, in three reads. -/
theorem rejected_start :
    ∃ later, exchange Command.start.instruction (.ok ())
      ([utf8 "\x1bY1RCDR\r".toList, utf8 "\nE1".toList, utf8 "4\r\n".toList].map .ok) =
        some (.error (.rejected "STARTRECORDING" (refusal '1' '4')), later) := by
  refine (@rejected_iff_unmistaken (.command .start) _ true '1' '4' _ rfl rfl rfl
    (by decide +kernel) (by decide +kernel)).mpr ⟨fun error h => ?_, fun head htakes => ?_⟩
  · cases h
  · cases htakes

/-- A unit's name, asked for and refused, and read as the request's own echo. -/
theorem refusal_missed :
    exchange Query.unitName.instruction (.ok ())
        ([utf8 "\x1bCN\r\n".toList, utf8 "E24\r\n".toList].map .ok) =
      some (.ok (.text "\x1bCN"), [.ok (utf8 "E24\r\n".toList)]) ∧
    utf8 "\x1bCN\r\n".toList ++ utf8 "E24\r\n".toList =
      utf8 (refusedReply Query.unitName.instruction true '2' '4') := by
  refine ⟨?_, by decide +kernel⟩
  decide +kernel

end Devices

end Sismatic
