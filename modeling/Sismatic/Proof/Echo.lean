import Sismatic.Proof.Framing

/-!
# What a request's own echo can be taken for

A device may send the request back before it answers, so a write's parser runs over
the request's own bytes first, at every offset of them. An addressed setting waits
for a head the request cannot contain. The other two kinds do not: an unaddressed
setting waits for its verb, which its request ends with, and a register waits for a
head that the text being written may contain.
-/

namespace Sismatic

/-- What comes back of a request: the payload, and the line feed after its return. -/
def Instruction.echo (instr : Instruction) : String := instr.payload ++ String.singleton lf

/-- No initial part of its own echo answers the instruction. -/
def Silent (instr : Instruction) : Prop :=
  ∀ buffer : String, buffer.toList <+: instr.echo.toList → instr.parseStep buffer = .needMore

/-! ## What a parser has read when it succeeds -/

theorem literalChars_ok {tag input rest : List Char} :
    literalChars tag input = .ok ((), rest) ↔ input = tag ++ rest := by
  induction tag generalizing input with
  | nil =>
      simp only [literalChars, Except.ok.injEq, Prod.mk.injEq, true_and, List.nil_append]
  | cons t tag ih =>
      cases input with
      | nil => simp [literalChars]
      | cons c input =>
          by_cases h : c = t
          · simp [literalChars, h, ih]
          · simp [literalChars, h]

theorem literalChars_ne_cut {tag input : List Char} : literalChars tag input ≠ .error .cut := by
  induction tag generalizing input with
  | nil => simp [literalChars]
  | cons t tag ih =>
      cases input with
      | nil => simp [literalChars]
      | cons c input =>
          by_cases h : c = t
          · simp [literalChars, h, ih]
          · simp [literalChars, h]

/-- `takeWhile0` stops at the first character that fails the test, which must be there. -/
theorem takeWhile0_ok {p : Char → Bool} {input : List Char} {v : String} {rest : List Char} :
    takeWhile0 p input = .ok (v, rest) ↔
      input = v.toList ++ rest ∧ (∀ c ∈ v.toList, p c = true) ∧
        ∃ c rest', rest = c :: rest' ∧ ¬ p c := by
  have hsplit := List.takeWhile_append_dropWhile (p := p) (l := input)
  refine ⟨?_, ?_⟩
  · intro h
    unfold takeWhile0 at h
    cases hdrop : input.dropWhile p with
    | nil => rw [hdrop] at h; cases h
    | cons c rest' =>
        rw [hdrop] at h
        simp only [Except.ok.injEq, Prod.mk.injEq] at h
        obtain ⟨rfl, rfl⟩ := h
        have hc : ¬ p c := by
          have hhead := List.head?_dropWhile_not p input
          rw [hdrop] at hhead
          simpa using hhead
        rw [String.toList_ofList]
        refine ⟨?_, ?_, c, rest', rfl, hc⟩
        · rw [← hdrop, hsplit]
        · intro d hd
          exact List.all_eq_true.mp List.all_takeWhile d hd
  · intro h
    obtain ⟨rfl, hall, c, rest', rfl, hc⟩ := h
    have hdrop : (v.toList ++ c :: rest').dropWhile p = c :: rest' := by
      rw [List.dropWhile_append_of_pos hall, List.dropWhile_cons_of_neg hc]
    have htake : (v.toList ++ c :: rest').takeWhile p = v.toList := by
      rw [List.takeWhile_append_of_pos hall, List.takeWhile_cons_of_neg hc, List.append_nil]
    simp only [takeWhile0, hdrop, htake, String.ofList_toList]

/-- A search that is done succeeded at some offset. -/
theorem search_done {α : Type} {core : Parser α} {buffer : List Char} {value : α}
    (h : search core buffer = .done value) :
    ∃ before input rest, buffer = before ++ input ∧ core input = .ok (value, rest) := by
  induction buffer with
  | nil => cases h
  | cons c buffer ih =>
      simp only [search] at h
      cases hcore : core (c :: buffer) with
      | ok r =>
          obtain ⟨v, rest⟩ := r
          rw [hcore] at h
          cases h
          exact ⟨[], c :: buffer, rest, rfl, hcore⟩
      | error e =>
          rw [hcore] at h
          cases e with
          | cut => cases h
          | incomplete =>
              obtain ⟨before, input, rest, rfl, hok⟩ := ih h
              exact ⟨c :: before, input, rest, rfl, hok⟩
          | backtrack =>
              obtain ⟨before, input, rest, rfl, hok⟩ := ih h
              exact ⟨c :: before, input, rest, rfl, hok⟩

/-- A parser that never commits is done as soon as some offset succeeds. -/
theorem search_of_ok {α : Type} {core : Parser α} (hcut : ∀ input, core input ≠ .error .cut)
    (before : List Char) {input : List Char} (hne : input ≠ []) {r : α × List Char}
    (h : core input = .ok r) :
    ∃ value, search core (before ++ input) = .done value := by
  induction before with
  | nil =>
      obtain ⟨c, input, rfl⟩ := List.exists_cons_of_ne_nil hne
      exact ⟨r.1, by simp only [List.nil_append, search, h]⟩
  | cons c before ih =>
      simp only [List.cons_append, search]
      cases hcore : core (c :: (before ++ input)) with
      | ok r' => exact ⟨r'.1, rfl⟩
      | error e =>
          cases e with
          | cut => exact absurd hcore (hcut _)
          | incomplete => exact ih
          | backtrack => exact ih

/-! ## The line both plain echoes wait for -/

/-- `head`, then text up to the return and the line feed. -/
def echoLine (head : String) : Parser String := do
  literal head
  let v ← takeWhile0 isNotCr
  literal "\r\n"
  pure v

theorem settingEcho_eq (verb : String) : settingEcho verb = parserOf (echoLine verb) .text := rfl

theorem settableEcho_eq (reg : String) :
    settableEcho reg = parserOf (echoLine (rcdrLower ++ reg ++ "*")) .text := rfl

theorem not_isNotCr {c : Char} : ¬ isNotCr c ↔ c = cr := by
  simp [isNotCr]

theorem all_isNotCr {cs : List Char} : (∀ c ∈ cs, isNotCr c = true) ↔ cr ∉ cs := by
  simp only [isNotCr, bne_iff_ne, ne_eq]
  exact ⟨fun h hcr => h cr hcr rfl, fun h c hc heq => h (heq ▸ hc)⟩

theorem bind_ok {α β : Type} {p : Parser α} {f : α → Parser β} {input : List Char}
    {r : β × List Char} :
    (p >>= f) input = .ok r ↔ ∃ a rest, p input = .ok (a, rest) ∧ f a rest = .ok r := by
  simp only [bind, StateT.bind, Except.bind]
  cases hp : p input with
  | error e => simp
  | ok ar =>
      obtain ⟨a, rest⟩ := ar
      simp

theorem bind_ne_cut {α β : Type} {p : Parser α} {f : α → Parser β}
    (hp : ∀ input, p input ≠ .error .cut) (hf : ∀ a input, f a input ≠ .error .cut)
    (input : List Char) : (p >>= f) input ≠ .error .cut := by
  simp only [bind, StateT.bind, Except.bind]
  cases hinput : p input with
  | error e =>
      rintro ⟨⟩
      exact hp input hinput
  | ok ar => exact hf ar.1 ar.2

theorem takeWhile0_ne_cut {p : Char → Bool} {input : List Char} :
    takeWhile0 p input ≠ .error .cut := by
  unfold takeWhile0
  split <;> simp

theorem echoLine_ok {head : String} {input : List Char} {v : String} {rest : List Char} :
    echoLine head input = .ok (v, rest) ↔
      input = head.toList ++ v.toList ++ cr :: lf :: rest ∧ cr ∉ v.toList := by
  unfold echoLine
  simp only [bind_ok, literal]
  refine ⟨?_, ?_⟩
  · intro h
    obtain ⟨_, rest₁, hhead, v', rest₂, htake, _, rest₃, hend, hpure⟩ := h
    obtain ⟨rfl, rfl⟩ := Prod.mk.inj (Except.ok.inj hpure)
    obtain ⟨rfl, hall, -⟩ := takeWhile0_ok.mp htake
    obtain rfl := literalChars_ok.mp hhead
    obtain rfl := literalChars_ok.mp hend
    refine ⟨?_, all_isNotCr.mp hall⟩
    rw [List.append_assoc]
    rfl
  · intro h
    obtain ⟨rfl, hcr⟩ := h
    have htake : takeWhile0 isNotCr (v.toList ++ cr :: lf :: rest) = .ok (v, cr :: lf :: rest) :=
      takeWhile0_ok.mpr ⟨rfl, all_isNotCr.mpr hcr, cr, lf :: rest, rfl, not_isNotCr.mpr rfl⟩
    refine ⟨(), v.toList ++ cr :: lf :: rest, ?_, v, cr :: lf :: rest, htake, (), rest, ?_, rfl⟩
    · rw [literalChars_ok, List.append_assoc]
    · exact literalChars_ok.mpr rfl

theorem echoLine_ne_cut (head : String) (input : List Char) :
    echoLine head input ≠ .error .cut := by
  refine bind_ne_cut (fun _ => literalChars_ne_cut) (fun _ => ?_) input
  refine bind_ne_cut (fun _ => takeWhile0_ne_cut) (fun v => ?_)
  refine bind_ne_cut (fun _ => literalChars_ne_cut) (fun _ input h => ?_)
  cases h

/-- A whole line that `head` opens: text without a return, and its end. -/
def HasLine (head buffer : List Char) : Prop :=
  ∃ before line after, buffer = before ++ head ++ line ++ cr :: lf :: after ∧ cr ∉ line

/-- A line in a part of the buffer is a line in the buffer. -/
theorem HasLine.mono {head buffer more : List Char} (h : HasLine head buffer) :
    HasLine head (buffer ++ more) := by
  obtain ⟨before, line, after, rfl, hcr⟩ := h
  exact ⟨before, line, after ++ more, by simp, hcr⟩

theorem parserOf_needMore {α : Type} {core : Parser α} {wrap : α → Value} {buffer : String} :
    parserOf core wrap buffer = .needMore ↔ ∀ value, search core buffer.toList ≠ .done value := by
  unfold parserOf
  cases search core buffer.toList <;> simp

theorem echoLine_needMore {head buffer : String} :
    parserOf (echoLine head) .text buffer = .needMore ↔ ¬ HasLine head.toList buffer.toList := by
  rw [parserOf_needMore]
  refine ⟨?_, ?_⟩
  · intro h hline
    obtain ⟨before, line, after, heq, hcr⟩ := hline
    have hok : echoLine head (head.toList ++ line ++ cr :: lf :: after) =
        .ok (String.ofList line, after) :=
      echoLine_ok.mpr (by rw [String.toList_ofList]; exact ⟨rfl, hcr⟩)
    obtain ⟨value, hdone⟩ :=
      search_of_ok (echoLine_ne_cut head) before (by simp) hok
    refine h value ?_
    rw [heq, ← hdone]
    simp only [List.append_assoc]
  · intro h value hdone
    obtain ⟨before, input, rest, heq, hok⟩ := search_done hdone
    obtain ⟨rfl, hcr⟩ := echoLine_ok.mp hok
    exact h ⟨before, value.toList, rest, by rw [heq]; simp only [List.append_assoc], hcr⟩

/-- The parser is fooled by some part of an echo exactly if the whole echo fools it. -/
theorem silent_iff {instr : Instruction} {head : String}
    (hparse : instr.parseStep = parserOf (echoLine head) .text) :
    Silent instr ↔ ¬ HasLine head.toList instr.echo.toList := by
  unfold Silent
  rw [hparse]
  refine ⟨fun h => echoLine_needMore.mp (h instr.echo (List.prefix_refl _)), ?_⟩
  intro h buffer hbegins
  rw [echoLine_needMore]
  intro hline
  obtain ⟨more, hmore⟩ := hbegins
  exact h (hmore ▸ hline.mono)

/-! ## Settings -/

/-- What a setting sends and waits for, in each of its two forms. -/
theorem setting_cases {setting : Setting} {value : String} {instr : Instruction}
    (h : setting.instruction value = .ok instr) :
    ∃ encoded, encode setting.shape value = .ok encoded ∧
      ((setting.form = .prefixed ∧ instr.parseStep = settingEcho setting.verb ∧
          instr.payload =
            String.singleton esc ++ encoded ++ setting.verb ++ String.singleton cr) ∨
        ∃ addr, setting.form = .addressed addr ∧
          instr.parseStep = addressedEcho setting.verb addr ∧
          instr.payload = String.singleton esc ++ addr ++ "*" ++ encoded ++ setting.verb ++
            String.singleton cr) := by
  unfold Setting.instruction at h
  cases hencode : encode setting.shape value with
  | error e => rw [hencode] at h; cases h
  | ok encoded =>
      rw [hencode] at h
      simp only [bind, Except.bind] at h
      refine ⟨encoded, rfl, ?_⟩
      cases hform : setting.form with
      | prefixed =>
          rw [hform] at h
          obtain rfl := Except.ok.inj h
          exact Or.inl ⟨rfl, rfl, rfl⟩
      | addressed addr =>
          rw [hform] at h
          obtain rfl := Except.ok.inj h
          exact Or.inr ⟨addr, rfl, rfl, rfl⟩

/-- The request of an unaddressed setting ends with the head its parser waits for. -/
theorem not_silent_prefixed {instr : Instruction} {verb : String} (before : String)
    (hparse : instr.parseStep = settingEcho verb)
    (hpayload : instr.payload = before ++ verb ++ String.singleton cr) : ¬ Silent instr := by
  rw [silent_iff (hparse.trans (settingEcho_eq verb)), not_not]
  refine ⟨before.toList, [], [], ?_, List.not_mem_nil⟩
  simp [Instruction.echo, hpayload]

/-- A character outside `tail` was before it. -/
theorem split_before {start tail before after : List Char} {c : Char}
    (h : start ++ tail = before ++ c :: after) (hc : c ∉ tail) :
    ∃ more, start = before ++ c :: more ∧ after = more ++ tail := by
  rcases List.append_eq_append_iff.mp h with ⟨as, hbefore, htail⟩ | ⟨bs, hstart, hafter⟩
  · exact absurd (htail ▸ List.mem_append_right as List.mem_cons_self) hc
  · cases bs with
    | nil =>
        rw [List.nil_append] at hafter
        exact absurd (hafter ▸ List.mem_cons_self) hc
    | cons b bs =>
        obtain ⟨rfl, rfl⟩ := List.cons.inj hafter
        exact ⟨bs, hstart, rfl⟩

/-- A character outside `start` is after it. -/
theorem split_after {start tail before after : List Char} {c : Char}
    (h : start ++ tail = before ++ c :: after) (hc : c ∉ start) :
    ∃ more, before = start ++ more ∧ tail = more ++ c :: after := by
  rcases List.append_eq_append_iff.mp h with ⟨as, hbefore, htail⟩ | ⟨bs, hstart, hafter⟩
  · exact ⟨as, hbefore, htail⟩
  · cases bs with
    | nil =>
        rw [List.append_nil] at hstart
        exact ⟨[], by rw [hstart, List.append_nil], hafter.symm⟩
    | cons b bs =>
        obtain ⟨rfl, rfl⟩ := List.cons.inj hafter
        exact absurd (hstart ▸ List.mem_append_right before List.mem_cons_self) hc

/-- What stands before the first of a character, and behind it. -/
theorem split_first {a b s t : List Char} {c : Char} (h : a ++ c :: s = b ++ c :: t) (ha : c ∉ a)
    (hb : c ∉ b) : a = b ∧ s = t := by
  obtain ⟨more, rfl, hmore⟩ := split_after h ha
  cases more with
  | nil => exact ⟨(List.append_nil a).symm, (List.cons.inj hmore).2⟩
  | cons d more =>
      obtain ⟨rfl, -⟩ := List.cons.inj hmore
      exact absurd (List.mem_append_right a List.mem_cons_self) hb

/-- A parser leaves an end of what it was given. -/
def Reads {α : Type} (p : Parser α) : Prop :=
  ∀ input a rest, p input = .ok (a, rest) → rest <:+ input

theorem Reads.bind {α β : Type} {p : Parser α} {f : α → Parser β} (hp : Reads p)
    (hf : ∀ a, Reads (f a)) : Reads (p >>= f) := by
  intro input b rest h
  obtain ⟨a, rest₁, h₁, h₂⟩ := bind_ok.mp h
  exact (hf a _ _ _ h₂).trans (hp _ _ _ h₁)

theorem reads_pure {α : Type} (a : α) : Reads (pure a) := by
  intro input b rest h
  obtain ⟨rfl, rfl⟩ := Prod.mk.inj (Except.ok.inj h)
  exact List.suffix_refl _

theorem reads_literal (tag : String) : Reads (literal tag) := by
  intro input a rest h
  obtain rfl := literalChars_ok.mp h
  exact List.suffix_append _ _

theorem reads_takeWhile1 (p : Char → Bool) : Reads (takeWhile1 p) := by
  intro input v rest h
  have hsuffix := List.dropWhile_suffix p (l := input)
  unfold takeWhile1 at h
  cases hdrop : input.dropWhile p with
  | nil => rw [hdrop] at h; cases h
  | cons c rest' =>
      rw [hdrop] at h hsuffix
      by_cases hnil : input.takeWhile p = []
      · simp only [hnil, if_true] at h
        cases h
      · simp only [hnil, if_false, Except.ok.injEq, Prod.mk.injEq] at h
        exact h.2 ▸ hsuffix

theorem AddressPart.reads (n : Nat) (part : AddressPart) : Reads (part.parse n) := by
  obtain ⟨letters, index⟩ := part
  have hletters : ∀ p : Parser Unit, Reads p → Reads (do
      if 0 < n then literal "*"
      if letters ≠ "" then literal letters
      p) := by
    intro p hp
    dsimp only
    split
    · refine Reads.bind (reads_literal _) fun _ => ?_
      split
      · exact Reads.bind (reads_literal _) fun _ => hp
      · exact hp
    · split
      · exact Reads.bind (reads_literal _) fun _ => hp
      · exact hp
  cases index with
  | none => exact hletters _ (reads_pure _)
  | some expected =>
      refine hletters _ (Reads.bind (reads_takeWhile1 _) fun digits => ?_)
      split
      · intro input a rest h
        cases h
      · exact reads_pure _

theorem reads_forM {α : Type} {f : α → Parser Unit} (hf : ∀ a, Reads (f a)) (as : List α) :
    Reads (as.forM f) := by
  induction as with
  | nil => exact reads_pure _
  | cons a as ih => exact Reads.bind (hf a) fun _ => ih

/-- What an addressed parser has read opens with its head and has a `*` after it. -/
theorem addressedEcho_done {verb addr buffer : String} {value : Value}
    (h : addressedEcho verb addr buffer = .done value) :
    ∃ before middle after,
      buffer.toList = before ++ (echoed verb).toList ++ middle ++ '*' :: after := by
  unfold addressedEcho parserOf at h
  dsimp only at h
  split at h
  case h_2 => cases h
  case h_1 v hdone =>
    obtain ⟨before, input, rest, heq, hok⟩ := search_done hdone
    obtain ⟨_, rest₁, hhead, hok⟩ := bind_ok.mp hok
    obtain ⟨_, rest₂, hparts, hok⟩ := bind_ok.mp hok
    obtain ⟨_, rest₃, hstar, -⟩ := bind_ok.mp hok
    obtain rfl := literalChars_ok.mp hhead
    obtain rfl := literalChars_ok.mp hstar
    -- the components lie between the head and the separator
    obtain ⟨middle, rfl⟩ := reads_forM (fun part => part.1.reads part.2) _ _ _ _ hparts
    refine ⟨before, middle, rest₃, ?_⟩
    rw [heq]
    simp only [List.append_assoc]
    rfl

/-- The value of an addressed setting has no separator in it. -/
theorem star_of_addressed {setting : Setting} {addr value encoded : String}
    (hform : setting.form = .addressed addr) (h : encode setting.shape value = .ok encoded) :
    '*' ∉ encoded.toList := by
  have hshape : ∀ max, setting.shape ≠ .text max := by
    intro max hmax
    cases setting <;> first | (cases hform; done) | cases hmax
  intro hstar
  exact (framed_of_encode h hshape '*' hstar).1 rfl

/-- Nothing without a separator after its own echo answers an addressed setting. -/
theorem needMore_addressed {setting : Setting} {addr value encoded : String}
    {instr : Instruction} (hform : setting.form = .addressed addr)
    (hencode : encode setting.shape value = .ok encoded)
    (hparse : instr.parseStep = addressedEcho setting.verb addr)
    (hpayload : instr.payload = String.singleton esc ++ addr ++ "*" ++ encoded ++ setting.verb ++
      String.singleton cr) {tail : List Char} (htail : '*' ∉ tail) {buffer : String}
    (hbegins : buffer.toList <+: instr.echo.toList ++ tail) :
    instr.parseStep buffer = .needMore := by
  cases hdone : instr.parseStep buffer with
  | needMore => rfl
  | done v =>
      exfalso
      rw [hparse] at hdone
      obtain ⟨before, middle, after, heq⟩ := addressedEcho_done hdone
      obtain ⟨more, hmore⟩ := hbegins
      -- the last separator of the request is the one that closes its address
      have hsplit : (esc :: addr.toList ++ ['*']) ++
          (encoded.toList ++ setting.verb.toList ++ [cr, lf] ++ tail) =
            (before ++ (echoed setting.verb).toList ++ middle) ++ '*' :: (after ++ more) := by
        have hecho : instr.echo.toList = (esc :: addr.toList ++ ['*']) ++
            (encoded.toList ++ setting.verb.toList ++ [cr, lf]) := by
          simp [Instruction.echo, hpayload]
        rw [← List.append_assoc (esc :: addr.toList ++ ['*']), ← hecho, ← hmore, heq]
        simp only [List.append_assoc, List.cons_append]
      have hno : '*' ∉ encoded.toList ++ setting.verb.toList ++ [cr, lf] ++ tail := by
        have hverb : '*' ∉ setting.verb.toList ++ [cr, lf] := by
          cases setting <;> decide
        rw [List.mem_append, List.append_assoc, List.mem_append]
        exact not_or_intro (not_or_intro (star_of_addressed hform hencode) hverb) htail
      have hhead : ((echoed setting.verb).toList.any
          fun c => !(esc :: addr.toList ++ ['*']).contains c) = true := by
        cases setting <;> cases hform <;> decide
      obtain ⟨c, hc, hnotin⟩ := List.any_eq_true.mp hhead
      rw [Bool.not_eq_true', List.contains_eq_mem, decide_eq_false_iff_not] at hnotin
      obtain ⟨_, hstart, -⟩ := split_before hsplit hno
      refine hnotin (hstart ▸ ?_)
      exact List.mem_append_left _ (List.mem_append_left _ (List.mem_append_right _ hc))

theorem silent_addressed {setting : Setting} {addr value encoded : String} {instr : Instruction}
    (hform : setting.form = .addressed addr) (hencode : encode setting.shape value = .ok encoded)
    (hparse : instr.parseStep = addressedEcho setting.verb addr)
    (hpayload : instr.payload = String.singleton esc ++ addr ++ "*" ++ encoded ++ setting.verb ++
      String.singleton cr) : Silent instr := by
  intro buffer hbegins
  refine needMore_addressed hform hencode hparse hpayload List.not_mem_nil ?_
  rw [List.append_nil]
  exact hbegins

/-! ## Registers -/

/--
The text being written contains the head of the register's own reply, and after the
head no return, up to its end or up to a line end.
-/
def QuotesReply (register : Register) (value : String) : Prop :=
  ∃ before line after, (shorten value maxValueLen).toList =
      before ++ (rcdrLower ++ register.reg ++ "*").toList ++ line ++ after ∧
    cr ∉ line ∧ (after = [] ∨ [cr, lf] <+: after)

/-- The end of a register's echo, after the value. -/
def registerTail : List Char := ['R', 'C', 'D', 'R', cr, lf]

theorem register_echo (register : Register) (value : String) :
    (register.instruction value).echo.toList =
      (esc :: register.reg.toList ++ ['*']) ++ (shorten value maxValueLen).toList ++
        registerTail := by
  have hrcdr : rcdr.toList = ['R', 'C', 'D', 'R'] := by decide
  simp [Instruction.echo, Register.instruction, registerTail, hrcdr]

theorem settableHead (register : Register) :
    (rcdrLower ++ register.reg ++ "*").toList =
      'R' :: (['c', 'd', 'r'] ++ register.reg.toList) ++ ['*'] := by
  have hrcdr : rcdrLower.toList = ['R', 'c', 'd', 'r'] := by decide
  simp [hrcdr]

/-- The line a register's parser finds in the echo begins inside the value. -/
theorem quotesReply_of_hasLine {register : Register} {value : String}
    (h : HasLine (rcdrLower ++ register.reg ++ "*").toList
      (register.instruction value).echo.toList) : QuotesReply register value := by
  obtain ⟨before, line, after, heq, hcr⟩ := h
  rw [register_echo, settableHead] at heq
  -- the head ends before the tail, which has no separator
  have hend : (esc :: register.reg.toList ++ ['*']) ++ (shorten value maxValueLen).toList ++
      registerTail = (before ++ 'R' :: (['c', 'd', 'r'] ++ register.reg.toList)) ++
        '*' :: (line ++ cr :: lf :: after) := by
    rw [heq]
    simp only [List.append_assoc, List.cons_append, List.nil_append]
  obtain ⟨rest, hkept, hrest⟩ := split_before hend (by decide)
  -- and begins after the address, which has no capital `R`
  have hbegin : (esc :: register.reg.toList ++ ['*']) ++ (shorten value maxValueLen).toList =
      before ++ 'R' :: ((['c', 'd', 'r'] ++ register.reg.toList) ++ '*' :: rest) := by
    rw [hkept]
    simp only [List.append_assoc, List.cons_append]
  obtain ⟨before', -, hvalue⟩ := split_after hbegin (by cases register <;> decide)
  have hvalue' : ∀ line after, rest = line ++ after → (shorten value maxValueLen).toList =
      before' ++ (rcdrLower ++ register.reg ++ "*").toList ++ line ++ after := by
    intro line after hrest
    rw [hvalue, settableHead, hrest]
    simp only [List.append_assoc, List.cons_append, List.nil_append]
  by_cases hmem : cr ∈ rest
  · obtain ⟨line', after', hsplit, hno⟩ := List.eq_append_cons_of_mem hmem
    have hlines : line' ++ cr :: (after' ++ registerTail) = line ++ cr :: lf :: after := by
      rw [hrest, hsplit]
      simp only [List.append_assoc, List.cons_append]
    obtain ⟨more, hmore, hcons⟩ := split_after hlines hno
    have hnil : more = [] := by
      cases more with
      | nil => rfl
      | cons c more =>
          obtain ⟨rfl, -⟩ := List.cons.inj hcons
          exact absurd (hmore ▸ List.mem_append_right _ List.mem_cons_self) hcr
    rw [hnil, List.nil_append, List.cons.injEq] at hcons
    refine ⟨before', line', cr :: after', hvalue' _ _ hsplit, hno, Or.inr ?_⟩
    cases after' with
    | nil => exact absurd hcons.2 (by simp [registerTail, lf])
    | cons c after' =>
        obtain ⟨rfl, -⟩ := List.cons.inj hcons.2
        exact ⟨after', rfl⟩
  · exact ⟨before', rest, [], hvalue' _ _ (List.append_nil rest).symm, hmem, Or.inl rfl⟩

theorem hasLine_of_quotesReply {register : Register} {value : String}
    (h : QuotesReply register value) :
    HasLine (rcdrLower ++ register.reg ++ "*").toList
      (register.instruction value).echo.toList := by
  obtain ⟨before, line, after, heq, hcr, hafter⟩ := h
  rw [register_echo, heq]
  rcases hafter with rfl | ⟨more, rfl⟩
  · -- the line runs on into the verb, and ends with the request
    refine ⟨(esc :: register.reg.toList ++ ['*']) ++ before, line ++ ['R', 'C', 'D', 'R'], [],
      ?_, ?_⟩
    · simp only [registerTail, List.append_assoc, List.cons_append, List.nil_append]
    · rw [List.mem_append]
      exact not_or_intro hcr (by decide)
  · refine ⟨(esc :: register.reg.toList ++ ['*']) ++ before, line, more ++ registerTail, ?_, hcr⟩
    simp only [List.append_assoc, List.cons_append, List.nil_append]

/--
**Exactly when a write is not confirmed by its own echo.** A register's is not unless
the text written quotes the register's reply; an addressed setting's never is, and an
unaddressed setting's always.
-/
theorem silent_iff_unquoted (register : Register) (text : String) (setting : Setting)
    (value : String) :
    (Silent (register.instruction text) ↔ ¬ QuotesReply register text) ∧
      ∀ instr, setting.instruction value = .ok instr →
        (Silent instr ↔ setting.form ≠ .prefixed) := by
  refine ⟨?_, ?_⟩
  · have hparse : (register.instruction text).parseStep =
        parserOf (echoLine (rcdrLower ++ register.reg ++ "*")) .text := settableEcho_eq register.reg
    rw [silent_iff hparse]
    exact not_congr ⟨quotesReply_of_hasLine, hasLine_of_quotesReply⟩
  · intro instr h
    obtain ⟨encoded, hencode, ⟨hform, hparse, hpayload⟩ | ⟨addr, hform, hparse, hpayload⟩⟩ :=
      setting_cases h
    · exact ⟨fun hs => absurd hs (not_silent_prefixed _ hparse hpayload), fun h => absurd hform h⟩
    · refine ⟨fun _ hprefixed => ?_, fun _ => silent_addressed hform hencode hparse hpayload⟩
      rw [hform] at hprefixed
      cases hprefixed

/-- A stream's name is confirmed by the device only. -/
theorem silent_streamName :
    ∃ instr, Setting.stream2Name.instruction "Hall B" = .ok instr ∧ Silent instr := by
  have hinstr : Setting.stream2Name.instruction "Hall B" = .ok {
      name := "STREAM_2_NAME"
      payload := "\x1bN2*Hall BSTRC\r"
      parseStep := addressedEcho "STRC" "N2" } := rfl
  exact ⟨_, hinstr, ((silent_iff_unquoted .title "" .stream2Name "Hall B").2 _ hinstr).mpr
    (by decide)⟩

/-- A unit's name is confirmed by the request that sets it. -/
theorem unitName_confirms_itself :
    ∃ instr, Setting.unitName.instruction "Hall B" = .ok instr ∧
      instr.payload = "\x1bHall BCN\r" ∧ instr.parseStep "\x1bHall BCN\r\n" = .done (.text "") ∧
        ¬ Silent instr := by
  have hinstr : Setting.unitName.instruction "Hall B" = .ok {
      name := "UNIT_NAME"
      payload := "\x1bHall BCN\r"
      parseStep := settingEcho "CN" } := rfl
  refine ⟨_, hinstr, rfl, rfl, ?_⟩
  exact not_silent_prefixed "\x1bHall B" rfl (by decide)

end Sismatic
