import Sismatic.Core.Instructions

/-!
# When a payload is one message

A device cuts what it reads at the return, so a payload is one instruction exactly
when nothing between its escape and its return is a control character. The frames
themselves put none there. A value can: a register and the free-text settings take
it as it comes, and only the framed shapes look at its characters.
-/

namespace Sismatic

/-- Text without a control character. -/
def Printable (s : String) : Prop := ∀ c ∈ s.toList, isControl c = false

instance (s : String) : Decidable (Printable s) :=
  decidable_of_iff (s.toList.all fun c => !isControl c) (by simp [Printable])

/-- One SIS message: an escape, then nothing that could cut it, then a return. -/
def OneMessage (payload : String) : Prop :=
  ∃ body, Printable body ∧ payload = String.singleton esc ++ body ++ String.singleton cr

theorem printable_append {s t : String} : Printable (s ++ t) ↔ Printable s ∧ Printable t := by
  unfold Printable
  rw [String.toList_append]
  exact List.forall_mem_append

/-- A frame is one message if its inside is printable, and only then. -/
theorem oneMessage_frame {body : String} :
    OneMessage (String.singleton esc ++ body ++ String.singleton cr) ↔ Printable body := by
  refine ⟨?_, ?_⟩
  · intro h'
    obtain ⟨body', hbody', heq⟩ := h'
    have hlist := congrArg String.toList heq
    simp only [String.toList_append, String.toList_singleton] at hlist
    have hinside := List.append_cancel_left (List.append_cancel_right hlist)
    rw [Printable, hinside]
    exact hbody'
  · intro h
    exact ⟨body, h, rfl⟩

/-! ## The frames -/

theorem printable_reg (register : Register) : Printable register.reg := by
  cases register <;> decide

theorem printable_verb (setting : Setting) : Printable setting.verb := by
  cases setting <;> decide

theorem printable_addr {setting : Setting} {addr : String} (h : setting.form = .addressed addr) :
    Printable addr := by
  cases setting <;> cases h <;> decide

/-- A register's payload is one message exactly when the shortened value is printable. -/
theorem oneMessage_register (register : Register) (value : String) :
    OneMessage (register.instruction value).payload ↔ Printable (shorten value maxValueLen) := by
  have hframe : (register.instruction value).payload = String.singleton esc ++
      (register.reg ++ "*" ++ shorten value maxValueLen ++ rcdr) ++ String.singleton cr := by
    simp only [Register.instruction, String.append_assoc]
  have hstar : Printable "*" := by decide
  have hrcdr : Printable rcdr := by decide
  rw [hframe, oneMessage_frame]
  simp only [printable_append]
  exact ⟨fun h => h.1.2, fun h => ⟨⟨⟨printable_reg register, hstar⟩, h⟩, hrcdr⟩⟩

/-- A setting's payload frames what the encoder made of the value. -/
theorem oneMessage_setting {setting : Setting} {value : String} {instr : Instruction}
    (h : setting.instruction value = .ok instr) :
    ∃ encoded, encode setting.shape value = .ok encoded ∧
      (OneMessage instr.payload ↔ Printable encoded) := by
  unfold Setting.instruction at h
  cases hencode : encode setting.shape value with
  | error e => rw [hencode] at h; cases h
  | ok encoded =>
      rw [hencode] at h
      simp only [bind, Except.bind] at h
      refine ⟨encoded, rfl, ?_⟩
      have hverb := printable_verb setting
      -- the two frames: the value before the verb, or after an address
      cases hform : setting.form with
      | prefixed =>
          rw [hform] at h
          obtain rfl := Except.ok.inj h
          have hframe : String.singleton esc ++ encoded ++ setting.verb ++ String.singleton cr =
              String.singleton esc ++ (encoded ++ setting.verb) ++ String.singleton cr := by
            simp only [String.append_assoc]
          show OneMessage (_ ++ encoded ++ setting.verb ++ _) ↔ _
          rw [hframe, oneMessage_frame, printable_append]
          exact ⟨fun h => h.1, fun h => ⟨h, hverb⟩⟩
      | addressed addr =>
          rw [hform] at h
          obtain rfl := Except.ok.inj h
          have hframe : String.singleton esc ++ addr ++ "*" ++ encoded ++ setting.verb ++
              String.singleton cr = String.singleton esc ++
                (addr ++ "*" ++ encoded ++ setting.verb) ++ String.singleton cr := by
            simp only [String.append_assoc]
          show OneMessage (_ ++ addr ++ "*" ++ encoded ++ setting.verb ++ _) ↔ _
          rw [hframe, oneMessage_frame]
          simp only [printable_append]
          have hstar : Printable "*" := by decide
          exact ⟨fun h => h.1.2, fun h => ⟨⟨⟨printable_addr hform, hstar⟩, h⟩, hverb⟩⟩

/-! ## The encoder -/

theorem encodeText_ok {max : Nat} {value text : String} (h : encodeText max value = .ok text) :
    text = value := by
  simp only [encodeText] at h
  split at h
  · cases h
  · exact (Except.ok.inj h).symm

/-- Text that can stand between two separators of a frame. -/
def Framed (s : String) : Prop := ∀ c ∈ s.toList, c ≠ '*' ∧ isControl c = false

instance (s : String) : Decidable (Framed s) :=
  decidable_of_iff (s.toList.all fun c => c != '*' && !isControl c) (by simp [Framed])

theorem Framed.printable {s : String} (h : Framed s) : Printable s := fun c hc => (h c hc).2

/-- The framed shapes look at every character of the value. -/
theorem framed_of_encodeToken {max : Nat} {value text : String}
    (h : encodeToken max value = .ok text) : Framed text := by
  unfold encodeToken at h
  cases htext : encodeText max value with
  | error e => rw [htext] at h; cases h
  | ok text' =>
      rw [htext] at h
      simp only [bind, Except.bind] at h
      -- the first character the framed shapes refuse, if there is one
      cases hfind : text'.toList.find? fun c => c == '*' || isControl c with
      | some c => rw [hfind] at h; cases h
      | none =>
          rw [hfind] at h
          obtain rfl := Except.ok.inj h
          intro c hc
          have hno := List.find?_eq_none.mp hfind c hc
          simpa only [Bool.or_eq_true, beq_iff_eq, not_or, Bool.not_eq_true] using hno

theorem framed_of_isDigit {c : Char} (h : c.isDigit) : c ≠ '*' ∧ isControl c = false := by
  simp only [Char.isDigit, Bool.and_eq_true, decide_eq_true_eq, ge_iff_le,
    UInt32.le_iff_toNat_le] at h
  have hc : c.toNat = c.val.toNat := rfl
  have hlow : '0'.val.toNat = 48 := rfl
  have hhigh : '9'.val.toNat = 57 := rfl
  refine ⟨fun hstar => ?_, ?_⟩
  · have hvalue : c.toNat = 42 := by rw [hstar]; rfl
    omega
  · simp only [isControl, Bool.or_eq_false_iff, decide_eq_false_iff_not]
    omega

/-- Every shape but free text answers with framed text only. -/
theorem framed_of_encode {shape : Shape} {value text : String}
    (h : encode shape value = .ok text) (hshape : ∀ max, shape ≠ .text max) : Framed text := by
  cases shape with
  | flag =>
      unfold encode at h
      dsimp only at h
      split at h
      all_goals first
        | (cases h; done)
        | (obtain rfl := Except.ok.inj h; decide)
  | port =>
      unfold encode at h
      dsimp only at h
      split at h
      · rename_i p _
        obtain rfl := Except.ok.inj h
        rw [Nat.toString_eq_ofList_toDigits, Framed, String.toList_ofList]
        exact fun c hc => framed_of_isDigit (Nat.isDigit_of_mem_toDigits (by decide) (by decide) hc)
      · cases h
  | text max => exact absurd rfl (hshape max)
  | token max => exact framed_of_encodeToken h
  | url max =>
      unfold encode at h
      dsimp only at h
      cases htoken : encodeToken max value with
      | error e => rw [htoken] at h; cases h
      | ok text' =>
          rw [htoken] at h
          change (if _ then _ else _) = _ at h
          split at h
          · obtain rfl := Except.ok.inj h
            exact framed_of_encodeToken htoken
          · cases h

/--
**Exactly when a write is one message.** A register's is when the characters it keeps
of the value are printable; a setting's always is, unless it is free text, and then
when the whole value is printable.
-/
theorem oneMessage_iff_printable (value : String) :
    (∀ register : Register,
        OneMessage (register.instruction value).payload ↔ Printable (shorten value maxValueLen)) ∧
      ∀ (setting : Setting) (instr : Instruction), setting.instruction value = .ok instr →
        (OneMessage instr.payload ↔ ∀ max, setting.shape = .text max → Printable value) := by
  refine ⟨fun register => oneMessage_register register value, ?_⟩
  intro setting instr h
  obtain ⟨encoded, hencode, hiff⟩ := oneMessage_setting h
  rw [hiff]
  by_cases hshape : ∃ max, setting.shape = .text max
  · obtain ⟨max, hshape⟩ := hshape
    rw [hshape] at hencode
    obtain rfl := encodeText_ok hencode
    exact ⟨fun h _ _ => h, fun h => h max hshape⟩
  · have hprintable := (framed_of_encode hencode fun max h => hshape ⟨max, h⟩).printable
    exact ⟨fun _ max h => absurd ⟨max, h⟩ hshape, fun _ => hprintable⟩

/-- A stream's name that its encoder takes goes out as one message. -/
theorem oneMessage_streamName : OneMessage "\x1bN2*Hall BSTRC\r" := by
  have hinstr : Setting.stream2Name.instruction "Hall B" = .ok {
      name := "STREAM_2_NAME"
      payload := "\x1bN2*Hall BSTRC\r"
      parseStep := addressedEcho "STRC" "N2" } := rfl
  refine ((oneMessage_iff_printable "Hall B").2 .stream2Name _ hinstr).mpr ?_
  intro max hshape
  cases hshape

/-- A title can carry a stop: the payload is the title's and the stop's, one after the other. -/
theorem title_carries_stop :
    (Register.title.instruction "xRCDR\r\x1bY0").payload =
        (Register.title.instruction "x").payload ++ Command.stop.instruction.payload ∧
      ¬ OneMessage (Register.title.instruction "xRCDR\r\x1bY0").payload := by
  refine ⟨by decide, ?_⟩
  rw [oneMessage_register]
  decide

end Sismatic
