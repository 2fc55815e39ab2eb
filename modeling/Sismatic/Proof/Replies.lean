import Sismatic.Core.Query
import Sismatic.Proof.Echo

/-!
# A reply is read to the end of its line

Whatever instruction of the catalog is asked, its parser takes nothing for a reply before a
line has ended, and so reads all of a reply of one line.
-/

namespace Sismatic

/-- The instruction takes nothing for a reply before a line has ended. -/
def WholeLine (instr : Instruction) : Prop :=
  ∀ buffer value, instr.parseStep buffer = .done value → [cr, lf] <:+: buffer.toList

/-- What the parser was given has a line end in it. -/
def EndsLine {α : Type} (p : Parser α) : Prop :=
  ∀ input a rest, p input = .ok (a, rest) → [cr, lf] <:+: input

section Combinators

variable {α β : Type} {p : Parser α} {f : α → Parser β}

theorem endsLine_literal {f : Unit → Parser β} : EndsLine (literal "\r\n" >>= f) := by
  intro input b rest h
  obtain ⟨_, rest₁, h₁, -⟩ := bind_ok.mp h
  obtain rfl := literalChars_ok.mp h₁
  exact (List.prefix_append _ rest₁).isInfix

theorem Reads.endsLine (hp : Reads p) (hf : ∀ a, EndsLine (f a)) : EndsLine (p >>= f) := by
  intro input b rest h
  obtain ⟨a, rest₁, h₁, h₂⟩ := bind_ok.mp h
  exact (hf a _ _ _ h₂).trans (hp _ _ _ h₁).isInfix

theorem EndsLine.parserOf {core : Parser α} (h : EndsLine core) {wrap : α → Value}
    {buffer : String} {value : Value} (hdone : Sismatic.parserOf core wrap buffer = .done value) :
    [cr, lf] <:+: buffer.toList := by
  unfold Sismatic.parserOf at hdone
  split at hdone
  · rename_i a hsearch
    obtain ⟨before, input, rest, heq, hok⟩ := search_done hsearch
    rw [heq]
    exact (h input a rest hok).trans (List.suffix_append before input).isInfix
  · cases hdone

theorem reads_takeWhile0 (p : Char → Bool) : Reads (takeWhile0 p) := by
  intro input v rest h
  obtain ⟨rfl, -, -⟩ := takeWhile0_ok.mp h
  exact List.suffix_append _ _

theorem reads_oneOf (chars : List Char) : Reads (oneOf chars) := by
  intro input c rest h
  cases input with
  | nil => cases h
  | cons c' input =>
      unfold oneOf at h
      dsimp only at h
      split at h
      · obtain ⟨-, rfl⟩ := Prod.mk.inj (Except.ok.inj h)
        exact List.suffix_cons c' _
      · cases h

theorem reads_takeExactly (q : Char → Bool) (n : Nat) : Reads (takeExactly q n) := by
  intro input v rest h
  unfold takeExactly at h
  split at h
  · split at h
    · obtain ⟨-, rfl⟩ := Prod.mk.inj (Except.ok.inj h)
      exact List.drop_suffix n input
    · cases h
  · cases h

theorem reads_separatedRest {item : Parser α} (hitem : Reads item) (sep : Char) (fuel : Nat) :
    Reads (separatedRest item sep fuel) := by
  induction fuel with
  | zero =>
      intro input values rest h
      cases h
  | succ fuel ih =>
      intro input values rest h
      unfold separatedRest at h
      split at h
      · obtain ⟨-, rfl⟩ := Prod.mk.inj (Except.ok.inj h)
        exact List.suffix_refl _
      · cases h
      · rename_i c rest₁ hsep
        split at h
        · obtain ⟨-, rfl⟩ := Prod.mk.inj (Except.ok.inj h)
          exact List.suffix_refl _
        · cases h
        · rename_i value rest₂ hvalue
          split at h
          · cases h
          · rename_i values' rest₃ hmore
            obtain ⟨-, rfl⟩ := Prod.mk.inj (Except.ok.inj h)
            exact ((ih _ _ _ hmore).trans (hitem _ _ _ hvalue)).trans (reads_oneOf _ _ _ _ hsep)

theorem reads_separated0 {item : Parser α} (hitem : Reads item) (sep : Char) :
    Reads (separated0 item sep) := by
  intro input values rest h
  unfold separated0 at h
  split at h
  · obtain ⟨-, rfl⟩ := Prod.mk.inj (Except.ok.inj h)
    exact List.suffix_refl _
  · cases h
  · rename_i value rest₁ hvalue
    split at h
    · cases h
    · rename_i values' rest₂ hmore
      obtain ⟨-, rfl⟩ := Prod.mk.inj (Except.ok.inj h)
      exact (reads_separatedRest hitem sep _ _ _ _ hmore).trans (hitem _ _ _ hvalue)

end Combinators

/-! ## The catalog -/

theorem reads_macByte : Reads macByte :=
  Reads.bind (reads_takeExactly isHexDigit 2) fun _ => reads_pure _

theorem reads_parseMac : Reads parseMac := by
  unfold parseMac
  repeat refine Reads.bind reads_macByte fun _ => Reads.bind (reads_literal "-") fun _ => ?_
  exact Reads.bind reads_macByte fun _ => reads_pure _

theorem reads_alarmEntry : Reads alarmEntry := by
  refine Reads.bind (reads_literal _) fun _ => Reads.bind (reads_takeWhile0 _) fun _ => ?_
  refine Reads.bind (reads_literal _) fun _ => Reads.bind (reads_takeWhile0 _) fun _ => ?_
  exact Reads.bind (reads_literal _) fun _ => reads_pure _

theorem endsLine_echoLine (head : String) : EndsLine (echoLine head) :=
  (reads_literal head).endsLine fun _ => (reads_takeWhile0 _).endsLine fun _ => endsLine_literal

theorem endsLine_plainDigits (bound : Nat) : EndsLine (plainDigits bound) :=
  (reads_takeWhile1 _).endsLine fun _ => endsLine_literal

/-- Every parser a query is read with. -/
theorem wire_cases (query : Query) : query.wire.2 = plainText ∨ query.wire.2 = plainPort ∨
    query.wire.2 = plainNumber ∨ query.wire.2 = booleanFlag ∨ query.wire.2 = parseState ∨
      query.wire.2 = macAddress ∨ query.wire.2 = activeAlarms := by
  cases query <;> simp [Query.wire]

theorem wholeLine_query (query : Query) : WholeLine query.instruction := by
  intro buffer value h
  change query.wire.2 buffer = .done value at h
  rcases wire_cases query with heq | heq | heq | heq | heq | heq | heq
  · rw [heq] at h
    exact EndsLine.parserOf ((reads_takeWhile0 _).endsLine fun _ => endsLine_literal) h
  · rw [heq] at h
    exact (endsLine_plainDigits _).parserOf h
  · rw [heq] at h
    exact (endsLine_plainDigits _).parserOf h
  · rw [heq] at h
    exact EndsLine.parserOf ((reads_oneOf _).endsLine fun _ => endsLine_literal) h
  · rw [heq] at h
    exact EndsLine.parserOf ((reads_oneOf _).endsLine fun _ => endsLine_literal) h
  · rw [heq] at h
    exact EndsLine.parserOf (reads_parseMac.endsLine fun _ => endsLine_literal) h
  · rw [heq] at h
    exact EndsLine.parserOf
      ((reads_separated0 reads_alarmEntry '*').endsLine fun _ => endsLine_literal) h

theorem wholeLine_command (command : Command) : WholeLine command.instruction := by
  intro buffer value h
  exact EndsLine.parserOf ((reads_literal _).endsLine fun _ => endsLine_literal) h

theorem wholeLine_register (register : Register) (value : String) :
    WholeLine (register.instruction value) := by
  intro buffer v h
  exact (endsLine_echoLine _).parserOf h

theorem wholeLine_setting {setting : Setting} {value : String} {instr : Instruction}
    (h : setting.instruction value = .ok instr) : WholeLine instr := by
  intro buffer v hdone
  obtain ⟨encoded, -, ⟨-, hparse, -⟩ | ⟨addr, -, hparse, -⟩⟩ := setting_cases h
  · rw [hparse] at hdone
    exact (endsLine_echoLine _).parserOf hdone
  · rw [hparse] at hdone
    refine EndsLine.parserOf ((reads_literal _).endsLine fun _ => ?_) hdone
    refine (reads_forM (fun part => part.1.reads part.2) _).endsLine fun _ => ?_
    refine (reads_literal _).endsLine fun _ => ?_
    exact (reads_takeWhile0 _).endsLine fun _ => endsLine_literal

end Sismatic
