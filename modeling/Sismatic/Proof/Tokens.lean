import Sismatic.Proof.Decoding
import Sismatic.Proof.Obeyed

/-!
# The refusal in a reply

What is looked for in a reply is one line of it, from where a line begins to its terminator.
Which lines a text has is said here of the text itself, by what stands before a line and
behind it. A line whose terminator is still on its way is none, so that nothing a reply
passes through while it arrives is a refusal the whole reply is not.
-/

namespace Sismatic.SisError

/-- Where a line begins: with the text, or behind a terminator. -/
def LineStart (before : List Char) : Prop := before = [] ∨ [cr, lf] <:+ before

/-- A text has ended a line: it begins where a line does, up to the next terminator. -/
def HasEnded (text line : List Char) : Prop :=
  ∃ before after, text = before ++ line ++ cr :: lf :: after ∧ LineStart before ∧
    ¬ [cr, lf] <:+: line

/-- A line is `E` followed by two digits and nothing else, and its code is their number. -/
def IsToken (line : List Char) (code : Nat) : Prop :=
  ∃ a b : Char, line = ['E', a, b] ∧ a.isDigit = true ∧ b.isDigit = true ∧
    code = 10 * (a.toNat - '0'.toNat) + (b.toNat - '0'.toNat)

/-- The first of the lines that are a token, and what stands around it. -/
structure FirstToken (text before line after : List Char) (code : Nat) : Prop where
  split : text = before ++ line ++ cr :: lf :: after
  starts : LineStart before
  token : IsToken line code
  first : ∀ earlier code', HasEnded before earlier → ¬ IsToken earlier code'

/-! ## One line -/

theorem IsToken.cr_notMem {line : List Char} {code : Nat} (h : IsToken line code) : cr ∉ line := by
  obtain ⟨a, b, rfl, ha, hb, -⟩ := h
  intro hmem
  rcases List.mem_cons.mp hmem with hE | hmem
  · exact absurd hE (by decide)
  · rcases List.mem_cons.mp hmem with rfl | hmem
    · cases ha
    · obtain rfl := List.mem_singleton.mp hmem
      cases hb

theorem ofLine_iff {line : List Char} {error : SisError} :
    ofLine line = some error ↔ IsToken line error.code.toNat := by
  have hcode : ∀ a b : Char, a.isDigit = true → b.isDigit = true →
      (UInt8.ofNat (digitsValue [a, b])).toNat =
        10 * (a.toNat - '0'.toNat) + (b.toNat - '0'.toNat) := by
    intro a b ha hb
    have hle : ∀ c : Char, c.isDigit = true → c.toNat ≤ 57 := by
      intro c hc
      have hbounds := Char.isDigit_iff_toNat.mp hc
      exact hbounds.2
    have hla := hle a ha
    have hlb := hle b hb
    have hzero : '0'.toNat = 48 := rfl
    have hvalue : digitsValue [a, b] = (0 * 10 + (a.toNat - '0'.toNat)) * 10 +
        (b.toNat - '0'.toNat) := rfl
    rw [UInt8.toNat_ofNat', hvalue]
    omega
  refine ⟨fun h => ?_, fun h => ?_⟩
  · unfold ofLine at h
    split at h
    · rename_i a b
      split at h
      · rename_i hdigits
        obtain ⟨ha, hb⟩ := Bool.and_eq_true_iff.mp hdigits
        obtain rfl := Option.some.inj h
        exact ⟨a, b, rfl, ha, hb, hcode a b ha hb⟩
      · cases h
    · cases h
  · obtain ⟨a, b, rfl, ha, hb, heq⟩ := h
    rw [ofLine, if_pos (Bool.and_eq_true_iff.mpr ⟨ha, hb⟩)]
    obtain ⟨code⟩ := error
    rw [UInt8.toNat_inj.mp ((hcode a b ha hb).trans heq.symm)]

/-- What is no token is read as none, and the other way round. -/
theorem ofLine_none {line : List Char} : ofLine line = none ↔ ∀ code, ¬ IsToken line code := by
  refine ⟨fun h code htoken => ?_, fun h => ?_⟩
  · obtain ⟨a, b, rfl, ha, hb, -⟩ := htoken
    rw [ofLine, if_pos (Bool.and_eq_true_iff.mpr ⟨ha, hb⟩)] at h
    cases h
  · cases hline : ofLine line with
    | none => rfl
    | some error => exact absurd (ofLine_iff.mp hline) (h _)

/-! ## The lines of a text -/

/-- A line without a terminator inside is the first of what it begins. -/
theorem completeLines_whole {line : List Char} (h : ¬ [cr, lf] <:+: line) (rest : List Char) :
    completeLines (line ++ cr :: lf :: rest) = line :: completeLines rest := by
  induction line with
  | nil => rfl
  | cons c line ih =>
      have hinner : ¬ [cr, lf] <:+: line := fun hin => h (hin.trans (List.suffix_cons c line).isInfix)
      rw [List.cons_append, completeLines, ih hinner]
      rintro rest' rfl heq
      cases line with
      | nil => exact absurd (List.cons.inj heq).1 (by decide)
      | cons d line =>
          obtain ⟨rfl, -⟩ := List.cons.inj heq
          exact h ⟨[], line, rfl⟩

/-- A line that was cut off has no terminator inside. -/
theorem whole_of_completeLines {line : List Char} (h : completeLines (line ++ [cr, lf]) = [line]) :
    ¬ [cr, lf] <:+: line := by
  rintro ⟨before, after, rfl⟩
  obtain ⟨first, lines, -, hall⟩ := Devices.completeLines_append before
  obtain ⟨second, more, hsecond, -⟩ := Devices.completeLines_append after
  have hlines := hall (after ++ [cr, lf])
  rw [hsecond] at hlines
  have hsplit : before ++ [cr, lf] ++ after ++ [cr, lf] =
      before ++ cr :: lf :: (after ++ [cr, lf]) := by
    simp only [List.append_assoc, List.cons_append, List.nil_append]
  rw [hsplit, hlines] at h
  have hlen := congrArg List.length h
  simp only [List.length_append, List.length_cons, List.length_nil] at hlen
  omega

/-- The lines of a text are its first and those behind that. -/
theorem completeLines_split {text line : List Char} {lines : List (List Char)}
    (h : completeLines text = line :: lines) :
    ∃ rest, text = line ++ cr :: lf :: rest ∧ ¬ [cr, lf] <:+: line ∧ lines = completeLines rest := by
  obtain ⟨rest, rfl, hone⟩ := completeLines_cons h
  have hwhole := whole_of_completeLines hone
  rw [completeLines_whole hwhole] at h
  exact ⟨rest, rfl, hwhole, (List.cons.inj h).2.symm⟩

theorem LineStart.behind {before : List Char} (line : List Char) (h : LineStart before) :
    LineStart (line ++ cr :: lf :: before) := by
  refine .inr ?_
  rcases h with rfl | ⟨more, rfl⟩
  · exact List.suffix_append line [cr, lf]
  · exact ⟨line ++ cr :: lf :: more, by simp only [List.append_assoc, List.cons_append]⟩

/-- A text up to where one of its lines begins has the lines before that one. -/
theorem completeLines_start {before : List Char} (h : LineStart before) (rest : List Char) :
    completeLines (before ++ rest) = completeLines before ++ completeLines rest := by
  rcases h with rfl | ⟨text, rfl⟩
  · rfl
  · obtain ⟨first, lines, hone, hall⟩ := Devices.completeLines_append text
    rw [List.append_assoc, hone]
    exact hall rest

/-- **The lines that are looked at are the lines the text has, each where it stands.** -/
theorem split_of_completeLines {text line : List Char} {earlier later : List (List Char)}
    (h : completeLines text = earlier ++ line :: later) :
    ∃ before after, text = before ++ line ++ cr :: lf :: after ∧ LineStart before ∧
      ¬ [cr, lf] <:+: line ∧ completeLines before = earlier := by
  induction earlier generalizing text with
  | nil =>
      obtain ⟨rest, rfl, hwhole, -⟩ := completeLines_split h
      exact ⟨[], rest, rfl, .inl rfl, hwhole, rfl⟩
  | cons first earlier ih =>
      obtain ⟨rest, rfl, hfirst, hlines⟩ := completeLines_split h
      obtain ⟨before, after, rfl, hstart, hwhole, hbefore⟩ := ih hlines.symm
      refine ⟨first ++ cr :: lf :: before, after, ?_, hstart.behind first, hwhole, ?_⟩
      · simp only [List.append_assoc, List.cons_append]
      · rw [completeLines_whole hfirst, hbefore]

theorem mem_completeLines {text line : List Char} :
    line ∈ completeLines text ↔ HasEnded text line := by
  refine ⟨fun h => ?_, fun h => ?_⟩
  · obtain ⟨earlier, later, hlines⟩ := List.append_of_mem h
    obtain ⟨before, after, htext, hstart, hwhole, -⟩ := split_of_completeLines hlines
    exact ⟨before, after, htext, hstart, hwhole⟩
  · obtain ⟨before, after, rfl, hstart, hwhole⟩ := h
    rw [List.append_assoc, completeLines_start hstart, completeLines_whole hwhole]
    exact List.mem_append_right _ List.mem_cons_self

/-! ## The refusal -/

theorem inReply_none {buffer : String} :
    inReply buffer = none ↔ ∀ line code, HasEnded buffer.toList line → ¬ IsToken line code := by
  rw [inReply, List.findSome?_eq_none_iff]
  refine ⟨fun h line code hline => ?_, fun h line hmem => ?_⟩
  · exact ofLine_none.mp (h line (mem_completeLines.mpr hline)) code
  · exact ofLine_none.mpr fun code => h line code (mem_completeLines.mp hmem)

theorem inReply_some {buffer : String} {error : SisError} :
    inReply buffer = some error ↔
      ∃ before line after, FirstToken buffer.toList before line after error.code.toNat := by
  rw [inReply, List.findSome?_eq_some_iff]
  refine ⟨?_, ?_⟩
  · rintro ⟨earlier, line, later, hlines, hline, hnone⟩
    obtain ⟨before, after, htext, hstart, -, hbefore⟩ := split_of_completeLines hlines
    refine ⟨before, line, after, htext, hstart, ofLine_iff.mp hline, fun line' code' hhas => ?_⟩
    rw [← mem_completeLines, hbefore] at hhas
    exact ofLine_none.mp (hnone line' hhas) code'
  · rintro ⟨before, line, after, h⟩
    have hwhole : ¬ [cr, lf] <:+: line := fun hin => h.token.cr_notMem (hin.mem List.mem_cons_self)
    refine ⟨completeLines before, line, completeLines after, ?_, ofLine_iff.mpr h.token, ?_⟩
    · rw [h.split, List.append_assoc, completeLines_start h.starts, completeLines_whole hwhole]
    · intro earlier hmem
      exact ofLine_none.mpr fun code => h.first earlier code (mem_completeLines.mp hmem)

/-- A refusal is found with its terminator: the text goes on at least to there. -/
theorem inReply_reaches {part text : List Char} {error : SisError} (h : part <+: text)
    (herror : inReply (String.ofList part) = some error) :
    ∃ before line after, text = before ++ line ++ cr :: lf :: after ∧ LineStart before ∧
      IsToken line error.code.toNat ∧ before ++ line ++ [cr, lf] <+: part := by
  obtain ⟨before, line, after, hfirst⟩ := inReply_some.mp herror
  have hpart := hfirst.split
  rw [String.toList_ofList] at hpart
  obtain ⟨more, rfl⟩ := h
  refine ⟨before, line, after ++ more, ?_, hfirst.starts, hfirst.token, ?_⟩
  · rw [hpart, List.append_assoc]
    rfl
  · exact ⟨after, by rw [hpart, List.append_assoc]; rfl⟩

/-- **The refusal of a reply is the first line that is a token, whenever it is looked for.** -/
theorem inReply_exact (buffer : String) :
    (∀ error, inReply buffer = some error ↔
      ∃ before line after, FirstToken buffer.toList before line after error.code.toNat) ∧
    (inReply buffer = none ↔
      ∀ line code, HasEnded buffer.toList line → ¬ IsToken line code) ∧
    (∀ error, inReply buffer = some error → ∀ more, inReply (buffer ++ more) = some error) ∧
    (inReply buffer = none → ∀ part : String, part.toList <+: buffer.toList →
      inReply part = none) ∧
    ((∀ before line after code, buffer.toList = before ++ line ++ cr :: lf :: after →
        LineStart before → IsToken line code → after = []) →
      ∀ part : String, part.toList <+: buffer.toList → part ≠ buffer → inReply part = none) := by
  refine ⟨fun error => inReply_some, inReply_none, ?_, ?_, ?_⟩
  · intro error h more
    have hbegins : buffer.toList <+: (buffer ++ more).toList := by
      rw [String.toList_append]
      exact List.prefix_append _ _
    have hmono := @Devices.inReply_mono _ _ hbegins error
    rw [String.ofList_toList, String.ofList_toList] at hmono
    exact hmono h
  · intro hnone part hpart
    cases hfound : inReply part with
    | none => rfl
    | some error =>
        have hmono := @Devices.inReply_mono _ _ hpart error
        rw [String.ofList_toList, String.ofList_toList, hnone] at hmono
        exact (hmono hfound).symm
  · intro honly part hpart hne
    cases hfound : inReply part with
    | none => rfl
    | some error =>
        rw [← part.ofList_toList] at hfound
        obtain ⟨before, line, after, htext, hstart, htoken, hreached⟩ :=
          inReply_reaches hpart hfound
        obtain rfl := honly before line after _ htext hstart htoken
        rw [← htext] at hreached
        have hall := hpart.eq_of_length_le hreached.length_le
        exact absurd (String.toList_inj.mp hall) hne

end Sismatic.SisError
