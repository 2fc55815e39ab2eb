import Sismatic.Store.Group
import Sismatic.IntentRelay.Translate
import Sismatic.Proof.Decoding
import Sismatic.Proof.Identity
import Mathlib.Data.List.TakeWhile

/-!
# A device that did what it was told

A write leaves the caller's text as what its device is expected to hold. The device holds what
the payload carried, and reports that as one line. For flags and ports the two always agree.
For text they agree exactly if what is read back of the carried text is the caller's text, as
it was given or trimmed: a register's is shortened, and a return in it cuts what is read.
-/

namespace Sismatic

/-! ## What is read back of a text -/

/-- What follows the last return. -/
def afterReturn (line : List Char) : List Char := (line.reverse.takeWhile isNotCr).reverse

theorem afterReturn_self {line : List Char} (h : cr ∉ line) : afterReturn line = line := by
  have hall : ∀ c ∈ line.reverse, isNotCr c = true :=
    fun c hc => all_isNotCr.mpr h c (List.mem_reverse.mp hc)
  rw [afterReturn, List.takeWhile_eq_self_iff.mpr hall, List.reverse_reverse]

/-- A character before the last return does not count, and a return does not either. -/
theorem afterReturn_cons {c : Char} {line : List Char} (h : c = cr ∨ cr ∈ line) :
    afterReturn (c :: line) = afterReturn line := by
  rw [afterReturn, List.reverse_cons, List.takeWhile_append]
  split
  · rename_i hlen
    have hall : cr ∉ line := by
      have hself := (List.takeWhile_prefix (p := isNotCr) (l := line.reverse)).eq_of_length hlen
      intro hcr
      rw [← List.mem_reverse, ← hself] at hcr
      exact not_isNotCr.mpr rfl (List.all_eq_true.mp List.all_takeWhile cr hcr)
    obtain rfl := h.resolve_right hall
    rw [List.takeWhile_cons, if_neg (not_isNotCr.mpr rfl), List.append_nil, List.reverse_reverse,
      afterReturn_self hall]
  · rfl

/-- The first line of a text that has one, and what it is made of. -/
theorem completeLines_cons {text line : List Char} {lines : List (List Char)}
    (h : SisError.completeLines text = line :: lines) :
    ∃ rest, text = line ++ cr :: lf :: rest ∧
      SisError.completeLines (line ++ [cr, lf]) = [line] := by
  induction text using Devices.completeLines_rec generalizing line lines with
  | nil => cases h
  | ended text ih =>
      obtain ⟨rfl, -⟩ := List.cons.inj h
      exact ⟨text, rfl, rfl⟩
  | unended c text hnot hnone ih =>
      rw [(Devices.completeLines_push hnot).1 hnone] at h
      cases h
  | pushed c text line' lines' hnot hsome ih =>
      rw [(Devices.completeLines_push hnot).2 line' lines' hsome] at h
      obtain ⟨rfl, rfl⟩ := List.cons.inj h
      obtain ⟨rest, rfl, hline⟩ := ih hsome
      refine ⟨rest, rfl, (Devices.completeLines_push ?_).2 line' [] hline⟩
      intro rest' hc heq
      cases line' with
      | nil => exact absurd (List.cons.inj heq).1 (by decide)
      | cons d line' => exact hnot _ hc (congrArg (· :: _) (List.cons.inj heq).1)

/-- The first return of a text, where its first line ends or before. -/
theorem line_of_return {text line before after : List Char} {lines : List (List Char)}
    (h : SisError.completeLines text = line :: lines) (hsplit : text = before ++ cr :: lf :: after)
    (hcr : cr ∉ before) : line = before := by
  rw [hsplit, completeLines_line hcr] at h
  exact (List.cons.inj h).1.symm

/-- A free text is what its first line holds behind its last return. -/
theorem plainText_firstLine {text line : List Char} {lines : List (List Char)}
    (h : SisError.completeLines text = line :: lines) :
    plainText (String.ofList text) = .done (.text (String.ofList (afterReturn line))) := by
  have hsearch : search (echoLine "") text = .done (String.ofList (afterReturn line)) := by
    induction text using Devices.completeLines_rec generalizing line lines with
    | nil => cases h
    | ended text ih =>
        obtain ⟨rfl, -⟩ := List.cons.inj h
        have hempty : echoLine "" (cr :: lf :: text) = .ok ("", text) :=
          echoLine_ok.mpr ⟨rfl, List.not_mem_nil⟩
        exact search_head (List.cons_ne_nil _ _) hempty
    | unended c text hnot hnone ih =>
        rw [(Devices.completeLines_push hnot).1 hnone] at h
        cases h
    | pushed c text line' lines' hnot hsome ih =>
        have hline : line = c :: line' := by
          rw [(Devices.completeLines_push hnot).2 line' lines' hsome] at h
          exact (List.cons.inj h).1.symm
        obtain ⟨rest, htext, -⟩ := completeLines_cons hsome
        by_cases hcr : c = cr ∨ cr ∈ line'
        · -- a return that ends no line: nothing is read from here
          have hfails : ∀ r, echoLine "" (c :: text) ≠ .ok r := by
            rintro ⟨v, after⟩ hok
            obtain ⟨hsplit, hv⟩ := echoLine_ok.mp hok
            have hsplit : c :: text = v.toList ++ cr :: lf :: after := hsplit
            have hwhole : c :: line' = v.toList := hline ▸ line_of_return h hsplit hv
            rw [← hwhole, List.mem_cons] at hv
            exact hv (hcr.imp Eq.symm id)
          have hnext := @search_skips _ _ (echoLine_ne_cut "") [c] text
            fun rest hne hrest r => by
              rcases List.suffix_cons_iff.mp hrest with rfl | hrest
              · exact hfails r
              · exact absurd (List.suffix_nil.mp hrest) hne
          rw [hline, afterReturn_cons hcr, ← ih hsome]
          exact hnext
        · obtain ⟨hc, hline'⟩ := not_or.mp hcr
          have hnone : cr ∉ c :: line' := fun hmem =>
            (List.mem_cons.mp hmem).elim (fun heq => hc heq.symm) hline'
          have hwhole : echoLine "" (c :: text) = .ok (String.ofList (c :: line'), rest) := by
            refine echoLine_ok.mpr ⟨?_, by rwa [String.toList_ofList]⟩
            rw [htext, String.toList_ofList (l := c :: line')]
            rfl
          rw [hline, afterReturn_self hnone]
          exact search_head (List.cons_ne_nil _ _) hwhole
  change parserOf (echoLine "") .text (String.ofList text) = _
  rw [parserOf, String.toList_ofList, hsearch]

/-- The first line of a text behind which a line end is sent. -/
def firstLine (text : List Char) : List Char :=
  (SisError.completeLines (text ++ [cr, lf])).headD []

/-- What is read back of a text a device reports. -/
def readBack (text : String) : String := String.ofList (afterReturn (firstLine text.toList))

theorem firstLine_spec (text : List Char) : ∃ lines rest,
    SisError.completeLines (text ++ [cr, lf]) = firstLine text :: lines ∧
      text ++ [cr, lf] = firstLine text ++ cr :: lf :: rest ∧
        SisError.completeLines (firstLine text ++ [cr, lf]) = [firstLine text] := by
  obtain ⟨line, lines, hline, -⟩ := Devices.completeLines_append text
  have hfirst : firstLine text = line := by rw [firstLine, hline, List.headD_cons]
  obtain ⟨rest, hsplit, halone⟩ := completeLines_cons hline
  rw [hfirst]
  exact ⟨lines, rest, hline, hsplit, halone⟩

theorem firstLine_self {text : List Char} (h : cr ∉ text) : firstLine text = text := by
  rw [firstLine, completeLines_line h []]
  rfl

/-- A text without a return is read back whole. -/
theorem readBack_self {text : String} (h : cr ∉ text.toList) : readBack text = text := by
  rw [readBack, firstLine_self h, afterReturn_self h, String.ofList_toList]

namespace Devices

variable {query : Query}

/-- Whenever something is found in what has been read, its first line is the text's. -/
theorem firstLine_seen {text : List Char} {seen : List UInt8}
    (hseen : seen <+: utf8 (text ++ [cr, lf])) {answer : Except ControllerError Value}
    (h : parseReply query.instruction seen = some answer) :
    ∃ lines, SisError.completeLines (validPrefix seen).toList = firstLine text :: lines := by
  obtain ⟨before, after, hsplit⟩ := parseReply_line (wholeLine_query query) h
  obtain ⟨line, lines, hline, -⟩ := completeLines_append before
  have hline : SisError.completeLines (before ++ [cr, lf]) = line :: lines := hline
  obtain ⟨more, hmore⟩ := completeLines_begins (before ++ [cr, lf]) after
  rw [hsplit, hline] at hmore
  obtain ⟨all, rest, hall, -, -⟩ := firstLine_spec text
  obtain ⟨whole, hwhole⟩ := validPrefix_begins hseen
  obtain ⟨later, hlater⟩ := completeLines_begins (validPrefix seen).toList whole
  rw [hwhole, hall, ← hmore] at hlater
  obtain ⟨rfl, -⟩ := List.cons.inj hlater
  exact ⟨lines ++ more, hmore.symm⟩

/-- A value decoded of a text a device reports is what is read back of it, and no refusal. -/
theorem exchange_reported (htext : query.kind = .text) {text : List Char}
    {reads : List (List UInt8)} (hne : ∀ chunk ∈ reads, chunk ≠ [])
    (hsplit : reads.flatten = utf8 (text ++ [cr, lf])) {value : Value} {later : List ChannelRead}
    (h : exchange query.instruction (.ok ()) (reads.map .ok) = some (.ok value, later)) :
    SisError.ofLine (firstLine text) = none ∧ value = .text (readBack (String.ofList text)) := by
  obtain ⟨before, chunk, after, rfl, -, -, hsome⟩ := (exchangeLoop_iff hne).mp h
  have hseen : [] ++ before.flatten ++ chunk <+: utf8 (text ++ [cr, lf]) := by
    rw [← hsplit, List.flatten_append, List.flatten_cons]
    exact ⟨after.flatten, List.append_assoc _ _ _⟩
  obtain ⟨lines, hlines⟩ := firstLine_seen hseen hsome
  have hread := plainText_firstLine hlines
  rw [String.ofList_toList] at hread
  rw [readBack, String.toList_ofList]
  unfold parseReply at hsome
  simp only [parseStep_kind, htext, ReplyKind.parser, hread] at hsome
  split at hsome
  · cases hsome
  · rename_i hreply
    rw [SisError.inReply, hlines, List.findSome?_cons] at hreply
    refine ⟨?_, (Except.ok.inj (Option.some.inj hsome)).symm⟩
    cases hbare : SisError.ofLine (firstLine text) with
    | none => rfl
    | some error => rw [hbare] at hreply; cases hreply

/-- Unless its first line is a refusal, a reported text can arrive so that it is decoded. -/
theorem exchange_reports (htext : query.kind = .text) {text : List Char}
    (hbare : SisError.ofLine (firstLine text) = none) :
    ∃ (reads : List (List UInt8)) (later : List ChannelRead), (∀ chunk ∈ reads, chunk ≠ []) ∧
      reads.flatten = utf8 (text ++ [cr, lf]) ∧
      exchange query.instruction (.ok ()) (reads.map .ok) =
        some (.ok (.text (readBack (String.ofList text))), later) := by
  obtain ⟨lines, rest, -, hsplit, halone⟩ := firstLine_spec text
  have hfirst : utf8 (firstLine text ++ [cr, lf]) ≠ [] :=
    utf8_ne_nil (List.append_ne_nil_of_right_ne_nil _ (List.cons_ne_nil _ _))
  have hparse : parseReply query.instruction (utf8 (firstLine text ++ [cr, lf])) =
      some (.ok (.text (readBack (String.ofList text)))) := by
    have harrived : validPrefix (utf8 (firstLine text ++ [cr, lf])) =
        String.ofList (firstLine text ++ [cr, lf]) := by
      rw [← validPrefix_utf8 (firstLine text ++ [cr, lf]), String.ofList_toList, validPrefix_utf8]
    have hreply : SisError.inReply (String.ofList (firstLine text ++ [cr, lf])) = none := by
      rw [SisError.inReply, String.toList_ofList, halone]
      simp [hbare]
    simp only [parseReply, harrived, hreply, parseStep_kind, htext, ReplyKind.parser,
      plainText_firstLine halone, readBack, String.toList_ofList]
  -- the first line arrives in one read, and the rest in one more for each of its bytes
  refine ⟨utf8 (firstLine text ++ [cr, lf]) :: (utf8 rest).map fun byte => [byte],
    ((utf8 rest).map fun byte => [byte]).map .ok, ?_, ?_, ?_⟩
  · intro chunk hchunk
    rcases List.mem_cons.mp hchunk with rfl | hchunk
    · exact hfirst
    · obtain ⟨byte, -, rfl⟩ := List.mem_map.mp hchunk
      exact List.cons_ne_nil _ _
  · have hbytes : ((utf8 rest).map fun byte => [byte]).flatten = utf8 rest := by
      induction utf8 rest with
      | nil => rfl
      | cons byte bytes ih => rw [List.map_cons, List.flatten_cons, ih]; rfl
    rw [List.flatten_cons, hbytes, ← utf8_append, hsplit, List.append_assoc]
    rfl
  · rw [exchange, List.map_cons, exchangeLoop, if_neg hfirst, List.nil_append, hparse]

end Devices

/-! ## What a write carries -/

/-- The text a write puts on the wire for its device to hold. -/
def carried : Intent → Option String
  | .setMetadata field value =>
      (Register.fromStr field).map fun _ => shorten value maxValueLen
  | .setSetting field value =>
      (Setting.fromStr field).bind fun setting => (encode setting.shape value).toOption
  | _ => none

/-- The two ways to write a field. -/
def Writes (intent : Intent) (field : FieldName) (value : String) : Prop :=
  intent = .setMetadata field value ∨ intent = .setSetting field value

theorem expects_writes {intent : Intent} {field : FieldName} {value : String}
    (h : Writes intent field value) : expects intent = (field, .text value) := by
  rcases h with rfl | rfl <;> rfl

/-- The payload is the carried text between two that are the field's. -/
theorem payload_carried (field : FieldName) :
    (∃ before after, ∀ value instruction,
      toInstruction (.setMetadata field value) = .ok instruction →
        ∃ text, carried (.setMetadata field value) = some text ∧
          instruction.payload = before ++ text ++ after) ∧
      ∃ before after, ∀ value instruction,
        toInstruction (.setSetting field value) = .ok instruction →
          ∃ text, carried (.setSetting field value) = some text ∧
            instruction.payload = before ++ text ++ after := by
  refine ⟨?_, ?_⟩
  · cases hregister : Register.fromStr field with
    | none =>
        refine ⟨"", "", fun value instruction h => ?_⟩
        simp only [toInstruction, hregister] at h
        cases h
    | some register =>
        refine ⟨String.singleton esc ++ register.reg ++ "*", rcdr ++ String.singleton cr,
          fun value instruction h => ?_⟩
        simp only [toInstruction, hregister] at h
        obtain rfl := Except.ok.inj h
        refine ⟨shorten value maxValueLen, ?_, ?_⟩
        · rw [carried, hregister, Option.map_some]
        · rw [Register.instruction, String.append_assoc]
  · cases hsetting : Setting.fromStr field with
    | none =>
        refine ⟨"", "", fun value instruction h => ?_⟩
        simp only [toInstruction, hsetting] at h
        split at h <;> cases h
    | some setting =>
        have hencoded : ∀ value instruction,
            toInstruction (.setSetting field value) = .ok instruction →
              ∃ text, encode setting.shape value = .ok text ∧
                setting.instruction value = .ok instruction := by
          intro value instruction h
          simp only [toInstruction, hsetting] at h
          split at h
          · cases h
          · split at h
            · rename_i ran hran
              obtain rfl := Except.ok.inj h
              obtain ⟨text, htext, -⟩ := Devices.ok_of_bind hran
              exact ⟨text, htext, hran⟩
            · cases h
        cases hform : setting.form with
        | prefixed =>
            refine ⟨String.singleton esc, setting.verb ++ String.singleton cr,
              fun value instruction h => ?_⟩
            obtain ⟨text, htext, hran⟩ := hencoded value instruction h
            refine ⟨text, ?_, ?_⟩
            · rw [carried, hsetting, Option.bind_some, htext]
              rfl
            · simp only [Setting.instruction, htext, hform] at hran
              obtain rfl := Except.ok.inj hran
              simp only [String.append_assoc]
        | addressed addr =>
            refine ⟨String.singleton esc ++ addr ++ "*", setting.verb ++ String.singleton cr,
              fun value instruction h => ?_⟩
            obtain ⟨text, htext, hran⟩ := hencoded value instruction h
            refine ⟨text, ?_, ?_⟩
            · rw [carried, hsetting, Option.bind_some, htext]
              rfl
            · simp only [Setting.instruction, htext, hform] at hran
              obtain rfl := Except.ok.inj hran
              simp only [String.append_assoc]

/-! ## What a device answers a read with -/

/-- The kind of value a setting of this shape reads back as. -/
def Shape.kind : Shape → Option ReplyKind
  | .flag => some .flag
  | .port => some .port
  | .text _ | .token _ => some .text
  | .url _ => none

/-- A field that is both written and read is read as the kind of value it is written as. -/
theorem kind_setting : ∀ setting ∈ Setting.all, ∀ query ∈ Query.all, ∀ name ∈ setting.accepted,
    query.accepted.contains name = true → setting.shape.kind = some query.kind := by
  decide +kernel

theorem kind_register : ∀ register ∈ Register.all, ∀ query ∈ Query.all,
    ∀ name ∈ register.accepted, query.accepted.contains name = true → query.kind = .text := by
  decide +kernel

theorem encode_flag {value text : String} (h : encode .flag value = .ok text) :
    ∃ b : Bool, text.toList = [if b then '1' else '0'] ∧ flagOf (trim value) = some b := by
  unfold encode at h
  dsimp only at h
  split at h
  case h_5 | h_6 | h_7 | h_8 =>
    obtain rfl := Except.ok.inj h
    rename_i hlower
    exact ⟨false, rfl, by rw [flagOf, hlower]; rfl⟩
  case h_1 | h_2 | h_3 | h_4 =>
    obtain rfl := Except.ok.inj h
    rename_i hlower
    exact ⟨true, rfl, by rw [flagOf, hlower]; rfl⟩
  case h_9 => cases h

theorem encode_port {value text : String} (h : encode .port value = .ok text) :
    ∃ p : UInt16, text.toList = zeroPadded 0 p.toNat ∧
      parseUnsigned (2 ^ 16) (trim value) = some p.toNat := by
  unfold encode at h
  dsimp only at h
  split at h
  · rename_i n hparse
    obtain rfl := Except.ok.inj h
    obtain ⟨hparse, -⟩ := Option.filter_eq_some_iff.mp hparse
    have hport : (UInt16.ofNat n).toNat = n := UInt16.toNat_ofNat_of_lt' (parseUnsigned_lt hparse)
    refine ⟨UInt16.ofNat n, ?_, by rw [hport, hparse]⟩
    rw [hport]
    exact String.toList_ofList
  · cases h

theorem accepted_of_fromCatalog {α : Type} {all : List α} {accepted : α → List String}
    {s : String} {variant : α} (h : fromCatalog all accepted s = some variant) :
    (accepted variant).contains (normalize s) = true := by
  have hfound := @List.find?_some _ (fun variant => (accepted variant).contains (normalize s))
    variant all h
  exact hfound

/-- What an accepted write carries, for each kind of value its field is read as. -/
theorem carried_kind {intent : Intent} {field : FieldName} {value : String}
    (hwrite : Writes intent field value) {instruction : Instruction}
    (hok : toInstruction intent = .ok instruction) {query : Query}
    (hquery : Query.fromStr field = some query) :
    ∃ text, carried intent = some text ∧
      (query.kind = .text ∨
        (∃ b : Bool, query.kind = .flag ∧ text.toList = [if b then '1' else '0'] ∧
          flagOf (trim value) = some b) ∨
        ∃ p : UInt16, query.kind = .port ∧ text.toList = zeroPadded 0 p.toNat ∧
          parseUnsigned (2 ^ 16) (trim value) = some p.toNat) := by
  have hquery' := accepted_of_fromCatalog hquery
  have hmem : query ∈ Query.all := Devices.mem_of_fromCatalog hquery
  rcases hwrite with rfl | rfl
  · obtain ⟨before, after, hpayload⟩ := (payload_carried field).1
    obtain ⟨text, htext, -⟩ := hpayload value instruction hok
    refine ⟨text, htext, .inl ?_⟩
    rw [carried] at htext
    obtain ⟨register, hregister, -⟩ := Option.map_eq_some_iff.mp htext
    have hname := List.contains_iff_mem.mp (accepted_of_fromCatalog hregister)
    exact kind_register register (Devices.mem_of_fromCatalog hregister) query hmem _ hname hquery'
  · obtain ⟨before, after, hpayload⟩ := (payload_carried field).2
    obtain ⟨text, htext, -⟩ := hpayload value instruction hok
    refine ⟨text, htext, ?_⟩
    rw [carried] at htext
    obtain ⟨setting, hsetting, hencoded⟩ := Option.bind_eq_some_iff.mp htext
    have hname := List.contains_iff_mem.mp (accepted_of_fromCatalog hsetting)
    have hkind := kind_setting setting (Devices.mem_of_fromCatalog hsetting) query hmem _ hname
      hquery'
    have hencoded : encode setting.shape value = .ok text := by
      cases hencode : encode setting.shape value with
      | error e => rw [hencode] at hencoded; cases hencoded
      | ok encoded =>
          rw [hencode] at hencoded
          rw [Option.some.inj hencoded]
    cases hshape : setting.shape with
    | flag =>
        rw [hshape] at hkind hencoded
        obtain ⟨b, hb, hflag⟩ := encode_flag hencoded
        exact .inr (.inl ⟨b, (Option.some.inj hkind).symm, hb, hflag⟩)
    | port =>
        rw [hshape] at hkind hencoded
        obtain ⟨p, hp, hport⟩ := encode_port hencoded
        exact .inr (.inr ⟨p, (Option.some.inj hkind).symm, hp, hport⟩)
    | text max | token max =>
        rw [hshape] at hkind
        exact .inl (Option.some.inj hkind).symm
    | url max => rw [hshape] at hkind; cases hkind

/-- A text expectation is met by the same text, or by the same text trimmed. -/
theorem satisfies_text (value got : String) :
    satisfies (.text value) (.text got) = true ↔ got = value ∨ got = trim value := by
  unfold satisfies
  split
  · rename_i heq
    simp [ReadValue.text.inj heq]
  · rename_i hne
    have hvalue : got ≠ value := fun heq => hne (by rw [heq])
    simp only [matchesText, beq_iff_eq, hvalue, false_or]
    exact eq_comm

theorem ofLine_begins {line : List Char} {error : SisError}
    (h : SisError.ofLine line = some error) : line.head? = some 'E' := by
  unfold SisError.ofLine at h
  split at h
  · rfl
  · cases h

/-- **The device reports back what it was sent, and the expectation is met.** -/
def Obeyed (intent : Intent) (query : Query) (text : String) : Prop :=
  ∀ reads : List (List UInt8), (∀ chunk ∈ reads, chunk ≠ []) →
    reads.flatten = Devices.utf8 (text.toList ++ [cr, lf]) →
      ∀ value later, Devices.exchange query.instruction (.ok ()) (reads.map .ok) =
        some (.ok value, later) → satisfies (expects intent).2 (toDto value) = true

/-- A value that is read of every reply is the only one. -/
theorem obeyed_of_encodes {intent : Intent} {query : Query} {text : String} {value : Value}
    (henc : Encodes query.kind value text.toList) (hbare : SisError.ofLine text.toList = none)
    (hmet : satisfies (expects intent).2 (toDto value) = true) : Obeyed intent query text := by
  intro reads hne hsplit decoded later h
  have hread := ((Devices.exchange_decodes query).1 value text.toList henc hbare reads hne hsplit).1
  rw [hread] at h
  obtain ⟨heq, -⟩ := Prod.mk.inj (Option.some.inj h)
  rw [← Except.ok.inj heq]
  exact hmet

/--
**A device that holds and reports what the payload carried meets the expectation exactly if**
its field is a flag or a port, or the text reads back as the caller's, as it was given or
trimmed, or as a refusal.
-/
theorem obeyed_iff {intent : Intent} {field : FieldName} {value : String}
    (hwrite : Writes intent field value) {instruction : Instruction}
    (hok : toInstruction intent = .ok instruction) {query : Query}
    (hquery : Query.fromStr field = some query) :
    ∃ text, carried intent = some text ∧
      (Obeyed intent query text ↔
        query.kind ≠ .text ∨ (SisError.ofLine (firstLine text.toList)).isSome ∨
          readBack text = value ∨ readBack text = trim value) := by
  obtain ⟨text, hcarried, hkind⟩ := carried_kind hwrite hok hquery
  refine ⟨text, hcarried, ?_⟩
  have hexpected : (expects intent).2 = .text value := by rw [expects_writes hwrite]
  rcases hkind with htext | ⟨b, hflag, hb, hread⟩ | ⟨p, hport, hp, hread⟩
  · refine ⟨fun h => .inr ?_, fun h reads hne hsplit decoded later hran => ?_⟩
    · cases hbare : SisError.ofLine (firstLine text.toList) with
      | some error => exact .inl rfl
      | none =>
          obtain ⟨reads, later, hne, hsplit, hran⟩ := Devices.exchange_reports htext hbare
          have hmet := h reads hne hsplit _ later hran
          rw [hexpected, String.ofList_toList] at hmet
          exact .inr ((satisfies_text _ _).mp hmet)
    · obtain ⟨hbare, rfl⟩ := Devices.exchange_reported htext hne hsplit hran
      rw [hexpected, String.ofList_toList]
      refine (satisfies_text _ _).mpr ?_
      rcases h with hother | hrefusal | hsame
      · exact absurd htext hother
      · rw [hbare] at hrefusal
        cases hrefusal
      · exact hsame
  · refine ⟨fun _ => .inl (hflag ▸ by decide), fun _ => ?_⟩
    have henc : Encodes query.kind (.flag b) text.toList := by
      rw [hflag, hb]
      exact .flag b
    refine obeyed_of_encodes henc ?_ ?_
    · rw [hb]
      cases b <;> rfl
    · have hmet : matchesText (trim value) (.flag b) = true := by
        rw [matchesText, hread, beq_self_eq_true]
      rw [hexpected]
      simp only [satisfies, toDto, hmet, ite_self]
  · refine ⟨fun _ => .inl (hport ▸ by decide), fun _ => ?_⟩
    have henc : Encodes query.kind (.port p) text.toList := by
      rw [hport, hp]
      exact .port p 0
    refine obeyed_of_encodes henc ?_ ?_
    · cases hbare : SisError.ofLine text.toList with
      | none => rfl
      | some error =>
          have hhead := List.mem_of_mem_head? (hp ▸ ofLine_begins hbare)
          exact absurd (isDigit_zeroPadded hhead) (by decide)
    · have hmet : matchesText (trim value) (.port p) = true := by
        rw [matchesText, hread, beq_self_eq_true]
      rw [hexpected]
      simp only [satisfies, toDto, hmet, ite_self]

/-- A port is read back as a number, whatever stands around it. -/
theorem obeyed_port : ∃ text, carried (.setSetting "HTTP_PORT" " 08080 ") = some text ∧
    (Obeyed (.setSetting "HTTP_PORT" " 08080 ") .httpPort text ↔
      Query.httpPort.kind ≠ .text ∨ (SisError.ofLine (firstLine text.toList)).isSome ∨
        readBack text = " 08080 " ∨ readBack text = trim " 08080 ") := by
  have hok : ∃ instruction, toInstruction (.setSetting "HTTP_PORT" " 08080 ") = .ok instruction :=
    ⟨_, rfl⟩
  obtain ⟨instruction, hok⟩ := hok
  exact obeyed_iff (.inr rfl) hok (by decide)

/-- A title one character too long for its register. -/
def longTitle : String := String.ofList (List.replicate (maxValueLen + 1) 'a')

theorem shorten_longTitle :
    shorten longTitle maxValueLen = String.ofList (List.replicate maxValueLen 'a') := by
  rw [shorten, longTitle, String.toList_ofList, List.take_replicate,
    Nat.min_eq_left (Nat.le_succ _)]

theorem trim_longTitle : trim longTitle = longTitle := by
  have hhead : ∀ n, (List.replicate (n + 1) 'a').dropWhile isWhitespace =
      List.replicate (n + 1) 'a' := fun n => rfl
  rw [trim, longTitle, String.toList_ofList, hhead, List.reverse_replicate, hhead,
    List.reverse_replicate]

/-- **A title that is shortened is held and reported, and taken for another.** -/
theorem title_drifts :
    ¬ ∀ (intent : Intent) (field : FieldName) (value : String), Writes intent field value →
      ∀ instruction, toInstruction intent = .ok instruction →
        ∀ query, Query.fromStr field = some query → ∀ text, carried intent = some text →
          Obeyed intent query text := by
  intro h
  have hregister : Register.fromStr "TITLE" = some .title := by decide
  have hok : toInstruction (.setMetadata "TITLE" longTitle) =
      .ok (Register.title.instruction longTitle) := by
    simp only [toInstruction, hregister]
  have hcarried : carried (.setMetadata "TITLE" longTitle) = some (shorten longTitle maxValueLen) :=
    congrArg (Option.map fun _ => shorten longTitle maxValueLen) hregister
  rw [shorten_longTitle] at hcarried
  have hobeyed := h _ "TITLE" longTitle (.inl rfl) _ hok .title (by decide) _ hcarried
  have hnone : cr ∉ (String.ofList (List.replicate maxValueLen 'a')).toList := by
    rw [String.toList_ofList]
    exact fun hmem => absurd (List.eq_of_mem_replicate hmem) (by decide)
  have hbare : SisError.ofLine
      (firstLine (String.ofList (List.replicate maxValueLen 'a')).toList) = none := by
    rw [firstLine_self hnone, String.toList_ofList]
    rfl
  obtain ⟨reads, later, hne, hsplit, hread⟩ := @Devices.exchange_reports .title rfl _ hbare
  rw [String.ofList_toList, readBack_self hnone] at hread
  have hmet := (satisfies_text _ _).mp (hobeyed reads hne hsplit _ later hread)
  rw [trim_longTitle, or_self, longTitle] at hmet
  have hlen := congrArg List.length (String.ofList_injective hmet)
  rw [List.length_replicate, List.length_replicate] at hlen
  omega

end Sismatic
