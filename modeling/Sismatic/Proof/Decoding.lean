import Sismatic.Proof.Fragments
import Sismatic.Proof.Digits
import Sismatic.Proof.Alarms

/-!
# Decoding undoes the device's encoding

For every kind of value a field can have, the line a device sends for it is decoded to that
value by the read that completes the line, and to nothing before, however the line arrives.
A number that does not fit its field is never decoded.
-/

namespace Sismatic

/-! ## The device's encoding -/

/-- The kinds of value a field can have. -/
inductive ReplyKind
  | text | port | number | flag | state | mac | alarms
deriving DecidableEq

def Query.kind : Query → ReplyKind
  | .runningState => .state
  | .macAddress => .mac
  | .activeAlarms => .alarms
  | .telnetPort | .sshPort | .httpPort | .snmpPort | .httpsPort => .port
  | .portTimeout | .globalPortTimeout => .number
  | .snmpState | .dhcpMode | .stream1State | .stream2State | .stream3State
  | .rtmpStream1LiveState | .rtmpStream2LiveState | .rtmpStream3LiveState
  | .rtmpBackupStream1LiveState | .rtmpBackupStream2LiveState
  | .rtmpBackupStream3LiveState => .flag
  | _ => .text

/-- How a reply of this kind is read. -/
def ReplyKind.parser : ReplyKind → String → Step Value
  | .text => plainText
  | .port => plainPort
  | .number => plainNumber
  | .flag => booleanFlag
  | .state => parseState
  | .mac => macAddress
  | .alarms => activeAlarms

theorem parseStep_kind (query : Query) : query.instruction.parseStep = query.kind.parser := by
  cases query <;> rfl

/-- The first number that does not fit a field of digits. -/
def ReplyKind.bound : ReplyKind → Option Nat
  | .port => some (2 ^ 16)
  | .number => some (2 ^ 32)
  | _ => none

def zeroPadded (zeros n : Nat) : List Char := List.replicate zeros '0' ++ Nat.toDigits 10 n

/-- A hexadecimal digit, in one case or the other. -/
def hexChar (upper : Bool) (digit : Nat) : Char :=
  if upper then (Nat.digitChar digit).toUpper else Nat.digitChar digit

def hexPair (upper : Bool × Bool) (byte : UInt8) : List Char :=
  [hexChar upper.1 (byte.toNat / 16), hexChar upper.2 (byte.toNat % 16)]

def macLine (upper : Fin 6 → Bool × Bool) (bytes : Vector UInt8 6) : List Char :=
  hexPair (upper 0) bytes[0] ++ '-' :: (hexPair (upper 1) bytes[1] ++ '-' ::
    (hexPair (upper 2) bytes[2] ++ '-' :: (hexPair (upper 3) bytes[3] ++ '-' ::
      (hexPair (upper 4) bytes[4] ++ '-' :: hexPair (upper 5) bytes[5]))))

/-- Text that can stand in an alarm record. -/
def Plain (s : String) : Prop := ∀ c ∈ s.toList, c ≠ cr ∧ c ≠ ',' ∧ c ≠ '>'

/-- The lines a device sends for a value. A number may be padded with zeros. -/
inductive Encodes : ReplyKind → Value → List Char → Prop
  | text {s : String} (h : cr ∉ s.toList) : Encodes .text (.text s) s.toList
  | port (p : UInt16) (zeros : Nat) : Encodes .port (.port p) (zeroPadded zeros p.toNat)
  | number (n : UInt32) (zeros : Nat) : Encodes .number (.number n) (zeroPadded zeros n.toNat)
  | flag (b : Bool) : Encodes .flag (.flag b) [if b then '1' else '0']
  | stopped : Encodes .state (.state .stopped) ['0']
  | started : Encodes .state (.state .started) ['1']
  | paused : Encodes .state (.state .paused) ['2']
  | mac (bytes : Vector UInt8 6) (upper : Fin 6 → Bool × Bool) :
      Encodes .mac (.mac bytes) (macLine upper bytes)
  | alarms {alarms : List (String × String)}
      (h : ∀ alarm ∈ alarms, Plain alarm.1 ∧ Plain alarm.2) :
      Encodes .alarms (.alarms alarms) (alarmsText alarms)

/-! ## Lines have no return in them -/

theorem isDigit_zeroPadded {zeros n : Nat} {c : Char} (h : c ∈ zeroPadded zeros n) :
    c.isDigit = true := by
  rcases List.mem_append.mp h with h | h
  · rw [(List.mem_replicate.mp h).2]
    rfl
  · exact Nat.isDigit_of_mem_toDigits (by decide) (by decide) h

theorem zeroPadded_ne_nil (zeros n : Nat) : zeroPadded zeros n ≠ [] :=
  List.append_ne_nil_of_right_ne_nil _ Nat.toDigits_ne_nil

/-- Leading zeros count for nothing. -/
theorem digitsValue_zeroPadded (zeros n : Nat) : digitsValue (zeroPadded zeros n) = n := by
  induction zeros with
  | zero => exact digitsValue_toDigits n
  | succ zeros ih =>
      rw [zeroPadded, List.replicate_succ]
      exact ih

theorem hexChar_spec : ∀ (upper : Bool) (digit : Fin 16),
    isHexDigit (hexChar upper digit) = true ∧ hexChar upper digit ≠ cr ∧
      (if (hexChar upper digit).isDigit then (hexChar upper digit).toNat - '0'.toNat
        else (hexChar upper digit).toLower.toNat - 'a'.toNat + 10) = digit := by
  decide

theorem cr_notMem_hexPair (upper : Bool × Bool) (byte : UInt8) : cr ∉ hexPair upper byte := by
  have hhigh := (hexChar_spec upper.1 ⟨byte.toNat / 16, by have := byte.toNat_lt; omega⟩).2.1
  have hlow := (hexChar_spec upper.2 ⟨byte.toNat % 16, by omega⟩).2.1
  simp only [hexPair, List.mem_cons, List.not_mem_nil, or_false, not_or]
  exact ⟨Ne.symm hhigh, Ne.symm hlow⟩

theorem cr_notMem_alarmText {alarm : String × String} (h : Plain alarm.1 ∧ Plain alarm.2) :
    cr ∉ alarmText alarm := by
  have hname : cr ∉ alarm.1.toList := fun hmem => (h.1 cr hmem).1 rfl
  have hlevel : cr ∉ alarm.2.toList := fun hmem => (h.2 cr hmem).1 rfl
  simp only [alarmText, List.mem_append, not_or]
  exact ⟨by decide, hname, by decide, hlevel, by decide⟩

theorem cr_notMem_alarmsText {alarms : List (String × String)}
    (h : ∀ alarm ∈ alarms, Plain alarm.1 ∧ Plain alarm.2) : cr ∉ alarmsText alarms := by
  cases alarms with
  | nil => exact List.not_mem_nil
  | cons alarm alarms =>
      obtain ⟨hfirst, hall⟩ := List.forall_mem_cons.mp h
      simp only [alarmsText, joined, further, List.mem_append, List.mem_flatMap, not_or, not_exists]
      refine ⟨cr_notMem_alarmText hfirst, fun other hother => ?_⟩
      obtain ⟨hmem, hcr⟩ := hother
      rcases List.mem_cons.mp hcr with hstar | hcr
      · exact absurd hstar (by decide)
      · exact cr_notMem_alarmText (hall other hmem) hcr

theorem Encodes.cr_notMem {kind : ReplyKind} {value : Value} {line : List Char}
    (h : Encodes kind value line) : cr ∉ line := by
  cases h with
  | text h => exact h
  | port p zeros => exact fun hcr => absurd (isDigit_zeroPadded hcr) (by decide)
  | number n zeros => exact fun hcr => absurd (isDigit_zeroPadded hcr) (by decide)
  | flag b => cases b <;> decide
  | stopped => decide
  | started => decide
  | paused => decide
  | mac bytes upper =>
      have hdash : cr ≠ '-' := by decide
      simp only [macLine, List.mem_append, List.mem_cons, cr_notMem_hexPair, hdash, or_self,
        not_false_eq_true]
  | alarms h => exact cr_notMem_alarmsText h

/-! ## What the parsers read of a line -/

/-- A reply whose first offset is read. -/
theorem parserOf_line {α : Type} {core : Parser α} {wrap : α → Value} {value : α}
    {line : List Char} (h : core (line ++ [cr, lf]) = .ok (value, [])) :
    parserOf core wrap (String.ofList (line ++ [cr, lf])) = .done (wrap value) := by
  have hne := List.append_ne_nil_of_right_ne_nil line (List.cons_ne_nil cr [lf])
  rw [parserOf, String.toList_ofList, search_head hne h]

theorem takeWhile1_ok {p : Char → Bool} {text rest : List Char} {c : Char} (hne : text ≠ [])
    (hall : ∀ d ∈ text, p d = true) (hc : p c = false) :
    takeWhile1 p (text ++ c :: rest) = .ok (String.ofList text, c :: rest) := by
  have hdrop : (text ++ c :: rest).dropWhile p = c :: rest := by
    rw [List.dropWhile_append_of_pos hall, List.dropWhile_cons, hc, if_neg (by decide)]
  have htake : (text ++ c :: rest).takeWhile p = text := by
    rw [List.takeWhile_append_of_pos hall, List.takeWhile_cons, hc, if_neg (by decide),
      List.append_nil]
  simp only [takeWhile1, hdrop, htake, hne, if_false]

/-- A line of digits is the number it stands for, or commits to being none. -/
theorem plainDigits_line {digits : List Char} (hne : digits ≠ [])
    (hall : ∀ c ∈ digits, c.isDigit = true) (bound : Nat) (rest : List Char) :
    plainDigits bound (digits ++ cr :: lf :: rest) =
      if bound ≤ digitsValue digits then .error .cut else .ok (digitsValue digits, rest) := by
  have htake : takeWhile1 Char.isDigit (digits ++ cr :: lf :: rest) =
      .ok (String.ofList digits, cr :: lf :: rest) := takeWhile1_ok hne hall rfl
  have hend : literal "\r\n" (cr :: lf :: rest) = .ok ((), rest) := literalChars_ok.mpr rfl
  simp only [plainDigits, bind, StateT.bind, Except.bind, htake, hend,
    parseUnsigned_digits hne hall]
  split <;> rfl

theorem macByte_hexPair (upper : Bool × Bool) (byte : UInt8) (rest : List Char) :
    macByte (hexPair upper byte ++ rest) = .ok (byte, rest) := by
  have hhigh := hexChar_spec upper.1 ⟨byte.toNat / 16, by have := byte.toNat_lt; omega⟩
  have hlow := hexChar_spec upper.2 ⟨byte.toNat % 16, by omega⟩
  have htake : takeExactly isHexDigit 2 (hexPair upper byte ++ rest) =
      .ok (String.ofList (hexPair upper byte), rest) := by
    simp [takeExactly, hexPair, hhigh.1, hlow.1]
  have hvalue : hexValue (hexPair upper byte) = byte := by
    simp only [hexValue, hexPair, List.foldl_cons, List.foldl_nil, hhigh.2.2, hlow.2.2]
    rw [show (0 * 16 + byte.toNat / 16) * 16 + byte.toNat % 16 = byte.toNat by omega]
    exact UInt8.ofNat_toNat
  refine bind_ok.mpr ⟨_, rest, htake, ?_⟩
  rw [String.toList_ofList, hvalue]
  rfl

theorem parseMac_macLine (upper : Fin 6 → Bool × Bool) (bytes : Vector UInt8 6)
    (rest : List Char) : parseMac (macLine upper bytes ++ rest) = .ok (bytes, rest) := by
  have hdash : ∀ rest, literal "-" ('-' :: rest) = .ok ((), rest) :=
    fun rest => literalChars_ok.mpr rfl
  have hbytes : #v[bytes[0], bytes[1], bytes[2], bytes[3], bytes[4], bytes[5]] = bytes := by
    ext i hi
    match i, hi with
    | 0, _ | 1, _ | 2, _ | 3, _ | 4, _ | 5, _ => rfl
  simp only [parseMac, macLine, List.append_assoc, List.cons_append, bind, StateT.bind,
    Except.bind, macByte_hexPair, hdash, hbytes]
  rfl

/-- **A line is read as the value it is sent for.** -/
theorem Encodes.parses {kind : ReplyKind} {value : Value} {line : List Char}
    (h : Encodes kind value line) :
    kind.parser (String.ofList (line ++ [cr, lf])) = .done value := by
  cases h with
  | @text s h =>
      refine parserOf_line ?_
      have htake : takeWhile0 isNotCr (s.toList ++ [cr, lf]) = .ok (s, [cr, lf]) :=
        takeWhile0_ok.mpr ⟨rfl, all_isNotCr.mpr h, cr, [lf], rfl, not_isNotCr.mpr rfl⟩
      exact bind_ok.mpr ⟨s, _, htake, bind_ok.mpr ⟨(), [], literalChars_ok.mpr rfl, rfl⟩⟩
  | port p zeros =>
      have hline := plainDigits_line (zeroPadded_ne_nil zeros p.toNat)
        (fun _ => isDigit_zeroPadded) (2 ^ 16) []
      rw [digitsValue_zeroPadded, if_neg (Nat.not_le.mpr p.toNat_lt)] at hline
      refine (parserOf_line hline).trans ?_
      rw [UInt16.ofNat_toNat]
  | number n zeros =>
      have hline := plainDigits_line (zeroPadded_ne_nil zeros n.toNat)
        (fun _ => isDigit_zeroPadded) (2 ^ 32) []
      rw [digitsValue_zeroPadded, if_neg (Nat.not_le.mpr n.toNat_lt)] at hline
      refine (parserOf_line hline).trans ?_
      rw [UInt32.ofNat_toNat]
  | flag b => cases b <;> rfl
  | stopped => rfl
  | started => rfl
  | paused => rfl
  | mac bytes upper =>
      refine parserOf_line (bind_ok.mpr ⟨bytes, [cr, lf], parseMac_macLine upper bytes _, ?_⟩)
      exact bind_ok.mpr ⟨(), [], literalChars_ok.mpr rfl, rfl⟩
  | alarms h =>
      refine @parserOf_line _ alarmsLine .alarms _ _ (alarmsLine_text (fun alarm ha => ?_) [])
      obtain ⟨hname, hlevel⟩ := h alarm ha
      exact ⟨fun c hc => (hname c hc).2, fun hc => (hlevel '>' hc).2.2 rfl⟩

/-! ## However the line arrives -/

/-- A part of a line has no line end, unless it is all of it. -/
theorem part_of_line {line part : List Char} (hcr : cr ∉ line) (hpart : part <+: line ++ [cr, lf])
    (hends : [cr, lf] <:+: part) : part = line ++ [cr, lf] := by
  have hline : line ++ [cr, lf] = line ++ [cr] ++ [lf] := (List.append_assoc line [cr] [lf]).symm
  rw [hline] at hpart ⊢
  rcases List.prefix_concat_iff.mp hpart with heq | hpart
  · exact heq
  · obtain ⟨before, after, hsplit⟩ := hends.trans hpart.isInfix
    have hmiddle : line ++ [cr] = before ++ cr :: (lf :: after) := by
      rw [← hsplit, List.append_assoc]
      rfl
    obtain ⟨more, -, hmore⟩ := split_after hmiddle hcr
    have hlen := congrArg List.length hmore
    simp only [List.length_append, List.length_cons, List.length_nil] at hlen
    omega

theorem completeLines_line {line : List Char} (hcr : cr ∉ line) (rest : List Char) :
    SisError.completeLines (line ++ cr :: lf :: rest) = line :: SisError.completeLines rest := by
  induction line with
  | nil => rfl
  | cons c line ih =>
      obtain ⟨hc, hline⟩ := not_or.mp (mt List.mem_cons.mpr hcr)
      rw [List.cons_append, SisError.completeLines, ih hline]
      rintro rest' rfl
      exact absurd rfl hc

namespace Devices

variable {query : Query}

/-- Nothing is found in a part of a line. -/
theorem parseReply_part {line : List Char} (hcr : cr ∉ line) {seen : List UInt8}
    (hseen : seen <+: utf8 (line ++ [cr, lf])) (hne : seen ≠ utf8 (line ++ [cr, lf])) :
    parseReply query.instruction seen = none := by
  cases hparse : parseReply query.instruction seen with
  | none => rfl
  | some answer =>
      have hends := parseReply_line (wholeLine_query query) hparse
      have hall := part_of_line hcr (validPrefix_begins hseen) hends
      have harrived := (validPrefix_spec seen).1
      rw [hall] at harrived
      exact absurd (hseen.eq_of_length_le harrived.length_le) hne

/-- The whole line is no refusal, and is read. -/
theorem parseReply_encoded {line : List Char} {value : Value}
    (henc : Encodes query.kind value line) (hbare : SisError.ofLine line = none) :
    parseReply query.instruction (utf8 (line ++ [cr, lf])) = some (.ok value) := by
  have htext : validPrefix (utf8 (line ++ [cr, lf])) = String.ofList (line ++ [cr, lf]) := by
    rw [← validPrefix_utf8 (line ++ [cr, lf]), String.ofList_toList, validPrefix_utf8]
  have hreply : SisError.inReply (String.ofList (line ++ [cr, lf])) = none := by
    rw [SisError.inReply, String.toList_ofList, completeLines_line henc.cr_notMem]
    simp [SisError.completeLines, hbare]
  simp only [parseReply, htext, hreply, parseStep_kind, henc.parses]

/-- A number that does not fit is never read, whatever follows it. -/
theorem parseStep_overflow {bound : Nat} (hbound : query.kind.bound = some bound) {zeros n : Nat}
    (hn : bound ≤ n) {text : List Char}
    (htext : text <+: zeroPadded zeros n ++ [cr, lf] ∨ zeroPadded zeros n ++ [cr, lf] <+: text) :
    query.instruction.parseStep (String.ofList text) = .needMore := by
  have hcr : cr ∉ zeroPadded zeros n := fun h => absurd (isDigit_zeroPadded h) (by decide)
  -- either no line has ended, or the digits commit
  have hcases : ¬ [cr, lf] <:+: text ∨ zeroPadded zeros n ++ [cr, lf] <+: text := by
    rcases htext with hpart | hwhole
    · by_cases hends : [cr, lf] <:+: text
      · exact .inr (part_of_line hcr hpart hends ▸ List.prefix_refl _)
      · exact .inl hends
    · exact .inr hwhole
  rcases hcases with hends | ⟨more, rfl⟩
  · cases hparse : query.instruction.parseStep (String.ofList text) with
    | needMore => rfl
    | done value =>
        have hline := wholeLine_query query _ value hparse
        rw [String.toList_ofList] at hline
        exact absurd hline hends
  · have hcut : plainDigits bound (zeroPadded zeros n ++ cr :: lf :: more) = .error .cut := by
      rw [plainDigits_line (zeroPadded_ne_nil zeros n) (fun _ => isDigit_zeroPadded),
        digitsValue_zeroPadded, if_pos hn]
    have hsearch : search (plainDigits bound) (zeroPadded zeros n ++ [cr, lf] ++ more) =
        .needMore := by
      rw [List.append_assoc]
      obtain ⟨first, rest, hfirst⟩ := List.exists_cons_of_ne_nil (zeroPadded_ne_nil zeros n)
      rw [hfirst] at hcut ⊢
      rw [List.cons_append] at hcut
      simp only [List.cons_append, List.nil_append, search, hcut]
    rw [parseStep_kind]
    cases hkind : query.kind with
    | port =>
        rw [hkind] at hbound
        cases hbound
        simp only [ReplyKind.parser, plainPort, parserOf, String.toList_ofList, hsearch]
    | number =>
        rw [hkind] at hbound
        cases hbound
        simp only [ReplyKind.parser, plainNumber, parserOf, String.toList_ofList, hsearch]
    | _ => rw [hkind] at hbound; cases hbound

/--
**Decoding undoes the device's encoding, however the line is split.** The read that completes
the line returns the value, and none before it returns; and a number that does not fit its
field is never returned, whatever follows it.
-/
theorem exchange_decodes (query : Query) :
    (∀ value line, Encodes query.kind value line → SisError.ofLine line = none →
      ∀ reads : List (List UInt8), (∀ chunk ∈ reads, chunk ≠ []) →
        reads.flatten = utf8 (line ++ [cr, lf]) →
          exchange query.instruction (.ok ()) (reads.map .ok) = some (.ok value, []) ∧
            ∀ seen, seen <+: reads → seen ≠ reads →
              exchange query.instruction (.ok ()) (seen.map .ok) = none) ∧
      ∀ bound, query.kind.bound = some bound → ∀ zeros n, bound ≤ n →
        ∀ reads : List (List UInt8), (∀ chunk ∈ reads, chunk ≠ []) →
          utf8 (zeroPadded zeros n ++ [cr, lf]) <+: reads.flatten →
            ∀ value later,
              exchange query.instruction (.ok ()) (reads.map .ok) ≠ some (.ok value, later) := by
  refine ⟨?_, ?_⟩
  · intro value line henc hbare reads hne hsplit
    have hnone : ∀ seen, seen <+: reads → seen ≠ reads →
        parseReply query.instruction ([] ++ seen.flatten) = none := by
      intro seen hseen hall
      exact parseReply_part henc.cr_notMem (seen_begins hsplit hseen)
        (seen_ne hne hsplit hseen hall)
    refine ⟨?_, fun seen hseen hall => ?_⟩
    · rcases List.eq_nil_or_concat reads with rfl | ⟨before, chunk, rfl⟩
      · exact absurd hsplit.symm (utf8_ne_nil (by simp))
      · rw [List.concat_eq_append] at hne hsplit hnone ⊢
        rw [exchange, List.map_append]
        refine exchangeLoop_completes (fun c hc => hne c (List.mem_append_left _ hc))
          (hne chunk (List.mem_append_right _ List.mem_cons_self)) (fun seen _ hseen => ?_) ?_ []
        · refine hnone seen (hseen.trans (List.prefix_append _ _)) ?_
          rintro rfl
          have hlen := hseen.length_le
          rw [List.length_append, List.length_singleton] at hlen
          omega
        · rw [List.flatten_append, List.flatten_singleton] at hsplit
          rw [List.nil_append, hsplit]
          exact parseReply_encoded henc hbare
    · have hwaits := @exchangeLoop_waits query.instruction seen []
        (fun c hc => hne c (hseen.subset hc)) (fun part _ hpart => ?_) []
      · rw [List.append_nil] at hwaits
        exact hwaits
      · refine hnone part (hpart.trans hseen) ?_
        rintro rfl
        exact hall (hseen.eq_of_length_le hpart.length_le)
  · intro bound hbound zeros n hn reads hne hline value later h
    obtain ⟨before, chunk, after, rfl, -, -, hsome⟩ := (exchangeLoop_iff hne).mp h
    have hseen : before.flatten ++ chunk <+: (before ++ chunk :: after).flatten :=
      ⟨after.flatten, by rw [List.flatten_append, List.flatten_cons, List.append_assoc]⟩
    have harrived := (validPrefix_spec (before.flatten ++ chunk)).1
    have htext : (validPrefix (before.flatten ++ chunk)).toList <+:
          zeroPadded zeros n ++ [cr, lf] ∨
        zeroPadded zeros n ++ [cr, lf] <+: (validPrefix (before.flatten ++ chunk)).toList := by
      rcases List.prefix_or_prefix_of_prefix hseen hline with hpart | hwhole
      · exact .inl (validPrefix_begins hpart)
      · exact .inr ((validPrefix_spec _).2 _ hwhole)
    have hmore := parseStep_overflow hbound hn htext
    rw [String.ofList_toList] at hmore
    rw [List.nil_append] at hsome
    unfold parseReply at hsome
    simp only [hmore] at hsome
    split at hsome <;> cases hsome

/-- A name that is cut inside a character, and a port that is too large. -/
theorem exchange_decodes_cut :
    exchange Query.unitName.instruction (.ok ()) [.ok [0xc3], .ok [0xa9, 0x0d], .ok [0x0a]] =
        some (.ok (.text "é"), []) ∧
      ∀ value later, exchange Query.telnetPort.instruction (.ok ())
        [.ok [0x39, 0x39], .ok [0x39, 0x39, 0x39, 0x0d, 0x0a]] ≠ some (.ok value, later) := by
  have hname : cr ∉ "é".toList := by decide
  have hdigits : zeroPadded 0 99999 = ['9', '9', '9', '9', '9'] := rfl
  refine ⟨((exchange_decodes .unitName).1 _ _ (.text hname) rfl [[0xc3], [0xa9, 0x0d], [0x0a]]
    (by decide) (by decide)).1, fun value later => ?_⟩
  refine (exchange_decodes .telnetPort).2 _ rfl 0 99999 (by decide)
    [[0x39, 0x39], [0x39, 0x39, 0x39, 0x0d, 0x0a]] (by decide) ?_ value later
  rw [hdigits]
  exact ⟨[], by decide⟩

end Devices

end Sismatic
