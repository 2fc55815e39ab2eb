import Sismatic.Proof.Digits
import Sismatic.Proof.Echo
import Mathlib.Data.List.Forall2

/-!
# An addressed echo is of one setting

The head of an addressed echo is a verb and an address, and the address comes back with as
many zeros before each index as the device likes. Reading a component is reading its letters
and a whole run of digits, so two addresses that differ anywhere are told apart before the
value is reached; and the head stands nowhere in a line but at its start, because the value
has no separator in it.
-/

namespace Sismatic

/-! ## An address on the wire -/

/-- A component of an address as a device may send it, with zeros before its trailing digits. -/
def Padded (part text : List Char) : Prop :=
  ∃ (letters digits : List Char) (zeros : Nat), part = letters ++ digits ∧
    (∀ c ∈ letters, c.isDigit = false) ∧ digits ≠ [] ∧ (∀ c ∈ digits, c.isDigit = true) ∧
      text = letters ++ (List.replicate zeros '0' ++ digits)

/-- The line a device answers an addressed write with: `<Verb><addr>*<value> CR LF`. -/
def EchoOf (verb addr encoded : String) (line : List Char) : Prop :=
  ∃ texts, List.Forall₂ Padded (addr.toList.splitOn '*') texts ∧
    line = (echoed verb).toList ++ List.intercalate ['*'] texts ++ '*' :: encoded.toList ++
      [cr, lf]

/-- A text is a component's letters and a run of digits that is its index. -/
def Spells (part : AddressPart) (text : List Char) : Prop :=
  ∃ digits, text = part.letters.toList ++ digits ∧ digits ≠ [] ∧
    (∀ c ∈ digits, c.isDigit = true) ∧
      parseUnsigned (2 ^ 32) (String.ofList digits) = part.index

/-- One component of an address, as it is split at its trailing digits. -/
def addressPart (part : List Char) : AddressPart :=
  let digitsAt := part.length - (part.reverse.takeWhile Char.isDigit).length
  { letters := String.ofList (part.take digitsAt)
    index := parseUnsigned (2 ^ 32) (String.ofList (part.drop digitsAt)) }

theorem addressParts_eq (addr : String) :
    addressParts addr = (addr.toList.splitOn '*').map addressPart := rfl

theorem digitsValue_padded (zeros : Nat) (digits : List Char) :
    digitsValue (List.replicate zeros '0' ++ digits) = digitsValue digits := by
  have hzeros : digitsValue (List.replicate zeros '0') = 0 := by
    induction zeros with
    | zero => rfl
    | succ zeros ih =>
        rw [List.replicate_succ', digitsValue, List.foldl_append]
        show digitsValue (List.replicate zeros '0') * 10 + ('0'.toNat - '0'.toNat) = 0
        omega
  rw [digitsValue, List.foldl_append]
  exact congrArg (fun n => digits.foldl _ n) hzeros

/-- However it is padded, a component is what the parser is told to look for. -/
theorem spells_of_padded {part text : List Char} (h : Padded part text) :
    Spells (addressPart part) text := by
  obtain ⟨letters, digits, zeros, rfl, hletters, hne, hdigits, rfl⟩ := h
  have hrun : (letters ++ digits).reverse.takeWhile Char.isDigit = digits.reverse := by
    have hstop : letters.reverse.takeWhile Char.isDigit = [] := by
      cases hrev : letters.reverse with
      | nil => rfl
      | cons c rest =>
          have hc : c ∈ letters := List.mem_reverse.mp (hrev ▸ List.mem_cons_self)
          rw [List.takeWhile_cons, if_neg (by rw [hletters c hc]; exact Bool.false_ne_true)]
    rw [List.reverse_append, List.takeWhile_append_of_pos
      (fun c hc => hdigits c (List.mem_reverse.mp hc)), hstop, List.append_nil]
  have hat : (letters ++ digits).length -
      ((letters ++ digits).reverse.takeWhile Char.isDigit).length = letters.length := by
    rw [hrun, List.length_append, List.length_reverse]
    omega
  have hpadded : ∀ c ∈ List.replicate zeros '0' ++ digits, c.isDigit = true := by
    intro c hc
    rcases List.mem_append.mp hc with hzero | hdigit
    · rw [List.eq_of_mem_replicate hzero]
      rfl
    · exact hdigits c hdigit
  have hnonempty : List.replicate zeros '0' ++ digits ≠ [] :=
    fun hnil => hne (List.append_eq_nil_iff.mp hnil).2
  refine ⟨List.replicate zeros '0' ++ digits, ?_, hnonempty, hpadded, ?_⟩
  · rw [addressPart, hat, List.take_left, String.toList_ofList]
  · rw [addressPart, hat, List.drop_left, parseUnsigned_digits hnonempty hpadded,
      parseUnsigned_digits hne hdigits, digitsValue_padded]

/-! ## Reading an address -/

theorem takeWhile1_ok_iff {p : Char → Bool} {input : List Char} {v : String} {rest : List Char} :
    takeWhile1 p input = .ok (v, rest) ↔
      input = v.toList ++ rest ∧ v.toList ≠ [] ∧ (∀ c ∈ v.toList, p c = true) ∧
        ∃ c rest', rest = c :: rest' ∧ ¬ p c := by
  have hboth : takeWhile1 p input = .ok (v, rest) ↔
      takeWhile0 p input = .ok (v, rest) ∧ v.toList ≠ [] := by
    unfold takeWhile1 takeWhile0
    cases hdrop : input.dropWhile p with
    | nil => simp
    | cons c rest' =>
        by_cases hnil : input.takeWhile p = []
        · simp only [hnil, if_true, Except.ok.injEq, Prod.mk.injEq]
          refine ⟨fun h => (nomatch h), ?_⟩
          rintro ⟨⟨rfl, -⟩, hne⟩
          exact absurd String.toList_ofList hne
        · simp only [hnil, if_false, Except.ok.injEq, Prod.mk.injEq]
          refine ⟨fun h => ⟨h, ?_⟩, fun h => h.1⟩
          rw [← h.1, String.toList_ofList]
          exact hnil
  rw [hboth, takeWhile0_ok]
  constructor
  · rintro ⟨⟨heq, hall, hstop⟩, hne⟩
    exact ⟨heq, hne, hall, hstop⟩
  · rintro ⟨heq, hne, hall, hstop⟩
    exact ⟨⟨heq, hall, hstop⟩, hne⟩

/-- What stands before a component: the separator, unless it is the first. -/
def lead (n : Nat) : List Char := if 0 < n then ['*'] else []

/-- The index of a component, compared as a number. -/
def indexIs (expected : Nat) : Parser Unit := do
  let digits ← takeWhile1 Char.isDigit
  if parseUnsigned (2 ^ 32) digits ≠ some expected then throw .backtrack

/-- A component is read as what stands before it, its letters and its index. -/
theorem AddressPart.parse_eq (n : Nat) (letters : String) (expected : Nat) :
    AddressPart.parse n ⟨letters, some expected⟩ =
      (literal (String.ofList (lead n)) >>= fun _ => literal letters >>= fun _ =>
        indexIs expected) := by
  have hempty : ∀ {β : Type} (f : Unit → Parser β), (literal "" >>= f) = f () := by
    intro β f
    rfl
  have hletters : ∀ p : Parser Unit,
      (do if letters ≠ "" then literal letters
          p) = (literal letters >>= fun _ => p) := by
    intro p
    by_cases hnil : letters = ""
    · subst hnil
      rw [hempty]
      rfl
    · simp only [ne_eq, hnil, not_false_eq_true, if_true]
  unfold AddressPart.parse lead
  by_cases hn : 0 < n
  · simp only [hn, if_true]
    exact congrArg (literal "*" >>= fun _ => ·) (hletters _)
  · simp only [hn, if_false]
    exact hletters _

theorem indexIs_ok {expected : Nat} {input rest : List Char} :
    indexIs expected input = .ok ((), rest) ↔
      ∃ digits, input = digits ++ rest ∧ digits ≠ [] ∧ (∀ c ∈ digits, c.isDigit = true) ∧
        parseUnsigned (2 ^ 32) (String.ofList digits) = some expected ∧
          ∃ c rest', rest = c :: rest' ∧ ¬ c.isDigit = true := by
  unfold indexIs
  simp only [bind_ok, takeWhile1_ok_iff]
  constructor
  · rintro ⟨v, rest', ⟨rfl, hne, hall, hstop⟩, hcheck⟩
    by_cases hindex : parseUnsigned (2 ^ 32) v = some expected
    · simp only [hindex, ne_eq, not_true_eq_false, if_false] at hcheck
      obtain ⟨-, rfl⟩ := Prod.mk.inj (Except.ok.inj hcheck)
      refine ⟨v.toList, rfl, hne, hall, ?_, hstop⟩
      rw [String.ofList_toList]
      exact hindex
    · simp only [ne_eq, hindex, not_false_eq_true, if_true] at hcheck
      cases hcheck
  · rintro ⟨digits, rfl, hne, hall, hindex, hstop⟩
    refine ⟨String.ofList digits, rest, ⟨?_, ?_, ?_, hstop⟩, ?_⟩
    · rw [String.toList_ofList]
    · rw [String.toList_ofList]
      exact hne
    · rw [String.toList_ofList]
      exact hall
    · simp only [hindex, ne_eq, not_true_eq_false, if_false]
      rfl

/-- **A component is read exactly where one of its spellings stands.** -/
theorem AddressPart.parse_ok {part : AddressPart} (hindex : part.index.isSome) {n : Nat}
    {input rest : List Char} :
    part.parse n input = .ok ((), rest) ↔
      ∃ text, input = lead n ++ text ++ rest ∧ Spells part text ∧
        ∃ c rest', rest = c :: rest' ∧ ¬ c.isDigit = true := by
  obtain ⟨letters, index⟩ := part
  obtain ⟨expected, rfl⟩ := Option.isSome_iff_exists.mp hindex
  rw [AddressPart.parse_eq]
  simp only [bind_ok, literal, indexIs_ok, String.toList_ofList]
  constructor
  · rintro ⟨_, _, hlead, _, _, hletters, digits, rfl, hne, hall, hvalue, hstop⟩
    obtain rfl := literalChars_ok.mp hlead
    obtain rfl := literalChars_ok.mp hletters
    refine ⟨letters.toList ++ digits, ?_, ⟨digits, rfl, hne, hall, hvalue⟩, hstop⟩
    simp only [List.append_assoc]
  · rintro ⟨text, rfl, ⟨digits, rfl, hne, hall, hvalue⟩, hstop⟩
    refine ⟨(), letters.toList ++ (digits ++ rest), ?_, (), digits ++ rest, ?_, digits, rfl, hne,
      hall, hvalue, hstop⟩
    · rw [literalChars_ok]
      simp only [List.append_assoc]
    · exact literalChars_ok.mpr rfl

/-- The components of an address, from the `n`th on. -/
def starred (n : Nat) : List (List Char) → List Char
  | [] => []
  | text :: texts => lead n ++ text ++ starred (n + 1) texts

/-- What follows a component does not go on with its digits. -/
theorem starred_stops {n : Nat} {texts : List (List Char)} {rest : List Char}
    (h : ∃ c rest', rest = c :: rest' ∧ ¬ c.isDigit = true) :
    ∃ c rest', starred (n + 1) texts ++ rest = c :: rest' ∧ ¬ c.isDigit = true := by
  cases texts with
  | nil => exact h
  | cons text texts => exact ⟨'*', _, rfl, by decide⟩

/-- **An address is read exactly where one of its spellings stands.** -/
theorem forM_parse_ok {parts : List AddressPart} (hindex : ∀ part ∈ parts, part.index.isSome)
    {n : Nat} {input rest : List Char}
    (hstop : ∃ c rest', rest = c :: rest' ∧ ¬ c.isDigit = true) :
    (parts.zipIdx n).forM (fun part => part.1.parse part.2) input = .ok ((), rest) ↔
      ∃ texts, List.Forall₂ Spells parts texts ∧ input = starred n texts ++ rest := by
  induction parts generalizing n input with
  | nil =>
      constructor
      · intro h
        obtain ⟨-, rfl⟩ := Prod.mk.inj (Except.ok.inj h)
        exact ⟨[], .nil, rfl⟩
      · rintro ⟨texts, hspelled, rfl⟩
        cases hspelled
        rfl
  | cons part parts ih =>
      have hpart := hindex part List.mem_cons_self
      have hrest := fun p hp => hindex p (List.mem_cons_of_mem part hp)
      rw [List.zipIdx_cons, List.forM_eq_forM, List.forM_cons, bind_ok]
      constructor
      · rintro ⟨_, middle, hread, hmore⟩
        obtain ⟨text, rfl, hspells, -⟩ := (AddressPart.parse_ok hpart).mp hread
        obtain ⟨texts, hall, rfl⟩ := (ih hrest).mp hmore
        refine ⟨text :: texts, .cons hspells hall, ?_⟩
        simp only [starred, List.append_assoc]
      · rintro ⟨texts, hall, rfl⟩
        cases hall with
        | @cons _ text _ texts hspells hall =>
            refine ⟨(), starred (n + 1) texts ++ rest, ?_, (ih hrest).mpr ⟨texts, hall, rfl⟩⟩
            rw [AddressPart.parse_ok hpart]
            refine ⟨text, ?_, hspells, starred_stops hstop⟩
            simp only [starred, List.append_assoc]

/-- What an addressed parser runs at each offset. -/
def addressedLine (head : String) (parts : List AddressPart) : Parser String := do
  literal head
  parts.zipIdx.forM fun (part, n) => part.parse n
  literal "*"
  let v ← takeWhile0 isNotCr
  literal "\r\n"
  pure v

theorem addressedEcho_eq (verb addr : String) : addressedEcho verb addr =
    parserOf (addressedLine (echoed verb) (addressParts addr)) .text := rfl

theorem addressedLine_ok {head : String} {parts : List AddressPart}
    (hindex : ∀ part ∈ parts, part.index.isSome) {input rest : List Char} {v : String} :
    addressedLine head parts input = .ok (v, rest) ↔
      ∃ texts, List.Forall₂ Spells parts texts ∧ cr ∉ v.toList ∧
        input = head.toList ++ starred 0 texts ++ '*' :: v.toList ++ cr :: lf :: rest := by
  have hstop : ∀ more : List Char, ∃ c rest', '*' :: more = c :: rest' ∧ ¬ c.isDigit = true :=
    fun more => ⟨'*', more, rfl, by decide⟩
  have hsplit : addressedLine head parts = (literal head >>= fun _ =>
      parts.zipIdx.forM (fun part => part.1.parse part.2) >>= fun _ => echoLine "*") := rfl
  rw [hsplit]
  simp only [bind_ok, literal, echoLine_ok]
  constructor
  · rintro ⟨_, _, hhead, _, _, hparts, rfl, hcr⟩
    obtain rfl := literalChars_ok.mp hhead
    obtain ⟨texts, hall, rfl⟩ := (forM_parse_ok hindex (hstop _)).mp hparts
    refine ⟨texts, hall, hcr, ?_⟩
    simp only [List.append_assoc]
    rfl
  · rintro ⟨texts, hall, hcr, rfl⟩
    refine ⟨(), starred 0 texts ++ '*' :: (v.toList ++ cr :: lf :: rest), ?_, (),
      '*' :: (v.toList ++ cr :: lf :: rest), ?_, rfl, hcr⟩
    · rw [literalChars_ok]
      simp only [List.append_assoc, List.cons_append]
    · exact (forM_parse_ok hindex (hstop _)).mpr ⟨texts, hall, rfl⟩

/-! ## The catalog -/

/-- The components of the address a setting is written through, if it is. -/
def Setting.address (setting : Setting) : Option (List AddressPart) :=
  match setting.form with
  | .prefixed => none
  | .addressed addr => some (addressParts addr)

theorem Setting.address_of_form {setting : Setting} {addr : String}
    (h : setting.form = .addressed addr) : setting.address = some (addressParts addr) := by
  rw [Setting.address, h]

/-- A component of an address in the catalog: capital letters, if any, and an index. -/
def AddressPart.Plain (part : AddressPart) : Prop :=
  part.index.isSome ∧ ∀ c ∈ part.letters.toList, c.isDigit = false ∧ c ≠ '*' ∧ c ≠ 't'

instance (part : AddressPart) : Decidable part.Plain :=
  decidable_of_iff (part.index.isSome ∧
    part.letters.toList.all fun c => !c.isDigit && c != '*' && c != 't') <| by
      simp only [AddressPart.Plain, List.all_eq_true, Bool.and_eq_true, Bool.not_eq_true',
        bne_iff_ne, and_assoc, ne_eq]

theorem plain_catalog : ∀ setting ∈ Setting.all, ∀ parts ∈ setting.address.toList,
    parts ≠ [] ∧ ∀ part ∈ parts, part.Plain := by
  decide

theorem plain_address {setting : Setting} {parts : List AddressPart}
    (h : setting.address = some parts) : parts ≠ [] ∧ ∀ part ∈ parts, part.Plain :=
  plain_catalog setting (by cases setting <;> decide) parts (Option.mem_toList.mpr h)

/-- The verb of an addressed setting, as it is echoed: one `t`, and not at the start. -/
theorem addressed_verb (setting : Setting) : setting.address = none ∨
    (setting.verb = "STRC" ∧ (echoed setting.verb).toList = ['S', 't', 'r', 'c']) ∨
      (setting.verb = "RTMP" ∧ (echoed setting.verb).toList = ['R', 't', 'm', 'p']) := by
  cases setting <;> decide

/-- No address of a verb begins another one of it. -/
theorem address_distinct : ∀ setting ∈ Setting.all, ∀ other ∈ Setting.all, setting ≠ other →
    setting.verb = other.verb → ∀ parts ∈ setting.address.toList,
      ∀ others ∈ other.address.toList, ¬ others <+: parts := by
  decide

/-! ## Telling addresses apart -/

/-- The components of an address with the separator behind each. -/
def closed (texts : List (List Char)) : List Char := texts.flatMap (· ++ ['*'])

theorem closed_cons (text : List Char) (texts : List (List Char)) :
    closed (text :: texts) = text ++ '*' :: closed texts := by
  rw [closed, List.flatMap_cons, List.append_assoc]
  rfl

theorem starred_succ (n : Nat) (texts : List (List Char)) :
    starred (n + 1) texts ++ ['*'] = '*' :: closed texts := by
  induction texts generalizing n with
  | nil => rfl
  | cons text texts ih =>
      rw [starred, List.append_assoc, ih, closed_cons, List.append_assoc]
      rfl

theorem starred_zero {texts : List (List Char)} (h : texts ≠ []) :
    starred 0 texts ++ ['*'] = closed texts := by
  obtain ⟨text, texts, rfl⟩ := List.exists_cons_of_ne_nil h
  rw [starred, List.append_assoc, starred_succ, closed_cons]
  rfl

/-- The components, separated, are the address. -/
theorem starred_eq_intercalate (texts : List (List Char)) :
    starred 0 texts = List.intercalate ['*'] texts := by
  have hcons : ∀ (n : Nat) (texts : List (List Char)),
      starred (n + 1) texts = texts.flatMap ('*' :: ·) := by
    intro n texts
    induction texts generalizing n with
    | nil => rfl
    | cons text texts ih =>
        rw [starred, ih, List.flatMap_cons]
        rfl
  cases texts with
  | nil => rfl
  | cons text texts =>
      rw [starred, hcons]
      induction texts generalizing text with
      | nil => simp [lead]
      | cons second texts ih =>
          have hrest := ih second
          simp only [lead, Nat.lt_irrefl, if_false, List.nil_append] at hrest ⊢
          rw [List.intercalate_cons_cons, ← hrest, List.flatMap_cons]
          simp only [List.append_assoc, List.cons_append, List.nil_append]

/-- The letters and the digits of a spelling are told apart by what they are. -/
theorem Spells.unique {part other : AddressPart} (hpart : part.Plain) (hother : other.Plain)
    {text : List Char} (h : Spells part text) (h' : Spells other text) : part = other := by
  obtain ⟨letters, index⟩ := part
  obtain ⟨letters', index'⟩ := other
  obtain ⟨digits, rfl, hne, hdigits, rfl⟩ := h
  obtain ⟨digits', heq, hne', hdigits', rfl⟩ := h'
  have hfirst : ∀ (letters : String) (digits : List Char), digits ≠ [] →
      (∀ c ∈ letters.toList, c.isDigit = false) → (∀ c ∈ digits, c.isDigit = true) →
      (letters.toList ++ digits).takeWhile (fun c => !c.isDigit) = letters.toList := by
    intro letters digits hne hletters hdigits
    obtain ⟨c, rest, rfl⟩ := List.exists_cons_of_ne_nil hne
    rw [List.takeWhile_append_of_pos fun c hc => by rw [hletters c hc]; rfl, List.takeWhile_cons,
      if_neg (by rw [hdigits c List.mem_cons_self]; exact Bool.false_ne_true), List.append_nil]
  have hletters := hfirst letters digits hne (fun c hc => (hpart.2 c hc).1) hdigits
  rw [heq, hfirst letters' digits' hne' (fun c hc => (hother.2 c hc).1) hdigits'] at hletters
  rw [hletters] at heq
  rw [String.toList_inj.mp hletters, List.append_cancel_left heq]

/-- A spelling has neither a separator in it nor the letter an echoed verb has. -/
theorem Spells.notMem {part : AddressPart} (hpart : part.Plain) {text : List Char}
    (h : Spells part text) {c : Char} (hc : c = '*' ∨ c = 't') : c ∉ text := by
  obtain ⟨digits, rfl, -, hdigits, -⟩ := h
  intro hmem
  rcases List.mem_append.mp hmem with hletter | hdigit
  · have hplain := hpart.2 c hletter
    exact hc.elim hplain.2.1 hplain.2.2
  · have hd := hdigits c hdigit
    rcases hc with rfl | rfl
    · cases hd
    · cases hd

/-- An address that is read at the start of another begins it. -/
theorem prefix_of_closed {parts others : List AddressPart} {texts otherTexts : List (List Char)}
    (hparts : ∀ part ∈ parts, part.Plain) (hothers : ∀ part ∈ others, part.Plain)
    (hspelled : List.Forall₂ Spells parts texts)
    (hother : List.Forall₂ Spells others otherTexts) {more : List Char}
    (h : closed texts = closed otherTexts ++ more) : others <+: parts := by
  induction hother generalizing parts texts with
  | nil => exact List.nil_prefix
  | @cons other text' others texts' hspells hrest ih =>
      have hplain' := hothers other List.mem_cons_self
      cases hspelled with
      | nil =>
          rw [closed_cons] at h
          simp [closed] at h
      | @cons part text parts texts hpart hspelled =>
          have hplain := hparts part List.mem_cons_self
          rw [closed_cons, closed_cons, List.append_assoc] at h
          obtain ⟨rfl, hclosed⟩ := split_first h (hpart.notMem hplain (.inl rfl))
            (hspells.notMem hplain' (.inl rfl))
          rw [hpart.unique hplain hplain' hspells]
          exact List.cons_prefix_cons.mpr ⟨rfl, ih
            (fun p hp => hparts p (List.mem_cons_of_mem _ hp))
            (fun p hp => hothers p (List.mem_cons_of_mem _ hp)) hspelled hclosed⟩

/-! ## One setting's line, another setting's parser -/

theorem closed_notMem {parts : List AddressPart} {texts : List (List Char)}
    (hparts : ∀ part ∈ parts, part.Plain) (hspelled : List.Forall₂ Spells parts texts) :
    't' ∉ closed texts := by
  induction hspelled with
  | nil => exact List.not_mem_nil
  | @cons part text parts texts hspells hspelled ih =>
      rw [closed_cons, List.mem_append, List.mem_cons]
      rintro (htext | hstar | hrest)
      · exact hspells.notMem (hparts part List.mem_cons_self) (.inr rfl) htext
      · exact absurd hstar (by decide)
      · exact ih (fun p hp => hparts p (List.mem_cons_of_mem _ hp)) hrest

/-- A head with one `t`, not at its start, is found in another only where that begins. -/
theorem head_aligned {a b : Char} {s t before : List Char} (hs : 't' ∉ s) (hb : b ≠ 't')
    (h : a :: 't' :: s = before ++ b :: 't' :: t) : before = [] ∧ a = b ∧ s = t := by
  cases before with
  | nil =>
      obtain ⟨hab, htail⟩ := List.cons.inj h
      exact ⟨rfl, hab, (List.cons.inj htail).2⟩
  | cons c before =>
      obtain ⟨-, htail⟩ := List.cons.inj h
      cases before with
      | nil => exact absurd (List.cons.inj htail).1.symm hb
      | cons d before =>
          obtain ⟨-, hrest⟩ := List.cons.inj htail
          exact absurd (hrest ▸ by simp) hs

/-- **Who reads a line that was sent for a setting: an address of its verb that begins its.** -/
theorem prefix_of_read {setting other : Setting} {parts others : List AddressPart}
    (hsetting : setting.address = some parts) (hother : other.address = some others)
    {texts : List (List Char)} (hspelled : List.Forall₂ Spells parts texts) {encoded : String}
    (hstar : '*' ∉ encoded.toList) {before input rest : List Char} {v : String}
    (hline : (echoed setting.verb).toList ++ starred 0 texts ++ '*' :: encoded.toList ++ [cr, lf] =
      before ++ input)
    (hread : addressedLine (echoed other.verb) others input = .ok (v, rest)) :
    setting.verb = other.verb ∧ others <+: parts := by
  obtain ⟨hne, hplain⟩ := plain_address hsetting
  obtain ⟨hne', hplain'⟩ := plain_address hother
  obtain ⟨texts', hspelled', -, rfl⟩ :=
    (addressedLine_ok fun part hp => (hplain' part hp).1).mp hread
  have htexts : texts ≠ [] := by
    rintro rfl
    cases hspelled
    exact hne rfl
  have htexts' : texts' ≠ [] := by
    rintro rfl
    cases hspelled'
    exact hne' rfl
  -- the last separator of the line is the one in front of its value
  have hend : (echoed setting.verb).toList ++ closed texts ++ (encoded.toList ++ [cr, lf]) =
      (before ++ (echoed other.verb).toList ++ starred 0 texts') ++
        '*' :: (v.toList ++ cr :: lf :: rest) := by
    rw [← starred_zero htexts]
    simpa only [List.append_assoc, List.cons_append, List.nil_append] using hline
  have hno : '*' ∉ encoded.toList ++ [cr, lf] := by
    rw [List.mem_append]
    exact not_or_intro hstar (by decide)
  obtain ⟨more, hstart, -⟩ := split_before hend hno
  have hhead : (echoed setting.verb).toList ++ closed texts =
      before ++ ((echoed other.verb).toList ++ (closed texts' ++ more)) := by
    rw [hstart, ← starred_zero htexts']
    simp only [List.append_assoc, List.cons_append, List.nil_append]
  have hplainT : ∀ c ∈ [['r', 'c'], ['m', 'p']], 't' ∉ c ++ closed texts := by
    intro c hc hmem
    rcases List.mem_append.mp hmem with hmem | hmem
    · have hnone : ∀ c ∈ [['r', 'c'], ['m', 'p']], 't' ∉ c := by decide
      exact hnone c hc hmem
    · exact closed_notMem hplain hspelled hmem
  have hclosed : setting.verb = other.verb ∧ closed texts = closed texts' ++ more := by
    rcases addressed_verb setting with hnone | ⟨hverb, hecho⟩ | ⟨hverb, hecho⟩
    · rw [hsetting] at hnone
      cases hnone
    · rcases addressed_verb other with hnone | ⟨hverb', hecho'⟩ | ⟨hverb', hecho'⟩
      · rw [hother] at hnone
        cases hnone
      · rw [hecho, hecho'] at hhead
        obtain ⟨-, -, htail⟩ := head_aligned (hplainT ['r', 'c'] (by simp)) (by decide) hhead
        exact ⟨hverb.trans hverb'.symm, (List.append_right_inj ['r', 'c']).mp htail⟩
      · rw [hecho, hecho'] at hhead
        obtain ⟨-, hfirst, -⟩ := head_aligned (hplainT ['r', 'c'] (by simp)) (by decide) hhead
        exact absurd hfirst (by decide)
    · rcases addressed_verb other with hnone | ⟨hverb', hecho'⟩ | ⟨hverb', hecho'⟩
      · rw [hother] at hnone
        cases hnone
      · rw [hecho, hecho'] at hhead
        obtain ⟨-, hfirst, -⟩ := head_aligned (hplainT ['m', 'p'] (by simp)) (by decide) hhead
        exact absurd hfirst (by decide)
      · rw [hecho, hecho'] at hhead
        obtain ⟨-, -, htail⟩ := head_aligned (hplainT ['m', 'p'] (by simp)) (by decide) hhead
        exact ⟨hverb.trans hverb'.symm, (List.append_right_inj ['m', 'p']).mp htail⟩
  exact ⟨hclosed.1, prefix_of_closed hplain hplain' hspelled hspelled' hclosed.2⟩

theorem spelled_of_padded {addr : String} {texts : List (List Char)}
    (h : List.Forall₂ Padded (addr.toList.splitOn '*') texts) :
    List.Forall₂ Spells (addressParts addr) texts := by
  rw [addressParts_eq, List.forall₂_map_left_iff]
  exact h.imp fun _ _ => spells_of_padded

/--
**An addressed echo is read by the parser of its own setting, as exactly the value, and by
no other addressed setting's, at whatever offset.**
-/
theorem addressedEcho_exact {setting : Setting} {addr value encoded : String}
    (hform : setting.form = .addressed addr) (hencode : encode setting.shape value = .ok encoded)
    {line : List Char} (hline : EchoOf setting.verb addr encoded line) :
    (∃ instr, setting.instruction value = .ok instr ∧
      instr.parseStep (String.ofList line) = .done (.text encoded)) ∧
      ∀ other addr' value' instr', other ≠ setting → other.form = .addressed addr' →
        Setting.instruction other value' = .ok instr' →
          ∀ rest, rest <:+ line → instr'.parseStep (String.ofList rest) = .needMore := by
  have hparse : ∀ {setting : Setting} {addr value : String} {instr : Instruction},
      setting.form = .addressed addr → setting.instruction value = .ok instr →
        instr.parseStep = addressedEcho setting.verb addr := by
    intro setting addr value instr hform hinstr
    obtain ⟨_, -, ⟨hprefixed, -, -⟩ | ⟨addr', hform', hparse, -⟩⟩ := setting_cases hinstr
    · rw [hform] at hprefixed
      cases hprefixed
    · rw [hform] at hform'
      obtain rfl := Form.addressed.inj hform'
      exact hparse
  have hframed : Framed encoded := by
    refine framed_of_encode hencode fun max hmax => ?_
    cases setting <;> first | (cases hform; done) | cases hmax
  obtain ⟨texts, hpadded, rfl⟩ := hline
  have hspelled := spelled_of_padded hpadded
  have haddress := Setting.address_of_form hform
  obtain ⟨-, hplain⟩ := plain_address haddress
  have hcr : cr ∉ encoded.toList := fun hmem => absurd (hframed cr hmem).2 (by decide)
  have hstar : '*' ∉ encoded.toList := fun hmem => (hframed '*' hmem).1 rfl
  rw [← starred_eq_intercalate]
  refine ⟨?_, ?_⟩
  · have hread : addressedLine (echoed setting.verb) (addressParts addr)
        ((echoed setting.verb).toList ++ starred 0 texts ++ '*' :: encoded.toList ++ [cr, lf]) =
          .ok (encoded, []) :=
      (addressedLine_ok fun part hp => (hplain part hp).1).mpr ⟨texts, hspelled, hcr, rfl⟩
    obtain ⟨instr, hinstr⟩ : ∃ instr, setting.instruction value = .ok instr := by
      rw [Setting.instruction, hencode, hform]
      exact ⟨_, rfl⟩
    refine ⟨instr, hinstr, ?_⟩
    rw [hparse hform hinstr, addressedEcho_eq, parserOf, String.toList_ofList]
    obtain ⟨c, more, hcons⟩ : ∃ c more, (echoed setting.verb).toList ++ starred 0 texts ++
        '*' :: encoded.toList ++ [cr, lf] = c :: more :=
      List.exists_cons_of_ne_nil (by simp)
    rw [hcons] at hread ⊢
    rw [search, hread]
  · intro other addr' value' instr' hne hform' hinstr' rest hrest
    rw [hparse hform' hinstr', addressedEcho_eq, parserOf_needMore, String.toList_ofList]
    intro v hdone
    obtain ⟨before, input, after, rfl, hread⟩ := search_done hdone
    obtain ⟨front, hfront⟩ := hrest
    rw [← List.append_assoc] at hfront
    obtain ⟨hverb, hbegins⟩ := prefix_of_read haddress (Setting.address_of_form hform') hspelled
      hstar hfront.symm hread
    have hall : ∀ s : Setting, s ∈ Setting.all := fun s => by cases s <;> decide
    exact address_distinct setting (hall _) other (hall _) (Ne.symm hne) hverb _
      (Option.mem_toList.mpr haddress) _
      (Option.mem_toList.mpr (Setting.address_of_form hform')) hbegins

/-- `E01` is stream 1's enable state, and nobody's else. -/
theorem addressedEcho_padded :
    ∃ instr, Setting.rtmpStream1State.instruction "on" = .ok instr ∧
      instr.parseStep (String.ofList "RtmpE01*1\r\n".toList) = .done (.text "1") :=
  (@addressedEcho_exact .rtmpStream1State "E1" "on" "1" rfl rfl _
    ⟨[['E', '0', '1']], .cons ⟨['E'], ['1'], 1, rfl, by simp, by simp, by simp, rfl⟩ .nil,
      by decide⟩).1

end Sismatic
