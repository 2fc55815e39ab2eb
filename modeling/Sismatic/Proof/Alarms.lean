import Sismatic.Proof.Replies
import Mathlib.Data.List.Forall2

/-!
# What becomes of a list of alarms

The records of a reply are joined by `*`, and a list of none is a list too. So the search for
the reply's first record can go past every record of the line and find, at the line's end, an
empty list: the reader loses nothing exactly on the lines that end in well-formed records and
open no other.
-/

namespace Sismatic

/-! ## Joined elements -/

section Separated

variable {α : Type} {item : Parser α} {sep : Char} {text : α → List Char} {Ok : α → Prop}

/-- The text of every further element, behind its separator. -/
def further (sep : Char) (text : α → List Char) (values : List α) : List Char :=
  values.flatMap fun value => sep :: text value

/-- The text of all elements. -/
def joined (sep : Char) (text : α → List Char) : List α → List Char
  | [] => []
  | value :: values => text value ++ further sep text values

theorem oneOf_ok {chars input rest : List Char} {c : Char} :
    oneOf chars input = .ok (c, rest) ↔ input = c :: rest ∧ c ∈ chars := by
  cases input with
  | nil => simp [oneOf]
  | cons d input =>
      by_cases h : d ∈ chars
      · simp only [oneOf, List.contains_eq_mem, h, decide_true, if_true, Except.ok.injEq,
          Prod.mk.injEq, List.cons.injEq]
        refine ⟨?_, fun ⟨hcons, _⟩ => hcons⟩
        rintro ⟨rfl, rfl⟩
        exact ⟨⟨rfl, rfl⟩, h⟩
      · simp only [oneOf, List.contains_eq_mem, h, decide_false, Bool.false_eq_true, if_false,
          reduceCtorEq, List.cons.injEq, false_iff]
        rintro ⟨⟨rfl, -⟩, hc⟩
        exact h hc

theorem oneOf_ne_cut {chars input : List Char} : oneOf chars input ≠ .error .cut := by
  unfold oneOf
  split
  · simp
  · split <;> simp

theorem length_le_further (sep : Char) (text : α → List Char) (values : List α) :
    values.length ≤ (further sep text values).length := by
  induction values with
  | nil => exact Nat.le_refl 0
  | cons value values ih =>
      simp only [further, List.flatMap_cons, List.length_append, List.length_cons] at ih ⊢
      omega

/-- An element is read exactly from its text. -/
def ReadsText (item : Parser α) (text : α → List Char) (Ok : α → Prop) : Prop :=
  ∀ input value rest, item input = .ok (value, rest) ↔ input = text value ++ rest ∧ Ok value

section

variable (hitem : ReadsText item text Ok)
include hitem

theorem separatedRest_ok {fuel : Nat} {input rest : List Char} {values : List α}
    (h : separatedRest item sep fuel input = .ok (values, rest)) :
    input = further sep text values ++ rest ∧ ∀ value ∈ values, Ok value := by
  induction fuel generalizing input values rest with
  | zero => cases h
  | succ fuel ih =>
      unfold separatedRest at h
      split at h
      · obtain ⟨rfl, rfl⟩ := Prod.mk.inj (Except.ok.inj h)
        exact ⟨rfl, fun value hvalue => absurd hvalue List.not_mem_nil⟩
      · cases h
      · rename_i c rest₁ hsep
        obtain ⟨rfl, hc⟩ := oneOf_ok.mp hsep
        obtain rfl := List.mem_singleton.mp hc
        split at h
        · obtain ⟨rfl, rfl⟩ := Prod.mk.inj (Except.ok.inj h)
          exact ⟨rfl, fun value hvalue => absurd hvalue List.not_mem_nil⟩
        · cases h
        · rename_i value rest₂ hvalue
          obtain ⟨rfl, hok⟩ := (hitem _ _ _).mp hvalue
          split at h
          · cases h
          · rename_i values' rest₃ hmore
            obtain ⟨rfl, rfl⟩ := Prod.mk.inj (Except.ok.inj h)
            obtain ⟨rfl, hall⟩ := ih hmore
            refine ⟨?_, List.forall_mem_cons.mpr ⟨hok, hall⟩⟩
            simp only [further, List.flatMap_cons, List.cons_append, List.append_assoc]

theorem separated0_ok {input rest : List Char} {values : List α}
    (h : separated0 item sep input = .ok (values, rest)) :
    input = joined sep text values ++ rest ∧ ∀ value ∈ values, Ok value := by
  unfold separated0 at h
  split at h
  · obtain ⟨rfl, rfl⟩ := Prod.mk.inj (Except.ok.inj h)
    exact ⟨rfl, fun value hvalue => absurd hvalue List.not_mem_nil⟩
  · cases h
  · rename_i value rest₁ hvalue
    obtain ⟨rfl, hok⟩ := (hitem _ _ _).mp hvalue
    split at h
    · cases h
    · rename_i values' rest₂ hmore
      obtain ⟨rfl, rfl⟩ := Prod.mk.inj (Except.ok.inj h)
      obtain ⟨rfl, hall⟩ := separatedRest_ok hitem hmore
      refine ⟨?_, List.forall_mem_cons.mpr ⟨hok, hall⟩⟩
      rw [joined, List.append_assoc]

/-- Joined elements are all read, if no separator follows them. -/
theorem separatedRest_further {values : List α} (hok : ∀ value ∈ values, Ok value)
    {c : Char} (hc : c ≠ sep) (rest : List Char) {fuel : Nat} (hfuel : values.length < fuel) :
    separatedRest item sep fuel (further sep text values ++ c :: rest) =
      .ok (values, c :: rest) := by
  induction values generalizing fuel with
  | nil =>
      obtain ⟨fuel, rfl⟩ := Nat.exists_eq_succ_of_ne_zero (Nat.ne_of_gt hfuel)
      have hsep : oneOf [sep] (c :: rest) = .error .backtrack := by
        simp only [oneOf, List.contains_eq_mem, List.mem_singleton, hc, decide_false,
          Bool.false_eq_true, if_false]
      simp only [further, List.flatMap_nil, List.nil_append, separatedRest, hsep]
  | cons value values ih =>
      obtain ⟨fuel, rfl⟩ := Nat.exists_eq_succ_of_ne_zero (Nat.ne_of_gt (Nat.zero_lt_of_lt hfuel))
      rw [List.length_cons] at hfuel
      have hsep : oneOf [sep] (sep :: (text value ++ (further sep text values ++ c :: rest))) =
          .ok (sep, text value ++ (further sep text values ++ c :: rest)) :=
        oneOf_ok.mpr ⟨rfl, List.mem_singleton_self sep⟩
      have hvalue := (hitem _ value (further sep text values ++ c :: rest)).mpr
        ⟨rfl, hok value List.mem_cons_self⟩
      have hmore : separatedRest item sep fuel (further sep text values ++ c :: rest) =
          .ok (values, c :: rest) := ih (fun v hv => hok v (List.mem_cons_of_mem _ hv)) (by omega)
      have htext : further sep text (value :: values) ++ c :: rest =
          sep :: (text value ++ (further sep text values ++ c :: rest)) := by
        simp only [further, List.flatMap_cons, List.cons_append, List.append_assoc]
      simp only [htext, separatedRest, hsep, hvalue, hmore]

theorem separated0_joined {values : List α} (hok : ∀ value ∈ values, Ok value)
    {c : Char} (hc : c ≠ sep) {rest : List Char} (hnone : item (c :: rest) = .error .backtrack) :
    separated0 item sep (joined sep text values ++ c :: rest) = .ok (values, c :: rest) := by
  cases values with
  | nil => simp only [joined, List.nil_append, separated0, hnone]
  | cons value values =>
      have hvalue := (hitem _ value (further sep text values ++ c :: rest)).mpr
        ⟨rfl, hok value List.mem_cons_self⟩
      have hlength := length_le_further sep text values
      have hmore : separatedRest item sep (further sep text values ++ c :: rest).length
          (further sep text values ++ c :: rest) = .ok (values, c :: rest) := by
        refine separatedRest_further hitem (fun v hv => ?_) hc rest ?_
        · exact hok v (List.mem_cons_of_mem _ hv)
        · rw [List.length_append, List.length_cons]
          omega
      simp only [joined, List.append_assoc, separated0, hvalue, hmore]

end

theorem separatedRest_ne_cut (hitem : ∀ input, item input ≠ .error .cut) (fuel : Nat)
    (input : List Char) : separatedRest item sep fuel input ≠ .error .cut := by
  induction fuel generalizing input with
  | zero => simp [separatedRest]
  | succ fuel ih =>
      unfold separatedRest
      split
      · simp
      · rename_i mode _ hmode
        rintro ⟨⟩
        exact oneOf_ne_cut hmode
      · split
        · simp
        · rename_i mode _ hmode
          rintro ⟨⟩
          exact hitem _ hmode
        · split
          · rename_i mode hmode
            rintro ⟨⟩
            exact ih _ hmode
          · simp

theorem separated0_ne_cut (hitem : ∀ input, item input ≠ .error .cut) (input : List Char) :
    separated0 item sep input ≠ .error .cut := by
  unfold separated0
  split
  · simp
  · rename_i mode _ hmode
    rintro ⟨⟩
    exact hitem _ hmode
  · split
    · rename_i mode hmode
      rintro ⟨⟩
      exact separatedRest_ne_cut hitem _ _ hmode
    · simp

end Separated

/-! ## Records -/

/-- What opens a record. -/
def opening : List Char := "<name:".toList

/-- `<name:NAME,level:LEVEL>`. -/
def alarmText (alarm : String × String) : List Char :=
  opening ++ (alarm.1.toList ++ (",level:".toList ++ (alarm.2.toList ++ ['>'])))

theorem alarmText_append (alarm : String × String) (rest : List Char) :
    alarmText alarm ++ rest = opening ++ (alarm.1.toList ++
      (",level:".toList ++ (alarm.2.toList ++ '>' :: rest))) := by
  simp only [alarmText, List.append_assoc, List.singleton_append]

/-- A name and a level that the reader takes for one record. -/
def WellFormed (alarm : String × String) : Prop :=
  (∀ c ∈ alarm.1.toList, c ≠ ',' ∧ c ≠ '>') ∧ '>' ∉ alarm.2.toList

instance (alarm : String × String) : Decidable (WellFormed alarm) :=
  decidable_of_iff
    ((alarm.1.toList.all fun c => c != ',' && c != '>') = true ∧ '>' ∉ alarm.2.toList)
    (by simp only [WellFormed, List.all_eq_true, Bool.and_eq_true, bne_iff_ne, ne_eq])

theorem readsText_alarmEntry : ReadsText alarmEntry alarmText WellFormed := by
  intro input alarm rest
  unfold alarmEntry
  simp only [bind_ok, literal]
  refine ⟨?_, ?_⟩
  · rintro ⟨_, rest₁, hopen, name, rest₂, hname, _, rest₃, hmiddle, level, rest₄, hlevel, _, rest₅,
      hclose, hpure⟩
    obtain rfl := literalChars_ok.mp hopen
    obtain ⟨rfl, hplain, -⟩ := takeWhile0_ok.mp hname
    obtain rfl := literalChars_ok.mp hmiddle
    obtain ⟨rfl, hend, -⟩ := takeWhile0_ok.mp hlevel
    obtain rfl := literalChars_ok.mp hclose
    obtain ⟨rfl, rfl⟩ := Prod.mk.inj (Except.ok.inj hpure)
    refine ⟨?_, ?_, ?_⟩
    · rw [alarmText_append]
      rfl
    · intro c hc
      simpa using hplain c hc
    · intro hmem
      simpa using hend '>' hmem
  · rintro ⟨rfl, hname, hlevel⟩
    obtain ⟨name, level⟩ := alarm
    have hlast : takeWhile0 (fun c => c != '>') (level.toList ++ '>' :: rest) =
        .ok (level, '>' :: rest) := by
      refine takeWhile0_ok.mpr ⟨rfl, fun c hc => ?_, '>', rest, rfl, by decide⟩
      simp only [bne_iff_ne, ne_eq]
      rintro rfl
      exact hlevel hc
    have hfirst : takeWhile0 (fun c => c != ',' && c != '>')
        (name.toList ++ ',' :: ("level:".toList ++ (level.toList ++ '>' :: rest))) =
          .ok (name, ',' :: ("level:".toList ++ (level.toList ++ '>' :: rest))) := by
      refine takeWhile0_ok.mpr ⟨rfl, fun c hc => ?_, ',', _, rfl, by decide⟩
      simpa using hname c hc
    refine ⟨(), _, ?_, name, _, hfirst, (), _, literalChars_ok.mpr rfl, level, _, hlast, (), rest,
      literalChars_ok.mpr rfl, rfl⟩
    rw [literalChars_ok, alarmText_append]
    rfl

theorem alarmEntry_ne_cut (input : List Char) : alarmEntry input ≠ .error .cut := by
  refine bind_ne_cut (fun _ => literalChars_ne_cut) (fun _ => ?_) input
  refine bind_ne_cut (fun _ => takeWhile0_ne_cut) (fun name => ?_)
  refine bind_ne_cut (fun _ => literalChars_ne_cut) (fun _ => ?_)
  refine bind_ne_cut (fun _ => takeWhile0_ne_cut) (fun level => ?_)
  refine bind_ne_cut (fun _ => literalChars_ne_cut) (fun _ input h => ?_)
  cases h

/-- The records of a line. -/
def alarmsText (alarms : List (String × String)) : List Char := joined '*' alarmText alarms

/-- What is tried at every offset of the reply. -/
def alarmsLine : Parser (List (String × String)) := do
  let alarms ← separated0 alarmEntry '*'
  literal "\r\n"
  pure alarms

theorem activeAlarms_eq : activeAlarms = parserOf alarmsLine .alarms := rfl

theorem alarmsLine_ok {input rest : List Char} {alarms : List (String × String)}
    (h : alarmsLine input = .ok (alarms, rest)) :
    input = alarmsText alarms ++ cr :: lf :: rest ∧ ∀ alarm ∈ alarms, WellFormed alarm := by
  obtain ⟨alarms', rest₁, hseparated, h⟩ := bind_ok.mp h
  obtain ⟨_, rest₂, hline, hpure⟩ := bind_ok.mp h
  obtain ⟨rfl, rfl⟩ := Prod.mk.inj (Except.ok.inj hpure)
  obtain ⟨rfl, hall⟩ := separated0_ok readsText_alarmEntry hseparated
  obtain rfl := literalChars_ok.mp hline
  exact ⟨rfl, hall⟩

theorem alarmsLine_text {alarms : List (String × String)} (h : ∀ alarm ∈ alarms, WellFormed alarm)
    (rest : List Char) :
    alarmsLine (alarmsText alarms ++ cr :: lf :: rest) = .ok (alarms, rest) := by
  have hcr : alarmEntry (cr :: lf :: rest) = .error .backtrack := rfl
  refine bind_ok.mpr ⟨alarms, cr :: lf :: rest, ?_, ?_⟩
  · exact separated0_joined readsText_alarmEntry h (by decide) hcr
  · exact bind_ok.mpr ⟨(), rest, literalChars_ok.mpr rfl, rfl⟩

theorem alarmsLine_ne_cut (input : List Char) : alarmsLine input ≠ .error .cut := by
  refine bind_ne_cut (separated0_ne_cut alarmEntry_ne_cut) (fun alarms => ?_) input
  refine bind_ne_cut (fun _ => literalChars_ne_cut) (fun _ input h => ?_)
  cases h

/-! ## Openings -/

/-- What follows each opening of a record in a text. -/
def openings : List Char → List (List Char)
  | [] => []
  | c :: rest =>
      if opening.isPrefixOf (c :: rest) then (c :: rest).drop opening.length :: openings rest
      else openings rest

/-- The end of a text: what follows it cannot complete an opening begun before. -/
def Separate (rest : List Char) : Prop := ∀ c, rest.head? = some c → c ∉ opening.tail

theorem opening_prefix_append {c : Char} {text rest : List Char} (h : Separate rest)
    (hopen : opening <+: c :: text ++ rest) : opening <+: c :: text := by
  refine List.prefix_of_prefix_length_le hopen (List.prefix_append _ rest) ?_
  by_contra hlt
  -- the opening would go on into what follows
  obtain ⟨more, hmore⟩ :=
    List.prefix_of_prefix_length_le (List.prefix_append (c :: text) rest) hopen (by omega)
  cases more with
  | nil => exact hlt (by rw [← hmore, List.append_nil])
  | cons d more =>
      rw [← hmore] at hopen
      obtain ⟨after, hafter⟩ := (List.prefix_append_right_inj _).mp hopen
      refine h d (by rw [← hafter]; rfl) ?_
      rw [← hmore, List.cons_append, List.tail_cons]
      exact List.mem_append_right _ List.mem_cons_self

theorem openings_append {text rest : List Char} (h : Separate rest) :
    openings (text ++ rest) = (openings text).map (· ++ rest) ++ openings rest := by
  induction text with
  | nil => rfl
  | cons c text ih =>
      rw [List.cons_append, openings, openings, ih]
      have hiff : opening.isPrefixOf (c :: (text ++ rest)) = opening.isPrefixOf (c :: text) := by
        rw [Bool.eq_iff_iff, List.isPrefixOf_iff_prefix, List.isPrefixOf_iff_prefix]
        exact ⟨opening_prefix_append h, fun hopen => hopen.trans (List.prefix_append _ rest)⟩
      rw [hiff]
      split
      · rename_i hopen
        have hle := (List.isPrefixOf_iff_prefix.mp hopen).length_le
        rw [List.map_cons, List.cons_append, ← List.drop_append_of_le_length hle]
        rfl
      · rfl

theorem openings_opening (rest : List Char) : openings (opening ++ rest) = rest :: openings rest :=
  rfl

theorem openings_level (rest : List Char) : openings (",level:".toList ++ rest) = openings rest :=
  rfl

theorem openings_close (rest : List Char) : openings ('>' :: rest) = openings rest := rfl

/-- A record opens itself, and whatever its name and its level open. -/
theorem openings_record (alarm : String × String) (rest : List Char) :
    openings (alarmText alarm ++ rest) =
      (alarm.1.toList ++ (",level:".toList ++ (alarm.2.toList ++ '>' :: rest))) ::
        ((openings alarm.1.toList).map
            (· ++ (",level:".toList ++ (alarm.2.toList ++ '>' :: rest))) ++
          ((openings alarm.2.toList).map (· ++ '>' :: rest) ++ openings rest)) := by
  have hlevel : Separate (",level:".toList ++ (alarm.2.toList ++ '>' :: rest)) := by
    intro c hc
    obtain rfl := Option.some.inj hc
    decide
  have hclose : Separate ('>' :: rest) := by
    intro c hc
    obtain rfl := Option.some.inj hc
    decide
  rw [alarmText_append, openings_opening, openings_append hlevel, openings_level,
    openings_append hclose, openings_close]

/-! ## Lines -/

/-- The alarms are what the openings of the line open, in order. -/
def OneForEach (line : List Char) (alarms : List (String × String)) : Prop :=
  List.Forall₂ (fun alarm after =>
    alarm.1.toList ++ (",level:".toList ++ (alarm.2.toList ++ ['>'])) <+: after)
    alarms (openings line)

/-- A record in which no other opens. -/
def Single (alarm : String × String) : Prop :=
  WellFormed alarm ∧ openings alarm.1.toList = [] ∧ openings alarm.2.toList = []

/-- The line ends in well-formed records, and opens none before or in them. -/
def Clean (line : List Char) : Prop :=
  ∃ junk alarms, line = junk ++ alarmsText alarms ∧ openings junk = [] ∧
    ∀ alarm ∈ alarms, Single alarm

theorem separate_alarmsText (alarms : List (String × String)) : Separate (alarmsText alarms) := by
  intro c hc
  cases alarms with
  | nil => cases hc
  | cons alarm alarms =>
      obtain rfl := Option.some.inj hc
      decide

/-- The separator opens nothing. -/
theorem openings_further (alarm : String × String) (alarms : List (String × String)) :
    openings (further '*' alarmText (alarm :: alarms)) =
      openings (alarmText alarm ++ further '*' alarmText alarms) := rfl

/-- A list of records opens one record for each, and more only inside them. -/
theorem length_openings_further (alarms : List (String × String)) :
    alarms.length ≤ (openings (further '*' alarmText alarms)).length ∧
      ((openings (further '*' alarmText alarms)).length = alarms.length →
        ∀ alarm ∈ alarms, openings alarm.1.toList = [] ∧ openings alarm.2.toList = []) := by
  induction alarms with
  | nil => exact ⟨Nat.le_refl 0, fun _ alarm h => absurd h List.not_mem_nil⟩
  | cons alarm alarms ih =>
      obtain ⟨hle, hinner⟩ := ih
      rw [openings_further, openings_record]
      simp only [List.length_cons, List.length_append, List.length_map]
      refine ⟨by omega, fun hlen => List.forall_mem_cons.mpr ⟨?_, hinner (by omega)⟩⟩
      exact ⟨List.length_eq_zero_iff.mp (by omega), List.length_eq_zero_iff.mp (by omega)⟩

theorem openings_alarmsText (alarms : List (String × String)) :
    openings (alarmsText alarms) = openings (further '*' alarmText alarms) := by
  cases alarms <;> rfl

/-- Records that open no others are what their openings open. -/
theorem oneForEach_further {alarms : List (String × String)} (h : ∀ alarm ∈ alarms, Single alarm) :
    OneForEach (further '*' alarmText alarms) alarms := by
  induction alarms with
  | nil => exact .nil
  | cons alarm alarms ih =>
      obtain ⟨-, hname, hlevel⟩ := h alarm List.mem_cons_self
      unfold OneForEach
      rw [openings_further, openings_record, hname, hlevel]
      refine .cons ?_ (ih fun a ha => h a (List.mem_cons_of_mem _ ha))
      refine ⟨further '*' alarmText alarms, ?_⟩
      simp only [List.append_assoc, List.singleton_append]

/-- A suffix of a text without an opening has none. -/
theorem openings_of_suffix {text rest : List Char} (h : openings text = [])
    (hrest : rest <:+ text) : openings rest = [] := by
  induction text with
  | nil => rw [List.suffix_nil.mp hrest]; rfl
  | cons c text ih =>
      rcases List.suffix_cons_iff.mp hrest with rfl | hrest
      · exact h
      · refine ih ?_ hrest
        rw [openings] at h
        split at h
        · cases h
        · exact h

/-- The search goes past offsets at which nothing is read. -/
theorem search_skips {α : Type} {core : Parser α} (hcut : ∀ input, core input ≠ .error .cut)
    {junk input : List Char}
    (h : ∀ rest, rest ≠ [] → rest <:+ junk → ∀ r, core (rest ++ input) ≠ .ok r) :
    search core (junk ++ input) = search core input := by
  induction junk with
  | nil => rfl
  | cons c junk ih =>
      have hfirst := h (c :: junk) (List.cons_ne_nil _ _) (List.suffix_refl _)
      rw [List.cons_append] at hfirst ⊢
      rw [search]
      cases hcore : core (c :: (junk ++ input)) with
      | ok r => exact absurd hcore (hfirst r)
      | error e =>
          have hnext := ih fun rest hne hrest => h rest hne (hrest.trans (List.suffix_cons c junk))
          cases e with
          | cut => exact absurd hcore (hcut _)
          | incomplete => exact hnext
          | backtrack => exact hnext

theorem search_head {α : Type} {core : Parser α} {input rest : List Char} {value : α}
    (hne : input ≠ []) (h : core input = .ok (value, rest)) : search core input = .done value := by
  obtain ⟨c, input, rfl⟩ := List.exists_cons_of_ne_nil hne
  rw [search, h]

/-- Where a line ends, nothing else of it can be taken for its end. -/
theorem line_ends {line before rest : List Char} (hline : ¬ [cr, lf] <:+: line)
    (h : line ++ [cr, lf] = before ++ cr :: lf :: rest) : line = before ∧ rest = [] := by
  rcases List.append_eq_append_iff.mp h with ⟨as, rfl, hend⟩ | ⟨bs, rfl, hend⟩
  · have hlen := congrArg List.length hend
    simp only [List.length_append, List.length_cons, List.length_nil] at hlen
    obtain rfl : as = [] := List.length_eq_zero_iff.mp (by omega)
    obtain rfl : rest = [] := List.length_eq_zero_iff.mp (by omega)
    exact ⟨(List.append_nil line).symm, rfl⟩
  · match bs with
    | [] => exact ⟨List.append_nil before, (List.cons.inj (List.cons.inj hend).2).2⟩
    | [b] => exact absurd (List.cons.inj (List.cons.inj hend).2).1 (by decide)
    | b :: b' :: bs =>
        obtain ⟨rfl, htail⟩ := List.cons.inj hend
        obtain ⟨rfl, -⟩ := List.cons.inj htail
        exact absurd ⟨before, bs, by simp⟩ hline

/--
**Exactly when no alarm is lost.** What is read of a line has one alarm for every record the
line opens, unless something opens that is not a record of the list at the line's end.
-/
theorem oneForEach_iff_clean {line : List Char} (hline : ¬ [cr, lf] <:+: line) :
    (∀ alarms, activeAlarms (String.ofList (line ++ [cr, lf])) = .done (.alarms alarms) →
      OneForEach line alarms) ↔ Clean line := by
  have hdone : ∀ alarms, activeAlarms (String.ofList (line ++ [cr, lf])) = .done (.alarms alarms) ↔
      search alarmsLine (line ++ [cr, lf]) = .done alarms := by
    intro alarms
    rw [activeAlarms_eq, parserOf, String.toList_ofList]
    cases search alarmsLine (line ++ [cr, lf]) <;> simp
  simp only [hdone]
  refine ⟨?_, ?_⟩
  · intro h
    -- the line's end is a list of none, so something is read
    have hnone : alarmsLine [cr, lf] = .ok ([], []) := rfl
    obtain ⟨alarms, hsearch⟩ :=
      search_of_ok alarmsLine_ne_cut line (List.cons_ne_nil cr [lf]) hnone
    obtain ⟨junk, input, rest, hsplit, hcore⟩ := search_done hsearch
    obtain ⟨rfl, hwell⟩ := alarmsLine_ok hcore
    rw [← List.append_assoc] at hsplit
    obtain ⟨rfl, -⟩ := line_ends hline hsplit
    have hlength := (h alarms hsearch).length_eq
    rw [openings_append (separate_alarmsText alarms), List.length_append, List.length_map,
      openings_alarmsText] at hlength
    obtain ⟨hle, hinner⟩ := length_openings_further alarms
    have hjunk : (openings junk).length = 0 := by omega
    refine ⟨junk, alarms, rfl, List.length_eq_zero_iff.mp hjunk, fun alarm ha => ?_⟩
    exact ⟨hwell alarm ha, hinner (by omega) alarm ha⟩
  · rintro ⟨junk, alarms, rfl, hjunk, hsingle⟩ alarms' hsearch
    have hskip : ∀ rest, rest ≠ [] → rest <:+ junk → ∀ r,
        alarmsLine (rest ++ (alarmsText alarms ++ [cr, lf])) ≠ .ok r := by
      rintro rest hne hrest ⟨found, after⟩ hok
      obtain ⟨hinput, -⟩ := alarmsLine_ok hok
      have hnone := openings_of_suffix hjunk hrest
      obtain ⟨c, rest, rfl⟩ := List.exists_cons_of_ne_nil hne
      cases found with
      | nil =>
          -- a list of none would end the line before its end
          obtain ⟨before, rfl⟩ := hrest
          have hbuffer : before ++ c :: rest ++ alarmsText alarms ++ [cr, lf] =
              before ++ cr :: lf :: after := by
            rw [List.append_assoc, List.append_assoc, hinput]
            rfl
          have hends := line_ends hline hbuffer
          have hlength := congrArg List.length hends.1
          simp only [List.length_append, List.length_cons] at hlength
          omega
      | cons alarm found =>
          -- a first alarm would be opened here
          have hseparate : Separate (alarmsText alarms ++ [cr, lf]) := by
            intro d hd
            cases alarms with
            | nil => obtain rfl := Option.some.inj hd; decide
            | cons other alarms => obtain rfl := Option.some.inj hd; decide
          have hopen : opening <+: c :: rest ++ (alarmsText alarms ++ [cr, lf]) := by
            rw [hinput, alarmsText, joined, alarmText, List.append_assoc, List.append_assoc]
            exact List.prefix_append _ _
          have hfirst := opening_prefix_append hseparate hopen
          rw [openings, if_pos (List.isPrefixOf_iff_prefix.mpr hfirst)] at hnone
          cases hnone
    have hread : search alarmsLine (junk ++ alarmsText alarms ++ [cr, lf]) = .done alarms := by
      rw [List.append_assoc, search_skips alarmsLine_ne_cut hskip]
      exact search_head (List.append_ne_nil_of_right_ne_nil _ (List.cons_ne_nil cr [lf]))
        (alarmsLine_text (fun a ha => (hsingle a ha).1) [])
    rw [hread] at hsearch
    cases hsearch
    unfold OneForEach
    rw [openings_append (separate_alarmsText alarms), hjunk, openings_alarmsText]
    exact oneForEach_further hsingle

/-- A recorder's own line, with one alarm. -/
theorem oneForEach_netfail :
    activeAlarms (String.ofList ("<name:NETFAIL,level:WARNING>".toList ++ [cr, lf])) =
        .done (.alarms [("NETFAIL", "WARNING")]) ∧
      OneForEach "<name:NETFAIL,level:WARNING>".toList [("NETFAIL", "WARNING")] := by
  have hread : activeAlarms (String.ofList ("<name:NETFAIL,level:WARNING>".toList ++ [cr, lf])) =
      .done (.alarms [("NETFAIL", "WARNING")]) := rfl
  have hclean : Clean "<name:NETFAIL,level:WARNING>".toList := by
    refine ⟨[], [("NETFAIL", "WARNING")], rfl, rfl, ?_⟩
    intro alarm ha
    obtain rfl := List.mem_singleton.mp ha
    exact ⟨by decide, rfl, rfl⟩
  have hcr : cr ∉ "<name:NETFAIL,level:WARNING>".toList := by decide
  have hline : ¬ [cr, lf] <:+: "<name:NETFAIL,level:WARNING>".toList :=
    fun h => hcr (h.subset List.mem_cons_self)
  exact ⟨hread, (oneForEach_iff_clean hline).mpr hclean _ hread⟩

/-- A record without a level empties the list, the alarm before it included. -/
theorem alarms_lost :
    activeAlarms "<name:a,level:b>*<name:c>\r\n" = .done (.alarms []) ∧
      ¬ OneForEach "<name:a,level:b>*<name:c>".toList [] := by
  refine ⟨rfl, ?_⟩
  intro h
  have hlength := h.length_eq
  exact absurd hlength (by decide)

end Sismatic
