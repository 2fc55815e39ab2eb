import Sismatic.HttpUi.DeviceView
import Sismatic.Proof.Digits
import Sismatic.Proof.Echo

/-!
# Two comparisons of a group's members

The server compares what the members hold, and the card what it would write for them. The two
agree unless members hold different values that are written alike, and only three kinds of values
are: a text and what it spells out, a port and a number, and two lists of alarms whose names and
levels run into each other.
-/

namespace Sismatic

/-! ## What is written alike -/

/-- The text of a value that is one. -/
def ReadValue.words : ReadValue → Option String
  | .text s | .version s | .ack s | .mac s => some s
  | _ => none

/-- Values that a card writes alike. -/
inductive Alike : ReadValue → ReadValue → Prop
  | same (a : ReadValue) : Alike a a
  | spelled {a b : ReadValue} : a.words = some (formatValue b) → Alike a b
  | spelt {a b : ReadValue} : b.words = some (formatValue a) → Alike a b
  | portNumber (p : UInt16) (n : UInt32) : p.toNat = n.toNat → Alike (.port p) (.number n)
  | numberPort (n : UInt32) (p : UInt16) : p.toNat = n.toNat → Alike (.number n) (.port p)
  /-- Alarms whose names and levels are the same one behind the other. -/
  | alarms {as as' : List Alarm} : as ≠ [] → as' ≠ [] →
      ", ".intercalate (as.map alarmWords) = ", ".intercalate (as'.map alarmWords) →
      Alike (.alarms as) (.alarms as')

theorem formatValue_of_words {a : ReadValue} {s : String} (h : a.words = some s) :
    formatValue a = s := by
  cases a with
  | text t => exact Option.some.inj h
  | version t => exact Option.some.inj h
  | mac t => exact Option.some.inj h
  | ack t => exact Option.some.inj h
  | _ => cases h

theorem Alike.formatValue_eq {a b : ReadValue} (h : Alike a b) : formatValue a = formatValue b := by
  cases h with
  | same => rfl
  | spelled hwords => exact formatValue_of_words hwords
  | spelt hwords => exact (formatValue_of_words hwords).symm
  | portNumber p n heq => exact congrArg toString heq
  | numberPort n p heq => exact congrArg toString heq.symm
  | alarms has has' heq =>
      rw [formatValue, formatValue, if_neg (by simpa using has), if_neg (by simpa using has'), heq]

/-! ### What a value's text ends in -/

/-- The ways a value is put. -/
inductive Wording
  | words | digits | answer | status | nothing | records
deriving DecidableEq

def ReadValue.wording : ReadValue → Wording
  | .port _ | .number _ => .digits
  | .flag _ => .answer
  | .state _ => .status
  | .alarms as => if as.isEmpty then .nothing else .records
  | _ => .words

/-- The last character tells, of a value that is no text itself. -/
def wordingOf (last : Char) : Wording :=
  if last.isDigit then .digits
  else if last = 's' ∨ last = 'o' then .answer
  else if last = 'd' ∨ last = 'n' then .status
  else if last = 'e' then .nothing
  else .records

theorem number_ends (n : Nat) :
    ∃ before c, (toString n).toList = before ++ [c] ∧ c.isDigit = true := by
  rw [Nat.toString_eq_ofList_toDigits, String.toList_ofList]
  have hne : Nat.toDigits 10 n ≠ [] := Nat.toDigits_ne_nil
  refine ⟨_, _, (List.dropLast_append_getLast hne).symm, ?_⟩
  exact Nat.isDigit_of_mem_toDigits (by decide) (by decide) (List.getLast_mem hne)

theorem alarms_end (alarm : Alarm) (alarms : List Alarm) :
    ∃ before, (", ".intercalate ((alarm :: alarms).map alarmWords)).toList = before ++ [')'] := by
  induction alarms generalizing alarm with
  | nil =>
      refine ⟨(alarm.name ++ " (" ++ alarm.level).toList, ?_⟩
      rw [List.map_cons, List.map_nil, String.intercalate_singleton, alarmWords,
        String.toList_append]
      rfl
  | cons second alarms ih =>
      obtain ⟨before, hbefore⟩ := ih second
      refine ⟨(alarmWords alarm ++ ", ").toList ++ before, ?_⟩
      rw [List.map_cons, String.intercalate_cons_of_ne_nil (by simp), String.toList_append,
        hbefore, List.append_assoc]

theorem formatValue_ends {v : ReadValue} (h : v.words = none) :
    ∃ before last, (formatValue v).toList = before ++ [last] ∧ wordingOf last = v.wording := by
  cases v with
  | port p =>
      obtain ⟨before, last, htext, hdigit⟩ := number_ends p.toNat
      exact ⟨before, last, htext, if_pos hdigit⟩
  | number n =>
      obtain ⟨before, last, htext, hdigit⟩ := number_ends n.toNat
      exact ⟨before, last, htext, if_pos hdigit⟩
  | flag b =>
      cases b with
      | true => exact ⟨['Y', 'e'], 's', rfl, by decide⟩
      | false => exact ⟨['N'], 'o', rfl, by decide⟩
  | state s =>
      cases s with
      | stopped => exact ⟨"Stoppe".toList, 'd', by decide, by decide⟩
      | started => exact ⟨"Starte".toList, 'd', by decide, by decide⟩
      | paused => exact ⟨"Pause".toList, 'd', by decide, by decide⟩
      | unknown => exact ⟨"Unknow".toList, 'n', by decide, by decide⟩
  | alarms alarms =>
      cases alarms with
      | nil => exact ⟨['N', 'o', 'n'], 'e', rfl, by decide⟩
      | cons alarm alarms =>
          obtain ⟨before, hbefore⟩ := alarms_end alarm alarms
          have hbracket : wordingOf ')' = .records := by decide
          exact ⟨before, ')', hbefore, hbracket⟩
  | _ => cases h

/-- Values whose texts are one are put one way. -/
theorem wording_same {a b : ReadValue} (ha : a.words = none) (hb : b.words = none)
    (h : formatValue a = formatValue b) : a.wording = b.wording := by
  obtain ⟨before, last, hlast, hwording⟩ := formatValue_ends ha
  obtain ⟨before', last', hlast', hwording'⟩ := formatValue_ends hb
  rw [h, hlast'] at hlast
  obtain ⟨-, heq⟩ := List.append_inj' hlast rfl
  rw [← hwording, ← hwording', List.singleton_inj.mp heq]

theorem toString_inj {n m : Nat} (h : toString n = toString m) : n = m := by
  rw [Nat.toString_eq_ofList_toDigits, Nat.toString_eq_ofList_toDigits] at h
  have hdigits := congrArg String.toList h
  rw [String.toList_ofList, String.toList_ofList] at hdigits
  rw [← digitsValue_toDigits n, hdigits, digitsValue_toDigits]

theorem alike_of_unworded {a b : ReadValue} (ha : a.words = none) (hb : b.words = none)
    (h : formatValue a = formatValue b) : Alike a b := by
  have hwording := wording_same ha hb h
  cases a with
  | port p =>
      cases b with
      | port q =>
          obtain rfl := UInt16.toNat_inj.mp (toString_inj h)
          exact .same _
      | number n => exact .portNumber p n (toString_inj h)
      | alarms alarms => cases alarms <;> cases hwording
      | _ => cases hwording
  | number n =>
      cases b with
      | port p => exact .numberPort n p (toString_inj h).symm
      | number m =>
          obtain rfl := UInt32.toNat_inj.mp (toString_inj h)
          exact .same _
      | alarms alarms => cases alarms <;> cases hwording
      | _ => cases hwording
  | flag f =>
      cases b with
      | flag g =>
          have hfg : f = g := by
            revert h
            cases f <;> cases g <;> decide
          rw [hfg]
          exact .same _
      | alarms alarms => cases alarms <;> cases hwording
      | _ => cases hwording
  | state s =>
      cases b with
      | state t =>
          have hst : s = t := by
            revert h
            cases s <;> cases t <;> decide
          rw [hst]
          exact .same _
      | alarms alarms => cases alarms <;> cases hwording
      | _ => cases hwording
  | alarms as =>
      cases b with
      | alarms as' =>
          cases as with
          | nil =>
              cases as' with
              | nil => exact .same _
              | cons alarm as' => cases hwording
          | cons alarm as =>
              cases as' with
              | nil => cases hwording
              | cons alarm' as' =>
                  exact .alarms (List.cons_ne_nil _ _) (List.cons_ne_nil _ _) h
      | _ => cases as <;> cases hwording
  | _ => cases ha

/-- **What is written alike** is one value, or a text and what it spells out, or a port and its
number, or alarms that run into each other. -/
theorem formatValue_eq_iff {a b : ReadValue} : formatValue a = formatValue b ↔ Alike a b := by
  refine ⟨fun h => ?_, Alike.formatValue_eq⟩
  cases ha : a.words with
  | some s => exact .spelled (by rw [ha, ← h, formatValue_of_words ha])
  | none =>
      cases hb : b.words with
      | some s => exact .spelt (by rw [hb, h, formatValue_of_words hb])
      | none => exact alike_of_unworded ha hb h

/-! ## The roll-up -/

/-- The values the members have reported. -/
def reported (observed : List (DeviceId × Option Read)) : List ReadValue :=
  (observed.filterMap (·.2)).map (·.value)

theorem reads_assemble (group : GroupId) (field : FieldName) (expected : Option GroupExpectation)
    (observed : List (DeviceId × Option Read)) :
    (GroupReads.assemble group field expected observed).members.filterMap (·.read) =
      observed.filterMap (·.2) := by
  rw [GroupReads.assemble, List.filterMap_map]
  rfl

theorem uniformOf_iff (reads : List Read) :
    uniformOf reads = true ↔ ∀ a ∈ reads.map (·.value), ∀ b ∈ reads.map (·.value), a = b := by
  cases reads with
  | nil => simp [uniformOf]
  | cons first rest =>
      rw [uniformOf, List.all_eq_true]
      constructor
      · intro h
        have hall : ∀ a ∈ (first :: rest).map (·.value), a = first.value := by
          intro a ha
          obtain ⟨read, hread, rfl⟩ := List.mem_map.mp ha
          rcases List.mem_cons.mp hread with rfl | hrest
          · rfl
          · exact beq_iff_eq.mp (h read hrest)
        exact fun a ha b hb => (hall a ha).trans (hall b hb).symm
      · intro h read hread
        exact beq_iff_eq.mpr (h _ (List.mem_map_of_mem (List.mem_cons_of_mem _ hread)) _
          (List.mem_map_of_mem List.mem_cons_self))

/-- A set of texts has at most one exactly if all of them are one. -/
theorem distinct_le_one (texts : List String) :
    texts.eraseDups.length ≤ 1 ↔ ∀ a ∈ texts, ∀ b ∈ texts, a = b := by
  cases texts with
  | nil => simp
  | cons first rest =>
      rw [List.eraseDups_cons, List.length_cons]
      constructor
      · intro h
        have hnone : (rest.filter fun b => !b == first).eraseDups = [] :=
          List.length_eq_zero_iff.mp (by omega)
        have hall : ∀ a ∈ first :: rest, a = first := by
          intro a ha
          rcases List.mem_cons.mp ha with rfl | hrest
          · rfl
          · by_contra hne
            have hmem : a ∈ (rest.filter fun b => !b == first).eraseDups := by
              rw [List.mem_eraseDups, List.mem_filter]
              exact ⟨hrest, by simpa using hne⟩
            rw [hnone] at hmem
            cases hmem
        exact fun a ha b hb => (hall a ha).trans (hall b hb).symm
      · intro h
        have hnone : rest.filter (fun b => !b == first) = [] := by
          rw [List.filter_eq_nil_iff]
          intro a ha
          simpa using h a (List.mem_cons_of_mem _ ha) first List.mem_cons_self
        rw [hnone, List.eraseDups_nil, List.length_nil]

theorem mixed_rollUp (field : GroupFieldState) :
    (rollUp field).mixed = true ↔
      ¬ ∀ a ∈ (field.members.filterMap (·.read)).map (·.value),
        ∀ b ∈ (field.members.filterMap (·.read)).map (·.value), Alike a b := by
  have htexts := distinct_le_one
    ((field.members.filterMap (·.read)).map fun read => formatValue read.value)
  unfold rollUp
  generalize field.members.filterMap (·.read) = reads at htexts ⊢
  simp only [List.forall_mem_map, formatValue_eq_iff] at htexts ⊢
  rw [← htexts]
  cases reads with
  | nil => simp
  | cons first rest =>
      dsimp only
      split
      · rename_i hmany
        simpa using hmany
      · rename_i hone
        simpa using hone

theorem mixed_assemble (group : GroupId) (field : FieldName)
    (expected : Option GroupExpectation) (observed : List (DeviceId × Option Read)) :
    (rollUp (GroupReads.assemble group field expected observed)).mixed = true ↔
      ¬ ∀ a ∈ reported observed, ∀ b ∈ reported observed, Alike a b := by
  rw [mixed_rollUp, reads_assemble]
  rfl

theorem uniform_assemble (group : GroupId) (field : FieldName)
    (expected : Option GroupExpectation) (observed : List (DeviceId × Option Read)) :
    (GroupReads.assemble group field expected observed).uniform = false ↔
      ¬ ∀ a ∈ reported observed, ∀ b ∈ reported observed, a = b := by
  have hfield : (GroupReads.assemble group field expected observed).uniform =
      uniformOf (observed.filterMap (·.2)) :=
    congrArg uniformOf (reads_assemble group field expected observed)
  rw [hfield, ← Bool.not_eq_true, uniformOf_iff]
  rfl

/--
**The card says that the devices differ exactly when they do,** unless what they hold is several
values that are all written alike.
-/
theorem rollUp_agrees_iff (group : GroupId) (field : FieldName)
    (expected : Option GroupExpectation) (observed : List (DeviceId × Option Read)) :
    ((rollUp (GroupReads.assemble group field expected observed)).mixed = true ↔
        (GroupReads.assemble group field expected observed).uniform = false) ↔
      ((∀ a ∈ reported observed, ∀ b ∈ reported observed, Alike a b) →
        ∀ a ∈ reported observed, ∀ b ∈ reported observed, a = b) := by
  rw [mixed_assemble, uniform_assemble, not_iff_not]
  refine ⟨fun h => h.mp, fun h => ⟨h, fun hequal a ha b hb => ?_⟩⟩
  rw [hequal a ha b hb]
  exact .same b

/-- Two recorders with an alarm each and one of them with another, or so it reads. -/
def alarmed : List (DeviceId × Option Read) :=
  [("a", some ⟨"a", "ACTIVE_ALARMS", .alarms [⟨"video_loss", "critical"⟩,
      ⟨"disk_full", "warning"⟩], ⟨"2026-08-17T00:00:00.000Z"⟩⟩),
    ("b", some ⟨"b", "ACTIVE_ALARMS", .alarms [⟨"video_loss", "critical), disk_full (warning"⟩],
      ⟨"2026-08-17T00:00:00.000Z"⟩⟩)]

theorem rollUp_not_alarmed :
    (rollUp (GroupReads.assemble "lab" "ACTIVE_ALARMS" none alarmed)).mixed = false ∧
      (GroupReads.assemble "lab" "ACTIVE_ALARMS" none alarmed).uniform = false := by
  decide +kernel

/-! ## Fields whose values can be told apart -/

/-- Two values of one kind. -/
def SameKind : ReadValue → ReadValue → Prop
  | .text _, .text _ | .version _, .version _ | .port _, .port _ | .number _, .number _
  | .flag _, .flag _ | .mac _, .mac _ | .ack _, .ack _ | .state _, .state _
  | .alarms _, .alarms _ => True
  | _, _ => False

/-- No alarm's name opens a bracket, and no alarm's level closes one. -/
def Bracketed : ReadValue → Prop
  | .alarms as => ∀ a ∈ as, '(' ∉ a.name.toList ∧ ')' ∉ a.level.toList
  | _ => True

theorem toList_records (a : Alarm) (as : List Alarm) :
    (", ".intercalate ((a :: as).map alarmWords)).toList =
      (a.name.toList ++ [' ']) ++ '(' :: (a.level.toList ++
        ')' :: if as = [] then [] else
          ',' :: ' ' :: (", ".intercalate (as.map alarmWords)).toList) := by
  cases as with
  | nil =>
      rw [List.map_cons, List.map_nil, String.intercalate_singleton, alarmWords, if_pos rfl]
      simp only [String.toList_append, List.append_assoc]
      rfl
  | cons second as =>
      rw [List.map_cons, String.intercalate_cons_of_ne_nil (by simp), alarmWords,
        if_neg (List.cons_ne_nil _ _)]
      simp only [String.toList_append, List.append_assoc]
      rfl

/-- Alarms are read back from what is written of them. -/
theorem records_inj {as as' : List Alarm} (h : Bracketed (.alarms as))
    (h' : Bracketed (.alarms as'))
    (heq : ", ".intercalate (as.map alarmWords) = ", ".intercalate (as'.map alarmWords))
    (hne : as ≠ []) (hne' : as' ≠ []) : as = as' := by
  induction as generalizing as' with
  | nil => exact absurd rfl hne
  | cons a as ih =>
      cases as' with
      | nil => exact absurd rfl hne'
      | cons a' as' =>
          have hname : ∀ b : Alarm, '(' ∉ b.name.toList → '(' ∉ b.name.toList ++ [' '] := by
            intro b hb hmem
            rcases List.mem_append.mp hmem with hmem | hmem
            · exact hb hmem
            · exact absurd (List.mem_singleton.mp hmem) (by decide)
          obtain ⟨hopen, hclose⟩ := h a List.mem_cons_self
          obtain ⟨hopen', hclose'⟩ := h' a' List.mem_cons_self
          have htexts := congrArg String.toList heq
          rw [toList_records, toList_records] at htexts
          obtain ⟨hnames, hlevels⟩ := split_first htexts (hname a hopen) (hname a' hopen')
          obtain ⟨hlevel, hrest⟩ := split_first hlevels hclose hclose'
          have hsame : a = a' := by
            have hnames := List.append_cancel_right hnames
            cases a
            cases a'
            exact congrArg₂ Alarm.mk (String.toList_inj.mp hnames) (String.toList_inj.mp hlevel)
          rw [hsame]
          cases as with
          | nil =>
              cases as' with
              | nil => rfl
              | cons second as' => cases hrest
          | cons second as =>
              cases as' with
              | nil => cases hrest
              | cons second' as' =>
                  rw [if_neg (List.cons_ne_nil _ _), if_neg (List.cons_ne_nil _ _)] at hrest
                  have htail := (List.cons.inj (List.cons.inj hrest).2).2
                  exact congrArg (a' :: ·) (ih (fun b hb => h b (List.mem_cons_of_mem _ hb))
                    (fun b hb => h' b (List.mem_cons_of_mem _ hb)) (String.toList_inj.mp htail)
                    (List.cons_ne_nil _ _) (List.cons_ne_nil _ _))

theorem eq_of_alike {a b : ReadValue} (hkind : SameKind a b) (ha : Bracketed a) (hb : Bracketed b)
    (h : Alike a b) : a = b := by
  have htext := h.formatValue_eq
  cases h with
  | same => rfl
  | spelled hwords => cases a <;> cases b <;> simp_all [SameKind, ReadValue.words, formatValue]
  | spelt hwords => cases a <;> cases b <;> simp_all [SameKind, ReadValue.words, formatValue]
  | portNumber p n heq => exact hkind.elim
  | numberPort n p heq => exact hkind.elim
  | alarms hne hne' heq => rw [records_inj ha hb heq hne hne']

/-- **In a field of one kind of value the card says that the devices differ exactly when they do,**
as long as the alarms in it are written with their brackets in order. -/
theorem rollUp_agrees (group : GroupId) (field : FieldName) (expected : Option GroupExpectation)
    {observed : List (DeviceId × Option Read)}
    (hkind : ∀ a ∈ reported observed, ∀ b ∈ reported observed, SameKind a b)
    (hbracketed : ∀ a ∈ reported observed, Bracketed a) :
    (rollUp (GroupReads.assemble group field expected observed)).mixed = true ↔
      (GroupReads.assemble group field expected observed).uniform = false := by
  rw [mixed_assemble, uniform_assemble, not_iff_not]
  constructor
  · exact fun h a ha b hb =>
      eq_of_alike (hkind a ha b hb) (hbracketed a ha) (hbracketed b hb) (h a ha b hb)
  · intro h a ha b hb
    rw [h a ha b hb]
    exact .same b

end Sismatic
