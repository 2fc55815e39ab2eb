import Sismatic.Core.AutoDisabled
import Mathlib.Data.List.Induction

/-!
# What a field's refusals come to

A field's record is a function of the refusals since its last answer: how many there are, and
which of them was the last to reach the threshold it was counted under. That one alone says
whether the field is vetoed, and until when. The record goes on counting behind a deadline that
has passed, so a snapshot of it and the veto read different things there.
-/

namespace Sismatic.Devices

/-! ## Evidence -/

/-- A refusal of a field, under the policy of the device that was polled. -/
structure Refused where
  threshold : UInt32
  selfHeal : Option Duration
  now : Instant

/-- What a poll of a field shows. -/
inductive Evidence
  | refused (refusal : Refused)
  | answered

namespace AutoDisabled

/-- Take one poll into account. A report is of a refusal. -/
def tell (instantEnd : Instant) (learned : AutoDisabled) (field : FieldName) :
    Evidence → Option (AutoDisabled × Option Refusal)
  | .refused r =>
      (refused instantEnd learned field r.threshold r.selfHeal r.now).map fun told =>
        (told.1, some told.2)
  | .answered => some ((answered learned field).1, none)

/-- Take polls into account, one after another; `none` where one of them panics. -/
def tellAll (instantEnd : Instant) (learned : AutoDisabled) :
    List (FieldName × Evidence) → Option (AutoDisabled × List (Option Refusal))
  | [] => some (learned, [])
  | event :: events => do
      let (learned, report) ← tell instantEnd learned event.1 event.2
      let (learned, reports) ← tellAll instantEnd learned events
      return (learned, report :: reports)

end AutoDisabled

/-- The refusals that stand against a field, after one more poll of it. -/
def count (standing : List Refused) : Evidence → List Refused
  | .refused r => if r.threshold = 0 then standing else standing ++ [r]
  | .answered => []

/-- What has been shown of one field. -/
def evidenceOf (field : FieldName) (events : List (FieldName × Evidence)) : List Evidence :=
  (events.filter fun event => event.1 = field).map (·.2)

/-- The refusals since the last answer, of those that are counted at all. -/
def standing (evidence : List Evidence) : List Refused := evidence.foldl count []

/-- The last of the refusals to reach its threshold, `counted` having gone before them. -/
def arming (counted : Nat) : List Refused → Option Refused
  | [] => none
  | r :: rs =>
      (arming (counted + 1) rs).or (if r.threshold.toNat ≤ counted + 1 then some r else none)

/-- When a refusal's veto ends, `none` for never. -/
def Refused.deadline (r : Refused) : Option Instant := r.selfHeal.map (r.now + ·)

/-- The record of a field with these refusals standing against it. -/
def recordOf (rs : List Refused) : Option Record :=
  if rs = [] then none
  else some ⟨UInt32.ofNat (min rs.length (2 ^ 32 - 1)), (arming 0 rs).map Refused.deadline⟩

/-- One more refusal would arm a veto whose end cannot be represented. -/
def Overflows (instantEnd : Instant) (rs : List Refused) (r : Refused) : Prop :=
  r.threshold ≠ 0 ∧ r.threshold.toNat ≤ rs.length + 1 ∧
    ∃ wait, r.selfHeal = some wait ∧ instantEnd ≤ r.now + wait

theorem arming_concat (counted : Nat) (rs : List Refused) (r : Refused) :
    arming counted (rs ++ [r]) =
      if r.threshold.toNat ≤ counted + rs.length + 1 then some r else arming counted rs := by
  induction rs generalizing counted with
  | nil =>
      rw [List.nil_append, arming]
      exact Option.none_or
  | cons first rs ih =>
      rw [List.cons_append, arming, arming, ih, List.length_cons]
      have hlen : counted + 1 + rs.length + 1 = counted + (rs.length + 1) + 1 := by omega
      rw [hlen]
      split
      · rfl
      · rfl

/-! ## One poll -/

/-- The count saturates above every threshold. -/
theorem saturatingSucc_count (k : Nat) :
    AutoDisabled.saturatingSucc (UInt32.ofNat (min k (2 ^ 32 - 1))) =
      UInt32.ofNat (min (k + 1) (2 ^ 32 - 1)) := by
  have hk : (UInt32.ofNat (min k (2 ^ 32 - 1))).toNat = min k (2 ^ 32 - 1) := by
    rw [UInt32.toNat_ofNat']
    omega
  rw [AutoDisabled.saturatingSucc, hk]
  have hmin : min (min k (2 ^ 32 - 1) + 1) (2 ^ 32 - 1) = min (k + 1) (2 ^ 32 - 1) := by omega
  rw [hmin]

theorem count_lt_threshold (k : Nat) (threshold : UInt32) :
    UInt32.ofNat (min k (2 ^ 32 - 1)) < threshold ↔ k < threshold.toNat := by
  have hlt := threshold.toNat_lt
  rw [UInt32.lt_iff_toNat_lt, UInt32.toNat_ofNat']
  omega

/-- What is recorded of a field, as the next refusal of it finds it. -/
theorem recordOf_getD (rs : List Refused) :
    (recordOf rs).getD ⟨0, none⟩ =
      ⟨UInt32.ofNat (min rs.length (2 ^ 32 - 1)), (arming 0 rs).map Refused.deadline⟩ := by
  unfold recordOf
  split
  · rename_i hnil
    rw [hnil]
    rfl
  · rfl

theorem recordOf_concat (rs : List Refused) (r : Refused) :
    recordOf (rs ++ [r]) = some ⟨UInt32.ofNat (min (rs.length + 1) (2 ^ 32 - 1)),
      if r.threshold.toNat ≤ rs.length + 1 then some r.deadline
      else (arming 0 rs).map Refused.deadline⟩ := by
  have hne : rs ++ [r] ≠ [] := by simp
  rw [recordOf, if_neg hne, arming_concat, List.length_append, List.length_singleton, Nat.zero_add]
  split
  · rfl
  · rfl

/-- Whether this refusal of a field is the one that is reported as disabling it. -/
def disables (rs : List Refused) (r : Refused) : Bool :=
  r.threshold != 0 && decide (r.threshold.toNat ≤ rs.length + 1) && (arming 0 rs).isNone

def isDisabled : Option Refusal → Bool
  | some (.disabled _) => true
  | _ => false

/-- **What one refusal does**, of a field with these refusals standing against it. -/
theorem tell_refused {instantEnd : Instant} {learned : AutoDisabled} {field : FieldName}
    {rs : List Refused} (h : learned.fields field = recordOf rs) (r : Refused) :
    (Overflows instantEnd rs r ∧ learned.tell instantEnd field (.refused r) = none) ∨
      (¬ Overflows instantEnd rs r ∧ ∃ learned' report,
        learned.tell instantEnd field (.refused r) = some (learned', report) ∧
          learned'.fields = Function.update learned.fields field
            (recordOf (count rs (.refused r))) ∧
          isDisabled report = disables rs r) := by
  unfold AutoDisabled.tell AutoDisabled.refused
  by_cases hzero : r.threshold = 0
  · refine .inr ⟨fun hover => hover.1 hzero, learned, some .still, ?_, ?_, ?_⟩
    · simp only [hzero, if_true, Option.map_some]
    · rw [count, if_pos hzero, ← h, Function.update_eq_self]
    · simp [disables, hzero, isDisabled]
  · have hnext := saturatingSucc_count rs.length
    simp only [if_neg hzero, h, recordOf_getD, hnext, count_lt_threshold]
    rw [count, if_neg hzero, recordOf_concat]
    by_cases hshort : rs.length + 1 < r.threshold.toNat
    · have hnot : ¬ r.threshold.toNat ≤ rs.length + 1 := by omega
      simp only [if_pos hshort, if_neg hnot, Option.map_some]
      refine .inr ⟨fun hover => hnot hover.2.1, _, _, rfl, rfl, ?_⟩
      simp [isDisabled, disables, hnot]
    · have hreached : r.threshold.toNat ≤ rs.length + 1 := by omega
      simp only [if_neg hshort, if_pos hreached]
      have hreport : isDisabled (some
          (if ((arming 0 rs).map Refused.deadline).isSome = true then Refusal.still
            else .disabled (UInt32.ofNat (min (rs.length + 1) (2 ^ 32 - 1))))) =
              disables rs r := by
        have hne : (r.threshold != 0) = true := bne_iff_ne.mpr hzero
        simp only [disables, hne, hreached, decide_true, Bool.true_and, Option.isSome_map]
        cases arming 0 rs with
        | none => rfl
        | some armed => rfl
      cases hheal : r.selfHeal with
      | none =>
          have hdeadline : r.deadline = none := by rw [Refused.deadline, hheal, Option.map_none]
          rw [hdeadline]
          refine .inr ⟨?_, _, _, rfl, rfl, hreport⟩
          rintro ⟨-, -, wait, hwait, -⟩
          rw [hheal] at hwait
          cases hwait
      | some wait =>
          have hdeadline : r.deadline = some (r.now + wait) := by
            rw [Refused.deadline, hheal, Option.map_some]
          rw [hdeadline]
          by_cases hfits : r.now + wait < instantEnd
          · simp only [addInstant, if_pos hfits, Option.map_some]
            refine .inr ⟨?_, _, _, rfl, rfl, hreport⟩
            rintro ⟨-, -, wait', hwait, hlate⟩
            rw [hheal] at hwait
            obtain rfl := Option.some.inj hwait
            exact absurd hlate (Nat.not_le.mpr hfits)
          · simp only [addInstant, if_neg hfits, Option.map_none]
            exact .inl ⟨⟨hzero, hreached, wait, hheal, Nat.not_lt.mp hfits⟩, trivial⟩

/-! ## A run -/

/-- What stands against each field, after one more poll. -/
def tally (against : FieldName → List Refused) (event : FieldName × Evidence) :
    FieldName → List Refused :=
  Function.update against event.1 (count (against event.1) event.2)

/-- A poll that arms a veto whose end cannot be represented. -/
def EventOverflows (instantEnd : Instant) (against : FieldName → List Refused)
    (event : FieldName × Evidence) : Prop :=
  ∃ r, event.2 = .refused r ∧ Overflows instantEnd (against event.1) r

/-- Some poll of a run does. -/
def Overruns (instantEnd : Instant) (against : FieldName → List Refused) :
    List (FieldName × Evidence) → Prop
  | [] => False
  | event :: events =>
      EventOverflows instantEnd against event ∨
        Overruns instantEnd (tally against event) events

/-- Whether a poll is reported as disabling its field. -/
def eventDisables (against : FieldName → List Refused) (event : FieldName × Evidence) : Bool :=
  match event.2 with
  | .refused r => disables (against event.1) r
  | .answered => false

/-- Which polls of a run are. -/
def disabling (against : FieldName → List Refused) : List (FieldName × Evidence) → List Bool
  | [] => []
  | event :: events => eventDisables against event :: disabling (tally against event) events

/-- What is learned is the record of what stands against each field. -/
def Records (learned : AutoDisabled) (against : FieldName → List Refused) : Prop :=
  ∀ field, learned.fields field = recordOf (against field)

theorem records_new : Records .new fun _ => [] := fun _ => rfl

theorem records_update {learned learned' : AutoDisabled} {against : FieldName → List Refused}
    (h : Records learned against) {event : FieldName × Evidence}
    (hfields : learned'.fields = Function.update learned.fields event.1
      (recordOf (count (against event.1) event.2))) : Records learned' (tally against event) := by
  intro field
  rw [hfields, tally]
  by_cases heq : field = event.1
  · rw [heq, Function.update_self, Function.update_self]
  · rw [Function.update_of_ne heq, Function.update_of_ne heq]
    exact h field

/-- **A poll keeps the record, and is reported as it should be, or panics.** -/
theorem tell_records {instantEnd : Instant} {learned : AutoDisabled}
    {against : FieldName → List Refused} (h : Records learned against)
    (event : FieldName × Evidence) :
    (EventOverflows instantEnd against event ∧
        learned.tell instantEnd event.1 event.2 = none) ∨
      (¬ EventOverflows instantEnd against event ∧ ∃ learned' report,
        learned.tell instantEnd event.1 event.2 = some (learned', report) ∧
          Records learned' (tally against event) ∧
          isDisabled report = eventDisables against event) := by
  obtain ⟨field, evidence⟩ := event
  cases evidence with
  | refused r =>
      rcases @tell_refused instantEnd _ _ _ (h field) r with
        ⟨hover, htell⟩ | ⟨hfits, learned', report, htell, hfields, hreport⟩
      · exact .inl ⟨⟨r, rfl, hover⟩, htell⟩
      · refine .inr ⟨?_, learned', report, htell, records_update h hfields, hreport⟩
        rintro ⟨r', heq, hover⟩
        obtain rfl := Evidence.refused.inj heq
        exact hfits hover
  | answered =>
      refine .inr ⟨?_, _, _, rfl, records_update h rfl, rfl⟩
      rintro ⟨r, heq, -⟩
      cases heq

/-- **A run keeps the record, and every poll of it is reported as it should be, or it panics.** -/
theorem tellAll_records {instantEnd : Instant} {learned : AutoDisabled}
    {against : FieldName → List Refused} (h : Records learned against)
    (events : List (FieldName × Evidence)) :
    (Overruns instantEnd against events ∧ learned.tellAll instantEnd events = none) ∨
      (¬ Overruns instantEnd against events ∧ ∃ learned' reports,
        learned.tellAll instantEnd events = some (learned', reports) ∧
          Records learned' (events.foldl tally against) ∧
          reports.map isDisabled = disabling against events) := by
  induction events generalizing learned against with
  | nil => exact .inr ⟨not_false, learned, [], rfl, h, rfl⟩
  | cons event events ih =>
      rcases @tell_records instantEnd _ _ h event with
        ⟨hover, htell⟩ | ⟨hfits, told, report, htell, htold, hreport⟩
      · refine .inl ⟨.inl hover, ?_⟩
        rw [AutoDisabled.tellAll, htell]
        rfl
      · rcases ih htold with ⟨hover, hall⟩ | ⟨hrest, learned', reports, hall, hrecords, hreports⟩
        · refine .inl ⟨.inr hover, ?_⟩
          rw [AutoDisabled.tellAll, htell]
          simp only [bind, Option.bind, hall]
        · refine .inr ⟨not_or_intro hfits hrest, learned', report :: reports, ?_, hrecords, ?_⟩
          · rw [AutoDisabled.tellAll, htell]
            simp only [bind, Option.bind, hall, pure]
          · rw [List.map_cons, hreport, hreports, disabling]

/-- What stands against a field depends on that field's polls only. -/
theorem foldl_tally (events : List (FieldName × Evidence)) (against : FieldName → List Refused)
    (field : FieldName) :
    events.foldl tally against field = (evidenceOf field events).foldl count (against field) := by
  induction events generalizing against with
  | nil => rfl
  | cons event events ih =>
      rw [List.foldl_cons, ih, evidenceOf, evidenceOf, List.filter_cons]
      by_cases heq : event.1 = field
      · rw [if_pos (decide_eq_true heq), List.map_cons, List.foldl_cons, tally, heq,
          Function.update_self]
      · rw [if_neg (by simpa using heq), tally, Function.update_of_ne (Ne.symm heq)]

/-- **What is recorded of a field is its standing refusals.** -/
theorem recorded {instantEnd : Instant} {events : List (FieldName × Evidence)}
    {learned : AutoDisabled} {reports : List (Option Refusal)}
    (h : AutoDisabled.new.tellAll instantEnd events = some (learned, reports))
    (field : FieldName) :
    learned.fields field = recordOf (standing (evidenceOf field events)) := by
  rcases @tellAll_records instantEnd _ _ records_new events with
    ⟨-, hnone⟩ | ⟨-, learned', reports', hsome, hrecords, -⟩
  · rw [h] at hnone
    cases hnone
  · rw [h] at hsome
    obtain ⟨rfl, -⟩ := Prod.mk.inj (Option.some.inj hsome)
    exact (hrecords field).trans (congrArg recordOf (foldl_tally events _ field))

/-! ## The veto -/

/-- The veto a refusal armed, as it stands at `t`. -/
def Refused.vetoAt (r : Refused) (t : Instant) : Option (Option Duration) :=
  match r.deadline with
  | none => some none
  | some untilThen => if t < untilThen then some (some (untilThen - t)) else none

theorem veto_of_record {learned : AutoDisabled} {field : FieldName} {rs : List Refused}
    (h : learned.fields field = recordOf rs) (t : Instant) :
    learned.veto field t = (arming 0 rs).bind (Refused.vetoAt · t) := by
  unfold AutoDisabled.veto
  rw [h, recordOf]
  by_cases hnil : rs = []
  · subst hnil
    rfl
  · rw [if_neg hnil]
    cases arming 0 rs with
    | none => rfl
    | some r =>
        cases hdeadline : r.deadline with
        | none => simp only [bind, Option.bind, Option.map_some, Refused.vetoAt, hdeadline]
        | some untilThen =>
            simp only [bind, Option.bind, Option.map_some, Refused.vetoAt, hdeadline]

/-- A veto is in force until its deadline, or for good. -/
theorem vetoAt_isSome {r : Refused} {t : Instant} :
    (r.vetoAt t).isSome ↔ ∀ wait, r.selfHeal = some wait → t < r.now + wait := by
  unfold Refused.vetoAt Refused.deadline
  cases r.selfHeal with
  | none => simp
  | some wait =>
      simp only [Option.map_some, Option.some.injEq, forall_eq']
      split
      · rename_i hlt
        simpa using hlt
      · rename_i hge
        simpa using hge

/-! ## What a snapshot says -/

/-- What a snapshot says of a field is what is enforced: it is disabled exactly while it is
vetoed, and for as much longer. -/
def Agrees (learned : AutoDisabled) (field : FieldName) (now : Instant) : Prop :=
  ((∃ entry, learned.listed field now = some entry ∧ entry.disabled = true) ↔
    (learned.veto field now).isSome) ∧
  ∀ entry, learned.listed field now = some entry → entry.disabled = true →
    learned.veto field now = some entry.retryIn

/--
**A snapshot says what is enforced unless the field's last refusal to reach its threshold has
run out.** Such a field is listed as disabled for good, and polled.
-/
theorem agrees_iff {instantEnd : Instant} {events : List (FieldName × Evidence)}
    {learned : AutoDisabled} {reports : List (Option Refusal)}
    (h : AutoDisabled.new.tellAll instantEnd events = some (learned, reports))
    (field : FieldName) (now : Instant) :
    Agrees learned field now ↔
      ∀ r wait, arming 0 (standing (evidenceOf field events)) = some r →
        r.selfHeal = some wait → now < r.now + wait := by
  have hrecord := recorded h field
  have hveto := veto_of_record hrecord now
  generalize standing (evidenceOf field events) = rs at hrecord hveto ⊢
  unfold Agrees AutoDisabled.listed
  rw [hrecord, hveto, recordOf]
  by_cases hnil : rs = []
  · subst hnil
    simp [arming]
  · rw [if_neg hnil]
    cases arming 0 rs with
    | none => simp
    | some r =>
        simp only [Option.map_some, Option.some.injEq, exists_eq_left', Option.isSome_some,
          true_iff, Option.bind_some, vetoAt_isSome, forall_eq', forall_const, Option.join_some]
        refine ⟨fun hboth r' wait heq hheal => ?_, fun hlater => ⟨fun wait => ?_, ?_⟩⟩
        · obtain rfl := heq
          exact hboth.1 wait hheal
        · exact hlater r wait rfl
        · unfold Refused.vetoAt Refused.deadline
          cases hheal : r.selfHeal with
          | none => rfl
          | some wait =>
              have hlt := hlater r wait rfl hheal
              simp only [Option.map_some, Option.bind_some, if_pos hlt, if_pos (Nat.le_of_lt hlt)]

/-- The end of what an instant can hold where seconds are kept in 63 bits. -/
def clockEnd : Instant := 2 ^ 63 * 1000000000

/-- One refusal of a field that is given up at once, and tried again after 600 nanoseconds. -/
def refusedOnce : List (FieldName × Evidence) := [("FIRMWARE", .refused ⟨1, some 600, 0⟩)]

/-- Before the deadline the snapshot says what is enforced. -/
theorem agrees_before : ∃ learned reports,
    AutoDisabled.new.tellAll clockEnd refusedOnce = some (learned, reports) ∧
      Agrees learned "FIRMWARE" 599 := by
  refine ⟨_, _, rfl, (@agrees_iff clockEnd refusedOnce _ _ rfl _ _).mpr ?_⟩
  intro r wait harmed hheal
  obtain rfl := Option.some.inj harmed
  obtain rfl := Option.some.inj hheal
  decide

/-- From the deadline on the field is polled, and listed as disabled. -/
theorem agrees_not_behind : ∃ learned reports,
    AutoDisabled.new.tellAll clockEnd refusedOnce = some (learned, reports) ∧
      ¬ Agrees learned "FIRMWARE" 601 := by
  refine ⟨_, _, rfl, fun hagrees => ?_⟩
  obtain ⟨hlisted, -⟩ := hagrees
  exact absurd (hlisted.mp ⟨_, rfl, rfl⟩) (by decide)

/-! ## One field under one policy -/

section Policy

variable {instantEnd : Instant} {n : UInt32} {heal : Option Duration}

/-- Every refusal is counted under this threshold and this window. -/
def Under (n : UInt32) (heal : Option Duration) (rs : List Refused) : Prop :=
  ∀ r ∈ rs, r.threshold = n ∧ r.selfHeal = heal

/-- The polls of a field, all under this threshold and this window. -/
def UnderAll (n : UInt32) (heal : Option Duration) (evidence : List Evidence) : Prop :=
  ∀ r, .refused r ∈ evidence → r.threshold = n ∧ r.selfHeal = heal

theorem threshold_pos (hn : n ≠ 0) : 0 < n.toNat :=
  Nat.pos_of_ne_zero fun hzero => hn (UInt32.toNat_inj.mp hzero)

theorem arming_under {rs : List Refused} (h : Under n heal rs) (counted : Nat) :
    arming counted rs = if n.toNat ≤ counted + rs.length then rs.getLast? else none := by
  induction rs using List.reverseRecOn with
  | nil =>
      rw [arming]
      split
      · rfl
      · rfl
  | append_singleton rs r ih =>
      have hr := (h r (List.mem_append_right _ (List.mem_singleton.mpr rfl))).1
      rw [arming_concat, hr, List.getLast?_concat, List.length_append, List.length_singleton,
        ih fun r' hr' => h r' (List.mem_append_left _ hr')]
      by_cases hreached : n.toNat ≤ counted + rs.length + 1
      · rw [if_pos hreached, if_pos (by omega)]
      · rw [if_neg hreached, if_neg (by omega), if_neg (by omega)]

/-- A refusal is reported as disabling its field when it is the one that reaches the threshold. -/
theorem disables_under (hn : n ≠ 0) {rs : List Refused} (h : Under n heal rs) {r : Refused}
    (hr : r.threshold = n) : disables rs r = decide (rs.length + 1 = n.toNat) := by
  have hpos : 0 < n.toNat := threshold_pos hn
  have hlast : rs.getLast? = none ↔ rs = [] := List.getLast?_eq_none_iff
  rw [disables, hr, arming_under h, bne_iff_ne.mpr hn, Bool.true_and, Nat.zero_add]
  by_cases hreached : n.toNat ≤ rs.length
  · have hne : rs ≠ [] := List.ne_nil_of_length_pos (by omega)
    have hnone : rs.getLast?.isNone = false := by
      rw [← Bool.not_eq_true, Option.isNone_iff_eq_none, hlast]
      exact hne
    rw [if_pos hreached, hnone, Bool.and_false, decide_eq_false (by omega)]
  · rw [if_neg hreached, Option.isNone_none, Bool.and_true, decide_eq_decide]
    omega

theorem under_count (hn : n ≠ 0) {rs : List Refused} (h : Under n heal rs) {evidence : Evidence}
    (hevidence : UnderAll n heal [evidence]) : Under n heal (count rs evidence) := by
  cases evidence with
  | answered => exact fun r hr => nomatch hr
  | refused r =>
      have hr := hevidence r (List.mem_singleton.mpr rfl)
      rw [count, if_neg (hr.1 ▸ hn)]
      intro r' hmem
      rcases List.mem_append.mp hmem with hold | hnew
      · exact h r' hold
      · rw [List.mem_singleton.mp hnew]
        exact hr

theorem under_standing (hn : n ≠ 0) {evidence : List Evidence} (h : UnderAll n heal evidence) :
    Under n heal (standing evidence) := by
  have hfold : ∀ (evidence : List Evidence) (rs : List Refused), UnderAll n heal evidence →
      Under n heal rs → Under n heal (evidence.foldl count rs) := by
    intro evidence
    induction evidence with
    | nil => exact fun rs _ hrs => hrs
    | cons first evidence ih =>
        intro rs hall hrs
        refine ih _ (fun r hr => hall r (List.mem_cons_of_mem _ hr)) (under_count hn hrs ?_)
        intro r hr
        exact hall r (List.mem_cons.mpr (.inl (List.mem_singleton.mp hr)))
  exact hfold evidence [] h fun r hr => nomatch hr

/-! ### The reports -/

theorem length_disabling (against : FieldName → List Refused)
    (events : List (FieldName × Evidence)) : (disabling against events).length = events.length := by
  induction events generalizing against with
  | nil => rfl
  | cons event events ih => rw [disabling, List.length_cons, List.length_cons, ih]

theorem disabling_append (against : FieldName → List Refused)
    (events later : List (FieldName × Evidence)) :
    disabling against (events ++ later) =
      disabling against events ++ disabling (events.foldl tally against) later := by
  induction events generalizing against with
  | nil => rfl
  | cons event events ih => rw [List.cons_append, disabling, ih, disabling, List.cons_append]; rfl

/-- Of refusals in a row at most one is reported, the one that reaches the threshold. -/
theorem countP_disabling (hn : n ≠ 0) {field : FieldName} {refusals : List Refused}
    (h : Under n heal refusals) {against : FieldName → List Refused}
    (hagainst : Under n heal (against field)) :
    (disabling against (refusals.map fun r => (field, .refused r))).countP id =
      if (against field).length < n.toNat ∧ n.toNat ≤ (against field).length + refusals.length
      then 1 else 0 := by
  induction refusals generalizing against with
  | nil =>
      rw [List.map_nil, disabling, List.countP_nil, if_neg]
      rw [List.length_nil]
      omega
  | cons r refusals ih =>
      have hr := (h r List.mem_cons_self)
      have hnext : tally against (field, .refused r) field = against field ++ [r] := by
        rw [tally, Function.update_self]
        exact if_neg (hr.1 ▸ hn)
      have hunder : Under n heal (tally against (field, .refused r) field) := by
        rw [hnext]
        intro r' hmem
        rcases List.mem_append.mp hmem with hold | hnew
        · exact hagainst r' hold
        · rw [List.mem_singleton.mp hnew]
          exact hr
      have hrest := ih (fun r' hr' => h r' (List.mem_cons_of_mem _ hr')) hunder
      rw [hnext, List.length_append, List.length_singleton] at hrest
      have hfirst : eventDisables against (field, .refused r) =
          decide ((against field).length + 1 = n.toNat) := disables_under hn hagainst hr.1
      rw [List.map_cons, disabling, List.countP_cons, hrest, hfirst, List.length_cons]
      simp only [id_eq, decide_eq_true_eq]
      by_cases hexact : (against field).length + 1 = n.toNat
      · rw [if_pos hexact, if_neg (by omega), if_pos (by omega)]
      · rw [if_neg hexact, Nat.add_zero]
        by_cases hwithin : (against field).length + 1 < n.toNat ∧
            n.toNat ≤ (against field).length + 1 + refusals.length
        · rw [if_pos hwithin, if_pos (by omega)]
        · rw [if_neg hwithin, if_neg (by omega)]

/-! ### The law -/

/-- Nothing stands against a field before its first poll, and behind an answer. -/
theorem standing_nil {before : List Evidence}
    (h : before = [] ∨ before.getLast? = some .answered) : standing before = [] := by
  rcases h with rfl | hlast
  · rfl
  · obtain ⟨earlier, rfl⟩ := List.getLast?_eq_some_iff.mp hlast
    rw [standing, List.foldl_append]
    rfl

theorem evidenceOf_map (field : FieldName) (evidence : List Evidence) :
    evidenceOf field (evidence.map fun e => (field, e)) = evidence := by
  induction evidence with
  | nil => rfl
  | cons e evidence ih =>
      rw [evidenceOf, List.map_cons, List.filter_cons, if_pos (decide_eq_true rfl), List.map_cons]
      exact congrArg (e :: ·) ih

theorem overruns_iff {against : FieldName → List Refused} {events : List (FieldName × Evidence)} :
    Overruns instantEnd against events ↔ ∃ before event after, events = before ++ event :: after ∧
      EventOverflows instantEnd (before.foldl tally against) event := by
  induction events generalizing against with
  | nil => simp [Overruns]
  | cons event events ih =>
      rw [Overruns, ih]
      constructor
      · rintro (hfirst | ⟨before, later, after, rfl, hover⟩)
        · exact ⟨[], event, events, rfl, hfirst⟩
        · exact ⟨event :: before, later, after, rfl, hover⟩
      · rintro ⟨before, later, after, hsplit, hover⟩
        cases before with
        | nil =>
            obtain ⟨rfl, rfl⟩ := List.cons.inj hsplit
            exact .inl hover
        | cons first before =>
            obtain ⟨rfl, rfl⟩ := List.cons.inj hsplit
            exact .inr ⟨before, later, after, rfl, hover⟩

/--
What is said of a field that is polled under one policy: it is vetoed exactly when the threshold
has been reached since its last answer and the window since its last refusal is still open; an
answer clears it; and of the refusals between two answers the one that reaches the threshold is
reported, once.
-/
def Characterized (instantEnd : Instant) (field : FieldName) (n : UInt32) (heal : Option Duration)
    (evidence : List Evidence) : Prop :=
  ∃ learned reports,
    AutoDisabled.new.tellAll instantEnd (evidence.map fun e => (field, e)) =
      some (learned, reports) ∧
    (∀ t, (learned.veto field t).isSome ↔
      n.toNat ≤ (standing evidence).length ∧
        ∀ wait, heal = some wait →
          ∃ last, (standing evidence).getLast? = some last ∧ t < last.now + wait) ∧
    (∀ t, (learned.answered field).1.veto field t = none) ∧
    ∀ before (refusals : List Refused) after,
      evidence = before ++ refusals.map .refused ++ after →
      (before = [] ∨ before.getLast? = some .answered) →
        ((reports.drop before.length).take refusals.length).countP isDisabled =
          if n.toNat ≤ refusals.length then 1 else 0

/-- Every refusal that would arm a veto arms one whose end there is an instant for. -/
def WindowsFit (instantEnd : Instant) (n : UInt32) (heal : Option Duration)
    (evidence : List Evidence) : Prop :=
  ∀ before r after, evidence = before ++ .refused r :: after →
    n.toNat ≤ (standing before).length + 1 →
      ∀ wait, heal = some wait → r.now + wait < instantEnd

theorem overruns_under (hn : n ≠ 0) {field : FieldName} {evidence : List Evidence}
    (h : UnderAll n heal evidence) :
    Overruns instantEnd (fun _ => []) (evidence.map fun e => (field, e)) ↔
      ¬ WindowsFit instantEnd n heal evidence := by
  have hagainst : ∀ before : List Evidence,
      (before.map fun e => (field, e)).foldl tally (fun _ => []) field = standing before := by
    intro before
    rw [foldl_tally, evidenceOf_map]
    rfl
  rw [overruns_iff]
  unfold WindowsFit
  simp only [not_forall, exists_prop, Nat.not_lt]
  constructor
  · rintro ⟨before, event, after, hsplit, r, hrefused, -, hreached, wait, hheal, hlate⟩
    obtain ⟨before, rest, rfl, rfl, hrest⟩ := List.map_eq_append_iff.mp hsplit
    obtain ⟨e, after, rfl, rfl, rfl⟩ := List.map_eq_cons_iff.mp hrest
    obtain rfl : e = .refused r := hrefused
    obtain ⟨hthreshold, hwindow⟩ :=
      h r (List.mem_append_right _ List.mem_cons_self)
    refine ⟨before, r, after, rfl, ?_, wait, hwindow ▸ hheal, hlate⟩
    rw [← hthreshold, ← hagainst before]
    exact hreached
  · rintro ⟨before, r, after, rfl, hreached, wait, hheal, hlate⟩
    obtain ⟨hthreshold, hwindow⟩ :=
      h r (List.mem_append_right _ List.mem_cons_self)
    refine ⟨before.map fun e => (field, e), (field, .refused r), after.map fun e => (field, e),
      ?_, r, rfl, hthreshold ▸ hn, ?_, wait, hwindow.trans hheal, hlate⟩
    · rw [List.map_append, List.map_cons]
    · rw [hagainst before, hthreshold]
      exact hreached

/--
**A field is vetoed as long as its refusals say, and reported once, exactly if every window that
is opened ends at an instant.** Otherwise arming the veto panics.
-/
theorem characterized_iff (hn : n ≠ 0) (field : FieldName) {evidence : List Evidence}
    (h : UnderAll n heal evidence) :
    Characterized instantEnd field n heal evidence ↔ WindowsFit instantEnd n heal evidence := by
  rcases @tellAll_records instantEnd _ _ records_new
    (evidence.map fun e => (field, e)) with
    ⟨hover, hnone⟩ | ⟨hfits, learned, reports, hsome, hrecords, hreports⟩
  · refine ⟨?_, fun hwindows => absurd hwindows ((overruns_under hn h).mp hover)⟩
    rintro ⟨learned, reports, hsome, -⟩
    rw [hnone] at hsome
    cases hsome
  · refine ⟨fun _ => not_not.mp (mt (overruns_under hn h).mpr hfits), fun _ => ?_⟩
    have hunder := under_standing hn h
    have hrecord : learned.fields field = recordOf (standing evidence) := by
      rw [hrecords field, foldl_tally, evidenceOf_map]
      rfl
    refine ⟨learned, reports, hsome, fun t => ?_, fun t => ?_, ?_⟩
    · rw [veto_of_record hrecord t, arming_under hunder, Nat.zero_add]
      by_cases hreached : n.toNat ≤ (standing evidence).length
      · have hpos : 0 < n.toNat := threshold_pos hn
        have hne : standing evidence ≠ [] := List.ne_nil_of_length_pos (by omega)
        have hlast := List.getLast?_eq_some_getLast hne
        generalize (standing evidence).getLast hne = last at hlast
        have hheal := (hunder last (List.mem_of_getLast? hlast)).2
        rw [if_pos hreached, hlast, Option.bind_some, vetoAt_isSome, hheal]
        simp only [hreached, true_and, Option.some.injEq, exists_eq_left']
      · simp [hreached]
    · have hcleared : (learned.answered field).1.fields field = recordOf [] :=
        Function.update_self ..
      exact veto_of_record hcleared t
    · intro before refusals after hsplit hbefore
      have hrefusals : Under n heal refusals := by
        intro r hr
        refine h r ?_
        rw [hsplit, List.mem_append, List.mem_append]
        exact .inl (.inr (List.mem_map_of_mem hr))
      have hagainst : (before.map fun e => (field, e)).foldl tally (fun _ => []) field = [] := by
        rw [foldl_tally, evidenceOf_map]
        exact standing_nil hbefore
      have hnone : Under n heal
          ((before.map fun e => (field, e)).foldl tally (fun _ => []) field) := by
        rw [hagainst]
        exact fun r hr => nomatch hr
      have hcount := countP_disabling hn hrefusals hnone
      rw [hagainst, List.length_nil, Nat.zero_add] at hcount
      rw [hsplit, List.map_append, List.map_append, disabling_append, disabling_append,
        List.map_map] at hreports
      have hslice : ((reports.drop before.length).take refusals.length).map isDisabled =
          disabling ((before.map fun e => (field, e)).foldl tally fun _ => [])
            (refusals.map fun r => (field, .refused r)) := by
        rw [List.map_take, List.map_drop, hreports, List.append_assoc,
          List.drop_left' (by rw [length_disabling, List.length_map]),
          List.take_left' (by rw [length_disabling, List.length_map])]
        rfl
      have hid : ((reports.drop before.length).take refusals.length).countP isDisabled =
          (((reports.drop before.length).take refusals.length).map isDisabled).countP id := by
        rw [List.countP_map]
        rfl
      have hpos : 0 < n.toNat := threshold_pos hn
      rw [hid, hslice, hcount]
      simp only [hpos, true_and]

/-- Refusals of a field at these times, all under this threshold and this window. -/
def refusedAt (n : UInt32) (heal : Option Duration) (times : List Instant) : List Evidence :=
  times.map fun t => .refused ⟨n, heal, t⟩

theorem underAll_refusedAt (times : List Instant) : UnderAll n heal (refusedAt n heal times) := by
  intro r hr
  obtain ⟨t, -, heq⟩ := List.mem_map.mp hr
  obtain rfl := Evidence.refused.inj heq
  exact ⟨rfl, rfl⟩

/-- Two refusals under a threshold of two, with 600 nanoseconds to the next attempt. -/
theorem characterized_twice :
    Characterized clockEnd "FIRMWARE" 2 (some 600) (refusedAt 2 (some 600) [0, 1]) := by
  refine (characterized_iff (by decide) "FIRMWARE" (underAll_refusedAt _)).mpr ?_
  intro before r after hsplit _ wait hwait
  obtain rfl := Option.some.inj hwait
  have hmem : .refused r ∈ refusedAt 2 (some 600) [0, 1] :=
    hsplit ▸ List.mem_append_right _ List.mem_cons_self
  obtain ⟨t, ht, heq⟩ := List.mem_map.mp hmem
  obtain rfl := Evidence.refused.inj heq
  have hle : ∀ t ∈ [0, 1], t + 600 < clockEnd := by decide
  exact hle t ht

/-- A field that is to be tried again after as many seconds as can be written panics. -/
theorem not_characterized_forever :
    ¬ Characterized clockEnd "FIRMWARE" 1 (some (fromSecs (UInt64.ofNat (2 ^ 64 - 1))))
      (refusedAt 1 (some (fromSecs (UInt64.ofNat (2 ^ 64 - 1)))) [0]) := by
  rintro ⟨learned, reports, hsome, -⟩
  have hnone : (AutoDisabled.new.tellAll clockEnd ((refusedAt 1
      (some (fromSecs (UInt64.ofNat (2 ^ 64 - 1)))) [0]).map fun e => ("FIRMWARE", e))).isNone := by
    decide +kernel
  rw [hsome] at hnone
  cases hnone

end Policy

end Sismatic.Devices
