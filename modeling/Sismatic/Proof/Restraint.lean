import Sismatic.Proof.Attribution
import Sismatic.Proof.Polled

/-!
# A field that keeps refusing

A loop counts the refusals of its field and asks for it only where the device's record does not
veto it. So in every run, whatever the other loops do, from the threshold on one refusal follows
another only behind the window; and with no retry there is no further one, and the loop has ended.
That needs time to go forward: a deadline is compared with the instant of the next tick.
-/

namespace Sismatic.Sync

open Devices

/-! ## What the record comes to -/

/-- What an outcome shows of its field, where it shows anything. -/
def shown (polled : Polled) (heard : Heard) : Option (FieldName × Evidence) :=
  match heard.outcome with
  | .ok _ => some (heard.field, .answered)
  | .error e =>
      if e.isRefusal then
        some (heard.field,
          .refused ⟨polled.config.autoDisableAfter, polled.config.selfHeal, heard.now⟩)
      else none

/-- The refusals of a field since it last answered. -/
def refusalsOf (polled : Polled) (field : FieldName) (heard : List Heard) : List Devices.Refused :=
  standing (evidenceOf field (heard.filterMap (shown polled)))

/-- A loop may ask again: the window since the field's last refusal has passed. -/
def Elapsed (polled : Polled) (rs : List Devices.Refused) (now : Instant) : Prop :=
  ∃ wait last, polled.config.selfHeal = some wait ∧ rs.getLast? = some last ∧
    last.now + wait ≤ now

/-- What every step keeps of the refusals of the fields. -/
structure Restrained (polled : Polled) (w : Polling) : Prop where
  records : ∀ learned, w.learned = some learned →
    Records learned fun field => refusalsOf polled field w.heard
  /-- From the threshold on, one refusal follows another only behind the window. -/
  apart : ∀ field (i : Nat) before after, (refusalsOf polled field w.heard)[i]? = some before →
    (refusalsOf polled field w.heard)[i + 1]? = some after →
    polled.config.autoDisableAfter.toNat ≤ i + 1 → Elapsed polled [before] after.now
  asking : ∀ field, (w.loops field).phase = .asking →
    polled.config.autoDisableAfter.toNat ≤ (refusalsOf polled field w.heard).length →
    Elapsed polled (refusalsOf polled field w.heard) w.clock
  ended : polled.config.selfHeal = none → ∀ field,
    polled.config.autoDisableAfter.toNat ≤ (refusalsOf polled field w.heard).length →
    (w.loops field).phase = .ended

section Refusals

variable {instantEnd : Instant} {polled : Polled} {w : Polling}

/-- A loop tells its device's record what the outcome shows. -/
theorem tell_shown (learned : AutoDisabled) (heard : Heard) :
    Polling.tell instantEnd polled (some learned) heard.field heard.now heard.outcome =
      match shown polled heard with
      | none => some (some learned)
      | some event => (learned.tell instantEnd event.1 event.2).map fun told => some told.1 := by
  unfold Polling.tell shown
  cases heard.outcome with
  | ok value => rfl
  | error e =>
      dsimp only
      by_cases hrefusal : e.isRefusal = true
      · rw [if_pos hrefusal, if_pos hrefusal]
        dsimp only
        unfold AutoDisabled.tell AutoDisabled.refused
        by_cases hzero : polled.config.autoDisableAfter = 0
        · simp only [if_pos hzero, Option.map_some]
        · rw [if_neg hzero, Option.map_map]
          rfl
      · rw [if_neg hrefusal, if_neg hrefusal]

/-- What a poll of one field shows leaves the refusals of the others standing. -/
theorem refusalsOf_concat (polled : Polled) (before : List Heard) (heard : Heard) :
    (fun field => refusalsOf polled field (before ++ [heard])) =
      match shown polled heard with
      | none => fun field => refusalsOf polled field before
      | some event => tally (fun field => refusalsOf polled field before) event := by
  have hfold : ∀ events : List (FieldName × Evidence),
      (fun field => standing (evidenceOf field events)) = events.foldl tally fun _ => [] := by
    intro events
    funext field
    exact (foldl_tally events (fun _ => []) field).symm
  unfold refusalsOf
  rw [List.filterMap_append]
  cases hshown : shown polled heard with
  | none =>
      have hnone : [heard].filterMap (shown polled) = [] := by simp [hshown]
      rw [hnone, List.append_nil]
  | some event =>
      have hsome : [heard].filterMap (shown polled) = [event] := by simp [hshown]
      rw [hsome]
      dsimp only
      rw [hfold, hfold, List.foldl_append]
      rfl

/-- All that is counted of a device is counted under its own policy. -/
theorem under_refusals (hn : polled.config.autoDisableAfter ≠ 0) (field : FieldName)
    (heard : List Heard) : Under polled.config.autoDisableAfter polled.config.selfHeal
      (refusalsOf polled field heard) := by
  refine under_standing hn fun r hr => ?_
  obtain ⟨event, hevent, hr⟩ := List.mem_map.mp hr
  obtain ⟨outcome, -, hshown⟩ := List.mem_filterMap.mp (List.mem_filter.mp hevent).1
  unfold shown at hshown
  split at hshown
  · obtain rfl := Option.some.inj hshown
    cases hr
  · split at hshown
    · obtain rfl := Option.some.inj hshown
      obtain rfl := Evidence.refused.inj hr
      exact ⟨rfl, rfl⟩
    · cases hshown

/-- A field that has refused often enough is vetoed unless the window has passed. -/
theorem elapsed_of_veto (hn : polled.config.autoDisableAfter ≠ 0) {learned : AutoDisabled}
    {field : FieldName} {rs : List Devices.Refused} (hrecord : learned.fields field = recordOf rs)
    (hunder : Under polled.config.autoDisableAfter polled.config.selfHeal rs)
    (hreached : polled.config.autoDisableAfter.toNat ≤ rs.length) {now : Instant}
    (hveto : learned.veto field now = none) : Elapsed polled rs now := by
  have hpos := threshold_pos hn
  have hne : rs ≠ [] := List.ne_nil_of_length_pos (by omega)
  have hlast := List.getLast?_eq_some_getLast hne
  generalize rs.getLast hne = last at hlast
  rw [veto_of_record hrecord, arming_under hunder, Nat.zero_add, if_pos hreached, hlast,
    Option.bind_some] at hveto
  have hopen : ¬ (last.vetoAt now).isSome := by rw [hveto]; simp
  rw [vetoAt_isSome, (hunder last (List.mem_of_getLast? hlast)).2] at hopen
  obtain ⟨wait, hopen⟩ := not_forall.mp hopen
  obtain ⟨hheal, hlate⟩ := Classical.not_imp.mp hopen
  exact ⟨wait, last, hheal, hlast, Nat.le_of_not_lt hlate⟩

theorem Elapsed.later {rs : List Devices.Refused} {now then' : Instant} (h : Elapsed polled rs now)
    (hle : now ≤ then') : Elapsed polled rs then' := by
  obtain ⟨wait, last, hheal, hlast, hpast⟩ := h
  exact ⟨wait, last, hheal, hlast, Nat.le_trans hpast hle⟩

/-- With no retry the window never passes. -/
theorem not_elapsed (hheal : polled.config.selfHeal = none) {rs : List Devices.Refused}
    {now : Instant} : ¬ Elapsed polled rs now := by
  intro h
  obtain ⟨wait, -, hwait, -⟩ := h
  rw [hheal] at hwait
  cases hwait

/-! ## One step -/

theorem shown_field {heard : Heard} {event : FieldName × Evidence}
    (h : shown polled heard = some event) : event.1 = heard.field := by
  unfold shown at h
  split at h
  · rw [← Option.some.inj h]
  · split at h
    · rw [← Option.some.inj h]
    · cases h

theorem refusalsOf_other {heard : Heard} {field : FieldName} (h : field ≠ heard.field)
    (before : List Heard) :
    refusalsOf polled field (before ++ [heard]) = refusalsOf polled field before := by
  have hconcat := congrFun (refusalsOf_concat polled before heard) field
  rw [hconcat]
  cases hshown : shown polled heard with
  | none => rfl
  | some event => exact Function.update_of_ne (by rw [shown_field hshown]; exact h) ..

/-- A field's refusals, after an outcome of it: one more, none, or as they were. -/
theorem refusalsOf_self (hn : polled.config.autoDisableAfter ≠ 0) (heard : Heard)
    (before : List Heard) :
    (∃ r, r.now = heard.now ∧ refusalsOf polled heard.field (before ++ [heard]) =
      refusalsOf polled heard.field before ++ [r]) ∨
      refusalsOf polled heard.field (before ++ [heard]) = [] ∨
      refusalsOf polled heard.field (before ++ [heard]) = refusalsOf polled heard.field before := by
  have hconcat := congrFun (refusalsOf_concat polled before heard) heard.field
  rw [hconcat]
  unfold shown
  cases heard.outcome with
  | ok value => exact .inr (.inl (Function.update_self ..))
  | error e =>
      dsimp only
      split
      · refine .inl ⟨⟨polled.config.autoDisableAfter, polled.config.selfHeal, heard.now⟩, rfl, ?_⟩
        refine (Function.update_self ..).trans ?_
        rw [count, if_neg hn]
      · exact .inr (.inr rfl)

/-- What a loop tells its device's record keeps it the record of the refusals. -/
theorem records_tell {learned told : AutoDisabled} {heard : Heard}
    (h : Records learned fun field => refusalsOf polled field w.heard)
    (htell : Polling.tell instantEnd polled (some learned) heard.field heard.now heard.outcome =
      some (some told)) :
    Records told fun field => refusalsOf polled field (w.heard ++ [heard]) := by
  rw [refusalsOf_concat]
  rw [tell_shown] at htell
  cases hshown : shown polled heard with
  | none =>
      rw [hshown] at htell
      obtain rfl := Option.some.inj (Option.some.inj htell)
      exact h
  | some event =>
      rw [hshown] at htell
      dsimp only at htell ⊢
      rcases @tell_records instantEnd _ _ h event with
        ⟨-, hpanic⟩ | ⟨-, learned', report, htold, hrecords, -⟩
      · rw [hpanic] at htell
        cases htell
      · rw [htold] at htell
        obtain rfl := Option.some.inj (Option.some.inj htell)
        exact hrecords

theorem restrained_taken (hn : polled.config.autoDisableAfter ≠ 0) (h : Restrained polled w)
    {heard : Heard} (hnow : w.clock ≤ heard.now)
    (hasking : (w.loops heard.field).phase = .asking) {told learned : Option AutoDisabled}
    {phase : LoopPhase}
    (htell : Polling.tell instantEnd polled w.learned heard.field heard.now heard.outcome =
      some told)
    (hstops : Polling.stops polled told heard.field heard.now = none ∧ learned = none ∧
        phase = .ended ∨
      Polling.stops polled told heard.field heard.now = some true ∧ learned = told ∧
        phase = .ended ∨
      Polling.stops polled told heard.field heard.now = some false ∧ learned = told ∧
        phase = .waiting) : Restrained polled (w.taken polled heard learned phase) := by
  have hrecords : ∀ learned', told = some learned' →
      Records learned' fun field => refusalsOf polled field (w.heard ++ [heard]) := by
    intro learned' htold
    subst htold
    obtain ⟨before, hbefore⟩ := Option.ne_none_iff_exists'.mp (learned_of_tell htell (by simp))
    rw [hbefore] at htell
    exact records_tell (h.records before hbefore) htell
  have hphase : phase ≠ .asking := by
    rcases hstops with ⟨-, -, rfl⟩ | ⟨-, -, rfl⟩ | ⟨-, -, rfl⟩
    · simp
    · simp
    · simp
  refine ⟨fun learned' hlearned => ?_, fun field i before after hbefore hafter hreached => ?_,
    fun field hfield hreached => ?_, fun hheal field hreached => ?_⟩
  · rcases hstops with ⟨-, rfl, -⟩ | ⟨-, rfl, -⟩ | ⟨-, rfl, -⟩
    · cases hlearned
    · exact hrecords learned' hlearned
    · exact hrecords learned' hlearned
  · have hheard : (w.taken polled heard learned phase).heard = w.heard ++ [heard] := rfl
    rw [hheard] at hbefore hafter
    by_cases heq : field = heard.field
    · subst heq
      rcases refusalsOf_self hn heard w.heard with ⟨r, hr, hself⟩ | hself | hself
      · rw [hself] at hbefore hafter
        by_cases hlast : i + 1 < (refusalsOf polled heard.field w.heard).length
        · rw [List.getElem?_append_left (by omega)] at hbefore hafter
          exact h.apart heard.field i before after hbefore hafter hreached
        · -- the new refusal: it was asked for only behind the window of the last
          have hbound := (List.getElem?_eq_some_iff.mp hafter).1
          rw [List.length_append, List.length_singleton] at hbound
          have hi : i + 1 = (refusalsOf polled heard.field w.heard).length := by omega
          rw [List.getElem?_append_left (by omega)] at hbefore
          rw [hi, List.getElem?_concat_length] at hafter
          obtain rfl := Option.some.inj hafter
          have hasked := h.asking heard.field hasking (by omega)
          obtain ⟨wait, last, hheal, hgetLast, hpast⟩ := hasked
          have hsame : (refusalsOf polled heard.field w.heard)[i]? = some last := by
            rw [← hgetLast, List.getLast?_eq_getElem?, ← hi]
            rfl
          obtain rfl := Option.some.inj (hsame.symm.trans hbefore)
          exact ⟨wait, last, hheal, rfl, Nat.le_trans hpast (hr ▸ hnow)⟩
      · rw [hself] at hbefore
        cases hbefore
      · rw [hself] at hbefore hafter
        exact h.apart heard.field i before after hbefore hafter hreached
    · rw [refusalsOf_other heq] at hbefore hafter
      exact h.apart field i before after hbefore hafter hreached
  · have hne : field ≠ heard.field := by
      intro heq
      subst heq
      rw [taken_self] at hfield
      exact hphase hfield
    have hheard : (w.taken polled heard learned phase).heard = w.heard ++ [heard] := rfl
    rw [hheard, refusalsOf_other hne] at hreached ⊢
    rw [taken_of_ne hne] at hfield
    exact h.asking field hfield hreached
  · have hheard : (w.taken polled heard learned phase).heard = w.heard ++ [heard] := rfl
    rw [hheard] at hreached
    by_cases heq : field = heard.field
    · subst heq
      rw [taken_self]
      rcases hstops with ⟨-, -, rfl⟩ | ⟨-, -, rfl⟩ | ⟨hgoes, -, -⟩
      · rfl
      · rfl
      · -- the loop that goes on has found no veto, and without a retry that is for good
        unfold Polling.stops at hgoes
        rw [hheal] at hgoes
        obtain ⟨learned', htold, hveto⟩ := Option.map_eq_some_iff.mp hgoes
        have hopen := Option.not_isSome_iff_eq_none.mp (by rw [hveto]; simp)
        exact absurd (elapsed_of_veto hn (hrecords learned' htold heard.field)
          (under_refusals hn heard.field _) hreached hopen) (not_elapsed hheal)
    · rw [refusalsOf_other heq] at hreached
      rw [taken_of_ne heq]
      exact h.ended hheal field hreached

theorem restrained_panicked (h : Restrained polled w) (field : FieldName) :
    Restrained polled (w.panicked field) := by
  refine ⟨fun _ hlearned => (by cases hlearned), h.apart, fun other hother hreached => ?_,
    fun hheal other hreached => ?_⟩
  · by_cases heq : other = field
    · subst heq
      exact absurd ((setPhase_self w other .ended).symm.trans hother) (by simp)
    · have hsame : (w.panicked field).loops other = w.loops other :=
        setPhase_of_ne heq w .ended
      rw [hsame] at hother
      exact h.asking other hother hreached
  · by_cases heq : other = field
    · subst heq
      exact setPhase_self w other .ended
    · have hsame : (w.panicked field).loops other = w.loops other :=
        setPhase_of_ne heq w .ended
      rw [hsame]
      exact h.ended hheal other hreached

theorem restrained_tick (hn : polled.config.autoDisableAfter ≠ 0) (h : Restrained polled w)
    (field : FieldName) {now : Instant} (hnow : w.clock = now) :
    Restrained polled (w.tick field now) := by
  rcases tick_cases w field now with hsame | ⟨-, -, hpanic⟩ |
    ⟨hwaiting, learned, hlearned, hveto, hask⟩
  · rw [hsame]
    exact h
  · rw [hpanic]
    exact restrained_panicked h field
  · have hself : ((w.tick field now).loops field).phase = .asking := by
      rw [hask]
      exact setPhase_self w field .asking
    have hother : ∀ other, other ≠ field → (w.tick field now).loops other = w.loops other := by
      intro other heq
      rw [hask]
      exact setPhase_of_ne heq w .asking
    have hheard : (w.tick field now).heard = w.heard := (tick_heard w field now).1
    have hclock : (w.tick field now).clock = w.clock := by
      rw [hask]
      rfl
    have hlearned' : (w.tick field now).learned = w.learned := by
      rw [hask]
      rfl
    refine ⟨?_, ?_, fun other hasking hreached => ?_, fun hheal other hreached => ?_⟩
    · rw [hlearned', hheard]
      exact h.records
    · rw [hheard]
      exact h.apart
    · rw [hheard] at hreached ⊢
      rw [hclock]
      by_cases heq : other = field
      · subst heq
        rw [hnow]
        exact elapsed_of_veto hn (h.records learned hlearned other)
          (under_refusals hn other w.heard) hreached hveto
      · rw [hother other heq] at hasking
        exact h.asking other hasking hreached
    · rw [hheard] at hreached
      have hended := h.ended hheal other hreached
      by_cases heq : other = field
      · subst heq
        rw [hwaiting] at hended
        cases hended
      · rw [hother other heq]
        exact hended

theorem restrained_canceled (h : Restrained polled w) (field : FieldName) :
    Restrained polled (w.canceled field) := by
  unfold Polling.canceled
  split
  · refine ⟨h.records, h.apart, fun other hother hreached => ?_, fun hheal other hreached => ?_⟩
    · by_cases heq : other = field
      · subst heq
        rw [setPhase_self] at hother
        cases hother
      · rw [setPhase_of_ne heq] at hother
        exact h.asking other hother hreached
    · by_cases heq : other = field
      · subst heq
        exact setPhase_self w other .ended
      · rw [setPhase_of_ne heq]
        exact h.ended hheal other hreached
  · exact h

theorem restrained_returned (hn : polled.config.autoDisableAfter ≠ 0) (h : Restrained polled w)
    (heard : Heard) (hnow : w.clock ≤ heard.now) :
    Restrained polled (w.returned instantEnd polled heard) := by
  rcases @returned_cases instantEnd polled w heard with ⟨-, hsame⟩ | ⟨-, -, hpanic⟩ |
    ⟨hasking, told, learned, phase, htell, htaken, hstops⟩
  · rw [hsame]
    exact h
  · rw [hpanic]
    exact restrained_panicked h heard.field
  · rw [htaken]
    exact restrained_taken hn h hnow hasking htell hstops

/-- Time goes forward. -/
def OnTime (w : Polling) (p : Poll) : Prop := w.clock ≤ p.now

theorem poll_clock (w : Polling) (p : Poll) : (w.poll instantEnd polled p).clock = p.now := by
  cases p with
  | tick field now =>
      rcases tick_cases { w with clock := now } field now with hsame | ⟨-, -, hpanic⟩ |
        ⟨-, -, -, -, hask⟩
      · exact congrArg Polling.clock hsame
      · exact congrArg Polling.clock hpanic
      · exact congrArg Polling.clock hask
  | returned field now stamp outcome =>
      rcases @returned_cases instantEnd polled { w with clock := now }
        ⟨field, now, stamp, outcome⟩ with ⟨-, hsame⟩ | ⟨-, -, hpanic⟩ |
          ⟨-, _, _, _, -, htaken, -⟩
      · exact congrArg Polling.clock hsame
      · exact congrArg Polling.clock hpanic
      · exact congrArg Polling.clock htaken
  | canceled field now =>
      unfold Polling.poll Polling.canceled
      dsimp only
      split
      · rfl
      · rfl

/-- Steps at instants that do not decrease are on time. -/
theorem onTime_of_chain {polls : List Poll}
    (h : List.IsChain (· ≤ ·) (w.clock :: polls.map Poll.now)) :
    Machine.Along (Polling.poll instantEnd polled) OnTime w polls := by
  induction polls generalizing w with
  | nil => trivial
  | cons p polls ih =>
      rw [List.map_cons, List.isChain_cons_cons] at h
      refine ⟨h.1, ih ?_⟩
      rw [poll_clock]
      exact h.2

theorem restrained_poll (hn : polled.config.autoDisableAfter ≠ 0) (h : Restrained polled w)
    (p : Poll) (hnow : OnTime w p) : Restrained polled (w.poll instantEnd polled p) := by
  have hclock : Restrained polled { w with clock := p.now } :=
    ⟨h.records, h.apart, fun field hasking hreached => (h.asking field hasking hreached).later hnow,
      h.ended⟩
  cases p with
  | tick field now => exact restrained_tick hn hclock field rfl
  | returned field now stamp outcome => exact restrained_returned hn hclock _ (Nat.le_refl now)
  | canceled field now => exact restrained_canceled hclock field

theorem restrained_start (hn : polled.config.autoDisableAfter ≠ 0) (now : Instant) :
    Restrained polled (.start now) := by
  have hpos := threshold_pos hn
  have hnil : ∀ field, refusalsOf polled field (Polling.start now).heard = [] := fun _ => rfl
  refine ⟨fun learned hlearned => ?_, fun field i before after hbefore => ?_,
    fun field _ hreached => ?_, fun _ field hreached => ?_⟩
  · obtain rfl := Option.some.inj hlearned
    exact records_new
  · rw [hnil] at hbefore
    cases hbefore
  · rw [hnil, List.length_nil] at hreached
    omega
  · rw [hnil, List.length_nil] at hreached
    omega

theorem restrained_ran (hn : polled.config.autoDisableAfter ≠ 0) {now : Instant}
    {polls : List Poll}
    (htime : Machine.Along (Polling.poll instantEnd polled) OnTime (.start now) polls) :
    Restrained polled (ran instantEnd polled now polls) :=
  @Machine.exec_invariant _ _ (Polling.poll instantEnd polled) OnTime (Restrained polled)
    (fun _ p h hnow => restrained_poll hn h p hnow) _ polls htime (restrained_start hn now)

end Refusals

/-! ## The promise -/

/--
**A field that keeps refusing is asked for less and less, or not at all.** In every run in which
time goes forward, of the refusals of a field since it last answered each that follows the
threshold comes no sooner than the window after the one before it; and where there is no retry
there are no more than the threshold, and with that many the field's loop has ended.
-/
theorem refusals_restrained {instantEnd : Instant} {polled : Polled} {now : Instant}
    {polls : List Poll} (hn : polled.config.autoDisableAfter ≠ 0)
    (htime : Machine.Along (Polling.poll instantEnd polled) OnTime (.start now) polls)
    (field : FieldName) :
    (∀ (i : Nat) before after,
      (refusalsOf polled field (ran instantEnd polled now polls).heard)[i]? = some before →
      (refusalsOf polled field (ran instantEnd polled now polls).heard)[i + 1]? = some after →
      polled.config.autoDisableAfter.toNat ≤ i + 1 →
        ∃ wait, polled.config.selfHeal = some wait ∧ before.now + wait ≤ after.now) ∧
      (polled.config.selfHeal = none →
        (refusalsOf polled field (ran instantEnd polled now polls).heard).length ≤
            polled.config.autoDisableAfter.toNat ∧
          ((refusalsOf polled field (ran instantEnd polled now polls).heard).length =
              polled.config.autoDisableAfter.toNat →
            ((ran instantEnd polled now polls).loops field).phase = .ended)) := by
  have hran := restrained_ran hn htime
  generalize ran instantEnd polled now polls = w at hran ⊢
  have hpos := threshold_pos hn
  refine ⟨fun i before after hbefore hafter hreached => ?_, fun hheal => ⟨?_, fun hlength => ?_⟩⟩
  · obtain ⟨wait, last, hheal, hlast, hpast⟩ :=
      hran.apart field i before after hbefore hafter hreached
    obtain rfl : before = last := Option.some.inj hlast
    exact ⟨wait, hheal, hpast⟩
  · -- one more than the threshold would have come behind a window that never passes
    refine Nat.le_of_not_lt fun hmore => ?_
    have hthis := List.getElem?_eq_getElem
      (show polled.config.autoDisableAfter.toNat - 1 <
        (refusalsOf polled field w.heard).length by omega)
    have hnext := List.getElem?_eq_getElem
      (show polled.config.autoDisableAfter.toNat - 1 + 1 <
        (refusalsOf polled field w.heard).length by omega)
    exact not_elapsed hheal (hran.apart field _ _ _ hthis hnext (by omega))
  · exact hran.ended hheal field (by omega)

/-- The recorder refuses its firmware twice, and is asked for it twice. -/
def declining : List Poll :=
  [.tick "FIRMWARE" 0, .returned "FIRMWARE" 1 ⟨""⟩ (.error (.command (.rejected "FIRMWARE" ⟨10⟩))),
    .tick "FIRMWARE" 2, .returned "FIRMWARE" 3 ⟨""⟩ (.error (.command (.rejected "FIRMWARE" ⟨10⟩)))]

/-- With the threshold of two its loop has ended. -/
theorem refusals_restrained_declining :
    ((ran clockEnd ⟨plainRecorder, true⟩ 0 declining).loops "FIRMWARE").phase = .ended := by
  have hn : plainRecorder.autoDisableAfter ≠ 0 := by decide
  have htime : Machine.Along (Polling.poll clockEnd ⟨plainRecorder, true⟩) OnTime (.start 0)
      declining := onTime_of_chain (by decide)
  obtain ⟨-, hheal⟩ := @refusals_restrained clockEnd ⟨plainRecorder, true⟩ 0 declining hn htime
    "FIRMWARE"
  exact (hheal rfl).2 (by decide)

end Sismatic.Sync
