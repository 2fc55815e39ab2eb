import Sismatic.Lib.Run
import Sismatic.Proof.Vetoes
import Sismatic.Sync.PollLoop

/-!
# What the poll loops of a device do

Whatever the order of their steps, the loops of a device do not mix each other up: what one
believes and reports follows from its own outcomes alone, every answer is stored and none is
lost to a loop that stops, and a field that keeps refusing is asked for less and less, or not at
all any more.
-/

namespace Sismatic.Sync

open Devices

/-! ## Health -/

/-- What a loop comes to believe, and what it reports on the way. -/
def watch : Health → List Contact → Health × List Report
  | health, [] => (health, [])
  | health, contact :: contacts =>
      let (next, report) := step health contact
      let (last, reports) := watch next contacts
      (last, report :: reports)

/-- We tried, or would have, and could not. -/
def Contact.Lost (contact : Contact) : Prop := contact = .failed ∨ contact = .gated

/-- The device said nothing about whether it can be reached. -/
def Contact.Mute (contact : Contact) : Prop := contact = .refused ∨ contact = .vetoed

theorem watch_append (health : Health) (contacts more : List Contact) :
    watch health (contacts ++ more) =
      ((watch (watch health contacts).1 more).1,
        (watch health contacts).2 ++ (watch (watch health contacts).1 more).2) := by
  induction contacts generalizing health with
  | nil => rfl
  | cons contact contacts ih =>
      rw [List.cons_append, watch, watch]
      dsimp only
      rw [ih]
      rfl

theorem step_mute {contact : Contact} (h : contact.Mute) (health : Health) :
    (step health contact).1 = health := by
  rcases h with rfl | rfl
  · cases health <;> rfl
  · cases health <;> rfl

theorem step_not_mute {contact : Contact} (h : ¬ contact.Mute) (health : Health) :
    (step health contact).1 = .down ↔ contact.Lost := by
  unfold Contact.Mute at h
  unfold Contact.Lost
  cases contact with
  | reached => cases health <;> simp [step]
  | failed => cases health <;> simp [step]
  | gated => cases health <;> simp [step]
  | refused => exact absurd (.inl rfl) h
  | vetoed => exact absurd (.inr rfl) h

/-- A loop is down when the last it heard of its device's reachability was bad. -/
theorem watch_down_iff (contacts : List Contact) : (watch .up contacts).1 = .down ↔
    ∃ before contact after, contacts = before ++ contact :: after ∧ contact.Lost ∧
      ∀ later ∈ after, later.Mute := by
  induction contacts using List.reverseRecOn with
  | nil =>
      refine ⟨fun h => (by cases h), ?_⟩
      intro h
      obtain ⟨before, contact, after, hnil, -⟩ := h
      exact absurd hnil.symm (by simp)
  | append_singleton contacts contact ih =>
      have hlast : (watch .up (contacts ++ [contact])).1 =
          (step (watch .up contacts).1 contact).1 := by
        rw [watch_append]
        rfl
      rw [hlast]
      by_cases hmute : contact.Mute
      · rw [step_mute hmute, ih]
        refine ⟨?_, ?_⟩
        · intro h
          obtain ⟨before, lost, after, rfl, hlost, hafter⟩ := h
          refine ⟨before, lost, after ++ [contact], by simp, hlost, ?_⟩
          intro later hmem
          rcases List.mem_append.mp hmem with hmem | hmem
          · exact hafter later hmem
          · rw [List.mem_singleton.mp hmem]
            exact hmute
        · intro h
          obtain ⟨before, lost, after, heq, hlost, hafter⟩ := h
          rcases List.eq_nil_or_concat after with rfl | ⟨after, last, rfl⟩
          · obtain ⟨-, hsame⟩ := List.append_inj' heq rfl
            obtain rfl := (List.cons.inj hsame).1
            rcases hlost with rfl | rfl
            · rcases hmute with h | h <;> cases h
            · rcases hmute with h | h <;> cases h
          · rw [List.concat_eq_append, ← List.cons_append, ← List.append_assoc] at heq
            obtain ⟨hrest, -⟩ := List.append_inj' heq rfl
            refine ⟨before, lost, after, hrest, hlost, fun later hmem => hafter later ?_⟩
            rw [List.concat_eq_append]
            exact List.mem_append_left _ hmem
      · rw [step_not_mute hmute]
        refine ⟨fun hlost => ⟨contacts, contact, [], rfl, hlost, fun _ h => (by cases h)⟩, ?_⟩
        intro h
        obtain ⟨before, lost, after, heq, hlost, hafter⟩ := h
        rcases List.eq_nil_or_concat after with rfl | ⟨after, last, rfl⟩
        · obtain ⟨-, hsame⟩ := List.append_inj' heq rfl
          rw [(List.cons.inj hsame).1]
          exact hlost
        · rw [List.concat_eq_append, ← List.cons_append, ← List.append_assoc] at heq
          obtain ⟨-, hsame⟩ := List.append_inj' heq rfl
          refine absurd ?_ hmute
          rw [(List.cons.inj hsame).1]
          refine hafter last ?_
          rw [List.concat_eq_append]
          exact List.mem_append_right _ (List.mem_singleton.mpr rfl)

/-- Wherever a report stands, the loop went on from what it then believed. -/
theorem watch_split {health : Health} {contacts : List Contact} {before after : List Report}
    {report : Report} (h : (watch health contacts).2 = before ++ report :: after) :
    ∃ now contact rest, (step now contact).2 = report ∧
      after = (watch (step now contact).1 rest).2 := by
  induction contacts generalizing health before with
  | nil => exact absurd h.symm (by simp [watch])
  | cons contact contacts ih =>
      rw [watch] at h
      dsimp only at h
      cases before with
      | nil =>
          obtain ⟨hreport, hafter⟩ := List.cons.inj h
          exact ⟨health, contact, contacts, hreport, hafter.symm⟩
      | cons first before => exact ih (List.cons.inj h).2

/-- A loop that is down does not report an onset before it has reported a recovery. -/
theorem recovery_before_onset {contacts : List Contact} {before after : List Report}
    (h : (watch .down contacts).2 = before ++ .onset :: after) : .recovery ∈ before := by
  induction contacts generalizing before with
  | nil => exact absurd h.symm (by simp [watch])
  | cons contact contacts ih =>
      rw [watch] at h
      dsimp only at h
      cases before with
      | nil =>
          have hreport := (List.cons.inj h).1
          cases contact <;> cases hreport
      | cons first before =>
          obtain ⟨hreport, hrest⟩ := List.cons.inj h
          cases contact with
          | reached => exact hreport ▸ List.mem_cons_self
          | refused => exact List.mem_cons_of_mem _ (ih hrest)
          | failed => exact List.mem_cons_of_mem _ (ih hrest)
          | gated => exact List.mem_cons_of_mem _ (ih hrest)
          | vetoed => exact List.mem_cons_of_mem _ (ih hrest)

/-- A loop that is up does not report a recovery before it has reported that it went down. -/
theorem down_before_recovery {contacts : List Contact} {before after : List Report}
    (h : (watch .up contacts).2 = before ++ .recovery :: after) :
    .onset ∈ before ∨ .ongoing ∈ before := by
  induction contacts generalizing before with
  | nil => exact absurd h.symm (by simp [watch])
  | cons contact contacts ih =>
      rw [watch] at h
      dsimp only at h
      cases before with
      | nil =>
          have hreport := (List.cons.inj h).1
          cases contact <;> cases hreport
      | cons first before =>
          obtain ⟨hreport, hrest⟩ := List.cons.inj h
          cases contact with
          | reached =>
              exact (ih hrest).imp (List.mem_cons_of_mem _) (List.mem_cons_of_mem _)
          | refused =>
              exact (ih hrest).imp (List.mem_cons_of_mem _) (List.mem_cons_of_mem _)
          | failed => exact .inl (hreport ▸ List.mem_cons_self)
          | gated => exact .inr (hreport ▸ List.mem_cons_self)
          | vetoed =>
              exact (ih hrest).imp (List.mem_cons_of_mem _) (List.mem_cons_of_mem _)

/-- Onsets are parted by recoveries, and recoveries by what they recover from. -/
structure Alternates (reports : List Report) : Prop where
  recovered : ∀ before between after,
    reports = before ++ .onset :: (between ++ .onset :: after) → .recovery ∈ between
  down : ∀ before between after,
    reports = before ++ .recovery :: (between ++ .recovery :: after) →
      .onset ∈ between ∨ .ongoing ∈ between
  first : ∀ before after, reports = before ++ .recovery :: after →
    .onset ∈ before ∨ .ongoing ∈ before

theorem watch_alternates (contacts : List Contact) : Alternates (watch .up contacts).2 := by
  refine ⟨?_, ?_, fun before after h => down_before_recovery h⟩
  · intro before between after h
    obtain ⟨now, contact, rest, hreport, hafter⟩ := watch_split h
    have hdown : (step now contact).1 = .down := by
      cases now <;> cases contact <;> first | rfl | cases hreport
    rw [hdown] at hafter
    exact recovery_before_onset hafter.symm
  · intro before between after h
    obtain ⟨now, contact, rest, hreport, hafter⟩ := watch_split h
    have hup : (step now contact).1 = .up := by
      cases now <;> cases contact <;> first | rfl | cases hreport
    rw [hup] at hafter
    exact down_before_recovery hafter.symm

/-! ## One step -/

section Step

variable {instantEnd : Instant} {polled : Polled} {w : Polling}

/-- A state that has taken an outcome into account, with the record and the phase this leaves. -/
def Polling.taken (polled : Polled) (w : Polling) (heard : Heard) (learned : Option AutoDisabled)
    (phase : LoopPhase) : Polling where
  learned := learned
  loops := Function.update w.loops heard.field
    ⟨phase, (step (w.loops heard.field).health (.of heard.outcome)).1⟩
  asked := w.asked
  heard := w.heard ++ [heard]
  reports := w.reports ++
    [(heard.field, (step (w.loops heard.field).health (.of heard.outcome)).2)]
  calls := w.calls ++ callsOf polled heard
  clock := w.clock

/-- A field that has just answered is not vetoed. -/
theorem veto_answered (learned : AutoDisabled) (field : FieldName) (now : Instant) :
    (learned.answered field).1.veto field now = none := by
  have hcleared : (learned.answered field).1.fields field = recordOf [] :=
    Function.update_self ..
  exact veto_of_record hcleared now

/-- A loop that stops, or panics where it would, was not answered. -/
theorem callsOf_of_stops {heard : Heard} {learned told : Option AutoDisabled}
    (htell : Polling.tell instantEnd polled learned heard.field heard.now heard.outcome = some told)
    (hstops : Polling.stops polled told heard.field heard.now ≠ some false) :
    Polling.callsOf polled heard = [] := by
  cases houtcome : heard.outcome with
  | error e => rw [Polling.callsOf, houtcome]
  | ok value =>
      unfold Polling.tell at htell
      rw [houtcome] at htell
      obtain ⟨before, -, rfl⟩ := Option.map_eq_some_iff.mp htell
      refine absurd ?_ hstops
      unfold Polling.stops
      split
      · rfl
      · rw [Option.map_some, veto_answered]
        rfl

/-- **What the return of an exchange does**: nothing to a loop that does not wait for it; a panic
over the record; or it is taken into account, and the loop goes on unless its field is vetoed for
good. -/
theorem returned_cases (w : Polling) (heard : Heard) :
    ((w.loops heard.field).phase ≠ .asking ∧ w.returned instantEnd polled heard = w) ∨
      ((w.loops heard.field).phase = .asking ∧
        Polling.tell instantEnd polled w.learned heard.field heard.now heard.outcome = none ∧
        w.returned instantEnd polled heard = w.panicked heard.field) ∨
      ((w.loops heard.field).phase = .asking ∧ ∃ told learned phase,
        Polling.tell instantEnd polled w.learned heard.field heard.now heard.outcome = some told ∧
        w.returned instantEnd polled heard = w.taken polled heard learned phase ∧
        (Polling.stops polled told heard.field heard.now = none ∧ learned = none ∧
            phase = .ended ∨
          Polling.stops polled told heard.field heard.now = some true ∧ learned = told ∧
            phase = .ended ∨
          Polling.stops polled told heard.field heard.now = some false ∧ learned = told ∧
            phase = .waiting)) := by
  by_cases hasking : (w.loops heard.field).phase = .asking
  · refine .inr ?_
    cases htell : Polling.tell instantEnd polled w.learned heard.field heard.now
      heard.outcome with
    | none =>
        refine .inl ⟨hasking, rfl, ?_⟩
        simp only [Polling.returned, if_pos hasking, htell]
    | some told =>
        refine .inr ⟨hasking, told, ?_⟩
        cases hstops : Polling.stops polled told heard.field heard.now with
        | none =>
            refine ⟨none, .ended, rfl, ?_, .inl ⟨rfl, rfl, rfl⟩⟩
            have hcalls := callsOf_of_stops htell (by rw [hstops]; simp)
            simp only [Polling.returned, if_pos hasking, htell, hstops, Polling.panicked,
              Polling.setPhase, Polling.setLoop, Polling.taken, hcalls, List.append_nil,
              Function.update_self, Function.update_idem]
        | some stopped =>
            cases stopped with
            | true =>
                refine ⟨told, .ended, rfl, ?_, .inr (.inl ⟨rfl, rfl, rfl⟩)⟩
                have hcalls := callsOf_of_stops htell (by rw [hstops]; simp)
                simp only [Polling.returned, if_pos hasking, htell, hstops, Polling.setLoop,
                  Polling.taken, hcalls, List.append_nil]
            | false =>
                refine ⟨told, .waiting, rfl, ?_, .inr (.inr ⟨rfl, rfl, rfl⟩)⟩
                simp only [Polling.returned, if_pos hasking, htell, hstops, Polling.setLoop,
                  Polling.taken]
  · refine .inl ⟨hasking, ?_⟩
    rw [Polling.returned, if_neg hasking]

/-- **What a tick does**: nothing, to a loop at work or over a vetoed field; a panic over the
record; or it begins an exchange. -/
theorem tick_cases (w : Polling) (field : FieldName) (now : Instant) :
    w.tick field now = w ∨
      ((w.loops field).phase = .waiting ∧ w.learned = none ∧
        w.tick field now = w.panicked field) ∨
      ((w.loops field).phase = .waiting ∧ ∃ learned, w.learned = some learned ∧
        learned.veto field now = none ∧
        w.tick field now =
          { w.setPhase field .asking with asked := w.asked ++ [(field, now)] }) := by
  unfold Polling.tick
  cases hphase : (w.loops field).phase with
  | waiting =>
      cases hlearned : w.learned with
      | none => exact .inr (.inl ⟨rfl, rfl, rfl⟩)
      | some learned =>
          dsimp only
          cases hveto : learned.veto field now with
          | some retryIn => exact .inl rfl
          | none => exact .inr (.inr ⟨rfl, learned, rfl, hveto, rfl⟩)
  | asking => exact .inl rfl
  | ended => exact .inl rfl

end Step

/-- The loops of a device, started at `now`, after these steps in this order. -/
def ran (instantEnd : Instant) (polled : Polled) (now : Instant) (polls : List Poll) : Polling :=
  Machine.exec (Polling.poll instantEnd polled) (.start now) polls

/-! ## What is believed, reported and stored -/

/-- What a field's outcomes come to for its health, in the order they were taken into account. -/
def contactsOf (field : FieldName) (heard : List Heard) : List Contact :=
  (heard.filter (·.field = field)).map fun heard => .of heard.outcome

/-- What one loop has reported. -/
def reportsOf (field : FieldName) (reports : List (FieldName × Report)) : List Report :=
  (reports.filter (·.1 = field)).map (·.2)

/-- The outcome of an exchange, where it is one a loop waits for. -/
def due (w : Polling) : Poll → List Heard
  | .returned field now stamp outcome =>
      if (w.loops field).phase = .asking then [⟨field, now, stamp, outcome⟩] else []
  | .tick _ _ => []
  | .canceled _ _ => []

/-- How many exchanges of a loop are under way. -/
def underWay (w : Polling) (field : FieldName) : Nat :=
  if (w.loops field).phase = .asking then 1 else 0

/-- What every step of every loop keeps. -/
structure Faithful (polled : Polled) (w : Polling) : Prop where
  /-- Each loop has gone through its own outcomes, and through nothing else. -/
  health : ∀ field, ((w.loops field).health, reportsOf field w.reports) =
    watch .up (contactsOf field w.heard)
  /-- What is stored is what was answered. -/
  calls : w.calls = w.heard.flatMap (Polling.callsOf polled)
  /-- An exchange begun is under way, or was taken into account. -/
  exchanges : w.learned ≠ none → ∀ field, (w.asked.filter (·.1 = field)).length =
    (w.heard.filter (·.field = field)).length + underWay w field

section Run

variable {instantEnd : Instant} {polled : Polled} {w : Polling}

theorem setPhase_health (w : Polling) (field other : FieldName) (phase : LoopPhase) :
    ((w.setPhase field phase).loops other).health = (w.loops other).health := by
  unfold Polling.setPhase Polling.setLoop
  dsimp only
  by_cases heq : other = field
  · subst heq
    rw [Function.update_self]
  · rw [Function.update_of_ne heq]

theorem setPhase_self (w : Polling) (field : FieldName) (phase : LoopPhase) :
    ((w.setPhase field phase).loops field).phase = phase := by
  unfold Polling.setPhase Polling.setLoop
  dsimp only
  rw [Function.update_self]

theorem setPhase_of_ne {field other : FieldName} (h : other ≠ field) (w : Polling)
    (phase : LoopPhase) : (w.setPhase field phase).loops other = w.loops other :=
  Function.update_of_ne h ..

theorem taken_self (w : Polling) (heard : Heard) (learned : Option AutoDisabled)
    (phase : LoopPhase) : (w.taken polled heard learned phase).loops heard.field =
      ⟨phase, (step (w.loops heard.field).health (.of heard.outcome)).1⟩ :=
  Function.update_self ..

theorem taken_of_ne {heard : Heard} {field : FieldName} (h : field ≠ heard.field) (w : Polling)
    (learned : Option AutoDisabled) (phase : LoopPhase) :
    (w.taken polled heard learned phase).loops field = w.loops field :=
  Function.update_of_ne h ..

theorem underWay_asking {field : FieldName} (h : (w.loops field).phase = .asking) :
    underWay w field = 1 := if_pos h

theorem underWay_idle {field : FieldName} (h : (w.loops field).phase ≠ .asking) :
    underWay w field = 0 := if_neg h

theorem underWay_congr {w' : Polling} {field : FieldName}
    (h : w'.loops field = w.loops field) : underWay w' field = underWay w field := by
  unfold underWay
  rw [h]

theorem start_idle (now : Instant) (field : FieldName) :
    ((Polling.start now).loops field).phase ≠ .asking := by
  unfold Polling.start
  dsimp only
  split
  · simp
  · simp

theorem faithful_start (now : Instant) : Faithful polled (.start now) := by
  refine ⟨fun _ => rfl, rfl, fun _ field => ?_⟩
  rw [underWay_idle (start_idle now field)]
  rfl

theorem faithful_panicked (h : Faithful polled w) (field : FieldName) :
    Faithful polled (w.panicked field) := by
  refine ⟨fun other => ?_, h.calls, fun hsome => absurd rfl hsome⟩
  refine Eq.trans ?_ (h.health other)
  exact congrArg (·, _) (setPhase_health w field other .ended)

theorem watch_last (contacts : List Contact) (contact : Contact) :
    watch .up (contacts ++ [contact]) = ((step (watch .up contacts).1 contact).1,
      (watch .up contacts).2 ++ [(step (watch .up contacts).1 contact).2]) := by
  rw [watch_append]
  rfl

theorem contactsOf_concat (field : FieldName) (before : List Heard) (heard : Heard) :
    contactsOf field (before ++ [heard]) =
      contactsOf field before ++ if heard.field = field then [.of heard.outcome] else [] := by
  unfold contactsOf
  rw [List.filter_append, List.map_append]
  by_cases heq : heard.field = field
  · rw [if_pos heq, List.filter_cons_of_pos (by simpa using heq)]
    rfl
  · rw [if_neg heq, List.filter_cons_of_neg (by simpa using heq)]
    rfl

theorem reportsOf_concat (field : FieldName) (before : List (FieldName × Report))
    (report : FieldName × Report) : reportsOf field (before ++ [report]) =
      reportsOf field before ++ if report.1 = field then [report.2] else [] := by
  unfold reportsOf
  rw [List.filter_append, List.map_append]
  by_cases heq : report.1 = field
  · rw [if_pos heq, List.filter_cons_of_pos (by simpa using heq)]
    rfl
  · rw [if_neg heq, List.filter_cons_of_neg (by simpa using heq)]
    rfl

/-- One more of a field's own makes the field's count one larger. -/
theorem length_filter_concat {α : Type} (own : α → FieldName) (xs : List α) (x : α)
    (field : FieldName) : ((xs ++ [x]).filter (own · = field)).length =
      (xs.filter (own · = field)).length + if own x = field then 1 else 0 := by
  rw [List.filter_append, List.length_append]
  by_cases heq : own x = field
  · rw [if_pos heq, List.filter_cons_of_pos (by simpa using heq)]
    rfl
  · rw [if_neg heq, List.filter_cons_of_neg (by simpa using heq)]
    rfl

theorem faithful_taken (h : Faithful polled w) {heard : Heard}
    (hasking : (w.loops heard.field).phase = .asking) {learned : Option AutoDisabled}
    {phase : LoopPhase} (hphase : phase ≠ .asking) (hlearned : learned ≠ none → w.learned ≠ none) :
    Faithful polled (w.taken polled heard learned phase) := by
  refine ⟨fun field => ?_, ?_, fun hsome field => ?_⟩
  · have hbefore := h.health field
    have hheard : (w.taken polled heard learned phase).heard = w.heard ++ [heard] := rfl
    have hreports : (w.taken polled heard learned phase).reports = w.reports ++
      [(heard.field, (step (w.loops heard.field).health (.of heard.outcome)).2)] := rfl
    rw [hheard, hreports, contactsOf_concat, reportsOf_concat]
    by_cases heq : heard.field = field
    · subst heq
      rw [if_pos rfl, if_pos rfl, watch_last, ← hbefore, taken_self]
    · rw [if_neg heq, if_neg heq, List.append_nil, List.append_nil, ← hbefore,
        taken_of_ne (Ne.symm heq)]
  · have hcalls : (w.taken polled heard learned phase).calls =
      w.calls ++ Polling.callsOf polled heard := rfl
    rw [hcalls, h.calls]
    unfold Polling.taken
    rw [List.flatMap_append, List.flatMap_singleton]
  · have hcount := h.exchanges (hlearned hsome) field
    have hheard : (w.taken polled heard learned phase).heard = w.heard ++ [heard] := rfl
    rw [hheard, length_filter_concat]
    refine Eq.trans hcount ?_
    by_cases heq : heard.field = field
    · subst heq
      have hidle := @taken_self polled w heard learned phase
      rw [underWay_asking hasking, if_pos rfl, underWay_idle (by rw [hidle]; exact hphase)]
    · rw [if_neg heq, underWay_congr (taken_of_ne (Ne.symm heq) w learned phase), Nat.add_zero]

/-- Only a record that was there is left by a poll. -/
theorem learned_of_tell {learned told : Option AutoDisabled} {field : FieldName} {now : Instant}
    {outcome : Except DeviceError Value}
    (htell : Polling.tell instantEnd polled learned field now outcome = some told)
    (htold : told ≠ none) : learned ≠ none := by
  intro hnone
  subst hnone
  refine htold ?_
  unfold Polling.tell at htell
  cases outcome with
  | ok value => cases htell
  | error e =>
      dsimp only at htell
      split at htell
      · split at htell
        · exact (Option.some.inj htell).symm
        · cases htell
      · exact (Option.some.inj htell).symm

theorem faithful_poll (h : Faithful polled w) (p : Poll) :
    Faithful polled (w.poll instantEnd polled p) := by
  have hclock : Faithful polled { w with clock := p.now } := ⟨h.health, h.calls, h.exchanges⟩
  unfold Polling.poll
  dsimp only
  generalize ({ w with clock := p.now } : Polling) = w at hclock ⊢
  cases p with
  | tick field now =>
      rcases tick_cases w field now with hsame | ⟨-, -, hpanic⟩ | ⟨hwaiting, -, -, -, hask⟩
      · dsimp only
        rw [hsame]
        exact hclock
      · dsimp only
        rw [hpanic]
        exact faithful_panicked hclock field
      · dsimp only
        rw [hask]
        refine ⟨fun other => ?_, hclock.calls, fun hsome other => ?_⟩
        · refine Eq.trans ?_ (hclock.health other)
          exact congrArg (·, _) (setPhase_health w field other .asking)
        · have hcount := hclock.exchanges hsome other
          dsimp only
          rw [length_filter_concat, hcount]
          by_cases heq : other = field
          · subst heq
            have hbegun : underWay (w.setPhase other .asking) other = 1 :=
              underWay_asking (setPhase_self w other .asking)
            rw [if_pos rfl, underWay_idle (by rw [hwaiting]; simp)]
            exact congrArg (_ + ·) hbegun.symm
          · rw [if_neg (Ne.symm heq), Nat.add_zero]
            exact congrArg (_ + ·) (underWay_congr (setPhase_of_ne heq w .asking)).symm
  | returned field now stamp outcome =>
      dsimp only
      generalize (⟨field, now, stamp, outcome⟩ : Heard) = heard
      rcases @returned_cases instantEnd polled w heard with ⟨-, hsame⟩ | ⟨-, -, hpanic⟩ |
        ⟨hasking, told, learned, phase, htell, htaken, hstops⟩
      · rw [hsame]
        exact hclock
      · rw [hpanic]
        exact faithful_panicked hclock heard.field
      · rw [htaken]
        rcases hstops with ⟨-, rfl, rfl⟩ | ⟨-, rfl, rfl⟩ | ⟨-, rfl, rfl⟩
        · exact faithful_taken hclock hasking (by simp) fun hsome => absurd rfl hsome
        · exact faithful_taken hclock hasking (by simp) (learned_of_tell htell)
        · exact faithful_taken hclock hasking (by simp) (learned_of_tell htell)
  | canceled field now =>
      dsimp only
      unfold Polling.canceled
      split
      · rename_i hwaiting
        refine ⟨fun other => ?_, hclock.calls, fun hsome other => ?_⟩
        · refine Eq.trans ?_ (hclock.health other)
          exact congrArg (·, _) (setPhase_health w field other .ended)
        · refine (hclock.exchanges hsome other).trans (congrArg (_ + ·) ?_)
          by_cases heq : other = field
          · subst heq
            rw [underWay_idle (by rw [hwaiting]; simp),
              underWay_idle (by rw [setPhase_self]; simp)]
          · exact (underWay_congr (setPhase_of_ne heq w .ended)).symm
      · exact hclock

theorem faithful_ran (instantEnd : Instant) (polled : Polled) (now : Instant) (polls : List Poll) :
    Faithful polled (ran instantEnd polled now polls) :=
  @Machine.exec_invariant _ _ (Polling.poll instantEnd polled) (fun _ _ => True)
    (Faithful polled) (fun _ p h _ => faithful_poll h p) _ polls
    (Machine.along_of_mem fun _ _ => trivial) (faithful_start now)

theorem tick_heard (w : Polling) (field : FieldName) (now : Instant) :
    (w.tick field now).heard = w.heard ∧
      ((w.tick field now).learned ≠ none → w.learned ≠ none) := by
  rcases tick_cases w field now with hsame | ⟨-, -, hpanic⟩ | ⟨-, -, -, -, hask⟩
  · rw [hsame]
    exact ⟨rfl, id⟩
  · rw [hpanic]
    exact ⟨rfl, fun hsome => absurd rfl hsome⟩
  · rw [hask]
    exact ⟨rfl, id⟩

end Run

/--
**What a loop believes and reports is its own affair.** However the loops of a device take their
steps, each is down exactly when the last its field's polls said about the device being reached
was bad, and it alternates between reporting that and reporting a recovery.
-/
theorem health_own (instantEnd : Instant) (polled : Polled) (now : Instant) (polls : List Poll)
    (field : FieldName) :
    (((ran instantEnd polled now polls).loops field).health = .down ↔
      ∃ before contact after,
        contactsOf field (ran instantEnd polled now polls).heard = before ++ contact :: after ∧
          contact.Lost ∧ ∀ later ∈ after, later.Mute) ∧
      Alternates (reportsOf field (ran instantEnd polled now polls).reports) := by
  have hown := (faithful_ran instantEnd polled now polls).health field
  obtain ⟨hhealth, hreports⟩ := Prod.mk.inj hown
  rw [hhealth, hreports]
  exact ⟨watch_down_iff _, watch_alternates _⟩

end Sismatic.Sync
