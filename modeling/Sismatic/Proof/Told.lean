import Sismatic.Lib.LastWord
import Sismatic.Lib.SelfKeyed
import Sismatic.Proof.Expectations
import Sismatic.StoreMemory.GroupState

/-!
# What a group was told last

The maps of expectations follow the outbox: whatever is called, what they hold for a group and a
field is what the last submission to be accepted for them since the group was last forgotten
asked for, and a listing has each field of a group once, in order.
-/

namespace Sismatic

open MemoryOutbox

/-! ## The maps and the outbox -/

namespace GroupMap

variable {told : GroupMap} {s : Submission}

theorem get_erase (told : GroupMap) (gone group : GroupId) :
    (told.erase gone)[group]? = if gone = group then none else told[group]? := by
  rw [Std.TreeMap.getElem?_erase]
  by_cases hg : gone = group
  · rw [if_pos hg, if_pos (Std.compare_eq_iff_eq.mpr hg)]
  · rw [if_neg hg, if_neg fun heq => hg (Std.compare_eq_iff_eq.mp heq)]

theorem get_expect (told : GroupMap) (s : Submission) (group : GroupId) :
    (told.expect s)[group]? =
      if s.group = some group then
        some ((told[group]?.getD ∅).insert s.expectation.field s.expectation)
      else told[group]? := by
  unfold expect
  cases hgroup : s.group with
  | none => simp
  | some asked =>
      simp only [Option.some.injEq]
      rw [Std.TreeMap.getElem?_insert]
      by_cases hg : asked = group
      · subst hg
        rw [if_pos rfl, if_pos (Std.compare_eq_iff_eq.mpr rfl)]
        rfl
      · rw [if_neg hg, if_neg fun heq => hg (Std.compare_eq_iff_eq.mp heq)]

theorem expected_expect (told : GroupMap) (s : Submission) (group : GroupId) (field : FieldName) :
    (told.expect s).expected group field =
      if s.group = some group ∧ field = s.expectation.field then some s.expectation
      else told.expected group field := by
  unfold expected
  rw [get_expect]
  by_cases hgroup : s.group = some group
  · rw [if_pos hgroup, Option.bind_some, Std.TreeMap.getElem?_insert]
    by_cases hfield : field = s.expectation.field
    · rw [if_pos (Std.compare_eq_iff_eq.mpr hfield.symm), if_pos ⟨hgroup, hfield⟩]
    · rw [if_neg fun heq => hfield (Std.compare_eq_iff_eq.mp heq).symm,
        if_neg fun h => hfield h.2]
      cases told[group]? with
      | none => rfl
      | some fields => rfl
  · rw [if_neg hgroup, if_neg fun h => hgroup h.1]

/-- Each expectation is filed under its own field. -/
def Files (told : GroupMap) : Prop :=
  ∀ (group : GroupId) fields, told[group]? = some fields →
    SelfKeyed.Files GroupExpectation.field fields

theorem files_expect (h : told.Files) (s : Submission) : (told.expect s).Files := by
  intro group fields hfields
  rw [get_expect] at hfields
  split at hfields
  · obtain rfl := Option.some.inj hfields
    cases hold : told[group]? with
    | none => exact SelfKeyed.files_insert SelfKeyed.files_empty s.expectation
    | some fields => exact SelfKeyed.files_insert (h group fields hold) s.expectation
  · exact h group fields hfields

/-- Searching the listing for a field is looking the field up. -/
theorem find_expectedAll (h : told.Files) (group : GroupId) (field : FieldName) :
    (told.expectedAll group).find? (fun e => e.field = field) = told.expected group field := by
  unfold expectedAll expected
  cases hgroup : told[group]? with
  | none => rfl
  | some fields => exact SelfKeyed.find_values (h group fields hgroup) field

theorem mem_expectedAll (h : told.Files) {group : GroupId} {e : GroupExpectation} :
    e ∈ told.expectedAll group ↔ told.expected group e.field = some e := by
  unfold expectedAll expected
  cases hgroup : told[group]? with
  | none => simp
  | some fields =>
      rw [Option.map_some, Option.getD_some, SelfKeyed.mem_values, Option.bind_some]
      constructor
      · intro hfiled
        obtain ⟨field, hfiled⟩ := hfiled
        rw [h group fields hgroup field e hfiled]
        exact hfiled
      · exact fun hfiled => ⟨e.field, hfiled⟩

theorem expectedAll_sorted (h : told.Files) (group : GroupId) :
    ((told.expectedAll group).map (·.field)).Pairwise (· < ·) := by
  unfold expectedAll
  cases hgroup : told[group]? with
  | none => exact List.Pairwise.nil
  | some fields =>
      exact (SelfKeyed.values_ordered (h group fields hgroup)).imp compareOfLessAndEq_eq_lt.mp

end GroupMap

/-- What the maps hold is what is found in the outbox. -/
structure GroupOutbox.Mirrors (w : GroupOutbox) : Prop where
  found : ∀ group field, w.told.expected group field = w.outbox.groups group field
  files : w.told.Files

/-! ## What was filed -/

/-- Something that bears on what a group was told. -/
inductive Filing
  | told (group : GroupId) (expectation : GroupExpectation)
  | forgot (group : GroupId)

/-- What it leaves of a field of a group, unless it says nothing of it. -/
def Filing.effect : Filing → GroupId × FieldName → Option (Option GroupExpectation)
  | .told asked e, k => if asked = k.1 ∧ k.2 = e.field then some (some e) else none
  | .forgot gone, k => if gone = k.1 then some none else none

/-! ## Runs -/

namespace GroupOutbox

/-- What a call files. -/
def filing (w : GroupOutbox) : GroupOp → List Filing
  | .call (.submit s) =>
      if w.outbox.Accepts s then (s.group.map (Filing.told · s.expectation)).toList else []
  | .call _ => []
  | .forgetGroup group => [.forgot group]

/-- What the calls of a run file. -/
def filings (c : Chrono) : GroupOutbox → List GroupOp → List Filing
  | _, [] => []
  | w, op :: ops => w.filing op ++ filings c (w.step c op) ops

variable {c : Chrono} {w : GroupOutbox}

theorem files_iff (o : MemoryOutbox) (s : Submission) : files o s = true ↔ o.Accepts s := by
  rw [files, Bool.and_eq_true, Option.isNone_iff_eq_none]
  exact Iff.rfl

theorem mirrors_start (maxAttempts : Nat) (backoff : Duration) :
    (withMaxAttempts maxAttempts backoff).Mirrors := by
  have hempty : ∀ group : GroupId, (∅ : GroupMap)[group]? = none :=
    fun _ => Std.TreeMap.getElem?_emptyc
  refine ⟨fun group field => ?_, fun group fields hfields => ?_⟩
  · unfold withMaxAttempts GroupMap.expected
    rw [hempty]
    rfl
  · have hnone := hfields.symm.trans (hempty group)
    cases hnone

/-- What the outbox holds, by group and field. -/
def held (o : MemoryOutbox) (k : GroupId × FieldName) : Option GroupExpectation := o.groups k.1 k.2

/-- A call leaves of every group what its filing does. -/
theorem step_left (w : GroupOutbox) (op : GroupOp) :
    held (w.step c op).outbox = (w.filing op).foldl (LastWord.leave Filing.effect)
      (held w.outbox) := by
  cases op with
  | forgetGroup gone =>
      funext k
      unfold step filing MemoryOutbox.forgetGroup held
      simp only [List.foldl_cons, List.foldl_nil, LastWord.leave, Filing.effect,
        Function.update_apply]
      by_cases hg : k.1 = gone
      · rw [if_pos hg, if_pos hg.symm, Option.getD_some]
      · rw [if_neg hg, if_neg fun h => hg h.symm, Option.getD_none]
  | call op =>
      cases op with
      | submit s =>
          unfold step filing MemoryOutbox.step
          dsimp only
          rcases submit_groups w.outbox s with ⟨hnot, hsame⟩ | ⟨haccepts, hgroups⟩
          · rw [if_neg hnot, List.foldl_nil]
            unfold held
            rw [hsame]
          · rw [if_pos haccepts]
            funext k
            rw [held, hgroups]
            cases hgroup : s.group with
            | none => simp [held]
            | some asked =>
                simp only [Option.map_some, Option.toList_some, List.foldl_cons, List.foldl_nil,
                  LastWord.leave, Filing.effect, Option.some.injEq, held]
                split <;> rfl
      | observe device observed => rfl
      | _ =>
          change held (MemoryOutbox.step c w.outbox _) = held w.outbox
          unfold held
          rw [step_groups]
          intro s hs
          cases hs

theorem mirrors_step (h : w.Mirrors) (op : GroupOp) : (w.step c op).Mirrors := by
  cases op with
  | forgetGroup gone =>
      refine ⟨fun group field => ?_, fun group fields hfields => ?_⟩
      · unfold step MemoryOutbox.forgetGroup GroupMap.expected
        dsimp only
        rw [GroupMap.get_erase, Function.update_apply]
        by_cases hg : gone = group
        · rw [if_pos hg, if_pos hg.symm]
          rfl
        · rw [if_neg hg, if_neg fun heq => hg heq.symm]
          exact h.found group field
      · unfold step at hfields
        rw [GroupMap.get_erase] at hfields
        split at hfields
        · cases hfields
        · exact h.files group fields hfields
  | call op =>
      cases op with
      | submit s =>
          unfold step MemoryOutbox.step
          dsimp only
          rcases submit_groups w.outbox s with ⟨hnot, hsame⟩ | ⟨haccepts, hgroups⟩
          · rw [if_neg fun hfiles => hnot ((files_iff w.outbox s).mp hfiles)]
            exact ⟨fun group field => (h.found group field).trans (by rw [hsame]), h.files⟩
          · rw [if_pos ((files_iff w.outbox s).mpr haccepts)]
            refine ⟨fun group field => ?_, GroupMap.files_expect h.files s⟩
            dsimp only
            rw [hgroups, GroupMap.expected_expect, h.found]
      | observe device observed => exact ⟨h.found, h.files⟩
      | _ =>
          refine ⟨fun group field => (h.found group field).trans ?_, h.files⟩
          change _ = (MemoryOutbox.step c w.outbox _).groups group field
          rw [step_groups]
          intro s hs
          cases hs

theorem mirrors_run (maxAttempts : Nat) (backoff : Duration) (ops : List GroupOp) :
    (Machine.exec (step c) (withMaxAttempts maxAttempts backoff) ops).Mirrors :=
  @Machine.exec_invariant _ _ (step c) (fun _ _ => True) Mirrors (fun _ op h _ => mirrors_step h op)
    _ ops (Machine.along_of_mem fun _ _ => trivial) (mirrors_start maxAttempts backoff)

theorem exec_left (w : GroupOutbox) (ops : List GroupOp) :
    held (Machine.exec (step c) w ops).outbox =
      (filings c w ops).foldl (LastWord.leave Filing.effect) (held w.outbox) := by
  induction ops generalizing w with
  | nil => rfl
  | cons op ops ih => rw [Machine.exec_cons, ih, filings, List.foldl_append, step_left]

/--
**A listing says of each field what the group was last told.** After whatever calls, a group's
expectations are listed by field, each once; one is listed exactly when no submission for its
field was accepted after it, and the group has not been forgotten since; and to look a field up is
to find it in the listing.
-/
theorem told_last (c : Chrono) (maxAttempts : Nat) (backoff : Duration) (ops : List GroupOp)
    (group : GroupId) :
    let w := Machine.exec (step c) (withMaxAttempts maxAttempts backoff) ops
    ((w.told.expectedAll group).map (·.field)).Pairwise (· < ·) ∧
      (∀ e, (e ∈ w.told.expectedAll group ↔
        LastWord.Says Filing.effect (filings c (withMaxAttempts maxAttempts backoff) ops)
          (group, e.field) (some e))) ∧
      ∀ field, w.told.expected group field =
        (w.told.expectedAll group).find? fun e => e.field = field := by
  have hmirrors := @mirrors_run c maxAttempts backoff ops
  refine ⟨GroupMap.expectedAll_sorted hmirrors.files group, fun e => ?_,
    fun field => (GroupMap.find_expectedAll hmirrors.files group field).symm⟩
  rw [GroupMap.mem_expectedAll hmirrors.files, hmirrors.found]
  have hleft := congrFun (@exec_left c (withMaxAttempts maxAttempts backoff) ops) (group, e.field)
  exact (iff_of_eq (congrArg (· = some e) hleft)).trans (LastWord.foldl_leave_some _ _ e)

end GroupOutbox

end Sismatic
