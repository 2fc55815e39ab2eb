import Sismatic.Server.Verbs
import Sismatic.StoreMemory.Clock
import Sismatic.Proof.Frame
import Sismatic.Proof.GroupRequest

/-!
# What a group was told

The outbox keeps what each group was last told, and the document says which groups there
are. Three things connect them: a submission files an expectation, the removal of a group
forgets it once the group is gone, and a reset forgets nothing. So an expectation belongs
to a configured group as long as no submission lands for a group that is gone, and no
reset drops a group that was told something.
-/

namespace Sismatic

open MemoryOutbox Machine

/-! ## What the outbox does to expectations -/

theorem cancelQueued_groups (o : MemoryOutbox) (d : DeviceId) (reason : String) :
    (o.cancelQueued d reason).1.groups = o.groups := congrArg Prod.fst (cancelQueued_beside ..)

/-- Whether a submission is accepted as something new. -/
def MemoryOutbox.Accepts (o : MemoryOutbox) (s : Submission) : Prop :=
  o.replayed s = none ∧ (o.submit s).2.isOk = true

instance (o : MemoryOutbox) (s : Submission) : Decidable (o.Accepts s) :=
  inferInstanceAs (Decidable (_ ∧ _))

/-- The expectation a submission files with its group. -/
def Submission.expectation (s : Submission) : GroupExpectation :=
  ⟨(expects s.intent).1, (expects s.intent).2, s.atTime⟩

/-- A submission files one expectation with its group, or none. -/
theorem submit_groups (o : MemoryOutbox) (s : Submission) :
    (¬ o.Accepts s ∧ (o.submit s).1.groups = o.groups) ∨
      (o.Accepts s ∧ ∀ group field, (o.submit s).1.groups group field =
        if s.group = some group ∧ field = s.expectation.field then some s.expectation
        else o.groups group field) := by
  have harm : ∀ o : MemoryOutbox, (armBatch s o).groups = o.groups := fun o =>
    congrArg Prod.fst (armBatch_beside s o)
  unfold Accepts MemoryOutbox.submit
  by_cases htargets : s.targets = []
  · rw [if_pos htargets]
    exact .inl ⟨fun h => Bool.false_ne_true h.2, rfl⟩
  · rw [if_neg htargets]
    by_cases hlen : s.ids.length ≠ s.targets.length
    · rw [if_pos hlen]
      exact .inl ⟨fun h => Bool.false_ne_true h.2, rfl⟩
    · rw [if_neg hlen]
      cases hrep : o.replayed s with
      | some acceptance => exact .inl ⟨fun h => Option.some_ne_none _ h.1, rfl⟩
      | none =>
          cases hadm : o.admitAll (Verb.of s.intent) (s.ids.zip s.targets) with
          | error e => exact .inl ⟨fun h => Bool.false_ne_true h.2, rfl⟩
          | ok rows =>
              refine .inr ⟨⟨rfl, rfl⟩, ?_⟩
              intro group field
              have hrows : (rows.foldl (appendRow s) o).groups = o.groups :=
                congrArg Prod.fst (foldl_appendRow_beside s o rows)
              show (armBatch s (expectGroup s (rows.foldl (appendRow s) o))).groups group field = _
              rw [harm]
              unfold expectGroup
              cases hgroup : s.group with
              | none => simp [hrows]
              | some told =>
                  simp only [Submission.expectation, hrows, Function.update_apply,
                    Option.some.injEq]
                  by_cases hg : group = told
                  · subst hg
                    simp [Function.update_apply]
                  · have hg' : ¬ told = group := fun h => hg h.symm
                    simp [hg, hg']

/-! ## What a verb does to the groups -/

/-- A group of this id is in the kept document. -/
def LiveFleet.Configured (fleet : LiveFleet) (id : GroupId) : Prop :=
  ∃ group ∈ fleet.document.groups, group.id = id

instance (fleet : LiveFleet) (id : GroupId) : Decidable (fleet.Configured id) :=
  inferInstanceAs (Decidable (∃ group ∈ _, _))

section Begin

variable {newV5 : Devices.Uuid → List UInt8 → Devices.Uuid} {fleet : LiveFleet}

theorem amend_outbox (edit : Devices.RawConfig → Except InventoryRefusal Devices.RawConfig) :
    (fleet.amend newV5 edit).1.outbox = fleet.outbox := by
  rcases amend_cases newV5 fleet edit with ⟨_, heq⟩ | ⟨_, _, _, _, heq⟩
  · rw [heq]
  · rw [heq]
    rfl

theorem configured_amend {edit : Devices.RawConfig → Except InventoryRefusal Devices.RawConfig}
    {id : GroupId} (hc : fleet.Configured id)
    (hedit : ∀ amended, edit fleet.document = .ok amended →
      ∃ group ∈ amended.groups, group.id = id) :
    (fleet.amend newV5 edit).1.Configured id := by
  rcases amend_cases newV5 fleet edit with ⟨_, heq⟩ | ⟨amended, _, hok, _, heq⟩
  · rw [heq]
    exact hc
  · rw [heq]
    exact hedit amended hok

theorem begin_outbox (newV5 : Devices.Uuid → List UInt8 → Devices.Uuid) (fleet : LiveFleet)
    (change : Change) : (fleet.begin newV5 change).1.outbox = fleet.outbox := by
  cases change with
  | add write =>
      simp only [LiveFleet.begin, LiveFleet.add]
      cases write.id with
      | none => rfl
      | some id => exact amend_outbox _
  | replace id write =>
      simp only [LiveFleet.begin, LiveFleet.replace]
      split
      · rfl
      · exact amend_outbox _
  | remove id =>
      rw [LiveFleet.begin_remove]
      exact amend_outbox _
  | addGroup write =>
      simp only [LiveFleet.begin, LiveFleet.addGroup]
      cases write.id with
      | none => rfl
      | some id => exact amend_outbox _
  | replaceGroup id write =>
      simp only [LiveFleet.begin, LiveFleet.replaceGroup]
      split
      · rfl
      · exact amend_outbox _
  | removeGroup id =>
      rw [LiveFleet.begin_removeGroup]
      exact amend_outbox _
  | reset source =>
      cases source with
      | error e => rfl
      | ok reloaded =>
          simp only [LiveFleet.begin, LiveFleet.reload]
          cases Devices.resolveConfig newV5 reloaded <;> rfl

theorem mem_replaceRawGroup {raw : Devices.RawGroup} {raws raws' : List Devices.RawGroup}
    (h : LiveFleet.replaceRawGroup raw raws = some raws') {id : GroupId}
    (hmem : ∃ group ∈ raws, group.id = id) : ∃ group ∈ raws', group.id = id := by
  induction raws generalizing raws' with
  | nil => cases h
  | cons first raws ih =>
      unfold LiveFleet.replaceRawGroup at h
      obtain ⟨group, hgroup, rfl⟩ := hmem
      by_cases hid : first.id = raw.id
      · rw [if_pos hid] at h
        obtain rfl := Option.some.inj h
        rcases List.mem_cons.mp hgroup with rfl | hgroup
        · exact ⟨raw, List.mem_cons_self .., hid.symm⟩
        · exact ⟨group, List.mem_cons_of_mem _ hgroup, rfl⟩
      · rw [if_neg hid] at h
        obtain ⟨rest, hrest, rfl⟩ := Option.map_eq_some_iff.mp h
        rcases List.mem_cons.mp hgroup with rfl | hgroup
        · exact ⟨group, List.mem_cons_self .., rfl⟩
        · obtain ⟨found, hfound, heq⟩ := ih hrest ⟨group, hgroup, rfl⟩
          exact ⟨found, List.mem_cons_of_mem _ hfound, heq⟩

/-- The reset a reloaded document makes, if it resolves, drops the group `id`. -/
def Change.Drops (newV5 : Devices.Uuid → List UInt8 → Devices.Uuid) (change : Change)
    (id : GroupId) : Prop :=
  ∃ reloaded, change = .reset (.ok reloaded) ∧
    (Devices.resolveConfig newV5 reloaded).isOk = true ∧ ∀ group ∈ reloaded.groups, group.id ≠ id

/-- **A configured group stays**, unless it is removed and will be forgotten, or a reset drops it. -/
theorem begin_configured (newV5 : Devices.Uuid → List UInt8 → Devices.Uuid) (change : Change)
    {id : GroupId} (hc : fleet.Configured id) :
    (fleet.begin newV5 change).1.Configured id ∨
      Errand.forgetGroup id ∈ (fleet.begin newV5 change).2 ∨ change.Drops newV5 id := by
  cases change with
  | add write =>
      left
      simp only [LiveFleet.begin, LiveFleet.add]
      cases write.id with
      | none => exact hc
      | some added =>
          refine configured_amend hc ?_
          intro amended hok
          obtain rfl := Except.ok.inj hok
          exact hc
  | replace target write =>
      left
      simp only [LiveFleet.begin, LiveFleet.replace]
      split
      · exact hc
      · refine configured_amend hc ?_
        intro amended hok
        split at hok
        · obtain rfl := Except.ok.inj hok
          exact hc
        · cases hok
  | remove target =>
      left
      rw [LiveFleet.begin_remove]
      rcases takeOut_cases newV5 fleet target with ⟨_, heq⟩ | ⟨_, _, rfl, _, heq⟩
      · rw [heq]
        exact hc
      · rw [heq]
        exact hc
  | addGroup write =>
      left
      simp only [LiveFleet.begin, LiveFleet.addGroup]
      cases write.id with
      | none => exact hc
      | some added =>
          refine configured_amend hc ?_
          intro amended hok
          obtain rfl := Except.ok.inj hok
          obtain ⟨group, hgroup, hid⟩ := hc
          exact ⟨group, List.mem_append_left _ hgroup, hid⟩
  | replaceGroup target write =>
      left
      simp only [LiveFleet.begin, LiveFleet.replaceGroup]
      split
      · exact hc
      · refine configured_amend hc ?_
        intro amended hok
        split at hok
        · rename_i groups hreplaced
          obtain rfl := Except.ok.inj hok
          exact mem_replaceRawGroup hreplaced hc
        · cases hok
  | removeGroup target =>
      by_cases htarget : id = target
      · subst htarget
        simp only [LiveFleet.begin]
        rcases takeOutGroup_cases newV5 fleet id with ⟨_, heq⟩ | ⟨_, _, _, _, heq⟩
        · rw [heq]
          exact .inl hc
        · rw [heq]
          exact .inr (.inl (List.mem_singleton_self _))
      · left
        rw [LiveFleet.begin_removeGroup]
        rcases takeOutGroup_cases newV5 fleet target with ⟨_, heq⟩ | ⟨_, _, rfl, _, heq⟩
        · rw [heq]
          exact hc
        · rw [heq]
          obtain ⟨group, hgroup, rfl⟩ := hc
          exact ⟨group, List.mem_filter.mpr ⟨hgroup, decide_eq_true htarget⟩, rfl⟩
  | reset source =>
      cases source with
      | error e => exact .inl hc
      | ok reloaded =>
          by_cases hdrops : ∀ group ∈ reloaded.groups, group.id ≠ id
          · cases hresolve : Devices.resolveConfig newV5 reloaded with
            | error fault =>
                left
                simp only [LiveFleet.begin, LiveFleet.reload, hresolve]
                exact hc
            | ok resolved => exact .inr (.inr ⟨reloaded, rfl, by rw [hresolve]; rfl, hdrops⟩)
          · left
            have hfound : ∃ group ∈ reloaded.groups, group.id = id := by
              simpa only [not_forall, not_not, exists_prop] using hdrops
            simp only [LiveFleet.begin, LiveFleet.reload]
            cases Devices.resolveConfig newV5 reloaded with
            | error fault => exact hc
            | ok resolved => exact hfound

end Begin

/-! ## Verbs under way -/

/-- The fleet, with the verbs in progress and what each group has been told. -/
structure Upkeep where
  fleet : LiveFleet
  /-- What each verb begun so far still has to do. -/
  underway : List (List Errand)
  /-- What was accepted for each group since it was last added. -/
  told : GroupId → List (FieldName × ReadValue)

inductive Move
  /-- A verb takes the lock, and lets go of it. -/
  | begin (change : Change)
  /-- A verb that has begun goes on to its next errand. -/
  | errand (verb : Nat)
  /-- Anyone calls the outbox: a handler with a submission, a relay task, a poll loop. -/
  | call (op : Op)

namespace Upkeep

/-- The process as it starts. -/
def start (document : Devices.RawConfig) (resolved : Devices.Resolved) (maxAttempts : Nat)
    (backoff : Duration) (configPath : String) : Upkeep where
  fleet := .new document resolved (withMaxAttempts maxAttempts backoff) configPath
  underway := []
  told := fun _ => []

/-- What the group `id` has been told once `op` was called. -/
def hears (u : Upkeep) (op : Op) (id : GroupId) : List (FieldName × ReadValue) :=
  match op with
  | .submit s =>
      if u.fleet.outbox.Accepts s ∧ s.group = some id then
        (s.expectation.field, s.expectation.value) :: u.told id
      else u.told id
  | _ => u.told id

def step (c : Chrono) (newV5 : Devices.Uuid → List UInt8 → Devices.Uuid) (u : Upkeep) :
    Move → Upkeep
  | .begin change =>
      let (fleet, errands) := u.fleet.begin newV5 change
      { fleet := fleet
        underway := u.underway ++ [errands]
        told := fun id =>
          if fleet.Configured id ∧ ¬ u.fleet.Configured id then [] else u.told id }
  | .errand verb =>
      match u.underway[verb]? with
      | some (errand :: rest) =>
          { u with fleet := u.fleet.runErrand errand, underway := u.underway.set verb rest }
      | _ => u
  | .call op =>
      { u with
        fleet := { u.fleet with outbox := u.fleet.outbox.step c op }
        told := u.hears op }

/-- The move with which a verb is done. -/
def Completes (newV5 : Devices.Uuid → List UInt8 → Devices.Uuid) (u : Upkeep) : Move → Prop
  | .begin change => (u.fleet.begin newV5 change).2 = []
  | .errand verb => ∃ errand, u.underway[verb]? = some [errand]
  | .call _ => False

/-- What the outbox expects of a group, a group of that id was told since it was last added. -/
def Belongs (u : Upkeep) : Prop :=
  ∀ id field e, u.fleet.outbox.groups id field = some e →
    u.fleet.Configured id ∧ (field, e.value) ∈ u.told id

/-- The outbox holds an expectation for the group. -/
def Holds (u : Upkeep) (id : GroupId) : Prop := ∃ field e, u.fleet.outbox.groups id field = some e

/-- A removal of the group has begun and has yet to forget it. -/
def Leaving (u : Upkeep) (id : GroupId) : Prop :=
  ∃ errands ∈ u.underway, Errand.forgetGroup id ∈ errands

/-- The errand about to be run. -/
def nextErrand (u : Upkeep) : Move → Option Errand
  | .errand verb => u.underway[verb]?.bind List.head?
  | _ => none

/--
A move that leaves no expectation behind: a submission lands for a group that is there, or
is yet to be forgotten; a reset drops no group that was told something; and a verb is done
while no other has a group to forget that was.
-/
structure Orderly (newV5 : Devices.Uuid → List UInt8 → Devices.Uuid) (u : Upkeep) (move : Move) :
    Prop where
  lands : ∀ s id, move = .call (.submit s) → s.group = some id → u.fleet.outbox.Accepts s →
    u.fleet.Configured id ∨ u.Leaving id
  drops : ∀ change id, move = .begin change → change.Drops newV5 id → u.Holds id → u.Leaving id
  alone : u.Completes newV5 move → ∀ id, u.Holds id → u.Leaving id →
    u.nextErrand move = some (.forgetGroup id)

/-- An expectation belongs to its group, or is about to be forgotten. -/
def Inv (u : Upkeep) : Prop :=
  ∀ id field e, u.fleet.outbox.groups id field = some e →
    u.Leaving id ∨ (u.fleet.Configured id ∧ (field, e.value) ∈ u.told id)

end Upkeep

section Runs

variable {c : Chrono} {newV5 : Devices.Uuid → List UInt8 → Devices.Uuid} {u : Upkeep}

/-- A call of the outbox other than a submission leaves every expectation. -/
theorem step_groups (o : MemoryOutbox) {op : Op} (hop : ∀ s, op ≠ .submit s) :
    (step c o op).groups = o.groups := congrArg Prod.fst (step_beside c o hop)

/-- What a beginning leaves belongs as it did, or is left to be forgotten. -/
theorem belongs_begin {change : Change} {id : GroupId} {field : FieldName} {e : GroupExpectation}
    (h : u.fleet.Configured id ∧ (field, e.value) ∈ u.told id)
    (hdrops : ¬ change.Drops newV5 id) :
    Errand.forgetGroup id ∈ (u.fleet.begin newV5 change).2 ∨
      ((u.step c newV5 (.begin change)).fleet.Configured id ∧
        (field, e.value) ∈ (u.step c newV5 (.begin change)).told id) := by
  rcases begin_configured newV5 change h.1 with hstays | hleaves | hdropped
  · refine .inr ⟨hstays, ?_⟩
    show (field, e.value) ∈ if _ then [] else u.told id
    rw [if_neg fun hadded => hadded.2 h.1]
    exact h.2
  · exact .inl hleaves
  · exact absurd hdropped hdrops

theorem inv_begin (h : u.Inv) {change : Change} (hok : u.Orderly newV5 (.begin change)) :
    (u.step c newV5 (.begin change)).Inv := by
  intro id field e he
  have hbefore : u.fleet.outbox.groups id field = some e := by
    have houtbox := begin_outbox newV5 u.fleet change
    change (u.fleet.begin newV5 change).1.outbox.groups id field = some e at he
    rw [houtbox] at he
    exact he
  have hstill : u.Leaving id → (u.step c newV5 (.begin change)).Leaving id := by
    rintro ⟨errands, hmem, hforget⟩
    exact ⟨errands, List.mem_append_left _ hmem, hforget⟩
  rcases h id field e hbefore with hleaving | hbelongs
  · exact .inl (hstill hleaving)
  · by_cases hdrops : change.Drops newV5 id
    · exact .inl (hstill (hok.drops change id rfl hdrops ⟨field, e, hbefore⟩))
    · rcases belongs_begin (c := c) hbelongs hdrops with hforget | hafter
      · exact .inl ⟨_, List.mem_append_right _ (List.mem_singleton_self _), hforget⟩
      · exact .inr hafter

theorem inv_call (h : u.Inv) {op : Op} (hok : u.Orderly newV5 (.call op)) :
    (u.step c newV5 (.call op)).Inv := by
  intro id field e he
  have hkeeps : ∀ {told : GroupId → List (FieldName × ReadValue)}, u.told id ⊆ told id →
      u.fleet.outbox.groups id field = some e →
      u.Leaving id ∨ (u.fleet.Configured id ∧ (field, e.value) ∈ told id) := by
    intro told hsub hbefore
    rcases h id field e hbefore with hleaving | ⟨hconfigured, htold⟩
    · exact .inl hleaving
    · exact .inr ⟨hconfigured, hsub htold⟩
  have hother : (∀ s, op ≠ .submit s) → u.fleet.outbox.groups id field = some e := by
    intro hop
    change (step c u.fleet.outbox op).groups id field = some e at he
    rw [step_groups u.fleet.outbox hop] at he
    exact he
  cases op with
  | submit s =>
      have hsub : u.told id ⊆ u.hears (.submit s) id := by
        show u.told id ⊆ if _ then _ else u.told id
        split
        · exact List.subset_cons_self ..
        · exact List.Subset.refl _
      change (u.fleet.outbox.submit s).1.groups id field = some e at he
      rcases submit_groups u.fleet.outbox s with ⟨_, hsame⟩ | ⟨haccepts, hfiles⟩
      · rw [hsame] at he
        exact hkeeps hsub he
      · rw [hfiles] at he
        split at he
        · rename_i hfiled
          obtain ⟨hgroup, rfl⟩ := hfiled
          obtain rfl := Option.some.inj he
          rcases hok.lands s id rfl hgroup haccepts with hconfigured | hleaving
          · refine .inr ⟨hconfigured, ?_⟩
            show (_, _) ∈ if _ then _ else _
            rw [if_pos ⟨haccepts, hgroup⟩]
            exact List.mem_cons_self ..
          · exact .inl hleaving
        · exact hkeeps hsub he
  | _ => exact hkeeps (List.Subset.refl _) (hother (by simp))

theorem inv_errand (h : u.Inv) (verb : Nat) : (u.step c newV5 (.errand verb)).Inv := by
  unfold Upkeep.step
  dsimp only
  split
  · rename_i errand rest hverb
    -- what is left to be forgotten by another verb, or later by this one, still is
    have hstill : ∀ id, errand ≠ .forgetGroup id → u.Leaving id →
        Upkeep.Leaving { u with
          fleet := u.fleet.runErrand errand, underway := u.underway.set verb rest } id := by
      rintro id hne ⟨errands, hmem, hforget⟩
      obtain ⟨j, hj, rfl⟩ := List.mem_iff_getElem.mp hmem
      by_cases hjv : verb = j
      · subst hjv
        rw [List.getElem?_eq_getElem hj] at hverb
        rw [Option.some.inj hverb] at hforget
        have hlater : Errand.forgetGroup id ∈ rest := by
          rcases List.mem_cons.mp hforget with heq | hlater
          · exact absurd heq.symm hne
          · exact hlater
        exact ⟨rest, List.mem_set hj rest, hlater⟩
      · refine ⟨u.underway[j], ?_, hforget⟩
        exact List.mem_iff_getElem.mpr ⟨j, by simpa using hj, List.getElem_set_of_ne hjv ..⟩
    intro id field e he
    have hbefore : u.fleet.outbox.groups id field = some e ∧ errand ≠ .forgetGroup id := by
      cases errand with
      | cancelQueued d reason =>
          change (u.fleet.outbox.cancelQueued d reason).1.groups id field = some e at he
          rw [cancelQueued_groups] at he
          exact ⟨he, by simp⟩
      | forgetGroup g =>
          change Function.update u.fleet.outbox.groups g (fun _ => none) id field = some e at he
          by_cases hid : id = g
          · subst hid
            rw [Function.update_self] at he
            cases he
          · rw [Function.update_of_ne hid] at he
            exact ⟨he, fun heq => hid (Errand.forgetGroup.inj heq).symm⟩
    rcases h id field e hbefore.1 with hleaving | hbelongs
    · exact .inl (hstill id hbefore.2 hleaving)
    · exact .inr hbelongs
  · exact h

theorem upkeep_inv_step (h : u.Inv) {move : Move} (hok : u.Orderly newV5 move) :
    (u.step c newV5 move).Inv := by
  cases move with
  | begin change => exact inv_begin h hok
  | errand verb => exact inv_errand h verb
  | call op => exact inv_call h hok

/-- **Once a verb is done**, what the outbox expects belongs. -/
theorem belongs_step (h : u.Inv) {move : Move} (hok : u.Orderly newV5 move)
    (hdone : u.Completes newV5 move) : (u.step c newV5 move).Belongs := by
  intro id field e he
  -- nothing of this group is left to forget, so before the move it belonged
  have hbelonged : u.fleet.outbox.groups id field = some e →
      u.nextErrand move ≠ some (.forgetGroup id) →
      u.fleet.Configured id ∧ (field, e.value) ∈ u.told id := by
    intro hbefore hnext
    rcases h id field e hbefore with hleaving | hbelongs
    · exact absurd (hok.alone hdone id ⟨field, e, hbefore⟩ hleaving) hnext
    · exact hbelongs
  cases move with
  | begin change =>
      have hbefore : u.fleet.outbox.groups id field = some e := by
        have houtbox := begin_outbox newV5 u.fleet change
        change (u.fleet.begin newV5 change).1.outbox.groups id field = some e at he
        rw [houtbox] at he
        exact he
      have hbelongs := hbelonged hbefore (by simp [Upkeep.nextErrand])
      have hdrops : ¬ change.Drops newV5 id := by
        intro hdropped
        have hleaving := hok.drops change id rfl hdropped ⟨field, e, hbefore⟩
        exact absurd (hok.alone hdone id ⟨field, e, hbefore⟩ hleaving) (by simp [Upkeep.nextErrand])
      rcases belongs_begin (c := c) hbelongs hdrops with hforget | hafter
      · rw [show (u.fleet.begin newV5 change).2 = [] from hdone] at hforget
        cases hforget
      · exact hafter
  | errand verb =>
      obtain ⟨errand, hverb⟩ := hdone
      have hnext : u.nextErrand (.errand verb) = some errand := by
        simp [Upkeep.nextErrand, hverb]
      have hstep : u.step c newV5 (.errand verb) = { u with
          fleet := u.fleet.runErrand errand, underway := u.underway.set verb [] } := by
        simp only [Upkeep.step, hverb]
      rw [hstep] at he ⊢
      cases errand with
      | cancelQueued d reason =>
          change (u.fleet.outbox.cancelQueued d reason).1.groups id field = some e at he
          rw [cancelQueued_groups] at he
          exact hbelonged he (by simp [hnext])
      | forgetGroup g =>
          change Function.update u.fleet.outbox.groups g (fun _ => none) id field = some e at he
          by_cases hid : id = g
          · subst hid
            rw [Function.update_self] at he
            cases he
          · rw [Function.update_of_ne hid] at he
            refine hbelonged he ?_
            rw [hnext]
            intro heq
            exact hid (Errand.forgetGroup.inj (Option.some.inj heq)).symm
  | call op => exact hdone.elim

/--
**Expectations belong to configured groups.** In every run whose moves are orderly, each
verb ends with the outbox expecting nothing of a group that is not there, nor anything
that a group of that id was not told since it was last added.
-/
theorem expectations_belong (c : Chrono) (newV5 : Devices.Uuid → List UInt8 → Devices.Uuid)
    (document : Devices.RawConfig) (resolved : Devices.Resolved) (maxAttempts : Nat)
    (backoff : Duration) (configPath : String) {moves : List Move}
    (hok : Along (Upkeep.step c newV5) (Upkeep.Orderly newV5)
      (.start document resolved maxAttempts backoff configPath) moves) :
    Along (Upkeep.step c newV5)
      (fun u move => u.Completes newV5 move → (u.step c newV5 move).Belongs)
      (.start document resolved maxAttempts backoff configPath) moves := by
  have hinit : (Upkeep.start document resolved maxAttempts backoff configPath).Inv := by
    intro id field e he
    cases he
  exact along_of_invariant (fun _ _ h hok => upkeep_inv_step h hok)
    (fun _ _ h hok hdone => belongs_step h hok hdone) hok hinit

end Runs

/-! ## A group dropped by a reset -/

def tellLab : Submission where
  ids := ["w1", "w2"]
  targets := ["a", "b"]
  group := some "lab"
  batch := some "b1"
  barrier := some ⟨8000000000, .failBatch⟩
  intent := .startRecording
  atTime := ⟨"2024-01-01T10:00:00.000Z"⟩
  idempotencyKey := none

/-- `lab` is told to start, and the devices file that is read again has no `lab`. -/
def tellAndReset : List Move :=
  [.call (.submit tellLab), .begin (.reset (.ok { pairDocument with groups := [] }))]

/-- The group is gone, and still expected to be recording. -/
theorem expectation_outlives_reset :
    ¬ Along (Upkeep.step utc newV5OfRecorders)
      (fun u move => u.Completes newV5OfRecorders move →
        (u.step utc newV5OfRecorders move).Belongs)
      (.start pairDocument pairResolved 3 1000000000 "devices.toml") tellAndReset := by
  intro h
  obtain ⟨_, hreset, _⟩ := h
  obtain ⟨hconfigured, _⟩ := hreset
    (show (LiveFleet.begin _ _ _).2 = [] by decide +kernel) "lab" recordingStateField
    tellLab.expectation (by decide +kernel)
  revert hconfigured
  decide +kernel

theorem Upkeep.leaving_iff {u : Upkeep} {underway : List (List Errand)}
    (h : u.underway = underway) {id : GroupId} :
    u.Leaving id ↔ ∃ errands ∈ underway, Errand.forgetGroup id ∈ errands := by
  unfold Upkeep.Leaving
  rw [h]

/-- Told, removed, forgotten and added again, `lab` starts with no expectation. -/
def tellAndRemove : List Move :=
  [.call (.submit tellLab), .begin (.removeGroup "lab"), .errand 0,
    .begin (.addGroup ⟨some "lab", ["b"], none, none⟩)]

theorem expectations_belong_removed :
    Along (Upkeep.step utc newV5OfRecorders)
      (fun u move => u.Completes newV5OfRecorders move →
        (u.step utc newV5OfRecorders move).Belongs)
      (.start pairDocument pairResolved 3 1000000000 "devices.toml") tellAndRemove := by
  refine expectations_belong utc newV5OfRecorders pairDocument pairResolved 3 1000000000
    "devices.toml" ⟨?_, ?_, ?_, ?_, trivial⟩
  · refine ⟨?_, fun _ _ h => (by cases h), fun hdone => hdone.elim⟩
    intro s id hmove hgroup _
    obtain rfl : tellLab = s := Op.submit.inj (Move.call.inj hmove)
    obtain rfl : "lab" = id := Option.some.inj hgroup
    exact .inl (by decide +kernel)
  · refine ⟨fun _ _ h => (by cases h), ?_, ?_⟩
    · rintro change id hmove ⟨reloaded, rfl, _⟩
      cases hmove
    · intro hdone
      exact absurd (show (LiveFleet.begin _ _ _).2 = [] from hdone) (by decide +kernel)
  · refine ⟨fun _ _ h => (by cases h), fun _ _ h => (by cases h), ?_⟩
    intro _ id _ hleaving
    obtain ⟨errands, hmem, hforget⟩ := (Upkeep.leaving_iff
      (show Upkeep.underway _ = [[.forgetGroup "lab"]] by decide +kernel)).mp hleaving
    obtain rfl := List.mem_singleton.mp hmem
    obtain rfl := Errand.forgetGroup.inj (List.mem_singleton.mp hforget)
    rfl
  · refine ⟨fun _ _ h => (by cases h), ?_, ?_⟩
    · rintro change id hmove ⟨reloaded, rfl, _⟩
      cases hmove
    · intro _ id _ hleaving
      obtain ⟨errands, hmem, hforget⟩ := (Upkeep.leaving_iff
        (show Upkeep.underway _ = [[]] by decide +kernel)).mp hleaving
      obtain rfl := List.mem_singleton.mp hmem
      cases hforget

end Sismatic
