import Sismatic.HttpUi.RegisterDrafts
import Sismatic.Lib.Run

/-!
# Drafts that are kept

A row counts as sent while its draft is the value that was last accepted for its register.
The accepted value is forgotten by a discard only, and not when the fleet reports it. So once
it has been reported and the fleet has moved on, the same text in the box counts as sent
again, and neither a save nor a start writes it.
-/

namespace Sismatic

/-- The value that every device behind a card is reported to hold. -/
def reportedText : Option FieldState → Option String
  | some ⟨some (.text value), _, false⟩ => some value
  | _ => none

theorem assumedText_of_reportedText {state : Option FieldState} {value : String}
    (h : reportedText state = some value) : assumedText state = some value := by
  obtain _ | ⟨read, display, mixed⟩ := state
  · cases h
  · cases mixed with
    | true =>
        obtain _ | read := read
        · cases h
        · cases read <;> cases h
    | false =>
        obtain _ | read := read
        · cases h
        · cases read with
          | text text => exact h
          | _ => cases h

/-! ## The panel in use -/

structure Panel where
  card : LiveDeviceCard
  /-- The writes that have been accepted and that no refetch since has reported. -/
  unconfirmed : List RegisterWrite

inductive PanelAct
  | set (field : FieldName) (value : String)
  | clear (field : FieldName)
  | clearAll
  | discard
  | save
  | run (status : RecordingStatus) (verb : RecordingVerb)
  | accepted (save : RegisterSave)
  | refused (save : RegisterSave)
  | refetched (values : FieldName → Option FieldState)

namespace Panel

/-- A card just shown. -/
def start (registers : List FieldName) (values : FieldName → Option FieldState) : Panel :=
  ⟨⟨⟨registers, values, fun _ => none, fun _ => none, []⟩, []⟩, []⟩

/-- The panel with its drafts changed, and nothing accepted or refetched. -/
def edit (w : Panel) (drafts : RegisterDrafts) : Panel :=
  { w with card := { w.card with drafts := drafts } }

def step (w : Panel) : PanelAct → Panel
  | .set field value => w.edit (w.card.drafts.set field value)
  | .clear field => w.edit (w.card.drafts.clear field)
  | .clearAll => w.edit w.card.drafts.clearAll
  | .discard => w.edit w.card.drafts.discard
  | .save => w.edit (w.card.drafts.save none)
  | .run status verb => { w with card := w.card.run status verb }
  | .accepted save =>
      if save ∈ w.card.drafts.saving then
        ⟨w.card.accepted save, save.writes ++ w.unconfirmed⟩
      else w
  | .refused save =>
      if save ∈ w.card.drafts.saving then w.edit (w.card.drafts.refused save) else w
  | .refetched values =>
      { w.edit (w.card.drafts.refetched values) with
        unconfirmed := w.unconfirmed.filter fun write =>
          reportedText (values write.field) ≠ some write.value }

/-- A draft that the next save writes, and that the next start waits for. -/
structure Owes (w : Panel) (field : FieldName) (draft : String) : Prop where
  unsaved : (w.card.drafts.row field).unsaved = true
  save : ∃ writes, ⟨field, draft⟩ ∈ writes ∧
    (w.step .save).card.drafts.saving = w.card.drafts.saving ++ [⟨writes, none⟩]
  start : ∀ status, sealsMetadata status = false → ∃ writes, ⟨field, draft⟩ ∈ writes ∧
    (w.step (.run status .start)).card.drafts.saving =
      w.card.drafts.saving ++ [⟨writes, some .start⟩] ∧
    (w.step (.run status .start)).card.commands = w.card.commands

/-- No draft is dropped: what is not owed to the fleet has been accepted and not yet reported. -/
structure Kept (w : Panel) : Prop where
  sent : ∀ row ∈ w.card.drafts.rows, row.sent = true →
    ⟨row.field, row.draft⟩ ∈ w.unconfirmed ∧
      ∀ write ∈ w.card.drafts.pending, write.field ≠ row.field
  owed : ∀ field ∈ w.card.drafts.registers, ∀ draft,
    w.card.drafts.changes field = some draft →
    assumedText (w.card.drafts.values field) ≠ some draft →
    ⟨field, draft⟩ ∉ w.unconfirmed → w.Owes field draft

/-! ## What a row says -/

/-- A draft that was accepted, and that the fleet is not taken to hold, has not been reported. -/
def Apart (w : Panel) : Prop :=
  ∀ field ∈ w.card.drafts.registers, ∀ draft, w.card.drafts.changes field = some draft →
    w.card.drafts.submitted field = some draft →
    assumedText (w.card.drafts.values field) ≠ some draft → ⟨field, draft⟩ ∈ w.unconfirmed

end Panel

namespace RegisterDrafts

variable {d : RegisterDrafts} {field : FieldName} {draft : String}

theorem row_draft_of_changed (h : d.changes field = some draft) : (d.row field).draft = draft := by
  simp only [row, h, Option.getD_some]

theorem row_sent_iff :
    (d.row field).sent = true ↔
      d.changes field = some (d.row field).draft ∧
        d.submitted field = some (d.row field).draft ∧
        assumedText (d.values field) ≠ some (d.row field).draft := by
  cases hchanged : d.changes field with
  | none => simp [row, hchanged]
  | some draft => simp [row, hchanged, and_comm]

theorem row_unsaved_iff :
    (d.row field).unsaved = true ↔
      d.changes field = some (d.row field).draft ∧
        d.submitted field ≠ some (d.row field).draft ∧
        assumedText (d.values field) ≠ some (d.row field).draft := by
  cases hchanged : d.changes field with
  | none => simp [row, hchanged]
  | some draft => simp [row, hchanged, and_comm]

theorem mem_pending {write : RegisterWrite} :
    write ∈ d.pending ↔ write.field ∈ d.registers ∧ (d.row write.field).unsaved = true ∧
      (d.row write.field).draft = write.value := by
  simp only [pending, rows, List.mem_map, List.mem_filter]
  refine ⟨?_, ?_⟩
  · rintro ⟨_, ⟨⟨field, hfield, rfl⟩, hunsaved⟩, rfl⟩
    exact ⟨hfield, hunsaved, rfl⟩
  · rintro ⟨hfield, hunsaved, hdraft⟩
    exact ⟨_, ⟨⟨write.field, hfield, rfl⟩, hunsaved⟩, by rw [hdraft]; rfl⟩

/-- What counts as submitted after a save was accepted before it, or is one of its writes. -/
theorem submitted_accepted {save : RegisterSave}
    (h : (d.accepted save).submitted field = some draft) :
    ⟨field, draft⟩ ∈ save.writes ∨ d.submitted field = some draft := by
  obtain ⟨writes, verb⟩ := save
  change writes.foldl _ d.submitted field = some draft at h
  generalize d.submitted = submitted at h ⊢
  induction writes generalizing submitted with
  | nil => exact .inr h
  | cons write writes ih =>
      rcases ih _ h with hmem | heq
      · exact .inl (List.mem_cons_of_mem _ hmem)
      · dsimp only at heq
        by_cases hfield : field = write.field
        · rw [hfield, Function.update_self] at heq
          left
          rw [hfield, ← Option.some.inj heq]
          exact List.mem_cons_self
        · rw [Function.update_of_ne hfield] at heq
          exact .inr heq

end RegisterDrafts

namespace Panel

variable {w : Panel}

/-- A panel drops nothing exactly while every accepted draft that is not reported is kept track
of. -/
theorem kept_iff_apart : w.Kept ↔ w.Apart := by
  refine ⟨?_, ?_⟩
  · intro h field hfield draft hchanged hsubmitted hassumed
    have hdraft := RegisterDrafts.row_draft_of_changed hchanged
    have hsent : (w.card.drafts.row field).sent = true := by
      rw [RegisterDrafts.row_sent_iff, hdraft]
      exact ⟨hchanged, hsubmitted, hassumed⟩
    have hrow := (h.sent _ (List.mem_map_of_mem hfield) hsent).1
    rwa [hdraft] at hrow
  · intro h
    refine ⟨?_, ?_⟩
    · intro row hrow hsent
      obtain ⟨field, hfield, rfl⟩ := List.mem_map.mp hrow
      obtain ⟨hchanged, hsubmitted, hassumed⟩ := RegisterDrafts.row_sent_iff.mp hsent
      refine ⟨h field hfield _ hchanged hsubmitted hassumed, ?_⟩
      intro write hwrite heq
      obtain ⟨-, hunsaved, -⟩ := RegisterDrafts.mem_pending.mp hwrite
      change write.field = field at heq
      rw [heq] at hunsaved
      exact (RegisterDrafts.row_unsaved_iff.mp hunsaved).2.1 hsubmitted
    · intro field hfield draft hchanged hassumed hunconfirmed
      have hdraft := RegisterDrafts.row_draft_of_changed hchanged
      have hunsaved : (w.card.drafts.row field).unsaved = true := by
        rw [RegisterDrafts.row_unsaved_iff, hdraft]
        refine ⟨hchanged, ?_, hassumed⟩
        intro hsubmitted
        exact hunconfirmed (h field hfield draft hchanged hsubmitted hassumed)
      have hpending : ⟨field, draft⟩ ∈ w.card.drafts.pending :=
        RegisterDrafts.mem_pending.mpr ⟨hfield, hunsaved, hdraft⟩
      have hne : w.card.drafts.pending ≠ [] := List.ne_nil_of_mem hpending
      refine ⟨hunsaved, ⟨_, hpending, ?_⟩, ?_⟩
      · simp only [step, edit, RegisterDrafts.save, if_neg hne]
      · intro status hstatus
        have hrun : w.card.run status .start =
            { w.card with drafts := w.card.drafts.save (some .start) } :=
          if_pos ⟨rfl, hstatus, hne⟩
        refine ⟨_, hpending, ?_, ?_⟩
        · simp only [step, hrun, RegisterDrafts.save, if_neg hne]
        · simp only [step, hrun]

/-! ## What goes wrong -/

/-- The fleet was reported to hold what was accepted last for a register, and is not any more. -/
structure Stale (w : Panel) (values : FieldName → Option FieldState) (field : FieldName)
    (value : String) : Prop where
  register : field ∈ w.card.drafts.registers
  submitted : w.card.drafts.submitted field = some value
  confirmed : ⟨field, value⟩ ∉ w.unconfirmed
  moved : assumedText (values field) ≠ some value

/-- The act leaves a draft in a box that was accepted and reported once, and is held no more. -/
def Strays (w : Panel) : PanelAct → Prop
  | .set field value => w.Stale w.card.drafts.values field value
  | .clear field => w.Stale w.card.drafts.values field ""
  | .clearAll => ∃ field, w.Stale w.card.drafts.values field ""
  | .refetched values => ∃ field draft, w.card.drafts.changes field = some draft ∧
      w.Stale values field draft
  | _ => False

/-- An edit keeps the drafts of the boxes it leaves alone. -/
theorem set_apart_iff (h : w.Apart) (field : FieldName) (value : String) :
    (w.edit (w.card.drafts.set field value)).Apart ↔
      ¬ w.Stale w.card.drafts.values field value := by
  refine ⟨?_, ?_⟩
  · intro happart hstale
    exact hstale.confirmed
      (happart field hstale.register value (Function.update_self ..) hstale.submitted hstale.moved)
  · intro hstale other hother draft hchanged hsubmitted hassumed
    change Function.update w.card.drafts.changes field (some value) other = some draft at hchanged
    by_cases heq : other = field
    · subst heq
      rw [Function.update_self] at hchanged
      obtain rfl := Option.some.inj hchanged
      by_contra hunconfirmed
      exact hstale ⟨hother, hsubmitted, hunconfirmed, hassumed⟩
    · rw [Function.update_of_ne heq] at hchanged
      exact h other hother draft hchanged hsubmitted hassumed

theorem clearAll_apart_iff :
    (w.edit w.card.drafts.clearAll).Apart ↔
      ¬ ∃ field, w.Stale w.card.drafts.values field "" := by
  refine ⟨?_, ?_⟩
  · rintro happart ⟨field, hstale⟩
    exact hstale.confirmed
      (happart field hstale.register "" (if_pos hstale.register) hstale.submitted hstale.moved)
  · intro hstale field hfield draft hchanged hsubmitted hassumed
    change (if field ∈ w.card.drafts.registers then some "" else none) = some draft at hchanged
    change field ∈ w.card.drafts.registers at hfield
    rw [if_pos hfield] at hchanged
    obtain rfl := Option.some.inj hchanged
    by_contra hunconfirmed
    exact hstale ⟨field, hfield, hsubmitted, hunconfirmed, hassumed⟩

theorem refetched_apart_iff (values : FieldName → Option FieldState) :
    (w.step (.refetched values)).Apart ↔
      ¬ ∃ field draft, w.card.drafts.changes field = some draft ∧ w.Stale values field draft := by
  refine ⟨?_, ?_⟩
  · rintro happart ⟨field, draft, hchanged, hstale⟩
    exact hstale.confirmed (List.mem_of_mem_filter
      (happart field hstale.register draft hchanged hstale.submitted hstale.moved))
  · intro hstale field hfield draft hchanged hsubmitted hassumed
    change assumedText (values field) ≠ some draft at hassumed
    have hunconfirmed : ⟨field, draft⟩ ∈ w.unconfirmed := by
      by_contra hnot
      exact hstale ⟨field, draft, hchanged, hfield, hsubmitted, hnot, hassumed⟩
    -- a value that is reported is the one the fleet is taken to hold
    have hreported : reportedText (values field) ≠ some draft :=
      fun hreported => hassumed (assumedText_of_reportedText hreported)
    exact List.mem_filter.mpr ⟨hunconfirmed, decide_eq_true hreported⟩

theorem save_apart (h : w.Apart) (verb : Option RecordingVerb) :
    (w.edit (w.card.drafts.save verb)).Apart := by
  unfold RegisterDrafts.save
  split
  · exact h
  · exact h

theorem accepted_apart (h : w.Apart) (save : RegisterSave) :
    (w.step (.accepted save)).Apart := by
  simp only [step]
  split
  · intro field hfield draft hchanged hsubmitted hassumed
    rcases RegisterDrafts.submitted_accepted hsubmitted with hwrite | hearlier
    · exact List.mem_append_left _ hwrite
    · exact List.mem_append_right _ (h field hfield draft hchanged hearlier hassumed)
  · exact h

/-- **One step.** A panel that has dropped nothing drops something exactly when an act strays. -/
theorem step_apart_iff (h : w.Apart) (act : PanelAct) :
    (w.step act).Apart ↔ ¬ w.Strays act := by
  cases act with
  | set field value => exact set_apart_iff h field value
  | clear field => exact set_apart_iff h field ""
  | clearAll => exact clearAll_apart_iff
  | refetched values => exact refetched_apart_iff values
  | discard =>
      refine iff_of_true ?_ id
      intro field _ draft hchanged
      cases hchanged
  | save => exact iff_of_true (save_apart h none) id
  | run status verb =>
      refine iff_of_true ?_ id
      simp only [step, LiveDeviceCard.run]
      split
      · exact save_apart h (some verb)
      · exact h
  | accepted save => exact iff_of_true (accepted_apart h save) id
  | refused save =>
      refine iff_of_true ?_ id
      simp only [step]
      split
      · exact h
      · exact h

theorem start_apart (registers : List FieldName) (values : FieldName → Option FieldState) :
    (start registers values).Apart := by
  intro field _ draft hchanged
  cases hchanged

end Panel

/--
**A draft is dropped exactly when the fleet leaves a value that it was reported to hold.** A run
of the panel keeps every draft in every state it comes to, if and only if no act of it leaves in
a box what was accepted for its register, was reported since, and is held no more.
-/
theorem kept_iff (registers : List FieldName) (values : FieldName → Option FieldState)
    (acts : List PanelAct) :
    Machine.Along Panel.step (fun w act => (w.step act).Kept) (Panel.start registers values) acts ↔
      Machine.Along Panel.step (fun w act => ¬ w.Strays act) (Panel.start registers values)
        acts := by
  have hrun : Machine.Along Panel.step (fun _ _ => True) (Panel.start registers values) acts :=
    Machine.along_of_mem fun _ _ => trivial
  refine Machine.along_iff_of_invariant ?_ ?_ hrun (Panel.start_apart registers values)
  · intro w act happart _ hstrays
    exact (Panel.step_apart_iff happart act).mpr hstrays
  · intro w act happart _
    rw [Panel.kept_iff_apart, Panel.step_apart_iff happart act]

/-- The fleet behind a card reports one text for every field. -/
def holding (text : String) : FieldName → Option FieldState :=
  fun _ => some ⟨some (.text text), text, false⟩

/-- A title that is saved, reported, and then changed at the recorder: the card keeps calling it
sent, and neither a save nor a start writes it. -/
theorem not_kept_moved :
    ¬ (Machine.exec Panel.step (Panel.start ["TITLE"] (holding "B"))
        [.set "TITLE" "A", .save, .accepted ⟨[⟨"TITLE", "A"⟩], none⟩,
          .refetched (holding "A"), .refetched (holding "B")]).Kept := by
  rw [Panel.kept_iff_apart]
  intro h
  have hmem := h "TITLE" (by decide) "A" (by decide) (by decide) (by decide)
  revert hmem
  decide

end Sismatic
