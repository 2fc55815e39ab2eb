import Sismatic.HttpApi.Fields
import Sismatic.Proof.Histories
import Sismatic.Proof.Told

/-!
# What the reads routes of a group agree on

A group's state is put together in two ways: the index goes through every member's snapshot
and through the list of what the group was told, and the detail route looks each up. Whatever
the calls of the store and of the outbox have been, both come to the same answer, and the
verdict that goes with it says what it says of every field and every member.
-/

namespace Sismatic

/-! ## What is latest is filed under its own field -/

/-- Each device's reads carry the field they are filed under. -/
def MemoryStore.Files (store : MemoryStore) : Prop :=
  ∀ device, SelfKeyed.Files Read.field (store.latest device)

section Store

variable {layout : Layout} {store : MemoryStore}

theorem files_setLatest (h : store.Files) (d : DeviceId) {fields : Fields Read}
    (hfields : SelfKeyed.Files Read.field fields) : (store.setLatest d fields).Files := by
  intro device
  rw [MemoryStore.setLatest]
  dsimp only
  rw [Function.update_apply]
  split
  · exact hfields
  · exact h device

/-- A step of a call files a read under its field, drops a device's reads, or leaves them. -/
theorem files_step (h : store.Files) (call : Call) : (call.step layout store).1.Files := by
  cases call with
  | upsert read => exact files_setLatest h _ (SelfKeyed.files_insert (h read.device) read)
  | forget d => exact files_setLatest h d SelfKeyed.files_empty
  | dropping slots answer =>
      cases slots with
      | nil => exact h
      | cons slot slots =>
          rw [Call.step]
          dsimp only
          split <;> exact h
  | vacating d slots answer =>
      rw [Call.step, MemoryStore.removeIfEmpty]
      dsimp only
      split <;> exact h
  | _ => exact h

theorem files_traffic (layout : Layout) (budget : Option Nat) (acts : List Traffic.Act) :
    (Machine.exec (Traffic.step layout) (.start budget) acts).store.Files := by
  have hstep : ∀ (t : Traffic) (act : Traffic.Act), t.store.Files → True →
      (Traffic.step layout t act).store.Files := by
    intro t act ht _
    cases act with
    | begin request => exact ht
    | advance n =>
        rw [Traffic.step]
        split
        · exact ht
        · exact files_step ht _
  exact @Machine.exec_invariant _ _ (Traffic.step layout) (fun _ _ => True) (·.store.Files) hstep
    _ acts (Machine.along_of_mem fun _ _ => trivial) fun _ => SelfKeyed.files_empty

/-- To find a field in a device's snapshot is to look it up. -/
theorem find_latestAll (h : store.Files) (device : DeviceId) (field : FieldName) :
    (store.latestAll device).find? (fun read => read.field = field) =
      (store.latest device)[field]? := SelfKeyed.find_values (h device) field

end Store

/-! ## Verdicts -/

section Verdicts

/-- One field of one member is not what was asked. -/
def Drifts (expected : Option GroupExpectation) (read : Option Read) : Prop :=
  ∃ e r, expected = some e ∧ read = some r ∧ satisfies e.value r.value = false

/-- It is what was asked. -/
def Obeys (expected : Option GroupExpectation) (read : Option Read) : Prop :=
  ∃ e r, expected = some e ∧ read = some r ∧ satisfies e.value r.value = true

/-- A verdict: drift if there is any, agreement if there is some and no drift. -/
structure SyncVerdict (sync : GroupSyncState) (drift agreement : Prop) : Prop where
  drifted : sync = .drifted ↔ drift
  inSync : sync = .inSync ↔ ¬ drift ∧ agreement

theorem memberState_verdict (expected : Option GroupExpectation)
    (observed : DeviceId × Option Read) :
    SyncVerdict (memberState expected observed).sync (Drifts expected observed.2)
      (Obeys expected observed.2) := by
  obtain ⟨device, read⟩ := observed
  cases expected with
  | none => constructor <;> simp [memberState, Drifts, Obeys]
  | some e =>
      cases read with
      | none => constructor <;> simp [memberState, Drifts, Obeys]
      | some r =>
          cases hsat : satisfies e.value r.value with
          | false => constructor <;> simp [memberState, Drifts, Obeys, hsat]
          | true => constructor <;> simp [memberState, Drifts, Obeys, hsat]

/-- Drift wins over agreement, wherever verdicts are rolled up. -/
theorem rolled_verdict {α : Type} (verdict : α → GroupSyncState) (drift agreement : α → Prop)
    (h : ∀ a, SyncVerdict (verdict a) (drift a) (agreement a)) (as : List α) :
    SyncVerdict
      (if as.any fun a => verdict a = .drifted then .drifted
        else if as.any fun a => verdict a = .inSync then .inSync else .unknown)
      (∃ a ∈ as, drift a) (∃ a ∈ as, agreement a) := by
  have hdrift : (as.any fun a => verdict a = .drifted) = true ↔ ∃ a ∈ as, drift a := by
    rw [List.any_eq_true]
    refine exists_congr fun a => and_congr_right fun _ => ?_
    rw [decide_eq_true_iff]
    exact (h a).drifted
  by_cases hd : ∃ a ∈ as, drift a
  · rw [if_pos (hdrift.mpr hd)]
    exact ⟨iff_of_true rfl hd, iff_of_false (by decide) fun hnot => hnot.1 hd⟩
  · rw [if_neg fun hany => hd (hdrift.mp hany)]
    have hsync : (as.any fun a => verdict a = .inSync) = true ↔ ∃ a ∈ as, agreement a := by
      rw [List.any_eq_true]
      refine exists_congr fun a => and_congr_right fun ha => ?_
      rw [decide_eq_true_iff, (h a).inSync]
      exact and_iff_right fun hdrifts => hd ⟨a, ha, hdrifts⟩
    by_cases hs : ∃ a ∈ as, agreement a
    · rw [if_pos (hsync.mpr hs)]
      exact ⟨iff_of_false (by decide) hd, iff_of_true rfl ⟨hd, hs⟩⟩
    · rw [if_neg fun hany => hs (hsync.mp hany)]
      exact ⟨iff_of_false (by decide) hd, iff_of_false (by decide) fun hboth => hs hboth.2⟩

theorem assemble_verdict (group : GroupId) (field : FieldName)
    (expected : Option GroupExpectation) (observed : List (DeviceId × Option Read)) :
    SyncVerdict (GroupReads.assemble group field expected observed).sync
      (∃ o ∈ observed, Drifts expected o.2) (∃ o ∈ observed, Obeys expected o.2) := by
  have hrolled := rolled_verdict (fun o => (memberState expected o).sync)
    (fun o => Drifts expected o.2) (fun o => Obeys expected o.2)
    (memberState_verdict expected) observed
  unfold GroupReads.assemble
  dsimp only
  rw [List.any_map, List.any_map]
  exact hrolled

end Verdicts

/-! ## One group -/

theorem groupMembers_some {catalog : MemoryCatalog} {id : GroupId} {summary : GroupSummary}
    (h : catalog.group id = some summary) (scope deviceRoute : String) :
    groupMembers catalog id scope deviceRoute = .ok summary.members := by
  rw [groupMembers, h]

theorem groupMembers_none {catalog : MemoryCatalog} {id : GroupId}
    (h : catalog.group id = none) (scope deviceRoute : String) :
    groupMembers catalog id scope deviceRoute =
      .error (.refused (notAGroup id scope deviceRoute (catalog.device id))) := by
  rw [groupMembers, h]

theorem mem_insertAll (latest : List Read) (fields : OrderedSet FieldName) (field : FieldName) :
    field ∈ latest.foldl (fun fields read => fields.insert read.field) fields ↔
      field ∈ fields ∨ ∃ read ∈ latest, read.field = field := by
  induction latest generalizing fields with
  | nil => simp
  | cons read latest ih =>
      rw [List.foldl_cons, ih, OrderedSet.mem_insert]
      simp only [List.mem_cons, exists_eq_or_imp]
      tauto

theorem mem_knownFields (expectations : List GroupExpectation) (reads : List (List Read))
    (field : FieldName) :
    field ∈ knownFields expectations reads ↔
      field ∈ expectations.map (·.field) ∨
        ∃ latest ∈ reads, ∃ read ∈ latest, read.field = field := by
  have hfold : ∀ fields : OrderedSet FieldName,
      field ∈ reads.foldl (fun fields latest =>
        latest.foldl (fun fields read => fields.insert read.field) fields) fields ↔
          field ∈ fields ∨ ∃ latest ∈ reads, ∃ read ∈ latest, read.field = field := by
    induction reads with
    | nil => simp
    | cons latest reads ih =>
        intro fields
        rw [List.foldl_cons, ih, mem_insertAll]
        simp only [List.mem_cons, exists_eq_or_imp]
        exact or_assoc
  unfold knownFields
  rw [hfold, OrderedSet.mem_ofList]

theorem groupDesired_iff (log : MemoryOutbox) (group : GroupId) (memberIds : List DeviceId)
    (desired : DesiredRecordingState) :
    (groupDesiredRecordingState log group memberIds).desiredRecordingState = some desired ↔
      memberIds ≠ [] ∧
        ∀ m ∈ memberIds, (log.desiredRecordingState m).desiredRecordingState = desired := by
  cases memberIds with
  | nil => simp [groupDesiredRecordingState]
  | cons first rest =>
      simp only [groupDesiredRecordingState, List.map_cons, List.head?_cons, Option.map_some,
        Option.filter_some]
      constructor
      · intro h
        split at h
        · rename_i hall
          obtain rfl := Option.some.inj h
          simpa using hall
        · cases h
      · intro h
        obtain ⟨-, hall⟩ := h
        have hfirst := hall first List.mem_cons_self
        rw [if_pos]
        · exact congrArg some hfirst
        · simpa [hfirst] using hall

/-- What the state of one group is to say, of this store and this outbox. -/
structure GroupRow (catalog : MemoryCatalog) (store : MemoryStore) (w : GroupOutbox)
    (summary : GroupSummary) (group : GroupId) (row : GroupFieldStateList) : Prop where
  named : row.group = group
  /-- Each field once, in order. -/
  ordered : (row.fields.map (·.field)).Pairwise (· < ·)
  /-- The fields that some member has reported, or that the group was told of. -/
  known : ∀ field, field ∈ row.fields.map (·.field) ↔
    (∃ m ∈ summary.members, ((store.latest m)[field]?).isSome) ∨
      (w.outbox.groups group field).isSome
  /-- What is shown of a field is what its own route answers, however it is spelled there. -/
  detail : ∀ state ∈ row.fields, ∀ raw, normalizeField raw = state.field →
    readGroupField catalog store w group raw = .ok state
  verdict : SyncVerdict row.sync
    (∃ field, ∃ m ∈ summary.members,
      Drifts (w.outbox.groups group field) ((store.latest m)[field]?))
    (∃ field, ∃ m ∈ summary.members,
      Obeys (w.outbox.groups group field) ((store.latest m)[field]?))
  /-- What every member is to be doing, if that is one thing. -/
  recording : ∀ desired, row.desiredRecordingState = some desired ↔ summary.members ≠ [] ∧
    ∀ m ∈ summary.members, (w.outbox.desiredRecordingState m).desiredRecordingState = desired
  /-- It is what the write routes answer. -/
  recordingRoute : ∃ answer, readGroupDesiredRecordingState catalog w.outbox group = .ok answer ∧
    answer.desiredRecordingState = row.desiredRecordingState

section Group

variable {catalog : MemoryCatalog} {store : MemoryStore} {w : GroupOutbox}
  {summary : GroupSummary} {group : GroupId}

/-- What the detail route answers for a field. -/
def detailOf (store : MemoryStore) (w : GroupOutbox) (summary : GroupSummary) (group : GroupId)
    (field : FieldName) : GroupFieldState :=
  GroupReads.assemble group field (w.told.expected group field)
    (summary.members.map fun m => (m, (store.latest m)[field]?))

theorem readGroupField_eq (h : catalog.group group = some summary) (raw : String) :
    readGroupField catalog store w group raw =
      .ok (detailOf store w summary group (normalizeField raw)) := by
  unfold readGroupField
  dsimp only
  rw [groupMembers_some h]
  rfl

/-- What the index answers. -/
def stateOf (store : MemoryStore) (w : GroupOutbox) (summary : GroupSummary) (group : GroupId) :
    GroupFieldStateList :=
  let fields := (knownFields (w.told.expectedAll group)
    (summary.members.map store.latestAll)).elems.map (detailOf store w summary group)
  ⟨group, rolledUp fields,
    (groupDesiredRecordingState w.outbox group summary.members).desiredRecordingState, fields⟩

/-- The index finds in the snapshots and in the listing what the detail route looks up. -/
theorem groupStateOf_eq (hfiles : store.Files) (hmirrors : w.Mirrors)
    (h : catalog.group group = some summary) :
    groupStateOf catalog store w group = .ok (stateOf store w summary group) := by
  have hfield : ∀ field, GroupReads.assemble group field
      ((w.told.expectedAll group).find? fun e => e.field = field)
      ((summary.members.zip (summary.members.map store.latestAll)).map fun member =>
        (member.1, member.2.find? fun read => read.field = field)) =
      detailOf store w summary group field := by
    intro field
    rw [GroupMap.find_expectedAll hmirrors.files, List.zip_eq_zipWith, List.zipWith_map_right,
      List.zipWith_self, List.map_map]
    unfold detailOf
    refine congrArg _ (List.map_congr_left fun m _ => ?_)
    exact congrArg (Prod.mk m) (find_latestAll hfiles m field)
  have hfields : (knownFields (w.told.expectedAll group)
      (summary.members.map store.latestAll)).elems.map (fun field =>
        GroupReads.assemble group field
          ((w.told.expectedAll group).find? fun e => e.field = field)
          ((summary.members.zip (summary.members.map store.latestAll)).map fun member =>
            (member.1, member.2.find? fun read => read.field = field))) =
      (stateOf store w summary group).fields := List.map_congr_left fun field _ => hfield field
  unfold groupStateOf
  rw [groupMembers_some h]
  unfold stateOf at hfields ⊢
  dsimp only at hfields ⊢
  rw [← hfields]
  rfl

theorem known_iff (hfiles : store.Files) (hmirrors : w.Mirrors) (summary : GroupSummary)
    (group : GroupId) (field : FieldName) :
    field ∈ knownFields (w.told.expectedAll group) (summary.members.map store.latestAll) ↔
      (∃ m ∈ summary.members, ((store.latest m)[field]?).isSome) ∨
        (w.outbox.groups group field).isSome := by
  rw [mem_knownFields, or_comm]
  refine or_congr ?_ ?_
  · simp only [List.mem_map, exists_exists_and_eq_and]
    refine exists_congr fun m => and_congr_right fun _ => ?_
    rw [Option.isSome_iff_exists, ← SelfKeyed.key_mem_values (hfiles m), List.mem_map]
    rfl
  · rw [← hmirrors.found, ← GroupMap.find_expectedAll hmirrors.files, List.find?_isSome,
      List.mem_map]
    simp only [decide_eq_true_eq]

theorem fields_stateOf (store : MemoryStore) (w : GroupOutbox) (summary : GroupSummary)
    (group : GroupId) :
    (stateOf store w summary group).fields.map (·.field) =
      (knownFields (w.told.expectedAll group) (summary.members.map store.latestAll)).elems :=
  (List.map_map ..).trans (List.map_id _)

/-- The verdict on a group is that on all its fields and members. -/
theorem verdict_stateOf (hfiles : store.Files) (hmirrors : w.Mirrors) (summary : GroupSummary)
    (group : GroupId) :
    SyncVerdict (stateOf store w summary group).sync
      (∃ field, ∃ m ∈ summary.members,
        Drifts (w.outbox.groups group field) ((store.latest m)[field]?))
      (∃ field, ∃ m ∈ summary.members,
        Obeys (w.outbox.groups group field) ((store.latest m)[field]?)) := by
  have hverdict : ∀ field, SyncVerdict (detailOf store w summary group field).sync
      (∃ m ∈ summary.members, Drifts (w.outbox.groups group field) ((store.latest m)[field]?))
      (∃ m ∈ summary.members, Obeys (w.outbox.groups group field) ((store.latest m)[field]?)) := by
    intro field
    have hassembled := assemble_verdict group field (w.told.expected group field)
      (summary.members.map fun m => (m, (store.latest m)[field]?))
    simp only [List.mem_map, exists_exists_and_eq_and, hmirrors.found] at hassembled
    rw [detailOf, hmirrors.found]
    exact hassembled
  have hrolled := rolled_verdict _ _ _ hverdict
    (knownFields (w.told.expectedAll group) (summary.members.map store.latestAll)).elems
  -- a field that drifts or obeys has been reported, and so is among these
  have hlisted : ∀ {P : Option GroupExpectation → Option Read → Prop}, (∀ e, ¬ P e none) →
      ((∃ field ∈ (knownFields (w.told.expectedAll group)
          (summary.members.map store.latestAll)).elems, ∃ m ∈ summary.members,
            P (w.outbox.groups group field) ((store.latest m)[field]?)) ↔
        ∃ field, ∃ m ∈ summary.members,
          P (w.outbox.groups group field) ((store.latest m)[field]?)) := by
    intro P hP
    refine exists_congr fun field => and_iff_right_of_imp fun hfield => ?_
    obtain ⟨m, hm, hread⟩ := hfield
    refine (known_iff hfiles hmirrors summary group field).mpr (.inl ⟨m, hm, ?_⟩)
    cases hlatest : (store.latest m)[field]? with
    | none => exact absurd (hlatest ▸ hread) (hP _)
    | some read => rfl
  rw [hlisted (by simp [Drifts]), hlisted (by simp [Obeys])] at hrolled
  unfold stateOf rolledUp
  dsimp only
  rw [List.any_map, List.any_map]
  exact hrolled

theorem row_stateOf (hfiles : store.Files) (hmirrors : w.Mirrors)
    (h : catalog.group group = some summary) :
    GroupRow catalog store w summary group (stateOf store w summary group) := by
  refine ⟨rfl, ?_, ?_, ?_, verdict_stateOf hfiles hmirrors summary group, ?_, ?_⟩
  · rw [fields_stateOf]
    exact (knownFields _ _).sorted
  · intro field
    rw [← known_iff hfiles hmirrors, fields_stateOf]
    exact Iff.rfl
  · intro state hstate raw hraw
    obtain ⟨field, -, rfl⟩ := List.mem_map.mp hstate
    have hname : normalizeField raw = field := hraw
    rw [readGroupField_eq h, hname]
  · exact fun desired => groupDesired_iff w.outbox group summary.members desired
  · refine ⟨groupDesiredRecordingState w.outbox group summary.members, ?_, rfl⟩
    rw [readGroupDesiredRecordingState, groupMembers_some h]
    rfl

theorem groupFieldHistory_ok (h : catalog.group group = some summary) {raw : String}
    {query : HistoryQuery}
    (hfield : ∀ asked, query.field = some asked → normalizeField asked = normalizeField raw) :
    groupFieldHistory catalog store w group raw query =
      .ok ⟨group, normalizeField raw, w.told.expected group (normalizeField raw),
        summary.members.map fun device => ⟨device, truncate
          (store.between device (normalizeField raw) (spanOf query.toReadQuery)) query.limit⟩⟩ := by
  unfold groupFieldHistory
  dsimp only
  rw [(rejectConflictingField_ok query _).mpr hfield, groupMembers_some h]
  rfl

end Group

/--
**A group's index and its detail routes are one answer.** Whatever the store and the outbox have
been through, the index of a configured group lists each field that some member has reported or
that the group was told of, once and in order, with what the detail route answers for it and a
verdict over them all; each series of a group's history is what its member's own route answers;
and of an id that is no group's, index and detail are refused with one message.
-/
theorem group_index (layout : Layout) (budget : Option Nat) (acts : List Traffic.Act)
    (c : Chrono) (maxAttempts : Nat) (backoff : Duration) (ops : List GroupOp)
    (catalog : MemoryCatalog) (group : GroupId) :
    let store := (Machine.exec (Traffic.step layout) (.start budget) acts).store
    let w := Machine.exec (GroupOutbox.step c) (.withMaxAttempts maxAttempts backoff) ops
    (∀ summary, catalog.group group = some summary →
      (∃ row, listGroupFields catalog store w group = .ok row ∧
        GroupRow catalog store w summary group row) ∧
      ∀ (raw : String) (query : HistoryQuery),
        (∀ asked, query.field = some asked → normalizeField asked = normalizeField raw) →
        ∃ history, groupFieldHistory catalog store w group raw query = .ok history ∧
          history.members.map (·.device) = summary.members ∧
          ∀ series ∈ history.members, catalog.group series.device = none →
            fieldHistory catalog store series.device raw query = .ok series.reads) ∧
    (catalog.group group = none →
      ∃ failure, listGroupFields catalog store w group = .error failure ∧
        ∀ raw, readGroupField catalog store w group raw = .error failure) := by
  intro store w
  have hfiles := files_traffic layout budget acts
  have hmirrors := @GroupOutbox.mirrors_run c maxAttempts backoff ops
  refine ⟨fun summary hgroup => ⟨⟨_, groupStateOf_eq hfiles hmirrors hgroup,
    row_stateOf hfiles hmirrors hgroup⟩, ?_⟩, fun hnone => ?_⟩
  · intro raw query hfield
    refine ⟨_, groupFieldHistory_ok hgroup hfield, ?_, ?_⟩
    · rw [List.map_map]
      exact List.map_id _
    · intro series hseries hdevice
      obtain ⟨device, -, rfl⟩ := List.mem_map.mp hseries
      exact fieldHistory_ok hdevice hfield
  · refine ⟨.refused (notAGroup group readsScope "fields" (catalog.device group)), ?_,
      fun raw => ?_⟩
    · unfold listGroupFields groupStateOf
      rw [groupMembers_none hnone]
      rfl
    · unfold readGroupField
      dsimp only
      rw [groupMembers_none hnone]
      rfl

end Sismatic
