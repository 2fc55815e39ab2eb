import Sismatic.HttpApi.Writes
import Sismatic.Proof.Undisturbed

/-!
# One request, one configuration

A group's members are read from the catalog, then the group again, then each member. With
nothing else going on the handler comes to what `submitGroup` does against that catalog.
With the fleet changing meanwhile it comes to what *some* catalog would have given only as
long as the second lookup still finds the group the first one found: what it does not
find again is submitted as no group at all, and its members are sent their verbs without
a rendezvous.
-/

namespace Sismatic

open Machine

/-! ## The handler, left alone -/

section Handler

variable {stamp : Stamp} {request : GroupRequest}

theorem next_alone (stamp : Stamp) (catalog : MemoryCatalog) {field : FieldName}
    (hfield : fieldOf request.intent = some field) (targets : List DeviceId)
    (group : Option GroupSummary) (left refused : List DeviceId) :
    ∃ n, (Handler.step stamp request catalog)^[n]
        (Handler.next stamp request field targets group left refused) =
      .done (fieldVerdict field (refused ++ left.filterMap (refusing catalog field)) >>=
        fun _ => assemble stamp request targets group) := by
  induction left generalizing refused with
  | nil =>
      refine ⟨0, ?_⟩
      rw [List.filterMap_nil, List.append_nil]
      rfl
  | cons target left ih =>
      obtain ⟨n, hn⟩ := ih (refused ++ (refusing catalog field target).toList)
      refine ⟨n + 1, ?_⟩
      have hstep : Handler.step stamp request catalog
          (Handler.next stamp request field targets group (target :: left) refused) =
            Handler.next stamp request field targets group left
              (refused ++ (refusing catalog field target).toList) := by
        simp only [Handler.next, Handler.step, hfield]
      rw [Function.iterate_succ_apply, hstep, hn, List.append_assoc]
      cases htarget : refusing catalog field target with
      | none => rw [List.filterMap_cons_none htarget]; rfl
      | some id => rw [List.filterMap_cons_some htarget]; rfl

/-- **Against one catalog, the lookups come to `submitGroup`.** -/
theorem handler_alone (catalog : MemoryCatalog) :
    ∃ n, (Handler.step stamp request catalog)^[n] .members =
      .done (submitGroup stamp request catalog) := by
  cases hgroup : catalog.group request.group with
  | none =>
      refine ⟨2, ?_⟩
      simp only [Function.iterate_succ, Function.iterate_zero, Function.comp_apply, id_eq,
        Handler.step, hgroup, submitGroup, groupMembers]
      rfl
  | some group =>
      have hresult : submitGroup stamp request catalog =
          submit stamp request catalog group.members (some group) := by
        unfold submitGroup groupMembers
        rw [hgroup]
        rfl
      have htwo : (Handler.step stamp request catalog)^[2] .members =
          Handler.step stamp request catalog (.summary group.members) := by
        simp only [Function.iterate_succ, Function.iterate_zero, Function.comp_apply, id_eq,
          Handler.step, hgroup]
      rw [hresult]
      cases hfield : fieldOf request.intent with
      | none =>
          refine ⟨2, ?_⟩
          rw [htwo]
          simp only [Handler.step, hgroup, hfield, submit, rejectDisabledField]
          rfl
      | some field =>
          obtain ⟨n, hn⟩ := next_alone stamp catalog hfield group.members (some group)
            group.members []
          refine ⟨n + 2, ?_⟩
          rw [Function.iterate_add_apply, htwo]
          simp only [Handler.step, hgroup, hfield]
          rw [hn, List.nil_append]
          simp only [submit, rejectDisabledField, hfield]

end Handler

/-! ## With the fleet changing -/

/-- The catalog, with one request at work on it. -/
structure Serving where
  catalog : MemoryCatalog
  /-- Every catalog since the request arrived, the present one among them. -/
  seen : List MemoryCatalog
  /-- Those the handler has read, in order. -/
  looked : List MemoryCatalog
  handler : Handler

/-- What can happen next. A change to the fleet replaces the devices, then the groups. -/
inductive Beat
  | devices (summaries : List DeviceSummary)
  | groups (summaries : List GroupSummary)
  | handler

namespace Serving

def arrived (catalog : MemoryCatalog) : Serving := ⟨catalog, [catalog], [], .members⟩

def moved (s : Serving) (catalog : MemoryCatalog) : Serving :=
  { s with catalog := catalog, seen := catalog :: s.seen }

def step (stamp : Stamp) (request : GroupRequest) (s : Serving) : Beat → Serving
  | .devices summaries => s.moved (s.catalog.replaceDevices summaries)
  | .groups summaries => s.moved (s.catalog.replaceGroups summaries)
  | .handler =>
      { s with
        looked := s.looked ++ [s.catalog]
        handler := s.handler.step stamp request s.catalog }

/-- What is submitted, one of the catalogs would have had submitted, with its rendezvous. -/
def Whole (stamp : Stamp) (request : GroupRequest) (s : Serving) : Prop :=
  ∀ submission, s.handler = .done (.ok submission) →
    (∃ catalog ∈ s.seen, submitGroup stamp request catalog = .ok submission) ∧
      (needsRendezvous submission.intent = true → 1 < submission.targets.length →
        submission.batch.isSome)

/-- The handler finds the group again, and the members that refuse it. -/
structure FoundAgain (request : GroupRequest) (s : Serving) (beat : Beat) : Prop where
  /-- The second lookup finds the group, with the members the first one found. -/
  group : beat = .handler → ∀ targets, s.handler = .summary targets →
    ∃ group, s.catalog.group request.group = some group ∧ group.members = targets
  /-- A member that refused the field at that lookup refuses it when it is asked, or the group is
  what it was and no member refuses any more. -/
  refused : beat = .handler → ∀ targets group target left refused,
    s.handler = .checking targets group (target :: left) refused →
    ∀ field, fieldOf request.intent = some field → ∀ found, s.looked[1]? = some found →
      refusing found field target ≠ none →
        refusing s.catalog field target ≠ none ∨ (s.catalog.group request.group = group ∧
          ∀ target ∈ targets, refusing s.catalog field target = none)

end Serving

/-- A change replaces both halves of the catalog, or neither. -/
theorem change_catalog (newV5 : Devices.Uuid → List UInt8 → Devices.Uuid) (fleet : LiveFleet)
    (change : Change) :
    (fleet.change newV5 change).1.catalog = fleet.catalog ∨
      ∃ devices groups, (fleet.change newV5 change).1.catalog =
        (fleet.catalog.replaceDevices devices).replaceGroups groups := by
  have hspec := change_spec newV5 fleet change
  generalize (fleet.change newV5 change).1 = after at hspec
  generalize (fleet.change newV5 change).2 = answer at hspec
  cases hspec with
  | refused fault => exact .inl rfl
  | amended amended resolved outbox hdefaults hothers hresolves => exact .inr ⟨_, _, rfl⟩
  | reloaded document resolved outbox hall hresolves => exact .inr ⟨_, _, rfl⟩

section Serving

variable {stamp : Stamp} {request : GroupRequest}

/-- What `submit` makes of a group that one of the catalogs holds, unrefused. -/
def Holding (request : GroupRequest) (seen : List MemoryCatalog) (targets : List DeviceId)
    (group : Option GroupSummary) : Prop :=
  ∃ catalog ∈ seen, catalog.group request.group = group ∧
    (∃ found, group = some found ∧ found.members = targets) ∧
    ∀ field, fieldOf request.intent = some field →
      ∀ target ∈ targets, refusing catalog field target = none

/-- A request that is about to ask `left` has one configuration to come from, or is refused. -/
def Sourced (request : GroupRequest) (s : Serving) (targets : List DeviceId)
    (group : Option GroupSummary) (left refused : List DeviceId) : Prop :=
  Holding request s.seen targets group ∨ refused ≠ [] ∨
    ∃ field, fieldOf request.intent = some field ∧ ∃ found, s.looked[1]? = some found ∧
      ∃ target ∈ left, refusing found field target ≠ none

/-- Once its group is found again, a request has one configuration to come from. -/
def Serving.Inv (stamp : Stamp) (request : GroupRequest) (s : Serving) : Prop :=
  s.catalog ∈ s.seen ∧
    match s.handler with
    | .members => s.looked = []
    | .kind => True
    | .summary _ => s.looked.length = 1
    | .checking targets group left refused => 1 < s.looked.length ∧
        (∃ found, group = some found ∧ found.members = targets) ∧
          Sourced request s targets group left refused
    | .done result => ∀ submission, result = .ok submission →
        ∃ targets group, Holding request s.seen targets group ∧
          assemble stamp request targets group = .ok submission

theorem Holding.cons {seen : List MemoryCatalog} {targets : List DeviceId}
    {group : Option GroupSummary} (h : Holding request seen targets group)
    (catalog : MemoryCatalog) : Holding request (catalog :: seen) targets group := by
  obtain ⟨held, hmem, hrest⟩ := h
  exact ⟨held, List.mem_cons_of_mem _ hmem, hrest⟩

theorem submitGroup_of_holding (stamp : Stamp) {seen : List MemoryCatalog} {targets : List DeviceId}
    {group : Option GroupSummary} (h : Holding request seen targets group) :
    ∃ catalog ∈ seen, submitGroup stamp request catalog =
      assemble stamp request targets group := by
  obtain ⟨catalog, hmem, rfl, ⟨found, hfound, rfl⟩, hnone⟩ := h
  refine ⟨catalog, hmem, ?_⟩
  have haccepted : rejectDisabledField catalog found.members request.intent = .ok () := by
    unfold rejectDisabledField
    cases hfield : fieldOf request.intent with
    | none => rfl
    | some field =>
        have hempty : found.members.filterMap (refusing catalog field) = [] :=
          List.filterMap_eq_nil_iff.mpr (hnone field hfield)
        show fieldVerdict field (found.members.filterMap (refusing catalog field)) = .ok ()
        rw [hempty]
        rfl
  unfold submitGroup groupMembers submit
  rw [hfound]
  show (rejectDisabledField catalog found.members request.intent >>= _) = _
  rw [haccepted]
  rfl

/-- What is assembled over a group carries a batch wherever it needs one. -/
theorem batch_of_assemble {targets : List DeviceId} {group : GroupSummary}
    {submission : Submission}
    (h : assemble stamp request targets (some group) = .ok submission)
    (hneeds : needsRendezvous submission.intent = true) (hmany : 1 < submission.targets.length) :
    submission.batch.isSome := by
  unfold assemble at h
  dsimp only at h
  split at h
  · cases h
  · obtain rfl := Except.ok.inj h
    have hkept : (needsRendezvous request.intent && decide (targets.length > 1)) = true := by
      rw [Bool.and_eq_true, decide_eq_true_eq]
      exact ⟨hneeds, hmany⟩
    simp [Option.filter, hkept]

theorem next_inv {s : Serving} (hmem : s.catalog ∈ s.seen) (hlooked : 1 < s.looked.length)
    {field : FieldName} {targets : List DeviceId} {group : Option GroupSummary}
    (hgroup : ∃ found, group = some found ∧ found.members = targets) {left refused : List DeviceId}
    (h : Sourced request s targets group left refused) :
    { s with handler := Handler.next stamp request field targets group left refused }.Inv
      stamp request := by
  refine ⟨hmem, ?_⟩
  cases left with
  | cons target left => exact ⟨hlooked, hgroup, h⟩
  | nil =>
      intro submission hdone
      unfold fieldVerdict at hdone
      split at hdone
      · rename_i hnone
        rcases h with hholding | hrefused | ⟨-, -, -, -, target, hleft, -⟩
        · exact ⟨targets, group, hholding, hdone⟩
        · exact absurd (List.isEmpty_iff.mp hnone) hrefused
        · cases hleft
      · cases hdone

theorem inv_moved {s : Serving} (h : s.Inv stamp request) (catalog : MemoryCatalog) :
    (s.moved catalog).Inv stamp request := by
  obtain ⟨current, seen, looked, handler⟩ := s
  obtain ⟨_, hhandler⟩ := h
  refine ⟨List.mem_cons_self .., ?_⟩
  cases handler with
  | members => exact hhandler
  | kind => trivial
  | summary targets => exact hhandler
  | checking targets group left refused =>
      obtain ⟨hlooked, hgroup, hsourced⟩ := hhandler
      exact ⟨hlooked, hgroup, hsourced.imp_left (Holding.cons · catalog)⟩
  | done result =>
      intro submission hresult
      obtain ⟨targets, group, hholding, hassemble⟩ := hhandler submission hresult
      exact ⟨targets, group, hholding.cons catalog, hassemble⟩

/-- The second lookup, of a group that it finds again. -/
theorem sourced_found {s : Serving} (hmem : s.catalog ∈ s.seen) (hlooked : s.looked.length = 1)
    {targets : List DeviceId} {field : FieldName} (hfield : fieldOf request.intent = some field)
    (hfound : ∃ group, s.catalog.group request.group = some group ∧ group.members = targets) :
    Sourced request { s with looked := s.looked ++ [s.catalog] } targets
      (s.catalog.group request.group) targets [] := by
  by_cases hnone : ∀ target ∈ targets, refusing s.catalog field target = none
  · refine .inl ⟨s.catalog, hmem, rfl, hfound, fun field' hfield' => ?_⟩
    rw [hfield] at hfield'
    obtain rfl := Option.some.inj hfield'
    exact hnone
  · obtain ⟨target, htarget, hrefuses⟩ := not_forall₂.mp hnone
    refine .inr (.inr ⟨field, hfield, s.catalog, ?_, target, htarget, hrefuses⟩)
    rw [← hlooked]
    exact List.getElem?_concat_length

/-- The catalogs read after the second change nothing. -/
theorem Sourced.look {s : Serving} (hlooked : 1 < s.looked.length) {targets : List DeviceId}
    {group : Option GroupSummary} {left refused : List DeviceId}
    (h : Sourced request s targets group left refused) :
    Sourced request { s with looked := s.looked ++ [s.catalog] } targets group left refused := by
  rcases h with hholding | hrefused | ⟨field, hfield, found, hsecond, hother⟩
  · exact .inl hholding
  · exact .inr (.inl hrefused)
  · refine .inr (.inr ⟨field, hfield, found, ?_, hother⟩)
    exact (List.getElem?_append_left hlooked).trans hsecond

/-- One member is asked, that may have refused the field at the second lookup. -/
theorem sourced_asked {s : Serving} (hmem : s.catalog ∈ s.seen)
    {targets left refused : List DeviceId} {group : Option GroupSummary} {target : DeviceId}
    {field : FieldName} (hphase : s.handler = .checking targets group (target :: left) refused)
    (hfield : fieldOf request.intent = some field)
    (hgroup : ∃ found, group = some found ∧ found.members = targets)
    (h : Sourced request s targets group (target :: left) refused)
    (hfound : s.FoundAgain request .handler) :
    Sourced request s targets group left
      (refused ++ (refusing s.catalog field target).toList) := by
  rcases h with hholding | hrefused | ⟨field', hfield', found, hsecond, other, hother, hrefuses⟩
  · exact .inl hholding
  · exact .inr (.inl (List.append_ne_nil_of_left_ne_nil hrefused _))
  · rw [hfield] at hfield'
    obtain rfl := Option.some.inj hfield'
    rcases List.mem_cons.mp hother with rfl | hleft
    · -- the member that refused is the one that is asked now
      rcases hfound.refused rfl _ _ _ _ _ hphase _ hfield found hsecond hrefuses with
        hstill | ⟨hsame, hnone⟩
      · obtain ⟨id, hid⟩ := Option.ne_none_iff_exists'.mp hstill
        rw [hid]
        exact .inr (.inl (List.append_ne_nil_of_right_ne_nil _ (List.cons_ne_nil id [])))
      · refine .inl ⟨s.catalog, hmem, hsame, hgroup, fun field' hfield' => ?_⟩
        rw [hfield] at hfield'
        obtain rfl := Option.some.inj hfield'
        exact hnone
    · exact .inr (.inr ⟨field, hfield, found, hsecond, other, hleft, hrefuses⟩)

theorem inv_step {s : Serving} (h : s.Inv stamp request) {beat : Beat}
    (hfound : s.FoundAgain request beat) : (s.step stamp request beat).Inv stamp request := by
  cases beat with
  | devices summaries => exact inv_moved h _
  | groups summaries => exact inv_moved h _
  | handler =>
      obtain ⟨hmem, hhandler⟩ := h
      have hlonger : (s.looked ++ [s.catalog]).length = s.looked.length + 1 := List.length_append
      show { s with
        looked := s.looked ++ [s.catalog]
        handler := s.handler.step stamp request s.catalog }.Inv stamp request
      cases hphase : s.handler with
      | members =>
          rw [hphase] at hhandler
          unfold Handler.step
          cases s.catalog.group request.group with
          | none => exact ⟨hmem, trivial⟩
          | some group => exact ⟨hmem, hlonger.trans (by rw [hhandler, List.length_nil])⟩
      | kind => exact ⟨hmem, fun submission hdone => by cases hdone⟩
      | summary targets =>
          rw [hphase] at hhandler
          have hagain := hfound.group rfl targets hphase
          unfold Handler.step
          cases hfield : fieldOf request.intent with
          | none =>
              refine ⟨hmem, fun submission hdone => ⟨targets, _, ?_, hdone⟩⟩
              exact ⟨s.catalog, hmem, rfl, hagain, fun field h => by rw [hfield] at h; cases h⟩
          | some field =>
              refine next_inv (s := { s with looked := s.looked ++ [s.catalog] }) hmem ?_ hagain
                (sourced_found hmem hhandler hfield hagain)
              dsimp only
              omega
      | checking targets group left refused =>
          rw [hphase] at hhandler
          obtain ⟨hlooked, hgroup, hsourced⟩ := hhandler
          have hstays : 1 < (s.looked ++ [s.catalog]).length := by omega
          unfold Handler.step
          cases hfield : fieldOf request.intent with
          | none => exact ⟨hmem, hstays, hgroup, hsourced.look hlooked⟩
          | some field =>
              cases left with
              | nil => exact ⟨hmem, hstays, hgroup, hsourced.look hlooked⟩
              | cons target left =>
                  have hasked := sourced_asked hmem hphase hfield hgroup hsourced hfound
                  exact next_inv (s := { s with looked := s.looked ++ [s.catalog] }) hmem hstays
                    hgroup (hasked.look hlooked)
      | done result =>
          rw [hphase] at hhandler
          exact ⟨hmem, hhandler⟩

/--
**A group request is one group request**, however the fleet changes under it, as long as
its second lookup finds the group its first one found, and what was refused then is refused.
-/
theorem group_request_whole (stamp : Stamp) (request : GroupRequest) (catalog : MemoryCatalog)
    {beats : List Beat}
    (hfound : Along (Serving.step stamp request) (Serving.FoundAgain request)
      (.arrived catalog) beats) :
    (exec (Serving.step stamp request) (.arrived catalog) beats).Whole stamp request := by
  have hstep : ∀ (s : Serving) (beat : Beat), s.Inv stamp request → s.FoundAgain request beat →
      (s.step stamp request beat).Inv stamp request := fun s beat h hfound => inv_step h hfound
  have hinv : (exec (Serving.step stamp request) (.arrived catalog) beats).Inv stamp request :=
    exec_invariant hstep hfound ⟨List.mem_singleton_self catalog, rfl⟩
  intro submission hdone
  obtain ⟨_, hhandler⟩ := hinv
  rw [hdone] at hhandler
  obtain ⟨targets, group, hholding, hassemble⟩ := hhandler submission rfl
  obtain ⟨held, hheld, hsubmit⟩ := submitGroup_of_holding stamp hholding
  refine ⟨⟨held, hheld, hsubmit.trans hassemble⟩, ?_⟩
  obtain ⟨_, _, _, ⟨found, rfl, _⟩, _⟩ := hholding
  exact batch_of_assemble hassemble

theorem group_of_submitGroup {catalog : MemoryCatalog} {submission : Submission}
    (h : submitGroup stamp request catalog = .ok submission) : submission.group.isSome := by
  unfold submitGroup groupMembers at h
  cases hgroup : catalog.group request.group with
  | none =>
      rw [hgroup] at h
      cases h
  | some group =>
      rw [hgroup] at h
      obtain ⟨_, _, h⟩ := Devices.ok_of_bind (x := rejectDisabledField ..) h
      unfold assemble at h
      dsimp only at h
      split at h
      · cases h
      · obtain rfl := Except.ok.inj h
        rfl

/-- A recording verb whose group is gone by the second lookup is submitted as no group's. -/
theorem not_whole_of_gone {s : Serving} {targets : List DeviceId}
    (hphase : s.handler = .summary targets) (hverb : fieldOf request.intent = none)
    (hgone : s.catalog.group request.group = none) (hsome : targets ≠ []) :
    ¬ (s.step stamp request .handler).Whole stamp request := by
  have hnext : (s.step stamp request .handler).handler =
      .done (assemble stamp request targets none) := by
    simp only [Serving.step, hphase, Handler.step, hverb, hgone]
  obtain ⟨submission, hassemble, hgroup⟩ : ∃ submission,
      assemble stamp request targets none = .ok submission ∧ submission.group = none := by
    unfold assemble
    dsimp only
    rw [if_neg (by simpa using hsome)]
    exact ⟨_, rfl, rfl⟩
  intro h
  obtain ⟨⟨catalog, _, hsubmit⟩, _⟩ := h submission (by rw [hnext, hassemble])
  have hisSome := group_of_submitGroup hsubmit
  rw [hgroup] at hisSome
  cases hisSome

end Serving

/-! ## A group removed between the lookups -/

/-- `a` and `b`, in the group `lab`. -/
def pairDocument : Devices.RawConfig :=
  { labDocument with
    devices := labDocument.devices ++
      [⟨"b", secondHost, none, none, none, none, none, none, none, none, none, none, none, none⟩]
    groups := [⟨"lab", ["a", "b"], none, none⟩] }

def pairResolved : Devices.Resolved :=
  ⟨recorders.take 2, [⟨"lab", ["a", "b"], 8000000000, .failBatch⟩]⟩

example : Devices.resolveConfig newV5OfRecorders pairDocument = .ok pairResolved := by
  decide +kernel

def pairFleet : LiveFleet :=
  .new pairDocument pairResolved (.withMaxAttempts 3 1000000000) "devices.toml"

def startLab : GroupRequest := ⟨"lab", "recording/start", .startRecording, none⟩

/-- The next id, and always the same instant. -/
def stampOf (n : Nat) : WriteId × Timestamp :=
  (["w1", "w2", "w3"].getD n "w", ⟨"2024-01-01T10:00:00Z"⟩)

/-- What a change makes of the catalog, the devices first. -/
def beatsOf (fleet : LiveFleet) (change : Change) : List Beat :=
  let after := (fleet.change newV5OfRecorders change).1.catalog
  [.devices after.devices, .groups after.groups]

/-- Both members are sent the start on their own: no group, no batch, no barrier. -/
theorem group_request_split :
    ¬ (exec (Serving.step stampOf startLab) (.arrived pairFleet.catalog)
      (.handler :: beatsOf pairFleet (.removeGroup "lab") ++ [.handler])).Whole stampOf
        startLab := by
  intro h
  obtain ⟨_, hbatch⟩ := h
    ⟨["w1", "w2"], ["a", "b"], none, none, none, .startRecording, ⟨"2024-01-01T10:00:00Z"⟩, none⟩
    (by decide +kernel)
  exact absurd (hbatch rfl (by decide)) (by decide)

/-- A member moves to another port between the lookups, and the group is found as it was. -/
theorem group_request_whole_moved :
    (exec (Serving.step stampOf startLab) (.arrived pairFleet.catalog)
      (.handler :: beatsOf pairFleet
        (.replace "a" (deviceAt ⟨"10.0.0.1", by decide⟩ (some 22022) none)) ++ [.handler])).Whole
          stampOf startLab := by
  refine group_request_whole stampOf startLab pairFleet.catalog ?_
  have hquiet : ∀ {s : Serving} {beat : Beat}, beat ≠ .handler → s.FoundAgain startLab beat :=
    fun hne => ⟨fun hbeat => absurd hbeat hne, fun hbeat => absurd hbeat hne⟩
  -- a start names no field, so no member is asked
  have hunasked : ∀ {s : Serving}, (∀ targets, s.handler = .summary targets →
      ∃ group, s.catalog.group startLab.group = some group ∧ group.members = targets) →
      s.FoundAgain startLab .handler := fun hgroup =>
    ⟨fun _ => hgroup, fun _ _ _ _ _ _ _ _ hfield => by cases hfield⟩
  refine ⟨hunasked ?_, hquiet (by simp), hquiet (by simp), hunasked ?_, trivial⟩
  · intro targets hphase
    cases hphase
  · intro targets hphase
    obtain rfl := Handler.summary.inj hphase
    exact ⟨⟨"lab", ["a", "b"], 8, .failBatch⟩, by decide +kernel, rfl⟩

end Sismatic
