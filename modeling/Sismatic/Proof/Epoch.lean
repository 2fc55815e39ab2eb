import Sismatic.Proof.Sequential

/-!
# Takes are numbered

A device's epoch is the number of its latest take. Only the opening of a take, by an
admitted start or by a report that the recorder runs, moves it, and by one; nothing
else does, so a metadata write prepared while the device is idle carries the number
the next take opened is given.

The number is given when the take is opened and never taken back. A start that fails
for good has used its number up, and the take after it has the next one.
-/

namespace Sismatic

open MemoryOutbox

/-- The call opens a take on `d`: a submission or a report moves it from idle to recording. -/
def Opens (c : Chrono) (o : MemoryOutbox) (op : Op) (d : DeviceId) : Prop :=
  ((∃ s, op = .submit s) ∨ ∃ state, op = .observe d state) ∧
    o.desired d = .idle ∧ (step c o op).desired d = .recording

/-- A report finds `d`, believed idle, paused: a take began that was not seen to. -/
def FoundPaused (o : MemoryOutbox) (op : Op) (d : DeviceId) : Prop :=
  op = .observe d .paused ∧ o.desired d = .idle

section Epoch

variable {o : MemoryOutbox}

/-- Rows decided alike leave a device the epoch they were decided to. -/
theorem foldl_appendRow_epoch (s : Submission) {rows : List Row} {d : DeviceId}
    {before after : DesiredRecordingState} {epoch : Nat}
    (h : ∀ row ∈ rows, row.device = d → row.before = before ∧ row.after = after ∧
      row.epoch = epoch) :
    ((rows.foldl (appendRow s) o).logs d).epoch =
      if opensRecording before after = true ∧ d ∈ rows.map Row.device then epoch
      else (o.logs d).epoch := by
  induction rows generalizing o with
  | nil => simp
  | cons row rows ih =>
      rw [List.foldl_cons, ih fun row' hrow' => h row' (List.mem_cons_of_mem _ hrow')]
      by_cases hd : d = row.device
      · obtain ⟨hbefore, hafter, hepoch⟩ := h row (List.mem_cons_self ..) hd.symm
        subst hd
        rw [appendRow_logs_self]
        simp only [DeviceLog.push, hbefore, hafter, hepoch, List.map_cons, List.mem_cons,
          true_or, and_true]
        by_cases hopen : opensRecording before after = true
        · simp [hopen]
        · simp [hopen]
      · rw [appendRow_logs_of_ne s o row hd]
        simp [hd]

theorem opensRecording_iff {before after : DesiredRecordingState} :
    opensRecording before after = true ↔ before = .idle ∧ after = .recording := by
  cases before <;> cases after <;> simp [opensRecording]

/-- A submission advances the epoch of the devices it opens a take on, and no other. -/
theorem epoch_submit {s : Submission} (hnd : s.ids.Nodup) (d : DeviceId) :
    ((o.submit s).1.logs d).epoch =
      if o.desired d = .idle ∧ (o.submit s).1.desired d = .recording
      then (o.logs d).epoch + 1 else (o.logs d).epoch := by
  have hsame : (o.submit s).1 = o → ((o.submit s).1.logs d).epoch =
      if o.desired d = .idle ∧ (o.submit s).1.desired d = .recording
      then (o.logs d).epoch + 1 else (o.logs d).epoch := by
    intro heq
    rw [heq, if_neg]
    intro h
    rw [h.1] at h
    cases h.2
  have hspec := submit_spec o hnd
  generalize hres : (o.submit s).2 = res at hspec
  cases hspec with
  | refused e heq => exact hsame heq
  | replayed acceptance heq _ => exact hsame heq
  | appended rows hne hrep happ =>
      have hlen : s.ids.length = s.targets.length := by
        rw [← happ.ids, ← happ.targets, List.length_map, List.length_map]
      cases hadm : o.admitAll (Verb.of s.intent) (s.ids.zip s.targets) with
      | error e =>
          rw [submit_of_refused hne hlen hrep hadm] at hres
          cases hres
      | ok rows' =>
          obtain ⟨_, hlogs⟩ := submit_of_admitAll hne hlen hrep hadm
          obtain ⟨_, haccept⟩ := admitAll_spec hadm
          obtain ⟨_, htargets⟩ := admitAll_rows hlen hadm
          by_cases hd : d ∈ s.targets
          · -- every row of `d` was decided against the same state
            obtain ⟨row, hrow, rfl⟩ := List.mem_map.mp (happ.targets ▸ hd)
            have hafter := happ.desired row hrow
            obtain ⟨hb, ha, _⟩ := happ.admitted row hrow
            have hall : ∀ row' ∈ rows', row'.device = row.device →
                row'.before = o.desired row.device ∧ row'.after = row.after ∧
                  row'.epoch = epochOf (o.desired row.device) row.after
                    (o.logs row.device).epoch := by
              intro row' hrow' hdev
              obtain ⟨hb', ha', he'⟩ := haccept row' hrow'
              rw [hdev] at hb' he'
              have hafter' : row'.after = row.after := by
                rw [hb', ← hb, ha] at ha'
                exact (Except.ok.inj ha').symm
              exact ⟨hb', hafter', by rw [he', hb', hafter']⟩
            have hdesired : (o.submit s).1.desired row.device = row.after := hafter
            rw [hlogs, foldl_appendRow_epoch s hall, htargets, hdesired]
            by_cases hopen : o.desired row.device = .idle ∧ row.after = .recording
            · rw [if_pos ⟨opensRecording_iff.mpr hopen, hd⟩, if_pos hopen, hopen.1]
              rfl
            · rw [if_neg (fun h => hopen (opensRecording_iff.mp h.1)), if_neg hopen]
          · have hdesired : (o.submit s).1.desired d = o.desired d := by
              rw [MemoryOutbox.desired, happ.untouched d hd]
            rw [happ.untouched d hd, hdesired, if_neg]
            intro h
            rw [h.1] at h
            cases h.2

/-- **Only the opening of a take moves the epoch**, and by one. -/
theorem epoch_step (c : Chrono) (hc : Conserved o) {op : Op} (hfresh : Fresh o op) (d : DeviceId) :
    (Opens c o op d → ((step c o op).logs d).epoch = (o.logs d).epoch + 1) ∧
      (¬ Opens c o op d → ((step c o op).logs d).epoch = (o.logs d).epoch) := by
  have hkept : (∀ s, op ≠ .submit s) → (∀ state, op ≠ .observe d state) →
      (Opens c o op d → ((step c o op).logs d).epoch = (o.logs d).epoch + 1) ∧
        (¬ Opens c o op d → ((step c o op).logs d).epoch = (o.logs d).epoch) := by
    intro hsub hobs
    refine ⟨?_, fun _ => (log_step c hc hfresh hsub d).epoch hobs⟩
    intro hopen
    rcases hopen.1 with ⟨s, hs⟩ | ⟨state, hs⟩
    · exact absurd hs (hsub s)
    · exact absurd hs (hobs state)
  cases op with
  | submit s =>
      have hepoch := epoch_submit (o := o) hfresh.1 d
      refine ⟨?_, ?_⟩
      · intro hopen
        exact hepoch.trans (if_pos hopen.2)
      · intro hno
        exact hepoch.trans (if_neg fun h => hno ⟨.inl ⟨s, rfl⟩, h⟩)
  | observe d' state =>
      by_cases hd : d' = d
      · subst hd
        have hlog : (step c o (.observe d' state)).logs d' = _ := Function.update_self ..
        have hiff : Opens c o (.observe d' state) d' ↔
            opensRecording (o.logs d').desiredRecordingState
              (reconcile (o.logs d').desiredRecordingState state) = true := by
          rw [opensRecording_iff]
          unfold Opens MemoryOutbox.desired
          rw [hlog]
          refine ⟨fun h => h.2, ?_⟩
          intro h
          exact ⟨.inr ⟨state, rfl⟩, h⟩
        rw [hiff, hlog]
        exact ⟨fun h => if_pos h, fun h => if_neg h⟩
      · refine hkept (fun _ h => by cases h) ?_
        intro state' h
        exact hd (Op.observe.inj h).1
  | claimNext d' now => exact hkept (fun _ h => by cases h) fun _ h => by cases h
  | settle id outcome now => exact hkept (fun _ h => by cases h) fun _ h => by cases h
  | cancelQueued d' reason => exact hkept (fun _ h => by cases h) fun _ h => by cases h
  | cancelBatch b reason => exact hkept (fun _ h => by cases h) fun _ h => by cases h

/-- A write admitted on an idle device is stamped for the next take. -/
theorem stamp_of_idle (c : Chrono) (hc : Conserved o) {op : Op} (hfresh : Fresh o op) {w : WriteId}
    {r : WriteRecord} (hnone : o.records w = none) (hr : (step c o op).records w = some r)
    (hidle : o.desired r.device = .idle) : r.epoch = (o.logs r.device).epoch + 1 := by
  obtain ⟨s, rows, row, rfl, happ, hrow, _, rfl⟩ := record_new c hc hfresh hnone hr
  obtain ⟨hbefore, _, hepoch⟩ := happ.admitted row hrow
  have hbefore' : row.before = .idle := hbefore.trans hidle
  show row.epoch = _
  rw [hepoch, hbefore']
  rfl

/-- A metadata write opens no take. -/
theorem not_opens_of_metadata (c : Chrono) (hc : Conserved o) {op : Op} (hfresh : Fresh o op)
    {d : DeviceId} (h : Admits c o op d .writeMetadata) : ¬ Opens c o op d := by
  intro hopen
  have hadm := desired_of_admits c hc hfresh h
  rw [hopen.2.1, hopen.2.2] at hadm
  cases hadm

end Epoch

/-- Between takes the epoch stands still. -/
theorem epoch_between (c : Chrono) {o : MemoryOutbox} (hc : Conserved o) {d : DeviceId}
    {ops : List Op} (hrun : Machine.Along (step c) Fresh o ops)
    (hno : Machine.Along (step c) (fun o op => ¬ Opens c o op d) o ops) :
    ((Machine.exec (step c) o ops).logs d).epoch = (o.logs d).epoch := by
  have hstep : ∀ o₁ op, (Conserved o₁ ∧ (o₁.logs d).epoch = (o.logs d).epoch) →
      (Fresh o₁ op ∧ ¬ Opens c o₁ op d) →
      (Conserved (step c o₁ op) ∧ ((step c o₁ op).logs d).epoch = (o.logs d).epoch) := by
    intro o₁ op hinv hok
    exact ⟨conserved_step c hinv.1 hok.1,
      ((epoch_step c hinv.1 hok.1 d).2 hok.2).trans hinv.2⟩
  exact (Machine.exec_invariant hstep (Machine.along_and.mpr ⟨hrun, hno⟩) ⟨hc, rfl⟩).2

/--
**Epochs number the takes.** In every run from an empty outbox, no call lowers a
device's epoch; a call that opens a take on it advances it by one, and no other call
changes it, a report that finds the idle device paused left aside. A metadata write
admitted while the device is idle is stamped with the epoch the next take opened on it
is given, and so is the start that opens it, whatever becomes of that start; a report
that finds the device paused in between is left aside again.
-/
theorem epoch_discipline (c : Chrono) (n : Nat) (backoff : Duration) (ops : List Op)
    (hrun : Machine.Along (step c) Fresh (withMaxAttempts n backoff) ops) (d : DeviceId) :
    Machine.Along (step c) (fun o op => (o.logs d).epoch ≤ ((step c o op).logs d).epoch ∧
        (Opens c o op d → ((step c o op).logs d).epoch = (o.logs d).epoch + 1) ∧
        (¬ Opens c o op d → ¬ FoundPaused o op d →
          ((step c o op).logs d).epoch = (o.logs d).epoch))
      (withMaxAttempts n backoff) ops ∧
    ∀ earlier s between op later, ops = earlier ++ .submit s :: (between ++ op :: later) →
      ∀ o, o = Machine.exec (step c) (withMaxAttempts n backoff) earlier → o.desired d = .idle →
      ∀ w r, o.records w = none → (step c o (.submit s)).records w = some r → r.device = d →
        Verb.of r.intent = .writeMetadata →
      Machine.Along (step c) (fun o op => ¬ Opens c o op d ∧ ¬ FoundPaused o op d)
        (step c o (.submit s)) between →
      ∀ o', o' = Machine.exec (step c) (step c o (.submit s)) between → Opens c o' op d →
      ((step c o' op).logs d).epoch = r.epoch ∧
        ∀ v r', o'.records v = none → (step c o' op).records v = some r' → r'.device = d →
          r'.epoch = r.epoch := by
  refine ⟨?_, ?_⟩
  · have hstep : ∀ o op, Conserved o → Fresh o op → Conserved (step c o op) :=
      fun _ _ hc hf => conserved_step c hc hf
    refine Machine.along_of_invariant hstep ?_ hrun (conserved_init n backoff)
    intro o op hc hfresh
    obtain ⟨hopen, hshut⟩ := epoch_step c hc hfresh d
    refine ⟨?_, hopen, fun h _ => hshut h⟩
    by_cases h : Opens c o op d
    · rw [hopen h]
      exact Nat.le_succ _
    · exact le_of_eq (hshut h).symm
  · intro earlier s between op later hsplit o ho hidle w r hnone hr hdev hverb hbetween o' ho' hopen
    subst hsplit hdev
    rw [Machine.along_append, ← ho] at hrun
    obtain ⟨hearlier, hsubmit, hrest⟩ := hrun
    rw [Machine.along_append, ← ho'] at hrest
    have hc : Conserved o := ho ▸ conserved_run c n backoff hearlier
    have hc₁ : Conserved (step c o (.submit s)) := conserved_step c hc hsubmit
    have hc' : Conserved o' := ho' ▸ conserved_exec c hc₁ hrest.1
    -- from the stamp to the opening, the epoch is the one before the take
    have hstamp := stamp_of_idle c hc hsubmit hnone hr hidle
    have hshut := (epoch_step c hc hsubmit r.device).2
      (not_opens_of_metadata c hc hsubmit ⟨w, r, hnone, hr, rfl, hverb⟩)
    have hstill := epoch_between c hc₁ hrest.1 (hbetween.mono fun _ _ h => h.1)
    rw [← ho'] at hstill
    have hepoch : (o'.logs r.device).epoch + 1 = r.epoch := by omega
    refine ⟨?_, ?_⟩
    · rw [(epoch_step c hc' hrest.2.1 r.device).1 hopen, hepoch]
    · intro v r' hv hr' hdev'
      have hstamp' := stamp_of_idle c hc' hrest.2.1 hv hr' (by rw [hdev']; exact hopen.2.1)
      rw [hdev'] at hstamp'
      exact hstamp'.trans hepoch

/-- Prepare a title, start, and start again when the first start has failed for good. -/
def secondStart : List Op :=
  [writeTo "w1" (.setMetadata "TITLE" "x") "00", writeTo "w2" .startRecording "01",
    .claimNext "a" (tenOClock "02"), .settle "w1" (.succeeded (.text "x")) (tenOClock "03"),
    .claimNext "a" (tenOClock "04"),
    .settle "w2" (.failed "the device did not answer") (tenOClock "05"),
    writeTo "w3" .startRecording "06"]

/--
A report that finds an idle device paused moves it and not its epoch; and a title
prepared for a start that fails carries its number, while the take that does become
active carries the next.
-/
theorem epoch_mispredicted :
    ((withMaxAttempts 1 0).desired "a" = .idle ∧
      (step utc (withMaxAttempts 1 0) (.observe "a" .paused)).desired "a" = .paused ∧
      ((step utc (withMaxAttempts 1 0) (.observe "a" .paused)).logs "a").epoch
        = ((withMaxAttempts 1 0).logs "a").epoch) ∧
    ((Machine.exec (step utc) (withMaxAttempts 1 0) secondStart).records "w1").map
        WriteRecord.epoch = some 1 ∧
      ((Machine.exec (step utc) (withMaxAttempts 1 0) secondStart).records "w2").map
        WriteRecord.status = some (.failed "the device did not answer") ∧
      ((Machine.exec (step utc) (withMaxAttempts 1 0) secondStart).records "w3").map
        WriteRecord.epoch = some 2 := by
  refine ⟨⟨rfl, rfl, rfl⟩, ?_, ?_, ?_⟩
  · decide +kernel
  · decide +kernel
  · decide +kernel

/-- The title and the start behind it, of the run above, are one take. -/
theorem epoch_discipline_firstStart :
    ((Machine.exec (step utc) (withMaxAttempts 1 0) [writeTo "w1" (.setMetadata "TITLE" "x") "00",
      writeTo "w2" .startRecording "01"]).logs "a").epoch = 1 := by
  have hrun : Machine.Along (step utc) Fresh (withMaxAttempts 1 0)
      [writeTo "w1" (.setMetadata "TITLE" "x") "00", writeTo "w2" .startRecording "01"] :=
    ⟨fresh_writeTo rfl, fresh_writeTo rfl, trivial⟩
  exact ((epoch_discipline utc 1 0 _ hrun "a").2 [] _ [] (writeTo "w2" .startRecording "01") [] rfl
    _ rfl rfl "w1" _ rfl rfl rfl rfl trivial _ rfl ⟨.inl ⟨_, rfl⟩, rfl, rfl⟩).1

end Sismatic
