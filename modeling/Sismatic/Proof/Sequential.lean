import Sismatic.Proof.Line

/-!
# One request to many devices, or many requests to one each

A group submission decides every target against one state of the outbox and appends
the rows afterwards. Asked one device after another, each target would be decided
against what the ones before it left. The two agree when no target's decision can
depend on another's: the targets are distinct, or the verb leaves the recording
where it is. A device listed twice is told twice to start, stop or pause.
-/

namespace Sismatic

open MemoryOutbox

/-! ## One after another -/

/-- The same request to one device: what its own route would submit. -/
def Submission.alone (s : Submission) (id : WriteId) (device : DeviceId) : Submission :=
  { s with
    ids := [id], targets := [device], group := none, batch := none, barrier := none,
    idempotencyKey := none }

/-- The request made of each target in turn; the first refusal ends it. -/
def submitInTurn (s : Submission) :
    MemoryOutbox → List (WriteId × DeviceId) → Except SubmitError MemoryOutbox
  | o, [] => .ok o
  | o, (id, device) :: rest =>
      match o.submit (s.alone id device) with
      | (_, .error e) => .error e
      | (o, .ok _) => submitInTurn s o rest

/-- What the next admission and the next dispatch of every device go by. -/
structure SameStanding (o o' : MemoryOutbox) : Prop where
  queue : ∀ d, (o'.logs d).queue = (o.logs d).queue
  history : ∀ d, (o'.logs d).history = (o.logs d).history
  desired : ∀ d, o'.desired d = o.desired d
  epoch : ∀ d, (o'.logs d).epoch = (o.logs d).epoch

/-- The row the admission of one device on its own comes to. -/
def MemoryOutbox.rowFor (o : MemoryOutbox) (id : WriteId) (device : DeviceId)
    (after : DesiredRecordingState) : Row :=
  ⟨id, device, o.desired device, after, epochOf (o.desired device) after (o.logs device).epoch⟩

section Sequential

variable {s : Submission} {o o₁ : MemoryOutbox}

theorem submit_alone_refused {id : WriteId} {device : DeviceId} {rejection : Rejection}
    (h : admitVerb (o.desired device) (Verb.of s.intent) = .error rejection) :
    o.submit (s.alone id device) = (o, .error (.rejected device rejection (o.desired device))) := by
  have hadm : o.admitAll (Verb.of s.intent) [(id, device)]
      = .error (.rejected device rejection (o.desired device)) := by
    simp only [admitAll, h]
  simp [MemoryOutbox.submit, replayed, Submission.alone, hadm]

theorem submit_alone_accepted {id : WriteId} {device : DeviceId} {after : DesiredRecordingState}
    (h : admitVerb (o.desired device) (Verb.of s.intent) = .ok after) :
    o.submit (s.alone id device) = (appendRow (s.alone id device) o (o.rowFor id device after),
      .ok ⟨none, [(o.rowFor id device after).accepted]⟩) := by
  have hadm : o.admitAll (Verb.of s.intent) [(id, device)] = .ok [o.rowFor id device after] := by
    simp only [admitAll, h]
    rfl
  simp [MemoryOutbox.submit, replayed, Submission.alone, hadm, armBatch, expectGroup]

/-- Appending a row does to a device's standing what the row says, whoever asked for it. -/
theorem SameStanding.appendRow (h : SameStanding o o₁) (s s' : Submission) (row : Row) :
    SameStanding (appendRow s o row) (appendRow s' o₁ row) := by
  have hlog : ∀ d, d = row.device ∨ ((MemoryOutbox.appendRow s o row).logs d = o.logs d ∧
      (MemoryOutbox.appendRow s' o₁ row).logs d = o₁.logs d) := by
    intro d
    by_cases hd : d = row.device
    · exact .inl hd
    · exact .inr ⟨appendRow_logs_of_ne s o row hd, appendRow_logs_of_ne s' o₁ row hd⟩
  refine ⟨?_, ?_, ?_, ?_⟩
  · intro d
    rcases hlog d with rfl | ⟨h₁, h₂⟩
    · rw [appendRow_logs_self, appendRow_logs_self]
      exact congrArg (· ++ [row.id]) (h.queue _)
    · rw [h₁, h₂, h.queue]
  · intro d
    rcases hlog d with rfl | ⟨h₁, h₂⟩
    · rw [appendRow_logs_self, appendRow_logs_self]
      exact congrArg (· ++ [row.id]) (h.history _)
    · rw [h₁, h₂, h.history]
  · intro d
    unfold MemoryOutbox.desired
    rcases hlog d with rfl | ⟨h₁, h₂⟩
    · rw [appendRow_logs_self, appendRow_logs_self]
      rfl
    · rw [h₁, h₂]
      exact h.desired d
  · intro d
    rcases hlog d with rfl | ⟨h₁, h₂⟩
    · rw [appendRow_logs_self, appendRow_logs_self]
      simp only [DeviceLog.push, h.epoch]
    · rw [h₁, h₂, h.epoch]

/-- Admission looks at nothing but the targets' desired states and epochs. -/
theorem admitAll_congr {verb : Verb} {pairs : List (WriteId × DeviceId)}
    (h : ∀ p ∈ pairs, o₁.desired p.2 = o.desired p.2 ∧ (o₁.logs p.2).epoch = (o.logs p.2).epoch) :
    o₁.admitAll verb pairs = o.admitAll verb pairs := by
  induction pairs with
  | nil => rfl
  | cons pair pairs ih =>
      obtain ⟨id, device⟩ := pair
      obtain ⟨hdesired, hepoch⟩ := h (id, device) (List.mem_cons_self ..)
      have hrest := ih fun p hp => h p (List.mem_cons_of_mem _ hp)
      simp only [admitAll, hrest]
      rw [show (o₁.logs device).desiredRecordingState = (o.logs device).desiredRecordingState from
        hdesired, hepoch]

/-- A verb that asks nothing of the recorder leaves a device's desired state and epoch alone. -/
theorem appendRow_keeps {id : WriteId} {device : DeviceId} {after : DesiredRecordingState}
    (hverb : (Verb.of s.intent).target = none)
    (h : admitVerb (o.desired device) (Verb.of s.intent) = .ok after) (d : DeviceId) :
    (appendRow s o (o.rowFor id device after)).desired d = o.desired d ∧
      ((appendRow s o (o.rowFor id device after)).logs d).epoch = (o.logs d).epoch := by
  unfold desired
  by_cases hd : d = device
  · subst hd
    have hafter : after = o.desired d := by
      rw [← admitVerb_target h, hverb]
      rfl
    have hopen : opensRecording (o.desired d) after = false := by
      rw [hafter]
      cases o.desired d <;> rfl
    have hself := appendRow_logs_self s o (o.rowFor id d after)
    simp only [rowFor] at hself
    rw [rowFor, hself]
    simp only [DeviceLog.push, hopen]
    exact ⟨hafter, rfl⟩
  · rw [appendRow_logs_of_ne s o _ hd]
    exact ⟨rfl, rfl⟩

/-- What is admitted from one state, of devices that are distinct or of a verb that asks nothing
of a recorder, is admitted in turn, and comes to the same. -/
theorem submitInTurn_of_admitAll {pairs : List (WriteId × DeviceId)} {rows : List Row}
    (hsame : SameStanding o o₁) (hadm : o.admitAll (Verb.of s.intent) pairs = .ok rows)
    (hwhy : (pairs.map Prod.snd).Nodup ∨ (Verb.of s.intent).target = none) :
    ∃ o', submitInTurn s o₁ pairs = .ok o' ∧ SameStanding (rows.foldl (appendRow s) o) o' := by
  -- on the targets still to come; what is carried is that both states stand alike
  induction pairs generalizing o o₁ rows with
  | nil =>
      simp only [admitAll, Except.ok.injEq] at hadm
      subst hadm
      exact ⟨o₁, rfl, hsame⟩
  | cons pair pairs ih =>
      obtain ⟨id, device⟩ := pair
      simp only [admitAll] at hadm
      cases haccept : admitVerb (o.logs device).desiredRecordingState (Verb.of s.intent) with
      | error rejection => rw [haccept] at hadm; cases hadm
      | ok after =>
          rw [haccept] at hadm
          cases hrest : o.admitAll (Verb.of s.intent) pairs with
          | error e => rw [hrest] at hadm; cases hadm
          | ok rest =>
              rw [hrest] at hadm
              simp only [Except.ok.injEq] at hadm
              subst hadm
              have haccept₁ : admitVerb (o₁.desired device) (Verb.of s.intent) = .ok after := by
                rw [hsame.desired]
                exact haccept
              have hrow : o₁.rowFor id device after = o.rowFor id device after := by
                simp only [rowFor, hsame.desired, hsame.epoch]
              have hnext := hsame.appendRow s (s.alone id device) (o.rowFor id device after)
              -- the targets still to come are decided as they were before this one
              have hstill : (appendRow s o (o.rowFor id device after)).admitAll (Verb.of s.intent)
                  pairs = .ok rest := by
                rw [← hrest]
                refine admitAll_congr ?_
                intro p hp
                rcases hwhy with hnd | hverb
                · rw [List.map_cons, List.nodup_cons] at hnd
                  have hne : p.2 ≠ device := by
                    intro he
                    exact hnd.1 (List.mem_map.mpr ⟨p, hp, he⟩)
                  unfold desired
                  rw [appendRow_logs_of_ne s o _ hne]
                  exact ⟨rfl, rfl⟩
                · exact appendRow_keeps hverb haccept p.2
              have hwhy' : (pairs.map Prod.snd).Nodup ∨ (Verb.of s.intent).target = none := by
                rcases hwhy with hnd | hverb
                · rw [List.map_cons, List.nodup_cons] at hnd
                  exact .inl hnd.2
                · exact .inr hverb
              obtain ⟨o', hturn, hstand⟩ := ih hnext hstill hwhy'
              refine ⟨o', ?_, hstand⟩
              rw [submitInTurn, submit_alone_accepted haccept₁, hrow]
              exact hturn

/-- A lifecycle verb just admitted is refused by the state it leaves. -/
theorem admitVerb_again {before after : DesiredRecordingState} {verb : Verb}
    (h : admitVerb before verb = .ok after) (hverb : verb.target ≠ none) :
    ∃ rejection, admitVerb after verb = .error rejection := by
  cases before <;> cases verb <;> simp [admitVerb, Verb.target] at h hverb <;> subst h <;>
    exact ⟨_, rfl⟩

/-- A device that refuses the verb ends the turns at the first target it is. -/
theorem not_mem_of_inTurn {pairs : List (WriteId × DeviceId)} {o' : MemoryOutbox} {d : DeviceId}
    {rejection : Rejection} (href : admitVerb (o.desired d) (Verb.of s.intent) = .error rejection)
    (h : submitInTurn s o pairs = .ok o') : d ∉ pairs.map Prod.snd := by
  induction pairs generalizing o with
  | nil => simp
  | cons pair pairs ih =>
      obtain ⟨id, device⟩ := pair
      rw [List.map_cons, List.mem_cons, not_or]
      rw [submitInTurn] at h
      cases haccept : admitVerb (o.desired device) (Verb.of s.intent) with
      | error rejection' =>
          rw [submit_alone_refused haccept] at h
          cases h
      | ok after =>
          rw [submit_alone_accepted haccept] at h
          have hne : d ≠ device := by
            intro hd
            rw [← hd, href] at haccept
            cases haccept
          refine ⟨hne, ih ?_ h⟩
          unfold desired
          rw [appendRow_logs_of_ne _ o _ hne]
          exact href

/-- A lifecycle verb taken by each target in turn was taken by distinct devices. -/
theorem nodup_of_inTurn {pairs : List (WriteId × DeviceId)} {o' : MemoryOutbox}
    (hverb : (Verb.of s.intent).target ≠ none) (h : submitInTurn s o pairs = .ok o') :
    (pairs.map Prod.snd).Nodup := by
  induction pairs generalizing o with
  | nil => exact List.nodup_nil
  | cons pair pairs ih =>
      obtain ⟨id, device⟩ := pair
      rw [submitInTurn] at h
      cases haccept : admitVerb (o.desired device) (Verb.of s.intent) with
      | error rejection =>
          rw [submit_alone_refused haccept] at h
          cases h
      | ok after =>
          rw [submit_alone_accepted haccept] at h
          rw [List.map_cons, List.nodup_cons]
          refine ⟨?_, ih h⟩
          obtain ⟨rejection, href⟩ := admitVerb_again haccept hverb
          have hnow : (appendRow (s.alone id device) o (o.rowFor id device after)).desired device
              = after := by
            have hself := appendRow_logs_self (s.alone id device) o (o.rowFor id device after)
            exact congrArg DeviceLog.desiredRecordingState hself
          exact not_mem_of_inTurn (hnow.symm ▸ href) h

/-- A snapshot that admits no target's refusal admits them all, and the other way round. -/
theorem admitAll_error_iff {verb : Verb} {pairs : List (WriteId × DeviceId)} :
    (∃ e, o.admitAll verb pairs = .error e) ↔
      ∃ d ∈ pairs.map Prod.snd, ∃ rejection, admitVerb (o.desired d) verb = .error rejection := by
  induction pairs with
  | nil => simp [admitAll]
  | cons pair pairs ih =>
      obtain ⟨id, device⟩ := pair
      rw [List.map_cons, List.exists_mem_cons_iff, ← ih]
      cases haccept : admitVerb (o.desired device) verb with
      | error rejection =>
          have hadm : o.admitAll verb ((id, device) :: pairs)
              = .error (.rejected device rejection (o.desired device)) := by
            simp only [admitAll, show admitVerb (o.logs device).desiredRecordingState verb = _
              from haccept]
          rw [hadm]
          simp
      | ok after =>
          have hhead : admitVerb (o.logs device).desiredRecordingState verb = .ok after := haccept
          simp only [admitAll, hhead]
          cases o.admitAll verb pairs with
          | error e => simp
          | ok rows => simp

end Sequential

/-! ## When the two agree -/

/-- What the port promises of a submission: refused it changes nothing, and accepted it
leaves every device as its sequential admission would. -/
structure AsInTurn (o : MemoryOutbox) (s : Submission) : Prop where
  refused : ∀ e, (o.submit s).2 = .error e → (o.submit s).1 = o
  accepted : ∀ acceptance, (o.submit s).2 = .ok acceptance →
    ∃ o', submitInTurn s o (s.ids.zip s.targets) = .ok o' ∧ SameStanding (o.submit s).1 o'
  /-- No device is started twice. -/
  oneStart : s.intent = .startRecording →
    ∀ d, ((o.submit s).1.logs d).history.length ≤ (o.logs d).history.length + 1

/-- The state an accepted submission leaves, its rows appended in order. -/
theorem submit_of_admitAll {o : MemoryOutbox} {s : Submission} {rows : List Row}
    (hne : s.targets ≠ []) (hlen : s.ids.length = s.targets.length) (hrep : o.replayed s = none)
    (hadm : o.admitAll (Verb.of s.intent) (s.ids.zip s.targets) = .ok rows) :
    (o.submit s).2 = .ok ⟨s.batch, rows.map Row.accepted⟩ ∧
      (o.submit s).1.logs = (rows.foldl (appendRow s) o).logs := by
  have hsub : o.submit s = (armBatch s (expectGroup s (rows.foldl (appendRow s) o)),
      .ok ⟨s.batch, rows.map Row.accepted⟩) := by
    rw [MemoryOutbox.submit, if_neg hne, if_neg (not_not.mpr hlen), hrep, hadm]
  rw [hsub]
  refine ⟨rfl, ?_⟩
  exact (armBatch_frame s _).1.trans (expectGroup_frame s _).1

theorem submit_of_refused {o : MemoryOutbox} {s : Submission} {e : SubmitError}
    (hne : s.targets ≠ []) (hlen : s.ids.length = s.targets.length) (hrep : o.replayed s = none)
    (hadm : o.admitAll (Verb.of s.intent) (s.ids.zip s.targets) = .error e) :
    o.submit s = (o, .error e) := by
  rw [MemoryOutbox.submit, if_neg hne, if_neg (not_not.mpr hlen), hrep, hadm]

theorem SameStanding.of_logs {o o' o'' : MemoryOutbox} (h : SameStanding o o'')
    (hlogs : o'.logs = o.logs) : SameStanding o' o'' where
  queue := fun d => by rw [hlogs, h.queue]
  history := fun d => by rw [hlogs, h.history]
  desired := fun d => by rw [h.desired, MemoryOutbox.desired, MemoryOutbox.desired, hlogs]
  epoch := fun d => by rw [hlogs, h.epoch]

theorem SameStanding.refl (o : MemoryOutbox) : SameStanding o o :=
  ⟨fun _ => rfl, fun _ => rfl, fun _ => rfl, fun _ => rfl⟩

/--
**A group submission is its sequential admission, exactly when no device is asked
twice for a change of its recording.** Of any state, and any well-formed submission
under a key no target has used: it is refused whole, or admitted as if each target had
been asked in turn, if and only if its targets are distinct, or its verb asks nothing
of a recorder, or some target refuses it.
-/
theorem asInTurn_iff (o : MemoryOutbox) (s : Submission) (hne : s.targets ≠ [])
    (hlen : s.ids.length = s.targets.length)
    (hunused : ∀ k, s.idempotencyKey = some k → ∀ d ∈ s.targets, (o.logs d).keys k = none) :
    AsInTurn o s ↔ s.targets.Nodup ∨ (Verb.of s.intent).target = none ∨
      ∃ d ∈ s.targets, ∃ rejection, admitVerb (o.desired d) (Verb.of s.intent) = .error rejection := by
  have hrep : o.replayed s = none := by
    obtain ⟨t, ts, ht⟩ := List.exists_cons_of_ne_nil hne
    cases hk : s.idempotencyKey with
    | none => simp [replayed, hk]
    | some k =>
        have hnone := hunused k hk t (by rw [ht]; exact List.mem_cons_self ..)
        simp [replayed, hk, ht, hnone]
  have hzip : (s.ids.zip s.targets).map Prod.snd = s.targets :=
    List.map_snd_zip (by omega)
  cases hadm : o.admitAll (Verb.of s.intent) (s.ids.zip s.targets) with
  | error e =>
      have hsub := submit_of_refused hne hlen hrep hadm
      have href := admitAll_error_iff.mp ⟨e, hadm⟩
      rw [hzip] at href
      refine iff_of_true ⟨?_, ?_, ?_⟩ (.inr (.inr href))
      · intro _ _
        rw [hsub]
      · intro acceptance hok
        rw [hsub] at hok
        cases hok
      · intro _ d
        rw [hsub]
        exact Nat.le_succ _
  | ok rows =>
      obtain ⟨hans, hlogs⟩ := submit_of_admitAll hne hlen hrep hadm
      have hno : ¬ ∃ d ∈ s.targets, ∃ rejection,
          admitVerb (o.desired d) (Verb.of s.intent) = .error rejection := by
        rw [← hzip, ← admitAll_error_iff, hadm]
        simp
      obtain ⟨_, hdevs⟩ := admitAll_rows hlen hadm
      refine ⟨?_, ?_⟩
      · intro h
        obtain ⟨o', hturn, _⟩ := h.accepted _ hans
        by_cases hverb : (Verb.of s.intent).target = none
        · exact .inr (.inl hverb)
        · exact .inl (hzip ▸ nodup_of_inTurn hverb hturn)
      · intro h
        have hwhy : s.targets.Nodup ∨ (Verb.of s.intent).target = none :=
          h.imp_right fun h' => h'.resolve_right hno
        refine ⟨?_, ?_, ?_⟩
        · intro e herr
          rw [hans] at herr
          cases herr
        · intro _ _
          obtain ⟨o', hturn, hstand⟩ :=
            submitInTurn_of_admitAll (.refl o) hadm (by rw [hzip]; exact hwhy)
          exact ⟨o', hturn, hstand.of_logs hlogs⟩
        · intro hstart d
          have hnd : s.targets.Nodup := by
            refine hwhy.resolve_right ?_
            rw [hstart]
            exact fun h => by cases h
          rw [hlogs, (foldl_appendRow_queue s rows o d).2, List.length_append, onLane_length, hdevs]
          have hcount := List.nodup_iff_count_le_one.mp hnd d
          omega

/-- Start a group whose configuration lists `a` twice. -/
def startTwice : Submission where
  ids := ["w1", "w2"]
  targets := ["a", "a"]
  group := some "hall"
  batch := some "b"
  barrier := some ⟨15 * 1000000000, .failBatch⟩
  intent := .startRecording
  atTime := tenOClock "00"
  idempotencyKey := none

/-- Both rows are admitted, so one request puts two starts on the one recorder. -/
theorem startTwice_starts_twice :
    ¬ AsInTurn (withMaxAttempts 3 1000000000) startTwice := by
  intro h
  exact absurd (h.oneStart rfl "a") (by decide +kernel)

/-- The exact condition, on that request. -/
theorem asInTurn_iff_startTwice :
    AsInTurn (withMaxAttempts 3 1000000000) startTwice ↔
      startTwice.targets.Nodup ∨ (Verb.of startTwice.intent).target = none ∨
        ∃ d ∈ startTwice.targets, ∃ rejection,
          admitVerb ((withMaxAttempts 3 1000000000).desired d) (Verb.of startTwice.intent)
            = .error rejection :=
  asInTurn_iff (withMaxAttempts 3 1000000000) startTwice (by decide) rfl
    fun _ h => by cases h

end Sismatic
