import Sismatic.Proof.Desired

/-!
# How long a start seals the metadata

An admitted start leaves its device's desired state off `Idle`, and only three things
bring it back: a stop, a poll that saw the recorder stopped, and a start that failed
for good, whose rollback cannot tell which start it undoes. Short of those, metadata
stays sealed until the start has ended. A further start is another matter: the table
admits it as a resume once the take is paused.
-/

namespace Sismatic

open MemoryOutbox

/--
Nothing but the start `w` itself unseals `d` in this call: no stop of `d` is admitted,
no poll reports it stopped, and no other start of it fails for good.
-/
def LeftSealed (c : Chrono) (d : DeviceId) (w : WriteId) (o : MemoryOutbox) (op : Op) : Prop :=
  ¬ Admits c o op d .stop ∧ op ≠ .observe d .stopped ∧
    ∀ v r, Fails c o op v r → r.device = d → Verb.of r.intent = .start → v = w

/-- No pause of `d` is admitted in this call, and no poll reports it paused. -/
def NotPaused (c : Chrono) (d : DeviceId) (o : MemoryOutbox) (op : Op) : Prop :=
  ¬ Admits c o op d .pause ∧ op ≠ .observe d .paused

/-- The start `w` of `d` has ended, or `d`'s desired state is in `states`. -/
def SealedIn (states : DesiredRecordingState → Prop) (d : DeviceId) (w : WriteId)
    (o : MemoryOutbox) : Prop :=
  ∃ r, o.records w = some r ∧ (¬ r.status.terminal → states (o.desired d))

/-! ## The table, sealed -/

theorem admitVerb_ne_idle {s s' : DesiredRecordingState} {verb : Verb} (hs : s ≠ .idle)
    (hverb : verb ≠ .stop) (h : admitVerb s verb = .ok s') : s' ≠ .idle := by
  cases s <;> cases verb <;> simp_all [admitVerb] <;> subst h <;> simp

theorem admitVerb_recording {s' : DesiredRecordingState} {verb : Verb} (hstop : verb ≠ .stop)
    (hpause : verb ≠ .pause) (h : admitVerb .recording verb = .ok s') : s' = .recording := by
  cases verb <;> simp_all [admitVerb]

theorem reconcile_ne_idle {s : DesiredRecordingState} {state : RecordingState} (hs : s ≠ .idle)
    (hstate : state ≠ .stopped) : reconcile s state ≠ .idle := by
  cases state <;> simp_all [reconcile]

theorem rollback_ne_idle {s : DesiredRecordingState} {verb : Verb} (hs : s ≠ .idle)
    (hverb : verb ≠ .start) : rollback s verb ≠ .idle := by
  cases s <;> cases verb <;> simp_all [rollback]

section Sealed

variable {o : MemoryOutbox} {d : DeviceId} {w : WriteId}

/--
Being sealed is kept by any set of states that the other three writers keep, a failed
start of `d` being the sealing one.
-/
theorem sealedIn_step (c : Chrono) (hc : Conserved o) {op : Op} (hfresh : Fresh o op)
    {states : DesiredRecordingState → Prop} (h : SealedIn states d w o)
    (haccept : ∀ verb s', Admits c o op d verb → states (o.desired d) →
      admitVerb (o.desired d) verb = .ok s' → states s')
    (hobserve : ∀ state, op = .observe d state → states (o.desired d) →
      states (reconcile (o.desired d) state))
    (hrollback : ∀ v r, Fails c o op v r → r.device = d → v ≠ w → states (o.desired d) →
      states (rollback (o.desired d) (Verb.of r.intent))) :
    SealedIn states d w (step c o op) := by
  obtain ⟨r, hr, hsealed⟩ := h
  obtain ⟨r', hr', hev⟩ := record_step c hc hfresh hr
  refine ⟨r', hr', ?_⟩
  intro hopen'
  have hopen : ¬ r.status.terminal := fun ht => hopen' (hev.terminal ht ▸ ht)
  have hs := hsealed hopen
  cases desired_step c hc hfresh d with
  | kept heq => rw [heq]; exact hs
  | admitted verb hadm htable => exact haccept verb _ hadm hs htable
  | observed state hop heq => rw [heq]; exact hobserve state hop hs
  | rolledBack v rv hfail hdev heq =>
      by_cases hv : v = w
      · -- the sealing start itself failed, so it has ended
        subst hv
        obtain ⟨_, _, r₁, reason, hr₁, hst₁⟩ := hfail
        obtain rfl := Option.some.inj (hr'.symm.trans hr₁)
        rw [hst₁] at hopen'
        exact absurd rfl hopen'
      · rw [heq]
        exact hrollback v rv hfail hdev hv hs

theorem sealed_step (c : Chrono) (hc : Conserved o) {op : Op} (hfresh : Fresh o op)
    (h : SealedIn (· ≠ .idle) d w o) (hleft : LeftSealed c d w o op) :
    SealedIn (· ≠ .idle) d w (step c o op) := by
  obtain ⟨hstop, hpoll, hstart⟩ := hleft
  refine sealedIn_step c hc hfresh h ?_ ?_ ?_
  · intro verb s' hadm hs htable
    refine admitVerb_ne_idle hs ?_ htable
    intro h'
    subst h'
    exact hstop hadm
  · intro state hop hs
    refine reconcile_ne_idle hs ?_
    intro h'
    subst h'
    exact hpoll hop
  · intro v r hfail hdev hv hs
    exact rollback_ne_idle hs fun hverb => hv (hstart v r hfail hdev hverb)

theorem running_step (c : Chrono) (hc : Conserved o) {op : Op} (hfresh : Fresh o op)
    (h : SealedIn (· = .recording) d w o) (hleft : LeftSealed c d w o op)
    (hpause : NotPaused c d o op) : SealedIn (· = .recording) d w (step c o op) := by
  obtain ⟨hstop, hpoll, hstart⟩ := hleft
  refine sealedIn_step c hc hfresh h ?_ ?_ ?_
  · intro verb s' hadm hs htable
    rw [hs] at htable
    refine admitVerb_recording ?_ ?_ htable
    · intro h'
      subst h'
      exact hstop hadm
    · intro h'
      subst h'
      exact hpause.1 hadm
  · intro state hop hs
    rw [hs]
    cases state with
    | unknown => rfl
    | started => rfl
    | stopped => exact absurd hop hpoll
    | paused => exact absurd hop hpause.2
  · intro v r hfail hdev hv hs
    rw [hs]
    cases hverb : Verb.of r.intent with
    | start => exact absurd (hstart v r hfail hdev hverb) hv
    | _ => rfl

end Sealed

/--
**A start seals the metadata until it has ended**, in any run, as long as no stop of
its device is admitted, no poll reports the device stopped and no other start of it
fails for good. No further start is admitted either, unless the take was paused.
-/
theorem freeze_safety (c : Chrono) (n : Nat) (backoff : Duration) (before after : List Op)
    (hbefore : Machine.Along (step c) Fresh (withMaxAttempts n backoff) before)
    (o : MemoryOutbox) (ho : o = Machine.exec (step c) (withMaxAttempts n backoff) before)
    (start : Op) (hstart : Fresh o start) (d : DeviceId) (w : WriteId) (r : WriteRecord)
    (hnone : o.records w = none) (hr : (step c o start).records w = some r) (hdev : r.device = d)
    (hverb : Verb.of r.intent = .start)
    (hafter : Machine.Along (step c) (fun o op => Fresh o op ∧ LeftSealed c d w o op)
      (step c o start) after)
    (o' : MemoryOutbox) (ho' : o' = Machine.exec (step c) (step c o start) after)
    (r' : WriteRecord) (hr' : o'.records w = some r') (hopen : ¬ r'.status.terminal)
    (op : Op) (hop : Fresh o' op) :
    ¬ Admits c o' op d .writeMetadata ∧
      (Machine.Along (step c) (NotPaused c d) (step c o start) after → ¬ Admits c o' op d .start) := by
  have hc : Conserved o := ho ▸ conserved_run c n backoff hbefore
  have hc₁ := conserved_step c hc hstart
  -- the table admits a start into `Recording` only, whatever it was admitted from
  have hrec : (step c o start).desired d = .recording := by
    have htable := desired_of_admits c hc hstart ⟨w, r, hnone, hr, hdev, hverb⟩
    generalize (step c o start).desired d = s' at htable
    cases hs : o.desired d <;> rw [hs] at htable <;> simp_all [admitVerb]
  have hc' : Conserved o' := by
    rw [ho']
    have hstep : ∀ o op, Conserved o → (Fresh o op ∧ LeftSealed c d w o op) →
        Conserved (step c o op) := fun _ _ h hf => conserved_step c h hf.1
    exact Machine.exec_invariant hstep hafter hc₁
  have hstill : ∀ {states}, SealedIn states d w o' → states (o'.desired d) := by
    intro states h'
    obtain ⟨r₁, hr₁, hsealed⟩ := h'
    obtain rfl := Option.some.inj (hr'.symm.trans hr₁)
    exact hsealed hopen
  refine ⟨?_, ?_⟩
  -- metadata: the invariant is that the desired state is off `Idle`
  · intro hadm
    have hstep : ∀ o op, (Conserved o ∧ SealedIn (· ≠ .idle) d w o) →
        (Fresh o op ∧ LeftSealed c d w o op) →
        (Conserved (step c o op) ∧ SealedIn (· ≠ .idle) d w (step c o op)) := fun _ _ h hf =>
      ⟨conserved_step c h.1 hf.1, sealed_step c h.1 hf.1 h.2 hf.2⟩
    have hsealed := (Machine.exec_invariant hstep hafter
      ⟨hc₁, r, hr, fun _ => by rw [hrec]; simp⟩).2
    rw [← ho'] at hsealed
    have htable := desired_of_admits c hc' hop hadm
    cases hs : o'.desired d with
    | idle => exact hstill hsealed hs
    | recording => rw [hs] at htable; cases htable
    | paused => rw [hs] at htable; cases htable
  -- a further start: without a pause the desired state is `Recording` throughout
  · intro hpause hadm
    have hstep : ∀ o op, (Conserved o ∧ SealedIn (· = .recording) d w o) →
        ((Fresh o op ∧ LeftSealed c d w o op) ∧ NotPaused c d o op) →
        (Conserved (step c o op) ∧ SealedIn (· = .recording) d w (step c o op)) := fun _ _ h hf =>
      ⟨conserved_step c h.1 hf.1.1, running_step c h.1 hf.1.1 h.2 hf.1.2 hf.2⟩
    have hrunning := (Machine.exec_invariant hstep (Machine.along_and.mpr ⟨hafter, hpause⟩)
      ⟨hc₁, r, hr, fun _ => hrec⟩).2
    rw [← ho'] at hrunning
    have htable := desired_of_admits c hc' hop hadm
    rw [hstill hrunning] at htable
    cases htable

/-! ## What unseals it -/

/-- A call admits `verb` only as a submission of that verb. -/
theorem not_admits_of_verb (c : Chrono) {o : MemoryOutbox} (hc : Conserved o) {op : Op}
    (hfresh : Fresh o op) {d : DeviceId} {verb : Verb}
    (hop : ∀ s, op = .submit s → Verb.of s.intent ≠ verb) : ¬ Admits c o op d verb := by
  intro h
  obtain ⟨w, r, hnone, hr, _, hverb⟩ := h
  obtain ⟨s, _, row, hs, _, _, _, rfl⟩ := record_new c hc hfresh hnone hr
  exact hop s hs hverb

theorem not_admits_along (c : Chrono) {o : MemoryOutbox} (hc : Conserved o) {d : DeviceId}
    {verb : Verb} {ops : List Op} (hfresh : Machine.Along (step c) Fresh o ops)
    (hops : ∀ op ∈ ops, ∀ s, op = .submit s → Verb.of s.intent ≠ verb) :
    Machine.Along (step c) (fun o op => ¬ Admits c o op d verb) o ops := by
  have hrun := Machine.along_and.mpr ⟨hfresh, Machine.along_of_mem hops⟩
  exact Machine.along_of_invariant (fun _ _ hc hok => conserved_step c hc hok.1)
    (fun _ _ hc hok => not_admits_of_verb c hc hok.1 hok.2) hrun hc

/--
The start `w` of `d`, admitted by `start` after `before`, is still to end after
`after`, in which no stop of `d` was admitted; and yet `op` is admitted as a `verb`.
-/
structure Unseals (c : Chrono) (o : MemoryOutbox) (d : DeviceId) (w : WriteId)
    (before : List Op) (start : Op) (after : List Op) (op : Op) (verb : Verb) : Prop where
  fresh : Machine.Along (step c) Fresh o (before ++ start :: after ++ [op])
  started : ∃ r, (Machine.exec (step c) o before).records w = none ∧
    (Machine.exec (step c) o (before ++ [start])).records w = some r ∧ r.device = d ∧
    Verb.of r.intent = .start
  unended : ∃ r, (Machine.exec (step c) o (before ++ start :: after)).records w = some r ∧
    ¬ r.status.terminal
  unstopped : Machine.Along (step c) (fun o op => ¬ Admits c o op d .stop)
    (Machine.exec (step c) o (before ++ [start])) after
  admitted : Admits c (Machine.exec (step c) o (before ++ start :: after)) op d verb

/-- A run unseals `d` if its records say so before and after the calls in question. -/
theorem unseals_of_records (c : Chrono) (n : Nat) (backoff : Duration) {d : DeviceId}
    {w v : WriteId} {before after : List Op} {start op : Op} {verb : Verb}
    (hfresh : Machine.Along (step c) Fresh (withMaxAttempts n backoff)
      (before ++ start :: after ++ [op]))
    (hnone : (Machine.exec (step c) (withMaxAttempts n backoff) before).records w = none)
    (hstart : ((Machine.exec (step c) (withMaxAttempts n backoff) (before ++ [start])).records w).any
      fun r => decide (r.device = d ∧ Verb.of r.intent = .start))
    (hopen : ((Machine.exec (step c) (withMaxAttempts n backoff)
      (before ++ start :: after)).records w).any fun r => decide (¬ r.status.terminal))
    (hstop : ∀ op ∈ after, ∀ s, op = .submit s → Verb.of s.intent ≠ .stop)
    (hnew : (Machine.exec (step c) (withMaxAttempts n backoff)
      (before ++ start :: after)).records v = none)
    (haccept : ((Machine.exec (step c) (withMaxAttempts n backoff)
      (before ++ start :: after ++ [op])).records v).any
      fun r => decide (r.device = d ∧ Verb.of r.intent = verb)) :
    Unseals c (withMaxAttempts n backoff) d w before start after op verb where
  fresh := hfresh
  started := by
    obtain ⟨r, hr, h⟩ := (Option.any_eq_true ..).mp hstart
    obtain ⟨hdev, hverb⟩ := of_decide_eq_true h
    exact ⟨r, hnone, hr, hdev, hverb⟩
  unended := by
    obtain ⟨r, hr, h⟩ := (Option.any_eq_true ..).mp hopen
    exact ⟨r, hr, of_decide_eq_true h⟩
  unstopped := by
    have hrun := (Machine.along_append.mp hfresh).1
    rw [List.append_cons, Machine.along_append] at hrun
    exact not_admits_along c (conserved_run c n backoff hrun.1) hrun.2 hstop
  admitted := by
    obtain ⟨r, hr, h⟩ := (Option.any_eq_true ..).mp haccept
    obtain ⟨hdev, hverb⟩ := of_decide_eq_true h
    rw [Machine.exec_append] at hr
    exact ⟨v, r, hnew, hr, hdev, hverb⟩

/--
A poll that reports the recorder stopped while its start still waits in the queue
unseals the metadata; a pause lets a second start in; and the terminal failure of an
earlier start unseals it under a later one.
-/
theorem freeze_unsealed :
    Unseals utc (withMaxAttempts 3 1000000000) "a" "w1" []
        (writeTo "w1" .startRecording "00") [.observe "a" .stopped]
        (writeTo "w2" (.setMetadata "TITLE" "x") "02") .writeMetadata ∧
      Unseals utc (withMaxAttempts 3 1000000000) "a" "w1" []
        (writeTo "w1" .startRecording "00") [writeTo "w2" .pauseRecording "01"]
        (writeTo "w3" .startRecording "02") .start ∧
      Unseals utc (withMaxAttempts 1 1000000000) "a" "w3"
        [writeTo "w1" .startRecording "00", .claimNext "a" (tenOClock "00"),
          writeTo "w2" .stopRecording "01"]
        (writeTo "w3" .startRecording "02")
        [.settle "w1" (.failed "the device did not answer") (tenOClock "03")]
        (writeTo "w4" (.setMetadata "TITLE" "x") "04") .writeMetadata := by
  refine ⟨?_, ?_, ?_⟩
  · refine unseals_of_records (v := "w2") utc 3 1000000000
      ⟨fresh_writeTo rfl, trivial, fresh_writeTo rfl, trivial⟩ rfl (by decide +kernel)
      (by decide +kernel) ?_ (by decide +kernel) (by decide +kernel)
    simp
  · refine unseals_of_records (v := "w3") utc 3 1000000000
      ⟨fresh_writeTo rfl, fresh_writeTo rfl, fresh_writeTo rfl, trivial⟩ rfl (by decide +kernel)
      (by decide +kernel) ?_ (by decide +kernel) (by decide +kernel)
    simp [writeTo, Verb.of]
  · refine unseals_of_records (v := "w4") utc 1 1000000000
      ⟨fresh_writeTo rfl, trivial, fresh_writeTo (by decide +kernel),
        fresh_writeTo (by decide +kernel), trivial, fresh_writeTo (by decide +kernel), trivial⟩
      (by decide +kernel) (by decide +kernel) (by decide +kernel) ?_ (by decide +kernel)
      (by decide +kernel)
    simp

/-- The only write of `a` is the one that seals it, so no other start of `a` can fail. -/
theorem leftSealed_of_history {c : Chrono} {o : MemoryOutbox} (hc : Conserved o) {d : DeviceId}
    {w : WriteId} (hhist : (o.logs d).history = [w]) {op : Op} (hfresh : Fresh o op)
    (hsubmit : ∀ s, op ≠ .submit s) (hpoll : op ≠ .observe d .stopped) : LeftSealed c d w o op := by
  refine ⟨not_admits_of_verb c hc hfresh fun s hs => absurd hs (hsubmit s), hpoll, ?_⟩
  intro v r hfail h _
  subst h
  have hmem := hc.mem_history hfail.1
  rw [hhist] at hmem
  exact List.mem_singleton.mp hmem

/-- The seal, while a start is on the wire and a poll has seen the recorder running. -/
theorem freeze_safety_running :
    ¬ Admits utc (Machine.exec (step utc) (withMaxAttempts 3 1000000000)
        [writeTo "w1" .startRecording "00", .claimNext "a" (tenOClock "01"), .observe "a" .started])
      (writeTo "w2" (.setMetadata "TITLE" "x") "02") "a" .writeMetadata := by
  have hc : Conserved (step utc (withMaxAttempts 3 1000000000) (writeTo "w1" .startRecording "00")) :=
    conserved_step utc (conserved_init 3 1000000000) (fresh_writeTo rfl)
  have hleft : Machine.Along (step utc) (fun o op => Fresh o op ∧ LeftSealed utc "a" "w1" o op)
      (step utc (withMaxAttempts 3 1000000000) (writeTo "w1" .startRecording "00"))
      [.claimNext "a" (tenOClock "01"), .observe "a" .started] := by
    refine ⟨⟨trivial, ?_⟩, ⟨trivial, ?_⟩, trivial⟩
    · exact leftSealed_of_history hc (by decide +kernel) trivial (by simp) (by simp)
    · have hc' := @conserved_step utc _ hc (.claimNext "a" (tenOClock "01")) trivial
      exact leftSealed_of_history hc' (by decide +kernel) trivial (by simp) (by simp)
  exact (freeze_safety utc 3 1000000000 [] [.claimNext "a" (tenOClock "01"), .observe "a" .started]
    trivial _ rfl (writeTo "w1" .startRecording "00") (fresh_writeTo rfl) "a" "w1" _ rfl rfl rfl rfl
    hleft _ rfl _ rfl (by decide) (writeTo "w2" (.setMetadata "TITLE" "x") "02")
    (fresh_writeTo (by decide +kernel))).1

end Sismatic
