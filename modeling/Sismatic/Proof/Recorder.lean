import Sismatic.Proof.Line

/-!
# Where the desired state ends up

Once every write of a device has ended, its line is what it was sent and did not
refuse, so the line says what the recorder is doing. Two claims about the desired
state follow for every run that acts on the line at its end, one for each side a
disagreement can fall on: a recorder that is not recording leaves its metadata
writable, and a running one leaves it sealed.

Elsewhere the source cannot tell. A terminal failure is rolled back from the desired
state alone, and a cancellation is not rolled back at all.
-/

namespace Sismatic

open MemoryOutbox

/-- Every write of `d` has ended. -/
def MemoryOutbox.AllEnded (o : MemoryOutbox) (d : DeviceId) : Prop :=
  ∀ w r, o.records w = some r → r.device = d → r.status.terminal

/--
A recorder that is left idle is desired idle. A stop or a pause is of something, so what
it is rolled back to is not idle behind an idle recorder.
-/
def thawing : Footing where
  verbs _ := True
  follows left next := next ≠ .recording → left ≠ .idle
  agrees left desired := (left = .idle → desired = .idle) ∧ (left = .recording → desired ≠ .paused)
  idle := ⟨fun _ => rfl, fun h => by cases h⟩
  admitted := by
    intro left desired next verb _ hagrees hok htarget
    cases verb <;> cases next <;> cases desired <;> simp_all [admitVerb, Verb.target]
  rolledBack := by
    intro left next desired verb hfollows htarget hagrees
    cases verb <;> cases next <;> cases desired <;> simp_all [Verb.target, rollback]

/-- Without pauses takes start and stop in turn, and a recorder is desired as it is left. -/
def sealing : Footing where
  verbs verb := verb ≠ .pause
  follows left next := left = .idle ∧ next = .recording ∨ left = .recording ∧ next = .idle
  agrees left desired := left = desired ∧ desired ≠ .paused
  idle := ⟨rfl, fun h => by cases h⟩
  admitted := by
    intro left desired next verb hverb hagrees hok htarget
    cases verb <;> cases next <;> cases desired <;> simp_all [admitVerb, Verb.target]
  rolledBack := by
    intro left next desired verb hfollows htarget hagrees
    cases verb <;> cases next <;> cases desired <;> simp_all [Verb.target, rollback]

/-- A run under the caller's part: minted ids, and no poll. -/
def Unpolled (t : Trail) (op : Op) : Prop := Fresh t.outbox op ∧ NoPoll op

section Ended

variable {t : Trail} {d : DeviceId} {f : Footing}

/-- With every write ended, the line is what succeeded. -/
theorem line_of_allEnded (hc : Conserved t.outbox) (h : t.outbox.AllEnded d) :
    t.line d = t.sent.filter (t.outbox.writeOf WriteStatus.hasSucceeded d) := by
  have hqueue : (t.outbox.logs d).queue = [] := by
    rw [List.eq_nil_iff_forall_not_mem]
    intro w hw
    obtain ⟨r, hr, hdev, hst⟩ := hc.tidy.filed d w hw
    have hterm := h w r hr hdev
    rw [hst] at hterm
    cases hterm
  rw [Trail.line, hqueue, List.append_nil, Trail.ran]
  refine List.filter_congr ?_
  intro w _
  cases hr : t.outbox.records w with
  | none => simp [writeOf, hr]
  | some r =>
      by_cases hdev : r.device = d
      · have hterm := h w r hr hdev
        cases hst : r.status with
        | inFlight => rw [hst] at hterm; cases hterm
        | _ => simp [writeOf, hr, hst, WriteStatus.sent, WriteStatus.hasSucceeded]
      · simp [writeOf, hr, hdev]

/-- So it says what the recorder is doing. -/
theorem InLine.recorder (h : InLine f d t) (hended : t.outbox.AllEnded d) :
    f.agrees (t.recorder d) (t.outbox.desired d) := by
  have hagrees := h.holds.agrees
  rw [line_of_allEnded h.conserved hended] at hagrees
  exact hagrees

theorem allEnded_of_history (hc : Conserved t.outbox)
    (h : ∀ w ∈ (t.outbox.logs d).history, t.outbox.Ended w) : t.outbox.AllEnded d := by
  intro w r hr h'
  subst h'
  obtain ⟨r', hr', hterm⟩ := h w (hc.mem_history hr)
  obtain rfl := Option.some.inj (hr.symm.trans hr')
  exact hterm

end Ended

/-- Every run that acts on `d`'s line at its end leaves the desired state keeping up with it. -/
theorem inLine_run (c : Chrono) (f : Footing) (n : Nat) (backoff : Duration) {d : DeviceId}
    {ops : List Op} (hrun : Machine.Along (Trail.step c) Unpolled (Trail.start n backoff) ops)
    (hverbs : ∀ op ∈ ops, Submits f.verbs op)
    (hend : Machine.Along (Trail.step c) (AtTheEnd c d) (Trail.start n backoff) ops) :
    InLine f d (Machine.exec (Trail.step c) (Trail.start n backoff) ops) := by
  have hstep : ∀ t op, InLine f d t → (Unpolled t op ∧ Submits f.verbs op ∧ AtTheEnd c d t op) →
      InLine f d (t.step c op) :=
    fun _ _ h hok => inLine_step c h hok.1.1 hok.1.2 hok.2.1 hok.2.2
  refine Machine.exec_invariant hstep (Machine.along_and.mpr ⟨hrun, ?_⟩)
    ⟨conserved_init n backoff, List.nodup_nil, .init f⟩
  exact Machine.along_and.mpr ⟨Machine.along_of_mem hverbs, hend⟩

/--
**No permanent freeze**, in every run that acts on `d`'s line at its end: once every write
of `d` has ended and its recorder is idle, the desired state is too, and metadata is
admitted.
-/
theorem thawed_of_atTheEnd (c : Chrono) (n : Nat) (backoff : Duration) (d : DeviceId)
    (ops : List Op) (hrun : Machine.Along (Trail.step c) Unpolled (Trail.start n backoff) ops)
    (hend : Machine.Along (Trail.step c) (AtTheEnd c d) (Trail.start n backoff) ops)
    (t : Trail) (ht : t = Machine.exec (Trail.step c) (Trail.start n backoff) ops)
    (hended : t.outbox.AllEnded d) (hidle : t.recorder d = .idle) :
    t.outbox.desired d = .idle ∧ admitVerb (t.outbox.desired d) .writeMetadata = .ok .idle := by
  have hverbs : ∀ op ∈ ops, Submits thawing.verbs op := by
    intro op _
    cases op with
    | submit s => exact trivial
    | _ => exact trivial
  have hline : InLine thawing d t := ht ▸ inLine_run c thawing n backoff hrun hverbs hend
  have hdesired := (hline.recorder hended).1 hidle
  exact ⟨hdesired, by rw [hdesired]; rfl⟩

/--
**A running take stays sealed**, in every run without pauses that acts on `d`'s line at its
end: once every write of `d` has ended and its recorder is recording, neither metadata nor
a second start is admitted.
-/
theorem sealed_of_atTheEnd (c : Chrono) (n : Nat) (backoff : Duration) (d : DeviceId)
    (ops : List Op) (hrun : Machine.Along (Trail.step c) Unpolled (Trail.start n backoff) ops)
    (hpauses : ∀ op ∈ ops, Submits (· ≠ .pause) op)
    (hend : Machine.Along (Trail.step c) (AtTheEnd c d) (Trail.start n backoff) ops)
    (t : Trail) (ht : t = Machine.exec (Trail.step c) (Trail.start n backoff) ops)
    (hended : t.outbox.AllEnded d) (hrecording : t.recorder d = .recording) :
    t.outbox.desired d = .recording ∧
      admitVerb (t.outbox.desired d) .writeMetadata = .error .metadataFrozen ∧
      admitVerb (t.outbox.desired d) .start = .error .alreadyRecording := by
  have hline : InLine sealing d t := ht ▸ inLine_run c sealing n backoff hrun hpauses hend
  have hdesired : t.outbox.desired d = .recording :=
    (hline.recorder hended).1.symm.trans hrecording
  exact ⟨hdesired, by rw [hdesired]; rfl, by rw [hdesired]; rfl⟩

/-- A claim of a head outside any batch fails nothing. -/
theorem atTheEnd_claim {c : Chrono} {t : Trail} {d d' : DeviceId} {now : Timestamp} (w : WriteId)
    (hqueue : (t.outbox.logs d').queue = [w])
    (hbatch : (t.outbox.records w).bind WriteRecord.batch = none) :
    AtTheEnd c d t (.claimNext d' now) := by
  intro r hfails
  obtain ⟨_, b, e, ⟨r', hdue, hb, _⟩, _⟩ := hfails
  obtain ⟨id, q, hq, hr, _⟩ := hdue
  obtain ⟨rfl, rfl⟩ := List.cons.inj (hqueue.symm.trans hq)
  rw [hr, Option.bind_some, hb] at hbatch
  cases hbatch

/-- The one write in line is the last. -/
theorem atTheEnd_settle {c : Chrono} {t : Trail} {d : DeviceId} {w : WriteId} {reason : String}
    {now : Timestamp} (before : List WriteId) (hran : t.ran d = before ++ [w])
    (hqueue : (t.outbox.logs d).queue = []) : AtTheEnd c d t (.settle w (.failed reason) now) := by
  intro r _ _ _ _
  refine ⟨before, [], ?_, rfl⟩
  rw [Trail.line, hran, hqueue, List.append_nil, ite_self]

/-! ## What cancelling leaves behind -/

theorem conserved_trail (c : Chrono) (n : Nat) (backoff : Duration) {ops : List Op}
    (hrun : Machine.Along (Trail.step c) Unpolled (Trail.start n backoff) ops) :
    Conserved (Machine.exec (Trail.step c) (Trail.start n backoff) ops).outbox := by
  have hstep : ∀ t op, Conserved t.outbox → Unpolled t op → Conserved (t.step c op).outbox :=
    fun _ _ hc hok => conserved_step c hc hok.1
  exact @Machine.exec_invariant _ _ _ _ (fun t => Conserved t.outbox) hstep _ _ hrun
    (conserved_init n backoff)

/-- A start is admitted and cancelled before it went out. -/
def canceledStart : List Op := [writeTo "w1" .startRecording "00", .cancelQueued "a" "removed"]

theorem canceledStart_unpolled :
    Machine.Along (Trail.step utc) Unpolled (Trail.start 3 1000000000) canceledStart :=
  ⟨⟨fresh_writeTo rfl, trivial⟩, ⟨trivial, trivial⟩, trivial⟩

/-- Nothing was ever sent, and the device is desired recording for good. -/
theorem frozen_canceledStart :
    let t := Machine.exec (Trail.step utc) (Trail.start 3 1000000000) canceledStart
    Machine.Along (Trail.step utc) Unpolled (Trail.start 3 1000000000) canceledStart ∧
      t.outbox.AllEnded "a" ∧ t.recorder "a" = .idle ∧ t.outbox.desired "a" ≠ .idle := by
  refine ⟨canceledStart_unpolled, ?_, by decide +kernel, by decide +kernel⟩
  exact allEnded_of_history (conserved_trail utc 3 1000000000 canceledStart_unpolled)
    (by decide +kernel)

/--
A start that is tried twice and fails for good, and another that is cancelled with the stop
behind it.
-/
def failedStart : List Op :=
  [writeTo "w1" .startRecording "00", .claimNext "a" (tenOClock "01"),
    .settle "w1" (.failed "no route") (tenOClock "02"), .claimNext "a" (tenOClock "05"),
    .settle "w1" (.failed "no route") (tenOClock "06"), writeTo "w2" .startRecording "07",
    writeTo "w3" .stopRecording "08", .cancelQueued "a" "removed"]

theorem failedStart_unpolled :
    Machine.Along (Trail.step utc) Unpolled (Trail.start 2 1000000000) failedStart :=
  ⟨⟨fresh_writeTo rfl, trivial⟩, ⟨trivial, trivial⟩, ⟨trivial, trivial⟩, ⟨trivial, trivial⟩,
    ⟨trivial, trivial⟩, ⟨fresh_writeTo (by decide +kernel), trivial⟩,
    ⟨fresh_writeTo (by decide +kernel), trivial⟩, ⟨trivial, trivial⟩, trivial⟩

theorem failedStart_atTheEnd :
    Machine.Along (Trail.step utc) (AtTheEnd utc "a") (Trail.start 2 1000000000) failedStart :=
  ⟨fun _ => by decide, atTheEnd_claim "w1" (by decide +kernel) (by decide +kernel),
    atTheEnd_settle [] (by decide +kernel) (by decide +kernel),
    atTheEnd_claim "w1" (by decide +kernel) (by decide +kernel),
    atTheEnd_settle [] (by decide +kernel) (by decide +kernel),
    fun _ => by decide, fun _ => by decide, ⟨List.nil_prefix, by decide +kernel⟩, trivial⟩

/-- Nothing is left behind. -/
theorem thawed_failedStart :
    (Machine.exec (Trail.step utc) (Trail.start 2 1000000000) failedStart).outbox.desired "a"
      = .idle :=
  (thawed_of_atTheEnd utc 2 1000000000 "a" failedStart failedStart_unpolled failedStart_atTheEnd _
    rfl (allEnded_of_history (conserved_trail utc 2 1000000000 failedStart_unpolled)
      (by decide +kernel)) (by decide +kernel)).1

/-- A batch id no submission has brought is on no record. -/
theorem unused_batch (c : Chrono) {o : MemoryOutbox} (hc : Conserved o) {b : BatchId}
    (h : ∀ w r, o.records w = some r → r.batch ≠ some b) {ops : List Op}
    (hrun : Machine.Along (step c) Fresh o ops)
    (hops : ∀ op ∈ ops, ∀ s, op = .submit s → s.batch ≠ some b) :
    ∀ w r, (Machine.exec (step c) o ops).records w = some r → r.batch ≠ some b := by
  have hstep : ∀ o op, (Conserved o ∧ ∀ w r, o.records w = some r → r.batch ≠ some b) →
      (Fresh o op ∧ ∀ s, op = .submit s → s.batch ≠ some b) →
      (Conserved (step c o op) ∧ ∀ w r, (step c o op).records w = some r → r.batch ≠ some b) := by
    intro o op hinv hok
    refine ⟨conserved_step c hinv.1 hok.1, ?_⟩
    intro w r hr
    cases hold : o.records w with
    | none =>
        obtain ⟨s, _, row, hs, _, _, _, rfl⟩ := record_new c hinv.1 hok.1 hold hr
        exact hok.2 s hs
    | some r₀ =>
        obtain ⟨r', hr', hev⟩ := record_step c hinv.1 hok.1 hold
        obtain rfl := Option.some.inj (hr.symm.trans hr')
        rw [hev.sameWrite.batch]
        exact hinv.2 w r₀ hold
  exact (Machine.exec_invariant hstep
    (Machine.along_and.mpr ⟨hrun, Machine.along_of_mem hops⟩) ⟨hc, h⟩).2

/-- Then stop them together. -/
def stopTogether : Submission :=
  { startTogether with
    ids := ["w3", "w4"]
    batch := some "b2"
    intent := .stopRecording
    atTime := tenOClock "05" }

/-- Both record; both are to stop, and `d` is removed before they do. -/
def brokenStop : List Op :=
  [.submit startTogether, .claimNext "a" (tenOClock "01"),
    .settle "w1" (.succeeded (.ack "RcdrY1")) (tenOClock "02"),
    .settle "w2" (.succeeded (.ack "RcdrY1")) (tenOClock "02"),
    .submit stopTogether, .cancelQueued "d" "removed"]

theorem brokenStop_unpolled :
    Machine.Along (Trail.step utc) Unpolled (Trail.start 3 1000000000) brokenStop := by
  have hfirst : Fresh (withMaxAttempts 3 1000000000) (.submit startTogether) :=
    ⟨by decide, fun _ _ => rfl, fun _ _ _ _ h => by cases h⟩
  refine ⟨⟨hfirst, trivial⟩, ⟨trivial, trivial⟩, ⟨trivial, trivial⟩, ⟨trivial, trivial⟩,
    ⟨⟨by decide, by decide +kernel, ?_⟩, trivial⟩, ⟨trivial, trivial⟩, trivial⟩
  intro b hb
  obtain rfl : "b2" = b := Option.some.inj hb
  have hbefore : Machine.Along (step utc) Fresh (withMaxAttempts 3 1000000000)
      [.submit startTogether, .claimNext "a" (tenOClock "01"),
        .settle "w1" (.succeeded (.ack "RcdrY1")) (tenOClock "02"),
        .settle "w2" (.succeeded (.ack "RcdrY1")) (tenOClock "02")] :=
    ⟨hfirst, trivial, trivial, trivial, trivial⟩
  refine unused_batch utc (conserved_init 3 1000000000) (fun _ _ h => by cases h) hbefore ?_
  simp [startTogether]

/-- `a` goes on recording, and its metadata is open. -/
theorem unsealed_brokenStop :
    let t := Machine.exec (Trail.step utc) (Trail.start 3 1000000000) brokenStop
    Machine.Along (Trail.step utc) Unpolled (Trail.start 3 1000000000) brokenStop ∧
      t.outbox.AllEnded "a" ∧ t.recorder "a" = .recording ∧ t.outbox.desired "a" = .idle := by
  refine ⟨brokenStop_unpolled, ?_, by decide +kernel, by decide +kernel⟩
  exact allEnded_of_history (conserved_trail utc 3 1000000000 brokenStop_unpolled)
    (by decide +kernel)

/-- A take that was started and goes on: its stop fails for good. -/
def failedStop : List Op :=
  [writeTo "w1" .startRecording "00", .claimNext "a" (tenOClock "01"),
    .settle "w1" (.succeeded (.ack "RcdrY1")) (tenOClock "02"),
    writeTo "w2" .stopRecording "03", .claimNext "a" (tenOClock "04"),
    .settle "w2" (.failed "no route") (tenOClock "05")]

theorem failedStop_unpolled :
    Machine.Along (Trail.step utc) Unpolled (Trail.start 1 1000000000) failedStop :=
  ⟨⟨fresh_writeTo rfl, trivial⟩, ⟨trivial, trivial⟩, ⟨trivial, trivial⟩,
    ⟨fresh_writeTo (by decide +kernel), trivial⟩, ⟨trivial, trivial⟩, ⟨trivial, trivial⟩, trivial⟩

theorem failedStop_atTheEnd :
    Machine.Along (Trail.step utc) (AtTheEnd utc "a") (Trail.start 1 1000000000) failedStop :=
  ⟨fun _ => by decide, atTheEnd_claim "w1" (by decide +kernel) (by decide +kernel), trivial,
    fun _ => by decide, atTheEnd_claim "w2" (by decide +kernel) (by decide +kernel),
    atTheEnd_settle ["w1"] (by decide +kernel) (by decide +kernel), trivial⟩

/-- The take is sealed again. -/
theorem sealed_failedStop :
    (Machine.exec (Trail.step utc) (Trail.start 1 1000000000) failedStop).outbox.desired "a"
      = .recording := by
  have hpauses : ∀ op ∈ failedStop, Submits (· ≠ .pause) op := by
    intro op hop
    simp only [failedStop, List.mem_cons, List.not_mem_nil, or_false] at hop
    rcases hop with rfl | rfl | rfl | rfl | rfl | rfl
    · exact fun h => by cases h
    · trivial
    · trivial
    · exact fun h => by cases h
    · trivial
    · trivial
  exact (sealed_of_atTheEnd utc 1 1000000000 "a" failedStop failedStop_unpolled hpauses
    failedStop_atTheEnd _ rfl
    (allEnded_of_history (conserved_trail utc 1 1000000000 failedStop_unpolled)
      (by decide +kernel)) (by decide +kernel)).1

end Sismatic
