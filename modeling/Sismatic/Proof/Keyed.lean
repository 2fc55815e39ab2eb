import Sismatic.Proof.Admitted
import Sismatic.Proof.Sequential
import Sismatic.Proof.Replay

/-!
# One write to a key

A key is filed under every target and looked up under the first. So a request whose
first target has not seen the key is admitted afresh, whatever the others have seen,
and one whose first target has is answered from that target's write alone, or from its
batch, whatever the others were given. Keys are kept apart only while requests that
share one start at the same device and stay inside what that device's write covered.
-/

namespace Sismatic

open MemoryOutbox

/-! ## The promise -/

/-- The writes of `d` a call admits under the key `k`. -/
def admittedUnder (k : String) (d : DeviceId) (o : MemoryOutbox) : Op → List WriteId
  | .submit s => if s.idempotencyKey = some k then idsOf d (admitted o (.submit s)) else []
  | _ => []

/-- The writes of `d` a run admits under the key `k`, oldest first. -/
def underKey (c : Chrono) (k : String) (d : DeviceId) : MemoryOutbox → List Op → List WriteId
  | _, [] => []
  | o, op :: ops => admittedUnder k d o op ++ underKey c k d (step c o op) ops

/-- The submission answers for `d` with the write `w`, and appends nothing for it. -/
def Returns (o : MemoryOutbox) (s : Submission) (d : DeviceId) (w : WriteId) : Prop :=
  (∃ acceptance, (o.submit s).2 = .ok acceptance ∧
      ∃ a ∈ acceptance.writes, a.id = w ∧ a.device = d) ∧
    ((o.submit s).1.logs d).history = (o.logs d).history

/-- What a key promises over a run: a device gets one write under it, and that write again. -/
structure OncePerKey (c : Chrono) (o : MemoryOutbox) (ops : List Op) : Prop where
  once : ∀ k d, (underKey c k d o ops).length ≤ 1
  original : ∀ earlier s later, ops = earlier ++ .submit s :: later →
    ∀ k, s.idempotencyKey = some k → ∀ d ∈ s.targets, ∀ w ∈ underKey c k d o earlier,
      Returns (Machine.exec (step c) o earlier) s d w

/-- A submission names its targets, with an id for each. -/
def Addressed : Op → Prop
  | .submit s => s.targets ≠ [] ∧ s.ids.length = s.targets.length
  | _ => True

/-- What a run asks of its calls: well-formed submissions under fresh ids. -/
abbrev Sound (o : MemoryOutbox) (op : Op) : Prop := Fresh o op ∧ Addressed op

/--
When a submission keeps its key apart. If its first target knows the key, then of the
other targets that know it each is still a member of that write's batch, and knows the
key by its own row of the batch; a write of no batch covers its own device alone. If
the first target does not know the key no target does, and they are distinct, unless
one of them refuses the request.
-/
def KeyedApart (o : MemoryOutbox) : Op → Prop
  | .submit s => ∀ k, s.idempotencyKey = some k →
      match o.known s with
      | some r => ∀ d ∈ s.targets, ∀ v r', (o.logs d).keys k = some v → o.records v = some r' →
          match r.batch with
          | some b => d ∈ o.memberList b ∧ r'.batch = some b
          | none => d = r.device
      | none => (∀ d ∈ s.targets, (o.logs d).keys k = none) ∧
          (s.targets.Nodup ∨ ∃ d ∈ s.targets, ∃ rejection,
            admitVerb (o.desired d) (Verb.of s.intent) = .error rejection)
  | _ => True

/-! ## One submission -/

/-- What the promise comes to at one call, in terms of the keys the devices know. -/
def KeepsKey (o : MemoryOutbox) : Op → Prop
  | .submit s => ∀ k, s.idempotencyKey = some k → ∀ d,
      match (o.logs d).keys k with
      | some w => d ∈ s.targets → Returns o s d w
      | none => (idsOf d (admitted o (.submit s))).length ≤ 1
  | _ => True

/-- What holds of the keys over a run that keeps them apart. -/
structure Keyed (o : MemoryOutbox) : Prop where
  conserved : Conserved o
  membersFiled : MembersFiled o
  /-- A device knows a key by a write of its own. -/
  named : ∀ d k w, (o.logs d).keys k = some w → ∃ r, o.records w = some r ∧ r.device = d
  /-- That write, if it is of a batch, is the device's one row of it. -/
  only : ∀ d k w r b, (o.logs d).keys k = some w → o.records w = some r → r.batch = some b →
    o.newestRow b d = some w

theorem keyed_init (n : Nat) (backoff : Duration) : Keyed (withMaxAttempts n backoff) where
  conserved := conserved_init n backoff
  membersFiled := by
    intro b v hv
    cases hv
  named := fun _ _ _ h => by cases h
  only := fun _ _ _ _ _ h => by cases h

section Step

variable {o : MemoryOutbox} {s : Submission} {k : String}

/-- A device's own write is among a replayed answer when the answer covers the device. -/
theorem mem_replay_iff (h : Keyed o) {r : WriteRecord} {t d : DeviceId} {w v : WriteId}
    {r' : WriteRecord} (hw : (o.logs t).keys k = some w) (hr : o.records w = some r)
    (hv : (o.logs d).keys k = some v) (hr' : o.records v = some r') :
    (∃ a ∈ (r.replay o).writes, a.id = v ∧ a.device = d) ↔
      match r.batch with
      | some b => d ∈ o.memberList b ∧ r'.batch = some b
      | none => d = r.device := by
  have hid : r.id = w := h.conserved.named w r hr
  have hid' : r'.id = v := h.conserved.named v r' hr'
  have hdev' : r'.device = d := by
    obtain ⟨r₁, hr₁, hdev₁⟩ := h.named d k v hv
    obtain rfl := Option.some.inj (hr'.symm.trans hr₁)
    exact hdev₁
  unfold WriteRecord.replay
  cases hb : r.batch with
  | none =>
      have hone : (∃ a ∈ [r.accepted], a.id = v ∧ a.device = d) ↔ r.id = v ∧ r.device = d := by
        simp [WriteRecord.accepted]
      refine hone.trans ⟨fun h' => h'.2.symm, ?_⟩
      intro hd
      refine ⟨?_, hd.symm⟩
      -- the first target knows the key by `r`, and `r` is its own write
      obtain ⟨r₁, hr₁, hdev₁⟩ := h.named t k w hw
      obtain rfl := Option.some.inj (hr.symm.trans hr₁)
      rw [hd, hdev₁, hw] at hv
      rw [hid]
      exact Option.some.inj hv
  | some b =>
      simp only [batchAcceptances_eq, List.mem_filterMap]
      refine ⟨?_, ?_⟩
      · intro h'
        obtain ⟨a, ⟨d', hmem, hans⟩, rfl, rfl⟩ := h'
        obtain ⟨u, hu, hacc⟩ := Option.bind_eq_some_iff.mp hans
        obtain ⟨r₁, hrow, hdev, hans'⟩ := newestRow_some h.conserved hu
        rw [hans] at hans'
        obtain rfl := Option.some.inj hans'
        obtain rfl : r₁ = r' := by
          have hid₁ := h.conserved.named u r₁ hrow.1
          rw [show r₁.accepted.id = r₁.id from rfl, hid₁, hrow.1] at hr'
          exact Option.some.inj hr'
        exact ⟨by rw [show r₁.accepted.device = d' from hdev]; exact hmem, hrow.2⟩
      · intro h'
        obtain ⟨hmem, hbatch⟩ := h'
        have hnewest := h.only d k v r' b hv hr' hbatch
        refine ⟨r'.accepted, ⟨d, hmem, ?_⟩, hid', hdev'⟩
        rw [rowAnswer, hnewest]
        simp [hr']

/-- The first target knows the key: nothing is written, and the answer covers what it covers. -/
theorem keepsKey_of_known (h : Keyed o) (hkey : s.idempotencyKey = some k)
    (hwell : Addressed (.submit s)) {r : WriteRecord} (hknown : o.known s = some r) :
    KeepsKey o (.submit s) ↔ KeyedApart o (.submit s) := by
  obtain ⟨t, ts, ht⟩ := List.exists_cons_of_ne_nil hwell.1
  obtain ⟨w, hw, hr⟩ : ∃ w, (o.logs t).keys k = some w ∧ o.records w = some r := by
    simp only [known, hkey, ht, List.head?_cons, Option.bind_eq_bind, Option.bind_some] at hknown
    exact Option.bind_eq_some_iff.mp hknown
  have hsub := submit_of_known hkey ht hwell.2 hw hr
  have hadm : admitted o (.submit s) = [] := by
    simp only [admitted, replayed_eq, hknown, Option.map_some]
  have hreturns : ∀ d v, Returns o s d v ↔ ∃ a ∈ (r.replay o).writes, a.id = v ∧ a.device = d := by
    intro d v
    unfold Returns
    rw [hsub]
    simp
  simp only [KeepsKey, KeyedApart, hknown, hkey, Option.some.injEq, forall_eq', hadm]
  refine ⟨?_, ?_⟩
  · intro hkeeps d hd v r' hv hr'
    have hat := hkeeps d
    rw [hv] at hat
    exact (mem_replay_iff h hw hr hv hr').mp ((hreturns d v).mp (hat hd))
  · intro hapart d
    cases hv : (o.logs d).keys k with
    | none => exact Nat.zero_le _
    | some v =>
        intro hd
        obtain ⟨r', hr', _⟩ := h.named d k v hv
        exact (hreturns d v).mpr ((mem_replay_iff h hw hr hv hr').mpr (hapart d hd v r' hv hr'))

/-- The first target does not know the key: the request is decided afresh. -/
theorem keepsKey_of_unknown (hkey : s.idempotencyKey = some k)
    (hwell : Addressed (.submit s)) (hunknown : o.known s = none) :
    KeepsKey o (.submit s) ↔ KeyedApart o (.submit s) := by
  have hrep : o.replayed s = none := by
    rw [replayed_eq, hunknown]
    rfl
  have hzip : (s.ids.zip s.targets).map Prod.snd = s.targets :=
    List.map_snd_zip (by have := hwell.2; omega)
  simp only [KeepsKey, KeyedApart, hunknown, hkey, Option.some.injEq, forall_eq']
  cases hadm : o.admitAll (Verb.of s.intent) (s.ids.zip s.targets) with
  | error e =>
      have hsub := submit_of_refused hwell.1 hwell.2 hrep hadm
      have href := admitAll_error_iff.mp ⟨e, hadm⟩
      rw [hzip] at href
      have hnone : admitted o (.submit s) = [] := by
        simp only [admitted, hrep, hsub]
      rw [hnone]
      refine ⟨?_, ?_⟩
      · intro hkeeps
        refine ⟨?_, .inr href⟩
        intro d hd
        have hat := hkeeps d
        cases hv : (o.logs d).keys k with
        | none => rfl
        | some v =>
            rw [hv] at hat
            obtain ⟨⟨acceptance, hok, _⟩, _⟩ := hat hd
            rw [hsub] at hok
            cases hok
      · intro hapart d
        cases hv : (o.logs d).keys k with
        | none => exact Nat.zero_le _
        | some v =>
            intro hd
            rw [hapart.1 d hd] at hv
            cases hv
  | ok rows =>
      obtain ⟨hans, hlogs⟩ := submit_of_admitAll hwell.1 hwell.2 hrep hadm
      obtain ⟨_, hdevs⟩ := admitAll_rows hwell.2 hadm
      have hno : ¬ ∃ d ∈ s.targets, ∃ rejection,
          admitVerb (o.desired d) (Verb.of s.intent) = .error rejection := by
        rw [← hzip, ← admitAll_error_iff, hadm]
        simp
      have hcount : ∀ d, (idsOf d (admitted o (.submit s))).length = s.targets.count d := by
        intro d
        have hadmitted : admitted o (.submit s) = rows.map Row.accepted := by
          simp only [admitted, hrep, hans]
        rw [hadmitted, idsOf_accepted, onLane_length, hdevs]
      have hhist : ∀ d, ((o.submit s).1.logs d).history.length
          = (o.logs d).history.length + s.targets.count d := by
        intro d
        rw [hlogs, (foldl_appendRow_queue s rows o d).2, List.length_append, onLane_length, hdevs]
      refine ⟨?_, ?_⟩
      · intro hkeeps
        have hnone : ∀ d ∈ s.targets, (o.logs d).keys k = none := by
          intro d hd
          have hat := hkeeps d
          cases hv : (o.logs d).keys k with
          | none => rfl
          | some v =>
              -- a row was appended for a device that knows the key already
              rw [hv] at hat
              have hsame := congrArg List.length (hat hd).2
              have hpos := List.count_pos_iff.mpr hd
              rw [hhist] at hsame
              omega
        refine ⟨hnone, .inl (List.nodup_iff_count_le_one.mpr ?_)⟩
        intro d
        by_cases hd : d ∈ s.targets
        · have hat := hkeeps d
          rw [hnone d hd] at hat
          rw [← hcount]
          exact hat
        · rw [List.count_eq_zero_of_not_mem hd]
          exact Nat.zero_le _
      · intro hapart d
        cases hv : (o.logs d).keys k with
        | none =>
            show (idsOf d (admitted o (.submit s))).length ≤ 1
            rw [hcount]
            exact List.nodup_iff_count_le_one.mp (hapart.2.resolve_right hno) d
        | some v =>
            intro hd
            rw [hapart.1 d hd] at hv
            cases hv

/-- **A submission keeps the promise exactly when it keeps its key apart.** -/
theorem keepsKey_iff (h : Keyed o) {op : Op} (hsound : Sound o op) :
    KeepsKey o op ↔ KeyedApart o op := by
  cases op with
  | submit s =>
      cases hkey : s.idempotencyKey with
      | none => simp [KeepsKey, KeyedApart, hkey]
      | some k =>
          cases hknown : o.known s with
          | some r => exact keepsKey_of_known h hkey hsound.2 hknown
          | none => exact keepsKey_of_unknown hkey hsound.2 hknown
  | _ => exact Iff.rfl

/-! ## The keys over a run -/

/-- The rows of a device whose targets are distinct are one, and the newest of its batch. -/
theorem newestRow_of_appends {o' : MemoryOutbox} (hc' : Conserved o') {rows : List Row}
    {b : BatchId} (hfresh : Fresh o (.submit s)) (happ : Appends s rows o o')
    (hnd : s.targets.Nodup) (hb : s.batch = some b) {row : Row} (hrow : row ∈ rows) :
    o'.newestRow b row.device = some row.id := by
  obtain ⟨v, hv⟩ := exists_newestRow hc' ⟨row.id, row.record s, ⟨happ.new row hrow, hb⟩, rfl⟩
  obtain ⟨r, hr, hdev, _⟩ := newestRow_some hc' hv
  rcases rowOf_appends happ hr with hold | ⟨_, row', hrow', rfl, rfl⟩
  · exact absurd hold.2 (hfresh.2.2 b hb v r hold.1)
  · rw [← happ.targets] at hnd
    obtain rfl := List.inj_on_of_nodup_map hnd hrow' hrow hdev
    exact hv

/-- A device that knows a key by the same write as before knows it by its one row of the batch. -/
theorem keyed_kept (c : Chrono) (h : Keyed o) {op : Op} (hfresh : Fresh o op) {d : DeviceId}
    {w : WriteId} (hw : (o.logs d).keys k = some w) :
    (∃ r, (step c o op).records w = some r ∧ r.device = d) ∧
      ∀ r b, (step c o op).records w = some r → r.batch = some b →
        (step c o op).newestRow b d = some w := by
  obtain ⟨r, hr, hdev⟩ := h.named d k w hw
  obtain ⟨r', hr', hev⟩ := record_step c h.conserved hfresh hr
  refine ⟨⟨r', hr', hev.sameWrite.device.trans hdev⟩, ?_⟩
  intro r₁ b hr₁ hb
  obtain rfl := Option.some.inj (hr'.symm.trans hr₁)
  have hb' : r.batch = some b := hev.sameWrite.batch ▸ hb
  rw [newestRow_step c h.conserved hfresh ⟨w, r, hr, hb'⟩]
  exact h.only d k w r b hw hr hb'

/-- **Keys kept apart stay so.** -/
theorem keyed_step (c : Chrono) (h : Keyed o) {op : Op} (hfresh : Fresh o op)
    (hapart : KeyedApart o op) : Keyed (step c o op) := by
  have hc' := conserved_step c h.conserved hfresh
  -- a key is known by the write it was known by before, or by one just appended alone
  have hkeys : ∀ d k w, ((step c o op).logs d).keys k = some w → (o.logs d).keys k = some w ∨
      ∃ s rows row, op = .submit s ∧ Appends s rows o (step c o op) ∧ row ∈ rows ∧
        row.device = d ∧ row.id = w ∧ s.targets.Nodup := by
    intro d k w hw
    by_cases hother : OtherKey k op
    · rw [keys_step c h.conserved hfresh hother d] at hw
      exact .inl hw
    · cases op with
      | submit s =>
          have hkey : s.idempotencyKey = some k := not_not.mp hother
          have hspec := submit_spec o hfresh.1
          change ((o.submit s).1.logs d).keys k = some w at hw
          change _ ∨ ∃ s' rows row, _ ∧ Appends s' rows o (o.submit s).1 ∧ _
          generalize hres : (o.submit s).2 = res at hspec
          cases hspec with
          | refused e heq => exact .inl (heq ▸ hw)
          | replayed acceptance heq _ => exact .inl (heq ▸ hw)
          | appended rows hne hrep happ =>
              by_cases hd : d ∈ s.targets
              · right
                obtain ⟨row, hrow, hdev, hrowkey⟩ := happ.key d hd k hkey
                refine ⟨s, rows, row, rfl, happ, hrow, hdev,
                  Option.some.inj (hrowkey.symm.trans hw), ?_⟩
                have hunknown : o.known s = none := by
                  rw [replayed_eq, Option.map_eq_none_iff] at hrep
                  exact hrep
                have hwhy := hapart k hkey
                rw [hunknown] at hwhy
                refine hwhy.2.resolve_right ?_
                intro href
                obtain ⟨d', hd', rejection, href⟩ := href
                rw [← happ.targets] at hd'
                obtain ⟨row', hrow', rfl⟩ := List.mem_map.mp hd'
                obtain ⟨hbefore, haccept, _⟩ := happ.admitted row' hrow'
                rw [hbefore] at haccept
                rw [show o.desired row'.device = (o.logs row'.device).desiredRecordingState from rfl,
                  haccept] at href
                cases href
              · rw [happ.untouched d hd] at hw
                exact .inl hw
      | _ => exact absurd trivial hother
  refine ⟨hc', membersFiled_step c h.conserved h.membersFiled hfresh, ?_, ?_⟩
  · intro d k w hw
    rcases hkeys d k w hw with hold | ⟨s, rows, row, _, happ, hrow, hdev, rfl, _⟩
    · exact (keyed_kept c h hfresh hold).1
    · exact ⟨row.record s, happ.new row hrow, hdev⟩
  · intro d k w r b hw hr hb
    rcases hkeys d k w hw with hold | ⟨s, rows, row, rfl, happ, hrow, rfl, rfl, hnd⟩
    · exact (keyed_kept c h hfresh hold).2 r b hr hb
    · rw [happ.new row hrow] at hr
      obtain rfl := Option.some.inj hr
      exact newestRow_of_appends hc' hfresh happ hnd hb hrow

end Step

/-! ## The promise over a run -/

theorem underKey_append (c : Chrono) (k : String) (d : DeviceId) (o : MemoryOutbox)
    (xs ys : List Op) :
    underKey c k d o (xs ++ ys)
      = underKey c k d o xs ++ underKey c k d (Machine.exec (step c) o xs) ys := by
  induction xs generalizing o with
  | nil => rfl
  | cons op xs ih => rw [List.cons_append, underKey, ih, underKey, List.append_assoc]; rfl

/-- A call admits under a key only what a target of it then knows the key by. -/
theorem key_of_admittedUnder (c : Chrono) {o : MemoryOutbox} {op : Op} (hfresh : Fresh o op)
    (hc : Conserved o) (k : String) (d : DeviceId) :
    (admittedUnder k d o op = [] ∧ ((step c o op).logs d).keys k = (o.logs d).keys k) ∨
      ∃ s, op = .submit s ∧ s.idempotencyKey = some k ∧ d ∈ s.targets ∧
        ∃ w ∈ admittedUnder k d o op, ((step c o op).logs d).keys k = some w := by
  by_cases hother : OtherKey k op
  · left
    refine ⟨?_, keys_step c hc hfresh hother d⟩
    cases op with
    | submit s =>
        have hkey : s.idempotencyKey ≠ some k := hother
        simp only [admittedUnder, if_neg hkey]
    | _ => rfl
  · cases op with
    | submit s =>
        have hkey : s.idempotencyKey = some k := not_not.mp hother
        simp only [admittedUnder, if_pos hkey]
        show (_ ∧ ((o.submit s).1.logs d).keys k = _) ∨ ∃ s', _ ∧ _ ∧ _ ∧ ∃ w ∈ _,
          ((o.submit s).1.logs d).keys k = some w
        rcases admitted_submit (o := o) hfresh.1 with ⟨hsame, hnone⟩ | ⟨rows, happ, _, hadm⟩
        · left
          rw [hsame, hnone]
          exact ⟨rfl, rfl⟩
        · by_cases hd : d ∈ s.targets
          · right
            obtain ⟨row, hrow, hdev, hkeys⟩ := happ.key d hd k hkey
            refine ⟨s, rfl, hkey, hd, row.id, ?_, hkeys⟩
            rw [hadm, idsOf_accepted]
            exact mem_onLane_entry.mpr ⟨row, hrow, rfl, hdev⟩
          · left
            rw [happ.untouched d hd, hadm, idsOf_accepted]
            refine ⟨List.eq_nil_iff_forall_not_mem.mpr ?_, rfl⟩
            intro w hw
            obtain ⟨row, hrow, _, rfl⟩ := mem_onLane_entry.mp hw
            exact hd (happ.targets ▸ List.mem_map_of_mem hrow)
    | _ => exact absurd trivial hother

/-- A device knows a key by a write admitted under it, and knows none that was not used. -/
theorem key_run (c : Chrono) {o : MemoryOutbox} (hc : Conserved o) {ops : List Op}
    (hrun : Machine.Along (step c) Fresh o ops) (k : String) (d : DeviceId)
    (hnone : (o.logs d).keys k = none) :
    match ((Machine.exec (step c) o ops).logs d).keys k with
    | some w => w ∈ underKey c k d o ops
    | none => underKey c k d o ops = [] := by
  induction ops using List.reverseRecOn with
  | nil =>
      rw [Machine.exec_nil, hnone]
      rfl
  | append_singleton ops op ih =>
      rw [Machine.along_append] at hrun
      have hih := ih hrun.1
      have hcend := conserved_exec c hc hrun.1
      rw [Machine.exec_append, underKey_append]
      simp only [Machine.exec_cons, Machine.exec_nil, underKey, List.append_nil]
      rcases key_of_admittedUnder c hrun.2.1 hcend k d with
        ⟨hadm, hkeys⟩ | ⟨s, _, _, _, w, hw, hkeys⟩
      · rw [hadm, hkeys, List.append_nil]
        exact hih
      · rw [hkeys]
        exact List.mem_append_right _ hw

/-- **The promise is kept over a run when it is kept at every call of it.** -/
theorem oncePerKey_iff_along (c : Chrono) {o : MemoryOutbox} (hc : Conserved o)
    (hnone : ∀ d k, (o.logs d).keys k = none) {ops : List Op}
    (hrun : Machine.Along (step c) Fresh o ops) :
    OncePerKey c o ops ↔ Machine.Along (step c) KeepsKey o ops := by
  rw [Machine.along_iff_split]
  -- what is known of the keys where the run is split
  have hsplitAt : ∀ earlier op later, ops = earlier ++ op :: later →
      Machine.Along (step c) Fresh o earlier ∧
        Fresh (Machine.exec (step c) o earlier) op ∧ Conserved (Machine.exec (step c) o earlier) := by
    intro earlier op later hsplit
    rw [hsplit, Machine.along_append] at hrun
    exact ⟨hrun.1, hrun.2.1, conserved_exec c hc hrun.1⟩
  refine ⟨?_, ?_⟩
  · intro h earlier op later hsplit
    obtain ⟨hearlier, _, _⟩ := hsplitAt earlier op later hsplit
    cases op with
    | submit s =>
        intro k hkey d
        have hknown := key_run c hc hearlier k d (hnone d k)
        cases hw : ((Machine.exec (step c) o earlier).logs d).keys k with
        | some w =>
            rw [hw] at hknown
            exact fun hd => h.original earlier s later hsplit k hkey d hd w hknown
        | none =>
            have honce := h.once k d
            rw [hsplit, underKey_append] at honce
            simp only [underKey, admittedUnder, if_pos hkey, List.length_append] at honce
            show (idsOf d (admitted _ (.submit s))).length ≤ 1
            omega
    | _ => trivial
  · intro h
    -- at most one so far, and the next call adds none to one
    have honce : ∀ k d later earlier, ops = earlier ++ later →
        (underKey c k d o earlier).length ≤ 1 := by
      intro k d later earlier
      induction earlier using List.reverseRecOn generalizing later with
      | nil => exact fun _ => Nat.zero_le _
      | append_singleton earlier op ih =>
          intro hsplit
          rw [List.append_assoc] at hsplit
          have hsofar := ih ([op] ++ later) hsplit
          obtain ⟨hearlier, hfresh, hcend⟩ := hsplitAt earlier op later hsplit
          have hknown := key_run c hc hearlier k d (hnone d k)
          have hkeeps := h earlier op later hsplit
          rw [underKey_append]
          simp only [underKey, List.append_nil, List.length_append]
          rcases key_of_admittedUnder c hfresh hcend k d with
            ⟨hadm, _⟩ | ⟨s, rfl, hkey, hd, v, _, _⟩
          · rw [hadm, List.length_nil]
            omega
          · have hat := hkeeps k hkey d
            simp only [admittedUnder, if_pos hkey]
            cases hw : ((Machine.exec (step c) o earlier).logs d).keys k with
            | some w =>
                rw [hw] at hat
                have hhist := history_admitted c hcend hfresh d
                rw [show ((step c _ (.submit s)).logs d).history = _ from (hat hd).2] at hhist
                have hlen := congrArg List.length hhist
                rw [List.length_append] at hlen
                omega
            | none =>
                rw [hw] at hat hknown
                rw [hknown, List.length_nil]
                have : (idsOf d (admitted (Machine.exec (step c) o earlier) (.submit s))).length ≤ 1 :=
                  hat
                omega
    refine ⟨?_, ?_⟩
    · intro k d
      exact honce k d [] ops (List.append_nil ops).symm
    · intro earlier s later hsplit k hkey d hd w hw
      obtain ⟨hearlier, _, _⟩ := hsplitAt earlier (.submit s) later hsplit
      have hknown := key_run c hc hearlier k d (hnone d k)
      have hat := h earlier (.submit s) later hsplit k hkey d
      have hsofar := honce k d (.submit s :: later) earlier hsplit
      cases hv : ((Machine.exec (step c) o earlier).logs d).keys k with
      | some v =>
          rw [hv] at hat hknown
          have hpos := List.length_pos_of_mem hw
          obtain ⟨u, hu⟩ := List.length_eq_one_iff.mp (le_antisymm hsofar hpos)
          rw [hu] at hknown hw
          obtain rfl := List.mem_singleton.mp hknown
          obtain rfl := List.mem_singleton.mp hw
          exact hat hd
      | none =>
          rw [hv] at hknown
          rw [hknown] at hw
          cases hw

/--
**One write to a key, exactly.** Over every run of well-formed submissions, and whatever
else is called in between: a device is given at most one write under a key and is
answered with it ever after, if and only if every submission keeps its key apart.
-/
theorem oncePerKey_iff (c : Chrono) (n : Nat) (backoff : Duration) (ops : List Op)
    (hrun : Machine.Along (step c) Sound (withMaxAttempts n backoff) ops) :
    OncePerKey c (withMaxAttempts n backoff) ops ↔
      Machine.Along (step c) KeyedApart (withMaxAttempts n backoff) ops := by
  rw [oncePerKey_iff_along c (conserved_init n backoff) (fun _ _ => rfl)
    (hrun.mono fun _ _ h => h.1)]
  have hstep : ∀ o op, Keyed o → Sound o op → KeyedApart o op → Keyed (step c o op) :=
    fun _ _ h hsound hapart => keyed_step c h hsound.1 hapart
  exact Machine.along_iff_of_invariant hstep (fun _ _ h hsound => keepsKey_iff h hsound) hrun
    (keyed_init n backoff)

/-- Name `targets`, each for itself, under one key. -/
def nameUnder (ids : List WriteId) (targets : List DeviceId) (seconds : String) : Submission where
  ids := ids
  targets := targets
  group := none
  batch := none
  barrier := none
  intent := .setSetting "UNIT_NAME" "studio"
  atTime := tenOClock seconds
  idempotencyKey := some "k"

/-- `b` is named by itself, and then with `a`, under the same key. -/
def overlappingKeys : List Op :=
  [.submit (nameUnder ["w1"] ["b"] "00"), .submit (nameUnder ["w2", "w3"] ["a", "b"] "01")]

theorem overlappingKeys_sound :
    Machine.Along (step utc) Sound (withMaxAttempts 3 1000000000) overlappingKeys := by
  refine ⟨⟨⟨by decide, fun _ _ => rfl, fun _ h => by cases h⟩, by decide, rfl⟩,
    ⟨⟨by decide, by decide +kernel, fun _ h => by cases h⟩, by decide, rfl⟩, trivial⟩

/-- `b` is given two writes under the one key. -/
theorem overlappingKeys_twice :
    ¬ OncePerKey utc (withMaxAttempts 3 1000000000) overlappingKeys := by
  intro h
  exact absurd (h.once "k" "b") (by decide +kernel)

/-- The exact condition, on that run. -/
theorem oncePerKey_iff_overlappingKeys :
    OncePerKey utc (withMaxAttempts 3 1000000000) overlappingKeys ↔
      Machine.Along (step utc) KeyedApart (withMaxAttempts 3 1000000000) overlappingKeys :=
  oncePerKey_iff utc 3 1000000000 overlappingKeys overlappingKeys_sound

end Sismatic
