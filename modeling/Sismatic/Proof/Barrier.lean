import Sismatic.Proof.Table

/-!
# The rendezvous

What ties a batch's gate to the rows filed under it. A batch still waiting has lost
no row: everything it was armed with is queued and untried. A batch released under
`failBatch` was released whole. A batch abandoned was never dispatched at all.

All of it is about one batch at a time, and a call touches the rows of one batch
at most, or of the batches it forgets; the rest is `BatchOk.congr`.
-/

namespace Sismatic

open MemoryOutbox

/-- The caller's other promise: a batch addresses no device twice. -/
def Distinct : Op → Prop
  | .submit s => s.batch ≠ none → s.targets.Nodup
  | _ => True

/-- What batch `b`'s gate says of its rows. -/
structure BatchOk (o : MemoryOutbox) (b : BatchId) : Prop where
  /-- One row for each member. -/
  unique : ∀ w w' r r', o.RowOf b w r → o.RowOf b w' r' → r.device = r'.device → w = w'
  /-- Nothing of a waiting batch has been claimed, failed or canceled. -/
  waiting : ∀ v, o.rendezvous b = some v → v.gate = .waiting →
    ∀ w r, o.RowOf b w r → r.status = .pending ∧ r.attempts = 0
  /-- A waiting batch waits for devices that have a row of it. -/
  members : ∀ v, o.rendezvous b = some v → v.gate = .waiting →
    ∀ d ∈ v.members, ∃ w r, o.RowOf b w r ∧ r.device = d
  /-- A row still queued and untried has its batch waiting for its device. -/
  fresh : ∀ w r, o.RowOf b w r → r.status = .pending → r.attempts = 0 →
    ∃ v, o.rendezvous b = some v ∧ r.device ∈ v.members
  /-- An abandoned batch was to fail, and nothing of it was ever claimed. -/
  abandoned : ∀ v, o.rendezvous b = some v → v.gate = .abandoned →
    v.barrier.onTimeout = .failBatch ∧
      ∀ w r, o.RowOf b w r → r.attempts = 0 ∧ r.status ≠ .inFlight
  /-- A batch that was to fail and was released was released whole. -/
  opened : ∀ v, o.rendezvous b = some v → v.gate = .opened → v.barrier.onTimeout = .failBatch →
    ∀ w r, o.RowOf b w r → 0 < r.attempts

section BatchOk

variable {o o' : MemoryOutbox} {b : BatchId}

/-- A call that leaves a batch's rendezvous and rows alone leaves what is said of it. -/
theorem BatchOk.congr (h : BatchOk o b) (hrv : o'.rendezvous b = o.rendezvous b)
    (hrows : ∀ w r, o'.RowOf b w r ↔ o.RowOf b w r) : BatchOk o' b where
  unique := by simpa only [hrows] using h.unique
  waiting := by simpa only [hrows, hrv] using h.waiting
  members := by simpa only [hrows, hrv] using h.members
  fresh := by simpa only [hrows, hrv] using h.fresh
  abandoned := by simpa only [hrows, hrv] using h.abandoned
  opened := by simpa only [hrows, hrv] using h.opened

/-- Rows of a batch are told apart by device however far they have got. -/
theorem BatchOk.unique_of_rows (h : BatchOk o b)
    (hrows : ∀ w r', o'.RowOf b w r' → ∃ r, o.RowOf b w r ∧ r'.device = r.device) :
    ∀ w w' r r', o'.RowOf b w r → o'.RowOf b w' r' → r.device = r'.device → w = w' := by
  intro w w' r r' hw hw' hdev
  obtain ⟨r₀, hr₀, hd⟩ := hrows w r hw
  obtain ⟨r₀', hr₀', hd'⟩ := hrows w' r' hw'
  exact h.unique w w' r₀ r₀' hr₀ hr₀' (by rw [← hd, hdev, hd'])

/-- What is left to say of a batch once it has been released. -/
theorem BatchOk.of_opened {v : Rendezvous} (hrv : o.rendezvous b = some v)
    (hg : v.gate = .opened)
    (hunique : ∀ w w' r r', o.RowOf b w r → o.RowOf b w' r' → r.device = r'.device → w = w')
    (hfresh : ∀ w r, o.RowOf b w r → r.status = .pending → r.attempts = 0 → r.device ∈ v.members)
    (hopened : v.barrier.onTimeout = .failBatch → ∀ w r, o.RowOf b w r → 0 < r.attempts) :
    BatchOk o b := by
  have hgate : ∀ v', o.rendezvous b = some v' → v' = v := fun v' hv' =>
    Option.some.inj (hv'.symm.trans hrv)
  refine ⟨hunique, ?_, ?_, fun w r hw hst hatt => ⟨v, hrv, hfresh w r hw hst hatt⟩, ?_, ?_⟩
  · intro v' hv' hg'
    rw [hgate v' hv', hg] at hg'
    cases hg'
  · intro v' hv' hg'
    rw [hgate v' hv', hg] at hg'
    cases hg'
  · intro v' hv' hg'
    rw [hgate v' hv', hg] at hg'
    cases hg'
  · intro v' hv' _ hpol
    rw [hgate v' hv'] at hpol
    exact hopened hpol

/-- What is left to say of a batch once it has been abandoned. -/
theorem BatchOk.of_abandoned {v : Rendezvous} (hrv : o.rendezvous b = some v)
    (hg : v.gate = .abandoned)
    (hunique : ∀ w w' r r', o.RowOf b w r → o.RowOf b w' r' → r.device = r'.device → w = w')
    (hfresh : ∀ w r, o.RowOf b w r → r.status = .pending → r.attempts = 0 → r.device ∈ v.members)
    (hpol : v.barrier.onTimeout = .failBatch)
    (hnever : ∀ w r, o.RowOf b w r → r.attempts = 0 ∧ r.status ≠ .inFlight) : BatchOk o b := by
  have hgate : ∀ v', o.rendezvous b = some v' → v' = v := fun v' hv' =>
    Option.some.inj (hv'.symm.trans hrv)
  refine ⟨hunique, ?_, ?_, fun w r hw hst hatt => ⟨v, hrv, hfresh w r hw hst hatt⟩, ?_, ?_⟩
  · intro v' hv' hg'
    rw [hgate v' hv', hg] at hg'
    cases hg'
  · intro v' hv' hg'
    rw [hgate v' hv', hg] at hg'
    cases hg'
  · intro v' hv' _
    rw [hgate v' hv']
    exact ⟨hpol, hnever⟩
  · intro v' hv' hg'
    rw [hgate v' hv', hg] at hg'
    cases hg'

/-- What is left to say of a batch once it has been forgotten. -/
theorem BatchOk.of_forgotten (hrv : o.rendezvous b = none)
    (hunique : ∀ w w' r r', o.RowOf b w r → o.RowOf b w' r' → r.device = r'.device → w = w')
    (hfresh : ∀ w r, o.RowOf b w r → r.status = .pending → 0 < r.attempts) : BatchOk o b := by
  have hno : ∀ v, o.rendezvous b ≠ some v := fun v hv => by rw [hrv] at hv; cases hv
  refine ⟨hunique, fun v hv => absurd hv (hno v), fun v hv => absurd hv (hno v), ?_,
    fun v hv => absurd hv (hno v), fun v hv => absurd hv (hno v)⟩
  intro w r hw hst hatt
  have hpos := hfresh w r hw hst
  omega

/-! ## Submitting -/

theorem batchOk_appends {s : Submission} {rows : List Row} (h : BatchOk o b)
    (hfresh : Fresh o (.submit s)) (hdist : Distinct (.submit s)) (happ : Appends s rows o o') :
    BatchOk o' b := by
  have hrv := rendezvous_appends (b := b) happ
  by_cases hb : s.batch = some b
  · rw [if_pos hb] at hrv
    -- the batch id is fresh, so the only rows of it are the ones just filed
    have hnew : ∀ w r, o'.RowOf b w r → ∃ row ∈ rows, row.id = w ∧ r = row.record s := by
      intro w r hw
      rcases rowOf_appends happ hw with hold | ⟨_, hrow⟩
      · exact absurd hold.2 (hfresh.2.2 b hb w r hold.1)
      · exact hrow
    have hnd : (rows.map Row.device).Nodup := by
      rw [happ.targets]
      exact hdist (by rw [hb]; simp)
    have hgate : ∀ v, o'.rendezvous b = some v → v = (armedBatch s).rendezvous := by
      intro v hv
      rw [hrv] at hv
      exact (Option.some.inj hv).symm
    refine ⟨?_, ?_, ?_, ?_, ?_, ?_⟩
    · intro w w' r r' hw hw' hdev
      obtain ⟨row, hrow, rfl, rfl⟩ := hnew w r hw
      obtain ⟨row', hrow', rfl, rfl⟩ := hnew w' r' hw'
      rw [List.inj_on_of_nodup_map hnd hrow hrow' hdev]
    · intro v _ _ w r hw
      obtain ⟨row, _, _, rfl⟩ := hnew w r hw
      exact ⟨rfl, rfl⟩
    · intro v hv _ d hd
      rw [hgate v hv] at hd
      have hmem : d ∈ s.targets := OrderedSet.mem_ofList.mp hd
      rw [← happ.targets] at hmem
      obtain ⟨row, hrow, rfl⟩ := List.mem_map.mp hmem
      exact ⟨row.id, row.record s, ⟨happ.new row hrow, hb⟩, rfl⟩
    · intro w r hw _ _
      obtain ⟨row, hrow, _, rfl⟩ := hnew w r hw
      refine ⟨_, hrv, OrderedSet.mem_ofList.mpr ?_⟩
      rw [← happ.targets]
      exact List.mem_map_of_mem hrow
    · intro v hv hg
      rw [hgate v hv] at hg
      cases hg
    · intro v hv hg
      rw [hgate v hv] at hg
      cases hg
  · rw [if_neg hb] at hrv
    refine h.congr hrv ?_
    intro w r
    refine ⟨?_, ?_⟩
    · intro hw
      rcases rowOf_appends happ hw with hold | ⟨hb', _⟩
      · exact hold
      · exact absurd hb' hb
    · intro hw
      refine ⟨?_, hw.2⟩
      rw [happ.old w ?_]
      · exact hw.1
      · intro hin
        have hnone := hfresh.2.1 w hin
        rw [hw.1] at hnone
        cases hnone

/-! ## Claiming -/

/-- The row of an arrived member is at the head of its queue. -/
theorem BatchOk.head_of_arrived (h : BatchOk o b) {e : Batch} {now : Timestamp} {w : WriteId}
    {r : WriteRecord} (hrow : o.RowOf b w r) (harr : r.device ∈ o.arrived e b now)
    (hf : o.Filed) : (o.logs r.device).queue.head? = some w := by
  obtain ⟨_, r', hdue, hb⟩ := mem_arrived.mp harr
  obtain ⟨id, q, hat⟩ := hf.headAt hdue
  have hid := h.unique w id r r' hrow ⟨hat.2.1, hb⟩ hat.2.2.1.symm
  rw [hat.1, List.head?_cons, hid]

theorem BatchOk.members_of_fresh (h : BatchOk o b) {v : Rendezvous}
    (hrv : o.rendezvous b = some v) {w : WriteId} {r : WriteRecord} (hrow : o.RowOf b w r)
    (hst : r.status = .pending) (hatt : r.attempts = 0) : r.device ∈ v.members := by
  obtain ⟨v', hv', hmem⟩ := h.fresh w r hrow hst hatt
  obtain rfl := Option.some.inj (hrv.symm.trans hv')
  exact hmem

/-- The rows of `b` are the old ones, some of them acted on. -/
def RowsActed (g : WriteRecord → WriteRecord) (b : BatchId) (o o' : MemoryOutbox) : Prop :=
  ∀ w r, o'.RowOf b w r → (∃ r₀, o.RowOf b w r₀ ∧ r = g r₀) ∨ o.RowOf b w r

theorem rowsActed_of_heads {f : DeviceLog → WriteRecord → DeviceLog}
    {g : WriteRecord → WriteRecord} {ms : List DeviceId} {o₁ : MemoryOutbox}
    (h : Heads f g ms o₁ o') (hrecs : o₁.records = o.records) (hg : ∀ r, (g r).batch = r.batch) :
    RowsActed g b o o' := by
  intro w r hw
  rcases rowOf_heads h hg hw with ⟨_, _, _, r₀, _, hrow, heq⟩ | ⟨_, hrow⟩
  · exact .inl ⟨r₀, ⟨hrecs ▸ hrow.1, hrow.2⟩, heq⟩
  · exact .inr ⟨hrecs ▸ hrow.1, hrow.2⟩

theorem BatchOk.unique_of_acted (h : BatchOk o b) {g : WriteRecord → WriteRecord}
    (hacted : RowsActed g b o o') (hg : ∀ r, (g r).device = r.device) :
    ∀ w w' r r', o'.RowOf b w r → o'.RowOf b w' r' → r.device = r'.device → w = w' := by
  refine h.unique_of_rows ?_
  intro w r hw
  rcases hacted w r hw with ⟨r₀, hrow, rfl⟩ | hrow
  · exact ⟨r₀, hrow, hg r₀⟩
  · exact ⟨r, hrow, rfl⟩

/-- What was acted on waits no more, so the untried rows are those of before. -/
theorem BatchOk.fresh_of_acted (h : BatchOk o b) {v : Rendezvous} (hrv : o.rendezvous b = some v)
    {g : WriteRecord → WriteRecord} (hacted : RowsActed g b o o')
    (hg : ∀ r, (g r).status ≠ .pending) : ∀ w r, o'.RowOf b w r → r.status = .pending →
      r.attempts = 0 → r.device ∈ v.members := by
  intro w r hw hst hatt
  rcases hacted w r hw with ⟨r₀, _, rfl⟩ | hrow
  · exact absurd hst (hg r₀)
  · exact h.members_of_fresh hrv hrow hst hatt

theorem claimed_not_pending (now : Timestamp) (r : WriteRecord) :
    (r.claimed now).status ≠ .pending := by simp [WriteRecord.claimed]

theorem expired_not_pending (now : Timestamp) (r : WriteRecord) :
    (r.expired now).status ≠ .pending := by simp [WriteRecord.expired]

/-- A row of an opened batch goes out alone. -/
theorem batchOk_one (h : BatchOk o b) {d : DeviceId} {now : Timestamp}
    (hheads : ClaimsHeads now [d] o o') {v : Rendezvous} (hrv : o.rendezvous b = some v)
    (hg : v.gate = .opened) : BatchOk o' b := by
  have hacted : RowsActed (WriteRecord.claimed now) b o o' :=
    rowsActed_of_heads hheads rfl fun _ => rfl
  refine .of_opened (by rw [rendezvous_heads hheads, hrv]) hg
    (h.unique_of_acted hacted fun _ => rfl)
    (h.fresh_of_acted hrv hacted (claimed_not_pending now)) ?_
  intro hpol w r hw
  rcases hacted w r hw with ⟨r₀, _, rfl⟩ | hrow
  · exact Nat.succ_pos _
  · exact h.opened v hrv hg hpol w r hrow

/-- The batch's arrived members go out together. -/
theorem batchOk_release (c : Chrono) (h : BatchOk o b) (hf : o.Filed) {e : Batch}
    {now : Timestamp} (he : o.batches b = some e) (hg : e.gate = .waiting)
    (hrel : o.Releasable c b e now)
    (hheads : ClaimsHeads now (o.arrived e b now).elems (o.resolved b e now .opened) o') :
    BatchOk o' b := by
  have hrv := rendezvous_eq he
  have hacted : RowsActed (WriteRecord.claimed now) b o o' :=
    rowsActed_of_heads hheads rfl fun _ => rfl
  have hfresh := h.fresh_of_acted hrv hacted (claimed_not_pending now)
  refine .of_opened (v := { e.rendezvous with gate := .opened })
    (by rw [rendezvous_heads hheads, rendezvous_resolved_self]) rfl
    (h.unique_of_acted hacted fun _ => rfl) hfresh ?_
  intro hpol w r hw
  rcases rowOf_heads hheads (fun _ => rfl) hw with ⟨_, _, _, r₀, _, _, rfl⟩ | ⟨hno, hrow⟩
  · exact Nat.succ_pos _
  · -- under `failBatch` everyone had arrived, and this row's device was waited for
    exfalso
    have hall : o.arrived e b now = e.members := by
      rcases hrel with hall | ⟨_, hpol'⟩
      · exact hall
      · rw [show e.barrier.onTimeout = .failBatch from hpol] at hpol'
        cases hpol'
    obtain ⟨hst, hatt⟩ := h.waiting _ hrv hg w r hrow
    have harr : r.device ∈ o.arrived e b now := hall ▸ h.members_of_fresh hrv hrow hst hatt
    exact hno r.device harr (h.head_of_arrived hrow harr hf)

/-- A head that came late to an abandoned batch is failed. -/
theorem batchOk_late (h : BatchOk o b) {d : DeviceId} {now : Timestamp}
    (hheads : FailsHeads now [d] o o') {v : Rendezvous} (hrv : o.rendezvous b = some v)
    (hg : v.gate = .abandoned) : BatchOk o' b := by
  have hacted : RowsActed (WriteRecord.expired now) b o o' :=
    rowsActed_of_heads hheads rfl fun _ => rfl
  obtain ⟨hpol, hnever⟩ := h.abandoned v hrv hg
  refine .of_abandoned (by rw [rendezvous_heads hheads, hrv]) hg
    (h.unique_of_acted hacted fun _ => rfl)
    (h.fresh_of_acted hrv hacted (expired_not_pending now)) hpol ?_
  intro w r hw
  rcases hacted w r hw with ⟨r₀, hrow, rfl⟩ | hrow
  · exact ⟨(hnever w r₀ hrow).1, by simp [WriteRecord.expired]⟩
  · exact hnever w r hrow

/-- Time runs out on a batch that is to fail. -/
theorem batchOk_expire (h : BatchOk o b) {e : Batch} {now : Timestamp}
    (he : o.batches b = some e) (hg : e.gate = .waiting) (hpol : e.barrier.onTimeout = .failBatch)
    (hheads : FailsHeads now (o.arrived e b now).elems (o.resolved b e now .abandoned) o') :
    BatchOk o' b := by
  have hrv := rendezvous_eq he
  have hacted : RowsActed (WriteRecord.expired now) b o o' :=
    rowsActed_of_heads hheads rfl fun _ => rfl
  have hfresh := h.fresh_of_acted hrv hacted (expired_not_pending now)
  refine .of_abandoned (v := { e.rendezvous with gate := .abandoned })
    (by rw [rendezvous_heads hheads, rendezvous_resolved_self]) rfl
    (h.unique_of_acted hacted fun _ => rfl) hfresh hpol ?_
  intro w r hw
  rcases hacted w r hw with ⟨r₀, hrow, rfl⟩ | hrow
  · exact ⟨(h.waiting _ hrv hg w r₀ hrow).2, by simp [WriteRecord.expired]⟩
  · obtain ⟨hst, hatt⟩ := h.waiting _ hrv hg w r hrow
    exact ⟨hatt, by rw [hst]; simp⟩

/-! ## Settling and cancelling -/

/--
A row in flight is settled. Its batch has been released, or forgotten since; the
row's own record changes, and its device may leave the rendezvous.
-/
theorem batchOk_settled (h : BatchOk o b) (hc : Conserved o) {id : WriteId} {r r' : WriteRecord}
    (hrow : o.RowOf b id r) (hst : r.status = .inFlight)
    (hrecs : o'.records = Function.update o.records id (some r')) (hsame : SameWrite r r')
    (hatt : r'.attempts = r.attempts)
    (hrv : o'.rendezvous b = o.rendezvous b ∨ (r'.status.terminal ∧
      o'.rendezvous b = (o.rendezvous b).map (Rendezvous.without · r.device))) : BatchOk o' b := by
  have htried : 0 < r.attempts :=
    hc.board.busy_tried id r.item (board_item hrow.1) (by rw [WriteRecord.item, hst]; rfl)
  have hcases : ∀ w r₁, o'.RowOf b w r₁ → (w = id ∧ r₁ = r') ∨ (w ≠ id ∧ o.RowOf b w r₁) := by
    intro w r₁ hw
    have hr₁ := hw.1
    rw [hrecs] at hr₁
    by_cases hid : w = id
    · subst hid
      rw [Function.update_self] at hr₁
      exact Or.inl ⟨rfl, (Option.some.inj hr₁).symm⟩
    · rw [Function.update_of_ne hid] at hr₁
      exact Or.inr ⟨hid, hr₁, hw.2⟩
  have hdevices : ∀ w r₁, o'.RowOf b w r₁ → ∃ r₀, o.RowOf b w r₀ ∧ r₁.device = r₀.device := by
    intro w r₁ hw
    rcases hcases w r₁ hw with ⟨rfl, rfl⟩ | ⟨_, hrow₁⟩
    · exact ⟨r, hrow, hsame.device⟩
    · exact ⟨r₁, hrow₁, rfl⟩
  have hunique := h.unique_of_rows hdevices
  cases hv : o.rendezvous b with
  | none =>
      refine .of_forgotten ?_ hunique ?_
      · rcases hrv with hrv | ⟨_, hrv⟩
        · rw [hrv, hv]
        · rw [hrv, hv]; rfl
      · intro w r₁ hw hst₁
        rcases hcases w r₁ hw with ⟨rfl, rfl⟩ | ⟨_, hrow₁⟩
        · omega
        · by_contra hzero
          obtain ⟨v, hv', _⟩ := h.fresh w r₁ hrow₁ hst₁ (by omega)
          rw [hv] at hv'
          cases hv'
  | some v =>
      -- a row of it is in flight, so it neither waits nor was abandoned
      have hg : v.gate = .opened := by
        cases hg : v.gate with
        | opened => rfl
        | waiting =>
            have hpend := (h.waiting v hv hg id r hrow).1
            rw [hst] at hpend
            cases hpend
        | abandoned => exact absurd hst ((h.abandoned v hv hg).2 id r hrow).2
      have hopened : v.barrier.onTimeout = .failBatch → ∀ w r₁, o'.RowOf b w r₁ →
          0 < r₁.attempts := by
        intro hpol w r₁ hw
        rcases hcases w r₁ hw with ⟨rfl, rfl⟩ | ⟨_, hrow₁⟩
        · omega
        · exact h.opened v hv hg hpol w r₁ hrow₁
      have hmem : ∀ w r₁, o'.RowOf b w r₁ → r₁.status = .pending → r₁.attempts = 0 →
          w ≠ id ∧ o.RowOf b w r₁ ∧ r₁.device ∈ v.members := by
        intro w r₁ hw hst₁ hatt₁
        rcases hcases w r₁ hw with ⟨rfl, rfl⟩ | ⟨hne, hrow₁⟩
        · omega
        · exact ⟨hne, hrow₁, h.members_of_fresh hv hrow₁ hst₁ hatt₁⟩
      rcases hrv with hrv | ⟨hterm, hrv⟩
      · refine .of_opened (by rw [hrv, hv]) hg hunique ?_ hopened
        exact fun w r₁ hw hst₁ hatt₁ => (hmem w r₁ hw hst₁ hatt₁).2.2
      -- the device leaves, and with one row for each device no untried row was waiting on it
      · refine .of_opened (v := v.without r.device) (by rw [hrv, hv]; rfl) hg hunique ?_ hopened
        intro w r₁ hw hst₁ hatt₁
        obtain ⟨hne, hrow₁, hin⟩ := hmem w r₁ hw hst₁ hatt₁
        refine OrderedSet.mem_erase.mpr ⟨hin, ?_⟩
        exact fun hdev => hne (h.unique w id r₁ r hrow₁ hrow hdev)

/-- A forgotten batch has every untried row of it canceled. -/
theorem batchOk_cancels {p : WriteId → Prop} {gone : BatchId → Prop} (h : BatchOk o b)
    (hcan : Cancels p gone o o')
    (hwhole : ∀ w r, o.RowOf b w r → r.status = .pending → p w → gone b)
    (hall : ∀ w r v, gone b → o.RowOf b w r → r.status = .pending → o.rendezvous b = some v →
      r.device ∈ v.members → p w) : BatchOk o' b := by
  have hcases : ∀ w r', o'.RowOf b w r' → ∃ r, o.RowOf b w r ∧ SameWrite r r' ∧
      (r' = r ∨ (r.status = .pending ∧ p w ∧ r'.status.terminal)) := by
    intro w r' hw
    cases hr : o.records w with
    | none =>
        have hnone := hcan.records w (by simp [hr])
        rw [hw.1, hr] at hnone
        cases hnone
    | some r =>
        rcases hcan.record hr with hsame | ⟨hst, hp, reason, hrec⟩
        · obtain rfl := Option.some.inj (hw.1.symm.trans hsame)
          exact ⟨r', ⟨hr, hw.2⟩, .refl r', Or.inl rfl⟩
        · obtain rfl := Option.some.inj (hw.1.symm.trans hrec)
          exact ⟨r, ⟨hr, hw.2⟩, ⟨rfl, rfl, rfl, rfl, rfl⟩, Or.inr ⟨hst, hp, rfl⟩⟩
  -- forgotten, it must leave no untried row behind; kept, it must have lost none
  by_cases hgone : gone b
  · refine .of_forgotten (rendezvous_none.mpr (hcan.forgotten b hgone)) (h.unique_of_rows ?_) ?_
    · intro w r' hw
      obtain ⟨r, hrow, hsame, _⟩ := hcases w r' hw
      exact ⟨r, hrow, hsame.device⟩
    · intro w r' hw hst
      obtain ⟨hr, hnp⟩ := hcan.pending hw.1 hst
      by_contra hzero
      obtain ⟨v, hv, hmem⟩ := h.fresh w r' ⟨hr, hw.2⟩ hst (by omega)
      exact hnp (hall w r' v hgone ⟨hr, hw.2⟩ hst hv hmem)
  · refine h.congr ?_ ?_
    · unfold rendezvous
      rw [hcan.batches b hgone]
    · intro w r'
      refine ⟨?_, ?_⟩
      · intro hw
        obtain ⟨r, hrow, _, heq | ⟨hst, hp, _⟩⟩ := hcases w r' hw
        · exact heq ▸ hrow
        · exact absurd (hwhole w r hrow hst hp) hgone
      · intro hrow
        rcases hcan.record hrow.1 with hsame | ⟨hst, hp, _⟩
        · exact ⟨hsame, hrow.2⟩
        · exact absurd (hwhole w r' hrow hst hp) hgone

end BatchOk

/-! ## Every call -/

/-- The outbox conserves its writes, and every batch's gate is true to its rows. -/
structure Guarded (o : MemoryOutbox) : Prop where
  conserved : Conserved o
  batch : ∀ b, BatchOk o b

/-- A run that mints its ids apart and addresses no device twice in one batch. -/
def Minted (o : MemoryOutbox) (op : Op) : Prop := Fresh o op ∧ Distinct op

theorem batchOk_claimed {c : Chrono} {o o' : MemoryOutbox} (h : Guarded o) {d : DeviceId}
    {now : Timestamp} {res : Except DrainError (Option Claim)} (hcl : Claimed c o d now o' res)
    (b : BatchId) : BatchOk o' b := by
  have hf := h.conserved.tidy.filed
  have hb := h.batch b
  -- acting on `d`'s head alone leaves every batch but the head's own as it was
  have hother : ∀ {f g} {r : WriteRecord}, Heads f g [d] o o' → (∀ r, (g r).batch = r.batch) →
      o.HeadDue d now r → r.batch ≠ some b → BatchOk o' b := by
    intro f g r hheads hg hdue hne
    refine hb.congr (by rw [rendezvous_heads hheads]) (rowOf_heads_other hheads hg ?_)
    intro m hm w q r' hat
    rw [List.mem_singleton] at hm
    subst hm
    rw [headAt_of_due hdue hat]
    exact hne
  -- and acting on the arrived of another batch does too
  have hothers : ∀ {f g b'} {e : Batch} {gate : Gate},
      Heads f g (o.arrived e b' now).elems (o.resolved b' e now gate) o' →
      (∀ r, (g r).batch = r.batch) → b ≠ b' → BatchOk o' b := by
    intro f g b' e gate hheads hg hne
    refine hb.congr ?_ (rowOf_heads_other (o := o.resolved b' e now gate) hheads hg ?_)
    · rw [rendezvous_heads hheads, rendezvous_resolved_other hne]
    · intro m hm w q r hat hbatch
      have harr := headAt_arrived hm hat
      rw [hbatch] at harr
      exact hne (Option.some.inj harr)
  cases hcl with
  | idle _ _ _ _ hrecs hrv => exact hb.congr (by rw [hrv]) (fun w r => by unfold RowOf; rw [hrecs])
  | one r hdue hopen hheads =>
      by_cases hbr : r.batch = some b
      · obtain ⟨e, he, hg⟩ := hopen b hbr
        exact batchOk_one hb hheads (rendezvous_eq he) hg
      · exact hother hheads (fun _ => rfl) hdue hbr
  | release r b' e rs hdue hb' he hg hwhy hheads =>
      by_cases hbb : b = b'
      · subst hbb
        exact batchOk_release c hb hf he hg hwhy hheads
      · exact hothers hheads (fun _ => rfl) hbb
  | late r b' e hdue hb' he hg hheads =>
      by_cases hbb : b = b'
      · subst hbb
        exact batchOk_late hb hheads (rendezvous_eq he) hg
      · refine hother hheads (fun _ => rfl) hdue ?_
        rw [hb']
        exact fun heq => hbb (Option.some.inj heq).symm
  | expire r b' e hdue hb' he hg hne hel hpol hheads =>
      by_cases hbb : b = b'
      · subst hbb
        exact batchOk_expire hb he hg hpol hheads
      · exact hothers hheads (fun _ => rfl) hbb

theorem batchOk_settle {o o' : MemoryOutbox} (h : Guarded o) {id : WriteId} {outcome : Outcome}
    {now : Timestamp} {res : Except DrainError Unit} (hspec : Settled o id outcome now o' res)
    (b : BatchId) : BatchOk o' b := by
  have hb := h.batch b
  -- a settled row of another batch, or of none
  have hother : ∀ (r r' : WriteRecord), o.records id = some r →
      o'.records = Function.update o.records id (some r') → r'.batch = r.batch →
      r.batch ≠ some b → o'.rendezvous b = o.rendezvous b → BatchOk o' b := by
    intro r r' hr hrecs hbatch hne hrv
    refine hb.congr hrv ?_
    intro w r₁
    unfold RowOf
    rw [hrecs]
    by_cases hw : w = id
    · subst hw
      rw [Function.update_self, hr]
      refine ⟨?_, ?_⟩
      · intro h'
        obtain ⟨h₁, h₂⟩ := h'
        obtain rfl := Option.some.inj h₁
        exact absurd (hbatch ▸ h₂) hne
      · intro h'
        obtain ⟨h₁, h₂⟩ := h'
        obtain rfl := Option.some.inj h₁
        exact absurd h₂ hne
    · rw [Function.update_of_ne hw]
  cases hspec with
  | refused what heq _ => rw [heq]; exact hb
  | succeeded r value hr hst _ heq =>
      have hrecs : o'.records = Function.update o.records id
          (some { r with status := .succeeded value, updatedAt := now }) := by rw [heq]; rfl
      have hrv : o'.rendezvous b = o.rendezvous b := by rw [heq]; rfl
      by_cases hbr : r.batch = some b
      · exact batchOk_settled hb h.conserved ⟨hr, hbr⟩ hst hrecs ⟨rfl, rfl, rfl, rfl, rfl⟩ rfl
          (.inl hrv)
      · exact hother r _ hr hrecs rfl hbr hrv
  | retried r reason notBefore updatedAt _ hr hst _ _ _ hrecs hrv =>
      by_cases hbr : r.batch = some b
      · exact batchOk_settled hb h.conserved ⟨hr, hbr⟩ hst hrecs ⟨rfl, rfl, rfl, rfl, rfl⟩ rfl
          (.inl (by rw [hrv]))
      · exact hother r _ hr hrecs rfl hbr (by rw [hrv])
  | dead r reason hr hst _ _ _ hrecs hrv =>
      by_cases hbr : r.batch = some b
      · exact batchOk_settled hb h.conserved ⟨hr, hbr⟩ hst hrecs ⟨rfl, rfl, rfl, rfl, rfl⟩ rfl
          (.inr ⟨rfl, by rw [hrv b, if_pos hbr]⟩)
      · exact hother r _ hr hrecs rfl hbr (by rw [hrv b, if_neg hbr])

/-- **Every call keeps the rendezvous true.** -/
theorem guarded_step (c : Chrono) {o : MemoryOutbox} (h : Guarded o) {op : Op}
    (hmint : Minted o op) : Guarded (step c o op) where
  conserved := conserved_step c h.conserved hmint.1
  batch := by
    intro b
    have hspec := step_spec c h.conserved hmint.1
    generalize step c o op = o' at hspec ⊢
    cases hspec with
    | submitted s _ hsub =>
        cases hsub with
        | refused e heq => rw [heq]; exact h.batch b
        | replayed acceptance heq _ => rw [heq]; exact h.batch b
        | appended rows _ _ happ => exact batchOk_appends (h.batch b) hmint.1 hmint.2 happ
    | claimed d now _ hcl => exact batchOk_claimed h hcl b
    | settled id outcome now _ hset => exact batchOk_settle h hset b
    | observed d state heq => rw [heq]; exact (h.batch b).congr rfl fun _ _ => Iff.rfl
    | canceledQueue d reason hcan =>
        refine batchOk_cancels (h.batch b) hcan ?_ ?_
        · exact fun w r hrow hst hp => cancelQueued_whole hrow hst hp
        · exact fun w r v hgone hrow _ hv hmem => .inr (doomed_of_member hgone hrow hv hmem)
    | canceledBatch b' reason hcan =>
        refine batchOk_cancels (h.batch b) hcan ?_ ?_
        · intro w r hrow _ hdoomed
          obtain ⟨b₁, e, rfl, _, r', hr', _, hb'⟩ := hdoomed
          obtain rfl := Option.some.inj (hrow.1.symm.trans hr')
          exact Option.some.inj (hrow.2.symm.trans hb')
        · exact fun w r v hgone hrow _ hv hmem => doomed_of_member hgone hrow hv hmem

theorem guarded_init (n : Nat) (backoff : Duration) : Guarded (withMaxAttempts n backoff) where
  conserved := conserved_init n backoff
  batch := by
    intro b
    refine .of_forgotten rfl ?_ ?_
    · intro w w' r r' h
      obtain ⟨hr, _⟩ := h
      cases hr
    · intro w r h
      obtain ⟨hr, _⟩ := h
      cases hr

theorem guarded_run (c : Chrono) {o : MemoryOutbox} (h : Guarded o) {ops : List Op}
    (hrun : Machine.Along (step c) Minted o ops) : Guarded (Machine.exec (step c) o ops) := by
  have hstep : ∀ o op, Guarded o → Minted o op → Guarded (step c o op) :=
    fun _ _ h hm => guarded_step c h hm
  exact Machine.exec_invariant hstep hrun h

end Sismatic
