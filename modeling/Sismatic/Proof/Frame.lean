import Sismatic.StoreMemory.Outbox

/-!
# What the outbox keeps beside its writes

A call moves queues, records and batches. What each group was told and the limit on attempts
are kept beside them: submitting files an expectation, and no other call moves either.
-/

namespace Sismatic.MemoryOutbox

/-- What each group was told, and the limit on attempts. -/
def beside (o : MemoryOutbox) : (GroupId → FieldName → Option GroupExpectation) × Nat :=
  (o.groups, o.maxAttempts)

/-- A fold of steps that each leave it alone leaves it alone. -/
theorem foldl_beside {σ α : Type} (outbox : σ → MemoryOutbox) {f : σ → α → σ}
    (hf : ∀ s a, (outbox (f s a)).beside = (outbox s).beside) (s : σ) (xs : List α) :
    (outbox (xs.foldl f s)).beside = (outbox s).beside := by
  induction xs generalizing s with
  | nil => rfl
  | cons x xs ih => exact (ih (f s x)).trans (hf s x)

/-! ## Submitting -/

theorem foldl_appendRow_beside (s : Submission) (o : MemoryOutbox) (rows : List Row) :
    (rows.foldl (appendRow s) o).beside = o.beside :=
  foldl_beside id (f := appendRow s) (fun _ _ => rfl) o rows

theorem armBatch_beside (s : Submission) (o : MemoryOutbox) :
    (armBatch s o).beside = o.beside := by
  unfold armBatch
  split
  · rfl
  · rfl

/-! ## Draining -/

theorem claimHead_beside (o : MemoryOutbox) (device : DeviceId) (now : Timestamp) :
    (o.claimHead device now).1.beside = o.beside := by
  unfold claimHead
  dsimp only
  split
  · rfl
  · split
    · rfl
    · rfl

theorem claimAll_beside (o : MemoryOutbox) (now : Timestamp) (members : List DeviceId) :
    (o.claimAll now members).1.beside = o.beside := by
  induction members generalizing o with
  | nil => rfl
  | cons member members ih =>
      have hhead := claimHead_beside o member now
      unfold claimAll
      split
      · rename_i heq
        rw [heq] at hhead
        exact hhead
      · rename_i o' claimed heq
        rw [heq] at hhead
        have hrest := ih o'
        split
        · rename_i heq'
          rw [heq'] at hrest
          exact hrest.trans hhead
        · rename_i heq'
          rw [heq'] at hrest
          exact hrest.trans hhead

theorem failHead_beside (o : MemoryOutbox) (now : Timestamp) (device : DeviceId) :
    (o.failHead now device).beside = o.beside := by
  unfold failHead
  dsimp only
  split
  · rfl
  · split
    · rfl
    · rfl

theorem stepBatch_beside (c : Chrono) (o : MemoryOutbox) (batch : BatchId) (device : DeviceId)
    (now : Timestamp) : (o.stepBatch c batch device now).1.beside = o.beside := by
  unfold stepBatch
  dsimp only
  split
  · rfl
  split
  · rfl
  · rfl
  split
  · rfl
  split
  · rfl
  · rfl
  split
  · rfl
  · rfl

theorem claimNext_beside (c : Chrono) (o : MemoryOutbox) (device : DeviceId) (now : Timestamp) :
    (o.claimNext c device now).1.beside = o.beside := by
  unfold claimNext
  split
  · rfl
  split
  · rfl
  split
  · rfl
  split
  · exact claimHead_beside o device now
  · rename_i batch _
    have hstep := stepBatch_beside c o batch device now
    split <;> rename_i heq <;> rw [heq] at hstep
    · exact hstep
    · exact hstep
    · exact (claimHead_beside _ device now).trans hstep
    · exact (claimAll_beside _ now _).trans hstep
    · exact (foldl_beside id (fun o member => failHead_beside o now member) _ _).trans hstep

/-! ## Settling -/

theorem unready_beside (o : MemoryOutbox) (batch : Option BatchId) (device : DeviceId) :
    (o.unready batch device).beside = o.beside := by
  unfold unready
  split
  · rfl
  · split
    · rfl
    · rfl

theorem dropMember_beside (o : MemoryOutbox) (batch : Option BatchId) (device : DeviceId) :
    (o.dropMember batch device).beside = o.beside := by
  unfold dropMember
  split
  · rfl
  · split
    · rfl
    · rfl

theorem settle_beside (c : Chrono) (o : MemoryOutbox) (id : WriteId) (outcome : Outcome)
    (now : Timestamp) : (o.settle c id outcome now).1.beside = o.beside := by
  unfold settle
  split
  · rfl
  split
  · rfl
  dsimp only
  split
  · rfl
  split
  · split
    · rfl
    · exact unready_beside _ _ _
  · exact dropMember_beside _ _ _

/-! ## Cancelling -/

theorem cancelBatch_beside (o : MemoryOutbox) (batch : BatchId) (reason : String) :
    (o.cancelBatch batch reason).1.beside = o.beside := by
  have hpending : ∀ (acc : MemoryOutbox × Nat) (id : WriteId),
      (cancelPending reason acc id).1.beside = acc.1.beside := by
    intro acc id
    unfold cancelPending
    split
    · rfl
    · split
      · rfl
      · rfl
  have hmember : ∀ (acc : MemoryOutbox × Nat) (member : DeviceId),
      (cancelMember batch reason acc member).1.beside = acc.1.beside :=
    fun acc member => foldl_beside Prod.fst hpending _ _
  unfold cancelBatch
  split
  · rfl
  · exact foldl_beside Prod.fst hmember _ _

theorem cancelQueued_beside (o : MemoryOutbox) (device : DeviceId) (reason : String) :
    (o.cancelQueued device reason).1.beside = o.beside := by
  have hdrained : ∀ (acc : MemoryOutbox × Nat) (id : WriteId),
      (cancelDrained reason acc id).1.beside = acc.1.beside := by
    intro acc id
    unfold cancelDrained
    split
    · rfl
    · rfl
  unfold cancelQueued
  dsimp only
  refine (foldl_beside Prod.fst (fun acc batch => ?_) _ _).trans
    (foldl_beside Prod.fst hdrained _ _)
  exact cancelBatch_beside acc.1 batch reason

/-! ## Any call -/

/-- **No call but a submission moves it.** -/
theorem step_beside (c : Chrono) (o : MemoryOutbox) {op : Op} (hop : ∀ s, op ≠ .submit s) :
    (step c o op).beside = o.beside := by
  cases op with
  | submit s => exact absurd rfl (hop s)
  | claimNext device now => exact claimNext_beside c o device now
  | settle id outcome now => exact settle_beside c o id outcome now
  | observe device observed => rfl
  | cancelQueued device reason => exact cancelQueued_beside o device reason
  | cancelBatch batch reason => exact cancelBatch_beside o batch reason

end Sismatic.MemoryOutbox
