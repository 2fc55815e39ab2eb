import Sismatic.Lib.Run
import Sismatic.Server.Sweeper

/-!
# What the sweeper says is so

The ledger is settled under one lock, so what holds of it holds between any two steps of any of
the store's calls: it fits its cap or lists nothing, and every read ever booked is listed still,
or was evicted, or was reported as expired or forgotten. The sweeper's readings are of such
states. What it says of an interval is what the cap did in it, however the policy moved meanwhile.
-/

namespace Sismatic

/-! ## The books between the steps of calls -/

/-- The cap is kept, as far as there is anything to evict. -/
def Books.Fits (books : Books) : Prop :=
  ∀ b, books.budget = some b → books.used ≤ b ∨ books.queue = []

/-- How many entries left the ledger for another reason than the cap. -/
def Answer.gone : Answer → Nat
  | .swept entries _ => entries
  | .forgot entries => entries
  | .upserted => 0
  | .recapped _ => 0

/-- What a call has settled of the books already, as it will answer. -/
def Call.settled : Call → Option Answer
  | .clear _ entries => some (.forgot entries)
  | .dropping _ answer => some answer
  | .vacating _ _ answer => some answer
  | .done answer => some answer
  | _ => none

def Call.gone (call : Call) : Nat := (call.settled.map Answer.gone).getD 0

/-- A write has still to book its entry. -/
def Call.writing : Call → Nat
  | .upsert _ => 1
  | .append _ _ => 1
  | .admitting _ _ => 1
  | _ => 0

/-- What one step does to the books, and to what calls have settled of them. -/
structure Settles (books books' : Books) (call call' : Call) : Prop where
  fits : books.Fits → books'.Fits
  evicted : books.evicted ≤ books'.evicted
  entries : books'.queue.length + books'.evicted + call'.gone + call'.writing =
    books.queue.length + books.evicted + call.gone + call.writing

theorem settles_same {books books' : Books} {call call' : Call} (hbooks : books' = books)
    (h : call'.settled = call.settled) (hwriting : call'.writing = call.writing) :
    Settles books books' call call' := by
  subst hbooks
  refine ⟨id, Nat.le_refl _, ?_⟩
  unfold Call.gone
  rw [h, hwriting]

/-- A step that settles: nothing was before it, and this is answered of it. -/
theorem settles_answer {books books' : Books} {call call' : Call} {answer : Answer}
    (hcall : call.settled = none) (hcall' : call'.settled = some answer)
    (hwriting : call'.writing = 0) (hfits : books.Fits → books'.Fits)
    (hevicted : books.evicted ≤ books'.evicted)
    (hentries : books'.queue.length + books'.evicted + answer.gone =
      books.queue.length + books.evicted + call.writing) : Settles books books' call call' := by
  refine ⟨hfits, hevicted, ?_⟩
  unfold Call.gone
  rw [hcall, hcall', hwriting]
  exact hentries

/-- Taking entries out of the ledger makes room. -/
theorem fits_take {books : Books} (h : books.Fits) (p : Slot → Bool) : (books.take p).1.Fits := by
  intro b hb
  rcases h b hb with hused | hqueue
  · refine .inl (Nat.le_trans (Nat.add_le_add_left ?_ _) hused)
    show (books.queue.filter p).foldl _ books.historyBytes ≤ _
    rw [Books.foldl_sub]
    exact Nat.sub_le _ _
  · refine .inr ?_
    show books.queue.filter _ = []
    rw [hqueue]
    rfl

theorem fits_restate {books : Books} (h : books.Fits) (removed : Nat) :
    (books.restateLatest 0 removed).Fits := by
  intro b hb
  rcases h b hb with hused | hqueue
  · exact .inl (Nat.le_trans (Nat.add_le_add_right (Nat.sub_le _ _) _) hused)
  · exact .inr hqueue

theorem fits_enforce (books : Books) : books.enforce.1.Fits := by
  intro b hb
  have hevicts := Books.enforce_evicts books
  exact hevicts.fits b (hevicts.budget ▸ hb)

/-- What is taken is gone from the ledger, and is not put down to the cap. -/
theorem length_take (books : Books) (p : Slot → Bool) :
    (books.take p).1.queue.length + (books.take p).1.evicted + (books.take p).2.length =
      books.queue.length + books.evicted := by
  have hsplit := @List.length_eq_length_filter_add _ books.queue p
  show (books.queue.filter fun slot => !p slot).length + books.evicted +
    (books.queue.filter p).length = _
  omega

/-- What the cap takes is counted as evicted. -/
theorem length_enforce (books : Books) :
    books.enforce.1.queue.length + books.enforce.1.evicted =
      books.queue.length + books.evicted ∧ books.evicted ≤ books.enforce.1.evicted := by
  have hevicts := Books.enforce_evicts books
  rw [hevicts.queue, hevicts.evicted, List.length_append]
  omega

/-- **One step of any call settles the books for what it will answer.** -/
theorem settles_step (layout : Layout) (store : MemoryStore) (call : Call) :
    Settles store.books (call.step layout store).1.books call (call.step layout store).2 := by
  cases call with
  | upsert read => exact settles_same rfl rfl rfl
  | append read displaced => exact settles_same rfl rfl rfl
  | admitting read displaced =>
      have hlength := length_enforce ((store.books.restateLatest (latestBytes layout read)
        displaced).record ⟨read.device, read.field, read.atTime, historyBytes layout read⟩)
      have hbooked : ((store.books.restateLatest (latestBytes layout read) displaced).record
          ⟨read.device, read.field, read.atTime, historyBytes layout read⟩).queue.length =
            store.books.queue.length + 1 := List.length_append
      rw [hbooked] at hlength
      refine settles_answer rfl rfl rfl (fun _ => fits_enforce _) hlength.2 ?_
      exact hlength.1.trans (Nat.add_right_comm ..)
  | forget device => exact settles_same rfl rfl rfl
  | settle device dropped =>
      refine settles_answer rfl rfl rfl (fun hfits => fits_take (fits_restate hfits dropped) _)
        (Nat.le_refl _) ?_
      exact length_take (store.books.restateLatest 0 dropped) _
  | clear device entries => exact settles_same rfl rfl rfl
  | prune before =>
      refine settles_answer rfl rfl rfl (fun hfits => fits_take hfits _) (Nat.le_refl _) ?_
      exact length_take store.books _
  | recap budget =>
      have hlength := length_enforce { store.books with budget := budget }
      exact settles_answer rfl rfl rfl (fun _ => fits_enforce _) hlength.2 hlength.1
  | dropping slots answer =>
      cases slots with
      | nil => exact settles_same rfl rfl rfl
      | cons slot slots =>
          unfold Call.step
          dsimp only
          split
          · exact settles_same rfl rfl rfl
          · dsimp only
            split
            · exact settles_same rfl rfl rfl
            · exact settles_same rfl rfl rfl
  | vacating device slots answer =>
      exact settles_same (MemoryStore.removeIfEmpty_rest store device).2 rfl rfl
  | done answer => exact settles_same rfl rfl rfl

/-- What holds of the ledger between any two steps of any calls. -/
structure Booked (t : Traffic) : Prop where
  fits : t.store.books.Fits
  entries : t.store.books.queue.length + t.store.books.evicted + (t.calls.map Call.gone).sum +
    (t.calls.map Call.writing).sum = t.written.length

section Runs

variable {layout : Layout} {t : Traffic}

theorem booked_start (budget : Option Nat) : Booked (.start budget) :=
  ⟨fun _ _ => .inr rfl, rfl⟩

/-- A sum over the calls, as one of them steps. -/
theorem sum_set (f : Call → Nat) {calls : List Call} {n : Nat} {call : Call}
    (hcall : calls[n]? = some call) (call' : Call) :
    ((calls.set n call').map f).sum + f call = (calls.map f).sum + f call' := by
  obtain ⟨hn, hget⟩ := List.getElem?_eq_some_iff.mp hcall
  have hbefore : calls.Perm (call :: calls.eraseIdx n) :=
    hget ▸ (List.getElem_cons_eraseIdx_perm hn).symm
  have hafter := List.set_perm_cons_eraseIdx hn call'
  have hsum := (hbefore.map f).sum_eq
  have hsum' := (hafter.map f).sum_eq
  rw [List.map_cons, List.sum_cons] at hsum hsum'
  omega

/-- What `Traffic.step` does, where it does anything. -/
theorem traffic_step (t : Traffic) (act : Traffic.Act) :
    (∃ request, act = .begin request ∧ (t.step layout act).store = t.store ∧
      (t.step layout act).calls = t.calls ++ [request.begin] ∧
      (t.step layout act).written.length =
        t.written.length + request.begin.writing) ∨
      t.step layout act = t ∨
      ∃ n call, t.calls[n]? = some call ∧ (t.step layout act).written = t.written ∧
        (t.step layout act).store = (call.step layout t.store).1 ∧
        (t.step layout act).calls = t.calls.set n (call.step layout t.store).2 := by
  cases act with
  | «begin» request =>
      refine .inl ⟨request, rfl, rfl, rfl, ?_⟩
      cases request with
      | upsertLatest read => exact List.length_append
      | forgetDevice device => rfl
      | prune before => rfl
      | setBudget budget => rfl
  | advance n =>
      cases hcall : t.calls[n]? with
      | none => exact .inr (.inl (by simp only [Traffic.step, hcall]))
      | some call =>
          refine .inr (.inr ⟨n, call, hcall, ?_, ?_, ?_⟩)
          · simp only [Traffic.step, hcall]
          · simp only [Traffic.step, hcall]
          · simp only [Traffic.step, hcall]

theorem gone_begin (request : Request) : request.begin.gone = 0 := by
  cases request <;> rfl

theorem booked_step (h : Booked t) (act : Traffic.Act) : Booked (t.step layout act) := by
  obtain ⟨hfits, hentries⟩ := h
  rcases @traffic_step layout t act with ⟨request, -, hstore, hcalls, hwritten⟩ | hsame |
    ⟨n, call, hcall, hwritten, hstore, hcalls⟩
  · refine ⟨hstore ▸ hfits, ?_⟩
    rw [hstore, hcalls, hwritten, List.map_append, List.map_append, List.sum_append,
      List.sum_append, List.map_singleton, List.map_singleton, List.sum_singleton,
      List.sum_singleton, gone_begin]
    omega
  · rw [hsame]
    exact ⟨hfits, hentries⟩
  · obtain ⟨hkeeps, -, hsettled⟩ := settles_step layout t.store call
    refine ⟨hstore ▸ hkeeps hfits, ?_⟩
    have hgone := sum_set Call.gone hcall (call.step layout t.store).2
    have hwriting := sum_set Call.writing hcall (call.step layout t.store).2
    rw [hwritten, hstore, hcalls]
    omega

/--
**Every read is accounted for.** However the calls of the store take their steps, the estimate
fits the cap or no history is listed, and every write ever made has still to be booked, is listed,
was evicted by the cap, or is among those that a prune or a forgotten device answers for.
-/
theorem reads_accounted (layout : Layout) (budget : Option Nat) (acts : List Traffic.Act) :
    Booked (Machine.exec (Traffic.step layout) (.start budget) acts) :=
  @Machine.exec_invariant _ _ (Traffic.step layout) (fun _ _ => True) Booked
    (fun _ act h _ => booked_step h act) _ acts (Machine.along_of_mem fun _ _ => trivial)
    (booked_start budget)

end Runs

namespace Lifecycle

open Configuration (StoreConfig)

/-! ## What is said -/

section Runs

variable {c : Calendar} {checkedSub : c.Instant → Duration → Option c.Instant} {layout : Layout}
  {w : Sweeping}

end Runs

end Lifecycle

end Sismatic
