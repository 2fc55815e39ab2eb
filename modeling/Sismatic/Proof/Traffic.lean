import Sismatic.Lib.Run
import Sismatic.Proof.Filing

/-!
# Calls of the store at once

A call takes its steps one lock at a time, so any number of calls stand between two of
theirs. What the ledger and the maps then differ by is in the hands of those calls: a read
is pushed before it is booked, its slot is claimed before it is popped, and what is latest
is replaced before its bytes are. Counting what every call still owes balances the two at
every moment, and when no call is in progress nothing is owed.

That holds as long as the pops find what was claimed. A removal that clears a series under
a call that has still to book or to drop in it breaks this, and so does a sweep whose slots
are not the front of their series.
-/

namespace Sismatic

/-! ## What a call owes -/

namespace Call

/-- The read it has pushed and has still to book. -/
def unbooked : Call → List Read
  | .admitting read _ => [read]
  | _ => []

/-- The slots it has claimed and has still to drop the entries of. -/
def claimed : Call → List Slot
  | .dropping slots _ => slots
  | .vacating _ slots _ => slots
  | _ => []

/-- What it has added to `latest` and not to the books. -/
def added (layout : Layout) : Call → Nat
  | .append read _ => latestBytes layout read
  | .admitting read _ => latestBytes layout read
  | _ => 0

/-- What it has taken from `latest` and not off the books. -/
def removed : Call → Nat
  | .append _ displaced => displaced
  | .admitting _ displaced => displaced
  | .settle _ dropped => dropped
  | _ => 0

end Call

section Owed

/-- What of a key the calls hold in one part of their course. -/
def held (part : Call → List Read) (calls : List Call) (k : SeriesKey) : List Read :=
  (calls.flatMap part).filter fun r => decide (r.key = k)

/-- The reads of a key that are pushed and not booked. -/
def unbooked (calls : List Call) (k : SeriesKey) : List Read := held Call.unbooked calls k

/-- How many entries of a key are claimed and not dropped. -/
def claimed (calls : List Call) (k : SeriesKey) : Nat :=
  (calls.flatMap Call.claimed).countP fun s => decide (s.key = k)

def added (layout : Layout) (calls : List Call) : Nat := (calls.map (Call.added layout)).sum

def removed (calls : List Call) : Nat := (calls.map Call.removed).sum

/-- A removal has taken the device's slots and has still to clear its history. -/
def Clearing (calls : List Call) (d : DeviceId) : Prop := ∃ n, .clear d n ∈ calls

variable {layout : Layout} {calls calls' : List Call}

theorem held_cons (part : Call → List Read) (call : Call) (calls : List Call) (k : SeriesKey) :
    held part (call :: calls) k =
      ((part call).filter fun r => decide (r.key = k)) ++ held part calls k := by
  rw [held, List.flatMap_cons, List.filter_append]
  rfl

theorem held_perm {part : Call → List Read} (h : calls.Perm calls') (k : SeriesKey) :
    (held part calls k).Perm (held part calls' k) := (h.flatMap_right part).filter _

@[simp] theorem unbooked_cons (call : Call) (calls : List Call) (k : SeriesKey) :
    unbooked (call :: calls) k =
      (call.unbooked.filter fun r => decide (r.key = k)) ++ unbooked calls k := held_cons ..

@[simp] theorem claimed_cons (call : Call) (calls : List Call) (k : SeriesKey) :
    claimed (call :: calls) k =
      (call.claimed.countP fun s => decide (s.key = k)) + claimed calls k := by
  rw [claimed, List.flatMap_cons, List.countP_append]
  rfl

@[simp] theorem added_cons (call : Call) (calls : List Call) :
    added layout (call :: calls) = call.added layout + added layout calls := by
  rw [added, List.map_cons, List.sum_cons]
  rfl

@[simp] theorem removed_cons (call : Call) (calls : List Call) :
    removed (call :: calls) = call.removed + removed calls := by
  rw [removed, List.map_cons, List.sum_cons]
  rfl

theorem unbooked_perm (h : calls.Perm calls') (k : SeriesKey) :
    (unbooked calls k).Perm (unbooked calls' k) := held_perm h k

theorem claimed_perm (h : calls.Perm calls') (k : SeriesKey) :
    claimed calls k = claimed calls' k := (h.flatMap_right Call.claimed).countP_eq _

theorem added_perm (h : calls.Perm calls') : added layout calls = added layout calls' :=
  (h.map (Call.added layout)).sum_eq

theorem removed_perm (h : calls.Perm calls') : removed calls = removed calls' :=
  (h.map Call.removed).sum_eq

end Owed

/-! ## The balance -/

/--
What is filed under a key: entries whose slots are claimed, then those the queue lists, in
its order, then those still to be booked.
-/
def Filed (layout : Layout) (store : MemoryStore) (calls : List Call) (k : SeriesKey) : Prop :=
  ∃ out booked rest, store.series k = out ++ booked ++ rest ∧
    booked.map (slotOf layout) = store.books.queue.filter (fun s => decide (s.key = k)) ∧
    rest.Perm (unbooked calls k) ∧ (Clearing calls k.1 ∨ out.length ≤ claimed calls k)

/-- The ledger and the maps agree up to what the calls in progress owe. -/
structure Balanced (layout : Layout) (store : MemoryStore) (calls : List Call) : Prop where
  filed : ∀ k, Filed layout store calls k
  history : store.books.Balanced
  latest : ∃ total, Totals (store.latestCost layout) total ∧
    store.books.latestBytes + added layout calls = total + removed calls
  noEmpty : store.NoEmptySeries
  vacant : ∀ d, store.Vacant d → ∃ slots answer, .vacating d slots answer ∈ calls

/-- What a call's next step must find for the ledger and the maps to go on agreeing. -/
def Unhindered (layout : Layout) (store : MemoryStore) (calls : List Call) : Call → Prop
  | .admitting read displaced =>
      displaced ≤ store.books.latestBytes + latestBytes layout read ∧
        ((store.series read.key).drop
          ((store.series read.key).length - (unbooked calls read.key).length)).head? = some read
  | .prune before => store.books.queue.Pairwise fun s s' => s.key = s'.key →
      s'.atTime.str < before.str → s.atTime.str < before.str
  | .settle _ dropped => dropped ≤ store.books.latestBytes
  | .clear d _ => (∀ call ∈ calls, ∀ read ∈ call.unbooked, read.device ≠ d) ∧
      ∀ slot ∈ store.books.queue, slot.device ≠ d
  | .dropping (slot :: _) _ => store.series slot.key = [] ∨
      (store.books.queue.filter fun s => decide (s.key = slot.key)).length +
        (unbooked calls slot.key).length < (store.series slot.key).length
  | _ => True

instance (layout : Layout) (store : MemoryStore) (calls : List Call) (call : Call) :
    Decidable (Unhindered layout store calls call) := by
  unfold Unhindered
  split <;> infer_instance

section Steps

variable {layout : Layout} {store store' : MemoryStore} {calls calls' : List Call}

theorem Filed.perm {k : SeriesKey} (h : Filed layout store calls k) (hperm : calls.Perm calls') :
    Filed layout store calls' k := by
  obtain ⟨out, booked, rest, hseries, hqueue, hrest, hout⟩ := h
  refine ⟨out, booked, rest, hseries, hqueue, hrest.trans (unbooked_perm hperm k), ?_⟩
  rcases hout with ⟨n, hn⟩ | hle
  · exact .inl ⟨n, hperm.mem_iff.mp hn⟩
  · exact .inr (claimed_perm hperm k ▸ hle)

theorem Balanced.perm (h : Balanced layout store calls) (hperm : calls.Perm calls') :
    Balanced layout store calls' := by
  refine ⟨fun k => (h.filed k).perm hperm, h.history, ?_, h.noEmpty, ?_⟩
  · rw [← added_perm hperm, ← removed_perm hperm]
    exact h.latest
  · intro d hd
    obtain ⟨slots, answer, hmem⟩ := h.vacant d hd
    exact ⟨slots, answer, hperm.mem_iff.mp hmem⟩

theorem Unhindered.perm {call : Call} (h : Unhindered layout store calls call)
    (hperm : calls.Perm calls') : Unhindered layout store calls' call := by
  have hlength : ∀ k, (unbooked calls k).length = (unbooked calls' k).length :=
    fun k => (unbooked_perm hperm k).length_eq
  unfold Unhindered at h ⊢
  cases call with
  | admitting read displaced =>
      dsimp only at h ⊢
      rw [← hlength read.key]
      exact h
  | clear d n => exact ⟨fun c hc => h.1 c (hperm.mem_iff.mpr hc), h.2⟩
  | dropping slots answer =>
      cases slots with
      | nil => trivial
      | cons slot slots =>
          dsimp only at h ⊢
          rw [← hlength slot.key]
          exact h
  | upsert | append | forget | settle | prune | recap | vacating | done => exact h

/-- A step that leaves a key's series and slots alone, and owes it no less. -/
theorem Filed.mono {k : SeriesKey} (h : Filed layout store calls k)
    (hseries : store'.series k = store.series k)
    (hqueue : store'.books.queue.filter (fun s => decide (s.key = k)) =
      store.books.queue.filter fun s => decide (s.key = k))
    (hunbooked : unbooked calls' k = unbooked calls k)
    (hclaimed : claimed calls k ≤ claimed calls' k)
    (hclearing : Clearing calls k.1 → Clearing calls' k.1) : Filed layout store' calls' k := by
  obtain ⟨out, booked, rest, heq, hbooked, hrest, hout⟩ := h
  refine ⟨out, booked, rest, hseries.trans heq, hbooked.trans hqueue.symm, ?_, ?_⟩
  · rwa [hunbooked]
  · exact hout.imp hclearing fun hle => hle.trans hclaimed

/-- Slots of a key that were in front of its others are claimed. -/
theorem Filed.claim {k : SeriesKey} (h : Filed layout store calls k) {gone : List Slot}
    (hseries : store'.series k = store.series k)
    (hqueue : store.books.queue.filter (fun s => decide (s.key = k)) =
      gone ++ store'.books.queue.filter fun s => decide (s.key = k))
    (hunbooked : unbooked calls' k = unbooked calls k)
    (hclaimed : Clearing calls' k.1 ∨ ((Clearing calls k.1 → Clearing calls' k.1) ∧
      claimed calls k + gone.length ≤ claimed calls' k)) :
    Filed layout store' calls' k := by
  obtain ⟨out, booked, rest, heq, hbooked, hrest, hout⟩ := h
  rw [hqueue] at hbooked
  obtain ⟨front, back, rfl, hfront, hback⟩ := List.map_eq_append_iff.mp hbooked
  refine ⟨out ++ front, back, rest, ?_, hback, ?_, ?_⟩
  · rw [hseries, heq]
    simp only [List.append_assoc]
  · rwa [hunbooked]
  · have hlength : front.length = gone.length := by rw [← hfront, List.length_map]
    rcases hclaimed with hclearing | ⟨hclearing, hle⟩
    · exact .inl hclearing
    · refine hout.imp hclearing fun hout => ?_
      rw [List.length_append, hlength]
      omega

end Steps

section Calls

variable {layout : Layout} {store : MemoryStore} {call call' : Call} {calls : List Call}

/-- A call that is not about to clear does not count as clearing. -/
theorem clearing_next {d : DeviceId} (hcall : ∀ d n, call ≠ .clear d n)
    (h : Clearing (call :: calls) d) : Clearing (call' :: calls) d := by
  obtain ⟨n, hn⟩ := h
  rcases List.mem_cons.mp hn with heq | hmem
  · exact absurd heq.symm (hcall d n)
  · exact ⟨n, List.mem_cons_of_mem _ hmem⟩

theorem vacating_next {d : DeviceId} (hcall : ∀ d slots answer, call ≠ .vacating d slots answer)
    (h : ∃ slots answer, .vacating d slots answer ∈ call :: calls) :
    ∃ slots answer, .vacating d slots answer ∈ call' :: calls := by
  obtain ⟨slots, answer, hmem⟩ := h
  rcases List.mem_cons.mp hmem with heq | hmem
  · exact absurd heq.symm (hcall d slots answer)
  · exact ⟨slots, answer, List.mem_cons_of_mem _ hmem⟩

/-- The latest read changes, and its bytes are owed. -/
theorem balanced_upsert {read : Read} (h : Balanced layout store (.upsert read :: calls)) :
    Balanced layout (Call.step layout store (.upsert read)).1
      ((Call.step layout store (.upsert read)).2 :: calls) := by
  refine ⟨fun k => (h.filed k).mono rfl rfl ?_ ?_ (clearing_next (by simp)), h.history, ?_,
    h.noEmpty, fun d hd => vacating_next (by simp) (h.vacant d hd)⟩
  · simp [Call.step, Call.unbooked]
  · simp [Call.step, Call.claimed]
  · obtain ⟨total, htotal, heq⟩ := h.latest
    obtain ⟨hle, hupdate⟩ := htotal.update read.key (latestBytes layout read)
    refine ⟨_, hupdate.congr fun k => congrFun (MemoryStore.latestCost_setLatest read) k, ?_⟩
    have hdisplaced : (((store.latest read.device)[read.field]?).map (latestBytes layout)).getD 0 =
        store.latestCost layout read.key := rfl
    simp only [added_cons, removed_cons, Call.step, Call.added, Call.removed, hdisplaced] at heq ⊢
    show store.books.latestBytes + _ = _
    omega

/-- The read is pushed, and still to be booked. -/
theorem balanced_append {read : Read} {displaced : Nat}
    (h : Balanced layout store (.append read displaced :: calls)) :
    Balanced layout (Call.step layout store (.append read displaced)).1
      ((Call.step layout store (.append read displaced)).2 :: calls) := by
  have hseries : ∀ k, (Call.step layout store (.append read displaced)).1.series k =
      if k = read.key then store.series read.key ++ [read] else store.series k :=
    fun k => MemoryStore.series_insert read.key k (store.series read.key ++ [read])
  refine ⟨fun k => ?_, h.history, ?_, h.noEmpty.insert read.device read.field (by simp), ?_⟩
  · by_cases hk : k = read.key
    · subst hk
      obtain ⟨out, booked, rest, heq, hbooked, hrest, hout⟩ := h.filed read.key
      refine ⟨out, booked, rest ++ [read], ?_, hbooked, ?_, ?_⟩
      · rw [hseries, if_pos rfl, heq, List.append_assoc]
      · simp only [unbooked_cons, Call.unbooked, List.filter_nil, List.nil_append] at hrest
        simp only [Call.step, unbooked_cons, Call.unbooked]
        simpa using List.perm_append_comm.trans (hrest.cons read)
      · exact hout.imp (clearing_next (by simp)) fun hle => by
          simpa [Call.step, Call.claimed] using hle
    · refine (h.filed k).mono ?_ rfl ?_ ?_ (clearing_next (by simp))
      · rw [hseries, if_neg hk]
      · simp [Call.step, Call.unbooked, Ne.symm hk]
      · simp [Call.step, Call.claimed]
  · obtain ⟨total, htotal, heq⟩ := h.latest
    refine ⟨total, htotal, ?_⟩
    simp only [added_cons, removed_cons, Call.step, Call.added, Call.removed] at heq ⊢
    exact heq
  · intro d hd
    rcases MemoryStore.vacant_setHistory hd with ⟨rfl, -⟩ | hold
    · exact absurd hd (MemoryStore.not_vacant_insert read.device read.field _)
    · exact vacating_next (by simp) (h.vacant d hold)

/-- Slots claimed from in front of their series are in the hand of the call that drops them. -/
theorem balanced_claim {books : Books} {gone : List Slot} {answer answer' : Answer}
    (h : Balanced layout store (.dropping [] answer :: calls))
    (hqueue : ∀ k, store.books.queue.filter (fun s => decide (s.key = k)) =
      gone.filter (fun s => decide (s.key = k)) ++
        books.queue.filter fun s => decide (s.key = k))
    (hhistory : books.Balanced) (hlatest : books.latestBytes = store.books.latestBytes) :
    Balanced layout { store with books := books } (.dropping gone answer' :: calls) := by
  refine ⟨fun k => ?_, hhistory, ?_, h.noEmpty,
    fun d hd => vacating_next (by simp) (h.vacant d hd)⟩
  · refine (h.filed k).claim rfl (hqueue k) (by simp [Call.unbooked]) (.inr ⟨?_, ?_⟩)
    · exact clearing_next (by simp)
    · simp only [claimed_cons, Call.claimed, List.countP_nil]
      rw [List.countP_eq_length_filter]
      omega
  · obtain ⟨total, htotal, heq⟩ := h.latest
    refine ⟨total, htotal, ?_⟩
    simp only [added_cons, removed_cons, Call.added, Call.removed] at heq ⊢
    show books.latestBytes + _ = _
    rw [hlatest]
    exact heq

theorem balanced_enforce {answer answer' : Answer}
    (h : Balanced layout store (.dropping [] answer :: calls)) :
    Balanced layout { store with books := store.books.enforce.1 }
      (.dropping store.books.enforce.2 answer' :: calls) := by
  have hevicts := store.books.enforce_evicts
  refine balanced_claim h (fun k => ?_) (hevicts.balanced h.history) hevicts.latestBytes
  rw [hevicts.queue, List.filter_append]

/-- The oldest read of its key that is not booked is booked, and the cap claims what it must. -/
theorem balanced_admitting {read : Read} {displaced : Nat}
    (h : Balanced layout store (.admitting read displaced :: calls))
    (hfree : Unhindered layout store (.admitting read displaced :: calls)
      (.admitting read displaced)) :
    Balanced layout (Call.step layout store (.admitting read displaced)).1
      ((Call.step layout store (.admitting read displaced)).2 :: calls) := by
  obtain ⟨hdisplaced, holdest⟩ := hfree
  have hrecorded : Balanced layout
      { store with
        books := (store.books.restateLatest (latestBytes layout read) displaced).record
          (slotOf layout read) } (.dropping [] .upserted :: calls) := by
    refine ⟨fun k => ?_, ?_, ?_, h.noEmpty, fun d hd => vacating_next (by simp) (h.vacant d hd)⟩
    · by_cases hk : k = read.key
      · subst hk
        obtain ⟨out, booked, rest, heq, hbooked, hrest, hout⟩ := h.filed read.key
        -- the reads that are not booked are the last of the series
        have hlast : (store.series read.key).drop ((store.series read.key).length -
            (unbooked (.admitting read displaced :: calls) read.key).length) = rest := by
          rw [← hrest.length_eq, heq, List.length_append, Nat.add_sub_cancel, List.drop_left]
        rw [hlast] at holdest
        obtain ⟨rest', rfl⟩ : ∃ rest', rest = read :: rest' := by
          cases rest with
          | nil => cases holdest
          | cons r rest' =>
              obtain rfl := Option.some.inj holdest
              exact ⟨rest', rfl⟩
        refine ⟨out, booked ++ [read], rest', ?_, ?_, ?_, ?_⟩
        · show store.series read.key = _
          rw [heq]
          simp only [List.append_assoc, List.cons_append, List.nil_append]
        · show _ = (store.books.queue ++ [slotOf layout read]).filter _
          rw [List.map_append, hbooked, List.filter_append]
          simp
        · simp only [unbooked_cons, Call.unbooked, List.filter_nil, List.nil_append] at hrest ⊢
          simpa using hrest
        · exact hout.imp (clearing_next (by simp)) fun hle => by
            simpa [Call.claimed] using hle
      · refine (h.filed k).mono rfl ?_ ?_ ?_ (clearing_next (by simp))
        · show (store.books.queue ++ [slotOf layout read]).filter _ = _
          rw [List.filter_append]
          simp [Ne.symm hk]
        · simp [Call.unbooked, Ne.symm hk]
        · simp [Call.claimed]
    · show store.books.historyBytes + (slotOf layout read).bytes =
        ((store.books.queue ++ [slotOf layout read]).map (·.bytes)).sum
      rw [show store.books.historyBytes = _ from h.history]
      simp
    · obtain ⟨total, htotal, heq⟩ := h.latest
      refine ⟨total, htotal, ?_⟩
      simp only [added_cons, removed_cons, Call.added, Call.removed] at heq ⊢
      show store.books.latestBytes + latestBytes layout read - displaced + _ = _
      omega
  exact balanced_enforce hrecorded

/-- A call goes on without touching the store or what it owes. -/
theorem balanced_next (h : Balanced layout store (call :: calls))
    (hunbooked : call'.unbooked = call.unbooked) (hclaimed : call'.claimed = call.claimed)
    (hadded : call'.added layout = call.added layout) (hremoved : call'.removed = call.removed)
    (hclear : ∀ d n, call ≠ .clear d n)
    (hvacating : ∀ d slots answer, call ≠ .vacating d slots answer) :
    Balanced layout store (call' :: calls) := by
  refine ⟨fun k => (h.filed k).mono rfl rfl ?_ ?_ (clearing_next hclear), h.history, ?_,
    h.noEmpty, fun d hd => vacating_next hvacating (h.vacant d hd)⟩
  · rw [unbooked_cons, unbooked_cons, hunbooked]
  · rw [claimed_cons, claimed_cons, hclaimed]
  · rw [added_cons, removed_cons, hadded, hremoved, ← added_cons, ← removed_cons]
    exact h.latest

theorem balanced_recap {budget : Option Nat}
    (h : Balanced layout store (.recap budget :: calls)) :
    Balanced layout (Call.step layout store (.recap budget)).1
      ((Call.step layout store (.recap budget)).2 :: calls) := by
  have hidle : Balanced layout store (.dropping [] .upserted :: calls) :=
    balanced_next h rfl rfl rfl rfl (by simp) (by simp)
  have hcapped : Balanced layout
      { store with books := { store.books with budget := budget } }
      (.dropping [] .upserted :: calls) :=
    ⟨hidle.filed, hidle.history, hidle.latest, hidle.noEmpty, hidle.vacant⟩
  exact balanced_enforce hcapped

/-- What stands in front of the rest is the rest's front. -/
theorem filter_split {α : Type} {p : α → Bool} {xs : List α}
    (h : xs.Pairwise fun x y => p y = true → p x = true) :
    xs = xs.filter p ++ xs.filter fun x => !p x := by
  induction xs with
  | nil => rfl
  | cons x xs ih =>
      obtain ⟨hx, hxs⟩ := List.pairwise_cons.mp h
      cases hp : p x with
      | true =>
          rw [List.filter_cons_of_pos hp, List.filter_cons_of_neg (by simp [hp]), List.cons_append,
            ← ih hxs]
      | false =>
          have hnone : xs.filter p = [] := by
            refine List.filter_eq_nil_iff.mpr fun y hy hpy => ?_
            rw [hx y hy hpy] at hp
            cases hp
          have hxs := ih hxs
          rw [hnone, List.nil_append] at hxs
          rw [List.filter_cons_of_neg (by simp [hp]), hnone, List.nil_append,
            List.filter_cons_of_pos (by simp [hp]), ← hxs]

/-- What has expired is claimed from in front of every series. -/
theorem balanced_prune {before : Timestamp} (h : Balanced layout store (.prune before :: calls))
    (hfree : Unhindered layout store (.prune before :: calls) (.prune before)) :
    Balanced layout (Call.step layout store (.prune before)).1
      ((Call.step layout store (.prune before)).2 :: calls) := by
  have hidle : Balanced layout store (.dropping [] .upserted :: calls) :=
    balanced_next h rfl rfl rfl rfl (by simp) (by simp)
  refine balanced_claim hidle (fun k => ?_) (Books.take_balanced h.history _) rfl
  have hpair : (store.books.queue.filter fun s => decide (s.key = k)).Pairwise fun s s' =>
      decide (s'.atTime.str < before.str) = true → decide (s.atTime.str < before.str) = true := by
    refine (List.Pairwise.filter _ hfree).imp_of_mem ?_
    intro s s' hs hs' hfirst
    have hk := of_decide_eq_true (List.mem_filter.mp hs).2
    have hk' := of_decide_eq_true (List.mem_filter.mp hs').2
    simpa only [decide_eq_true_eq] using hfirst (hk.trans hk'.symm)
  have hsplit := filter_split hpair
  rw [List.filter_filter, List.filter_filter] at hsplit
  show _ = (store.books.queue.filter fun s => decide (s.atTime.str < before.str)).filter _ ++
    (store.books.queue.filter fun s => !decide (s.atTime.str < before.str)).filter _
  rw [List.filter_filter, List.filter_filter]
  simp only [Bool.and_comm] at hsplit ⊢
  exact hsplit

/-- What is latest of the device goes, and its bytes are owed. -/
theorem balanced_forget {d : DeviceId} (h : Balanced layout store (.forget d :: calls)) :
    Balanced layout (Call.step layout store (.forget d)).1
      ((Call.step layout store (.forget d)).2 :: calls) := by
  refine ⟨fun k => (h.filed k).mono rfl rfl ?_ ?_ (clearing_next (by simp)), h.history, ?_,
    h.noEmpty, fun d hd => vacating_next (by simp) (h.vacant d hd)⟩
  · simp [Call.step, Call.unbooked]
  · simp [Call.step, Call.claimed]
  · obtain ⟨total, htotal, heq⟩ := h.latest
    obtain ⟨hle, hrest⟩ := MemoryStore.totals_forget htotal d
    refine ⟨_, hrest, ?_⟩
    simp only [added_cons, removed_cons, Call.step, Call.added, Call.removed] at heq ⊢
    show store.books.latestBytes + _ = _
    omega

/-- The slots that are left do not name the device, and of the others' none is gone. -/
theorem filter_takeDevice (queue : List Slot) (d : DeviceId) (k : SeriesKey) :
    (queue.filter fun s => !decide (s.device = d)).filter (fun s => decide (s.key = k)) =
      if k.1 = d then [] else queue.filter fun s => decide (s.key = k) := by
  rw [List.filter_filter]
  split
  · rename_i hk
    refine List.filter_eq_nil_iff.mpr fun s _ => ?_
    simp only [Bool.and_eq_true, decide_eq_true_eq, Bool.not_eq_true', decide_eq_false_iff_not]
    rintro ⟨rfl, hne⟩
    exact hne hk
  · rename_i hk
    refine List.filter_congr fun s _ => ?_
    by_cases hkey : s.key = k
    · have hne : s.device ≠ d := fun heq => hk (by rw [← hkey]; exact heq)
      simp [hkey, hne]
    · simp [hkey]

/-- The device's slots are taken, all of them, and its history is still to be cleared. -/
theorem balanced_settle {d : DeviceId} {dropped : Nat}
    (h : Balanced layout store (.settle d dropped :: calls))
    (hfree : Unhindered layout store (.settle d dropped :: calls) (.settle d dropped)) :
    Balanced layout (Call.step layout store (.settle d dropped)).1
      ((Call.step layout store (.settle d dropped)).2 :: calls) := by
  have hdropped : dropped ≤ store.books.latestBytes := hfree
  have hrestated : (store.books.restateLatest 0 dropped).Balanced := h.history
  have hqueue := filter_takeDevice store.books.queue d
  refine ⟨fun k => ?_, Books.take_balanced hrestated _, ?_, h.noEmpty,
    fun d hd => vacating_next (by simp) (h.vacant d hd)⟩
  · by_cases hk : k.1 = d
    · -- nothing of the device is listed any more
      subst hk
      have hgone : store.books.queue.filter (fun s => decide (s.key = k)) =
          store.books.queue.filter (fun s => decide (s.key = k)) ++
            (store.books.queue.filter fun s => !decide (s.device = k.1)).filter
              fun s => decide (s.key = k) := by
        rw [hqueue, if_pos rfl, List.append_nil]
      refine (h.filed k).claim rfl hgone ?_ (.inl ⟨_, List.mem_cons_self⟩)
      simp [Call.step, Call.unbooked]
    · refine (h.filed k).mono rfl ?_ ?_ ?_ (clearing_next (by simp))
      · exact (hqueue k).trans (if_neg hk)
      · simp [Call.step, Call.unbooked]
      · simp [Call.step, Call.claimed]
  · obtain ⟨total, htotal, heq⟩ := h.latest
    refine ⟨total, htotal, ?_⟩
    simp only [added_cons, removed_cons, Call.step, Call.added, Call.removed] at heq ⊢
    show store.books.latestBytes + 0 - dropped + _ = _
    omega

/-- The device's history goes, of which nothing is listed and nothing is still to be booked. -/
theorem balanced_clear {d : DeviceId} {entries : Nat}
    (h : Balanced layout store (.clear d entries :: calls))
    (hfree : Unhindered layout store (.clear d entries :: calls) (.clear d entries)) :
    Balanced layout (Call.step layout store (.clear d entries)).1
      ((Call.step layout store (.clear d entries)).2 :: calls) := by
  obtain ⟨hunbooked, hqueue⟩ := hfree
  have hseries : ∀ k, (Call.step layout store (.clear d entries)).1.series k =
      if k.1 = d then [] else store.series k := MemoryStore.series_clear d
  refine ⟨fun k => ?_, h.history, ?_, h.noEmpty.clear d, ?_⟩
  · by_cases hk : k.1 = d
    · subst hk
      refine ⟨[], [], [], ?_, ?_, ?_, .inr (Nat.zero_le _)⟩
      · rw [hseries, if_pos rfl]
        rfl
      · refine (List.filter_eq_nil_iff.mpr fun s hs => ?_).symm
        simp only [decide_eq_true_eq]
        rintro rfl
        exact hqueue s hs rfl
      · have hnone : unbooked (.clear k.1 entries :: calls) k = [] := by
          refine List.filter_eq_nil_iff.mpr fun r hr => ?_
          obtain ⟨call, hcall, hmem⟩ := List.mem_flatMap.mp hr
          simp only [decide_eq_true_eq]
          rintro rfl
          exact hunbooked call hcall r hmem rfl
        simp only [Call.step, unbooked_cons, Call.unbooked] at hnone ⊢
        rw [hnone]
    · refine (h.filed k).mono ?_ rfl ?_ ?_ ?_
      · rw [hseries, if_neg hk]
      · simp [Call.step, Call.unbooked]
      · simp [Call.step, Call.claimed]
      · rintro ⟨n, hn⟩
        rcases List.mem_cons.mp hn with heq | hmem
        · exact absurd (Call.clear.inj heq).1 hk
        · exact ⟨n, List.mem_cons_of_mem _ hmem⟩
  · obtain ⟨total, htotal, heq⟩ := h.latest
    exact ⟨total, htotal, heq⟩
  · intro d' hd'
    rcases MemoryStore.vacant_setHistory hd' with ⟨-, fs, hfs, -⟩ | hold
    · cases hfs
    · exact vacating_next (by simp) (h.vacant d' hold)

/-- A claimed entry is the first of what is left of its series, or the series is gone. -/
theorem filed_popped {store' : MemoryStore} {slot : Slot} {slots : List Slot} {answer : Answer}
    (h : ∀ k, Filed layout store (.dropping (slot :: slots) answer :: calls) k)
    (hfree : Unhindered layout store (.dropping (slot :: slots) answer :: calls)
      (.dropping (slot :: slots) answer))
    (hseries : ∀ k, store'.series k =
      if k = slot.key then (store.series slot.key).drop 1 else store.series k)
    (hbooks : store'.books = store.books) (hunbooked : call'.unbooked = [])
    (hclaimed : call'.claimed = slots) (k : SeriesKey) :
    Filed layout store' (call' :: calls) k := by
  have hclearing : ∀ d, Clearing (.dropping (slot :: slots) answer :: calls) d →
      Clearing (call' :: calls) d := fun d => clearing_next (by simp)
  have howed : unbooked (call' :: calls) k =
      unbooked (.dropping (slot :: slots) answer :: calls) k := by
    rw [unbooked_cons, unbooked_cons, hunbooked]
    rfl
  by_cases hk : k = slot.key
  · subst hk
    obtain ⟨out, booked, rest, heq, hbooked, hrest, hout⟩ := h slot.key
    have hcount : claimed (.dropping (slot :: slots) answer :: calls) slot.key =
        claimed (call' :: calls) slot.key + 1 := by
      rw [claimed_cons, claimed_cons, hclaimed, Call.claimed, List.countP_cons_of_pos (by simp)]
      omega
    rcases hfree with hempty | hlt
    · -- nothing is left to drop
      rw [hempty] at heq
      obtain ⟨hfront, rfl⟩ := List.append_eq_nil_iff.mp heq.symm
      obtain ⟨rfl, rfl⟩ := List.append_eq_nil_iff.mp hfront
      refine ⟨[], [], [], ?_, ?_, ?_, .inr (Nat.zero_le _)⟩
      · rw [hseries, if_pos rfl, hempty]
        rfl
      · rw [hbooks]
        exact hbooked
      · rwa [howed]
    · -- more is filed than is listed and to be booked
      have hlength := congrArg List.length heq
      have hlisted := congrArg List.length hbooked
      rw [List.length_append, List.length_append] at hlength
      rw [List.length_map] at hlisted
      have howing := hrest.length_eq
      cases out with
      | nil =>
          rw [List.length_nil] at hlength
          omega
      | cons r out =>
          refine ⟨out, booked, rest, ?_, ?_, ?_, ?_⟩
          · rw [hseries, if_pos rfl, heq]
            rfl
          · rw [hbooks]
            exact hbooked
          · rwa [howed]
          · refine hout.imp (hclearing _) fun hle => ?_
            rw [List.length_cons, hcount] at hle
            omega
  · refine (h k).mono ?_ (by rw [hbooks]) howed ?_ (hclearing k.1)
    · rw [hseries, if_neg hk]
    · rw [claimed_cons, claimed_cons, hclaimed, Call.claimed,
        List.countP_cons_of_neg (by simpa using Ne.symm hk)]

/-! Dropping one claimed entry. -/

section Dropping

variable (layout store) (slot : Slot) (slots : List Slot) (answer : Answer)

theorem dropping_none (h : store.history? slot.device = none) :
    Call.step layout store (.dropping (slot :: slots) answer) =
      (store, .dropping slots answer) := by
  simp only [Call.step, h]

theorem dropping_some {fields : Fields (List Read)} (h : store.history? slot.device = some fields) :
    Call.step layout store (.dropping (slot :: slots) answer) =
      (store.setHistory slot.device (some (MemoryStore.popFront fields slot.field)),
        if (MemoryStore.popFront fields slot.field).isEmpty then .vacating slot.device slots answer
        else .dropping slots answer) := by
  simp only [Call.step, h]

/-- The series of the slot loses its oldest read. -/
theorem dropping_series (k : SeriesKey) :
    (Call.step layout store (.dropping (slot :: slots) answer)).1.series k =
      if k = slot.key then (store.series slot.key).drop 1 else store.series k := by
  cases hfields : store.history? slot.device with
  | none =>
      rw [dropping_none layout store slot slots answer hfields]
      split
      · rename_i hk
        have hseries : store.series slot.key = [] := MemoryStore.series_of_none hfields
        rw [hk, hseries, List.drop_nil]
      · rfl
  | some fields =>
      rw [dropping_some layout store slot slots answer hfields]
      exact MemoryStore.series_popFront (k := slot.key) hfields k

theorem dropping_rest :
    (Call.step layout store (.dropping (slot :: slots) answer)).1.books = store.books ∧
      (Call.step layout store (.dropping (slot :: slots) answer)).1.latest = store.latest := by
  cases hfields : store.history? slot.device with
  | none =>
      rw [dropping_none layout store slot slots answer hfields]
      exact ⟨rfl, rfl⟩
  | some fields =>
      rw [dropping_some layout store slot slots answer hfields]
      exact ⟨rfl, rfl⟩

/-- What the call does next, and that only it leaves a device with nothing filed under it. -/
theorem dropping_next :
    (Call.step layout store (.dropping (slot :: slots) answer)).2 = .dropping slots answer ∧
        (∀ d, (Call.step layout store (.dropping (slot :: slots) answer)).1.Vacant d →
          store.Vacant d) ∨
      (Call.step layout store (.dropping (slot :: slots) answer)).2 =
        .vacating slot.device slots answer ∧
        ∀ d, (Call.step layout store (.dropping (slot :: slots) answer)).1.Vacant d →
          d = slot.device ∨ store.Vacant d := by
  cases hfields : store.history? slot.device with
  | none =>
      rw [dropping_none layout store slot slots answer hfields]
      exact .inl ⟨rfl, fun _ hd => hd⟩
  | some fields =>
      rw [dropping_some layout store slot slots answer hfields]
      cases hempty : (MemoryStore.popFront fields slot.field).isEmpty with
      | true =>
          refine .inr ⟨rfl, fun d hd => ?_⟩
          exact (MemoryStore.vacant_setHistory hd).imp_left And.left
      | false =>
          refine .inl ⟨rfl, fun d hd => ?_⟩
          rcases MemoryStore.vacant_setHistory hd with ⟨-, fs, hfs, hvacant⟩ | hold
          · obtain rfl := Option.some.inj hfs
            rw [hempty] at hvacant
            cases hvacant
          · exact hold

theorem dropping_noEmpty (h : store.NoEmptySeries) :
    (Call.step layout store (.dropping (slot :: slots) answer)).1.NoEmptySeries := by
  cases hfields : store.history? slot.device with
  | none =>
      rw [dropping_none layout store slot slots answer hfields]
      exact h
  | some fields =>
      rw [dropping_some layout store slot slots answer hfields]
      exact h.popFront hfields slot.field

end Dropping

theorem balanced_dropping {slot : Slot} {slots : List Slot} {answer : Answer}
    (h : Balanced layout store (.dropping (slot :: slots) answer :: calls))
    (hfree : Unhindered layout store (.dropping (slot :: slots) answer :: calls)
      (.dropping (slot :: slots) answer)) :
    Balanced layout (Call.step layout store (.dropping (slot :: slots) answer)).1
      ((Call.step layout store (.dropping (slot :: slots) answer)).2 :: calls) := by
  obtain ⟨hbooks, hlatest⟩ := dropping_rest layout store slot slots answer
  have hnext := dropping_next layout store slot slots answer
  have hseries := dropping_series layout store slot slots answer
  have hnoEmpty := dropping_noEmpty layout store slot slots answer h.noEmpty
  -- the step's outcome is known by these
  generalize Call.step layout store (.dropping (slot :: slots) answer) = next at *
  have howes : next.2.unbooked = [] ∧ next.2.claimed = slots ∧ next.2.added layout = 0 ∧
      next.2.removed = 0 := by
    rcases hnext with ⟨hcall, -⟩ | ⟨hcall, -⟩
    · rw [hcall]
      exact ⟨rfl, rfl, rfl, rfl⟩
    · rw [hcall]
      exact ⟨rfl, rfl, rfl, rfl⟩
  obtain ⟨hunbooked, hclaimed, hadded, hremoved⟩ := howes
  refine ⟨filed_popped h.filed hfree hseries hbooks hunbooked hclaimed, ?_, ?_, hnoEmpty, ?_⟩
  · rw [hbooks]
    exact h.history
  · obtain ⟨total, htotal, heq⟩ := h.latest
    refine ⟨total, htotal.congr fun k => ?_, ?_⟩
    · rw [MemoryStore.latestCost, hlatest]
      rfl
    · rw [added_cons, removed_cons] at heq ⊢
      rw [hbooks, hadded, hremoved]
      exact heq
  · intro d hd
    rcases hnext with ⟨-, hvacant⟩ | ⟨hcall, hvacant⟩
    · exact vacating_next (by simp) (h.vacant d (hvacant d hd))
    · rcases hvacant d hd with rfl | hold
      · exact ⟨slots, answer, hcall ▸ List.mem_cons_self⟩
      · exact vacating_next (by simp) (h.vacant d hold)

theorem balanced_vacating {d : DeviceId} {slots : List Slot} {answer : Answer}
    (h : Balanced layout store (.vacating d slots answer :: calls)) :
    Balanced layout (store.removeIfEmpty d) (.dropping slots answer :: calls) := by
  obtain ⟨hlatest, hbooks⟩ := MemoryStore.removeIfEmpty_rest store d
  refine ⟨fun k => (h.filed k).mono (MemoryStore.series_removeIfEmpty d k) (by rw [hbooks]) ?_ ?_
    (clearing_next (by simp)), ?_, ?_, h.noEmpty.removeIfEmpty d, ?_⟩
  · simp [Call.unbooked]
  · simp [Call.claimed]
  · rw [hbooks]
    exact h.history
  · obtain ⟨total, htotal, heq⟩ := h.latest
    refine ⟨total, htotal.congr fun k => ?_, ?_⟩
    · rw [MemoryStore.latestCost, hlatest]
      rfl
    · rw [hbooks]
      exact heq
  · intro d' hd'
    obtain ⟨hold, hne⟩ := MemoryStore.vacant_removeIfEmpty hd'
    obtain ⟨slots', answer', hmem⟩ := h.vacant d' hold
    rcases List.mem_cons.mp hmem with heq | hmem
    · exact absurd (Call.vacating.inj heq).1 hne
    · exact ⟨slots', answer', List.mem_cons_of_mem _ hmem⟩

theorem balanced_call (h : Balanced layout store (call :: calls))
    (hfree : Unhindered layout store (call :: calls) call) :
    Balanced layout (call.step layout store).1 ((call.step layout store).2 :: calls) := by
  cases call with
  | upsert read => exact balanced_upsert h
  | append read displaced => exact balanced_append h
  | admitting read displaced => exact balanced_admitting h hfree
  | forget d => exact balanced_forget h
  | settle d dropped => exact balanced_settle h hfree
  | clear d entries => exact balanced_clear h hfree
  | prune before => exact balanced_prune h hfree
  | recap budget => exact balanced_recap h
  | dropping slots answer =>
      cases slots with
      | nil => exact balanced_next h rfl rfl rfl rfl (by simp) (by simp)
      | cons slot slots => exact balanced_dropping h hfree
  | vacating d slots answer => exact balanced_vacating h
  | done answer => exact h

end Calls

/-! ## Traffic -/

/-- The store and every call of it so far, with the reads they were to write. -/
structure Traffic where
  store : MemoryStore
  calls : List Call
  /-- What was to be written, in the order the calls were made. -/
  written : List Read

namespace Traffic

inductive Act
  | begin (request : Request)
  /-- The call in this place takes its next step. -/
  | advance (n : Nat)

def start (budget : Option Nat) : Traffic := ⟨.withBudget budget, [], []⟩

def step (layout : Layout) (t : Traffic) : Act → Traffic
  | .begin request =>
      { t with
        calls := t.calls ++ [request.begin]
        written := match request with
          | .upsertLatest read => t.written ++ [read]
          | _ => t.written }
  | .advance n =>
      match t.calls[n]? with
      | none => t
      | some call =>
          let (store, call) := call.step layout t.store
          { t with store := store, calls := t.calls.set n call }

/-- No call is in progress. -/
def Quiet (t : Traffic) : Prop := ∀ call ∈ t.calls, ∃ answer, call = .done answer

/-- A call that takes its next step finds what it counts on. -/
def Undisturbed (layout : Layout) (t : Traffic) : Act → Prop
  | .begin _ => True
  | .advance n =>
      match t.calls[n]? with
      | none => True
      | some call => Unhindered layout t.store t.calls call

instance (layout : Layout) (t : Traffic) (act : Act) :
    Decidable (t.Undisturbed layout act) := by
  unfold Undisturbed
  split
  · infer_instance
  · split <;> infer_instance

end Traffic

/--
The books list exactly what is filed, in its order, the totals are what the entries come
to, and nothing empty is kept.
-/
structure Exact (layout : Layout) (store : MemoryStore) : Prop where
  listed : ∀ k, store.books.queue.filter (fun s => decide (s.key = k)) =
    (store.series k).map (slotOf layout)
  history : Totals (fun k => entryBytes layout (store.series k)) store.books.historyBytes
  latest : Totals (store.latestCost layout) store.books.latestBytes
  noEmpty : store.NoEmptySeries
  occupied : ∀ d, ¬ store.Vacant d

section Runs

variable {layout : Layout} {t : Traffic}

theorem balanced_start (layout : Layout) (budget : Option Nat) :
    Balanced layout (Traffic.start budget).store (Traffic.start budget).calls where
  filed := by
    intro k
    exact ⟨[], [], [], MemoryStore.series_of_none rfl, rfl, .nil, .inr (Nat.zero_le _)⟩
  history := rfl
  latest := by
    refine ⟨0, Totals.zero.congr fun k => ?_, rfl⟩
    show (((∅ : Fields Read)[k.2]?).map _).getD 0 = 0
    simp
  noEmpty := by
    intro d fields hfields
    cases hfields
  vacant := by
    rintro d ⟨fields, hfields, -⟩
    cases hfields

/-- A call that has still to take its first step owes nothing. -/
theorem balanced_begin {store : MemoryStore} {calls : List Call} (h : Balanced layout store calls)
    (request : Request) : Balanced layout store (request.begin :: calls) := by
  have hclear : ∀ d, Clearing calls d → Clearing (request.begin :: calls) d := by
    rintro d ⟨n, hn⟩
    exact ⟨n, List.mem_cons_of_mem _ hn⟩
  have howes : request.begin.unbooked = [] ∧ request.begin.claimed = [] ∧
      request.begin.added layout = 0 ∧ request.begin.removed = 0 := by
    cases request <;> exact ⟨rfl, rfl, rfl, rfl⟩
  obtain ⟨hunbooked, hclaimed, hadded, hremoved⟩ := howes
  refine ⟨fun k => (h.filed k).mono rfl rfl ?_ ?_ (hclear k.1), h.history, ?_, h.noEmpty, ?_⟩
  · rw [unbooked_cons, hunbooked]
    rfl
  · rw [claimed_cons, hclaimed]
    exact Nat.le_add_left _ _
  · rw [added_cons, removed_cons, hadded, hremoved, Nat.zero_add, Nat.zero_add]
    exact h.latest
  · intro d hd
    obtain ⟨slots, answer, hmem⟩ := h.vacant d hd
    exact ⟨slots, answer, List.mem_cons_of_mem _ hmem⟩

/-- The call that steps is put in front, where nothing depends on the order. -/
theorem balanced_step (h : Balanced layout t.store t.calls) {act : Traffic.Act}
    (hact : t.Undisturbed layout act) :
    Balanced layout (t.step layout act).store (t.step layout act).calls := by
  cases act with
  | «begin» request =>
      exact (balanced_begin h request).perm (List.perm_append_singleton _ _).symm
  | advance n =>
      cases hcall : t.calls[n]? with
      | none =>
          have hstep : t.step layout (.advance n) = t := by simp only [Traffic.step, hcall]
          rw [hstep]
          exact h
      | some call =>
          obtain ⟨hn, hget⟩ := List.getElem?_eq_some_iff.mp hcall
          have hperm : t.calls.Perm (call :: t.calls.eraseIdx n) :=
            hget ▸ (List.getElem_cons_eraseIdx_perm hn).symm
          have hfree : Unhindered layout t.store t.calls call := by
            simpa only [Traffic.Undisturbed, hcall] using hact
          have hstep : t.step layout (.advance n) =
              { t with
                store := (call.step layout t.store).1
                calls := t.calls.set n (call.step layout t.store).2 } := by
            simp only [Traffic.step, hcall]
          rw [hstep]
          exact (balanced_call (h.perm hperm) (hfree.perm hperm)).perm
            (List.set_perm_cons_eraseIdx hn _).symm

theorem balanced_run {budget : Option Nat} {acts : List Traffic.Act}
    (h : Machine.Along (Traffic.step layout) (Traffic.Undisturbed layout) (.start budget) acts) :
    Balanced layout (Machine.exec (Traffic.step layout) (.start budget) acts).store
      (Machine.exec (Traffic.step layout) (.start budget) acts).calls := by
  have hstep : ∀ (t : Traffic) (act : Traffic.Act), Balanced layout t.store t.calls →
      t.Undisturbed layout act →
        Balanced layout (t.step layout act).store (t.step layout act).calls :=
    fun _ _ h hact => balanced_step h hact
  exact Machine.exec_invariant hstep h (balanced_start layout budget)

/-- With no call in progress nothing is owed. -/
theorem Balanced.exact (h : Balanced layout t.store t.calls) (hquiet : t.Quiet) :
    Exact layout t.store := by
  have hunbooked : ∀ k, unbooked t.calls k = [] := by
    intro k
    refine List.filter_eq_nil_iff.mpr fun r hr => ?_
    obtain ⟨call, hcall, hmem⟩ := List.mem_flatMap.mp hr
    obtain ⟨answer, rfl⟩ := hquiet call hcall
    cases hmem
  have hclaimed : ∀ k, claimed t.calls k = 0 := by
    intro k
    refine List.countP_eq_zero.mpr fun s hs => ?_
    obtain ⟨call, hcall, hmem⟩ := List.mem_flatMap.mp hs
    obtain ⟨answer, rfl⟩ := hquiet call hcall
    cases hmem
  have hlisted : ∀ k, t.store.books.queue.filter (fun s => decide (s.key = k)) =
      (t.store.series k).map (slotOf layout) := by
    intro k
    obtain ⟨out, booked, rest, heq, hbooked, hrest, hout⟩ := h.filed k
    rw [hunbooked] at hrest
    obtain rfl := hrest.eq_nil
    have hnone : out = [] := by
      rcases hout with ⟨n, hn⟩ | hle
      · obtain ⟨answer, hanswer⟩ := hquiet _ hn
        cases hanswer
      · rw [hclaimed] at hle
        exact List.length_eq_zero_iff.mp (Nat.le_zero.mp hle)
    rw [heq, hnone, List.append_nil, List.nil_append, hbooked]
  refine ⟨hlisted, ?_, ?_, h.noEmpty, ?_⟩
  · have htotal := Totals.of_list Slot.key Slot.bytes t.store.books.queue
    rw [show t.store.books.historyBytes = _ from h.history]
    refine htotal.congr fun k => ?_
    rw [hlisted, sum_slots]
  · obtain ⟨total, htotal, heq⟩ := h.latest
    have howed : added layout t.calls = 0 ∧ removed t.calls = 0 := by
      refine ⟨List.sum_eq_zero fun n hn => ?_, List.sum_eq_zero fun n hn => ?_⟩
      · obtain ⟨call, hcall, rfl⟩ := List.mem_map.mp hn
        obtain ⟨answer, rfl⟩ := hquiet call hcall
        rfl
      · obtain ⟨call, hcall, rfl⟩ := List.mem_map.mp hn
        obtain ⟨answer, rfl⟩ := hquiet call hcall
        rfl
    rw [howed.1, howed.2, Nat.add_zero, Nat.add_zero] at heq
    rwa [heq]
  · intro d hd
    obtain ⟨slots, answer, hmem⟩ := h.vacant d hd
    obtain ⟨answer', hanswer⟩ := hquiet _ hmem
    cases hanswer

end Runs

/--
**The books are exact between calls**, in every run of whose steps each finds what it counts
on: whenever no call is in progress the ledger lists exactly what is filed, and the totals
are what is stored.
-/
theorem books_exact {layout : Layout} {budget : Option Nat} {acts : List Traffic.Act}
    (hrun : Machine.Along (Traffic.step layout) (Traffic.Undisturbed layout) (.start budget) acts)
    (hquiet : (Machine.exec (Traffic.step layout) (.start budget) acts).Quiet) :
    Exact layout (Machine.exec (Traffic.step layout) (.start budget) acts).store :=
  (balanced_run hrun).exact hquiet

/-- One title of one device. -/
def titled (title : String) (atTime : String) : Read := ⟨"a", "TITLE", .text title, ⟨atTime⟩⟩

/-- The title is written, the device forgotten, and another title written after it. -/
def forgottenBetween : List Traffic.Act :=
  [.begin (.upsertLatest (titled "Lecture" "2026-01-01T12:00:03.000Z")),
    .advance 0, .advance 0, .begin (.forgetDevice "a"), .advance 0, .advance 0,
    .begin (.upsertLatest (titled "Seminar" "2026-01-01T12:00:05.000Z")),
    .advance 1, .advance 1, .advance 1, .advance 2, .advance 2, .advance 2, .advance 2]

theorem books_exact_forgottenBetween :
    Exact layout64 (Machine.exec (Traffic.step layout64) (.start none) forgottenBetween).store ∧
      (Machine.exec (Traffic.step layout64) (.start none) forgottenBetween).store.books.queue =
        [slotOf layout64 (titled "Seminar" "2026-01-01T12:00:05.000Z")] := by
  have hcalls : (Machine.exec (Traffic.step layout64) (.start none) forgottenBetween).calls =
      [.done .upserted, .done (.forgot 1), .done .upserted] := by decide +kernel
  refine ⟨books_exact (by decide +kernel) ?_, by decide +kernel⟩
  intro call hcall
  rw [hcalls] at hcall
  simp only [List.mem_cons, List.not_mem_nil, or_false] at hcall
  rcases hcall with rfl | rfl | rfl
  · exact ⟨_, rfl⟩
  · exact ⟨_, rfl⟩
  · exact ⟨_, rfl⟩

/-- The device is forgotten while a write of it has filed its read and not settled the books. -/
def forgottenUnder : List Traffic.Act :=
  [.begin (.upsertLatest (titled "Lecture" "2026-01-01T12:00:03.000Z")),
    .advance 0, .advance 0, .begin (.forgetDevice "a"), .advance 1, .advance 1, .advance 1,
    .advance 0, .advance 0]

/-- Nothing is stored, and the ledger lists an entry and counts its bytes. -/
theorem forget_leaves_ghost :
    (Machine.exec (Traffic.step layout64) (.start none) forgottenUnder).calls =
        [.done .upserted, .done (.forgot 0)] ∧
      (Machine.exec (Traffic.step layout64) (.start none) forgottenUnder).store.series
        ("a", "TITLE") = [] ∧
      (Machine.exec (Traffic.step layout64) (.start none) forgottenUnder).store.books.queue =
        [slotOf layout64 (titled "Lecture" "2026-01-01T12:00:03.000Z")] ∧
      (Machine.exec (Traffic.step layout64) (.start none) forgottenUnder).store.books.used =
        latestBytes layout64 (titled "Lecture" "2026-01-01T12:00:03.000Z") +
          historyBytes layout64 (titled "Lecture" "2026-01-01T12:00:03.000Z") ∧
      ¬ Exact layout64
        (Machine.exec (Traffic.step layout64) (.start none) forgottenUnder).store := by
  have hseries : (Machine.exec (Traffic.step layout64) (.start none) forgottenUnder).store.series
      ("a", "TITLE") = [] := by decide +kernel
  have hqueue : (Machine.exec (Traffic.step layout64) (.start none)
      forgottenUnder).store.books.queue =
        [slotOf layout64 (titled "Lecture" "2026-01-01T12:00:03.000Z")] := by decide +kernel
  refine ⟨by decide +kernel, hseries, hqueue, by decide +kernel, fun hexact => ?_⟩
  have hlisted := hexact.listed ("a", "TITLE")
  rw [hseries, hqueue] at hlisted
  cases hlisted

end Sismatic
