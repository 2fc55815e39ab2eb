import Sismatic.Proof.Traffic

/-!
# One writer at a time

With no device forgotten, one write of a field in progress at a time, and the stamps of a
field in order, every step of every call finds what it counts on. What was written of a
field, in order, is then what is gone, what is filed, and what is still to be pushed; and
what is claimed, listed and to be booked makes up the series to the last entry.
-/

namespace Sismatic

namespace Call

/-- The read a write has still to book. -/
def writes : Call → List Read
  | .upsert read => [read]
  | .append read _ => [read]
  | .admitting read _ => [read]
  | _ => []

/-- The read it has still to file as the latest. -/
def unfiled : Call → List Read
  | .upsert read => [read]
  | _ => []

/-- The read it has still to append to its history. -/
def unpushed : Call → List Read
  | .upsert read => [read]
  | .append read _ => [read]
  | _ => []

/-- The read it has filed as the latest and not booked. -/
def filed : Call → List Read
  | .append read _ => [read]
  | .admitting read _ => [read]
  | _ => []

def removes : Call → Bool
  | .forget _ | .settle _ _ | .clear _ _ => true
  | _ => false

theorem unfiled_sublist (call : Call) : call.unfiled.Sublist call.writes := by
  cases call <;> simp [unfiled, writes]

theorem unpushed_sublist (call : Call) : call.unpushed.Sublist call.writes := by
  cases call <;> simp [unpushed, writes]

theorem filed_sublist (call : Call) : call.filed.Sublist call.writes := by
  cases call <;> simp [filed, writes]

theorem unbooked_sublist (call : Call) : call.unbooked.Sublist call.writes := by
  cases call <;> simp [unbooked, writes]

end Call

/-- What the callers see to: one write of a field at a time, stamped no earlier than the last. -/
def Traffic.Disciplined (t : Traffic) : Traffic.Act → Prop
  | .begin (.upsertLatest read) =>
      (∀ call ∈ t.calls, ∀ r ∈ call.writes, r.key ≠ read.key) ∧
        ∀ r ∈ t.written, r.key = read.key → r.atTime.str ≤ read.atTime.str
  | .begin (.forgetDevice _) => False
  | _ => True

instance (t : Traffic) (act : Traffic.Act) : Decidable (t.Disciplined act) := by
  unfold Traffic.Disciplined
  split <;> infer_instance

/-- What was written of a key, in order. -/
def writtenOf (written : List Read) (k : SeriesKey) : List Read :=
  written.filter fun r => decide (r.key = k)

/-- Writes that follow one another, and the removals that never come. -/
structure Serial (store : MemoryStore) (calls : List Call) (written : List Read) : Prop where
  staying : ∀ call ∈ calls, call.removes = false
  writers : ((calls.flatMap Call.writes).map Read.key).Nodup
  current : ∀ call ∈ calls, ∀ read ∈ call.filed,
    (store.latest read.device)[read.field]? = some read
  ordered : ∀ k, (writtenOf written k).Pairwise fun r r' => r.atTime.str ≤ r'.atTime.str
  series : ∀ k, ∃ gone rest, writtenOf written k = gone ++ store.series k ++ rest ∧
    rest.Perm (held Call.unpushed calls k)
  latest : ∀ k, ∃ filed rest, writtenOf written k = filed ++ rest ∧
    rest.Perm (held Call.unfiled calls k) ∧ (store.latest k.1)[k.2]? = filed.getLast?
  count : ∀ k, (store.series k).length = claimed calls k +
    (store.books.queue.filter fun s => decide (s.key = k)).length + (unbooked calls k).length

section Parts

variable {call call' : Call} {calls calls' : List Call} {store store' : MemoryStore}
  {written : List Read} {read : Read}

theorem flatMap_sublist {part whole : Call → List Read}
    (h : ∀ call, (part call).Sublist (whole call)) (calls : List Call) :
    (calls.flatMap part).Sublist (calls.flatMap whole) := by
  induction calls with
  | nil => exact .slnil
  | cons call calls ih =>
      rw [List.flatMap_cons, List.flatMap_cons]
      exact (h call).append ih

theorem Serial.perm (h : Serial store calls written) (hperm : calls.Perm calls') :
    Serial store calls' written where
  staying := fun call hcall => h.staying call (hperm.mem_iff.mpr hcall)
  writers := ((hperm.flatMap_right Call.writes).map Read.key).nodup_iff.mp h.writers
  current := fun call hcall => h.current call (hperm.mem_iff.mpr hcall)
  ordered := h.ordered
  series := by
    intro k
    obtain ⟨gone, rest, heq, hrest⟩ := h.series k
    exact ⟨gone, rest, heq, hrest.trans (held_perm hperm k)⟩
  latest := by
    intro k
    obtain ⟨filed, rest, heq, hrest, hlatest⟩ := h.latest k
    exact ⟨filed, rest, heq, hrest.trans (held_perm hperm k), hlatest⟩
  count := by
    intro k
    rw [h.count k, claimed_perm hperm k, (unbooked_perm hperm k).length_eq]

/-- While a call writes a field no other does. -/
theorem other_writer (h : Serial store (call :: calls) written) (hread : call.writes = [read])
    {part : Call → List Read} (hpart : ∀ call, (part call).Sublist (Call.writes call)) {r : Read}
    (hr : r ∈ calls.flatMap part) : r.key ≠ read.key := by
  have hnodup := h.writers
  rw [List.flatMap_cons, hread, List.singleton_append, List.map_cons, List.nodup_cons] at hnodup
  intro heq
  exact hnodup.1 (heq ▸ List.mem_map_of_mem ((flatMap_sublist hpart calls).subset hr))

theorem held_other (h : Serial store (call :: calls) written) (hread : call.writes = [read])
    {part : Call → List Read} (hpart : ∀ call, (part call).Sublist (Call.writes call)) :
    held part calls read.key = [] := by
  refine List.filter_eq_nil_iff.mpr fun r hr => ?_
  simpa only [decide_eq_true_eq] using other_writer h hread hpart hr

end Parts

/-! ## Every step finds what it counts on -/

section Free

variable {layout : Layout} {call : Call} {calls : List Call} {store : MemoryStore}
  {written : List Read}

theorem pairwise_of_keys {R : Slot → Slot → Prop} {queue : List Slot}
    (h : ∀ k, (queue.filter fun s => decide (s.key = k)).Pairwise R) :
    queue.Pairwise fun s s' => s.key = s'.key → R s s' := by
  induction queue with
  | nil => exact .nil
  | cons s queue ih =>
      refine List.pairwise_cons.mpr ⟨fun s' hs' hkey => ?_, ih fun k => ?_⟩
      · have hfirst := h s.key
        rw [List.filter_cons_of_pos (by simp)] at hfirst
        exact (List.pairwise_cons.mp hfirst).1 s' (List.mem_filter.mpr ⟨hs', by simp [hkey]⟩)
      · exact (h k).sublist ((List.sublist_cons_self s queue).filter _)

/-- What is filed is what was written, or the last of it. -/
theorem Serial.series_sublist (h : Serial store calls written) (k : SeriesKey) :
    (store.series k).Sublist (writtenOf written k) := by
  obtain ⟨gone, rest, heq, -⟩ := h.series k
  rw [heq, List.append_assoc]
  exact (List.sublist_append_left _ rest).trans (List.sublist_append_right gone _)

/-- The slots of a key are stamped in order. -/
theorem queue_ordered (h : Serial store calls written) {k : SeriesKey}
    (hfiled : Filed layout store calls k) :
    (store.books.queue.filter fun s => decide (s.key = k)).Pairwise
      fun s s' => s.atTime.str ≤ s'.atTime.str := by
  obtain ⟨out, booked, rest, heq, hbooked, -, -⟩ := hfiled
  rw [← hbooked, List.pairwise_map]
  have hsub : booked.Sublist (store.series k) := by
    rw [heq]
    exact (List.sublist_append_right out booked).trans (List.sublist_append_left _ rest)
  exact (h.ordered k).sublist (hsub.trans (h.series_sublist k))

/-- What the calls have added to `latest` is still in it, each under its own key. -/
theorem added_le (h : Serial store calls written) {total : Nat}
    (htotal : Totals (store.latestCost layout) total) : added layout calls ≤ total := by
  have hsum : ∀ calls : List Call, (∀ call ∈ calls, ∀ read ∈ call.filed,
      (store.latest read.device)[read.field]? = some read) →
        added layout calls =
          (((calls.flatMap Call.filed).map Read.key).map (store.latestCost layout)).sum := by
    intro calls hcurrent
    induction calls with
    | nil => rfl
    | cons call calls ih =>
        have hcall : call.added layout =
            ((call.filed.map Read.key).map (store.latestCost layout)).sum := by
          have hcost : ∀ read ∈ call.filed,
              latestBytes layout read = store.latestCost layout read.key := by
            intro read hread
            show _ = (((store.latest read.device)[read.field]?).map _).getD 0
            rw [hcurrent call List.mem_cons_self read hread]
            rfl
          cases call with
          | append read displaced => simpa [Call.added, Call.filed] using hcost
          | admitting read displaced => simpa [Call.added, Call.filed] using hcost
          | upsert | forget | settle | clear | prune | recap | dropping | vacating | done => rfl
        rw [added_cons, hcall, ih fun c hc => hcurrent c (List.mem_cons_of_mem _ hc),
          List.flatMap_cons, List.map_append, List.map_append, List.sum_append]
  rw [hsum calls h.current]
  exact htotal.sum_le
    (h.writers.sublist ((flatMap_sublist Call.filed_sublist calls).map Read.key))

theorem unhindered_of_serial (hbalanced : Balanced layout store (call :: calls))
    (h : Serial store (call :: calls) written) :
    Unhindered layout store (call :: calls) call := by
  cases call with
  | admitting read displaced =>
      refine ⟨?_, ?_⟩
      · obtain ⟨total, htotal, heq⟩ := hbalanced.latest
        have hle := added_le h htotal
        rw [removed_cons] at heq
        simp only [Call.removed] at heq
        omega
      · have hone : unbooked (.admitting read displaced :: calls) read.key = [read] := by
          rw [unbooked_cons, unbooked, held_other h rfl Call.unbooked_sublist]
          simp [Call.unbooked]
        obtain ⟨out, booked, rest, heq, -, hrest, -⟩ := hbalanced.filed read.key
        rw [hone] at hrest
        obtain rfl := List.perm_singleton.mp hrest
        rw [hone, heq, List.length_append, List.length_singleton, Nat.add_sub_cancel,
          List.drop_left]
        rfl
  | prune before =>
      refine pairwise_of_keys fun k => ?_
      exact (queue_ordered h (hbalanced.filed k)).imp fun hle hlt => lt_of_le_of_lt hle hlt
  | dropping slots answer =>
      cases slots with
      | nil => trivial
      | cons slot slots =>
          right
          have hcount := h.count slot.key
          have hclaimed : 0 < claimed (.dropping (slot :: slots) answer :: calls) slot.key := by
            rw [claimed_cons, Call.claimed, List.countP_cons_of_pos (by simp)]
            omega
          omega
  | settle d dropped => cases h.staying _ List.mem_cons_self
  | clear d entries => cases h.staying _ List.mem_cons_self
  | upsert | append | forget | recap | vacating | done => trivial

end Free

/-! ## Every step keeps it -/

section Steps

variable {layout : Layout} {call call' : Call} {calls : List Call} {store store' : MemoryStore}
  {written : List Read}

/-- A call that is not a removal does not become one. -/
theorem staying_step (h : Serial store (call :: calls) written)
    (hremoves : call'.removes = false) : ∀ c ∈ call' :: calls, c.removes = false := by
  intro c hc
  rcases List.mem_cons.mp hc with rfl | hc
  · exact hremoves
  · exact h.staying c (List.mem_cons_of_mem _ hc)

theorem writers_step (h : Serial store (call :: calls) written)
    (hwrites : call'.writes.Sublist call.writes) :
    (((call' :: calls).flatMap Call.writes).map Read.key).Nodup := by
  rw [List.flatMap_cons]
  have hnodup := h.writers
  rw [List.flatMap_cons] at hnodup
  exact hnodup.sublist ((hwrites.append_right _).map _)

/-- A step that only moves entries between the books and the call. -/
theorem serial_books (h : Serial store (call :: calls) written)
    (hremoves : call'.removes = false) (hwrites : call'.writes.Sublist call.writes)
    (hfiled : call'.filed ⊆ call.filed) (hunpushed : call'.unpushed = call.unpushed)
    (hunfiled : call'.unfiled = call.unfiled) (hlatest : store'.latest = store.latest)
    (hseries : ∀ k, store'.series k = store.series k)
    (hcount : ∀ k, (call'.claimed.countP fun s => decide (s.key = k)) +
        (store'.books.queue.filter fun s => decide (s.key = k)).length +
          (call'.unbooked.filter fun r => decide (r.key = k)).length =
      (call.claimed.countP fun s => decide (s.key = k)) +
        (store.books.queue.filter fun s => decide (s.key = k)).length +
          (call.unbooked.filter fun r => decide (r.key = k)).length) :
    Serial store' (call' :: calls) written where
  staying := staying_step h hremoves
  writers := writers_step h hwrites
  current := by
    intro c hc read hread
    rw [hlatest]
    rcases List.mem_cons.mp hc with rfl | hc
    · exact h.current call List.mem_cons_self read (hfiled hread)
    · exact h.current c (List.mem_cons_of_mem _ hc) read hread
  ordered := h.ordered
  series := by
    intro k
    obtain ⟨gone, rest, heq, hrest⟩ := h.series k
    refine ⟨gone, rest, by rw [hseries, heq], ?_⟩
    rwa [held_cons, hunpushed, ← held_cons]
  latest := by
    intro k
    obtain ⟨filed, rest, heq, hrest, hlast⟩ := h.latest k
    refine ⟨filed, rest, heq, ?_, by rw [hlatest, hlast]⟩
    rwa [held_cons, hunfiled, ← held_cons]
  count := by
    intro k
    have hold := h.count k
    have hnew := hcount k
    rw [claimed_cons, unbooked_cons, List.length_append] at hold ⊢
    rw [hseries]
    omega

/-- The read is the latest, and no other write of its field is under way. -/
theorem serial_upsert {read : Read} (h : Serial store (.upsert read :: calls) written) :
    Serial (Call.step layout store (.upsert read)).1
      ((Call.step layout store (.upsert read)).2 :: calls) written where
  staying := staying_step h rfl
  writers := writers_step h (.refl _)
  current := by
    intro c hc r hr
    refine (MemoryStore.latest_setLatest read r.key).trans ?_
    rcases List.mem_cons.mp hc with rfl | hc
    · obtain rfl := List.mem_singleton.mp hr
      exact if_pos rfl
    · have hne := other_writer h rfl Call.filed_sublist (List.mem_flatMap_of_mem hc hr)
      rw [if_neg hne]
      exact h.current c (List.mem_cons_of_mem _ hc) r hr
  ordered := h.ordered
  series := by
    intro k
    obtain ⟨gone, rest, heq, hrest⟩ := h.series k
    exact ⟨gone, rest, heq, by rwa [held_cons] at hrest ⊢⟩
  latest := by
    intro k
    obtain ⟨filed, rest, heq, hrest, hlast⟩ := h.latest k
    rw [held_cons] at hrest
    by_cases hk : k = read.key
    · subst hk
      rw [held_other h rfl Call.unfiled_sublist, List.append_nil] at hrest
      obtain rfl : rest = [read] := by
        simpa [Call.unfiled] using hrest
      refine ⟨filed ++ [read], [], by rw [heq, List.append_nil], ?_, ?_⟩
      · rw [held_cons, held_other h rfl Call.unfiled_sublist]
        rfl
      · rw [List.getLast?_concat]
        exact (MemoryStore.latest_setLatest read read.key).trans (if_pos rfl)
    · refine ⟨filed, rest, heq, ?_, ?_⟩
      · rw [held_cons]
        simpa [Call.step, Call.unfiled, Ne.symm hk] using hrest
      · exact (MemoryStore.latest_setLatest read k).trans ((if_neg hk).trans hlast)
  count := by
    intro k
    have hold := h.count k
    rw [claimed_cons, unbooked_cons] at hold ⊢
    exact hold

/-- The read is filed behind every other read of its field. -/
theorem serial_append {read : Read} {displaced : Nat}
    (h : Serial store (.append read displaced :: calls) written) :
    Serial (Call.step layout store (.append read displaced)).1
      ((Call.step layout store (.append read displaced)).2 :: calls) written := by
  have hseries : ∀ k, (Call.step layout store (.append read displaced)).1.series k =
      if k = read.key then store.series read.key ++ [read] else store.series k :=
    fun k => MemoryStore.series_insert read.key k (store.series read.key ++ [read])
  refine ⟨staying_step h rfl, writers_step h (.refl _), ?_, h.ordered, fun k => ?_, fun k => ?_,
    fun k => ?_⟩
  · intro c hc r hr
    rcases List.mem_cons.mp hc with rfl | hc
    · exact h.current _ List.mem_cons_self r hr
    · exact h.current c (List.mem_cons_of_mem _ hc) r hr
  · obtain ⟨gone, rest, heq, hrest⟩ := h.series k
    rw [held_cons] at hrest
    by_cases hk : k = read.key
    · subst hk
      rw [held_other h rfl Call.unpushed_sublist, List.append_nil] at hrest
      obtain rfl : rest = [read] := by
        simpa [Call.unpushed] using hrest
      refine ⟨gone, [], ?_, ?_⟩
      · rw [hseries, if_pos rfl, heq, List.append_nil, List.append_assoc]
      · rw [held_cons, held_other h rfl Call.unpushed_sublist]
        rfl
    · refine ⟨gone, rest, by rw [hseries, if_neg hk, heq], ?_⟩
      rw [held_cons]
      simpa [Call.step, Call.unpushed, Ne.symm hk] using hrest
  · obtain ⟨filed, rest, heq, hrest, hlast⟩ := h.latest k
    exact ⟨filed, rest, heq, by rwa [held_cons] at hrest ⊢, hlast⟩
  · have hold := h.count k
    rw [claimed_cons, unbooked_cons] at hold ⊢
    rw [hseries]
    by_cases hk : k = read.key
    · subst hk
      simp only [Call.step, Call.claimed, Call.unbooked, List.filter_nil, List.nil_append,
        if_pos, List.length_append, List.length_singleton, decide_true, List.filter_cons_of_pos]
        at hold ⊢
      show _ = _ + (store.books.queue.filter _).length + _
      omega
    · have hother : ([read].filter fun r => decide (r.key = k)) = [] := by
        simp [Ne.symm hk]
      rw [if_neg hk, hold]
      simp only [Call.step, Call.claimed, Call.unbooked, hother]
      rfl

/-- An entry of the field that was claimed is gone, the oldest there was. -/
theorem serial_dropping {slot : Slot} {slots : List Slot} {answer : Answer}
    (h : Serial store (.dropping (slot :: slots) answer :: calls) written) :
    Serial (Call.step layout store (.dropping (slot :: slots) answer)).1
      ((Call.step layout store (.dropping (slot :: slots) answer)).2 :: calls) written := by
  obtain ⟨hbooks, hlatest⟩ := dropping_rest layout store slot slots answer
  have hnext := dropping_next layout store slot slots answer
  have hseries := dropping_series layout store slot slots answer
  generalize Call.step layout store (.dropping (slot :: slots) answer) = next at *
  have hparts : next.2.removes = false ∧ next.2.writes = [] ∧ next.2.filed = [] ∧
      next.2.unpushed = [] ∧ next.2.unfiled = [] ∧ next.2.unbooked = [] ∧
        next.2.claimed = slots := by
    rcases hnext with ⟨hcall, -⟩ | ⟨hcall, -⟩
    · rw [hcall]
      exact ⟨rfl, rfl, rfl, rfl, rfl, rfl, rfl⟩
    · rw [hcall]
      exact ⟨rfl, rfl, rfl, rfl, rfl, rfl, rfl⟩
  obtain ⟨hremoves, hwrites, hfiled, hunpushed, hunfiled, hunbooked, hclaimed⟩ := hparts
  refine ⟨staying_step h hremoves, writers_step h (hwrites ▸ List.nil_sublist _), ?_, h.ordered,
    fun k => ?_, fun k => ?_, fun k => ?_⟩
  · intro c hc read hread
    rw [hlatest]
    rcases List.mem_cons.mp hc with rfl | hc
    · rw [hfiled] at hread
      cases hread
    · exact h.current c (List.mem_cons_of_mem _ hc) read hread
  · obtain ⟨gone, rest, heq, hrest⟩ := h.series k
    have hheld : held Call.unpushed (next.2 :: calls) k =
        held Call.unpushed (.dropping (slot :: slots) answer :: calls) k := by
      rw [held_cons, held_cons, hunpushed]
      rfl
    rw [hheld]
    by_cases hk : k = slot.key
    · refine ⟨gone ++ (store.series k).take 1, rest, ?_, hrest⟩
      rw [hseries, if_pos hk, ← hk, List.append_assoc gone, List.take_append_drop, heq]
    · exact ⟨gone, rest, by rw [hseries, if_neg hk, heq], hrest⟩
  · obtain ⟨filed, rest, heq, hrest, hlast⟩ := h.latest k
    refine ⟨filed, rest, heq, ?_, by rw [hlatest, hlast]⟩
    rw [held_cons, hunfiled]
    exact hrest
  · have hold := h.count k
    rw [claimed_cons, unbooked_cons, Call.claimed] at hold
    rw [claimed_cons, unbooked_cons, hclaimed, hunbooked, hbooks, hseries]
    by_cases hk : k = slot.key
    · subst hk
      rw [List.countP_cons_of_pos (by simp)] at hold
      rw [if_pos rfl, List.length_drop, hold]
      simp only [Call.unbooked, List.filter_nil, List.nil_append]
      omega
    · rw [List.countP_cons_of_neg (by simpa using Ne.symm hk)] at hold
      rw [if_neg hk]
      exact hold

/-- What the cap claims was listed. -/
theorem enforce_count (books : Books) (k : SeriesKey) :
    (books.enforce.2.countP fun s => decide (s.key = k)) +
        (books.enforce.1.queue.filter fun s => decide (s.key = k)).length =
      (books.queue.filter fun s => decide (s.key = k)).length := by
  rw [books.enforce_evicts.queue, List.filter_append, List.length_append,
    List.countP_eq_length_filter]

/-- What a sweep claims was listed. -/
theorem take_count (books : Books) (p : Slot → Bool) (k : SeriesKey) :
    ((books.take p).2.countP fun s => decide (s.key = k)) +
        ((books.take p).1.queue.filter fun s => decide (s.key = k)).length =
      (books.queue.filter fun s => decide (s.key = k)).length := by
  show ((books.queue.filter p).countP _) + ((books.queue.filter fun s => !p s).filter _).length = _
  rw [List.countP_eq_length_filter, ← List.length_append, ← List.filter_append]
  exact ((List.filter_append_perm p books.queue).filter _).length_eq

/-- The read is booked, and the cap claims what it must. -/
theorem serial_admitting {read : Read} {displaced : Nat}
    (h : Serial store (.admitting read displaced :: calls) written) :
    Serial (Call.step layout store (.admitting read displaced)).1
      ((Call.step layout store (.admitting read displaced)).2 :: calls) written := by
  refine serial_books h rfl (List.nil_sublist _) (List.nil_subset _) rfl rfl rfl
    (fun _ => rfl) fun k => ?_
  have hcount := enforce_count ((store.books.restateLatest (latestBytes layout read)
    displaced).record (slotOf layout read)) k
  have hqueue : ((((store.books.restateLatest (latestBytes layout read) displaced).record
      (slotOf layout read)).queue).filter fun s => decide (s.key = k)).length =
        (store.books.queue.filter fun s => decide (s.key = k)).length +
          ([read].filter fun r => decide (r.key = k)).length := by
    show ((store.books.queue ++ [slotOf layout read]).filter _).length = _
    rw [List.filter_append, List.length_append]
    by_cases hk : read.key = k
    · simp [hk]
    · simp [hk]
  rw [hqueue] at hcount
  simp only [Call.claimed, Call.unbooked, List.countP_nil, Nat.zero_add]
  exact hcount

theorem serial_prune {before : Timestamp} (h : Serial store (.prune before :: calls) written) :
    Serial (Call.step layout store (.prune before)).1
      ((Call.step layout store (.prune before)).2 :: calls) written := by
  refine serial_books h rfl (.refl _) (List.Subset.refl _) rfl rfl rfl (fun _ => rfl) fun k => ?_
  have hcount := take_count store.books (fun slot => decide (slot.atTime.str < before.str)) k
  simp only [Call.claimed, Call.unbooked, List.countP_nil, Nat.zero_add]
  exact hcount

theorem serial_recap {budget : Option Nat} (h : Serial store (.recap budget :: calls) written) :
    Serial (Call.step layout store (.recap budget)).1
      ((Call.step layout store (.recap budget)).2 :: calls) written := by
  refine serial_books h rfl (.refl _) (List.Subset.refl _) rfl rfl rfl (fun _ => rfl) fun k => ?_
  have hcount := enforce_count { store.books with budget := budget } k
  simp only [Call.claimed, Call.unbooked, List.countP_nil, Nat.zero_add]
  exact hcount

theorem serial_vacating {d : DeviceId} {slots : List Slot} {answer : Answer}
    (h : Serial store (.vacating d slots answer :: calls) written) :
    Serial (store.removeIfEmpty d) (.dropping slots answer :: calls) written := by
  have hrest := MemoryStore.removeIfEmpty_rest store d
  refine serial_books h rfl (.refl _) (List.Subset.refl _) rfl rfl hrest.1
    (MemoryStore.series_removeIfEmpty d) fun k => ?_
  rw [hrest.2]
  rfl

theorem serial_call (h : Serial store (call :: calls) written) :
    Serial (call.step layout store).1 ((call.step layout store).2 :: calls) written := by
  cases call with
  | upsert read => exact serial_upsert h
  | append read displaced => exact serial_append h
  | admitting read displaced => exact serial_admitting h
  | prune before => exact serial_prune h
  | recap budget => exact serial_recap h
  | dropping slots answer =>
      cases slots with
      | nil =>
          exact serial_books h rfl (.refl _) (List.Subset.refl _) rfl rfl rfl (fun _ => rfl)
            fun _ => rfl
      | cons slot slots => exact serial_dropping h
  | vacating d slots answer => exact serial_vacating h
  | done answer => exact h
  | «forget» d => cases h.staying _ List.mem_cons_self
  | settle d dropped => cases h.staying _ List.mem_cons_self
  | clear d entries => cases h.staying _ List.mem_cons_self

/-- A call that writes nothing is made. -/
theorem serial_begin (h : Serial store calls written) (hremoves : call.removes = false)
    (hwrites : call.writes = []) (hclaimed : call.claimed = []) :
    Serial store (call :: calls) written := by
  have hpart : ∀ {part : Call → List Read}, (∀ call, (part call).Sublist (Call.writes call)) →
      part call = [] := by
    intro part hpart
    exact List.sublist_nil.mp (hwrites ▸ hpart call)
  have hheld : ∀ {part : Call → List Read}, (∀ call, (part call).Sublist (Call.writes call)) →
      ∀ k, held part (call :: calls) k = held part calls k := by
    intro part hsub k
    rw [held_cons, hpart hsub]
    rfl
  refine ⟨?_, ?_, ?_, h.ordered, fun k => ?_, fun k => ?_, fun k => ?_⟩
  · intro c hc
    rcases List.mem_cons.mp hc with rfl | hc
    · exact hremoves
    · exact h.staying c hc
  · rw [List.flatMap_cons, hwrites]
    exact h.writers
  · intro c hc read hread
    rcases List.mem_cons.mp hc with rfl | hc
    · rw [hpart Call.filed_sublist] at hread
      cases hread
    · exact h.current c hc read hread
  · rw [hheld Call.unpushed_sublist]
    exact h.series k
  · rw [hheld Call.unfiled_sublist]
    exact h.latest k
  · rw [claimed_cons, hclaimed, List.countP_nil, Nat.zero_add, unbooked,
      hheld Call.unbooked_sublist]
    exact h.count k

/-- A write is made of a field no other write of which is under way. -/
theorem serial_write {read : Read} (h : Serial store calls written)
    (halone : ∀ call ∈ calls, ∀ r ∈ call.writes, r.key ≠ read.key)
    (hlast : ∀ r ∈ written, r.key = read.key → r.atTime.str ≤ read.atTime.str) :
    Serial store (.upsert read :: calls) (written ++ [read]) := by
  have hwritten : ∀ k, writtenOf (written ++ [read]) k =
      writtenOf written k ++ [read].filter fun r => decide (r.key = k) :=
    fun k => List.filter_append ..
  refine ⟨?_, ?_, ?_, fun k => ?_, fun k => ?_, fun k => ?_, fun k => ?_⟩
  · intro c hc
    rcases List.mem_cons.mp hc with rfl | hc
    · rfl
    · exact h.staying c hc
  · refine List.nodup_cons.mpr ⟨fun hmem => ?_, h.writers⟩
    obtain ⟨r, hr, hkey⟩ := List.mem_map.mp hmem
    obtain ⟨call, hcall, hr⟩ := List.mem_flatMap.mp hr
    exact halone call hcall r hr hkey
  · intro c hc r hr
    rcases List.mem_cons.mp hc with rfl | hc
    · cases hr
    · exact h.current c hc r hr
  · rw [hwritten]
    refine List.pairwise_append.mpr ⟨h.ordered k, ?_, fun r hr r' hr' => ?_⟩
    · exact (List.pairwise_singleton _ read).filter _
    · obtain ⟨hr, hk⟩ := List.mem_filter.mp hr
      obtain ⟨hr', hk'⟩ := List.mem_filter.mp hr'
      obtain rfl := List.mem_singleton.mp hr'
      exact hlast r hr ((of_decide_eq_true hk).trans (of_decide_eq_true hk').symm)
  · obtain ⟨gone, rest, heq, hrest⟩ := h.series k
    refine ⟨gone, rest ++ [read].filter fun r => decide (r.key = k), ?_, ?_⟩
    · rw [hwritten, heq, List.append_assoc _ rest]
    · rw [held_cons]
      exact List.perm_append_comm.trans (hrest.append_left _)
  · obtain ⟨filed, rest, heq, hrest, hlatest⟩ := h.latest k
    refine ⟨filed, rest ++ [read].filter fun r => decide (r.key = k), ?_, ?_, hlatest⟩
    · rw [hwritten, heq, List.append_assoc]
    · rw [held_cons]
      exact List.perm_append_comm.trans (hrest.append_left _)
  · rw [claimed_cons, unbooked_cons]
    simpa only [Call.claimed, Call.unbooked, List.countP_nil, Nat.zero_add, List.filter_nil,
      List.nil_append] using h.count k

end Steps

/-! ## Runs -/

section Runs

variable {layout : Layout} {t : Traffic}

theorem serial_start (budget : Option Nat) :
    Serial (Traffic.start budget).store (Traffic.start budget).calls
      (Traffic.start budget).written where
  staying := by
    intro call hcall
    cases hcall
  writers := .nil
  current := by
    intro call hcall
    cases hcall
  ordered := fun _ => .nil
  series := by
    intro k
    refine ⟨[], [], ?_, .nil⟩
    rw [MemoryStore.series_of_none (k := k) rfl]
    rfl
  latest := by
    intro k
    refine ⟨[], [], rfl, .nil, ?_⟩
    show (∅ : Fields Read)[k.2]? = none
    simp
  count := by
    intro k
    rw [MemoryStore.series_of_none (k := k) rfl]
    rfl

/-- A disciplined step finds what it counts on, and leaves what the next one counts on. -/
theorem serial_step (hbalanced : Balanced layout t.store t.calls)
    (h : Serial t.store t.calls t.written) {act : Traffic.Act} (hact : t.Disciplined act) :
    t.Undisturbed layout act ∧
      Serial (t.step layout act).store (t.step layout act).calls (t.step layout act).written := by
  cases act with
  | «begin» request =>
      refine ⟨trivial, Serial.perm ?_ (List.perm_append_singleton _ _).symm⟩
      cases request with
      | upsertLatest read => exact serial_write h hact.1 hact.2
      | forgetDevice d => exact hact.elim
      | prune before => exact serial_begin h rfl rfl rfl
      | setBudget budget => exact serial_begin h rfl rfl rfl
  | advance n =>
      cases hcall : t.calls[n]? with
      | none =>
          have hstep : t.step layout (.advance n) = t := by simp only [Traffic.step, hcall]
          refine ⟨by simp only [Traffic.Undisturbed, hcall], ?_⟩
          rw [hstep]
          exact h
      | some call =>
          obtain ⟨hn, hget⟩ := List.getElem?_eq_some_iff.mp hcall
          have hperm : t.calls.Perm (call :: t.calls.eraseIdx n) :=
            hget ▸ (List.getElem_cons_eraseIdx_perm hn).symm
          have hfree : Unhindered layout t.store t.calls call :=
            (unhindered_of_serial (hbalanced.perm hperm) (h.perm hperm)).perm hperm.symm
          have hstep : t.step layout (.advance n) =
              { t with
                store := (call.step layout t.store).1
                calls := t.calls.set n (call.step layout t.store).2 } := by
            simp only [Traffic.step, hcall]
          refine ⟨by simpa only [Traffic.Undisturbed, hcall] using hfree, ?_⟩
          rw [hstep]
          exact (serial_call (h.perm hperm)).perm (List.set_perm_cons_eraseIdx hn _).symm

theorem serial_run {budget : Option Nat} {acts : List Traffic.Act}
    (hrun : Machine.Along (Traffic.step layout) Traffic.Disciplined (.start budget) acts) :
    Balanced layout (Machine.exec (Traffic.step layout) (.start budget) acts).store
        (Machine.exec (Traffic.step layout) (.start budget) acts).calls ∧
      Serial (Machine.exec (Traffic.step layout) (.start budget) acts).store
        (Machine.exec (Traffic.step layout) (.start budget) acts).calls
        (Machine.exec (Traffic.step layout) (.start budget) acts).written := by
  have hstep : ∀ (t : Traffic) (act : Traffic.Act),
      Balanced layout t.store t.calls ∧ Serial t.store t.calls t.written → t.Disciplined act →
        Balanced layout (t.step layout act).store (t.step layout act).calls ∧
          Serial (t.step layout act).store (t.step layout act).calls
            (t.step layout act).written := by
    rintro t act ⟨hbalanced, h⟩ hact
    obtain ⟨hundisturbed, hserial⟩ := serial_step hbalanced h hact
    exact ⟨balanced_step hbalanced hundisturbed, hserial⟩
  exact Machine.exec_invariant hstep hrun ⟨balanced_start layout budget, serial_start budget⟩

/-- With no write in progress what is latest is what was written last. -/
theorem Serial.latest_quiet (h : Serial t.store t.calls t.written) (hquiet : t.Quiet)
    (k : SeriesKey) : (t.store.latest k.1)[k.2]? = (writtenOf t.written k).getLast? := by
  have hnone : held Call.unfiled t.calls k = [] := by
    refine List.filter_eq_nil_iff.mpr fun r hr => ?_
    obtain ⟨call, hcall, hmem⟩ := List.mem_flatMap.mp hr
    obtain ⟨answer, rfl⟩ := hquiet call hcall
    cases hmem
  obtain ⟨filed, rest, heq, hrest, hlatest⟩ := h.latest k
  rw [hnone] at hrest
  obtain rfl := hrest.eq_nil
  rw [hlatest, heq, List.append_nil]

end Runs

/--
**The ledger and the maps agree between calls**, in every run of calls without a removal
and with one write of a field at a time, stamped in order: whenever no call is in progress
the books are exact, and what is latest of a field is what was written to it last.
-/
theorem ledger_agrees {layout : Layout} {budget : Option Nat} {acts : List Traffic.Act}
    (hrun : Machine.Along (Traffic.step layout) Traffic.Disciplined (.start budget) acts)
    (hquiet : (Machine.exec (Traffic.step layout) (.start budget) acts).Quiet) :
    Exact layout (Machine.exec (Traffic.step layout) (.start budget) acts).store ∧
      ∀ k : SeriesKey,
        ((Machine.exec (Traffic.step layout) (.start budget) acts).store.latest k.1)[k.2]? =
          (writtenOf (Machine.exec (Traffic.step layout) (.start budget) acts).written
            k).getLast? := by
  obtain ⟨hbalanced, hserial⟩ := serial_run hrun
  exact ⟨hbalanced.exact hquiet, hserial.latest_quiet hquiet⟩

/-- Writes of two fields cross, and a sweep claims in front of a third write. -/
def crossedWrites : List Traffic.Act :=
  [.begin (.upsertLatest (titled "Lecture" "2026-01-01T12:00:03.000Z")),
    .begin (.upsertLatest ⟨"a", "RUNNING_STATE", .state .started, ⟨"2026-01-01T12:00:03.000Z"⟩⟩),
    .advance 0, .advance 1, .advance 1, .advance 0, .advance 1, .advance 0,
    .begin (.upsertLatest (titled "Seminar" "2026-01-01T12:00:05.000Z")),
    .begin (.prune ⟨"2026-01-01T12:00:04.000Z"⟩), .advance 2, .advance 2, .advance 3,
    .begin (.setBudget (some 900)), .advance 3, .advance 2, .advance 4, .advance 4, .advance 3,
    .advance 3, .advance 3, .advance 4, .advance 0, .advance 1, .advance 2]

theorem ledger_agrees_crossedWrites :
    Exact layout64 (Machine.exec (Traffic.step layout64) (.start none) crossedWrites).store ∧
      (Machine.exec (Traffic.step layout64) (.start none) crossedWrites).store.books.queue =
        [slotOf layout64 (titled "Seminar" "2026-01-01T12:00:05.000Z")] := by
  have hcalls : (Machine.exec (Traffic.step layout64) (.start none) crossedWrites).calls =
      [.done .upserted, .done .upserted, .done .upserted, .done (.swept 2 639),
        .done (.recapped 0)] := by decide +kernel
  have hquiet : (Machine.exec (Traffic.step layout64) (.start none) crossedWrites).Quiet := by
    intro call hcall
    rw [hcalls] at hcall
    simp only [List.mem_cons, List.not_mem_nil, or_false] at hcall
    rcases hcall with rfl | rfl | rfl | rfl | rfl
    all_goals exact ⟨_, rfl⟩
  exact ⟨(ledger_agrees (by decide +kernel) hquiet).1, by decide +kernel⟩

end Sismatic
