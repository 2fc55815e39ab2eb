import Sismatic.Lib.Run
import Sismatic.Proof.Filing
import Sismatic.StoreMemory.Calls

/-!
# The store one call after another

With one call at a time the store is a journal: the reads in the order they were written,
the latest of each field, and a cap that takes entries off the front. Upserts, new caps and
removals keep to it whatever the stamps are. A sweep does if what has expired stands at the
front of every series; the ledger picks slots by their stamps, but the series are trimmed
from their fronts, so otherwise it drops entries that are still current and keeps expired
ones, and from then on the ledger and the series disagree.
-/

namespace Sismatic

namespace MemoryStore

variable {layout : Layout} {store : MemoryStore}

/-! ## Dropping -/

theorem dropSlot_rest (store : MemoryStore) (slot : Slot) :
    (store.dropSlot slot).latest = store.latest ∧ (store.dropSlot slot).books = store.books := by
  unfold dropSlot
  cases store.history? slot.device with
  | none => exact ⟨rfl, rfl⟩
  | some fields =>
      dsimp only
      split
      · exact removeIfEmpty_rest _ slot.device
      · exact ⟨rfl, rfl⟩

theorem dropSlot_series (slot : Slot) (k : SeriesKey) :
    (store.dropSlot slot).series k =
      if k = slot.key then (store.series k).drop 1 else store.series k := by
  unfold dropSlot
  cases h : store.history? slot.device with
  | none =>
      dsimp only
      by_cases hk : k = slot.key
      · rw [if_pos hk, hk, series_of_none (k := slot.key) h, List.drop_nil]
      · rw [if_neg hk]
  | some fields =>
      have hpop : (store.setHistory slot.device (some (popFront fields slot.field))).series k =
          if k = slot.key then (store.series k).drop 1 else store.series k := by
        refine (series_popFront (k := slot.key) h k).trans ?_
        by_cases hk : k = slot.key
        · rw [if_pos hk, if_pos hk, hk]
        · rw [if_neg hk, if_neg hk]
      dsimp only
      split
      · rw [series_removeIfEmpty, hpop]
      · exact hpop

theorem NoEmptySeries.dropSlot (h : store.NoEmptySeries) (slot : Slot) :
    (store.dropSlot slot).NoEmptySeries := by
  unfold MemoryStore.dropSlot
  cases hd : store.history? slot.device with
  | none => exact h
  | some fields =>
      dsimp only
      split
      · exact (h.popFront hd slot.field).removeIfEmpty slot.device
      · exact h.popFront hd slot.field

theorem dropSlot_notVacant (h : ∀ d, ¬ store.Vacant d) (slot : Slot) (d : DeviceId) :
    ¬ (store.dropSlot slot).Vacant d := by
  unfold dropSlot
  cases hd : store.history? slot.device with
  | none => exact h d
  | some fields =>
      dsimp only
      split
      · intro hvacant
        obtain ⟨hvacant, hne⟩ := vacant_removeIfEmpty hvacant
        rcases vacant_setHistory hvacant with ⟨heq, -⟩ | hold
        · exact hne heq
        · exact h d hold
      · rename_i hfull
        intro hvacant
        rcases vacant_setHistory hvacant with ⟨-, fs, hfs, hempty⟩ | hold
        · obtain rfl := Option.some.inj hfs
          exact hfull hempty
        · exact h d hold

theorem dropFront_rest (store : MemoryStore) (slots : List Slot) :
    (store.dropFront slots).latest = store.latest ∧
      (store.dropFront slots).books = store.books := by
  induction slots generalizing store with
  | nil => exact ⟨rfl, rfl⟩
  | cons slot slots ih =>
      obtain ⟨hlatest, hbooks⟩ := dropSlot_rest store slot
      obtain ⟨hlatest', hbooks'⟩ := ih (store.dropSlot slot)
      exact ⟨hlatest'.trans hlatest, hbooks'.trans hbooks⟩

/-- Each series loses as many reads as slots name it. -/
theorem dropFront_series (slots : List Slot) (k : SeriesKey) :
    (store.dropFront slots).series k =
      (store.series k).drop (slots.countP fun s => decide (s.key = k)) := by
  induction slots generalizing store with
  | nil => rfl
  | cons slot slots ih =>
      show ((store.dropSlot slot).dropFront slots).series k = _
      rw [ih, dropSlot_series]
      by_cases hk : k = slot.key
      · rw [if_pos hk, List.drop_drop, List.countP_cons_of_pos (by simpa using hk.symm)]
        rw [Nat.add_comm]
      · rw [if_neg hk, List.countP_cons_of_neg (by simpa using Ne.symm hk)]

theorem NoEmptySeries.dropFront (h : store.NoEmptySeries) (slots : List Slot) :
    (store.dropFront slots).NoEmptySeries := by
  induction slots generalizing store with
  | nil => exact h
  | cons slot slots ih => exact ih (h.dropSlot slot)

theorem dropFront_notVacant (h : ∀ d, ¬ store.Vacant d) (slots : List Slot) (d : DeviceId) :
    ¬ (store.dropFront slots).Vacant d := by
  induction slots generalizing store with
  | nil => exact h d
  | cons slot slots ih => exact ih (dropSlot_notVacant h slot)

end MemoryStore

/-! ## The steps of a call -/

/-- Some number of its own steps takes a call from one state to another. -/
def Call.Runs (layout : Layout) (p q : MemoryStore × Call) : Prop :=
  ∃ n, (fun p => p.2.step layout p.1)^[n] p = q

namespace Call.Runs

variable {layout : Layout}

theorem refl (p : MemoryStore × Call) : Call.Runs layout p p := ⟨0, rfl⟩

theorem trans {p q r : MemoryStore × Call} (h : Call.Runs layout p q)
    (h' : Call.Runs layout q r) : Call.Runs layout p r := by
  obtain ⟨n, rfl⟩ := h
  obtain ⟨m, rfl⟩ := h'
  exact ⟨m + n, Function.iterate_add_apply _ m n p⟩

theorem step (store : MemoryStore) (call : Call) :
    Call.Runs layout (store, call) (call.step layout store) := ⟨1, rfl⟩

/-- What a call has claimed it drops. -/
theorem dropping (store : MemoryStore) (slots : List Slot) (answer : Answer) :
    Call.Runs layout (store, .dropping slots answer) (store.dropFront slots, .done answer) := by
  induction slots generalizing store with
  | nil => exact step store _
  | cons slot slots ih =>
      refine trans ?_ (ih (store.dropSlot slot))
      refine trans (step store _) ?_
      unfold MemoryStore.dropSlot
      simp only [Call.step]
      cases store.history? slot.device with
      | none => exact refl _
      | some fields =>
          dsimp only
          split
          · exact step _ (.vacating slot.device slots answer)
          · exact refl _

/-- A call that nothing comes in between does what it does as a whole. -/
theorem perform (store : MemoryStore) (request : Request) :
    Call.Runs layout (store, request.begin)
      ((store.perform layout request).1, .done (store.perform layout request).2) := by
  cases request with
  | upsertLatest read =>
      refine trans (step store _) (trans (step _ _) (trans (step _ _) ?_))
      exact dropping _ _ _
  | forgetDevice device => exact trans (step store _) (trans (step _ _) (step _ _))
  | prune before => exact trans (step store _) (dropping _ _ _)
  | setBudget budget => exact trans (step store _) (dropping _ _ _)

end Call.Runs

/-! ## The journal -/

/-- What the store is for: the reads in the order they were written, under a cap. -/
structure Journal where
  latest : SeriesKey → Option Read
  entries : List Read
  budget : Option Nat
  /-- How many entries the cap has cost. -/
  evicted : Nat

namespace Journal

/-- An empty journal under this cap. -/
def start (budget : Option Nat) : Journal := ⟨fun _ => none, [], budget, 0⟩

/-- What is latest and what was before come to at most `bound`. -/
def Within (layout : Layout) (j : Journal) (bound : Nat) : Prop :=
  ∃ total, Totals (fun k => ((j.latest k).map (latestBytes layout)).getD 0) total ∧
    total + entryBytes layout j.entries ≤ bound

/-- The cap takes off `gone`: the shortest front of the journal that has to go. -/
structure Evicted (layout : Layout) (j j' : Journal) (gone : List Read) : Prop where
  entries : j.entries = gone ++ j'.entries
  latest : j'.latest = j.latest
  budget : j'.budget = j.budget
  evicted : j'.evicted = j.evicted + gone.length
  unbounded : j.budget = none → gone = []
  fits : ∀ b, j.budget = some b → j'.Within layout b ∨ j'.entries = []
  needed : ∀ b, j.budget = some b → ∀ n < gone.length,
    ¬ Within layout { j with entries := j.entries.drop n } b

/-- A read written. -/
def write (j : Journal) (read : Read) : Journal :=
  { j with
    latest := Function.update j.latest read.key (some read)
    entries := j.entries ++ [read] }

/-- Without what is from a device. -/
def withoutDevice (j : Journal) (d : DeviceId) : Journal :=
  { j with
    latest := fun k => if k.1 = d then none else j.latest k
    entries := j.entries.filter fun r => !decide (r.device = d) }

/-- Without the entries stamped before an instant. -/
def since (j : Journal) (before : Timestamp) : Journal :=
  { j with entries := j.entries.filter fun r => !decide (r.atTime.str < before.str) }

/-- What one call does to the journal, and what it answers. -/
inductive Step (layout : Layout) (j : Journal) : Request → Journal → Answer → Prop
  | upsert (read : Read) {j' : Journal} {gone : List Read} :
      Evicted layout (j.write read) j' gone →
      Step layout j (.upsertLatest read) j' .upserted
  | forget (d : DeviceId) :
      Step layout j (.forgetDevice d) (j.withoutDevice d)
        (.forgot (j.entries.filter fun r => decide (r.device = d)).length)
  | prune (before : Timestamp) :
      Step layout j (.prune before) (j.since before)
        (.swept (j.entries.filter fun r => decide (r.atTime.str < before.str)).length
          (entryBytes layout (j.entries.filter fun r => decide (r.atTime.str < before.str))))
  | recap (budget : Option Nat) {j' : Journal} {gone : List Read} :
      Evicted layout { j with budget := budget } j' gone →
      Step layout j (.setBudget budget) j' (.recapped gone.length)

/-- The journal of a run of calls. -/
inductive Run (layout : Layout) (budget : Option Nat) : List Request → Journal → Prop
  | start : Run layout budget [] (start budget)
  | step {requests : List Request} {request : Request} {j j' : Journal} {answer : Answer} :
      Run layout budget requests j → Step layout j request j' answer →
      Run layout budget (requests ++ [request]) j'

end Journal

/-- The store holds what the journal holds, and the books say so. -/
structure Represents (layout : Layout) (store : MemoryStore) (j : Journal) : Prop where
  queue : store.books.queue = j.entries.map (slotOf layout)
  series : ∀ k, store.series k = j.entries.filter fun r => decide (r.key = k)
  latest : ∀ k, (store.latest k.1)[k.2]? = j.latest k
  noEmpty : store.NoEmptySeries
  notVacant : ∀ d, ¬ store.Vacant d
  balanced : store.books.Balanced
  latestTotal : Totals (store.latestCost layout) store.books.latestBytes
  budget : store.books.budget = j.budget
  evicted : store.books.evicted = j.evicted

/-- In this series what has expired stands before what has not. -/
def ExpiredFirst (before : Timestamp) (reads : List Read) : Prop :=
  reads.Pairwise fun r r' => r'.atTime.str < before.str → r.atTime.str < before.str

/-- A sweep finds what has expired at the front of every series. -/
def Swept (store : MemoryStore) : Request → Prop
  | .prune before => ∀ k, ExpiredFirst before (store.series k)
  | _ => True

section Steps

variable {layout : Layout} {store : MemoryStore} {j : Journal}

theorem represents_start (layout : Layout) (budget : Option Nat) :
    Represents layout (.withBudget budget) (.start budget) where
  queue := rfl
  series := by
    intro k
    exact MemoryStore.series_of_none rfl
  latest := by
    intro k
    show (∅ : Fields Read)[k.2]? = none
    simp
  noEmpty := by
    intro d fields hfields
    cases hfields
  notVacant := by
    rintro d ⟨fields, hfields, -⟩
    cases hfields
  balanced := rfl
  latestTotal := by
    refine Totals.zero.congr fun k => ?_
    show (((∅ : Fields Read)[k.2]?).map _).getD 0 = 0
    simp
  budget := rfl
  evicted := rfl

/-- Slots of one key are counted as the reads they stand for. -/
theorem countP_slots (layout : Layout) (entries : List Read) (k : SeriesKey) :
    (entries.map (slotOf layout)).countP (fun s => decide (s.key = k)) =
      (entries.filter fun r => decide (r.key = k)).length := by
  rw [List.countP_map, List.countP_eq_length_filter]
  rfl

/-- Entries beside what is latest are within a bound exactly if the books' figures are. -/
theorem Represents.within (h : Represents layout store j) (entries : List Read) (b : Nat) :
    Journal.Within layout { j with entries := entries } b ↔
      store.books.latestBytes + entryBytes layout entries ≤ b := by
  have htotal : Totals (fun k => ((j.latest k).map (latestBytes layout)).getD 0)
      store.books.latestBytes := h.latestTotal.congr fun k => by
    rw [MemoryStore.latestCost, h.latest k]
  refine ⟨?_, fun hle => ⟨_, htotal, hle⟩⟩
  rintro ⟨total, htotal', hle⟩
  rwa [htotal.unique htotal']

/-- The series after as many reads as slots name them have been dropped from its front. -/
theorem series_drop (layout : Layout) {entries gone rest : List Read}
    (hsplit : entries = gone ++ rest) (k : SeriesKey) :
    (entries.filter fun r => decide (r.key = k)).drop
        ((gone.map (slotOf layout)).countP fun s => decide (s.key = k)) =
      rest.filter fun r => decide (r.key = k) := by
  rw [countP_slots, hsplit, List.filter_append, List.drop_left]

/-- The cap's claim, dropped: the journal loses its front. -/
theorem represents_enforce (h : Represents layout store j) :
    ∃ gone j', Journal.Evicted layout j j' gone ∧
      store.books.enforce.2.length = gone.length ∧
      Represents layout
        ({ store with books := store.books.enforce.1 }.dropFront store.books.enforce.2) j' := by
  have hevicts := store.books.enforce_evicts
  generalize store.books.enforce.1 = books at hevicts ⊢
  generalize store.books.enforce.2 = slots at hevicts ⊢
  have hqueue := hevicts.queue
  rw [h.queue] at hqueue
  obtain ⟨gone, rest, hentries, rfl, hrest⟩ := List.map_eq_append_iff.mp hqueue
  rw [List.length_map] at *
  obtain ⟨hlatest, hbooks⟩ := MemoryStore.dropFront_rest { store with books := books }
    (gone.map (slotOf layout))
  have hbalanced := hevicts.balanced h.balanced
  have hnoEmpty : { store with books := books }.NoEmptySeries := h.noEmpty
  have hnotVacant : ∀ d, ¬ { store with books := books }.Vacant d := h.notVacant
  have hrep : Represents layout
      ({ store with books := books }.dropFront (gone.map (slotOf layout)))
      { j with entries := rest, evicted := j.evicted + gone.length } := by
    refine ⟨?_, ?_, ?_, hnoEmpty.dropFront _, MemoryStore.dropFront_notVacant hnotVacant _,
      ?_, ?_, ?_, ?_⟩
    · rw [hbooks]
      exact hrest.symm
    · intro k
      rw [MemoryStore.dropFront_series, ← series_drop layout hentries k]
      exact congrArg (List.drop _) (h.series k)
    · intro k
      rw [hlatest]
      exact h.latest k
    · rw [hbooks]
      exact hbalanced
    · rw [hbooks]
      show Totals _ books.latestBytes
      rw [hevicts.latestBytes]
      refine h.latestTotal.congr fun k => ?_
      rw [MemoryStore.latestCost, hlatest]
      rfl
    · rw [hbooks]
      exact hevicts.budget.trans h.budget
    · rw [hbooks]
      show books.evicted = _
      rw [hevicts.evicted, h.evicted, List.length_map]
  refine ⟨gone, { j with entries := rest, evicted := j.evicted + gone.length },
    ⟨hentries, rfl, rfl, rfl, ?_, ?_, ?_⟩, rfl, hrep⟩
  · intro hnone
    exact List.map_eq_nil_iff.mp (hevicts.unbounded (h.budget.trans hnone))
  · intro b hb
    rcases hevicts.fits b (h.budget.trans hb) with hfits | hempty
    · refine .inl ((hrep.within rest b).mpr ?_)
      rw [hbooks]
      rw [Books.used, show books.historyBytes = _ from hbalanced, ← hrest, sum_slots] at hfits
      exact hfits
    · rw [← hrest] at hempty
      exact .inr (List.map_eq_nil_iff.mp hempty)
  · intro b hb n hn hwithin
    have hneeded := hevicts.needed h.balanced b (h.budget.trans hb) n (by simpa using hn)
    rw [h.queue, ← List.map_drop, sum_slots] at hneeded
    have := (h.within (j.entries.drop n) b).mp hwithin
    omega

/-- A written read goes to the end, and the cap sees to the front. -/
theorem upsert_refines (h : Represents layout store j) (read : Read) :
    ∃ j', j.Step layout (.upsertLatest read) j' .upserted ∧
      Represents layout (store.upsertLatest layout read) j' := by
  have hfiled : Represents layout
      { latest := Function.update store.latest read.device
          ((store.latest read.device).insert read.field read)
        history? := Function.update store.history? read.device
          (some ((store.history read.device).insert read.field (store.series read.key ++ [read])))
        books := (store.books.restateLatest (latestBytes layout read)
          (store.latestCost layout read.key)).record (slotOf layout read) }
      (j.write read) := by
    refine ⟨?_, ?_, ?_, ?_, ?_, ?_, ?_, h.budget, h.evicted⟩
    · show store.books.queue ++ [slotOf layout read] = (j.entries ++ [read]).map (slotOf layout)
      rw [h.queue, List.map_append]
      rfl
    · intro k
      refine (MemoryStore.series_insert read.key k (store.series read.key ++ [read])).trans ?_
      show _ = (j.entries ++ [read]).filter fun r => decide (r.key = k)
      rw [List.filter_append, h.series read.key, h.series k]
      by_cases hk : k = read.key
      · subst hk
        simp
      · rw [if_neg hk]
        simp [Ne.symm hk]
    · intro k
      refine (MemoryStore.latest_setLatest read k).trans ?_
      show _ = Function.update j.latest read.key (some read) k
      by_cases hk : k = read.key
      · rw [if_pos hk, hk, Function.update_self]
      · rw [if_neg hk, Function.update_of_ne hk]
        exact h.latest k
    · exact h.noEmpty.insert read.device read.field (by simp)
    · intro d hvacant
      rcases MemoryStore.vacant_setHistory hvacant with ⟨rfl, -⟩ | hold
      · exact MemoryStore.not_vacant_insert read.device read.field _ hvacant
      · exact h.notVacant d hold
    · show store.books.historyBytes + historyBytes layout read =
        ((store.books.queue ++ [slotOf layout read]).map (·.bytes)).sum
      rw [show store.books.historyBytes = _ from h.balanced]
      simp
    · refine (h.latestTotal.update read.key (latestBytes layout read)).2.congr fun k => ?_
      exact congrFun (MemoryStore.latestCost_setLatest read) k
  obtain ⟨gone, j', hevicted, -, hrep⟩ := represents_enforce hfiled
  exact ⟨j', .upsert read hevicted, hrep⟩

/-- A new cap sees to the front. -/
theorem setBudget_refines (h : Represents layout store j) (budget : Option Nat) :
    ∃ j', j.Step layout (.setBudget budget) j' (.recapped (store.setBudget budget).2) ∧
      Represents layout (store.setBudget budget).1 j' := by
  have hcapped : Represents layout { store with books := { store.books with budget := budget } }
      { j with budget := budget } :=
    ⟨h.queue, h.series, h.latest, h.noEmpty, h.notVacant, h.balanced, h.latestTotal, rfl,
      h.evicted⟩
  obtain ⟨gone, j', hevicted, hlength, hrep⟩ := represents_enforce hcapped
  refine ⟨j', ?_, hrep⟩
  have hanswer : (store.setBudget budget).2 = gone.length := hlength
  rw [hanswer]
  exact .recap budget hevicted

/-- A removed device's reads go, wherever in the journal they stand. -/
theorem forget_refines (h : Represents layout store j) (d : DeviceId) :
    j.Step layout (.forgetDevice d) (j.withoutDevice d)
        (.forgot (store.forgetDevice layout d).2) ∧
      Represents layout (store.forgetDevice layout d).1 (j.withoutDevice d) := by
  refine ⟨?_, ?_, ?_, ?_, h.noEmpty.clear d, ?_, ?_, ?_, h.budget, h.evicted⟩
  · have hcount : (store.forgetDevice layout d).2 =
        (j.entries.filter fun r => decide (r.device = d)).length := by
      show (store.books.queue.filter fun s => decide (s.device = d)).length = _
      rw [h.queue, List.filter_map, List.length_map]
      rfl
    rw [hcount]
    exact .forget d
  · show store.books.queue.filter (fun s => !decide (s.device = d)) = _
    rw [h.queue, List.filter_map]
    rfl
  · intro k
    refine (MemoryStore.series_clear d k).trans ?_
    show (if k.1 = d then [] else store.series k) =
      (j.entries.filter fun r => !decide (r.device = d)).filter fun r => decide (r.key = k)
    rw [List.filter_filter, h.series k]
    by_cases hd : k.1 = d
    · rw [if_pos hd]
      refine (List.filter_eq_nil_iff.mpr fun r _ => ?_).symm
      simp only [Bool.and_eq_true, decide_eq_true_eq, Bool.not_eq_true', decide_eq_false_iff_not]
      rintro ⟨rfl, hr⟩
      exact hr hd
    · rw [if_neg hd]
      refine List.filter_congr fun r _ => ?_
      by_cases hr : r.key = k
      · have hdevice : r.device ≠ d := by
          rintro rfl
          exact hd (by rw [← hr]; rfl)
        simp [hr, hdevice]
      · simp [hr]
  · intro k
    refine (MemoryStore.latest_forget d k).trans ?_
    show _ = if k.1 = d then none else j.latest k
    rw [h.latest k]
  · intro d' hvacant
    rcases MemoryStore.vacant_setHistory hvacant with ⟨-, fs, hfs, -⟩ | hold
    · cases hfs
    · exact h.notVacant d' hold
  · have hrestated : ∀ dropped, (store.books.restateLatest 0 dropped).Balanced :=
      fun _ => h.balanced
    exact Books.take_balanced (hrestated _) _
  · exact (MemoryStore.totals_forget h.latestTotal d).2

/-! ## Sweeps -/

/--
Taking as many off the front as there are to take takes exactly those, if and only if
they stand at the front.
-/
theorem drop_countP_iff {α : Type} (p : α → Bool) (xs : List α) :
    xs.drop (xs.countP p) = xs.filter (fun x => !p x) ↔
      xs.Pairwise fun x y => p y = true → p x = true := by
  refine ⟨?_, ?_⟩
  · intro h
    have hsplit := List.take_append_drop (xs.countP p) xs
    have hrest : ∀ y ∈ xs.drop (xs.countP p), p y = false := by
      intro y hy
      rw [h] at hy
      simpa using (List.mem_filter.mp hy).2
    -- none is left behind the front, so all of them are in it
    have hcount : (xs.take (xs.countP p)).countP p = xs.countP p := by
      have hzero : (xs.drop (xs.countP p)).countP p = 0 :=
        List.countP_eq_zero.mpr fun y hy => by rw [hrest y hy]; exact Bool.false_ne_true
      have hsum := congrArg (List.countP p) hsplit
      rw [List.countP_append, hzero] at hsum
      omega
    have hfront : ∀ x ∈ xs.take (xs.countP p), p x = true := by
      refine List.countP_eq_length.mp (le_antisymm List.countP_le_length ?_)
      rw [hcount]
      exact List.length_take_le _ _
    rw [← hsplit, List.pairwise_append]
    refine ⟨?_, ?_, ?_⟩
    · exact List.pairwise_of_forall_mem_list fun x hx _ _ _ => hfront x hx
    · refine List.pairwise_of_forall_mem_list fun _ _ y hy hpy => ?_
      rw [hrest y hy] at hpy
      cases hpy
    · intro x hx y hy _
      exact hfront x hx
  · intro h
    induction xs with
    | nil => rfl
    | cons x xs ih =>
        obtain ⟨hx, hxs⟩ := List.pairwise_cons.mp h
        cases hp : p x with
        | true => simpa [hp] using ih hxs
        | false =>
            have hnone : ∀ y ∈ xs, p y = false := by
              intro y hy
              have := hx y hy
              cases hpy : p y with
              | false => rfl
              | true => rw [this hpy] at hp; cases hp
            have hzero : xs.countP p = 0 :=
              List.countP_eq_zero.mpr fun y hy => by rw [hnone y hy]; exact Bool.false_ne_true
            have hall : xs.filter (fun y => !p y) = xs :=
              List.filter_eq_self.mpr fun y hy => by rw [hnone y hy]; rfl
            simp [hp, hzero, hall]

/-- What a sweep claims, in the journal's terms. -/
theorem expire_eq (h : Represents layout store j) (before : Timestamp) :
    (store.books.expire before).2 =
      (j.entries.filter fun r => decide (r.atTime.str < before.str)).map (slotOf layout) := by
  show store.books.queue.filter (fun s => decide (s.atTime.str < before.str)) = _
  rw [h.queue, List.filter_map]
  rfl

/-- A sweep takes as many off the front of a series as have expired anywhere in it. -/
theorem prune_series (h : Represents layout store j) (before : Timestamp) (k : SeriesKey) :
    (store.prune before).1.series k =
      (store.series k).drop
        ((store.series k).countP fun r => decide (r.atTime.str < before.str)) := by
  have hcount : (store.books.expire before).2.countP (fun s => decide (s.key = k)) =
      (store.series k).countP fun r => decide (r.atTime.str < before.str) := by
    rw [expire_eq h before, countP_slots, h.series k, List.countP_filter,
      List.countP_eq_length_filter, List.filter_filter]
    exact congrArg List.length (List.filter_congr fun r _ => Bool.and_comm _ _)
  exact (MemoryStore.dropFront_series _ k).trans (congrArg₂ List.drop hcount rfl)

theorem prune_refines (h : Represents layout store j) {before : Timestamp}
    (hfirst : ∀ k, ExpiredFirst before (store.series k)) :
    j.Step layout (.prune before) (j.since before) (store.perform layout (.prune before)).2 ∧
      Represents layout (store.prune before).1 (j.since before) := by
  have hexpired := expire_eq h before
  obtain ⟨hlatest, hbooks⟩ := MemoryStore.dropFront_rest
    { store with books := (store.books.expire before).1 } (store.books.expire before).2
  have hnoEmpty : { store with books := (store.books.expire before).1 }.NoEmptySeries := h.noEmpty
  have hnotVacant : ∀ d, ¬ { store with books := (store.books.expire before).1 }.Vacant d :=
    h.notVacant
  refine ⟨?_, ?_, ?_, ?_, hnoEmpty.dropFront _, MemoryStore.dropFront_notVacant hnotVacant _,
    ?_, ?_, ?_, ?_⟩
  · have hanswer : (store.perform layout (.prune before)).2 =
        .swept (j.entries.filter fun r => decide (r.atTime.str < before.str)).length
          (entryBytes layout (j.entries.filter fun r => decide (r.atTime.str < before.str))) := by
      show Answer.swept (store.books.expire before).2.length
        ((store.books.expire before).2.map (·.bytes)).sum = _
      rw [hexpired, List.length_map, sum_slots]
    rw [hanswer]
    exact .prune before
  · refine (congrArg Books.queue hbooks).trans ?_
    show store.books.queue.filter (fun s => !decide (s.atTime.str < before.str)) = _
    rw [h.queue, List.filter_map]
    rfl
  · intro k
    rw [prune_series h before k, (drop_countP_iff _ _).mpr ?_]
    · rw [h.series k, List.filter_filter]
      show _ = (j.entries.filter fun r => !decide (r.atTime.str < before.str)).filter _
      rw [List.filter_filter]
      exact List.filter_congr fun r _ => Bool.and_comm _ _
    · simp only [decide_eq_true_eq]
      exact hfirst k
  · intro k
    refine (congrArg (fun latest => (latest k.1)[k.2]?) hlatest).trans ?_
    exact h.latest k
  · refine (congrArg Books.Balanced hbooks).mpr ?_
    exact Books.take_balanced h.balanced _
  · refine (congrArg (Totals _) (congrArg Books.latestBytes hbooks)).mpr ?_
    refine h.latestTotal.congr fun k => ?_
    rw [MemoryStore.latestCost]
    exact congrArg (fun latest => (((latest k.1)[k.2]?).map (latestBytes layout)).getD 0) hlatest
  · exact (congrArg Books.budget hbooks).trans h.budget
  · exact (congrArg Books.evicted hbooks).trans h.evicted

/-- One call, with the sweeps finding what has expired in front, is one step of the journal. -/
theorem perform_refines (h : Represents layout store j) {request : Request}
    (hswept : Swept store request) :
    ∃ j', j.Step layout request j' (store.perform layout request).2 ∧
      Represents layout (store.perform layout request).1 j' := by
  cases request with
  | upsertLatest read => exact upsert_refines h read
  | forgetDevice d => exact ⟨_, forget_refines h d⟩
  | prune before => exact ⟨_, prune_refines h hswept⟩
  | setBudget budget => exact setBudget_refines h budget

end Steps

/-! ## Runs -/

/-- The store after a run of calls, one after another. -/
def performAll (layout : Layout) (budget : Option Nat) (requests : List Request) : MemoryStore :=
  Machine.exec (fun store request => (store.perform layout request).1) (.withBudget budget) requests

/-- Every sweep of the run finds what has expired in front. -/
def AllSwept (layout : Layout) (budget : Option Nat) (requests : List Request) : Prop :=
  Machine.Along (fun store request => (store.perform layout request).1) Swept
    (.withBudget budget) requests

/-- A run whose sweeps find what has expired in front is a run of the journal. -/
theorem run_refines {layout : Layout} {budget : Option Nat} {requests : List Request}
    (h : AllSwept layout budget requests) :
    ∃ j, Journal.Run layout budget requests j ∧
      Represents layout (performAll layout budget requests) j := by
  induction requests using List.reverseRecOn with
  | nil => exact ⟨_, .start, represents_start layout budget⟩
  | append_singleton requests request ih =>
      obtain ⟨hrun, hlast⟩ := Machine.along_append.mp h
      obtain ⟨j, hj, hrep⟩ := ih hrun
      obtain ⟨j', hstep, hrep'⟩ := perform_refines hrep hlast.1
      refine ⟨j', hj.step hstep, ?_⟩
      rw [performAll, Machine.exec_append]
      exact hrep'

/-! ## Sweeps, exactly -/

/--
The sweep leaves of each series what is stamped at or after `before`, in its order, and
answers with how many entries went and what they took.
-/
def PruneExact (layout : Layout) (store : MemoryStore) (before : Timestamp) : Prop :=
  (∀ k, (store.prune before).1.series k =
      (store.series k).filter fun r => decide (before.str ≤ r.atTime.str)) ∧
    Totals (fun k => (store.series k).length - ((store.prune before).1.series k).length)
      (store.prune before).2.1 ∧
    Totals (fun k => entryBytes layout (store.series k) -
      entryBytes layout ((store.prune before).1.series k)) (store.prune before).2.2

theorem not_before (before : Timestamp) (r : Read) :
    (!decide (r.atTime.str < before.str)) = decide (before.str ≤ r.atTime.str) := by
  rw [← decide_not, decide_eq_decide, not_lt]

theorem entryBytes_filter (layout : Layout) (p : Read → Bool) (entries : List Read) :
    entryBytes layout (entries.filter p) + entryBytes layout (entries.filter fun r => !p r) =
      entryBytes layout entries := by
  induction entries with
  | nil => rfl
  | cons r entries ih =>
      unfold entryBytes at ih ⊢
      cases hp : p r with
      | true => simp [hp]; omega
      | false => simp [hp]; omega

theorem represents_pruneExact {layout : Layout} {store : MemoryStore} {j : Journal}
    (h : Represents layout store j) (before : Timestamp) :
    PruneExact layout store before ↔ ∀ k, ExpiredFirst before (store.series k) := by
  have hiff : ∀ k, (store.prune before).1.series k =
      (store.series k).filter (fun r => decide (before.str ≤ r.atTime.str)) ↔
        ExpiredFirst before (store.series k) := by
    intro k
    have hdrop := drop_countP_iff (fun r : Read => decide (r.atTime.str < before.str))
      (store.series k)
    simp only [not_before, decide_eq_true_eq] at hdrop
    rw [prune_series h before k]
    exact hdrop
  refine ⟨fun hexact k => (hiff k).mp (hexact.1 k), ?_⟩
  intro hfirst
  have hseries := fun k => (hiff k).mpr (hfirst k)
  have hones : ∀ rs : List Read, (rs.map fun _ => 1).sum = rs.length := by
    intro rs
    simp
  -- what has expired, key by key
  have hgone : ∀ k, ((j.entries.filter fun r => decide (r.atTime.str < before.str)).filter
      fun r => decide (r.key = k)) = (store.series k).filter
        fun r => decide (r.atTime.str < before.str) := by
    intro k
    rw [h.series k, List.filter_filter, List.filter_filter]
    exact List.filter_congr fun r _ => Bool.and_comm _ _
  refine ⟨hseries, ?_, ?_⟩
  · have htotal := Totals.of_list Read.key (fun _ => 1)
      (j.entries.filter fun r => decide (r.atTime.str < before.str))
    have hcount : (store.prune before).2.1 = ((j.entries.filter
        fun r => decide (r.atTime.str < before.str)).map fun _ => 1).sum := by
      show (store.books.expire before).2.length = _
      rw [expire_eq h before, List.length_map, hones]
    rw [hcount]
    refine htotal.congr fun k => ?_
    have hlength := List.length_eq_length_filter_add
      (l := store.series k) (fun r => decide (r.atTime.str < before.str))
    simp only [not_before] at hlength
    rw [hseries k, hgone k, hones]
    omega
  · have htotal := Totals.of_list Read.key (historyBytes layout)
      (j.entries.filter fun r => decide (r.atTime.str < before.str))
    have hbytes : (store.prune before).2.2 = ((j.entries.filter
        fun r => decide (r.atTime.str < before.str)).map (historyBytes layout)).sum := by
      show ((store.books.expire before).2.map (·.bytes)).sum = _
      rw [expire_eq h before, sum_slots]
      rfl
    rw [hbytes]
    refine htotal.congr fun k => ?_
    have hsum := entryBytes_filter layout (fun r => decide (r.atTime.str < before.str))
      (store.series k)
    simp only [not_before] at hsum
    rw [hseries k, hgone k]
    show _ = entryBytes layout _
    omega

/-- Nothing is asked of a run of upserts. -/
theorem allSwept_upserts (layout : Layout) (budget : Option Nat) (reads : List Read) :
    AllSwept layout budget (reads.map .upsertLatest) := by
  unfold AllSwept
  generalize MemoryStore.withBudget budget = store
  induction reads generalizing store with
  | nil => trivial
  | cons read reads ih => exact ⟨trivial, ih _⟩

/--
**Exactly when a sweep keeps what it should**, after any upserts with any stamps: in no
series does an entry from before the cutoff stand behind one that is not.
-/
theorem prune_exact_iff (layout : Layout) (budget : Option Nat) (reads : List Read)
    (before : Timestamp) :
    PruneExact layout (performAll layout budget (reads.map .upsertLatest)) before ↔
      ∀ k, ExpiredFirst before
        ((performAll layout budget (reads.map .upsertLatest)).series k) := by
  obtain ⟨j, -, hrep⟩ := run_refines (allSwept_upserts layout budget reads)
  exact represents_pruneExact hrep before

/-- A second of a minute past noon. -/
def pastTwelve (seconds : String) : Timestamp := ⟨"2026-01-01T12:00:" ++ seconds ++ ".000Z"⟩

/-- A read of the device `a`. -/
def readA (field : FieldName) (value : ReadValue) (seconds : String) : Read :=
  ⟨"a", field, value, pastTwelve seconds⟩

/--
The state of `a`, its title, and its state again, from a poll loop that was on its way out
and had stamped its read before the other two.
-/
def overtaken : List Read :=
  [readA "RUNNING_STATE" (.state .stopped) "05", readA "TITLE" (.text "Lecture") "06",
    readA "RUNNING_STATE" (.state .started) "03"]

/-- A sweep drops the read that is current and keeps the one that has expired. -/
theorem prune_keeps_expired :
    ((performAll layout64 none (overtaken.map .upsertLatest)).prune (pastTwelve "04")).1.series
        ("a", "RUNNING_STATE") = [readA "RUNNING_STATE" (.state .started) "03"] ∧
      ¬ PruneExact layout64 (performAll layout64 none (overtaken.map .upsertLatest))
        (pastTwelve "04") := by
  have hseries : ((performAll layout64 none (overtaken.map .upsertLatest)).prune
      (pastTwelve "04")).1.series ("a", "RUNNING_STATE") =
        [readA "RUNNING_STATE" (.state .started) "03"] := by decide +kernel
  refine ⟨hseries, ?_⟩
  intro hexact
  have hkept := hexact.1 ("a", "RUNNING_STATE")
  rw [hseries] at hkept
  have hmem := hkept ▸ List.mem_singleton_self (readA "RUNNING_STATE" (.state .started) "03")
  have hlate : ¬ (pastTwelve "04").str ≤ (pastTwelve "03").str := by decide +kernel
  exact hlate (of_decide_eq_true (List.mem_filter.mp hmem).2)

/-! ## The cap -/

/-- What the store is estimated to hold, read off what it holds. -/
def MemoryStore.Estimate (layout : Layout) (store : MemoryStore) (total : Nat) : Prop :=
  ∃ latest history, Totals (store.latestCost layout) latest ∧
    Totals (fun k => entryBytes layout (store.series k)) history ∧ total = latest + history

/-- There is no cap, or the store is within it, or nothing is left to evict. -/
def WithinBudget (layout : Layout) (store : MemoryStore) : Prop :=
  ∀ b, store.books.budget = some b →
    (∃ total, store.Estimate layout total ∧ total ≤ b) ∨ ∀ k, store.series k = []

/-- The same of the journal. -/
def Journal.Capped (layout : Layout) (j : Journal) : Prop :=
  ∀ b, j.budget = some b → j.Within layout b ∨ j.entries = []

section Capped

variable {layout : Layout} {j j' : Journal} {request : Request} {answer : Answer}

/-- Less is within the same bound. -/
theorem within_mono {b : Nat} (h : j.Within layout b)
    (hlatest : ∀ k, j'.latest k = none ∨ j'.latest k = j.latest k)
    (hentries : entryBytes layout j'.entries ≤ entryBytes layout j.entries) :
    j'.Within layout b := by
  obtain ⟨total, htotal, hle⟩ := h
  have hcost : ∀ k, ((j'.latest k).map (latestBytes layout)).getD 0 ≤
      ((j.latest k).map (latestBytes layout)).getD 0 := by
    intro k
    rcases hlatest k with hnone | hsame
    · rw [hnone]
      exact Nat.zero_le _
    · rw [hsame]
  obtain ⟨total', hle', htotal'⟩ := htotal.exists_of_le hcost
  exact ⟨total', htotal', by omega⟩

/-- Every call leaves the journal within its cap, or with nothing to evict. -/
theorem capped_step (h : j.Capped layout) (hstep : j.Step layout request j' answer) :
    j'.Capped layout := by
  intro b hb
  cases hstep with
  | upsert read hevicted => exact hevicted.fits b (hevicted.budget ▸ hb)
  | recap budget hevicted => exact hevicted.fits b (hevicted.budget ▸ hb)
  | forget d =>
      rcases h b hb with hwithin | hempty
      · refine .inl (within_mono hwithin (fun k => ?_) ?_)
        · by_cases hd : k.1 = d
          · exact .inl (if_pos hd)
          · exact .inr (if_neg hd)
        · have := entryBytes_filter layout (fun r => decide (r.device = d)) j.entries
          show entryBytes layout (j.entries.filter fun r => !decide (r.device = d)) ≤ _
          omega
      · right
        show j.entries.filter _ = []
        rw [hempty]
        rfl
  | prune before =>
      rcases h b hb with hwithin | hempty
      · refine .inl (within_mono hwithin (fun k => .inr rfl) ?_)
        have := entryBytes_filter layout (fun r => decide (r.atTime.str < before.str)) j.entries
        show entryBytes layout (j.entries.filter fun r => !decide (r.atTime.str < before.str)) ≤ _
        omega
      · right
        show j.entries.filter _ = []
        rw [hempty]
        rfl

theorem capped_run {budget : Option Nat} {requests : List Request}
    (h : Journal.Run layout budget requests j) : j.Capped layout := by
  induction h with
  | start =>
      intro b _
      exact .inr rfl
  | step _ hstep ih => exact capped_step ih hstep

/-- What a represented store holds is what the books say. -/
theorem Represents.estimate {store : MemoryStore} (h : Represents layout store j) :
    store.Estimate layout store.books.used := by
  refine ⟨store.books.latestBytes, store.books.historyBytes, h.latestTotal, ?_, rfl⟩
  have htotal := Totals.of_list Read.key (historyBytes layout) j.entries
  rw [show store.books.historyBytes = _ from h.balanced, h.queue, sum_slots]
  exact htotal.congr fun k => by rw [h.series k]; rfl

theorem Represents.withinBudget {store : MemoryStore} (h : Represents layout store j)
    (hcapped : j.Capped layout) : WithinBudget layout store := by
  intro b hb
  rcases hcapped b (h.budget ▸ hb) with hwithin | hempty
  · refine .inl ⟨_, h.estimate, ?_⟩
    have hle := (h.within j.entries b).mp hwithin
    rw [Books.used, show store.books.historyBytes = _ from h.balanced, h.queue, sum_slots]
    exact hle
  · refine .inr fun k => ?_
    rw [h.series k, hempty]
    rfl

end Capped

/--
**The cap is kept**, in every run of calls whose sweeps find what has expired in front: the
store holds what a journal of the same calls holds, in which a write or a new cap takes off
the shortest front that has to go and nothing else evicts, and it is within its cap or has
nothing left to evict.
-/
theorem budget_kept {layout : Layout} {budget : Option Nat} {requests : List Request}
    (h : AllSwept layout budget requests) :
    WithinBudget layout (performAll layout budget requests) ∧
      ∃ j, Journal.Run layout budget requests j ∧
        Represents layout (performAll layout budget requests) j := by
  obtain ⟨j, hrun, hrep⟩ := run_refines h
  exact ⟨hrep.withinBudget (capped_run hrun), j, hrun, hrep⟩

/-- A queue in which what has expired stands in front, key by key, stands for such series. -/
theorem expiredFirst_of_queue {layout : Layout} {store : MemoryStore} {j : Journal}
    (h : Represents layout store j) {before : Timestamp}
    (hqueue : store.books.queue.Pairwise fun s s' => s.key = s'.key →
      s'.atTime.str < before.str → s.atTime.str < before.str) (k : SeriesKey) :
    ExpiredFirst before (store.series k) := by
  rw [h.queue, List.pairwise_map] at hqueue
  rw [h.series k]
  refine (hqueue.filter _).imp_of_mem ?_
  intro r r' hr hr' hpair
  have hk := of_decide_eq_true (List.mem_filter.mp hr).2
  have hk' := of_decide_eq_true (List.mem_filter.mp hr').2
  exact hpair (hk.trans hk'.symm)

/-- Three reads, a sweep that drops the first, and a cap that takes one more. -/
def capTurns : List Request :=
  [.upsertLatest (readA "RUNNING_STATE" (.state .stopped) "03"),
    .upsertLatest (readA "TITLE" (.text "Lecture") "05"),
    .upsertLatest (readA "RUNNING_STATE" (.state .started) "06"),
    .prune (pastTwelve "04"), .setBudget (some 900)]

theorem budget_kept_capTurns :
    AllSwept layout64 none capTurns ∧
      (performAll layout64 none capTurns).books.evicted = 1 ∧
      WithinBudget layout64 (performAll layout64 none capTurns) := by
  have hswept : AllSwept layout64 none capTurns := by
    obtain ⟨j, -, hrep⟩ := run_refines (allSwept_upserts layout64 none
      [readA "RUNNING_STATE" (.state .stopped) "03", readA "TITLE" (.text "Lecture") "05",
        readA "RUNNING_STATE" (.state .started) "06"])
    exact ⟨trivial, trivial, trivial,
      expiredFirst_of_queue hrep (by decide +kernel), trivial, trivial⟩
  exact ⟨hswept, by decide +kernel, (budget_kept hswept).1⟩

/--
After the sweep that kept the wrong read, the cap evicts that read, though the title was
written before it.
-/
theorem budget_evicts_newer :
    (performAll layout64 none (overtaken.map .upsertLatest ++ [.prune (pastTwelve "04")])).series
        ("a", "RUNNING_STATE") = [readA "RUNNING_STATE" (.state .started) "03"] ∧
      (performAll layout64 none (overtaken.map .upsertLatest ++
        [.prune (pastTwelve "04"), .setBudget (some 900)])).books.evicted = 1 ∧
      (performAll layout64 none (overtaken.map .upsertLatest ++
        [.prune (pastTwelve "04"), .setBudget (some 900)])).series ("a", "RUNNING_STATE") = [] ∧
      (performAll layout64 none (overtaken.map .upsertLatest ++
        [.prune (pastTwelve "04"), .setBudget (some 900)])).series ("a", "TITLE") =
          [readA "TITLE" (.text "Lecture") "06"] := by
  decide +kernel

end Sismatic
