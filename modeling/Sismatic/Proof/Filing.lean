import Sismatic.Lib.Totals
import Sismatic.StoreMemory.Reads

/-!
# What is filed, and what the books say of it

The history is kept per field and the ledger across all of them, so the two are compared
key by key: the reads filed under a key beside the slots that name it. Here is what each
operation of the maps and of the books does to its side.
-/

namespace Sismatic

/-! ## Keys -/

/-- A device and one of its fields: what a series is filed under. -/
abbrev SeriesKey := DeviceId × FieldName

def Read.key (read : Read) : SeriesKey := (read.device, read.field)

def Slot.key (slot : Slot) : SeriesKey := (slot.device, slot.field)

/-- The slot the ledger files for a read. -/
def slotOf (layout : Layout) (read : Read) : Slot :=
  ⟨read.device, read.field, read.atTime, historyBytes layout read⟩

@[simp] theorem slotOf_key (layout : Layout) (read : Read) : (slotOf layout read).key = read.key :=
  rfl

@[simp] theorem slotOf_atTime (layout : Layout) (read : Read) :
    (slotOf layout read).atTime = read.atTime := rfl

@[simp] theorem slotOf_bytes (layout : Layout) (read : Read) :
    (slotOf layout read).bytes = historyBytes layout read := rfl

/-- What entries cost. -/
def entryBytes (layout : Layout) (entries : List Read) : Nat :=
  (entries.map (historyBytes layout)).sum

theorem sum_slots (layout : Layout) (entries : List Read) :
    ((entries.map (slotOf layout)).map (·.bytes)).sum = entryBytes layout entries := by
  rw [List.map_map]
  rfl

theorem fields_insert {α : Type} (fields : Fields α) (f g : FieldName) (a : α) :
    (fields.insert f a)[g]? = if f = g then some a else fields[g]? := by
  rw [Std.TreeMap.getElem?_insert]
  simp only [Std.compare_eq_iff_eq]

theorem fields_erase {α : Type} (fields : Fields α) (f g : FieldName) :
    (fields.erase f)[g]? = if f = g then none else fields[g]? := by
  rw [Std.TreeMap.getElem?_erase]
  simp only [Std.compare_eq_iff_eq]

namespace MemoryStore

variable {layout : Layout} {store : MemoryStore}

/-! ## The history -/

/-- The reads filed under a key, oldest first. -/
def series (store : MemoryStore) (k : SeriesKey) : List Read :=
  ((store.history k.1)[k.2]?).getD []

/-- No field is kept without a read. -/
def NoEmptySeries (store : MemoryStore) : Prop :=
  ∀ (d : DeviceId) (fields : Fields (List Read)), store.history? d = some fields →
    ∀ (f : FieldName) (reads : List Read), fields[f]? = some reads → reads ≠ []

/-- The device has an entry with nothing filed under it. -/
def Vacant (store : MemoryStore) (d : DeviceId) : Prop :=
  ∃ fields, store.history? d = some fields ∧ fields.isEmpty = true

theorem vacant_iff {d : DeviceId} :
    (store.history? d).any (·.isEmpty) = true ↔ store.Vacant d := by
  unfold Vacant
  cases store.history? d with
  | none => simp
  | some fields => simp

theorem series_setHistory (d : DeviceId) (fields : Option (Fields (List Read))) (k : SeriesKey) :
    (store.setHistory d fields).series k =
      if k.1 = d then ((fields.getD ∅)[k.2]?).getD [] else store.series k := by
  show (((Function.update store.history? d fields k.1).getD ∅)[k.2]?).getD [] = _
  by_cases h : k.1 = d
  · rw [if_pos h, h, Function.update_self]
  · rw [if_neg h, Function.update_of_ne h]
    rfl

/-- One field of one device gets another series. -/
theorem series_insert (k k' : SeriesKey) (reads : List Read) :
    (store.setHistory k.1 (some ((store.history k.1).insert k.2 reads))).series k' =
      if k' = k then reads else store.series k' := by
  rw [series_setHistory, Option.getD_some, fields_insert]
  by_cases hd : k'.1 = k.1
  · rw [if_pos hd]
    by_cases hf : k.2 = k'.2
    · rw [if_pos hf, if_pos (Prod.ext hd hf.symm)]
      rfl
    · rw [if_neg hf, if_neg fun heq => hf (by rw [heq]), ← hd]
      rfl
  · rw [if_neg hd, if_neg fun heq => hd (by rw [heq])]

theorem series_clear (d : DeviceId) (k : SeriesKey) :
    (store.setHistory d none).series k = if k.1 = d then [] else store.series k := by
  rw [series_setHistory]
  simp

section PopFront

variable {fields : Fields (List Read)} {f : FieldName} {reads : List Read}

theorem popFront_none (h : fields[f]? = none) : popFront fields f = fields := by
  simp only [popFront, h]

theorem popFront_last (h : fields[f]? = some reads) (hrest : reads.drop 1 = []) :
    popFront fields f = fields.erase f := by
  simp only [popFront, h, hrest]

theorem popFront_rest {r : Read} {rest : List Read} (h : fields[f]? = some reads)
    (hrest : reads.drop 1 = r :: rest) : popFront fields f = fields.insert f (r :: rest) := by
  simp only [popFront, h, hrest]

theorem popFront_get (g : FieldName) :
    ((popFront fields f)[g]?).getD [] =
      if g = f then ((fields[f]?).getD []).drop 1 else (fields[g]?).getD [] := by
  cases hf : fields[f]? with
  | none =>
      rw [popFront_none hf]
      by_cases hg : g = f
      · rw [if_pos hg, hg, hf]
        rfl
      · rw [if_neg hg]
  | some reads =>
      rw [Option.getD_some]
      cases hrest : reads.drop 1 with
      | nil =>
          rw [popFront_last hf hrest, fields_erase]
          by_cases hg : g = f
          · rw [if_pos hg.symm, if_pos hg]
            rfl
          · rw [if_neg (Ne.symm hg), if_neg hg]
      | cons r rest =>
          rw [popFront_rest hf hrest, fields_insert]
          by_cases hg : g = f
          · rw [if_pos hg.symm, if_pos hg, Option.getD_some]
          · rw [if_neg (Ne.symm hg), if_neg hg]

end PopFront

/-- One field of one device loses its oldest read. -/
theorem series_popFront {k : SeriesKey} {fields : Fields (List Read)}
    (h : store.history? k.1 = some fields) (k' : SeriesKey) :
    (store.setHistory k.1 (some (popFront fields k.2))).series k' =
      if k' = k then (store.series k).drop 1 else store.series k' := by
  have hfields : store.history k.1 = fields := by rw [history, h, Option.getD_some]
  rw [series_setHistory, Option.getD_some, popFront_get]
  by_cases hd : k'.1 = k.1
  · rw [if_pos hd]
    by_cases hf : k'.2 = k.2
    · rw [if_pos hf, if_pos (Prod.ext hd hf), series, hfields]
    · rw [if_neg hf, if_neg fun heq => hf (by rw [heq]), series, hd, hfields]
  · rw [if_neg hd, if_neg fun heq => hd (by rw [heq])]

theorem series_of_none {k : SeriesKey} (h : store.history? k.1 = none) : store.series k = [] := by
  rw [series, history, h]
  simp

/-- Only the history changes. -/
theorem removeIfEmpty_rest (store : MemoryStore) (d : DeviceId) :
    (store.removeIfEmpty d).latest = store.latest ∧
      (store.removeIfEmpty d).books = store.books := by
  unfold removeIfEmpty
  split
  · exact ⟨rfl, rfl⟩
  · exact ⟨rfl, rfl⟩

theorem series_removeIfEmpty (d : DeviceId) (k : SeriesKey) :
    (store.removeIfEmpty d).series k = store.series k := by
  unfold removeIfEmpty
  split
  · rename_i hany
    obtain ⟨fields, hfields, hempty⟩ := vacant_iff.mp hany
    rw [series_clear]
    split
    · rename_i hk
      rw [series, history, hk, hfields, Option.getD_some, Std.TreeMap.getElem?_of_isEmpty hempty]
      rfl
    · rfl
  · rfl

/-! ## Nothing empty is kept -/

theorem NoEmptySeries.insert (h : store.NoEmptySeries) (d : DeviceId) (f : FieldName)
    {reads : List Read} (hne : reads ≠ []) :
    (store.setHistory d (some ((store.history d).insert f reads))).NoEmptySeries := by
  intro d' fields hfields f' reads' hreads'
  change Function.update store.history? d _ d' = some fields at hfields
  by_cases hd : d' = d
  · subst hd
    rw [Function.update_self] at hfields
    obtain rfl := Option.some.inj hfields
    rw [fields_insert] at hreads'
    split at hreads'
    · obtain rfl := Option.some.inj hreads'
      exact hne
    · cases hold : store.history? d' with
      | none =>
          rw [history, hold] at hreads'
          simp at hreads'
      | some old =>
          rw [history, hold, Option.getD_some] at hreads'
          exact h d' old hold f' reads' hreads'
  · rw [Function.update_of_ne hd] at hfields
    exact h d' fields hfields f' reads' hreads'

theorem NoEmptySeries.popFront (h : store.NoEmptySeries) {d : DeviceId}
    {fields : Fields (List Read)} (hd : store.history? d = some fields) (f : FieldName) :
    (store.setHistory d (some (MemoryStore.popFront fields f))).NoEmptySeries := by
  intro d' fields' hfields f' reads' hreads'
  change Function.update store.history? d _ d' = some fields' at hfields
  by_cases heq : d' = d
  · subst heq
    rw [Function.update_self] at hfields
    obtain rfl := Option.some.inj hfields
    cases hf : fields[f]? with
    | none =>
        rw [popFront_none hf] at hreads'
        exact h d' fields hd f' reads' hreads'
    | some reads =>
        cases hrest : reads.drop 1 with
        | nil =>
            rw [popFront_last hf hrest, fields_erase] at hreads'
            split at hreads'
            · cases hreads'
            · exact h d' fields hd f' reads' hreads'
        | cons r rest =>
            rw [popFront_rest hf hrest, fields_insert] at hreads'
            split at hreads'
            · obtain rfl := Option.some.inj hreads'
              exact List.cons_ne_nil r rest
            · exact h d' fields hd f' reads' hreads'
  · rw [Function.update_of_ne heq] at hfields
    exact h d' fields' hfields f' reads' hreads'

theorem NoEmptySeries.clear (h : store.NoEmptySeries) (d : DeviceId) :
    (store.setHistory d none).NoEmptySeries := by
  intro d' fields hfields
  change Function.update store.history? d _ d' = some fields at hfields
  by_cases hd : d' = d
  · subst hd
    rw [Function.update_self] at hfields
    cases hfields
  · rw [Function.update_of_ne hd] at hfields
    exact h d' fields hfields

theorem NoEmptySeries.removeIfEmpty (h : store.NoEmptySeries) (d : DeviceId) :
    (store.removeIfEmpty d).NoEmptySeries := by
  unfold MemoryStore.removeIfEmpty
  split
  · exact h.clear d
  · exact h

/-- Only the device itself may be left with nothing filed under it. -/
theorem vacant_setHistory {d d' : DeviceId} {fields : Option (Fields (List Read))}
    (h : (store.setHistory d fields).Vacant d') :
    (d' = d ∧ ∃ fs, fields = some fs ∧ fs.isEmpty = true) ∨ store.Vacant d' := by
  obtain ⟨fs, hfs, hempty⟩ := h
  change Function.update store.history? d fields d' = some fs at hfs
  by_cases hd : d' = d
  · subst hd
    rw [Function.update_self] at hfs
    exact .inl ⟨rfl, fs, hfs, hempty⟩
  · rw [Function.update_of_ne hd] at hfs
    exact .inr ⟨fs, hfs, hempty⟩

theorem not_vacant_insert (d : DeviceId) (f : FieldName) (reads : List Read) :
    ¬ (store.setHistory d (some ((store.history d).insert f reads))).Vacant d := by
  rintro ⟨fs, hfs, hempty⟩
  change Function.update store.history? d _ d = some fs at hfs
  rw [Function.update_self] at hfs
  obtain rfl := Option.some.inj hfs
  simp at hempty

theorem vacant_removeIfEmpty {d d' : DeviceId} (h : (store.removeIfEmpty d).Vacant d') :
    store.Vacant d' ∧ d' ≠ d := by
  unfold removeIfEmpty at h
  split at h
  · obtain ⟨fs, hfs, hempty⟩ := h
    change Function.update store.history? d none d' = some fs at hfs
    by_cases hd : d' = d
    · subst hd
      rw [Function.update_self] at hfs
      cases hfs
    · rw [Function.update_of_ne hd] at hfs
      exact ⟨⟨fs, hfs, hempty⟩, hd⟩
  · rename_i hany
    refine ⟨h, ?_⟩
    rintro rfl
    exact hany (vacant_iff.mpr h)

/-! ## What is latest -/

/-- What the latest read of a key costs. -/
def latestCost (layout : Layout) (store : MemoryStore) (k : SeriesKey) : Nat :=
  (((store.latest k.1)[k.2]?).map (latestBytes layout)).getD 0

theorem latest_setLatest (read : Read) (k : SeriesKey) :
    ((store.setLatest read.device ((store.latest read.device).insert read.field read)).latest
      k.1)[k.2]? = if k = read.key then some read else (store.latest k.1)[k.2]? := by
  show (Function.update store.latest read.device _ k.1)[k.2]? = _
  by_cases hd : k.1 = read.device
  · rw [hd, Function.update_self, fields_insert]
    by_cases hf : read.field = k.2
    · rw [if_pos hf, if_pos (Prod.ext hd hf.symm)]
    · rw [if_neg hf, if_neg fun heq => hf (by rw [heq]; rfl)]
  · rw [Function.update_of_ne hd, if_neg fun heq => hd (by rw [heq]; rfl)]

theorem latestCost_setLatest (read : Read) :
    (store.setLatest read.device ((store.latest read.device).insert read.field read)).latestCost
      layout = Function.update (store.latestCost layout) read.key (latestBytes layout read) := by
  funext k
  rw [latestCost, latest_setLatest]
  by_cases hk : k = read.key
  · rw [if_pos hk, hk, Function.update_self]
    rfl
  · rw [if_neg hk, Function.update_of_ne hk]
    rfl

theorem latest_forget (d : DeviceId) (k : SeriesKey) :
    ((store.setLatest d ∅).latest k.1)[k.2]? =
      if k.1 = d then none else (store.latest k.1)[k.2]? := by
  show (Function.update store.latest d ∅ k.1)[k.2]? = _
  by_cases hd : k.1 = d
  · rw [hd, Function.update_self, if_pos rfl]
    simp
  · rw [Function.update_of_ne hd, if_neg hd]

theorem values_eq_map (fields : Fields Read) : fields.values = fields.toList.map (·.2) := by
  have hfold : fields.values = fields.foldr (fun _ read reads => read :: reads) [] := rfl
  rw [hfold, Std.TreeMap.foldr_eq_foldr_toList]
  induction fields.toList with
  | nil => rfl
  | cons p ps ih => rw [List.foldr_cons, ih]; rfl

/-- Among entries of different keys, one key picks its own entry. -/
theorem filter_key {ps : List (FieldName × Read)} (hps : ps.Pairwise fun p q => p.1 ≠ q.1)
    {f : FieldName} {read : Read} (hmem : (f, read) ∈ ps) :
    ps.filter (fun p => decide (p.1 = f)) = [(f, read)] := by
  induction ps with
  | nil => cases hmem
  | cons p ps ih =>
      obtain ⟨hp, hps⟩ := List.pairwise_cons.mp hps
      rcases List.mem_cons.mp hmem with rfl | hmem
      · have hnone : ps.filter (fun q => decide (q.1 = f)) = [] := by
          refine List.filter_eq_nil_iff.mpr fun q hq => ?_
          simpa using (hp q hq).symm
        simp [hnone]
      · have hne : p.1 ≠ f := hp (f, read) hmem
        rw [List.filter_cons_of_neg (by simpa using hne), ih hps hmem]

/-- What a device's fields cost together is the sum over the values of its map. -/
theorem totals_values (layout : Layout) (store : MemoryStore) (d : DeviceId) :
    Totals (fun k : SeriesKey => if k.1 = d then store.latestCost layout k else 0)
      ((store.latest d).values.map (latestBytes layout)).sum := by
  have hlist := Totals.of_list (fun p : FieldName × Read => ((d, p.1) : SeriesKey))
    (fun p => latestBytes layout p.2) (store.latest d).toList
  rw [values_eq_map, List.map_map]
  refine hlist.congr fun k => ?_
  obtain ⟨d', f⟩ := k
  show (if d' = d then _ else 0) = _
  by_cases hd : d' = d
  · subst hd
    have hkey : (fun p : FieldName × Read => decide ((d', p.1) = (d', f))) =
        fun p => decide (p.1 = f) := by
      funext p
      simp
    rw [if_pos rfl, hkey, latestCost]
    cases hf : (store.latest d')[f]? with
    | none =>
        have hnone : (store.latest d').toList.filter (fun p => decide (p.1 = f)) = [] := by
          refine List.filter_eq_nil_iff.mpr fun p hp => ?_
          simp only [decide_eq_true_eq]
          rintro rfl
          rw [Std.TreeMap.mem_toList_iff_getElem?_eq_some.mp hp] at hf
          cases hf
        rw [hnone]
        rfl
    | some read =>
        have hdistinct : (store.latest d').toList.Pairwise fun p q => p.1 ≠ q.1 := by
          refine Std.TreeMap.distinct_keys_toList.imp fun h heq => h ?_
          exact Std.compare_eq_iff_eq.mpr heq
        rw [filter_key hdistinct (Std.TreeMap.mem_toList_iff_getElem?_eq_some.mpr hf)]
        simp
  · rw [if_neg hd]
    have hnone : (store.latest d).toList.filter (fun p => decide ((d, p.1) = (d', f))) = [] := by
      refine List.filter_eq_nil_iff.mpr fun p _ => ?_
      simp only [decide_eq_true_eq]
      intro heq
      exact hd (Prod.mk.inj heq).1.symm
    rw [hnone]
    rfl

/-- A device's latest reads go, and what they cost is taken off the total. -/
theorem totals_forget {total : Nat} (h : Totals (store.latestCost layout) total) (d : DeviceId) :
    ((store.latest d).values.map (latestBytes layout)).sum ≤ total ∧
      Totals ((store.setLatest d ∅).latestCost layout)
        (total - ((store.latest d).values.map (latestBytes layout)).sum) := by
  have hle : ∀ k : SeriesKey, (if k.1 = d then store.latestCost layout k else 0) ≤
      store.latestCost layout k := by
    intro k
    split
    · exact le_refl _
    · exact Nat.zero_le _
  obtain ⟨hbound, hrest⟩ := h.sub (totals_values layout store d) hle
  refine ⟨hbound, hrest.congr fun k => ?_⟩
  rw [latestCost, latest_forget]
  by_cases hd : k.1 = d
  · rw [if_pos hd, if_pos hd, Nat.sub_self]
    rfl
  · rw [if_neg hd, if_neg hd, Nat.sub_zero]
    rfl

end MemoryStore

namespace Books

variable {layout : Layout} {books : Books}

/-! ## The books -/

/-- The history total is what the slots in the queue come to. -/
def Balanced (books : Books) : Prop := books.historyBytes = (books.queue.map (·.bytes)).sum

/-- The cap sees to `gone`: the shortest part of the queue's front that has to go. -/
structure Evicts (books books' : Books) (gone : List Slot) : Prop where
  queue : books.queue = gone ++ books'.queue
  budget : books'.budget = books.budget
  latestBytes : books'.latestBytes = books.latestBytes
  evicted : books'.evicted = books.evicted + gone.length
  balanced : books.Balanced → books'.Balanced
  unbounded : books.budget = none → gone = []
  fits : ∀ b, books.budget = some b → books'.used ≤ b ∨ books'.queue = []
  needed : books.Balanced → ∀ b, books.budget = some b → ∀ n < gone.length,
    b < books.latestBytes + ((books.queue.drop n).map (·.bytes)).sum

theorem takeOverBudget_evicts {b : Nat} {queue : List Slot} (h : books.budget = some b) :
    Evicts { books with queue := queue } (takeOverBudget b books queue).1
      (takeOverBudget b books queue).2 := by
  induction queue generalizing books with
  | nil =>
      refine ⟨rfl, rfl, rfl, rfl, fun hbal => hbal, fun _ => rfl, fun _ _ => .inr rfl, ?_⟩
      intro _ _ _ n hn
      cases hn
  | cons slot queue ih =>
      by_cases hover : books.used > b
      · have hbudget : ({ books with
            historyBytes := books.historyBytes - slot.bytes
            evicted := books.evicted + 1 } : Books).budget = some b := h
        have hrest := ih hbudget
        rw [takeOverBudget, if_pos hover]
        have hbal : Balanced { books with queue := slot :: queue } →
            Balanced { books with
              historyBytes := books.historyBytes - slot.bytes, evicted := books.evicted + 1
              queue := queue } := by
          intro hbal
          change books.historyBytes = slot.bytes + (queue.map (·.bytes)).sum at hbal
          show books.historyBytes - slot.bytes = (queue.map (·.bytes)).sum
          omega
        refine ⟨?_, hrest.budget, hrest.latestBytes, ?_, fun hb => hrest.balanced (hbal hb), ?_,
          hrest.fits, ?_⟩
        · exact congrArg (slot :: ·) hrest.queue
        · rw [hrest.evicted]
          show books.evicted + 1 + _ = books.evicted + (_ + 1)
          omega
        · intro hnone
          rw [show books.budget = none from hnone] at h
          cases h
        · intro hb b' hb' n hn
          cases n with
          | zero =>
              obtain rfl := Option.some.inj (h.symm.trans hb')
              rw [List.drop_zero, ← show books.historyBytes = _ from hb]
              exact hover
          | succ n => exact hrest.needed (hbal hb) b' hb' n (Nat.lt_of_succ_lt_succ hn)
      · rw [takeOverBudget, if_neg hover]
        refine ⟨rfl, rfl, rfl, rfl, fun hbal => hbal, fun _ => rfl, ?_, ?_⟩
        · intro b' hb'
          obtain rfl := Option.some.inj (h.symm.trans hb')
          exact .inl (Nat.le_of_not_lt hover)
        · intro _ _ _ n hn
          cases hn

theorem enforce_evicts (books : Books) : Evicts books books.enforce.1 books.enforce.2 := by
  cases h : books.budget with
  | none =>
      simp only [enforce, h]
      refine ⟨rfl, rfl, rfl, rfl, fun hbal => hbal, fun _ => rfl, ?_, ?_⟩
      · intro b hb
        rw [h] at hb
        cases hb
      · intro _ _ _ n hn
        cases hn
  | some b =>
      simp only [enforce, h]
      exact takeOverBudget_evicts h

theorem foldl_sub (slots : List Slot) (n : Nat) :
    slots.foldl (fun bytes slot => bytes - slot.bytes) n = n - (slots.map (·.bytes)).sum := by
  induction slots generalizing n with
  | nil => rfl
  | cons slot slots ih =>
      rw [List.foldl_cons, ih, List.map_cons, List.sum_cons, Nat.sub_sub]

theorem sum_filter_add (p : Slot → Bool) (slots : List Slot) :
    ((slots.filter p).map (·.bytes)).sum + ((slots.filter fun s => !p s).map (·.bytes)).sum =
      (slots.map (·.bytes)).sum := by
  induction slots with
  | nil => rfl
  | cons slot slots ih =>
      cases hp : p slot with
      | true => simp [hp]; omega
      | false => simp [hp]; omega

/-- What is taken out of the queue is taken off the total. -/
theorem take_balanced (h : books.Balanced) (p : Slot → Bool) : (books.take p).1.Balanced := by
  have hsum := sum_filter_add p books.queue
  show (books.queue.filter p).foldl _ books.historyBytes = _
  rw [foldl_sub, show books.historyBytes = _ from h]
  show _ = ((books.queue.filter fun s => !p s).map (·.bytes)).sum
  omega

end Books

end Sismatic
