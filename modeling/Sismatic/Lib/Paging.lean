import Mathlib.Data.Set.Finite.Lattice
import Sismatic.Lib.OrderedSet

/-!
# Paging by the last row

A set is read a page at a time, in order, each page beginning behind the last row of the one
before. The set may be another one for every page. What the pages show is in order whatever
the sets are; what was there for every page is shown once the walk has ended; and the walk
ends if the sets do not go on growing for ever.
-/

namespace Paging

variable {α : Type*} [LinearOrder α]

/-! ## One page -/

/-- Whether `a` is behind the cursor, if there is one. -/
def past (after : Option α) (a : α) : Bool := after.all fun cursor => decide (cursor < a)

structure Page (α : Type*) where
  rows : List α
  /-- The cursor of the page after this one. -/
  next : Option α

/-- At most `k` rows from behind the cursor, and the last of them if there are more. -/
def page (k : ℕ) (s : OrderedSet α) (after : Option α) : Page α :=
  let left := s.elems.filter (past after)
  ⟨left.take k, if k < left.length then (left.take k).getLast? else none⟩

theorem past_some {cursor a : α} : past (some cursor) a = true ↔ cursor < a := decide_eq_true_iff

/-- Behind a later cursor is behind an earlier one. -/
theorem past_mono {after : Option α} {cursor a : α} (h : past after cursor = true)
    (ha : cursor ≤ a) : past after a = true := by
  cases after with
  | none => rfl
  | some earlier => exact past_some.mpr ((past_some.mp h).trans_le ha)

section Page

variable {k : ℕ} {s : OrderedSet α} {after : Option α} {a : α}

theorem left_sorted (s : OrderedSet α) (after : Option α) :
    (s.elems.filter (past after)).Pairwise (· < ·) := s.sorted.filter _

theorem rows_sorted (k : ℕ) (s : OrderedSet α) (after : Option α) :
    (page k s after).rows.Pairwise (· < ·) :=
  (left_sorted s after).sublist (List.take_sublist ..)

theorem mem_left : a ∈ s.elems.filter (past after) ↔ a ∈ s ∧ past after a = true :=
  List.mem_filter

theorem mem_of_rows (h : a ∈ (page k s after).rows) : a ∈ s ∧ past after a = true :=
  mem_left.mp (List.mem_of_mem_take h)

/-- **There is no next page exactly when nothing is left for one.** -/
theorem next_none_iff (hk : 0 < k) :
    (page k s after).next = none ↔
      ∀ a ∈ s, past after a = true → a ∈ (page k s after).rows := by
  refine ⟨?_, ?_⟩
  · intro h a ha hpast
    by_cases hmore : k < (s.elems.filter (past after)).length
    · -- a page of rows has a last one
      have hnext : (page k s after).next = ((s.elems.filter (past after)).take k).getLast? :=
        if_pos hmore
      rw [hnext, List.getLast?_eq_none_iff, List.take_eq_nil_iff] at h
      rcases h with rfl | hnil
      · exact absurd hk (lt_irrefl 0)
      · rw [hnil] at hmore
        exact absurd hmore (Nat.not_lt_zero k)
    · change a ∈ (s.elems.filter (past after)).take k
      rw [List.take_of_length_le (Nat.not_lt.mp hmore)]
      exact mem_left.mpr ⟨ha, hpast⟩
  · intro h
    refine if_neg fun hmore => ?_
    have hall : s.elems.filter (past after) ⊆ (s.elems.filter (past after)).take k :=
      fun a ha => h a (mem_left.mp ha).1 (mem_left.mp ha).2
    have hnodup : (s.elems.filter (past after)).Nodup :=
      (left_sorted s after).imp fun hlt => ne_of_lt hlt
    have hlength := (List.subperm_of_subset hnodup hall).length_le
    rw [List.length_take] at hlength
    exact absurd (hlength.trans (Nat.min_le_left ..)) (Nat.not_le.mpr hmore)

/-- The next page begins behind the last row, and what is up to there is on this page. -/
theorem next_some {cursor : α} (h : (page k s after).next = some cursor) :
    cursor ∈ (page k s after).rows ∧ (∀ a ∈ (page k s after).rows, a ≤ cursor) ∧
      ∀ a ∈ s, past after a = true → a ≤ cursor → a ∈ (page k s after).rows := by
  have hmore : k < (s.elems.filter (past after)).length := by
    by_contra hnot
    have hnone : (page k s after).next = none := if_neg hnot
    rw [hnone] at h
    cases h
  have hlast : (page k s after).rows.getLast? = some cursor := by
    rw [← h]
    exact (if_pos hmore).symm
  obtain ⟨shown, hshown⟩ := List.getLast?_eq_some_iff.mp hlast
  have hsorted := rows_sorted k s after
  rw [hshown] at hsorted
  refine ⟨?_, ?_, ?_⟩
  · rw [hshown]
    exact List.mem_append_right _ List.mem_cons_self
  · intro a ha
    rw [hshown] at ha
    rcases List.mem_append.mp ha with ha | ha
    · exact ((List.pairwise_append.mp hsorted).2.2 a ha cursor List.mem_cons_self).le
    · exact (List.mem_singleton.mp ha).le
  · intro a ha hpast hle
    have hleft := left_sorted s after
    rw [← List.take_append_drop k (s.elems.filter (past after))] at hleft
    have hmem : a ∈ s.elems.filter (past after) := mem_left.mpr ⟨ha, hpast⟩
    rw [← List.take_append_drop k (s.elems.filter (past after))] at hmem
    rcases List.mem_append.mp hmem with htake | hdrop
    · exact htake
    · have hcursor : cursor ∈ (s.elems.filter (past after)).take k :=
        List.mem_of_getLast? hlast
      exact absurd hle (not_le.mpr ((List.pairwise_append.mp hleft).2.2 cursor hcursor a hdrop))

/-- With one row to a page, the first of two is the last row of a page. -/
theorem next_of_pair {b : α} (hab : a < b) (hs : ∀ c, c ∈ s ↔ c = a ∨ c = b)
    (hpast : past after a = true) : (page 1 s after).next = some a := by
  have ha : a ∈ s := (hs a).mpr (.inl rfl)
  have hb : b ∈ s := (hs b).mpr (.inr rfl)
  have hnot : ¬ (a ∈ (page 1 s after).rows ∧ b ∈ (page 1 s after).rows) := by
    intro h
    obtain ⟨hfirst, hsecond⟩ := h
    have hlength : (page 1 s after).rows.length ≤ 1 := List.length_take_le ..
    obtain ⟨row, hrow⟩ := List.length_eq_one_iff.mp
      (Nat.le_antisymm hlength (List.length_pos_of_mem hfirst))
    rw [hrow, List.mem_singleton] at hfirst hsecond
    exact absurd (hfirst.trans hsecond.symm) (ne_of_lt hab)
  cases hcursor : (page 1 s after).next with
  | none =>
      have hall := (next_none_iff Nat.one_pos).mp hcursor
      exact absurd ⟨hall a ha hpast, hall b hb (past_mono hpast hab.le)⟩ hnot
  | some cursor =>
      obtain ⟨hmem, -, hrows⟩ := next_some hcursor
      rcases (hs cursor).mp (mem_of_rows hmem).1 with rfl | rfl
      · rfl
      · exact absurd ⟨hrows a ha hpast hab.le, hmem⟩ hnot

end Page

/-! ## A walk from page to page -/

section Walk

variable (k : ℕ) (s : ℕ → OrderedSet α)

/-- What the `n`th page is asked for after, unless the walk has ended before it. -/
def asked : ℕ → Option (Option α)
  | 0 => some none
  | n + 1 => (asked n).bind fun after => (page k (s n) after).next.map some

/-- The rows of the `n`th page. -/
def rows (n : ℕ) : List α := ((asked k s n).map fun after => (page k (s n) after).rows).getD []

/-- The rows of the first `n` pages. -/
def seen (n : ℕ) : List α := (List.range n).flatMap (rows k s)

variable {k s}

theorem rows_of_asked {n : ℕ} {after : Option α} (h : asked k s n = some after) :
    rows k s n = (page k (s n) after).rows := by
  unfold rows
  rw [h]
  rfl

theorem rows_of_ended {n : ℕ} (h : asked k s n = none) : rows k s n = [] := by
  unfold rows
  rw [h]
  rfl

theorem asked_succ {n : ℕ} {cursor : Option α} (h : asked k s (n + 1) = some cursor) :
    ∃ after next, asked k s n = some after ∧ (page k (s n) after).next = some next ∧
      cursor = some next := by
  obtain ⟨after, hafter, hcursor⟩ := Option.bind_eq_some_iff.mp h
  obtain ⟨next, hnext, heq⟩ := Option.map_eq_some_iff.mp hcursor
  exact ⟨after, next, hafter, hnext, heq.symm⟩

theorem seen_succ (n : ℕ) : seen k s (n + 1) = seen k s n ++ rows k s n := by
  unfold seen
  rw [List.range_succ, List.flatMap_append, List.flatMap_singleton]

/-- Every row was in the set its page was read from. -/
theorem mem_of_row {n : ℕ} {a : α} (h : a ∈ rows k s n) : a ∈ s n := by
  cases hasked : asked k s n with
  | none =>
      rw [rows_of_ended hasked] at h
      cases h
  | some after =>
      rw [rows_of_asked hasked] at h
      exact (mem_of_rows h).1

theorem mem_of_seen {n : ℕ} {a : α} (h : a ∈ seen k s n) : ∃ i < n, a ∈ s i := by
  obtain ⟨i, hi, ha⟩ := List.mem_flatMap.mp h
  exact ⟨i, List.mem_range.mp hi, mem_of_row ha⟩

/-- What has been seen when a page is asked for: nothing behind the cursor, and before it
whatever has been there all along. -/
theorem seen_asked {n : ℕ} {after : Option α} (h : asked k s n = some after) :
    (∀ a ∈ seen k s n, past after a = false) ∧
      ∀ a, (∀ i < n, a ∈ s i) → past after a = false → a ∈ seen k s n := by
  induction n generalizing after with
  | zero =>
      obtain rfl := Option.some.inj h
      refine ⟨fun a ha => absurd ha List.not_mem_nil, ?_⟩
      intro a _ ha
      cases ha
  | succ n ih =>
      obtain ⟨before, next, hbefore, hnext, rfl⟩ := asked_succ h
      obtain ⟨hnot, hall⟩ := ih hbefore
      obtain ⟨hmem, hle, hrows⟩ := next_some hnext
      have hpast := (mem_of_rows hmem).2
      have hbehind : ∀ a, past (some next) a = false ↔ a ≤ next := by
        intro a
        rw [← not_lt, ← past_some (a := a), Bool.not_eq_true]
      rw [seen_succ, rows_of_asked hbefore]
      refine ⟨?_, ?_⟩
      · intro a ha
        rcases List.mem_append.mp ha with hseen | hrow
        · by_contra hnew
          rw [Bool.not_eq_false] at hnew
          have hagain := past_mono hpast (past_some.mp hnew).le
          rw [hnot a hseen] at hagain
          cases hagain
        · exact (hbehind a).mpr (hle a hrow)
      · intro a hthere ha
        rw [List.mem_append]
        cases hbefore' : past before a with
        | false =>
            exact .inl (hall a (fun i hi => hthere i (hi.trans (Nat.lt_succ_self n))) hbefore')
        | true =>
            exact .inr (hrows a (hthere n (Nat.lt_succ_self n)) hbefore' ((hbehind a).mp ha))

/-- **Rows come in order**, across the pages of a walk as on one page. -/
theorem seen_sorted (n : ℕ) : (seen k s n).Pairwise (· < ·) := by
  induction n with
  | zero => exact List.Pairwise.nil
  | succ n ih =>
      rw [seen_succ]
      cases hasked : asked k s n with
      | none =>
          rw [rows_of_ended hasked, List.append_nil]
          exact ih
      | some after =>
          rw [rows_of_asked hasked]
          refine List.pairwise_append.mpr ⟨ih, rows_sorted .., ?_⟩
          intro a ha b hb
          by_contra hnot
          have hpast := past_mono (mem_of_rows hb).2 (not_lt.mp hnot)
          rw [(seen_asked hasked).1 a ha] at hpast
          cases hpast

/-- **Nothing is lost**: what is there for every page of a walk that ends has been shown. -/
theorem seen_of_ended (hk : 0 < k) {n : ℕ} {after : Option α} (h : asked k s n = some after)
    (hend : (page k (s n) after).next = none) {a : α} (ha : ∀ i ≤ n, a ∈ s i) :
    a ∈ seen k s (n + 1) := by
  rw [seen_succ, rows_of_asked h, List.mem_append]
  cases hpast : past after a with
  | false => exact .inl ((seen_asked h).2 a (fun i hi => ha i hi.le) hpast)
  | true => exact .inr ((next_none_iff hk).mp hend a (ha n (Nat.le_refl n)) hpast)

/-- As long as a walk goes on, every page of it adds a row. -/
theorem length_seen {n : ℕ} {after : Option α} (h : asked k s n = some after) :
    n ≤ (seen k s n).length := by
  induction n generalizing after with
  | zero => exact Nat.zero_le _
  | succ n ih =>
      obtain ⟨before, next, hbefore, hnext, -⟩ := asked_succ h
      rw [seen_succ, List.length_append, rows_of_asked hbefore]
      have hrow := List.length_pos_of_mem (next_some hnext).1
      exact Nat.add_le_add (ih hbefore) hrow

/-- **A walk comes to a last page**, unless the sets it meets have infinitely many elements
between them. -/
theorem ends (hfinite : {a | ∃ i, a ∈ s i}.Finite) :
    ∃ n after, asked k s n = some after ∧ (page k (s n) after).next = none := by
  by_contra hgoes
  have hasked : ∀ n, ∃ after, asked k s n = some after := by
    intro n
    induction n with
    | zero => exact ⟨none, rfl⟩
    | succ n ih =>
        obtain ⟨after, hafter⟩ := ih
        obtain ⟨next, hnext⟩ := Option.ne_none_iff_exists'.mp fun hnone =>
          hgoes ⟨n, after, hafter, hnone⟩
        refine ⟨some next, ?_⟩
        rw [asked, hafter, Option.bind_some, hnext]
        rfl
  -- the rows seen by then are different ones, and more than there are
  obtain ⟨after, hafter⟩ := hasked (hfinite.toFinset.card + 1)
  have hlength := length_seen hafter
  have hnodup : (seen k s (hfinite.toFinset.card + 1)).Nodup :=
    (seen_sorted _).imp fun hlt => ne_of_lt hlt
  have hsubset : (seen k s (hfinite.toFinset.card + 1)).toFinset ⊆ hfinite.toFinset := by
    intro a ha
    obtain ⟨i, -, hi⟩ := mem_of_seen (List.mem_toFinset.mp ha)
    exact hfinite.mem_toFinset.mpr ⟨i, hi⟩
  have hcard := Finset.card_le_card hsubset
  rw [List.toFinset_card_of_nodup hnodup] at hcard
  exact absurd (hlength.trans hcard) (Nat.not_succ_le_self _)

/-- A walk need not end: with one row to a page, and for every page a set that has another
element behind that row, it goes on for ever. -/
theorem asked_growing {ids : ℕ → α} (hids : StrictMono ids)
    (hs : ∀ n a, a ∈ s n ↔ a = ids n ∨ a = ids (n + 1)) (n : ℕ) :
    asked 1 s (n + 1) = some (some (ids n)) := by
  have hlt : ∀ n, ids n < ids (n + 1) := fun n => hids (Nat.lt_succ_self n)
  induction n with
  | zero =>
      rw [asked, asked, Option.bind_some, next_of_pair (hlt 0) (hs 0) rfl]
      rfl
  | succ n ih =>
      rw [asked, ih, Option.bind_some,
        next_of_pair (hlt (n + 1)) (hs (n + 1)) (past_some.mpr (hlt n))]
      rfl

end Walk

end Paging
