import Mathlib.Algebra.BigOperators.Group.Finset.Basic
import Mathlib.Algebra.Order.BigOperators.Group.Finset
import Mathlib.Tactic.Linarith

/-!
# Running totals

A cost on keys of which all but finitely many cost nothing, and what the others add up
to. A total is kept by adding what a key comes to cost and taking off what it cost
before, or taking off what a whole group of keys costs; it never goes below zero.
-/

/-- `total` is what the keys cost together, all but finitely many of them nothing. -/
def Totals {κ : Type*} (cost : κ → ℕ) (total : ℕ) : Prop :=
  ∃ keys : Finset κ, (∀ k, k ∉ keys → cost k = 0) ∧ total = ∑ k ∈ keys, cost k

namespace Totals

variable {κ : Type*} {cost cost' : κ → ℕ} {total total' : ℕ}

theorem zero : Totals (fun _ : κ => 0) 0 := ⟨∅, fun _ _ => rfl, rfl⟩

/-- The sum may be taken over any keys that leave out only keys that cost nothing. -/
theorem eq_sum [DecidableEq κ] (h : Totals cost total) {keys : Finset κ}
    (hkeys : ∀ k, k ∉ keys → cost k = 0) : total = ∑ k ∈ keys, cost k := by
  obtain ⟨keys', hkeys', rfl⟩ := h
  have hunion : ∀ s t : Finset κ, (∀ k, k ∉ s → cost k = 0) →
      ∑ k ∈ s, cost k = ∑ k ∈ s ∪ t, cost k := by
    intro s t hs
    exact Finset.sum_subset Finset.subset_union_left fun k _ hk => hs k hk
  rw [hunion keys' keys hkeys', hunion keys keys' hkeys, Finset.union_comm]

theorem unique (h : Totals cost total) (h' : Totals cost total') : total = total' := by
  classical
  obtain ⟨keys, hkeys, rfl⟩ := h'
  exact h.eq_sum hkeys

theorem congr (h : Totals cost total) (heq : ∀ k, cost' k = cost k) : Totals cost' total := by
  obtain rfl : cost' = cost := funext heq
  exact h

theorem add (h : Totals cost total) (h' : Totals cost' total') :
    Totals (fun k => cost k + cost' k) (total + total') := by
  classical
  obtain ⟨keys, hkeys, -⟩ := id h
  obtain ⟨keys', hkeys', -⟩ := id h'
  refine ⟨keys ∪ keys', ?_, ?_⟩
  · intro k hk
    rw [Finset.mem_union, not_or] at hk
    show cost k + cost' k = 0
    rw [hkeys k hk.1, hkeys' k hk.2]
  · have hcost : ∀ k, k ∉ keys ∪ keys' → cost k = 0 := fun k hk =>
      hkeys k fun hmem => hk (Finset.mem_union_left _ hmem)
    have hcost' : ∀ k, k ∉ keys ∪ keys' → cost' k = 0 := fun k hk =>
      hkeys' k fun hmem => hk (Finset.mem_union_right _ hmem)
    rw [Finset.sum_add_distrib, ← h.eq_sum hcost, ← h'.eq_sum hcost']

/-- One key costs, and no other. -/
theorem single [DecidableEq κ] (k : κ) (c : ℕ) : Totals (fun k' => if k' = k then c else 0) c := by
  refine ⟨{k}, ?_, ?_⟩
  · intro k' hk'
    exact if_neg fun heq => hk' (Finset.mem_singleton.mpr heq)
  · rw [Finset.sum_singleton, if_pos rfl]

/-- A smaller cost has a total too, a smaller one. -/
theorem exists_of_le (h : Totals cost total) (hle : ∀ k, cost' k ≤ cost k) :
    ∃ total' ≤ total, Totals cost' total' := by
  obtain ⟨keys, hkeys, rfl⟩ := h
  refine ⟨∑ k ∈ keys, cost' k, Finset.sum_le_sum fun k _ => hle k, keys, ?_, rfl⟩
  intro k hk
  have := hle k
  have := hkeys k hk
  omega

/-- What a part of the cost comes to is taken off the total. -/
theorem sub (h : Totals cost total) (h' : Totals cost' total') (hle : ∀ k, cost' k ≤ cost k) :
    total' ≤ total ∧ Totals (fun k => cost k - cost' k) (total - total') := by
  obtain ⟨rest, -, hrest⟩ := h.exists_of_le fun k => Nat.sub_le (cost k) (cost' k)
  have hsum : total' + rest = total := by
    refine (h'.add hrest).unique (h.congr fun k => ?_)
    have := hle k
    omega
  have hdiff : total - total' = rest := by omega
  exact ⟨by omega, hdiff ▸ hrest⟩

/-- One key comes to cost something else. -/
theorem update [DecidableEq κ] (h : Totals cost total) (k : κ) (c : ℕ) :
    cost k ≤ total + c ∧ Totals (Function.update cost k c) (total + c - cost k) := by
  have hle : ∀ k', (if k' = k then cost k else 0) ≤ cost k' + if k' = k then c else 0 := by
    intro k'
    split
    · rename_i heq
      rw [heq]
      exact Nat.le_add_right _ _
    · exact Nat.zero_le _
  obtain ⟨hbound, htotal⟩ := (h.add (single k c)).sub (single k (cost k)) hle
  refine ⟨hbound, htotal.congr fun k' => ?_⟩
  by_cases heq : k' = k
  · subst heq
    rw [Function.update_self, if_pos rfl, if_pos rfl]
    omega
  · rw [Function.update_of_ne heq, if_neg heq, if_neg heq]
    omega

/-- Different keys cost together at most the total. -/
theorem sum_le (h : Totals cost total) {keys : List κ} (hnodup : keys.Nodup) :
    (keys.map cost).sum ≤ total := by
  classical
  obtain ⟨all, hall, -⟩ := id h
  have htotal : total = ∑ k ∈ all ∪ keys.toFinset, cost k :=
    h.eq_sum fun k hk => hall k fun hmem => hk (Finset.mem_union_left _ hmem)
  rw [htotal, ← List.sum_toFinset cost hnodup]
  exact Finset.sum_le_sum_of_subset Finset.subset_union_right

/-- What a list's elements weigh, key by key. -/
theorem of_list [DecidableEq κ] {α : Type*} (key : α → κ) (weight : α → ℕ) (xs : List α) :
    Totals (fun k => ((xs.filter fun x => key x = k).map weight).sum) (xs.map weight).sum := by
  induction xs with
  | nil => exact zero
  | cons x xs ih =>
      rw [List.map_cons, List.sum_cons]
      refine ((single (key x) (weight x)).add ih).congr fun k => ?_
      by_cases hk : key x = k
      · rw [if_pos hk.symm]
        simp [hk]
      · rw [if_neg fun heq => hk heq.symm]
        simp [hk]

end Totals
