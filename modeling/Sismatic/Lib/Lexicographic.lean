import Mathlib.Algebra.Order.Field.Basic
import Mathlib.Algebra.Order.Field.Rat
import Mathlib.Data.List.Lex
import Mathlib.Order.Compare
import Mathlib.Order.Fin.Basic
import Mathlib.Tactic.Linarith

/-!
# Lexicographic comparison, field by field

The lexicographic order on lists as a three-way comparison. Fields of one width compare
one after the other, so the order of two records written that way is the `then` of the
orders of their fields. The digits after a point are the case where the widths may
differ: there the order of the values is lexicographic too, up to trailing zeros.
-/

namespace Lexicographic

section

variable {α : Type*} [LinearOrder α]

/-- The lexicographic order of two lists. -/
def order (xs ys : List α) : Ordering := xs.compareLex compare ys

@[simp] theorem order_nil : order ([] : List α) [] = .eq := rfl

@[simp] theorem order_nil_cons (y : α) (ys : List α) : order [] (y :: ys) = .lt := rfl

@[simp] theorem order_cons_nil (x : α) (xs : List α) : order (x :: xs) [] = .gt := rfl

@[simp] theorem order_cons (x y : α) (xs ys : List α) :
    order (x :: xs) (y :: ys) = (compare x y).then (order xs ys) := List.compareLex_cons_cons

/-- Two fields of one width decide first. -/
theorem order_append {xs ys : List α} (h : xs.length = ys.length) (as bs : List α) :
    order (xs ++ as) (ys ++ bs) = (order xs ys).then (order as bs) := by
  induction xs generalizing ys with
  | nil =>
      obtain rfl := List.length_eq_zero_iff.mp h.symm
      rfl
  | cons x xs ih =>
      cases ys with
      | nil => cases h
      | cons y ys =>
          rw [List.cons_append, List.cons_append, order_cons, order_cons, ih (Nat.succ.inj h),
            Ordering.then_assoc]

theorem order_eq_lt {xs ys : List α} : order xs ys = .lt ↔ xs < ys := by
  induction xs generalizing ys with
  | nil => cases ys <;> simp
  | cons x xs ih =>
      cases ys with
      | nil => simp
      | cons y ys =>
          rw [order_cons, Ordering.then_eq_lt, ih, List.cons_lt_cons_iff, compare_lt_iff_lt,
            compare_eq_iff_eq]

theorem order_eq_gt {xs ys : List α} : order xs ys = .gt ↔ ys < xs := by
  induction xs generalizing ys with
  | nil => cases ys <;> simp
  | cons x xs ih =>
      cases ys with
      | nil => simp
      | cons y ys =>
          rw [order_cons, Ordering.then_eq_gt, ih, List.cons_lt_cons_iff, compare_gt_iff_gt,
            compare_eq_iff_eq]
          exact or_congr_right (and_congr_left fun _ => eq_comm)

end

/-! ## Digits after a point -/

variable {b : ℕ}

/-- What the digits after a point are worth. -/
def expansion : List (Fin b) → ℚ
  | [] => 0
  | d :: ds => (d.val + expansion ds) / b

theorem expansion_nonneg (ds : List (Fin b)) : 0 ≤ expansion ds := by
  induction ds with
  | nil => exact le_refl _
  | cons d ds ih => exact div_nonneg (add_nonneg (Nat.cast_nonneg _) ih) (Nat.cast_nonneg _)

theorem base_pos (d : Fin b) : (0 : ℚ) < b := Nat.cast_pos.mpr d.pos

theorem expansion_lt_one (ds : List (Fin b)) : expansion ds < 1 := by
  induction ds with
  | nil => exact one_pos
  | cons d ds ih =>
      have hd : (d.val : ℚ) + 1 ≤ b := by exact_mod_cast d.isLt
      rw [expansion, div_lt_one (base_pos d)]
      linarith only [hd, ih]

/-- Digits are worth nothing exactly when they are all zero. -/
theorem expansion_eq_zero {ds : List (Fin b)} : expansion ds = 0 ↔ ∀ d ∈ ds, d.val = 0 := by
  induction ds with
  | nil => simp [expansion]
  | cons d ds ih =>
      rw [expansion, div_eq_zero_iff, or_iff_left (base_pos d).ne',
        add_eq_zero_iff_of_nonneg (Nat.cast_nonneg _) (expansion_nonneg ds), Nat.cast_eq_zero, ih,
        List.forall_mem_cons]

/-- The first digit decides, and the others only if it does not. -/
theorem compare_expansion_cons (x y : Fin b) (xs ys : List (Fin b)) :
    compare (expansion (x :: xs)) (expansion (y :: ys)) =
      (compare x y).then (compare (expansion xs) (expansion ys)) := by
  have hb := base_pos x
  have hx := expansion_nonneg xs
  have hy := expansion_nonneg ys
  have hx' := expansion_lt_one xs
  have hy' := expansion_lt_one ys
  rcases lt_trichotomy x y with h | rfl | h
  · have hval : (x.val : ℚ) + 1 ≤ y.val := by exact_mod_cast h
    rw [compare_lt_iff_lt.mpr h]
    exact compare_lt_iff_lt.mpr (div_lt_div_of_pos_right (by linarith) hb)
  · rw [compare_eq_iff_eq.mpr (rfl : x = x)]
    show _ = compare (expansion xs) (expansion ys)
    rcases lt_trichotomy (expansion xs) (expansion ys) with h | h | h
    · rw [compare_lt_iff_lt.mpr h]
      exact compare_lt_iff_lt.mpr (div_lt_div_of_pos_right (by linarith) hb)
    · rw [compare_eq_iff_eq.mpr h]
      exact compare_eq_iff_eq.mpr (by rw [expansion, expansion, h])
    · rw [compare_gt_iff_gt.mpr h]
      exact compare_gt_iff_gt.mpr (div_lt_div_of_pos_right (by linarith) hb)
  · have hval : (y.val : ℚ) + 1 ≤ x.val := by exact_mod_cast h
    rw [compare_gt_iff_gt.mpr h]
    exact compare_gt_iff_gt.mpr (div_lt_div_of_pos_right (by linarith) hb)

end Lexicographic
