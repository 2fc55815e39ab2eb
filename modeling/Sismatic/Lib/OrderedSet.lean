import Mathlib.Data.List.Sort

/-!
# Finite sets kept in order

A set is the strictly increasing list of its elements, which is what iterating an
ordered tree set yields. The order is a field, so two sets with the same members
are the same value, and a set can be compared and iterated without a proof that
it is well formed.
-/

/-- A finite set, as the strictly increasing list of its elements. -/
@[ext] structure OrderedSet (α : Type*) [LinearOrder α] where
  /-- The elements, in the order the set is iterated. -/
  elems : List α
  /-- Strictly increasing, so nothing is listed twice. -/
  sorted : elems.Pairwise (· < ·)

namespace OrderedSet

variable {α : Type*} [LinearOrder α]

instance : DecidableEq (OrderedSet α) := fun a b =>
  decidable_of_iff (a.elems = b.elems) OrderedSet.ext_iff.symm

instance : Membership α (OrderedSet α) := ⟨fun s a => a ∈ s.elems⟩

theorem mem_def {s : OrderedSet α} {a : α} : a ∈ s ↔ a ∈ s.elems := Iff.rfl

instance (s : OrderedSet α) (a : α) : Decidable (a ∈ s) :=
  decidable_of_iff (a ∈ s.elems) mem_def.symm

theorem nodup (s : OrderedSet α) : s.elems.Nodup := s.sorted.imp fun h => ne_of_lt h

/-- A set is determined by its members. -/
theorem eq_of_mem_iff {s t : OrderedSet α} (h : ∀ a, a ∈ s ↔ a ∈ t) : s = t :=
  OrderedSet.ext ((List.sortedLT_iff_pairwise.mpr s.sorted).eq_of_mem_iff
    (List.sortedLT_iff_pairwise.mpr t.sorted) h)

/-- The set with no elements. -/
def empty : OrderedSet α := ⟨[], List.Pairwise.nil⟩

/-! ## Insertion -/

/-- Put `a` into an increasing list, once. -/
def insertList (a : α) : List α → List α
  | [] => [a]
  | b :: bs => if a < b then a :: b :: bs else if a = b then b :: bs else b :: insertList a bs

theorem mem_insertList {a c : α} {l : List α} : c ∈ insertList a l ↔ c = a ∨ c ∈ l := by
  induction l with
  | nil => simp [insertList]
  | cons b bs ih =>
      rw [insertList]
      split
      · simp
      · split
        · rename_i hab
          subst hab
          simp
        · simp only [List.mem_cons, ih]
          tauto

theorem sorted_insertList {a : α} {l : List α} (h : l.Pairwise (· < ·)) :
    (insertList a l).Pairwise (· < ·) := by
  induction l with
  | nil => simp [insertList]
  | cons b bs ih =>
      obtain ⟨hb, hbs⟩ := List.pairwise_cons.mp h
      rw [insertList]
      split
      · rename_i hab
        refine List.pairwise_cons.mpr ⟨?_, h⟩
        intro c hc
        rcases List.mem_cons.mp hc with rfl | hc
        · exact hab
        · exact lt_trans hab (hb c hc)
      · split
        · exact h
        · rename_i hlt hne
          refine List.pairwise_cons.mpr ⟨?_, ih hbs⟩
          intro c hc
          rcases mem_insertList.mp hc with rfl | hc
          · exact lt_of_le_of_ne (not_lt.mp hlt) (Ne.symm hne)
          · exact hb c hc

/-- The set with `a` added. -/
def insert (a : α) (s : OrderedSet α) : OrderedSet α :=
  ⟨insertList a s.elems, sorted_insertList s.sorted⟩

/-- The set of the elements of a list, in any order and with any repeats. -/
def ofList (l : List α) : OrderedSet α := l.foldr insert empty

@[simp] theorem mem_insert {a c : α} {s : OrderedSet α} : c ∈ s.insert a ↔ c = a ∨ c ∈ s :=
  mem_insertList

@[simp] theorem mem_ofList {c : α} {l : List α} : c ∈ ofList l ↔ c ∈ l := by
  induction l with
  | nil => exact Iff.rfl
  | cons a l ih =>
      show c ∈ (ofList l).insert a ↔ _
      rw [mem_insert, ih, List.mem_cons]

/-! ## Removal and selection -/

/-- The members satisfying `p`. -/
def filter (p : α → Bool) (s : OrderedSet α) : OrderedSet α :=
  ⟨s.elems.filter p, s.sorted.filter p⟩

/-- The set without `a`. -/
def erase (s : OrderedSet α) (a : α) : OrderedSet α := s.filter (fun c => decide (c ≠ a))

@[simp] theorem mem_filter {p : α → Bool} {s : OrderedSet α} {a : α} :
    a ∈ s.filter p ↔ a ∈ s ∧ p a = true := List.mem_filter

@[simp] theorem mem_erase {s : OrderedSet α} {a c : α} : c ∈ s.erase a ↔ c ∈ s ∧ c ≠ a := by
  simp [erase]

/-- Selecting keeps the whole set exactly when every member is selected. -/
theorem filter_eq_self {p : α → Bool} {s : OrderedSet α} :
    s.filter p = s ↔ ∀ a ∈ s, p a = true := by
  refine ⟨?_, ?_⟩
  · intro h a ha
    exact (mem_filter.mp (h.symm ▸ ha)).2
  · intro h
    exact eq_of_mem_iff fun a => by simp only [mem_filter]; exact ⟨fun k => k.1, fun k => ⟨k, h a k⟩⟩

end OrderedSet
