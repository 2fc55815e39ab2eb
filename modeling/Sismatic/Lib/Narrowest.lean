import Mathlib.Data.List.Basic

/-!
# The narrowest reading that finds something

A list is searched under one reading after another, and the answer is what the first of them finds
that finds anything. Nothing is assumed of the readings; where each implies the next, what is found
is found under the loosest of them too.
-/

namespace Narrowest

variable {α : Type*}

/-- What the first of the readings that finds anything finds. -/
def search (as : List α) : List (α → Bool) → List α
  | [] => []
  | reading :: readings =>
      if (as.filter reading).isEmpty then search as readings else as.filter reading

variable {as : List α} {reading : α → Bool} {readings : List (α → Bool)}

theorem search_of_none (h : as.filter reading = []) :
    search as (reading :: readings) = search as readings := if_pos (List.isEmpty_iff.mpr h)

theorem search_of_some (h : as.filter reading ≠ []) :
    search as (reading :: readings) = as.filter reading :=
  if_neg (mt List.isEmpty_iff.mp h)

/-- Looking whether something is found by how much is. -/
theorem search_cons (as : List α) (reading : α → Bool) (readings : List (α → Bool)) :
    search as (reading :: readings) =
      if (as.filter reading).length > 0 then as.filter reading else search as readings := by
  by_cases hnone : as.filter reading = []
  · rw [search_of_none hnone, hnone]
    rfl
  · rw [search_of_some hnone, if_pos (List.length_pos_of_ne_nil hnone)]

theorem search_singleton (as : List α) (reading : α → Bool) :
    search as [reading] = as.filter reading := by
  by_cases hnone : as.filter reading = []
  · rw [search_of_none hnone, hnone]
    rfl
  · exact search_of_some hnone

theorem search_sublist (as : List α) (readings : List (α → Bool)) :
    (search as readings).Sublist as := by
  induction readings with
  | nil => exact List.nil_sublist as
  | cons reading readings ih =>
      by_cases hnone : as.filter reading = []
      · rw [search_of_none hnone]
        exact ih
      · rw [search_of_some hnone]
        exact List.filter_sublist

theorem search_map {β : Type*} (f : β → α) (bs : List β) (readings : List (α → Bool)) :
    search (bs.map f) readings = (search bs (readings.map (· ∘ f))).map f := by
  induction readings with
  | nil => rfl
  | cons reading readings ih =>
      rw [List.map_cons, search, search, List.filter_map, ih]
      simp only [List.isEmpty_map, apply_ite (List.map f)]

/-- What is found fits some reading. -/
theorem fits_of_search {a : α} (h : a ∈ search as readings) :
    ∃ reading ∈ readings, reading a = true := by
  induction readings with
  | nil => cases h
  | cons reading readings ih =>
      by_cases hnone : as.filter reading = []
      · rw [search_of_none hnone] at h
        obtain ⟨later, hlater, hfits⟩ := ih h
        exact ⟨later, List.mem_cons_of_mem reading hlater, hfits⟩
      · rw [search_of_some hnone] at h
        exact ⟨reading, List.mem_cons_self, (List.mem_filter.mp h).2⟩

/-- What fits a reading is left out only where something fits a narrower one. -/
theorem search_or_narrower (before after : List (α → Bool)) {a : α} (ha : a ∈ as)
    (hfits : reading a = true) :
    a ∈ search as (before ++ reading :: after) ∨
      ∃ narrower ∈ before, ∃ b ∈ search as (before ++ reading :: after), narrower b = true := by
  induction before with
  | nil =>
      have hmem : a ∈ as.filter reading := List.mem_filter.mpr ⟨ha, hfits⟩
      rw [List.nil_append, search_of_some (List.ne_nil_of_mem hmem)]
      exact .inl hmem
  | cons narrower before ih =>
      rw [List.cons_append]
      by_cases hnone : as.filter narrower = []
      · rw [search_of_none hnone]
        rcases ih with hfound | ⟨narrower', hmem, b, hb, hfits'⟩
        · exact .inl hfound
        · exact .inr ⟨narrower', List.mem_cons_of_mem narrower hmem, b, hb, hfits'⟩
      · obtain ⟨b, hb⟩ := List.exists_mem_of_ne_nil _ hnone
        rw [search_of_some hnone]
        exact .inr ⟨narrower, List.mem_cons_self, b, hb, (List.mem_filter.mp hb).2⟩

/-- Where something is found that fits a reading, all that is found fits it or a narrower one. -/
theorem all_fit_of_search (before after : List (α → Bool)) {a b : α}
    (hb : b ∈ search as (before ++ reading :: after)) (hfits : reading b = true)
    (ha : a ∈ search as (before ++ reading :: after)) :
    reading a = true ∨ ∃ narrower ∈ before, narrower a = true := by
  induction before with
  | nil =>
      rw [List.nil_append] at ha hb
      -- what was found fits the reading, so the search stopped here
      have hsome : as.filter reading ≠ [] := by
        have hthere := (search_sublist as (reading :: after)).subset hb
        exact List.ne_nil_of_mem (List.mem_filter.mpr ⟨hthere, hfits⟩)
      rw [search_of_some hsome] at ha
      exact .inl (List.mem_filter.mp ha).2
  | cons narrower before ih =>
      rw [List.cons_append] at ha hb
      by_cases hnone : as.filter narrower = []
      · rw [search_of_none hnone] at ha hb
        rcases ih hb ha with hsame | ⟨narrower', hmem, hfits'⟩
        · exact .inl hsame
        · exact .inr ⟨narrower', List.mem_cons_of_mem narrower hmem, hfits'⟩
      · rw [search_of_some hnone] at ha
        exact .inr ⟨narrower, List.mem_cons_self, (List.mem_filter.mp ha).2⟩

/-- **To search what was found finds all of it.** -/
theorem search_again (as : List α) (readings : List (α → Bool)) :
    search (search as readings) readings = search as readings := by
  induction readings with
  | nil => rfl
  | cons reading readings ih =>
      by_cases hnone : as.filter reading = []
      · -- nothing that is found later fits the reading either
        have hstill : (search as readings).filter reading = [] := by
          refine List.filter_eq_nil_iff.mpr fun a ha => ?_
          exact List.filter_eq_nil_iff.mp hnone a ((search_sublist as readings).subset ha)
        rw [search_of_none hnone, search_of_none hstill]
        exact ih
      · have hsame : (as.filter reading).filter reading = as.filter reading := by
          rw [List.filter_filter]
          simp only [Bool.and_self]
        rw [search_of_some hnone, search_of_some (by rwa [hsame]), hsame]

end Narrowest
