import Mathlib.Logic.Function.Basic
import Std.Data.TreeMap

/-!
# Maps whose values carry their key

A record is often filed under a field of its own. As long as it is filed under that field and no
other, the map and the list of its values say the same: looking a key up and searching the list
for it find the same record.
-/

namespace SelfKeyed

variable {κ α : Type*} [Ord κ]

theorem values_eq_map (m : Std.TreeMap κ α) : m.values = m.toList.map (·.2) := by
  have hfold : m.values = m.foldr (fun _ a as => a :: as) [] := rfl
  rw [hfold, Std.TreeMap.foldr_eq_foldr_toList]
  induction m.toList with
  | nil => rfl
  | cons p ps ih => rw [List.foldr_cons, ih, List.map_cons]

/-- Each value is filed under its own key. -/
def Files (key : α → κ) (m : Std.TreeMap κ α) : Prop := ∀ (k : κ) a, m[k]? = some a → key a = k

variable [Std.TransOrd κ] {key : α → κ} {m : Std.TreeMap κ α}

theorem files_empty : Files key (∅ : Std.TreeMap κ α) := by
  intro k a h
  rw [Std.TreeMap.getElem?_emptyc] at h
  cases h

variable [Std.LawfulEqOrd κ]

theorem mem_values {a : α} : a ∈ m.values ↔ ∃ k : κ, m[k]? = some a := by
  rw [values_eq_map, List.mem_map]
  constructor
  · intro h
    obtain ⟨p, hp, rfl⟩ := h
    exact ⟨p.1, Std.TreeMap.mem_toList_iff_getElem?_eq_some.mp hp⟩
  · intro h
    obtain ⟨k, hk⟩ := h
    exact ⟨(k, a), Std.TreeMap.mem_toList_iff_getElem?_eq_some.mpr hk, rfl⟩

theorem files_insert (h : Files key m) (a : α) : Files key (m.insert (key a) a) := by
  intro k b hb
  rw [Std.TreeMap.getElem?_insert] at hb
  split at hb
  · rename_i heq
    obtain rfl := Option.some.inj hb
    exact Std.LawfulEqCmp.eq_of_compare heq
  · exact h k b hb

/-- **Searching the values is looking up the key.** -/
theorem find_values [DecidableEq κ] (h : Files key m) (k : κ) :
    m.values.find? (fun a => decide (key a = k)) = m[k]? := by
  cases hk : m[k]? with
  | none =>
      refine List.find?_eq_none.mpr fun a ha => ?_
      obtain ⟨k', hk'⟩ := mem_values.mp ha
      have hne : key a ≠ k := by
        intro heq
        rw [← heq, h k' a hk', hk'] at hk
        cases hk
      simpa using hne
  | some a =>
      have hfound : (m.values.find? fun a => decide (key a = k)).isSome = true :=
        List.find?_isSome.mpr ⟨a, mem_values.mpr ⟨k, hk⟩, decide_eq_true (h k a hk)⟩
      obtain ⟨b, hb⟩ := Option.isSome_iff_exists.mp hfound
      obtain ⟨k', hk'⟩ := mem_values.mp (List.mem_of_find?_eq_some hb)
      have hkey : key b = k := by simpa using List.find?_some hb
      rw [hb, ← hk, ← hkey, h k' b hk', hk']

/-- A key is listed with a value of its own exactly when something is filed under it. -/
theorem key_mem_values (h : Files key m) (k : κ) :
    k ∈ m.values.map key ↔ ∃ a, m[k]? = some a := by
  rw [List.mem_map]
  constructor
  · intro hmem
    obtain ⟨a, ha, rfl⟩ := hmem
    obtain ⟨k', hk'⟩ := mem_values.mp ha
    rw [h k' a hk']
    exact ⟨a, hk'⟩
  · intro hsome
    obtain ⟨a, ha⟩ := hsome
    exact ⟨a, mem_values.mpr ⟨k, ha⟩, h k a ha⟩

/-- The values stand in the order of their keys. -/
theorem values_ordered (h : Files key m) :
    (m.values.map key).Pairwise fun a b => compare a b = .lt := by
  have hkeys : m.values.map key = m.toList.map (·.1) := by
    rw [values_eq_map, List.map_map]
    refine List.map_congr_left fun p hp => ?_
    exact h p.1 p.2 (Std.TreeMap.mem_toList_iff_getElem?_eq_some.mp hp)
  rw [hkeys]
  exact List.pairwise_map.mpr Std.TreeMap.ordered_keys_toList

end SelfKeyed
