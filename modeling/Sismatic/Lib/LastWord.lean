import Mathlib.Data.List.Basic
import Mathlib.Data.List.Induction
import Mathlib.Logic.Function.Basic

/-!
# The last word

A sequence of events leaves a value under each key, or none. An event says something of some
keys, and leaves the others as they were. What stands under a key at the end is what was said
of it last.
-/

namespace LastWord

variable {ι κ ν : Type*} (effect : ι → κ → Option (Option ν))

/-- What an event leaves under the keys. -/
def leave (held : κ → Option ν) (i : ι) (k : κ) : Option ν := (effect i k).getD (held k)

/-- The last that was said of `k` is `v`. -/
def Says (is : List ι) (k : κ) (v : Option ν) : Prop :=
  ∃ before i after, is = before ++ i :: after ∧ effect i k = some v ∧
    ∀ later ∈ after, effect later k = none

variable {effect} {is : List ι} {i : ι} {k : κ} {v : Option ν}

theorem leave_of_none {held : κ → Option ν} (h : effect i k = none) :
    leave effect held i k = held k := by rw [leave, h, Option.getD_none]

theorem leave_of_some {held : κ → Option ν} (h : effect i k = some v) :
    leave effect held i k = v := by rw [leave, h, Option.getD_some]

/-- In a list with one more event, any event is the new one or stands before it. -/
theorem concat_split {before after : List ι} {j : ι} (h : is ++ [i] = before ++ j :: after) :
    (after = [] ∧ j = i) ∨ ∃ init, after = init ++ [i] ∧ is = before ++ j :: init := by
  rcases List.eq_nil_or_concat' after with rfl | ⟨init, last, rfl⟩
  · obtain ⟨-, hlast⟩ := List.append_inj' h rfl
    exact .inl ⟨rfl, (List.singleton_inj.mp hlast).symm⟩
  · rw [← List.cons_append, ← List.append_assoc] at h
    obtain ⟨hinit, hlast⟩ := List.append_inj' h rfl
    rw [← List.singleton_inj.mp hlast]
    exact .inr ⟨init, rfl, hinit⟩

/-- What says nothing of `k` changes nothing of what was said last. -/
theorem says_concat_of_none (h : effect i k = none) :
    Says effect (is ++ [i]) k v ↔ Says effect is k v := by
  constructor
  · intro hlast
    obtain ⟨before, j, after, heq, hj, hlater⟩ := hlast
    rcases concat_split heq with ⟨-, rfl⟩ | ⟨init, rfl, hinit⟩
    · rw [hj] at h
      cases h
    · exact ⟨before, j, init, hinit, hj, fun later hmem =>
        hlater later (List.mem_append_left _ hmem)⟩
  · intro hlast
    obtain ⟨before, j, after, rfl, hj, hlater⟩ := hlast
    refine ⟨before, j, after ++ [i], by simp, hj, fun later hmem => ?_⟩
    rcases List.mem_append.mp hmem with hmem | hmem
    · exact hlater later hmem
    · rw [List.mem_singleton.mp hmem]
      exact h

/-- What says something of `k` has the last word. -/
theorem says_concat_of_some {w : Option ν} (h : effect i k = some w) :
    Says effect (is ++ [i]) k v ↔ w = v := by
  constructor
  · intro hlast
    obtain ⟨before, j, after, heq, hj, hlater⟩ := hlast
    rcases concat_split heq with ⟨-, rfl⟩ | ⟨init, rfl, -⟩
    · rw [hj] at h
      exact (Option.some.inj h).symm
    · rw [hlater i (List.mem_append_right _ List.mem_cons_self)] at h
      cases h
  · intro heq
    rw [← heq]
    exact ⟨is, i, [], rfl, h, fun later hmem => absurd hmem List.not_mem_nil⟩

/-- **What stands under a key is the last word on it,** or what stood there before if nothing was
said of it; by induction from the end. -/
theorem foldl_leave (held : κ → Option ν) (is : List ι) (k : κ) (v : Option ν) :
    is.foldl (leave effect) held k = v ↔
      Says effect is k v ∨ (∀ i ∈ is, effect i k = none) ∧ held k = v := by
  induction is using List.reverseRecOn with
  | nil =>
      constructor
      · intro h
        exact .inr ⟨fun i hi => absurd hi List.not_mem_nil, h⟩
      · intro h
        rcases h with ⟨before, i, after, heq, -⟩ | ⟨-, h⟩
        · cases before <;> cases heq
        · exact h
  | append_singleton is i ih =>
      rw [List.foldl_append, List.foldl_cons, List.foldl_nil]
      cases heffect : effect i k with
      | none =>
          rw [leave_of_none heffect, ih, says_concat_of_none heffect]
          refine or_congr_right (and_congr_left fun _ => ?_)
          simp only [List.forall_mem_append, List.forall_mem_singleton, heffect, and_true]
      | some w =>
          rw [leave_of_some heffect, says_concat_of_some heffect]
          refine (or_iff_left fun h => ?_).symm
          rw [h.1 i (List.mem_append_right _ List.mem_cons_self)] at heffect
          cases heffect

/-- Where nothing stood before, a value stands under a key exactly if it is the last word on it. -/
theorem foldl_leave_some (is : List ι) (k : κ) (x : ν) :
    is.foldl (leave effect) (fun _ => none) k = some x ↔ Says effect is k (some x) := by
  rw [foldl_leave]
  exact or_iff_left fun h => by cases h.2

end LastWord
