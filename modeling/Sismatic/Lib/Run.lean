import Mathlib.Logic.Function.Basic

/-!
# Runs of a machine

A machine is a total step function `σ → ι → σ`: a state, an input, the next
state. A *run* is a start state and the list of inputs fed to it. Everything said
about a run is said with two functions: `exec`, the state it ends in, and
`Along`, which holds a predicate of the state *before* each step and its input
at every step taken.

Safety claims about a run come in two shapes and both rest on one induction: a
state predicate kept by every step (`exec_invariant`), and a step predicate that
holds whenever the invariant does (`along_of_invariant`).
-/

namespace Machine

variable {σ ι : Type*} {step : σ → ι → σ}

/-- The state a run ends in. -/
def exec (step : σ → ι → σ) (s : σ) (is : List ι) : σ := is.foldl step s

/-- `P` holds at every step of the run, of the state before it and its input. -/
def Along (step : σ → ι → σ) (P : σ → ι → Prop) : σ → List ι → Prop
  | _, [] => True
  | s, i :: is => P s i ∧ Along step P (step s i) is

@[simp] theorem exec_nil (s : σ) : exec step s [] = s := rfl

@[simp] theorem exec_cons (s : σ) (i : ι) (is : List ι) :
    exec step s (i :: is) = exec step (step s i) is := rfl

theorem exec_append (s : σ) (is js : List ι) :
    exec step s (is ++ js) = exec step (exec step s is) js := List.foldl_append ..

@[simp] theorem along_nil {P : σ → ι → Prop} (s : σ) : Along step P s [] := trivial

@[simp] theorem along_cons {P : σ → ι → Prop} {s : σ} {i : ι} {is : List ι} :
    Along step P s (i :: is) ↔ P s i ∧ Along step P (step s i) is := Iff.rfl

theorem along_append {P : σ → ι → Prop} {s : σ} {is js : List ι} :
    Along step P s (is ++ js) ↔ Along step P s is ∧ Along step P (exec step s is) js := by
  induction is generalizing s with
  | nil => simp
  | cons i is ih => simp only [List.cons_append, along_cons, exec_cons, ih, and_assoc]

instance decidableAlong {P : σ → ι → Prop} [∀ s i, Decidable (P s i)] (s : σ) (is : List ι) :
    Decidable (Along step P s is) :=
  match is with
  | [] => .isTrue trivial
  | i :: is => @instDecidableAnd _ _ _ (decidableAlong (step s i) is)

/-- A weaker predicate holds along every run a stronger one does. -/
theorem Along.mono {P Q : σ → ι → Prop} (hPQ : ∀ s i, P s i → Q s i) {s : σ} {is : List ι}
    (h : Along step P s is) : Along step Q s is := by
  induction is generalizing s with
  | nil => trivial
  | cons i is ih => exact ⟨hPQ s i h.1, ih h.2⟩

theorem along_and {P Q : σ → ι → Prop} {s : σ} {is : List ι} :
    Along step (fun s i => P s i ∧ Q s i) s is ↔ Along step P s is ∧ Along step Q s is := by
  induction is generalizing s with
  | nil => simp
  | cons i is ih =>
      simp only [along_cons, ih]
      refine ⟨?_, ?_⟩
      · intro h
        obtain ⟨⟨hP, hQ⟩, hPs, hQs⟩ := h
        exact ⟨⟨hP, hPs⟩, hQ, hQs⟩
      · intro h
        obtain ⟨⟨hP, hPs⟩, hQ, hQs⟩ := h
        exact ⟨⟨hP, hQ⟩, hPs, hQs⟩

/-- What is true of every input holds along the run of them. -/
theorem along_of_mem {P : ι → Prop} {s : σ} {is : List ι} (h : ∀ i ∈ is, P i) :
    Along step (fun _ i => P i) s is := by
  induction is generalizing s with
  | nil => trivial
  | cons i is ih =>
      exact ⟨h i (List.mem_cons_self ..), ih fun j hj => h j (List.mem_cons_of_mem _ hj)⟩

/-- A predicate holds along a run when it holds at each step, wherever the run is split. -/
theorem along_iff_split {P : σ → ι → Prop} {s : σ} {is : List ι} :
    Along step P s is ↔ ∀ earlier i later, is = earlier ++ i :: later → P (exec step s earlier) i := by
  refine ⟨?_, ?_⟩
  · intro h earlier i later hsplit
    rw [hsplit, along_append] at h
    exact h.2.1
  · intro h
    induction is generalizing s with
    | nil => trivial
    | cons i is ih =>
        refine ⟨h [] i is rfl, ih ?_⟩
        intro earlier j later hsplit
        exact h (i :: earlier) j later (by rw [hsplit]; rfl)

/--
**The invariant rule.** A predicate every step keeps, under the condition `ok` that
each step of the run meets, holds of the state the run ends in.
-/
theorem exec_invariant {ok : σ → ι → Prop} {Inv : σ → Prop}
    (hstep : ∀ s i, Inv s → ok s i → Inv (step s i)) {s : σ} {is : List ι}
    (hrun : Along step ok s is) (h : Inv s) : Inv (exec step s is) := by
  induction is generalizing s with
  | nil => exact h
  | cons i is ih => exact ih hrun.2 (hstep s i h hrun.1)

/-- What the invariant says of a step holds of every step of the run. -/
theorem along_of_invariant {ok P : σ → ι → Prop} {Inv : σ → Prop}
    (hstep : ∀ s i, Inv s → ok s i → Inv (step s i))
    (hP : ∀ s i, Inv s → ok s i → P s i) {s : σ} {is : List ι}
    (hrun : Along step ok s is) (h : Inv s) : Along step P s is := by
  induction is generalizing s with
  | nil => trivial
  | cons i is ih => exact ⟨hP s i h hrun.1, ih hrun.2 (hstep s i h hrun.1)⟩

/--
Two step predicates agree along a run when they agree at every step that an
invariant covers, and either of them carries the invariant on.

The invariant may depend on the very predicate being characterised: it is only
needed at the steps before the first one where both fail.
-/
theorem along_iff_of_invariant {ok P Q : σ → ι → Prop} {Inv : σ → Prop}
    (hstep : ∀ s i, Inv s → ok s i → Q s i → Inv (step s i))
    (hPQ : ∀ s i, Inv s → ok s i → (P s i ↔ Q s i)) {s : σ} {is : List ι}
    (hrun : Along step ok s is) (h : Inv s) : Along step P s is ↔ Along step Q s is := by
  induction is generalizing s with
  | nil => simp
  | cons i is ih =>
      have hhead := hPQ s i h hrun.1
      refine ⟨?_, ?_⟩
      · intro h'
        obtain ⟨hp, hps⟩ := h'
        have hq := hhead.mp hp
        exact ⟨hq, (ih hrun.2 (hstep s i h hrun.1 hq)).mp hps⟩
      · intro h'
        obtain ⟨hq, hqs⟩ := h'
        exact ⟨hhead.mpr hq, (ih hrun.2 (hstep s i h hrun.1 hq)).mpr hqs⟩

/-! ## Machines that carry more along -/

section Carried

variable {τ : Type*} {step' : τ → ι → τ} {f : τ → σ}

/-- A machine that only adds to what another keeps runs as the other does. -/
theorem exec_map (hf : ∀ t i, f (step' t i) = step (f t) i) (t : τ) (is : List ι) :
    f (exec step' t is) = exec step (f t) is := by
  induction is generalizing t with
  | nil => rfl
  | cons i is ih => rw [exec_cons, exec_cons, ih, hf]

theorem along_map (hf : ∀ t i, f (step' t i) = step (f t) i) {P : σ → ι → Prop} {t : τ}
    {is : List ι} :
    Along step' (fun t i => P (f t) i) t is ↔ Along step P (f t) is := by
  induction is generalizing t with
  | nil => exact Iff.rfl
  | cons i is ih => rw [along_cons, along_cons, ih, hf]

end Carried

end Machine
