import Mathlib.Algebra.Order.BigOperators.Group.Finset
import Mathlib.Data.Fintype.BigOperators
import Mathlib.Logic.Function.Basic

/-!
# Keeping up with what is announced

One task keeps things of its own in step with a source that others move. They tell it through
channels that hold a version and nothing else: a channel is *unseen* while its version is not
the one the task marked last, and the announcements between two looks are one wake-up.

On waking the task does a list of chores, in order, and each of them reads the source as it
then is. A list is *sound* when nothing is marked seen, and nothing undone, that a later chore
of the list does not see to. A task whose lists are sound owes nothing that a channel does not
still tell it: `inv_step`. Left alone it ends, after no more chores than it owes, with
everything right: `right_of_stuck` and `length_le_weight`.

The marking stands before the reading. A change that falls between the two is read and
announced again, which costs a pass that finds nothing to do. The other way round it is lost.
-/

namespace Watch

/-- One thing to do on waking: mark a channel seen, see to a part, or both at once. -/
structure Chore (κ ι : Type*) where
  marks : Option κ
  part : Option ι
deriving DecidableEq

/-- What a task follows, and what it does about it. -/
structure Scheme (κ ι σ τ : Type*) where
  /-- What is done when a channel wakes the task. -/
  work : κ → List (Chore κ ι)
  /-- How the source is moved by those who announce it afterwards. -/
  Moves : κ → σ → σ → Prop
  /-- How the source is moved by the announcement itself. -/
  Publishes : κ → σ → σ → Prop
  /-- What seeing to a part does to what the task keeps. -/
  Does : ι → σ → τ → τ → Prop
  /-- A part is as the source has it. -/
  Right : ι → σ → τ → Prop
  /-- Seeing to the one may undo the other. -/
  Spoils : ι → ι → Prop

structure State (κ ι σ τ : Type*) where
  source : σ
  own : τ
  /-- What is left of the list the task is on. -/
  chores : List (Chore κ ι)
  version : κ → ℕ
  /-- The version marked last. -/
  seen : κ → ℕ
  /-- Moves of the source that are still to be announced. -/
  unannounced : κ → ℕ
  /-- Nobody is left who could announce. -/
  closed : κ → Bool
  /-- The task has not given the channel up. -/
  watching : κ → Bool

variable {κ ι σ τ : Type*}

/-- Some chore of the list sees to the part. -/
def Covers (chores : List (Chore κ ι)) (i : ι) : Prop := ∃ chore ∈ chores, chore.part = some i

theorem covers_cons {chore : Chore κ ι} {chores : List (Chore κ ι)} {i : ι} :
    Covers (chore :: chores) i ↔ chore.part = some i ∨ Covers chores i := by
  unfold Covers
  simp only [List.mem_cons, exists_eq_or_imp]

namespace Scheme

variable (S : Scheme κ ι σ τ)

/-- What a channel is about. -/
def About (c : κ) (i : ι) : Prop := Covers (S.work c) i

/-- What is marked or undone on the way is seen to further on. -/
def Sound : List (Chore κ ι) → Prop
  | [] => True
  | chore :: chores =>
      (∀ c, chore.marks = some c → ∀ i, S.About c i → chore.part = some i ∨ Covers chores i) ∧
        (∀ i, chore.part = some i → ∀ j, S.Spoils i j → Covers chores j) ∧ Sound chores

/-- What a scheme has to be like for its task to keep up. -/
structure Lawful : Prop where
  sound : ∀ c, S.Sound (S.work c)
  /-- What is moved is what the channel is about. -/
  moves : ∀ c s s', S.Moves c s s' → ∀ i, ¬ S.About c i → ∀ t, S.Right i s t → S.Right i s' t
  publishes : ∀ c s s', S.Publishes c s s' → ∀ i, ¬ S.About c i → ∀ t, S.Right i s t →
    S.Right i s' t
  makes : ∀ i s t t', S.Does i s t t' → S.Right i s t'
  keeps : ∀ i s t t', S.Does i s t t' → ∀ j, ¬ S.Spoils i j → S.Right j s t → S.Right j s t'

/-! ## What is owed -/

/-- Something the channel has still to tell. -/
def Untold (s : State κ ι σ τ) (c : κ) : Prop := 0 < s.unannounced c ∨ s.seen c ≠ s.version c

/-- The task still has the part before it, or a channel is still to tell it. -/
def Owed (s : State κ ι σ τ) (i : ι) : Prop :=
  Covers s.chores i ∨ ∃ c, S.About c i ∧ Untold s c

/-- What holds of the channels, whatever the task does about them. -/
structure Tidy (s : State κ ι σ τ) : Prop where
  behind : ∀ c, s.seen c ≤ s.version c
  closed : ∀ c, s.closed c = true → s.unannounced c = 0
  deaf : ∀ c, s.watching c = false → s.closed c = true ∧ s.seen c = s.version c

structure Inv (s : State κ ι σ τ) : Prop where
  tidy : Tidy s
  sound : S.Sound s.chores
  right : ∀ i, S.Right i s.source s.own ∨ S.Owed s i

theorem untold_congr {s s' : State κ ι σ τ} {c : κ} (h : Untold s c)
    (hunannounced : s'.unannounced c = s.unannounced c) (hversion : s'.version c = s.version c)
    (hseen : s'.seen c = s.seen c) : Untold s' c := by
  unfold Untold
  rw [hunannounced, hversion, hseen]
  exact h

theorem owed_mono {S : Scheme κ ι σ τ} {s s' : State κ ι σ τ} {i : ι} (h : S.Owed s i)
    (hchores : Covers s.chores i → Covers s'.chores i)
    (htold : ∀ c, Untold s c → Untold s' c) : S.Owed s' i := by
  rcases h with hcovers | ⟨c, habout, huntold⟩
  · exact .inl (hchores hcovers)
  · exact .inr ⟨c, habout, htold c huntold⟩

/-- Nobody has gone away yet. -/
theorem tidy_of_open {s : State κ ι σ τ} (hbehind : ∀ c, s.seen c ≤ s.version c)
    (hopen : ∀ c, s.closed c = false) (hwatching : ∀ c, s.watching c = true) : Tidy s := by
  refine ⟨hbehind, ?_, ?_⟩
  · intro c hclosed
    rw [hopen c] at hclosed
    cases hclosed
  · intro c hdeaf
    rw [hwatching c] at hdeaf
    cases hdeaf

/-- A list that sees to every part is one to begin with, whatever the parts are like. -/
theorem inv_of_covers {S : Scheme κ ι σ τ} {s : State κ ι σ τ} (htidy : Tidy s)
    (hsound : S.Sound s.chores) (hcovers : ∀ i, Covers s.chores i) : S.Inv s :=
  ⟨htidy, hsound, fun i => .inr (.inl (hcovers i))⟩

/-- **Nothing is lost**: with every move announced and every announcement seen, all is right. -/
theorem right_of_rest {S : Scheme κ ι σ τ} {s : State κ ι σ τ} (h : S.Inv s) (hidle : s.chores = [])
    (hseen : ∀ c, s.seen c = s.version c) (hannounced : ∀ c, s.unannounced c = 0) (i : ι) :
    S.Right i s.source s.own := by
  refine (h.right i).resolve_right fun howed => ?_
  rcases howed with ⟨_, hmem, -⟩ | ⟨c, -, hmoved | hunseen⟩
  · rw [hidle] at hmem
    cases hmem
  · have := hannounced c
    omega
  · exact hunseen (hseen c)

/-- What a wake-up that is due comes to in steps. -/
def wakeDue (chores seen version : ℕ) : ℕ := if seen = version then 0 else chores + 1

/-- Giving a channel up is a step. -/
def deafDue : Bool → ℕ
  | true => 1
  | false => 0

theorem wakeDue_self (chores version : ℕ) : wakeDue chores version version = 0 := if_pos rfl

theorem wakeDue_of_ne {chores seen version : ℕ} (h : seen ≠ version) :
    wakeDue chores seen version = chores + 1 := if_neg h

/-- What the task owes a channel in steps. -/
def due (S : Scheme κ ι σ τ) (s : State κ ι σ τ) (c : κ) : ℕ :=
  wakeDue (S.work c).length (s.seen c) (s.version c) + deafDue (s.watching c)

/-- The steps a task has before it at most, when nobody else takes one. -/
def weight [Fintype κ] (S : Scheme κ ι σ τ) (s : State κ ι σ τ) : ℕ :=
  s.chores.length + ∑ c, due S s c

/-- However much was announced, no more is owed than one turn for each channel. -/
theorem weight_le [Fintype κ] {S : Scheme κ ι σ τ} {m n : ℕ}
    (hwork : ∀ c, (S.work c).length ≤ n) {s : State κ ι σ τ} (h : s.chores.length ≤ m) :
    weight S s ≤ m + Fintype.card κ * (n + 2) := by
  have hdue : ∀ c ∈ Finset.univ, due S s c ≤ n + 2 := by
    intro c _
    have hchores := hwork c
    have hwake : wakeDue (S.work c).length (s.seen c) (s.version c) ≤ n + 1 := by
      unfold wakeDue
      split <;> omega
    have hdeaf : deafDue (s.watching c) ≤ 1 := by
      cases s.watching c with
      | true => exact Nat.le_refl 1
      | false => exact Nat.zero_le 1
    unfold due
    omega
  have hsum := Finset.sum_le_sum hdue
  rw [Finset.sum_const_nat fun _ _ => rfl, Finset.card_univ] at hsum
  unfold weight
  omega

/-! ## Steps -/

variable [DecidableEq κ]

/-- What a chore leaves behind of the channels seen. -/
def mark (seen version : κ → ℕ) : Option κ → κ → ℕ
  | none => seen
  | some c => Function.update seen c (version c)

/-- What a chore does to what the task keeps. -/
def Done (source : σ) (own own' : τ) : Option ι → Prop
  | none => own' = own
  | some i => S.Does i source own own'

/-- What the others do. -/
inductive Others : State κ ι σ τ → State κ ι σ τ → Prop
  | move (s : State κ ι σ τ) (c : κ) (source : σ) (hopen : s.closed c = false)
      (hmoves : S.Moves c s.source source) :
      Others s { s with
        source := source
        unannounced := Function.update s.unannounced c (s.unannounced c + 1) }
  | announce (s : State κ ι σ τ) (c : κ) (hmoved : 0 < s.unannounced c) :
      Others s { s with
        version := Function.update s.version c (s.version c + 1)
        unannounced := Function.update s.unannounced c (s.unannounced c - 1) }
  | publish (s : State κ ι σ τ) (c : κ) (source : σ) (hopen : s.closed c = false)
      (hpublishes : S.Publishes c s.source source) :
      Others s { s with
        source := source
        version := Function.update s.version c (s.version c + 1) }
  | close (s : State κ ι σ τ) (c : κ) (hnone : s.unannounced c = 0) :
      Others s { s with closed := Function.update s.closed c true }

/-- What the task does. -/
inductive Own : State κ ι σ τ → State κ ι σ τ → Prop
  /-- `changed` has returned, and has marked the channel. -/
  | wake (s : State κ ι σ τ) (c : κ) (hidle : s.chores = []) (hwatching : s.watching c = true)
      (hunseen : s.seen c ≠ s.version c) :
      Own s { s with
        chores := S.work c
        seen := Function.update s.seen c (s.version c) }
  | chore (s : State κ ι σ τ) (chore : Chore κ ι) (chores : List (Chore κ ι)) (own : τ)
      (hnext : s.chores = chore :: chores) (hdone : S.Done s.source s.own own chore.part) :
      Own s { s with
        own := own
        chores := chores
        seen := mark s.seen s.version chore.marks }
  /-- `changed` has failed, and will not be asked again. -/
  | deafen (s : State κ ι σ τ) (c : κ) (hidle : s.chores = []) (hwatching : s.watching c = true)
      (hclosed : s.closed c = true) (hseen : s.seen c = s.version c) :
      Own s { s with watching := Function.update s.watching c false }

/-- One step of anybody. -/
def Step (s s' : State κ ι σ τ) : Prop := S.Others s s' ∨ S.Own s s'

/-! ## One step -/

variable {S}

/-- A move and its announcement. -/
theorem run_of_moves {s : State κ ι σ τ} {c : κ} {source : σ} (hopen : s.closed c = false)
    (hmoves : S.Moves c s.source source) : Relation.ReflTransGen S.Step s { s with
      source := source
      version := Function.update s.version c (s.version c + 1) } := by
  refine .tail (.single (.inl (.move s c source hopen hmoves))) (.inl ?_)
  have hannounce := Others.announce (S := S) { s with
    source := source
    unannounced := Function.update s.unannounced c (s.unannounced c + 1) } c (by
      dsimp only
      rw [Function.update_self]
      omega)
  dsimp only at hannounce
  rw [Function.update_self, Function.update_idem, Nat.add_sub_cancel,
    Function.update_eq_self] at hannounce
  exact hannounce

/-- Nothing is marked past its version, and a channel marked is one seen. -/
theorem mark_cases (seen version : κ → ℕ) (marks : Option κ) (c : κ) :
    (marks = some c ∧ mark seen version marks c = version c) ∨
      (marks ≠ some c ∧ mark seen version marks c = seen c) := by
  cases marks with
  | none => exact .inr ⟨(fun h => by cases h), rfl⟩
  | some c' =>
      unfold mark
      rcases eq_or_ne c c' with rfl | hc
      · exact .inl ⟨rfl, Function.update_self ..⟩
      · exact .inr ⟨fun h => hc (Option.some.inj h).symm, Function.update_of_ne hc ..⟩

theorem tidy_others {s s' : State κ ι σ τ} (h : Tidy s) (hstep : S.Others s s') : Tidy s' := by
  obtain ⟨hbehind, hclosed, hdeaf⟩ := h
  cases hstep with
  | move c source hopen hmoves =>
      refine ⟨hbehind, ?_, hdeaf⟩
      intro c' hclosed'
      dsimp only at hclosed' ⊢
      rcases eq_or_ne c' c with rfl | hc
      · rw [hopen] at hclosed'
        cases hclosed'
      · rw [Function.update_of_ne hc]
        exact hclosed c' hclosed'
  | announce c hmoved =>
      have hopen : ∀ c', s.closed c' = true → c' ≠ c := by
        intro c' hclosed' heq
        have := hclosed c' hclosed'
        rw [heq] at this
        omega
      refine ⟨?_, ?_, ?_⟩
      · intro c'
        dsimp only
        rcases eq_or_ne c' c with rfl | hc
        · rw [Function.update_self]
          have := hbehind c'
          omega
        · rw [Function.update_of_ne hc]
          exact hbehind c'
      · intro c' hclosed'
        dsimp only at hclosed' ⊢
        rw [Function.update_of_ne (hopen c' hclosed')]
        exact hclosed c' hclosed'
      · intro c' hdeaf'
        dsimp only at hdeaf' ⊢
        obtain ⟨hclosed', hseen⟩ := hdeaf c' hdeaf'
        rw [Function.update_of_ne (hopen c' hclosed')]
        exact ⟨hclosed', hseen⟩
  | publish c source hopen hpublishes =>
      refine ⟨?_, hclosed, ?_⟩
      · intro c'
        dsimp only
        rcases eq_or_ne c' c with rfl | hc
        · rw [Function.update_self]
          have := hbehind c'
          omega
        · rw [Function.update_of_ne hc]
          exact hbehind c'
      · intro c' hdeaf'
        dsimp only at hdeaf' ⊢
        obtain ⟨hclosed', hseen⟩ := hdeaf c' hdeaf'
        rcases eq_or_ne c' c with rfl | hc
        · rw [hopen] at hclosed'
          cases hclosed'
        · rw [Function.update_of_ne hc]
          exact ⟨hclosed', hseen⟩
  | close c hnone =>
      refine ⟨hbehind, ?_, ?_⟩
      · intro c' hclosed'
        dsimp only at hclosed' ⊢
        rcases eq_or_ne c' c with rfl | hc
        · exact hnone
        · rw [Function.update_of_ne hc] at hclosed'
          exact hclosed c' hclosed'
      · intro c' hdeaf'
        dsimp only at hdeaf' ⊢
        obtain ⟨hclosed', hseen⟩ := hdeaf c' hdeaf'
        refine ⟨?_, hseen⟩
        rcases eq_or_ne c' c with rfl | hc
        · rw [Function.update_self]
        · rw [Function.update_of_ne hc]
          exact hclosed'

theorem tidy_own {s s' : State κ ι σ τ} (h : Tidy s) (hstep : S.Own s s') : Tidy s' := by
  obtain ⟨hbehind, hclosed, hdeaf⟩ := h
  cases hstep with
  | wake c hidle hwatching hunseen =>
      refine ⟨?_, hclosed, ?_⟩
      · intro c'
        dsimp only
        rcases eq_or_ne c' c with rfl | hc
        · rw [Function.update_self]
        · rw [Function.update_of_ne hc]
          exact hbehind c'
      · intro c' hdeaf'
        dsimp only at hdeaf' ⊢
        rcases eq_or_ne c' c with rfl | hc
        · rw [hwatching] at hdeaf'
          cases hdeaf'
        · rw [Function.update_of_ne hc]
          exact hdeaf c' hdeaf'
  | chore chore chores own hnext hdone =>
      refine ⟨?_, hclosed, ?_⟩
      · intro c
        rcases mark_cases s.seen s.version chore.marks c with ⟨-, hseen⟩ | ⟨-, hseen⟩
        · exact hseen.le
        · exact hseen.trans_le (hbehind c)
      · intro c hdeaf'
        obtain ⟨hclosed', hseen'⟩ := hdeaf c hdeaf'
        rcases mark_cases s.seen s.version chore.marks c with ⟨-, hseen⟩ | ⟨-, hseen⟩
        · exact ⟨hclosed', hseen⟩
        · exact ⟨hclosed', hseen.trans hseen'⟩
  | deafen c hidle hwatching hclosed' hseen =>
      refine ⟨hbehind, hclosed, ?_⟩
      intro c' hdeaf'
      dsimp only at hdeaf' ⊢
      rcases eq_or_ne c' c with rfl | hc
      · exact ⟨hclosed', hseen⟩
      · rw [Function.update_of_ne hc] at hdeaf'
        exact hdeaf c' hdeaf'

theorem tidy_run {s s' : State κ ι σ τ} (h : Tidy s) (hrun : Relation.ReflTransGen S.Step s s') :
    Tidy s' := by
  induction hrun with
  | refl => exact h
  | tail _ hstep ih =>
      rcases hstep with hothers | hown
      · exact tidy_others ih hothers
      · exact tidy_own ih hown

/-- What the others do is owed, as far as it matters. -/
theorem inv_others (hS : S.Lawful) {s s' : State κ ι σ τ} (h : S.Inv s) (hstep : S.Others s s') :
    S.Inv s' := by
  refine ⟨tidy_others h.tidy hstep, ?_, ?_⟩
  · cases hstep <;> exact h.sound
  · obtain ⟨⟨hbehind, -, -⟩, -, hright⟩ := h
    intro i
    cases hstep with
    | move c source hopen hmoves =>
        by_cases habout : S.About c i
        · refine .inr (.inr ⟨c, habout, .inl ?_⟩)
          dsimp only
          rw [Function.update_self]
          omega
        · refine (hright i).imp (hS.moves c _ _ hmoves i habout _) fun howed => ?_
          refine owed_mono howed id fun c' huntold => ?_
          rcases eq_or_ne c' c with rfl | hc
          · refine .inl ?_
            dsimp only
            rw [Function.update_self]
            omega
          · exact untold_congr huntold (Function.update_of_ne hc ..) rfl rfl
    | announce c hmoved =>
        rcases hright i with hright | howed
        · exact .inl hright
        · refine .inr (owed_mono howed id fun c' huntold => ?_)
          rcases eq_or_ne c' c with rfl | hc
          · refine .inr ?_
            dsimp only
            rw [Function.update_self]
            have := hbehind c'
            omega
          · exact untold_congr huntold (Function.update_of_ne hc ..) (Function.update_of_ne hc ..)
              rfl
    | publish c source hopen hpublishes =>
        have hnew : s.seen c ≠ Function.update s.version c (s.version c + 1) c := by
          rw [Function.update_self]
          have := hbehind c
          omega
        by_cases habout : S.About c i
        · exact .inr (.inr ⟨c, habout, .inr hnew⟩)
        · refine (hright i).imp (hS.publishes c _ _ hpublishes i habout _) fun howed => ?_
          refine owed_mono howed id fun c' huntold => ?_
          rcases eq_or_ne c' c with rfl | hc
          · exact .inr hnew
          · exact untold_congr huntold rfl (Function.update_of_ne hc ..) rfl
    | close c hnone => exact hright i

/-- What the task does leaves nothing undone that it does not owe. -/
theorem inv_own (hS : S.Lawful) {s s' : State κ ι σ τ} (h : S.Inv s) (hstep : S.Own s s') :
    S.Inv s' := by
  refine ⟨tidy_own h.tidy hstep, ?_, ?_⟩
  · cases hstep with
    | wake c hidle hwatching hunseen => exact hS.sound c
    | chore chore chores own hnext hdone =>
        obtain ⟨-, hsound, -⟩ := h
        rw [hnext] at hsound
        exact hsound.2.2
    | deafen c hidle hwatching hclosed hseen => exact h.sound
  · obtain ⟨-, hsound, hright⟩ := h
    intro i
    cases hstep with
    | wake c hidle hwatching hunseen =>
        rcases hright i with hright | hcovers | ⟨c', habout, huntold⟩
        · exact .inl hright
        · rw [hidle] at hcovers
          obtain ⟨_, hmem, -⟩ := hcovers
          cases hmem
        · refine .inr ?_
          rcases eq_or_ne c' c with rfl | hc
          · exact .inl habout
          · exact .inr ⟨c', habout, untold_congr huntold rfl rfl (Function.update_of_ne hc ..)⟩
    | chore chore chores own hnext hdone =>
        rw [hnext] at hsound
        obtain ⟨hmarks, hspoils, -⟩ := hsound
        by_cases hpart : chore.part = some i
        · rw [hpart] at hdone
          exact .inl (hS.makes i _ _ _ hdone)
        · -- another part: it is right still, or a later chore or a channel is about it
          rcases hright i with hright | hcovers | ⟨c, habout, huntold⟩
          · cases hmade : chore.part with
            | none =>
                rw [hmade] at hdone
                obtain rfl := hdone
                exact .inl hright
            | some j =>
                rw [hmade] at hdone
                by_cases hspoilt : S.Spoils j i
                · exact .inr (.inl (hspoils j hmade i hspoilt))
                · exact .inl (hS.keeps j _ _ _ hdone i hspoilt hright)
          · rw [hnext, covers_cons] at hcovers
            exact .inr (.inl (hcovers.resolve_left hpart))
          · refine .inr ?_
            rcases mark_cases s.seen s.version chore.marks c with ⟨hmark, -⟩ | ⟨-, hseen⟩
            · exact .inl ((hmarks c hmark i habout).resolve_left hpart)
            · exact .inr ⟨c, habout, untold_congr huntold rfl rfl hseen⟩
    | deafen c hidle hwatching hclosed hseen => exact hright i

theorem inv_step (hS : S.Lawful) {s s' : State κ ι σ τ} (h : S.Inv s) (hstep : S.Step s s') :
    S.Inv s' := by
  rcases hstep with hothers | hown
  · exact inv_others hS h hothers
  · exact inv_own hS h hown

/-- **The invariant rule** of a task that keeps up. -/
theorem inv_run (hS : S.Lawful) {s s' : State κ ι σ τ} (h : S.Inv s)
    (hrun : Relation.ReflTransGen S.Step s s') : S.Inv s' := by
  induction hrun with
  | refl => exact h
  | tail _ hstep ih => exact inv_step hS ih hstep

/-- A step on which the task does not wake up. -/
def Asleep (S : Scheme κ ι σ τ) (s s' : State κ ι σ τ) : Prop :=
  S.Step s s' ∧ ¬ (s.chores = [] ∧ s'.chores ≠ [])

/-- However a task was started, from the first time it wakes up to everything it keeps up. -/
theorem asleep_or_inv (hS : S.Lawful) (hall : ∀ c i, S.About c i) {s s' : State κ ι σ τ}
    (h : Tidy s) (hrun : Relation.ReflTransGen S.Step s s') :
    Relation.ReflTransGen (Asleep S) s s' ∨ S.Inv s' := by
  induction hrun with
  | refl => exact .inl .refl
  | @tail t t' hrun hstep ih =>
      rcases ih with hasleep | hinv
      · by_cases hwakes : t.chores = [] ∧ t'.chores ≠ []
        · refine .inr ?_
          have htidy : Tidy t' := tidy_run h (hrun.tail hstep)
          obtain ⟨hidle, hbusy⟩ := hwakes
          rcases hstep with hothers | hown
          · cases hothers <;> exact absurd hidle hbusy
          · cases hown with
            | wake c => exact inv_of_covers htidy (hS.sound c) (hall c)
            | chore chore chores own hnext =>
                rw [hidle] at hnext
                cases hnext
            | deafen => exact absurd hidle hbusy
        · exact .inl (hasleep.tail ⟨hstep, hwakes⟩)
      · exact .inr (inv_step hS hinv hstep)

/-! ## Left alone -/

/-- What a task does of its own, step after step. -/
inductive Steps (S : Scheme κ ι σ τ) : ℕ → State κ ι σ τ → State κ ι σ τ → Prop
  | refl (s : State κ ι σ τ) : Steps S 0 s s
  | tail {n : ℕ} {s s' s'' : State κ ι σ τ} (hrun : Steps S n s s') (hstep : S.Own s' s'') :
      Steps S (n + 1) s s''

/-- No list the task is ever on is longer than those it takes up. -/
theorem length_chores {n : ℕ} (hwork : ∀ c, (S.work c).length ≤ n) {s s' : State κ ι σ τ}
    (h : s.chores.length ≤ n) (hrun : Relation.ReflTransGen S.Step s s') :
    s'.chores.length ≤ n := by
  induction hrun with
  | refl => exact h
  | tail _ hstep ih =>
      rcases hstep with hothers | hown
      · cases hothers <;> exact ih
      · cases hown with
        | wake c => exact hwork c
        | chore chore chores own hnext =>
            rw [hnext, List.length_cons] at ih
            exact (Nat.le_succ _).trans ih
        | deafen => exact ih

theorem sum_drop [Fintype κ] {f g : κ → ℕ} (hle : ∀ c, f c ≤ g c) (c : κ) {n : ℕ}
    (h : f c + n ≤ g c) : ∑ c, f c + n ≤ ∑ c, g c := by
  have hf := Finset.sum_erase_add Finset.univ f (Finset.mem_univ c)
  have hg := Finset.sum_erase_add Finset.univ g (Finset.mem_univ c)
  have hrest : ∑ c' ∈ Finset.univ.erase c, f c' ≤ ∑ c' ∈ Finset.univ.erase c, g c' :=
    Finset.sum_le_sum fun c' _ => hle c'
  omega

/-- Every step of the task's own is one it had before it. -/
theorem weight_own [Fintype κ] {s s' : State κ ι σ τ} (hstep : S.Own s s') :
    weight S s' + 1 ≤ weight S s := by
  cases hstep with
  | wake c hidle hwatching hunseen =>
      have hdrop := sum_drop (f := due S { s with
        chores := S.work c
        seen := Function.update s.seen c (s.version c) }) (g := due S s) ?_ c
        (n := (S.work c).length + 1) ?_
      · unfold weight
        rw [hidle, List.length_nil]
        dsimp only
        omega
      · intro c'
        unfold due
        dsimp only
        rcases eq_or_ne c' c with rfl | hc
        · rw [Function.update_self, wakeDue_self]
          omega
        · rw [Function.update_of_ne hc]
      · unfold due
        dsimp only
        rw [Function.update_self, wakeDue_self, wakeDue_of_ne hunseen]
        omega
  | chore chore chores own hnext hdone =>
      have hle : ∀ c, due S { s with
          own := own
          chores := chores
          seen := mark s.seen s.version chore.marks } c ≤ due S s c := by
        intro c
        unfold due
        dsimp only
        rcases mark_cases s.seen s.version chore.marks c with ⟨-, hseen⟩ | ⟨-, hseen⟩
        · rw [hseen, wakeDue_self]
          omega
        · rw [hseen]
      have hsum := Finset.sum_le_sum fun c (_ : c ∈ Finset.univ) => hle c
      unfold weight
      rw [hnext, List.length_cons]
      dsimp only
      omega
  | deafen c hidle hwatching hclosed hseen =>
      have hdrop := sum_drop (f := due S { s with
        watching := Function.update s.watching c false }) (g := due S s) ?_ c (n := 1) ?_
      · unfold weight
        dsimp only
        omega
      · intro c'
        unfold due
        dsimp only
        rcases eq_or_ne c' c with rfl | hc
        · rw [Function.update_self]
          exact Nat.le_add_right ..
        · rw [Function.update_of_ne hc]
      · unfold due
        dsimp only
        rw [Function.update_self, hwatching]
        exact le_rfl

/-- **It comes to an end**, after no more steps than it had before it. -/
theorem length_le_weight [Fintype κ] {n : ℕ} {s s' : State κ ι σ τ} (hrun : Steps S n s s') :
    n + weight S s' ≤ weight S s := by
  induction hrun with
  | refl => omega
  | tail _ hstep ih =>
      have := weight_own hstep
      omega

/-- A run of the task's own goes on until there is nothing for it to do. -/
theorem exists_stuck [Fintype κ] (s : State κ ι σ τ) :
    ∃ n s', Steps S n s s' ∧ ∀ s'', ¬ S.Own s' s'' := by
  by_contra hnever
  have hlong : ∀ n, ∃ s', Steps S n s s' := by
    intro n
    induction n with
    | zero => exact ⟨s, .refl s⟩
    | succ n ih =>
        obtain ⟨s', hrun⟩ := ih
        by_contra hstuck
        exact hnever ⟨n, s', hrun, fun s'' hstep => hstuck ⟨s'', hrun.tail hstep⟩⟩
  obtain ⟨s', hrun⟩ := hlong (weight S s + 1)
  have := length_le_weight hrun
  omega

/-- The task moves nothing but what is its own. -/
theorem source_steps {n : ℕ} {s s' : State κ ι σ τ} (hrun : Steps S n s s') :
    s'.source = s.source ∧ s'.version = s.version ∧ s'.unannounced = s.unannounced := by
  induction hrun with
  | refl => exact ⟨rfl, rfl, rfl⟩
  | tail _ hstep ih => cases hstep <;> exact ih

theorem run_of_steps {n : ℕ} {s s' : State κ ι σ τ} (hsteps : Steps S n s s') :
    Relation.ReflTransGen S.Step s s' := by
  induction hsteps with
  | refl => exact .refl
  | tail _ hstep ih => exact ih.tail (.inr hstep)

theorem inv_steps (hS : S.Lawful) {n : ℕ} {s s' : State κ ι σ τ} (h : S.Inv s)
    (hrun : Steps S n s s') : S.Inv s' := by
  induction hrun with
  | refl => exact h
  | tail _ hstep ih => exact inv_own hS (ih h) hstep

/-- A task that has nothing to do has done everything, and has been told everything that was
announced. -/
theorem rest_of_stuck (hable : ∀ i s t, ∃ t', S.Does i s t t') {s : State κ ι σ τ} (h : Tidy s)
    (hstuck : ∀ s', ¬ S.Own s s') : s.chores = [] ∧ ∀ c, s.seen c = s.version c := by
  have hidle : s.chores = [] := by
    cases hchores : s.chores with
    | nil => rfl
    | cons chore chores =>
        exfalso
        cases hpart : chore.part with
        | none =>
            refine hstuck _ (.chore s chore chores s.own hchores ?_)
            rw [hpart]
            rfl
        | some i =>
            obtain ⟨own, hdoes⟩ := hable i s.source s.own
            refine hstuck _ (.chore s chore chores own hchores ?_)
            rw [hpart]
            exact hdoes
  refine ⟨hidle, fun c => ?_⟩
  by_contra hunseen
  cases hwatching : s.watching c with
  | true => exact hstuck _ (.wake s c hidle hwatching hunseen)
  | false => exact hunseen (h.deaf c hwatching).2

/-- With no chore left, every channel seen and none closed, there is nothing to do. -/
theorem stuck_of_rest {s : State κ ι σ τ} (hidle : s.chores = [])
    (hseen : ∀ c, s.seen c = s.version c) (hopened : ∀ c, s.closed c = false) (s' : State κ ι σ τ) :
    ¬ S.Own s s' := by
  intro hown
  cases hown with
  | wake c _ _ hunseen => exact hunseen (hseen c)
  | chore chore chores own hnext =>
      rw [hidle] at hnext
      cases hnext
  | deafen c _ _ hclosed =>
      rw [hopened c] at hclosed
      cases hclosed

/-- **It catches up.** Once the others are done, the task has no more than its weight in steps
before it, and when it has taken them all is right with the source as they left it. -/
theorem catches_up [Fintype κ] (hS : S.Lawful) (hable : ∀ i s t, ∃ t', S.Does i s t t')
    {s : State κ ι σ τ} (h : S.Inv s) (hannounced : ∀ c, s.unannounced c = 0) :
    (∃ n s', Steps S n s s' ∧ ∀ s'', ¬ S.Own s' s'') ∧
      ∀ n s', Steps S n s s' → n ≤ weight S s ∧
        ((∀ s'', ¬ S.Own s' s'') → ∀ i, S.Right i s.source s'.own) := by
  refine ⟨exists_stuck s, ?_⟩
  intro n s' hrun
  refine ⟨?_, ?_⟩
  · have := length_le_weight hrun
    omega
  · intro hstuck i
    have hinv := inv_steps hS h hrun
    obtain ⟨hidle, hseen⟩ := rest_of_stuck hable hinv.tidy hstuck
    obtain ⟨hsource, -, hmoved⟩ := source_steps hrun
    rw [← hsource]
    refine right_of_rest hinv hidle hseen (fun c => ?_) i
    rw [hmoved]
    exact hannounced c

end Scheme
end Watch
