import Mathlib.Data.List.Nodup
import Mathlib.Data.List.Sublists

/-!
# Lanes of items

A board is a family of FIFO lanes. An item enters a lane once, waits in its queue,
is taken off the front to be worked on, and then either is done or goes back to the
front to be tried again. The board remembers every item that ever entered a lane,
in the order they entered.

Three facts are kept by every move.

* **Conservation** (`WF`): an item is in a queue exactly when it is waiting, in one
  lane and once, and every item is in its lane's history once.
* **Fresh items keep their order** (`FreshTail`): the items never taken form a tail
  of the queue in the order they entered. What is in front of them is being retried.
* **Work in order** (`OrderedAt`), for a lane whose head is only taken while nothing
  of that lane is being worked on: then the item taken is the oldest one not done.
-/

namespace Lanes

/-- Where an item has got to. -/
inductive Phase
  | queued | busy | done
deriving DecidableEq

/-- An item of lane `lane`, taken `tries` times so far. -/
structure Item (L : Type*) where
  lane : L
  phase : Phase
  tries : Nat

/-- The lanes, everything that ever entered them, and what is known of each item. -/
structure Board (L I : Type*) where
  queue : L → List I
  history : L → List I
  item : I → Option (Item L)

variable {L I : Type*}

namespace Board

/-- `i` is an item of lane `l`. -/
def In (b : Board L I) (l : L) (i : I) : Prop := ∃ it, b.item i = some it ∧ it.lane = l

/-- Item `i` of lane `l` is in phase `p`. -/
def At (b : Board L I) (p : Phase) (l : L) (i : I) : Prop :=
  ∃ it, b.item i = some it ∧ it.lane = l ∧ it.phase = p

/-- How often `i` has been taken. -/
def tries (b : Board L I) (i : I) : Nat := ((b.item i).map Item.tries).getD 0

theorem in_iff {b : Board L I} {l : L} {i : I} {it : Item L} (h : b.item i = some it) :
    b.In l i ↔ it.lane = l := by
  simp [In, h]

theorem at_iff {b : Board L I} {p : Phase} {l : L} {i : I} {it : Item L}
    (h : b.item i = some it) : b.At p l i ↔ it.lane = l ∧ it.phase = p := by
  simp [At, h]

theorem tries_eq {b : Board L I} {i : I} {it : Item L} (h : b.item i = some it) :
    b.tries i = it.tries := by
  simp [tries, h]

theorem in_congr {b b' : Board L I} {l : L} {i : I} (h : b'.item i = b.item i) :
    b'.In l i ↔ b.In l i := by
  simp [In, h]

theorem at_congr {b b' : Board L I} {p : Phase} {l : L} {i : I} (h : b'.item i = b.item i) :
    b'.At p l i ↔ b.At p l i := by
  simp [At, h]

theorem tries_congr {b b' : Board L I} {i : I} (h : b'.item i = b.item i) :
    b'.tries i = b.tries i := by
  simp [tries, h]

theorem At.in_lane {b : Board L I} {p : Phase} {l : L} {i : I} (h : b.At p l i) : b.In l i := by
  obtain ⟨it, hit, hl, _⟩ := h
  exact ⟨it, hit, hl⟩

end Board

/-! ## Moves -/

/-- What `xs` adds to lane `l`, in order. -/
def onLane [DecidableEq L] (xs : List (L × I)) (l : L) : List I :=
  (xs.filter (fun x => decide (x.1 = l))).map Prod.snd

theorem mem_onLane [DecidableEq L] {xs : List (L × I)} {l : L} {i : I} :
    i ∈ onLane xs l ↔ (l, i) ∈ xs := by
  simp [onLane]

theorem onLane_sublist [DecidableEq L] (xs : List (L × I)) (l : L) :
    (onLane xs l).Sublist (xs.map Prod.snd) := List.filter_sublist.map _

/-- New items enter at the back. -/
structure Enqueues [DecidableEq L] (xs : List (L × I)) (b b' : Board L I) : Prop where
  fresh : ∀ x ∈ xs, b.item x.2 = none
  nodup : (xs.map Prod.snd).Nodup
  queue : ∀ l, b'.queue l = b.queue l ++ onLane xs l
  history : ∀ l, b'.history l = b.history l ++ onLane xs l
  item_new : ∀ x ∈ xs, b'.item x.2 = some ⟨x.1, .queued, 0⟩
  item_old : ∀ i, i ∉ xs.map Prod.snd → b'.item i = b.item i

/-- The head of every lane in `p` is taken to be worked on, all at once. -/
structure Takes (p : L → Prop) (b b' : Board L I) : Prop where
  head : ∀ l, p l → ∃ i, b.queue l = i :: b'.queue l ∧
    ∀ it, b.item i = some it → b'.item i = some { it with phase := .busy, tries := it.tries + 1 }
  queue : ∀ l, ¬ p l → b'.queue l = b.queue l
  history : ∀ l, b'.history l = b.history l
  item : ∀ i, (∀ l, p l → (b.queue l).head? ≠ some i) → b'.item i = b.item i

/-- The waiting items in `p` are given up, wherever they stand. -/
structure Drops (p : I → Prop) (b b' : Board L I) : Prop where
  sub : ∀ l, (b'.queue l).Sublist (b.queue l)
  kept : ∀ l i, i ∈ b.queue l → (i ∈ b'.queue l ↔ ¬ p i)
  history : ∀ l, b'.history l = b.history l
  item_drop : ∀ i it, b.item i = some it → it.phase = .queued → p i →
    b'.item i = some { it with phase := .done }
  item : ∀ i, (∀ it, b.item i = some it → it.phase = .queued → ¬ p i) → b'.item i = b.item i

/-- The item being worked on is done. -/
structure Finishes (i : I) (b b' : Board L I) : Prop where
  was : ∃ it, b.item i = some it ∧ it.phase = .busy ∧ b'.item i = some { it with phase := .done }
  queue : ∀ l, b'.queue l = b.queue l
  history : ∀ l, b'.history l = b.history l
  item : ∀ j, j ≠ i → b'.item j = b.item j

/-- The item being worked on goes back to the front of its lane. -/
structure Requeues (i : I) (b b' : Board L I) : Prop where
  was : ∃ it, b.item i = some it ∧ it.phase = .busy ∧
    b'.item i = some { it with phase := .queued } ∧
    b'.queue it.lane = i :: b.queue it.lane ∧ ∀ l, l ≠ it.lane → b'.queue l = b.queue l
  history : ∀ l, b'.history l = b.history l
  item : ∀ j, j ≠ i → b'.item j = b.item j

/-- One move of the board; `taken` holds of the lanes whose head it takes. -/
inductive Move [DecidableEq L] (b b' : Board L I) : (L → Prop) → Prop
  | stay : b' = b → Move b b' (fun _ => False)
  | enqueue {xs : List (L × I)} : Enqueues xs b b' → Move b b' (fun _ => False)
  | take {taken : L → Prop} : Takes taken b b' → Move b b' taken
  | drop {p : I → Prop} : Drops p b b' → Move b b' (fun _ => False)
  | finish {i : I} : Finishes i b b' → Move b b' (fun _ => False)
  | requeue {i : I} : Requeues i b b' → Move b b' (fun _ => False)

/-! ## Conservation -/

/-- Every item is in exactly the queue its phase calls for. -/
structure WF (b : Board L I) : Prop where
  /-- An item is queued exactly when it waits, and in its own lane. -/
  queue_iff : ∀ l i, i ∈ b.queue l ↔ b.At .queued l i
  /-- A lane's history lists exactly the items of that lane. -/
  history_iff : ∀ l i, i ∈ b.history l ↔ b.In l i
  queue_nodup : ∀ l, (b.queue l).Nodup
  history_nodup : ∀ l, (b.history l).Nodup
  /-- What is being worked on has been taken. -/
  busy_tried : ∀ i it, b.item i = some it → it.phase = .busy → 0 < it.tries

section Conservation

variable {b b' : Board L I} {taken : L → Prop}

theorem WF.lane_unique (h : WF b) {l m : L} {i : I}
    (hl : i ∈ b.queue l) (hm : i ∈ b.queue m) : l = m := by
  obtain ⟨it, hit, rfl, _⟩ := (h.queue_iff l i).mp hl
  exact ((Board.at_iff hit).mp ((h.queue_iff m i).mp hm)).1

theorem WF.mem_history_of_queue (h : WF b) {l : L} {i : I}
    (hi : i ∈ b.queue l) : i ∈ b.history l :=
  (h.history_iff l i).mpr ((h.queue_iff l i).mp hi).in_lane

/-- What is being worked on is in no queue. -/
theorem WF.not_queued_of_busy (h : WF b) {l : L} {i : I} (hbusy : b.At .busy l i) (m : L) :
    i ∉ b.queue m := by
  intro hi
  obtain ⟨it, hit, _, hphase⟩ := hbusy
  have hq := ((Board.at_iff hit).mp ((h.queue_iff m i).mp hi)).2
  rw [hphase] at hq
  exact Phase.noConfusion hq

/-- An item is either the head a move takes, or untouched by it. -/
theorem Takes.cases (h : WF b) (hm : Takes taken b b') (i : I) :
    (∃ l it, taken l ∧ b.queue l = i :: b'.queue l ∧ b.item i = some it ∧ it.lane = l
        ∧ it.phase = .queued ∧ b'.item i = some { it with phase := .busy, tries := it.tries + 1 })
      ∨ (b'.item i = b.item i ∧ ∀ l, taken l → (b.queue l).head? ≠ some i) := by
  by_cases hi : ∃ l, taken l ∧ (b.queue l).head? = some i
  · left
    obtain ⟨l, hl, hhead⟩ := hi
    obtain ⟨j, hq, hj⟩ := hm.head l hl
    rw [hq] at hhead
    obtain rfl := Option.some.inj hhead
    obtain ⟨it, hit, hlane, hphase⟩ := (h.queue_iff l j).mp (by rw [hq]; exact List.mem_cons_self ..)
    exact ⟨l, it, hl, hq, hit, hlane, hphase, hj it hit⟩
  · right
    have hno : ∀ l, taken l → (b.queue l).head? ≠ some i := fun l hl hh => hi ⟨l, hl, hh⟩
    exact ⟨hm.item i hno, hno⟩

theorem Takes.sub (hm : Takes taken b b') (l : L) : (b'.queue l).Sublist (b.queue l) := by
  by_cases hl : taken l
  · obtain ⟨i, hq, _⟩ := hm.head l hl
    rw [hq]; exact List.sublist_cons_self ..
  · rw [hm.queue l hl]

theorem wf_takes (h : WF b) (hm : Takes taken b b') : WF b' := by
  refine ⟨?_, ?_, ?_, ?_, ?_⟩
  · intro l i
    rcases hm.cases h i with ⟨m, it, _, hq, _, _, _, hit'⟩ | ⟨heq, hno⟩
    · rw [Board.at_iff hit']
      refine ⟨?_, ?_⟩
      · intro hi
        exfalso
        have hlm : l = m :=
          h.lane_unique ((hm.sub l).subset hi) (by rw [hq]; exact List.mem_cons_self ..)
        subst hlm
        have hnd := h.queue_nodup l
        rw [hq] at hnd
        exact (List.nodup_cons.mp hnd).1 hi
      · intro hc; exact Phase.noConfusion hc.2
    · rw [Board.at_congr heq, ← h.queue_iff]
      by_cases hl : taken l
      · obtain ⟨j, hq, _⟩ := hm.head l hl
        have hne : i ≠ j := fun hij => hno l hl (by rw [hq, hij]; rfl)
        rw [hq, List.mem_cons]
        exact ⟨Or.inr, fun hc => hc.resolve_left hne⟩
      · rw [hm.queue l hl]
  · intro l i
    rw [hm.history, h.history_iff]
    rcases hm.cases h i with ⟨m, it, _, _, hit, _, _, hit'⟩ | ⟨heq, _⟩
    · rw [Board.in_iff hit, Board.in_iff hit']
    · rw [Board.in_congr heq]
  · exact fun l => (h.queue_nodup l).sublist (hm.sub l)
  · intro l; rw [hm.history]; exact h.history_nodup l
  · intro i it hit hbusy
    rcases hm.cases h i with ⟨m, it', _, _, _, _, _, hit'⟩ | ⟨heq, _⟩
    · rw [hit'] at hit
      obtain rfl := Option.some.inj hit
      exact Nat.succ_pos _
    · rw [heq] at hit
      exact h.busy_tried i it hit hbusy

/-- An item is either given up by a move, or untouched by it. -/
theorem Drops.cases {p : I → Prop} (hm : Drops p b b') (i : I) :
    (∃ it, b.item i = some it ∧ it.phase = .queued ∧ p i
        ∧ b'.item i = some { it with phase := .done })
      ∨ (b'.item i = b.item i ∧ ∀ it, b.item i = some it → it.phase = .queued → ¬ p i) := by
  by_cases hi : ∃ it, b.item i = some it ∧ it.phase = .queued ∧ p i
  · obtain ⟨it, hit, hq, hp⟩ := hi
    exact Or.inl ⟨it, hit, hq, hp, hm.item_drop i it hit hq hp⟩
  · have hno : ∀ it, b.item i = some it → it.phase = .queued → ¬ p i :=
      fun it hit hq hp => hi ⟨it, hit, hq, hp⟩
    exact Or.inr ⟨hm.item i hno, hno⟩

theorem wf_drops {p : I → Prop} (h : WF b) (hm : Drops p b b') : WF b' := by
  refine ⟨?_, ?_, ?_, ?_, ?_⟩
  · intro l i
    rcases hm.cases i with ⟨it, _, _, hp, hit'⟩ | ⟨heq, hno⟩
    · rw [Board.at_iff hit']
      refine ⟨?_, ?_⟩
      · intro hi
        exact absurd hp ((hm.kept l i ((hm.sub l).subset hi)).mp hi)
      · intro hc; exact Phase.noConfusion hc.2
    · rw [Board.at_congr heq, ← h.queue_iff]
      refine ⟨?_, ?_⟩
      · intro hi; exact (hm.sub l).subset hi
      · intro hi
        obtain ⟨it, hit, _, hphase⟩ := (h.queue_iff l i).mp hi
        exact (hm.kept l i hi).mpr (hno it hit hphase)
  · intro l i
    rw [hm.history, h.history_iff]
    rcases hm.cases i with ⟨it, hit, _, _, hit'⟩ | ⟨heq, _⟩
    · rw [Board.in_iff hit, Board.in_iff hit']
    · rw [Board.in_congr heq]
  · exact fun l => (h.queue_nodup l).sublist (hm.sub l)
  · intro l; rw [hm.history]; exact h.history_nodup l
  · intro i it hit hbusy
    rcases hm.cases i with ⟨it', _, _, _, hit'⟩ | ⟨heq, _⟩
    · rw [hit'] at hit
      obtain rfl := Option.some.inj hit
      exact Phase.noConfusion hbusy
    · rw [heq] at hit
      exact h.busy_tried i it hit hbusy

theorem wf_finishes {i : I} (h : WF b) (hm : Finishes i b b') : WF b' := by
  obtain ⟨it, hit, hbusy, hit'⟩ := hm.was
  refine ⟨?_, ?_, ?_, ?_, ?_⟩
  · intro l j
    rw [hm.queue, h.queue_iff]
    by_cases hj : j = i
    · subst hj
      rw [Board.at_iff hit, Board.at_iff hit', hbusy]
      exact ⟨fun hc => Phase.noConfusion hc.2, fun hc => Phase.noConfusion hc.2⟩
    · rw [Board.at_congr (hm.item j hj)]
  · intro l j
    rw [hm.history, h.history_iff]
    by_cases hj : j = i
    · subst hj; rw [Board.in_iff hit, Board.in_iff hit']
    · rw [Board.in_congr (hm.item j hj)]
  · intro l; rw [hm.queue]; exact h.queue_nodup l
  · intro l; rw [hm.history]; exact h.history_nodup l
  · intro j jt hj hb
    by_cases hji : j = i
    · subst hji
      rw [hit'] at hj
      obtain rfl := Option.some.inj hj
      exact Phase.noConfusion hb
    · rw [hm.item j hji] at hj
      exact h.busy_tried j jt hj hb

theorem wf_requeues {i : I} (h : WF b) (hm : Requeues i b b') : WF b' := by
  obtain ⟨it, hit, hbusy, hit', hq, hqs⟩ := hm.was
  have hnot := h.not_queued_of_busy ((Board.at_iff hit).mpr ⟨rfl, hbusy⟩)
  refine ⟨?_, ?_, ?_, ?_, ?_⟩
  · intro l j
    by_cases hj : j = i
    · subst hj
      rw [Board.at_iff hit']
      refine ⟨?_, ?_⟩
      · intro hmem
        refine ⟨?_, rfl⟩
        by_contra hl
        rw [hqs l (fun e => hl e.symm)] at hmem
        exact hnot l hmem
      · intro h'
        obtain ⟨rfl, _⟩ := h'
        show j ∈ b'.queue it.lane
        rw [hq]
        exact List.mem_cons_self ..
    · rw [Board.at_congr (hm.item j hj), ← h.queue_iff]
      by_cases hl : l = it.lane
      · subst hl
        rw [hq, List.mem_cons]
        exact ⟨fun hc => hc.resolve_left hj, Or.inr⟩
      · rw [hqs l hl]
  · intro l j
    rw [hm.history, h.history_iff]
    by_cases hj : j = i
    · subst hj; rw [Board.in_iff hit, Board.in_iff hit']
    · rw [Board.in_congr (hm.item j hj)]
  · intro l
    by_cases hl : l = it.lane
    · subst hl
      rw [hq]
      exact List.nodup_cons.mpr ⟨hnot _, h.queue_nodup _⟩
    · rw [hqs l hl]; exact h.queue_nodup l
  · intro l; rw [hm.history]; exact h.history_nodup l
  · intro j jt hj hb
    by_cases hji : j = i
    · subst hji
      rw [hit'] at hj
      obtain rfl := Option.some.inj hj
      exact Phase.noConfusion hb
    · rw [hm.item j hji] at hj
      exact h.busy_tried j jt hj hb

variable [DecidableEq L] {xs : List (L × I)}

/-- An item is either one that enters, or untouched. -/
theorem Enqueues.cases (hm : Enqueues xs b b') (i : I) :
    (∃ l, (l, i) ∈ xs ∧ b.item i = none ∧ b'.item i = some ⟨l, .queued, 0⟩)
      ∨ (b'.item i = b.item i ∧ ∀ l, (l, i) ∉ xs) := by
  by_cases hi : i ∈ xs.map Prod.snd
  · obtain ⟨⟨l, j⟩, hx, rfl⟩ := List.mem_map.mp hi
    exact Or.inl ⟨l, hx, hm.fresh _ hx, hm.item_new _ hx⟩
  · exact Or.inr ⟨hm.item_old i hi, fun l hx => hi (List.mem_map.mpr ⟨(l, i), hx, rfl⟩)⟩

/-- The lane of an item that enters is the one it is listed with. -/
theorem Enqueues.mem_iff (hm : Enqueues xs b b') {l m : L} {i : I} (hx : (m, i) ∈ xs) :
    (l, i) ∈ xs ↔ m = l := by
  refine ⟨?_, ?_⟩
  · intro hl
    have h1 := hm.item_new _ hx
    have h2 := hm.item_new _ hl
    rw [h1] at h2
    exact congrArg Item.lane (Option.some.inj h2)
  · intro h
    subst h
    exact hx

theorem wf_enqueues (h : WF b) (hm : Enqueues xs b b') : WF b' := by
  have hno : ∀ l i, b.item i = none → i ∉ b.history l := by
    intro l i hi hmem
    obtain ⟨it, hit, _⟩ := (h.history_iff l i).mp hmem
    rw [hi] at hit
    cases hit
  have hsplit : ∀ l, ∀ i ∈ b.history l, i ∉ onLane xs l := fun l i hi hx =>
    hno l i (hm.fresh _ (mem_onLane.mp hx)) hi
  have hnodup : ∀ l, (onLane xs l).Nodup := fun l => hm.nodup.sublist (onLane_sublist xs l)
  refine ⟨?_, ?_, ?_, ?_, ?_⟩
  · intro l i
    rw [hm.queue, List.mem_append, mem_onLane]
    rcases hm.cases i with ⟨m, hx, hnone, hnew⟩ | ⟨heq, hout⟩
    · rw [Board.at_iff hnew, hm.mem_iff hx]
      refine ⟨?_, ?_⟩
      · intro h'
        rcases h' with hi | hl
        · exact absurd (h.mem_history_of_queue hi) (hno l i hnone)
        · exact ⟨hl, rfl⟩
      · intro hc; exact Or.inr hc.1
    · rw [Board.at_congr heq, ← h.queue_iff]
      exact ⟨fun hc => hc.resolve_right (hout l), Or.inl⟩
  · intro l i
    rw [hm.history, List.mem_append, mem_onLane]
    rcases hm.cases i with ⟨m, hx, hnone, hnew⟩ | ⟨heq, hout⟩
    · rw [Board.in_iff hnew, hm.mem_iff hx]
      exact ⟨fun hc => hc.resolve_left (hno l i hnone), Or.inr⟩
    · rw [Board.in_congr heq, ← h.history_iff]
      exact ⟨fun hc => hc.resolve_right (hout l), Or.inl⟩
  · intro l
    rw [hm.queue, List.nodup_append']
    exact ⟨h.queue_nodup l, hnodup l, fun i hi hx => hsplit l i (h.mem_history_of_queue hi) hx⟩
  · intro l
    rw [hm.history, List.nodup_append']
    exact ⟨h.history_nodup l, hnodup l, fun i hi hx => hsplit l i hi hx⟩
  · intro i it hit hbusy
    rcases hm.cases i with ⟨m, _, _, hnew⟩ | ⟨heq, _⟩
    · rw [hnew] at hit
      obtain rfl := Option.some.inj hit
      exact Phase.noConfusion hbusy
    · rw [heq] at hit
      exact h.busy_tried i it hit hbusy

/-- **Every move keeps the items conserved.** -/
theorem wf_move (h : WF b) (hm : Move b b' taken) : WF b' := by
  cases hm with
  | stay heq => rw [heq]; exact h
  | enqueue hm => exact wf_enqueues h hm
  | take hm => exact wf_takes h hm
  | drop hm => exact wf_drops h hm
  | finish hm => exact wf_finishes h hm
  | requeue hm => exact wf_requeues h hm

end Conservation

/-! ## What becomes busy -/

section Busy

variable {b b' : Board L I} {taken : L → Prop} {l : L}

/-- Only a taken head becomes busy. -/
theorem Move.taken_of_busy [DecidableEq L] (h : WF b) (hm : Move b b' taken) {i : I}
    (hno : ¬ b.At .busy l i) (hbusy : b'.At .busy l i) :
    taken l ∧ b.queue l = i :: b'.queue l ∧ b.At .queued l i := by
  cases hm with
  | stay heq => rw [heq] at hbusy; exact absurd hbusy hno
  | enqueue hm =>
      rcases hm.cases i with ⟨m, _, _, hnew⟩ | ⟨heq, _⟩
      · exact Phase.noConfusion ((Board.at_iff hnew).mp hbusy).2
      · exact absurd ((Board.at_congr heq).mp hbusy) hno
  | take hm =>
      rcases hm.cases h i with ⟨m, it, htaken, hq, hit, hlane, hphase, hit'⟩ | ⟨heq, _⟩
      · have hl : it.lane = l := ((Board.at_iff hit').mp hbusy).1
        obtain rfl : m = l := hlane.symm.trans hl
        exact ⟨htaken, hq, (Board.at_iff hit).mpr ⟨hlane, hphase⟩⟩
      · exact absurd ((Board.at_congr heq).mp hbusy) hno
  | drop hm =>
      rcases hm.cases i with ⟨it, _, _, _, hit'⟩ | ⟨heq, _⟩
      · exact Phase.noConfusion ((Board.at_iff hit').mp hbusy).2
      · exact absurd ((Board.at_congr heq).mp hbusy) hno
  | @finish k hm =>
      obtain ⟨it, _, _, hit'⟩ := hm.was
      by_cases hik : i = k
      · subst hik
        exact Phase.noConfusion ((Board.at_iff hit').mp hbusy).2
      · exact absurd ((Board.at_congr (hm.item i hik)).mp hbusy) hno
  | @requeue k hm =>
      obtain ⟨it, _, _, hit', _⟩ := hm.was
      by_cases hik : i = k
      · subst hik
        exact Phase.noConfusion ((Board.at_iff hit').mp hbusy).2
      · exact absurd ((Board.at_congr (hm.item i hik)).mp hbusy) hno

/-- Taking a lane's head makes it busy, and disturbs nothing that was. -/
theorem Takes.busy (h : WF b) (hm : Takes taken b b') (hl : taken l) :
    ∃ i, b.queue l = i :: b'.queue l ∧ b.At .queued l i ∧ b'.At .busy l i ∧
      ∀ j, b.At .busy l j → b'.At .busy l j := by
  obtain ⟨i, hq, hit⟩ := hm.head l hl
  have hin : i ∈ b.queue l := by rw [hq]; exact List.mem_cons_self ..
  obtain ⟨it, hit₀, hlane, hphase⟩ := (h.queue_iff l i).mp hin
  refine ⟨i, hq, (Board.at_iff hit₀).mpr ⟨hlane, hphase⟩,
    (Board.at_iff (hit it hit₀)).mpr ⟨hlane, rfl⟩, ?_⟩
  intro j hj
  rcases hm.cases h j with ⟨m, jt, _, _, hjt, _, hjphase, _⟩ | ⟨heq, _⟩
  · rw [Board.at_iff hjt, hjphase] at hj
    exact Phase.noConfusion hj.2
  · exact (Board.at_congr heq).mpr hj

end Busy

/-! ## Work in order -/

/-- `i` entered lane `l` before `j`. -/
def Before (b : Board L I) (l : L) (i j : I) : Prop := [i, j].Sublist (b.history l)

/--
Lane `l` is worked in order: the queue keeps the order of entry, at most one item
is being worked on, and it entered before everything still queued.
-/
structure OrderedAt (l : L) (b : Board L I) : Prop where
  queue : (b.queue l).Sublist (b.history l)
  busy : ∀ i, b.At .busy l i → (i :: b.queue l).Sublist (b.history l)
  one : ∀ i j, b.At .busy l i → b.At .busy l j → i = j

section Order

variable {b b' : Board L I} {taken : L → Prop} {l : L}

/-- Nothing enters both before and after the same item. -/
theorem before_asymm {xs : List I} (hnd : xs.Nodup) {i j : I}
    (hij : [i, j].Sublist xs) (hji : [j, i].Sublist xs) : False := by
  induction xs with
  | nil => cases hij
  | cons x xs ih =>
      obtain ⟨hx, hnd'⟩ := List.nodup_cons.mp hnd
      have htail : ∀ {a c : I}, [a, c].Sublist (x :: xs) → c ∈ xs := by
        intro a c hac
        cases hac with
        | cons _ h => exact h.subset (by simp)
        | cons_cons _ h => exact h.subset (by simp)
      have hi := htail hji
      have hj := htail hij
      cases hij with
      | cons _ hij' =>
          cases hji with
          | cons _ hji' => exact ih hnd' hij' hji'
          | cons_cons _ _ => exact hx hj
      | cons_cons _ _ => exact hx hi

/--
**In an ordered lane the oldest item not done goes first.** If nothing of the lane
is being worked on, everything that entered before its head is done.
-/
theorem OrderedAt.done_before_head (h : OrderedAt l b) (hwf : WF b)
    (hidle : ∀ j, ¬ b.At .busy l j) {i j : I} {q : List I} (hq : b.queue l = i :: q)
    (hji : Before b l j i) : b.At .done l j := by
  obtain ⟨jt, hjt, hlane⟩ := (hwf.history_iff l j).mp (hji.subset (by simp))
  refine (Board.at_iff hjt).mpr ⟨hlane, ?_⟩
  cases hphase : jt.phase with
  | done => rfl
  | busy => exact absurd ((Board.at_iff hjt).mpr ⟨hlane, hphase⟩) (hidle j)
  | queued =>
      exfalso
      have hmem : j ∈ b.queue l := (hwf.queue_iff l j).mpr ((Board.at_iff hjt).mpr ⟨hlane, hphase⟩)
      rw [hq] at hmem
      have hnd := hwf.history_nodup l
      rcases List.mem_cons.mp hmem with rfl | hmem
      · exact before_asymm hnd hji hji
      · have hij : [i, j].Sublist (b.history l) := by
          refine List.Sublist.trans ?_ h.queue
          rw [hq]
          exact List.Sublist.cons_cons i (List.singleton_sublist.mpr hmem)
        exact before_asymm hnd hij hji

/-- What is being worked on entered before everything queued. -/
theorem OrderedAt.busy_before (h : OrderedAt l b) {i j : I} (hi : b.At .busy l i)
    (hj : j ∈ b.queue l) : Before b l i j :=
  (List.Sublist.cons_cons i (List.singleton_sublist.mpr hj)).trans (h.busy i hi)

theorem orderedAt_takes (h : OrderedAt l b) (hwf : WF b) (hm : Takes taken b b')
    (hidle : taken l → ∀ j, ¬ b.At .busy l j) : OrderedAt l b' := by
  have hbusy : ∀ j, b'.At .busy l j →
      (taken l ∧ b.queue l = j :: b'.queue l) ∨ (¬ taken l ∧ b.At .busy l j) := by
    intro j hj
    rcases hm.cases hwf j with ⟨m, it, htm, hq, hit, hlane, _, hit'⟩ | ⟨heq, _⟩
    · obtain ⟨rfl, _⟩ := (Board.at_iff hit').mp hj
      change it.lane = m at hlane
      subst hlane
      exact Or.inl ⟨htm, hq⟩
    · have hj' := (Board.at_congr heq).mp hj
      exact Or.inr ⟨fun htl => hidle htl j hj', hj'⟩
  refine ⟨?_, ?_, ?_⟩
  · rw [hm.history]; exact (hm.sub l).trans h.queue
  · intro j hj
    rw [hm.history]
    rcases hbusy j hj with ⟨_, hq⟩ | ⟨hnt, hj'⟩
    · rw [← hq]; exact h.queue
    · rw [hm.queue l hnt]; exact h.busy j hj'
  · intro i j hi hj
    rcases hbusy i hi with ⟨ht, hqi⟩ | ⟨hnt, hi'⟩
    · rcases hbusy j hj with ⟨_, hqj⟩ | ⟨hnt, _⟩
      · rw [hqi] at hqj
        exact (List.cons.inj hqj).1
      · exact absurd ht hnt
    · rcases hbusy j hj with ⟨ht, _⟩ | ⟨_, hj'⟩
      · exact absurd ht hnt
      · exact h.one i j hi' hj'

theorem orderedAt_drops {p : I → Prop} (h : OrderedAt l b) (hm : Drops p b b') :
    OrderedAt l b' := by
  have hbusy : ∀ j, b'.At .busy l j → b.At .busy l j := by
    intro j hj
    rcases hm.cases j with ⟨it, _, _, _, hit'⟩ | ⟨heq, _⟩
    · exact Phase.noConfusion ((Board.at_iff hit').mp hj).2
    · exact (Board.at_congr heq).mp hj
  refine ⟨?_, ?_, ?_⟩
  · rw [hm.history]; exact (hm.sub l).trans h.queue
  · intro j hj
    rw [hm.history]
    exact ((hm.sub l).cons_cons j).trans (h.busy j (hbusy j hj))
  · exact fun i j hi hj => h.one i j (hbusy i hi) (hbusy j hj)

theorem orderedAt_finishes {k : I} (h : OrderedAt l b) (hm : Finishes k b b') :
    OrderedAt l b' := by
  obtain ⟨it, _, _, hit'⟩ := hm.was
  have hbusy : ∀ j, b'.At .busy l j → b.At .busy l j := by
    intro j hj
    by_cases hjk : j = k
    · subst hjk
      exact Phase.noConfusion ((Board.at_iff hit').mp hj).2
    · exact (Board.at_congr (hm.item j hjk)).mp hj
  refine ⟨?_, ?_, ?_⟩
  · rw [hm.queue, hm.history]; exact h.queue
  · intro j hj
    rw [hm.queue, hm.history]
    exact h.busy j (hbusy j hj)
  · exact fun i j hi hj => h.one i j (hbusy i hi) (hbusy j hj)

theorem orderedAt_requeues {k : I} (h : OrderedAt l b) (hm : Requeues k b b') :
    OrderedAt l b' := by
  obtain ⟨it, hit, hphase, hit', hq, hqs⟩ := hm.was
  have hbusy : ∀ j, b'.At .busy l j → j ≠ k ∧ b.At .busy l j := by
    intro j hj
    by_cases hjk : j = k
    · subst hjk
      exact Phase.noConfusion ((Board.at_iff hit').mp hj).2
    · exact ⟨hjk, (Board.at_congr (hm.item j hjk)).mp hj⟩
  by_cases hl : l = it.lane
  · subst hl
    have hk : b.At .busy it.lane k := (Board.at_iff hit).mpr ⟨rfl, hphase⟩
    have hnone : ∀ j, ¬ b'.At .busy it.lane j := fun j hj =>
      (hbusy j hj).1 (h.one j k (hbusy j hj).2 hk)
    refine ⟨?_, ?_, ?_⟩
    · rw [hq, hm.history]; exact h.busy k hk
    · exact fun j hj => absurd hj (hnone j)
    · exact fun i _ hi => absurd hi (hnone i)
  · refine ⟨?_, ?_, ?_⟩
    · rw [hqs l hl, hm.history]; exact h.queue
    · intro j hj
      rw [hqs l hl, hm.history]
      exact h.busy j (hbusy j hj).2
    · exact fun i j hi hj => h.one i j (hbusy i hi).2 (hbusy j hj).2

variable [DecidableEq L] {xs : List (L × I)}

theorem orderedAt_enqueues (h : OrderedAt l b) (hm : Enqueues xs b b') : OrderedAt l b' := by
  have hbusy : ∀ j, b'.At .busy l j → b.At .busy l j := by
    intro j hj
    rcases hm.cases j with ⟨m, _, _, hnew⟩ | ⟨heq, _⟩
    · exact Phase.noConfusion ((Board.at_iff hnew).mp hj).2
    · exact (Board.at_congr heq).mp hj
  refine ⟨?_, ?_, ?_⟩
  · rw [hm.queue, hm.history]; exact h.queue.append_right _
  · intro j hj
    rw [hm.queue, hm.history]
    exact (h.busy j (hbusy j hj)).append_right _
  · exact fun i j hi hj => h.one i j (hbusy i hi) (hbusy j hj)

/--
**An ordered lane stays ordered** under every move that takes its head only while
nothing of it is being worked on.
-/
theorem orderedAt_move (h : OrderedAt l b) (hwf : WF b) (hm : Move b b' taken)
    (hidle : taken l → ∀ j, ¬ b.At .busy l j) : OrderedAt l b' := by
  cases hm with
  | stay heq => rw [heq]; exact h
  | enqueue hm => exact orderedAt_enqueues h hm
  | take hm => exact orderedAt_takes h hwf hm hidle
  | drop hm => exact orderedAt_drops h hm
  | finish hm => exact orderedAt_finishes h hm
  | requeue hm => exact orderedAt_requeues h hm

end Order

/-! ## Fresh items -/

/--
The items of lane `l` never taken form a tail of its queue, in the order they
entered. Stated pairwise: whatever stands in front of an item has been taken before,
or neither has and they stand in the order they entered.
-/
def FreshTailAt (b : Board L I) (l : L) : Prop :=
  (b.queue l).Pairwise fun i j => 0 < b.tries i ∨ (b.tries j = 0 ∧ Before b l i j)

section Fresh

variable {b b' : Board L I} {taken : L → Prop} {l : L}

/-- Part of a fresh-tailed queue is fresh-tailed, if its items and the history are untouched. -/
theorem freshTailAt_of_sublist (h : FreshTailAt b l)
    (hsub : (b'.queue l).Sublist (b.queue l)) (hhist : b'.history l = b.history l)
    (hitem : ∀ i ∈ b'.queue l, b'.item i = b.item i) : FreshTailAt b' l := by
  have h' := List.Pairwise.sublist hsub h
  refine h'.imp_of_mem ?_
  intro i j hi hj hij
  rw [Board.tries_congr (hitem i hi), Board.tries_congr (hitem j hj), Before, hhist]
  exact hij

theorem freshTailAt_takes (h : FreshTailAt b l) (hwf : WF b) (hm : Takes taken b b') :
    FreshTailAt b' l := by
  refine freshTailAt_of_sublist h (hm.sub l) (hm.history l) ?_
  intro i hi
  rcases hm.cases hwf i with ⟨m, it, _, _, _, _, _, hit'⟩ | ⟨heq, _⟩
  · have hq := ((wf_takes hwf hm).queue_iff l i).mp hi
    exact Phase.noConfusion ((Board.at_iff hit').mp hq).2
  · exact heq

theorem freshTailAt_drops {p : I → Prop} (h : FreshTailAt b l) (hwf : WF b)
    (hm : Drops p b b') : FreshTailAt b' l := by
  refine freshTailAt_of_sublist h (hm.sub l) (hm.history l) ?_
  intro i hi
  rcases hm.cases i with ⟨it, _, _, _, hit'⟩ | ⟨heq, _⟩
  · have hq := ((wf_drops hwf hm).queue_iff l i).mp hi
    exact Phase.noConfusion ((Board.at_iff hit').mp hq).2
  · exact heq

theorem freshTailAt_finishes {k : I} (h : FreshTailAt b l) (hwf : WF b)
    (hm : Finishes k b b') : FreshTailAt b' l := by
  refine freshTailAt_of_sublist h (hm.queue l ▸ List.Sublist.refl _) (hm.history l) ?_
  intro i hi
  by_cases hik : i = k
  · subst hik
    obtain ⟨it, _, _, hit'⟩ := hm.was
    have hq := ((wf_finishes hwf hm).queue_iff l i).mp hi
    exact Phase.noConfusion ((Board.at_iff hit').mp hq).2
  · exact hm.item i hik

theorem freshTailAt_requeues {k : I} (h : FreshTailAt b l) (hwf : WF b)
    (hm : Requeues k b b') : FreshTailAt b' l := by
  obtain ⟨it, hit, hphase, hit', hq, hqs⟩ := hm.was
  have hnot := hwf.not_queued_of_busy ((Board.at_iff hit).mpr ⟨rfl, hphase⟩)
  have hrest : (b.queue l).Pairwise fun i j => 0 < b'.tries i ∨ (b'.tries j = 0 ∧ Before b' l i j) := by
    refine List.Pairwise.imp_of_mem ?_ h
    intro i j hi hj hij
    have hne : ∀ j ∈ b.queue l, b'.item j = b.item j := fun j hj =>
      hm.item j fun e => hnot l (e ▸ hj)
    rw [Board.tries_congr (hne i hi), Board.tries_congr (hne j hj), Before, hm.history]
    exact hij
  unfold FreshTailAt
  by_cases hl : l = it.lane
  · subst hl
    rw [hq]
    refine List.pairwise_cons.mpr ⟨?_, hrest⟩
    -- what comes back has been taken, so it owes nothing to what it now stands before
    intro j _
    left
    rw [Board.tries_eq hit']
    exact hwf.busy_tried k it hit hphase
  · rw [hqs l hl]; exact hrest

theorem freshTailAt_enqueues [DecidableEq L] {xs : List (L × I)} (h : FreshTailAt b l)
    (hwf : WF b) (hm : Enqueues xs b b') : FreshTailAt b' l := by
  have hnew : ∀ i ∈ onLane xs l, b'.tries i = 0 := fun i hi =>
    Board.tries_eq (hm.item_new _ (mem_onLane.mp hi))
  have hold : ∀ i ∈ b.queue l, b'.tries i = b.tries i := by
    intro i hi
    obtain ⟨it, hit, _⟩ := (hwf.queue_iff l i).mp hi
    refine Board.tries_congr (hm.item_old i ?_)
    intro hx
    obtain ⟨x, hmem, rfl⟩ := List.mem_map.mp hx
    rw [hm.fresh x hmem] at hit
    cases hit
  unfold FreshTailAt
  rw [hm.queue]
  refine List.pairwise_append.mpr ⟨?_, ?_, ?_⟩
  · refine List.Pairwise.imp_of_mem ?_ h
    intro i j hi hj hij
    rw [hold i hi, hold j hj, Before, hm.history]
    exact hij.imp id fun ⟨h0, hb⟩ => ⟨h0, hb.trans (List.sublist_append_left ..)⟩
  · refine List.pairwise_iff_forall_sublist.mpr ?_
    intro i j hij
    right
    refine ⟨hnew j (hij.subset (by simp)), ?_⟩
    rw [Before, hm.history]
    exact hij.trans (List.sublist_append_right ..)
  · intro i hi j hj
    right
    refine ⟨hnew j hj, ?_⟩
    rw [Before, hm.history]
    exact List.Sublist.append (List.singleton_sublist.mpr (hwf.mem_history_of_queue hi))
      (List.singleton_sublist.mpr hj)

/-- **Every move keeps the fresh items a tail of the queue, in the order they entered.** -/
theorem freshTailAt_move [DecidableEq L] (h : FreshTailAt b l) (hwf : WF b)
    (hm : Move b b' taken) : FreshTailAt b' l := by
  cases hm with
  | stay heq => rw [heq]; exact h
  | enqueue hm => exact freshTailAt_enqueues h hwf hm
  | take hm => exact freshTailAt_takes h hwf hm
  | drop hm => exact freshTailAt_drops h hwf hm
  | finish hm => exact freshTailAt_finishes h hwf hm
  | requeue hm => exact freshTailAt_requeues h hwf hm

end Fresh

end Lanes
