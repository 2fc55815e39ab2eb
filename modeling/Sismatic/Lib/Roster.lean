import Mathlib.Data.Set.Card
import Std.Data.TreeMap.Lemmas

/-!
# Rosters

A roster keeps one task for each thing that is wanted. Things have a key, under which there is
one of them at a time, and a version, by which a replacement is told from what it replaces. A
task is for the version it was started with.

Applying a roster to what is wanted goes in two passes: every task that is for nothing wanted,
or for another version of it, is stopped; then what has no task gets one. So a task that is
right stays (`Applied.kept`), and none is ever left behind: each task ever started has been
stopped once, or is the one its key has (`Sound`).
-/

namespace Rosters

/-- Among keys listed once, those of a kind. -/
theorem countP_eq_ncard {β : Type} {keys : List β} (hnodup : keys.Nodup) (p : β → Bool) :
    keys.countP p = {k | k ∈ keys ∧ p k = true}.ncard := by
  classical
  have hset : {k | k ∈ keys ∧ p k = true} = ↑(keys.filter p).toFinset := by
    ext k
    rw [List.coe_toFinset, Set.mem_ofPred_eq, Set.mem_ofPred_eq, List.mem_filter]
  rw [hset, Set.ncard_coe_finset, List.toFinset_card_of_nodup (hnodup.filter _),
    List.countP_eq_length_filter]

variable {κ α ν : Type} [Ord κ]

/-- A task, by when it was started, and the version it is for. -/
structure Task (ν : Type) where
  version : ν
  task : ℕ
deriving DecidableEq

structure Roster (κ α ν : Type) [Ord κ] where
  running : Std.TreeMap κ (Task ν)
  /-- What each task was started for, in the order they were. -/
  started : List α
  /-- The tasks told to stop. -/
  stopped : List ℕ

/-- What one application did. -/
structure Change where
  started : ℕ
  stopped : ℕ
  /-- Stopped and started again, for another version. -/
  rebound : ℕ
  unchanged : ℕ
deriving DecidableEq, Repr

def Roster.empty : Roster κ α ν := ⟨∅, [], []⟩

section Apply

variable [DecidableEq ν] (version : α → ν) (wanted : Std.TreeMap κ α)

/-- The task is for nothing that is wanted, or for another version of it. -/
def stale (entry : κ × Task ν) : Bool :=
  match wanted[entry.1]? with
  | none => true
  | some a => version a ≠ entry.2.version

/-- The keys of the tasks that are to be stopped. -/
def gone (roster : Roster κ α ν) : List κ :=
  (roster.running.toList.filter (stale version wanted)).map Prod.fst

/-- Take a task off the roster. -/
def remove (roster : Roster κ α ν) (id : κ) : Roster κ α ν :=
  match roster.running[id]? with
  | none => roster
  | some task =>
      { roster with
        running := roster.running.erase id
        stopped := roster.stopped ++ [task.task] }

/-- Stop one stale task. -/
def stop (acc : Roster κ α ν × Change) (id : κ) : Roster κ α ν × Change :=
  (remove acc.1 id,
    if wanted.contains id then { acc.2 with rebound := acc.2.rebound + 1 }
    else { acc.2 with stopped := acc.2.stopped + 1 })

/-- What is kept while tasks are started. -/
structure Starting (κ α ν : Type) [Ord κ] where
  roster : Roster κ α ν
  unchanged : ℕ
  spawned : ℕ

/-- Start a task for one wanted thing, unless it has one. -/
def start (acc : Starting κ α ν) (entry : κ × α) : Starting κ α ν :=
  if acc.roster.running.contains entry.1 then { acc with unchanged := acc.unchanged + 1 }
  else
    { acc with
      roster := { acc.roster with
        running := acc.roster.running.insert entry.1 ⟨version entry.2, acc.roster.started.length⟩
        started := acc.roster.started ++ [entry.2] }
      spawned := acc.spawned + 1 }

/-- Make the tasks match what is wanted. -/
def apply (roster : Roster κ α ν) : Roster κ α ν × Change :=
  let left := (gone version wanted roster).foldl (stop wanted) (roster, ⟨0, 0, 0, 0⟩)
  let acc := wanted.toList.foldl (start version) ⟨left.1, left.2.unchanged, 0⟩
  -- what was replaced is among what was spawned, and is counted as replaced
  (acc.roster, { left.2 with
    unchanged := acc.unchanged
    started := acc.spawned - left.2.rebound })

end Apply

/-! ## One task at a time -/

/-- Every task started has been stopped once, or is the one that its key has. -/
structure Sound (version : α → ν) (roster : Roster κ α ν) : Prop where
  /-- A task that runs is for the version it was started for. -/
  built : ∀ (id : κ) task, roster.running[id]? = some task →
    ∃ a, roster.started[task.task]? = some a ∧ version a = task.version
  unstopped : ∀ (id : κ) task, roster.running[id]? = some task → task.task ∉ roster.stopped
  own : ∀ (id id' : κ) task task', roster.running[id]? = some task →
    roster.running[id']? = some task' → task.task = task'.task → id = id'
  stopped : ∀ n ∈ roster.stopped, n < roster.started.length
  once : roster.stopped.Nodup
  /-- No task is left behind. -/
  accounted : ∀ n < roster.started.length, n ∈ roster.stopped ∨
    ∃ (id : κ) (task : Task ν), roster.running[id]? = some task ∧ task.task = n

section Fields

variable {version : α → ν} {roster : Roster κ α ν} {acc : Starting κ α ν} {entry : κ × α} {id : κ}

theorem remove_started : (remove roster id).started = roster.started := by
  unfold remove
  cases roster.running[id]? <;> rfl

theorem Sound.lt (h : Sound version roster) {task : Task ν}
    (hrunning : roster.running[id]? = some task) : task.task < roster.started.length := by
  obtain ⟨a, hstarted, -⟩ := h.built id task hrunning
  exact (List.getElem?_eq_some_iff.mp hstarted).1

theorem start_stopped : (start version acc entry).roster.stopped = acc.roster.stopped := by
  unfold start
  split
  · rfl
  · rfl

theorem foldl_stop (wanted : Std.TreeMap κ α) (ids : List κ) (acc : Roster κ α ν × Change) :
    ids.foldl (stop wanted) acc = (ids.foldl remove acc.1, { acc.2 with
      stopped := acc.2.stopped + ids.countP fun id => !wanted.contains id
      rebound := acc.2.rebound + ids.countP fun id => wanted.contains id }) := by
  induction ids generalizing acc with
  | nil => rfl
  | cons id ids ih =>
      rw [List.foldl_cons, ih]
      unfold stop
      by_cases hthere : wanted.contains id = true
      · simp [hthere, Nat.add_assoc, Nat.add_comm 1]
      · simp [hthere, Nat.add_assoc, Nat.add_comm 1]

theorem foldl_remove_started (ids : List κ) (roster : Roster κ α ν) :
    (ids.foldl remove roster).started = roster.started := by
  induction ids generalizing roster with
  | nil => rfl
  | cons id ids ih => rw [List.foldl_cons, ih, remove_started]

end Fields

theorem stale_iff [DecidableEq ν] {version : α → ν} {wanted : Std.TreeMap κ α}
    {id : κ} {task : Task ν} :
    stale version wanted (id, task) = true ↔
      ∀ a, wanted[id]? = some a → version a ≠ task.version := by
  unfold stale
  dsimp only
  cases wanted[id]? with
  | none => simp
  | some a => simp

variable [Std.TransOrd κ]

theorem contains_eq_isSome {β : Type} (m : Std.TreeMap κ β) (k : κ) :
    m.contains k = m[k]?.isSome := Std.TreeMap.contains_eq_isSome_getElem?

theorem start_started {version : α → ν} {acc : Starting κ α ν} {entry : κ × α} :
    (start version acc entry).roster.started =
    if acc.roster.running[entry.1]? = none then acc.roster.started ++ [entry.2]
    else acc.roster.started := by
  unfold start
  rw [contains_eq_isSome]
  cases acc.roster.running[entry.1]? with
  | none => rfl
  | some task => rfl

theorem start_spawned {version : α → ν} {acc : Starting κ α ν} {entry : κ × α} :
    (start version acc entry).spawned =
    if acc.roster.running[entry.1]? = none then acc.spawned + 1 else acc.spawned := by
  unfold start
  rw [contains_eq_isSome]
  cases acc.roster.running[entry.1]? with
  | none => rfl
  | some task => rfl

theorem sound_empty {version : α → ν} : Sound version (Roster.empty : Roster κ α ν) := by
  refine ⟨?_, ?_, ?_, ?_, List.nodup_nil, ?_⟩
  · intro id task hrunning
    simp [Roster.empty] at hrunning
  · intro id task hrunning
    simp [Roster.empty] at hrunning
  · intro id id' task task' hrunning
    simp [Roster.empty] at hrunning
  · intro n hn
    cases hn
  · intro n hn
    cases hn

variable [Std.LawfulEqOrd κ]

theorem getElem?_insert {β : Type} (m : Std.TreeMap κ β) (k a : κ) (v : β) [Decidable (k = a)] :
    (m.insert k v)[a]? = if k = a then some v else m[a]? := by
  rw [Std.TreeMap.getElem?_insert]
  simp only [Std.compare_eq_iff_eq]

theorem getElem?_erase {β : Type} (m : Std.TreeMap κ β) (k a : κ) [Decidable (k = a)] :
    (m.erase k)[a]? = if k = a then none else m[a]? := by
  rw [Std.TreeMap.getElem?_erase]
  simp only [Std.compare_eq_iff_eq]

theorem keys_distinct {β : Type} (m : Std.TreeMap κ β) : (m.toList.map Prod.fst).Nodup := by
  refine List.pairwise_map.mpr (Std.TreeMap.distinct_keys_toList.imp ?_)
  intro p q h heq
  exact h (Std.compare_eq_iff_eq.mpr heq)

theorem mem_toList {β : Type} {m : Std.TreeMap κ β} {k : κ} {v : β} :
    (k, v) ∈ m.toList ↔ m[k]? = some v := Std.TreeMap.mem_toList_iff_getElem?_eq_some

section One

variable [DecidableEq κ] {version : α → ν} {roster : Roster κ α ν} {id : κ}

theorem remove_running (k : κ) : (remove roster id).running[k]? =
    if id = k then none else roster.running[k]? := by
  unfold remove
  cases hrunning : roster.running[id]? with
  | none =>
      dsimp only
      by_cases hk : id = k
      · rw [if_pos hk, ← hk]
        exact hrunning
      · rw [if_neg hk]
  | some task => exact getElem?_erase ..

/-- A task taken off the roster is stopped. -/
theorem sound_remove (h : Sound version roster) : Sound version (remove roster id) := by
  cases hrunning : roster.running[id]? with
  | none =>
      have hsame : remove roster id = roster := by
        unfold remove
        rw [hrunning]
      rw [hsame]
      exact h
  | some task =>
      have hstopped : (remove roster id).stopped = roster.stopped ++ [task.task] := by
        unfold remove
        rw [hrunning]
      have hold : ∀ {k : κ} {t : Task ν}, (remove roster id).running[k]? = some t →
          id ≠ k ∧ roster.running[k]? = some t := by
        intro k t ht
        rw [remove_running] at ht
        split at ht
        · cases ht
        · rename_i hk
          exact ⟨hk, ht⟩
      refine ⟨?_, ?_, ?_, ?_, ?_, ?_⟩
      · intro k t ht
        rw [remove_started]
        exact h.built k t (hold ht).2
      · intro k t ht
        obtain ⟨hk, ht⟩ := hold ht
        rw [hstopped, List.mem_append, List.mem_singleton]
        rintro (hmem | heq)
        · exact h.unstopped k t ht hmem
        · exact hk (h.own id k task t hrunning ht heq.symm)
      · intro k k' t t' ht ht' heq
        exact h.own k k' t t' (hold ht).2 (hold ht').2 heq
      · intro n hn
        rw [hstopped, List.mem_append, List.mem_singleton] at hn
        rw [remove_started]
        rcases hn with hn | rfl
        · exact h.stopped n hn
        · exact h.lt hrunning
      · rw [hstopped, List.nodup_append]
        refine ⟨h.once, List.nodup_singleton _, ?_⟩
        intro n hn m hm heq
        rw [List.mem_singleton] at hm
        exact h.unstopped id task hrunning (hm ▸ heq ▸ hn)
      · intro n hn
        rw [remove_started] at hn
        rw [hstopped, List.mem_append, List.mem_singleton]
        rcases h.accounted n hn with hmem | ⟨k, t, ht, rfl⟩
        · exact .inl (.inl hmem)
        · by_cases hk : id = k
          · obtain rfl := hk
            rw [hrunning] at ht
            obtain rfl := Option.some.inj ht
            exact .inl (.inr rfl)
          · refine .inr ⟨k, t, ?_, rfl⟩
            rw [remove_running, if_neg hk]
            exact ht

variable {acc : Starting κ α ν} {entry : κ × α}

theorem start_running (k : κ) : (start version acc entry).roster.running[k]? =
    if entry.1 = k ∧ acc.roster.running[k]? = none then
      some ⟨version entry.2, acc.roster.started.length⟩
    else acc.roster.running[k]? := by
  unfold start
  by_cases hthere : acc.roster.running.contains entry.1 = true
  · rw [if_pos hthere, if_neg]
    rintro ⟨rfl, hnone⟩
    rw [contains_eq_isSome, hnone] at hthere
    cases hthere
  · rw [if_neg hthere]
    dsimp only
    rw [getElem?_insert]
    rw [contains_eq_isSome, Bool.not_eq_true, Option.isSome_eq_false_iff,
      Option.isNone_iff_eq_none] at hthere
    by_cases hk : entry.1 = k
    · rw [if_pos hk, if_pos ⟨hk, hk ▸ hthere⟩]
    · rw [if_neg hk, if_neg fun h => hk h.1]

/-- A task started is the one its key has. -/
theorem sound_start (h : Sound version acc.roster) :
    Sound version (start version acc entry).roster := by
  by_cases hthere : acc.roster.running[entry.1]? = none
  · have hstarted : (start version acc entry).roster.started =
        acc.roster.started ++ [entry.2] := start_started.trans (if_pos hthere)
    have hcases : ∀ {k : κ} {t : Task ν}, (start version acc entry).roster.running[k]? = some t →
        (entry.1 = k ∧ t = ⟨version entry.2, acc.roster.started.length⟩) ∨
          (entry.1 ≠ k ∧ acc.roster.running[k]? = some t) := by
      intro k t ht
      rw [start_running] at ht
      by_cases hk : entry.1 = k
      · obtain rfl := hk
        rw [if_pos ⟨rfl, hthere⟩] at ht
        exact .inl ⟨rfl, (Option.some.inj ht).symm⟩
      · rw [if_neg fun h => hk h.1] at ht
        exact .inr ⟨hk, ht⟩
    refine ⟨?_, ?_, ?_, ?_, ?_, ?_⟩
    · intro k t ht
      rw [hstarted]
      rcases hcases ht with ⟨-, rfl⟩ | ⟨-, ht⟩
      · exact ⟨entry.2, by simp, rfl⟩
      · obtain ⟨a, ha, hversion⟩ := h.built k t ht
        exact ⟨a, by rw [List.getElem?_append_left (h.lt ht)]; exact ha, hversion⟩
    · intro k t ht hmem
      rw [start_stopped] at hmem
      rcases hcases ht with ⟨-, rfl⟩ | ⟨-, ht⟩
      · exact absurd (h.stopped _ hmem) (lt_irrefl _)
      · exact h.unstopped k t ht hmem
    · intro k k' t t' ht ht' heq
      rcases hcases ht with ⟨hk, rfl⟩ | ⟨-, ht⟩
      · rcases hcases ht' with ⟨hk', rfl⟩ | ⟨-, ht'⟩
        · exact hk.symm.trans hk'
        · exact absurd (h.lt ht') (heq ▸ lt_irrefl _)
      · rcases hcases ht' with ⟨-, rfl⟩ | ⟨-, ht'⟩
        · exact absurd (h.lt ht) (heq ▸ lt_irrefl _)
        · exact h.own k k' t t' ht ht' heq
    · intro n hn
      rw [start_stopped] at hn
      rw [hstarted, List.length_append]
      exact Nat.lt_add_right _ (h.stopped n hn)
    · rw [start_stopped]
      exact h.once
    · intro n hn
      rw [hstarted, List.length_append, List.length_singleton] at hn
      rw [start_stopped]
      rcases Nat.lt_succ_iff_lt_or_eq.mp hn with hn | rfl
      · rcases h.accounted n hn with hmem | ⟨k, t, ht, hn⟩
        · exact .inl hmem
        · refine .inr ⟨k, t, ?_, hn⟩
          rw [start_running, if_neg, ht]
          rintro ⟨-, hnone⟩
          rw [ht] at hnone
          cases hnone
      · refine .inr ⟨entry.1, ⟨version entry.2, acc.roster.started.length⟩, ?_, rfl⟩
        rw [start_running, if_pos ⟨rfl, hthere⟩]
  · have hsame : (start version acc entry).roster = acc.roster := by
      unfold start
      rw [contains_eq_isSome, if_pos (Option.isSome_iff_ne_none.mpr hthere)]
    rw [hsame]
    exact h

end One

/-! ## The two passes -/

section Passes

variable [DecidableEq κ] {version : α → ν} {wanted : Std.TreeMap κ α}

theorem foldl_remove_running (ids : List κ) (roster : Roster κ α ν) (k : κ) :
    (ids.foldl remove roster).running[k]? = if k ∈ ids then none else roster.running[k]? := by
  induction ids generalizing roster with
  | nil => rfl
  | cons id ids ih =>
      rw [List.foldl_cons, ih, remove_running]
      by_cases hk : k ∈ ids
      · rw [if_pos hk, if_pos (List.mem_cons_of_mem _ hk)]
      · rw [if_neg hk]
        by_cases hid : id = k
        · rw [if_pos hid, if_pos (hid ▸ List.mem_cons_self)]
        · rw [if_neg hid, if_neg]
          intro hmem
          rcases List.mem_cons.mp hmem with heq | hmem
          · exact hid heq.symm
          · exact hk hmem

theorem sound_foldl_remove (ids : List κ) {roster : Roster κ α ν} (h : Sound version roster) :
    Sound version (ids.foldl remove roster) := by
  induction ids generalizing roster with
  | nil => exact h
  | cons id ids ih => exact ih (sound_remove h)

/-- What starting the missing tasks comes to, for things of different keys. -/
structure Filled (version : α → ν) (acc : Starting κ α ν) (entries : List (κ × α))
    (after : Starting κ α ν) : Prop where
  kept : ∀ (k : κ) task, acc.roster.running[k]? = some task →
    after.roster.running[k]? = some task
  filled : ∀ entry ∈ entries, acc.roster.running[entry.1]? = none → ∃ n,
    acc.roster.started.length ≤ n ∧ after.roster.running[entry.1]? = some ⟨version entry.2, n⟩ ∧
      after.roster.started[n]? = some entry.2
  other : ∀ k : κ, (∀ entry ∈ entries, entry.1 ≠ k) →
    after.roster.running[k]? = acc.roster.running[k]?
  grown : ∃ new, after.roster.started = acc.roster.started ++ new ∧
    after.spawned = acc.spawned + new.length
  unchanged : after.unchanged =
    acc.unchanged + entries.countP fun entry => acc.roster.running[entry.1]?.isSome
  spawned : after.spawned =
    acc.spawned + entries.countP fun entry => acc.roster.running[entry.1]?.isNone

theorem foldl_start {entries : List (κ × α)} (hdistinct : (entries.map Prod.fst).Nodup)
    (acc : Starting κ α ν) :
    Filled version acc entries (entries.foldl (start version) acc) := by
  induction entries generalizing acc with
  | nil =>
      exact ⟨fun _ _ h => h, fun _ h => absurd h List.not_mem_nil, fun _ _ => rfl,
        ⟨[], (List.append_nil _).symm, rfl⟩, rfl, rfl⟩
  | cons entry entries ih =>
      rw [List.map_cons, List.nodup_cons] at hdistinct
      obtain ⟨hnew, hdistinct⟩ := hdistinct
      have hne : ∀ other ∈ entries, entry.1 ≠ other.1 := by
        intro other hmem heq
        exact hnew (List.mem_map.mpr ⟨other, hmem, heq.symm⟩)
      have hrest : ∀ other ∈ entries, (start version acc entry).roster.running[other.1]? =
          acc.roster.running[other.1]? := by
        intro other hmem
        rw [start_running, if_neg fun h => hne other hmem h.1]
      have hkept : ∀ (k : κ) (task : Task ν), acc.roster.running[k]? = some task →
          (start version acc entry).roster.running[k]? = some task := by
        intro k task htask
        rw [start_running, if_neg, htask]
        rintro ⟨-, hnone⟩
        rw [htask] at hnone
        cases hnone
      obtain ⟨kept, filled, other, ⟨new, hgrown, hcounted⟩, hunchanged, hspawned⟩ :=
        ih hdistinct (start version acc entry)
      have hlength : acc.roster.started.length ≤
          (start version acc entry).roster.started.length := by
        rw [start_started]
        split
        · rw [List.length_append]
          exact Nat.le_add_right ..
        · exact Nat.le_refl _
      rw [List.foldl_cons]
      refine ⟨?_, ?_, ?_, ?_, ?_, ?_⟩
      · exact fun k task htask => kept k task (hkept k task htask)
      · intro e hmem hnone
        rcases List.mem_cons.mp hmem with rfl | hmem
        · refine ⟨acc.roster.started.length, Nat.le_refl _, ?_, ?_⟩
          · refine kept e.1 _ ?_
            rw [start_running, if_pos ⟨rfl, hnone⟩]
          · rw [hgrown, start_started, if_pos hnone, List.append_assoc,
              List.getElem?_append_right (Nat.le_refl _), Nat.sub_self]
            rfl
        · obtain ⟨n, hn, hrunning, hstarted⟩ := filled e hmem ((hrest e hmem).trans hnone)
          exact ⟨n, hlength.trans hn, hrunning, hstarted⟩
      · intro k hk
        rw [other k fun e hmem => hk e (List.mem_cons_of_mem _ hmem), start_running,
          if_neg fun h => hk entry List.mem_cons_self h.1]
      · by_cases hnone : acc.roster.running[entry.1]? = none
        · refine ⟨[entry.2] ++ new, ?_, ?_⟩
          · rw [hgrown, start_started, if_pos hnone, List.append_assoc]
          · rw [hcounted, start_spawned, if_pos hnone, List.length_append, List.length_singleton,
              Nat.add_assoc]
        · refine ⟨new, ?_, ?_⟩
          · rw [hgrown, start_started, if_neg hnone]
          · rw [hcounted, start_spawned, if_neg hnone]
      · rw [hunchanged, List.countP_cons, List.countP_congr fun e hmem => by rw [hrest e hmem]]
        unfold start
        rw [contains_eq_isSome]
        cases acc.roster.running[entry.1]? with
        | none => simp
        | some task => simp [Nat.add_assoc, Nat.add_comm 1]
      · rw [hspawned, List.countP_cons, List.countP_congr fun e hmem => by rw [hrest e hmem]]
        unfold start
        rw [contains_eq_isSome]
        cases acc.roster.running[entry.1]? with
        | none => simp [Nat.add_assoc, Nat.add_comm 1]
        | some task => simp

theorem sound_foldl_start (entries : List (κ × α)) {acc : Starting κ α ν}
    (h : Sound version acc.roster) : Sound version (entries.foldl (start version) acc).roster := by
  induction entries generalizing acc with
  | nil => exact h
  | cons entry entries ih => exact ih (sound_start h)

end Passes

/-! ## Applied -/

section Applied

variable {version : α → ν} {wanted : Std.TreeMap κ α} {roster : Roster κ α ν}

/-- What an application comes to. -/
structure Applied (version : α → ν) (wanted : Std.TreeMap κ α) (roster after : Roster κ α ν)
    (change : Change) : Prop where
  /-- What is wanted has a task for the version that is wanted, and nothing else has one. -/
  exact : ∀ id : κ, (after.running[id]?).map Task.version = (wanted[id]?).map version
  /-- A task that is right is left alone. -/
  kept : ∀ (id : κ) task a, roster.running[id]? = some task → wanted[id]? = some a →
    version a = task.version → after.running[id]? = some task
  /-- Any other is a new one, for the very thing that is wanted. -/
  fresh : ∀ (id : κ) task, after.running[id]? = some task → roster.running[id]? ≠ some task →
    roster.started.length ≤ task.task ∧ ∃ a, wanted[id]? = some a ∧
      after.started[task.task]? = some a
  started : change.started =
    {id : κ | roster.running[id]? = none ∧ (wanted[id]?).isSome}.ncard
  stopped : change.stopped =
    {id : κ | (roster.running[id]?).isSome ∧ wanted[id]? = none}.ncard
  rebound : change.rebound = {id : κ | ∃ task a, roster.running[id]? = some task ∧
    wanted[id]? = some a ∧ version a ≠ task.version}.ncard
  unchanged : change.unchanged = {id : κ | ∃ task a, roster.running[id]? = some task ∧
    wanted[id]? = some a ∧ version a = task.version}.ncard
  /-- Every task spawned counts as one of the two. -/
  spawned : after.started.length = roster.started.length + (change.started + change.rebound)

variable [DecidableEq ν]

theorem mem_gone {id : κ} : id ∈ gone version wanted roster ↔ ∃ task,
    roster.running[id]? = some task ∧ ∀ a, wanted[id]? = some a → version a ≠ task.version := by
  unfold gone
  rw [List.mem_map]
  refine ⟨?_, ?_⟩
  · intro h
    obtain ⟨⟨id', task⟩, hmem, rfl⟩ := h
    obtain ⟨hmem, hstale⟩ := List.mem_filter.mp hmem
    exact ⟨task, mem_toList.mp hmem, stale_iff.mp hstale⟩
  · intro h
    obtain ⟨task, hrunning, hother⟩ := h
    exact ⟨(id, task), List.mem_filter.mpr ⟨mem_toList.mpr hrunning, stale_iff.mpr hother⟩, rfl⟩

theorem gone_nodup : (gone version wanted roster).Nodup :=
  (keys_distinct roster.running).sublist (List.filter_sublist.map _)

/-- What is left on the roster is right. -/
theorem left_some [DecidableEq κ] {id : κ} {task : Task ν} :
    ((gone version wanted roster).foldl remove roster).running[id]? = some task ↔
      roster.running[id]? = some task ∧ ∃ a, wanted[id]? = some a ∧ version a = task.version := by
  rw [foldl_remove_running]
  split
  · rename_i hgone
    obtain ⟨task', hrunning, hother⟩ := mem_gone.mp hgone
    refine ⟨fun h => (by cases h), ?_⟩
    intro h
    obtain ⟨hrunning', a, ha, hversion⟩ := h
    rw [hrunning] at hrunning'
    obtain rfl := Option.some.inj hrunning'
    exact absurd hversion (hother a ha)
  · rename_i hkept
    refine ⟨fun hrunning => ⟨hrunning, ?_⟩, And.left⟩
    by_contra hwrong
    refine hkept (mem_gone.mpr ⟨task, hrunning, fun a ha hversion => ?_⟩)
    exact hwrong ⟨a, ha, hversion⟩

theorem left_none [DecidableEq κ] {id : κ} :
    ((gone version wanted roster).foldl remove roster).running[id]? = none ↔
      ∀ task a, roster.running[id]? = some task → wanted[id]? = some a →
        version a ≠ task.version := by
  rw [Option.eq_none_iff_forall_ne_some]
  refine ⟨?_, ?_⟩
  · intro h task a hrunning ha hversion
    exact h task (left_some.mpr ⟨hrunning, a, ha, hversion⟩)
  · intro h task htask
    obtain ⟨hrunning, a, ha, hversion⟩ := left_some.mp htask
    exact h task a hrunning ha hversion

/-- What the second pass makes of what the first one left. -/
theorem apply_filled [DecidableEq κ] (version : α → ν) (wanted : Std.TreeMap κ α)
    (roster : Roster κ α ν) :
    ∃ after : Starting κ α ν, Filled version
        ⟨(gone version wanted roster).foldl remove roster, 0, 0⟩ wanted.toList after ∧
      apply version wanted roster = (after.roster, {
        started := after.spawned - (gone version wanted roster).countP fun id =>
          wanted.contains id
        stopped := (gone version wanted roster).countP fun id => !wanted.contains id
        rebound := (gone version wanted roster).countP fun id => wanted.contains id
        unchanged := after.unchanged }) := by
  refine ⟨_, foldl_start (keys_distinct wanted) _, ?_⟩
  have hstop := foldl_stop wanted (gone version wanted roster)
    (roster, (⟨0, 0, 0, 0⟩ : Change))
  simp only [Nat.zero_add] at hstop
  unfold apply
  rw [hstop]

/-- Keys that something is wanted under. -/
theorem mem_keys {id : κ} : id ∈ wanted.toList.map Prod.fst ↔ ∃ a, wanted[id]? = some a := by
  rw [List.mem_map]
  refine ⟨?_, ?_⟩
  · intro h
    obtain ⟨⟨id', a⟩, hmem, rfl⟩ := h
    exact ⟨a, mem_toList.mp hmem⟩
  · intro h
    obtain ⟨a, ha⟩ := h
    exact ⟨(id, a), mem_toList.mpr ha, rfl⟩

theorem wanted_finite (wanted : Std.TreeMap κ α) (p : κ → Prop)
    (h : ∀ id, p id → ∃ a, wanted[id]? = some a) :
    {id | p id}.Finite := by
  refine Set.Finite.subset (List.finite_toSet (wanted.toList.map Prod.fst)) ?_
  intro id hid
  exact mem_keys.mpr (h id hid)

/-- What was spawned is what had no task, and what had one for another version. -/
theorem ncard_spawned [DecidableEq κ] (version : α → ν) (wanted : Std.TreeMap κ α)
    (roster : Roster κ α ν) :
    {id : κ | ((gone version wanted roster).foldl remove roster).running[id]? = none ∧
        ∃ a, wanted[id]? = some a}.ncard =
      {id : κ | roster.running[id]? = none ∧ (wanted[id]?).isSome}.ncard +
        {id : κ | ∃ task a, roster.running[id]? = some task ∧ wanted[id]? = some a ∧
          version a ≠ task.version}.ncard := by
  rw [← Set.ncard_union_eq ?_ (wanted_finite wanted _ ?_) (wanted_finite wanted _ ?_)]
  · refine congrArg Set.ncard (Set.ext fun id => ?_)
    rw [Set.mem_union, Set.mem_ofPred_eq, Set.mem_ofPred_eq, Set.mem_ofPred_eq, left_none]
    refine ⟨?_, ?_⟩
    · intro h
      obtain ⟨hnone, a, ha⟩ := h
      cases hrunning : roster.running[id]? with
      | none => exact .inl ⟨rfl, by rw [ha]; rfl⟩
      | some task => exact .inr ⟨task, a, rfl, ha, hnone task a hrunning ha⟩
    · intro h
      rcases h with ⟨hnone, hsome⟩ | ⟨task, a, hrunning, ha, hversion⟩
      · refine ⟨fun task a hrunning => ?_, Option.isSome_iff_exists.mp hsome⟩
        rw [hnone] at hrunning
        cases hrunning
      · refine ⟨fun task' a' hrunning' ha' => ?_, a, ha⟩
        rw [hrunning] at hrunning'
        rw [ha] at ha'
        rw [← Option.some.inj hrunning', ← Option.some.inj ha']
        exact hversion
  · refine Set.disjoint_left.mpr fun id hnew hrebound => ?_
    obtain ⟨hnone, -⟩ := hnew
    obtain ⟨task, -, hrunning, -⟩ := hrebound
    rw [hnone] at hrunning
    cases hrunning
  · intro id h
    exact Option.isSome_iff_exists.mp h.2
  · intro id h
    obtain ⟨-, a, -, ha, -⟩ := h
    exact ⟨a, ha⟩

/-- Of the tasks stopped, those whose key is still wanted. -/
theorem ncard_rebound : ((gone version wanted roster).countP fun id => wanted.contains id) =
    {id : κ | ∃ task a, roster.running[id]? = some task ∧ wanted[id]? = some a ∧
      version a ≠ task.version}.ncard := by
  rw [countP_eq_ncard gone_nodup]
  refine congrArg Set.ncard (Set.ext fun id => ?_)
  rw [Set.mem_ofPred_eq, Set.mem_ofPred_eq, mem_gone, contains_eq_isSome,
    Option.isSome_iff_exists]
  refine ⟨?_, ?_⟩
  · intro h
    obtain ⟨⟨task, hrunning, hother⟩, a, ha⟩ := h
    exact ⟨task, a, hrunning, ha, hother a ha⟩
  · intro h
    obtain ⟨task, a, hrunning, ha, hversion⟩ := h
    refine ⟨⟨task, hrunning, fun a' ha' => ?_⟩, a, ha⟩
    rw [ha] at ha'
    rw [← Option.some.inj ha']
    exact hversion

theorem ncard_stopped : ((gone version wanted roster).countP fun id => !wanted.contains id) =
    {id : κ | (roster.running[id]?).isSome ∧ wanted[id]? = none}.ncard := by
  rw [countP_eq_ncard gone_nodup]
  refine congrArg Set.ncard (Set.ext fun id => ?_)
  rw [Set.mem_ofPred_eq, Set.mem_ofPred_eq, mem_gone, contains_eq_isSome,
    Option.isSome_iff_exists, Bool.not_eq_true', Option.isSome_eq_false_iff,
    Option.isNone_iff_eq_none]
  refine ⟨?_, ?_⟩
  · intro h
    obtain ⟨⟨task, hrunning, -⟩, hnone⟩ := h
    exact ⟨⟨task, hrunning⟩, hnone⟩
  · intro h
    obtain ⟨⟨task, hrunning⟩, hnone⟩ := h
    refine ⟨⟨task, hrunning, fun a ha => ?_⟩, hnone⟩
    rw [hnone] at ha
    cases ha

/-- **What an application comes to.** What was replaced is among what was spawned, so the
difference that is reported as started is never negative. -/
theorem apply_applied [DecidableEq κ] : Applied version wanted roster
    (apply version wanted roster).1 (apply version wanted roster).2 := by
  obtain ⟨after, ⟨kept, filled, other, ⟨new, hgrown, hcounted⟩, hunchanged, hspawned⟩, heq⟩ :=
    apply_filled version wanted roster
  rw [heq]
  dsimp only at kept filled other hgrown hcounted hunchanged hspawned ⊢
  rw [Nat.zero_add] at hcounted hunchanged hspawned
  have hunwanted : ∀ {id : κ}, wanted[id]? = none → after.roster.running[id]? = none := by
    intro id hnone
    rw [other id, left_none]
    · intro task a _ ha
      rw [hnone] at ha
      cases ha
    · intro entry hmem heq
      have hthere := mem_toList.mp hmem
      rw [heq, hnone] at hthere
      cases hthere
  have hkeys : ∀ p : κ → Bool, (wanted.toList.countP fun entry => p entry.1) =
      {id | (∃ a, wanted[id]? = some a) ∧ p id = true}.ncard := by
    intro p
    have hmap : (wanted.toList.countP fun entry => p entry.1) =
        (wanted.toList.map Prod.fst).countP p := (List.countP_map ..).symm
    rw [hmap, countP_eq_ncard (keys_distinct wanted)]
    refine congrArg Set.ncard (Set.ext fun id => ?_)
    rw [Set.mem_ofPred_eq, Set.mem_ofPred_eq, mem_keys]
  have hsum : after.spawned =
      {id : κ | roster.running[id]? = none ∧ (wanted[id]?).isSome}.ncard +
        (gone version wanted roster).countP fun id => wanted.contains id := by
    have hsplit := ncard_spawned version wanted roster
    have hcount := hkeys fun id =>
      (((gone version wanted roster).foldl remove roster).running[id]?).isNone
    simp only [Option.isNone_iff_eq_none] at hcount
    rw [hspawned, hcount, ncard_rebound, ← hsplit]
    simp only [and_comm (a := ∃ a, wanted[_]? = some a)]
  refine ⟨?_, ?_, ?_, ?_, ncard_stopped, ncard_rebound, ?_, ?_⟩
  · intro id
    cases hwanted : wanted[id]? with
    | none =>
        rw [hunwanted hwanted]
        rfl
    | some a =>
        cases hleft : ((gone version wanted roster).foldl remove roster).running[id]? with
        | none =>
            obtain ⟨n, -, hrunning, -⟩ := filled (id, a) (mem_toList.mpr hwanted) hleft
            rw [hrunning]
            rfl
        | some task =>
            obtain ⟨-, a', ha', hversion⟩ := left_some.mp hleft
            rw [hwanted] at ha'
            obtain rfl := Option.some.inj ha'
            rw [kept id task hleft]
            exact congrArg some hversion.symm
  · intro id task a hrunning ha hversion
    exact kept id task (left_some.mpr ⟨hrunning, a, ha, hversion⟩)
  · intro id task hafter hnew
    cases hleft : ((gone version wanted roster).foldl remove roster).running[id]? with
    | some task' =>
        have hsame := kept id task' hleft
        rw [hafter] at hsame
        obtain rfl := Option.some.inj hsame
        exact absurd (left_some.mp hleft).1 hnew
    | none =>
        cases hwanted : wanted[id]? with
        | none =>
            rw [hunwanted hwanted] at hafter
            cases hafter
        | some a =>
            obtain ⟨n, hn, hrunning, hstarted⟩ := filled (id, a) (mem_toList.mpr hwanted) hleft
            rw [hafter] at hrunning
            obtain rfl := Option.some.inj hrunning
            rw [foldl_remove_started] at hn
            exact ⟨hn, a, rfl, hstarted⟩
  · rw [hsum, Nat.add_sub_cancel]
  · rw [hunchanged, hkeys fun id =>
      (((gone version wanted roster).foldl remove roster).running[id]?).isSome]
    refine congrArg Set.ncard (Set.ext fun id => ?_)
    rw [Set.mem_ofPred_eq, Set.mem_ofPred_eq, Option.isSome_iff_exists]
    refine ⟨?_, ?_⟩
    · intro h
      obtain ⟨-, task, htask⟩ := h
      obtain ⟨hrunning, a, ha, hversion⟩ := left_some.mp htask
      exact ⟨task, a, hrunning, ha, hversion⟩
    · intro h
      obtain ⟨task, a, hrunning, ha, hversion⟩ := h
      exact ⟨⟨a, ha⟩, task, left_some.mpr ⟨hrunning, a, ha, hversion⟩⟩
  · rw [hgrown, foldl_remove_started, List.length_append]
    dsimp only
    omega

/-- No application leaves a task behind. -/
theorem sound_apply [DecidableEq κ] (h : Sound version roster) :
    Sound version (apply version wanted roster).1 := by
  unfold apply
  rw [foldl_stop]
  exact sound_foldl_start _ (sound_foldl_remove _ h)

/-- The first application stops nothing. -/
theorem apply_empty_stopped : (apply version wanted Roster.empty).1.stopped = [] := by
  have hgone : gone version wanted Roster.empty = [] := by
    unfold gone Roster.empty
    simp
  have hstart : ∀ (entries : List (κ × α)) (acc : Starting κ α ν),
      (entries.foldl (start version) acc).roster.stopped = acc.roster.stopped := by
    intro entries
    induction entries with
    | nil => exact fun _ => rfl
    | cons entry entries ih => exact fun acc => (ih _).trans start_stopped
  unfold apply
  rw [hgone]
  exact hstart _ _

/-- What is wanted already is left as it is. -/
theorem apply_same [DecidableEq κ]
    (h : ∀ id : κ, (roster.running[id]?).map Task.version = (wanted[id]?).map version) :
    apply version wanted roster = (roster, ⟨0, 0, 0, wanted.size⟩) := by
  have hgone : gone version wanted roster = [] := by
    refine List.eq_nil_iff_forall_not_mem.mpr fun id hid => ?_
    obtain ⟨task, hrunning, hother⟩ := mem_gone.mp hid
    have hsame := h id
    rw [hrunning, Option.map_some] at hsame
    obtain ⟨a, ha, hversion⟩ := Option.map_eq_some_iff.mp hsame.symm
    exact hother a ha hversion
  have hstart : ∀ (entries : List (κ × α)) (acc : Starting κ α ν), acc.roster = roster →
      (∀ entry ∈ entries, wanted[entry.1]? = some entry.2) →
      entries.foldl (start version) acc =
        { acc with unchanged := acc.unchanged + entries.length } := by
    intro entries
    induction entries with
    | nil => exact fun acc _ _ => rfl
    | cons entry entries ih =>
        intro acc hacc hwanted
        have hthere : acc.roster.running.contains entry.1 = true := by
          have hsame := h entry.1
          rw [hwanted entry List.mem_cons_self, Option.map_some] at hsame
          obtain ⟨task, htask, -⟩ := Option.map_eq_some_iff.mp hsame
          rw [contains_eq_isSome, hacc, htask]
          rfl
        have hone : start version acc entry = { acc with unchanged := acc.unchanged + 1 } := by
          unfold start
          rw [if_pos hthere]
        have hrest := ih { acc with unchanged := acc.unchanged + 1 } hacc
          fun e hmem => hwanted e (List.mem_cons_of_mem _ hmem)
        rw [List.foldl_cons, hone, hrest, List.length_cons]
        simp [Nat.add_assoc, Nat.add_comm 1]
  unfold apply
  rw [hgone, List.foldl_nil]
  dsimp only
  rw [hstart wanted.toList ⟨roster, 0, 0⟩ rfl fun entry hmem => mem_toList.mp hmem,
    Std.TreeMap.length_toList, Nat.zero_add]
  rfl

end Applied

end Rosters
