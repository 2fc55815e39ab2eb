import Mathlib.Data.Set.Card
import Sismatic.Lib.Run
import Sismatic.Sync.Driver

/-!
# The poll loops converge

One pass over the pairs that either side names brings the table to what is wanted, and leaves
alone what is as wanted already. A pair is visited once, so what a visit finds is what the
pass began with, and what it leaves is what the pass ends with.
-/

namespace Sismatic.Sync

open Devices
open Sismatic.Configuration (FieldSchedule)

/-! ## Maps by key -/

instance : Std.TransCmp compareKeys := inferInstanceAs (Std.TransCmp (compareLex _ _))

instance : Std.LawfulEqCmp compareKeys where
  eq_of_compare := by
    intro a b h
    unfold compareKeys compareLex compareOn at h
    rw [Ordering.then_eq_eq] at h
    exact Prod.ext (Std.compare_eq_iff_eq.mp h.1) (Std.compare_eq_iff_eq.mp h.2)

theorem getElem?_insert {α : Type} (m : KeyMap α) (k a : Key) (v : α) :
    (m.insert k v)[a]? = if k = a then some v else m[a]? := by
  rw [Std.TreeMap.getElem?_insert]
  simp only [Std.LawfulEqCmp.compare_eq_iff_eq]

theorem getElem?_erase {α : Type} (m : KeyMap α) (k a : Key) :
    (m.erase k)[a]? = if k = a then none else m[a]? := by
  rw [Std.TreeMap.getElem?_erase]
  simp only [Std.LawfulEqCmp.compare_eq_iff_eq]

/-! ## What is wanted -/

/-- A pair should have this loop: the field is scheduled, and the device there and willing. -/
def Wants (schedule : List FieldSchedule) (fleet : Fleet) (key : Key) (want : Wanted) : Prop :=
  ⟨key.1, some want.interval⟩ ∈ schedule ∧ ∃ device, fleet[key.2]? = some device ∧
    key.1 ∉ device.config.disabledFields ∧ device.config.uuid = want.device

/-- On devices of different ids, a field that is not in the map yet is put there once for each
that does not decline it. -/
theorem foldl_wantOn (name : FieldName) (interval : Duration)
    {devices : List (DeviceId × Devices.Device)}
    (hdistinct : devices.Pairwise fun p q => p.1 ≠ q.1) (acc : KeyMap Wanted × Nat)
    (hnew : ∀ p ∈ devices, acc.1[(name, p.1)]? = none) (key : Key) (want : Wanted) :
    (devices.foldl (wantOn name interval) acc).1[key]? = some want ↔
      acc.1[key]? = some want ∨ (key.1 = name ∧ want.interval = interval ∧
        ∃ device, (key.2, device) ∈ devices ∧ name ∉ device.config.disabledFields ∧
          device.config.uuid = want.device) := by
  induction devices generalizing acc with
  | nil => simp
  | cons first devices ih =>
      obtain ⟨id, device⟩ := first
      obtain ⟨hfirst, hdistinct⟩ := List.pairwise_cons.mp hdistinct
      rw [List.foldl_cons]
      have hstep : ∀ k : Key, (wantOn name interval acc (id, device)).1[k]? =
          if (name, id) = k ∧ name ∉ device.config.disabledFields then
            some ⟨interval, device.config.uuid⟩
          else acc.1[k]? := by
        intro k
        unfold wantOn
        by_cases hdeclined : name ∈ device.config.disabledFields
        · rw [if_pos hdeclined, if_neg fun h => h.2 hdeclined]
        · rw [if_neg hdeclined, getElem?_insert]
          simp only [hdeclined, not_false_eq_true, and_true]
      rw [ih hdistinct _ ?_, hstep key]
      · by_cases hhere : (name, id) = key ∧ name ∉ device.config.disabledFields
        · rw [if_pos hhere]
          obtain ⟨rfl, hwilling⟩ := hhere
          have hnone := hnew (id, device) List.mem_cons_self
          refine ⟨?_, ?_⟩
          · rintro (hput | ⟨hname, hinterval, device', hmem, hrest⟩)
            · obtain rfl := Option.some.inj hput
              exact .inr ⟨rfl, rfl, device, List.mem_cons_self, hwilling, rfl⟩
            · exact .inr ⟨hname, hinterval, device', List.mem_cons_of_mem _ hmem, hrest⟩
          · rintro (hthere | ⟨hname, hinterval, device', hmem, hwilling', huuid⟩)
            · rw [hnone] at hthere
              cases hthere
            · rcases List.mem_cons.mp hmem with heq | hmem
              · obtain rfl := (Prod.mk.inj heq).2
                rw [hinterval.symm, huuid]
                exact .inl rfl
              · exact .inr ⟨hname, hinterval, device', hmem, hwilling', huuid⟩
        · rw [if_neg hhere]
          refine or_congr_right (and_congr_right fun hname => and_congr_right fun _ => ?_)
          refine exists_congr fun device' => ⟨?_, ?_⟩
          · rintro ⟨hmem, hrest⟩
            exact ⟨List.mem_cons_of_mem _ hmem, hrest⟩
          · rintro ⟨hmem, hwilling, huuid⟩
            rcases List.mem_cons.mp hmem with heq | hmem
            · obtain ⟨hid, rfl⟩ := Prod.mk.inj heq
              exact absurd ⟨Prod.ext hname.symm hid.symm, hwilling⟩ hhere
            · exact ⟨hmem, hwilling, huuid⟩
      · intro p hp
        rw [hstep, if_neg, hnew p (List.mem_cons_of_mem _ hp)]
        rintro ⟨heq, -⟩
        exact hfirst p hp (Prod.mk.inj heq).2

theorem fleet_distinct (fleet : Fleet) : fleet.toList.Pairwise fun p q => p.1 ≠ q.1 := by
  refine Std.TreeMap.distinct_keys_toList.imp fun h heq => h ?_
  exact Std.compare_eq_iff_eq.mpr heq

theorem wantField_iff (fleet : Fleet) (acc : KeyMap Wanted × Nat) (entry : FieldSchedule)
    (hnew : ∀ id : DeviceId, acc.1[(entry.name, id)]? = none) (key : Key) (want : Wanted) :
    (wantField fleet acc entry).1[key]? = some want ↔
      acc.1[key]? = some want ∨ Wants [entry] fleet key want := by
  obtain ⟨name, interval⟩ := entry
  unfold wantField Wants
  cases interval with
  | none => simp
  | some interval =>
      dsimp only
      rw [foldl_wantOn name interval (fleet_distinct fleet) acc (fun p _ => hnew p.1) key want]
      refine or_congr_right ?_
      rw [List.mem_singleton, FieldSchedule.mk.injEq, Option.some.injEq, and_assoc]
      refine and_congr_right fun hname => and_congr_right fun _ => ?_
      refine exists_congr fun device => ?_
      rw [Std.TreeMap.mem_toList_iff_getElem?_eq_some, hname]

theorem wants_cons {entry : FieldSchedule} {schedule : List FieldSchedule} {fleet : Fleet}
    {key : Key} {want : Wanted} :
    Wants (entry :: schedule) fleet key want ↔
      Wants [entry] fleet key want ∨ Wants schedule fleet key want := by
  unfold Wants
  rw [List.mem_cons, List.mem_singleton, or_and_right]

theorem foldl_wantField {schedule : List FieldSchedule}
    (hnodup : (schedule.map (·.name)).Nodup) (fleet : Fleet) (acc : KeyMap Wanted × Nat)
    (hnew : ∀ entry ∈ schedule, ∀ id : DeviceId, acc.1[(entry.name, id)]? = none) (key : Key)
    (want : Wanted) :
    (schedule.foldl (wantField fleet) acc).1[key]? = some want ↔
      acc.1[key]? = some want ∨ Wants schedule fleet key want := by
  induction schedule generalizing acc with
  | nil => simp [Wants]
  | cons entry schedule ih =>
      obtain ⟨hentry, hnodup⟩ := List.nodup_cons.mp hnodup
      have hstep := wantField_iff fleet acc entry (hnew entry List.mem_cons_self)
      rw [List.foldl_cons, ih hnodup, hstep, or_assoc, ← wants_cons]
      intro other hother id
      -- no other entry is about this field
      refine Option.eq_none_iff_forall_ne_some.mpr fun w hw => ?_
      rcases (hstep _ w).mp hw with hthere | ⟨hmem, -⟩
      · rw [hnew other (List.mem_cons_of_mem _ hother) id] at hthere
        cases hthere
      · have hname : other.name = entry.name := congrArg (·.name) (List.mem_singleton.mp hmem)
        exact hentry (List.mem_map.mpr ⟨other, hother, hname⟩)

/-- **What is wanted** of a schedule that names no field twice. -/
theorem wantedLoops_iff {schedule : List FieldSchedule}
    (hnodup : (schedule.map (·.name)).Nodup) (fleet : Fleet) (key : Key) (want : Wanted) :
    (wantedLoops schedule fleet).1[key]? = some want ↔ Wants schedule fleet key want := by
  unfold wantedLoops
  rw [foldl_wantField hnodup fleet _ fun _ _ _ => by simp]
  simp

/-! ## One visit -/

/-- Count what was done to one pair. -/
def Change.count (change : Change) : Action → Change
  | .leave => change
  | .start => { change with started := change.started + 1 }
  | .stop => { change with stopped := change.stopped + 1 }
  | .retime => { change with retimed := change.retimed + 1 }
  | .rebind => { change with rebound := change.rebound + 1 }

/-- What is running for a pair, as far as it is compared. -/
def Loops.current (loops : Loops) (key : Key) : Option Wanted :=
  loops.running[key]?.map Running.wanted

/-- What a pair is like that an action is for. -/
def Action.For (current want : Option Wanted) : Action → Prop
  | .leave => current = want
  | .start => current = none ∧ ∃ next, want = some next
  | .stop => (∃ now, current = some now) ∧ want = none
  | .retime => ∃ now next, current = some now ∧ want = some next ∧
      now.device = next.device ∧ now.interval ≠ next.interval
  | .rebind => ∃ now next, current = some now ∧ want = some next ∧ now.device ≠ next.device

/-- The diff decides every pair by one of the five. -/
theorem act_eq_iff {current want : Option Wanted} (action : Action) :
    act current want = action ↔ action.For current want := by
  cases current with
  | none => cases want <;> cases action <;> simp [act, Action.For]
  | some now =>
      cases want with
      | none => cases action <;> simp [act, Action.For]
      | some next =>
          obtain ⟨interval, device⟩ := now
          obtain ⟨interval', device'⟩ := next
          by_cases hdevice : device = device'
          · by_cases hinterval : interval = interval'
            · cases action <;> simp [act, Action.For, hdevice, hinterval]
            · cases action <;> simp [act, Action.For, hdevice, hinterval]
          · cases action <;> simp [act, Action.For, hdevice]

theorem act_leave_iff {current want : Option Wanted} :
    act current want = .leave ↔ current = want := act_eq_iff .leave

/-- Stop what runs for a pair, and start what is wanted for it. -/
def Loops.replace (wanted : KeyMap Wanted) (fleet : Fleet) (loops : Loops) (key : Key) : Loops :=
  match wanted[key]?, fleet[key.2]? with
  | some want, some device => (loops.stop key).start key device want
  | _, _ => loops.stop key

section Visit

variable {wanted : KeyMap Wanted} {fleet : Fleet}

/-- What is wanted is wanted of a device in the fleet. -/
def Met (wanted : KeyMap Wanted) (fleet : Fleet) : Prop :=
  ∀ (key : Key) (want : Wanted), wanted[key]? = some want → ∃ device, fleet[key.2]? = some device

theorem stop_of_none {loops : Loops} {key : Key} (h : loops.running[key]? = none) :
    loops.stop key = loops := by
  unfold Loops.stop
  rw [h]

/-- A visit leaves a pair that is as wanted, and replaces what runs for any other. -/
theorem visit_eq (hmet : Met wanted fleet) (loops : Loops) (change : Change) (key : Key) :
    Loops.visit wanted fleet (loops, change) key =
      (if loops.current key = wanted[key]? then loops else loops.replace wanted fleet key,
        change.count (act (loops.current key) wanted[key]?)) := by
  unfold Loops.visit Loops.replace Loops.current
  dsimp only
  cases hrunning : loops.running[key]? with
  | none =>
      cases hwanted : wanted[key]? with
      | none => rfl
      | some want =>
          obtain ⟨device, hdevice⟩ := hmet key want hwanted
          rw [hdevice, stop_of_none hrunning]
          rfl
  | some running =>
      cases hwanted : wanted[key]? with
      | none => rfl
      | some want =>
          obtain ⟨device, hdevice⟩ := hmet key want hwanted
          rw [hdevice]
          obtain ⟨interval, uuid, cancel⟩ := running
          obtain ⟨interval', uuid'⟩ := want
          by_cases huuid : uuid = uuid'
          · by_cases hinterval : interval = interval'
            · subst huuid hinterval
              simp [act, Running.wanted, Change.count]
            · simp [act, Running.wanted, Change.count, huuid, hinterval]
          · simp [act, Running.wanted, Change.count, huuid]

theorem stop_running (loops : Loops) (key k : Key) :
    (loops.stop key).running[k]? = if key = k then none else loops.running[k]? := by
  unfold Loops.stop
  cases hrunning : loops.running[key]? with
  | none =>
      by_cases hk : key = k
      · rw [if_pos hk, ← hk]
        exact hrunning
      · rw [if_neg hk]
  | some running => exact getElem?_erase ..

theorem stop_made (loops : Loops) (key : Key) : (loops.stop key).made = loops.made := by
  unfold Loops.stop
  split
  · rfl
  · rfl

/-- The token of the loop a pair has. -/
def Loops.token (loops : Loops) (key : Key) : Option Token := loops.running[key]?.map (·.cancel)

theorem stop_canceled (loops : Loops) (key : Key) :
    (loops.stop key).canceled = loops.canceled ++ (loops.token key).toList := by
  unfold Loops.stop Loops.token
  cases loops.running[key]? with
  | none => exact (List.append_nil _).symm
  | some running => rfl

theorem replace_running (hmet : Met wanted fleet) (loops : Loops) (key k : Key) :
    (loops.replace wanted fleet key).running[k]? =
      if key = k then wanted[key]?.map fun want => ⟨want.interval, want.device, loops.made⟩
      else loops.running[k]? := by
  unfold Loops.replace
  cases hwanted : wanted[key]? with
  | none => exact stop_running loops key k
  | some want =>
      obtain ⟨device, hdevice⟩ := hmet key want hwanted
      rw [hdevice]
      dsimp only [Loops.start]
      rw [getElem?_insert, stop_running, stop_made]
      split
      · rfl
      · rfl

theorem replace_canceled (loops : Loops) (key : Key) :
    (loops.replace wanted fleet key).canceled = loops.canceled ++ (loops.token key).toList := by
  unfold Loops.replace
  split
  · exact stop_canceled loops key
  · exact stop_canceled loops key

theorem replace_made (loops : Loops) (key : Key) :
    loops.made ≤ (loops.replace wanted fleet key).made := by
  unfold Loops.replace
  split
  · exact (stop_made loops key).ge.trans (Nat.le_succ _)
  · exact (stop_made loops key).ge

theorem stop_tasks (loops : Loops) (key : Key) : (loops.stop key).tasks = loops.tasks := by
  unfold Loops.stop
  split
  · rfl
  · rfl

theorem stop_registry (loops : Loops) (key : Key) :
    (loops.stop key).registry = loops.registry := by
  unfold Loops.stop
  split
  · rfl
  · rfl

theorem replace_registry (loops : Loops) (key : Key) :
    (loops.replace wanted fleet key).registry = loops.registry := by
  unfold Loops.replace
  split
  · exact stop_registry loops key
  · exact stop_registry loops key

theorem replace_tasks (loops : Loops) (key : Key) {task : PollLoop} (h : task ∈ loops.tasks) :
    task ∈ (loops.replace wanted fleet key).tasks := by
  have hstop : task ∈ (loops.stop key).tasks := stop_tasks loops key ▸ h
  unfold Loops.replace
  split
  · exact List.mem_append_left _ hstop
  · exact hstop

/-- A pair that something is wanted for has its task. -/
theorem replace_spawned (hmet : Met wanted fleet) (loops : Loops) {key : Key} {want : Wanted}
    (hwanted : wanted[key]? = some want) : ∃ device, fleet[key.2]? = some device ∧
      ⟨device, key.1, want.interval, loops.made⟩ ∈ (loops.replace wanted fleet key).tasks := by
  obtain ⟨device, hdevice⟩ := hmet key want hwanted
  refine ⟨device, hdevice, ?_⟩
  unfold Loops.replace
  rw [hwanted, hdevice]
  dsimp only [Loops.start]
  rw [stop_made]
  exact List.mem_append_right _ List.mem_cons_self

/-! ## A pass over the pairs -/

/-- What a loop is filed as, under its token. -/
def Wanted.under (want : Wanted) (token : Token) : Running := ⟨want.interval, want.device, token⟩

/-- What a pass over `keys` leaves of the loops it began with. -/
structure Passed (wanted : KeyMap Wanted) (fleet : Fleet) (loops : Loops) (keys : List Key)
    (after : Loops) : Prop where
  registry : after.registry = loops.registry
  made : loops.made ≤ after.made
  tasks : ∀ task ∈ loops.tasks, task ∈ after.tasks
  kept : ∀ key, key ∉ keys ∨ loops.current key = wanted[key]? →
    after.running[key]? = loops.running[key]?
  set : ∀ key ∈ keys, loops.current key ≠ wanted[key]? → ∃ token, loops.made ≤ token ∧
    after.running[key]? = wanted[key]?.map (·.under token) ∧
    ∀ want, wanted[key]? = some want → ∃ device, fleet[key.2]? = some device ∧
      ⟨device, key.1, want.interval, token⟩ ∈ after.tasks

theorem current_congr {loops loops' : Loops} {key : Key}
    (h : loops'.running[key]? = loops.running[key]?) : loops'.current key = loops.current key := by
  unfold Loops.current
  rw [h]

theorem passed_one (hmet : Met wanted fleet) (loops : Loops) (key : Key) :
    Passed wanted fleet loops [key]
      (if loops.current key = wanted[key]? then loops else loops.replace wanted fleet key) := by
  by_cases hright : loops.current key = wanted[key]?
  · rw [if_pos hright]
    refine ⟨rfl, Nat.le_refl _, fun _ h => h, fun _ _ => rfl, ?_⟩
    intro k hk hwrong
    rw [List.mem_singleton.mp hk] at hwrong
    exact absurd hright hwrong
  · rw [if_neg hright]
    refine ⟨replace_registry loops key, replace_made loops key,
      fun _ => replace_tasks loops key, ?_, ?_⟩
    · intro k hk
      have hne : key ≠ k := by
        rintro rfl
        exact hk.elim (fun hnot => hnot List.mem_cons_self) hright
      rw [replace_running hmet, if_neg hne]
    · intro k hk _
      obtain rfl := List.mem_singleton.mp hk
      refine ⟨loops.made, Nat.le_refl _, ?_, fun want => replace_spawned hmet loops⟩
      rw [replace_running hmet, if_pos rfl]
      rfl

/-- A visit, and a pass over other pairs. -/
theorem Passed.cons {loops next after : Loops} {key : Key} {keys : List Key} (hkey : key ∉ keys)
    (h : Passed wanted fleet loops [key] next) (h' : Passed wanted fleet next keys after) :
    Passed wanted fleet loops (key :: keys) after := by
  refine ⟨h'.registry.trans h.registry, h.made.trans h'.made,
    fun task htask => h'.tasks task (h.tasks task htask), ?_, ?_⟩
  · intro k hk
    have hfirst : next.running[k]? = loops.running[k]? := by
      refine h.kept k (hk.imp_left fun hnot hmem => hnot ?_)
      exact List.mem_cons.mpr (.inl (List.mem_singleton.mp hmem))
    refine (h'.kept k ?_).trans hfirst
    rw [current_congr hfirst]
    exact hk.imp_left fun hnot hmem => hnot (List.mem_cons_of_mem _ hmem)
  · intro k hk hwrong
    by_cases hsame : k = key
    · subst hsame
      obtain ⟨token, hnew, hrunning, hspawned⟩ := h.set k List.mem_cons_self hwrong
      refine ⟨token, hnew, (h'.kept k (.inl hkey)).trans hrunning, ?_⟩
      intro want hwant
      obtain ⟨device, hdevice, htask⟩ := hspawned want hwant
      exact ⟨device, hdevice, h'.tasks _ htask⟩
    · have hfirst : next.running[k]? = loops.running[k]? :=
        h.kept k (.inl fun hmem => hsame (List.mem_singleton.mp hmem))
      rw [← current_congr hfirst] at hwrong
      obtain ⟨token, hnew, hrest⟩ := h'.set k ((List.mem_cons.mp hk).resolve_left hsame) hwrong
      exact ⟨token, h.made.trans hnew, hrest⟩

theorem passed (hmet : Met wanted fleet) {keys : List Key} (hnodup : keys.Nodup) (loops : Loops)
    (change : Change) :
    Passed wanted fleet loops keys (keys.foldl (Loops.visit wanted fleet) (loops, change)).1 ∧
      (keys.foldl (Loops.visit wanted fleet) (loops, change)).2 =
        keys.foldl (fun change key => change.count (act (loops.current key) wanted[key]?))
          change := by
  induction keys generalizing loops change with
  | nil =>
      refine ⟨⟨rfl, Nat.le_refl _, fun _ h => h, fun _ _ => rfl, ?_⟩, rfl⟩
      exact fun _ h => absurd h List.not_mem_nil
  | cons key keys ih =>
      obtain ⟨hkey, hnodup⟩ := List.nodup_cons.mp hnodup
      have hone := passed_one hmet loops key
      rw [List.foldl_cons, List.foldl_cons, visit_eq hmet]
      generalize (if loops.current key = wanted[key]? then loops
        else loops.replace wanted fleet key) = next at hone
      obtain ⟨hpassed, hchange⟩ := ih hnodup next
        (change.count (act (loops.current key) wanted[key]?))
      refine ⟨hone.cons hkey hpassed, ?_⟩
      rw [hchange]
      refine List.foldl_ext _ _ _ fun change k hk => ?_
      rw [current_congr (hone.kept k (.inl fun hmem => ?_))]
      exact hkey (List.mem_singleton.mp hmem ▸ hk)

/-- A pass over pairs that are all as wanted does nothing. -/
theorem pass_right (hmet : Met wanted fleet) (keys : List Key) {loops : Loops} (change : Change)
    (h : ∀ key ∈ keys, loops.current key = wanted[key]?) :
    keys.foldl (Loops.visit wanted fleet) (loops, change) = (loops, change) := by
  induction keys with
  | nil => rfl
  | cons key keys ih =>
      have hright := h key List.mem_cons_self
      rw [List.foldl_cons, visit_eq hmet, if_pos hright, act_leave_iff.mpr hright]
      exact ih fun k hk => h k (List.mem_cons_of_mem _ hk)

end Visit

/-! ## Tokens -/

/-- Every loop in the table has a token of its own that has not been canceled. -/
structure Loops.Live (loops : Loops) : Prop where
  uncanceled : ∀ key token, loops.token key = some token → token ∉ loops.canceled
  own : ∀ key key' token, loops.token key = some token → loops.token key' = some token →
    key = key'
  earlier : ∀ key token, loops.token key = some token → token < loops.made
  canceledEarlier : ∀ token ∈ loops.canceled, token < loops.made

section Live

variable {wanted : KeyMap Wanted} {fleet : Fleet}

theorem replace_token (hmet : Met wanted fleet) {loops : Loops} {key k : Key} {token : Token}
    (h : (loops.replace wanted fleet key).token k = some token) :
    (key = k ∧ token = loops.made ∧ token < (loops.replace wanted fleet key).made) ∨
      (key ≠ k ∧ loops.token k = some token) := by
  unfold Loops.token at h
  rw [replace_running hmet] at h
  by_cases hk : key = k
  · rw [if_pos hk] at h
    cases hwanted : wanted[key]? with
    | none =>
        rw [hwanted] at h
        cases h
    | some want =>
        rw [hwanted] at h
        obtain rfl := Option.some.inj h
        refine .inl ⟨hk, rfl, ?_⟩
        obtain ⟨device, hdevice⟩ := hmet key want hwanted
        unfold Loops.replace
        rw [hwanted, hdevice]
        exact Nat.lt_succ_of_le (stop_made loops key).ge
  · rw [if_neg hk] at h
    exact .inr ⟨hk, h⟩

theorem replace_live (hmet : Met wanted fleet) {loops : Loops} (h : loops.Live) (key : Key) :
    (loops.replace wanted fleet key).Live := by
  have hmade : loops.made ≤ (loops.replace wanted fleet key).made := replace_made loops key
  refine ⟨?_, ?_, ?_, ?_⟩
  · intro k token htoken hcanceled
    rw [replace_canceled, List.mem_append, Option.mem_toList] at hcanceled
    rcases replace_token hmet htoken with ⟨rfl, rfl, -⟩ | ⟨hk, hold⟩
    · rcases hcanceled with hcanceled | hcanceled
      · exact absurd (h.canceledEarlier _ hcanceled) (lt_irrefl _)
      · exact absurd (h.earlier _ _ hcanceled) (lt_irrefl _)
    · rcases hcanceled with hcanceled | hcanceled
      · exact h.uncanceled k token hold hcanceled
      · exact hk (h.own key k token hcanceled hold)
  · intro k k' token htoken htoken'
    rcases replace_token hmet htoken with ⟨rfl, rfl, -⟩ | ⟨-, hold⟩
    · rcases replace_token hmet htoken' with ⟨hk, -, -⟩ | ⟨-, hold'⟩
      · exact hk
      · exact absurd (h.earlier _ _ hold') (lt_irrefl _)
    · rcases replace_token hmet htoken' with ⟨-, rfl, -⟩ | ⟨-, hold'⟩
      · exact absurd (h.earlier _ _ hold) (lt_irrefl _)
      · exact h.own k k' token hold hold'
  · intro k token htoken
    rcases replace_token hmet htoken with ⟨-, -, hlt⟩ | ⟨-, hold⟩
    · exact hlt
    · exact (h.earlier k token hold).trans_le hmade
  · intro token hcanceled
    rw [replace_canceled, List.mem_append, Option.mem_toList] at hcanceled
    rcases hcanceled with hcanceled | hcanceled
    · exact (h.canceledEarlier token hcanceled).trans_le hmade
    · exact (h.earlier key token hcanceled).trans_le hmade

/-- A pass cancels the tokens it takes out of the table, and puts in new ones. -/
theorem pass_live (hmet : Met wanted fleet) (keys : List Key) {loops : Loops} (change : Change)
    (h : loops.Live) : (keys.foldl (Loops.visit wanted fleet) (loops, change)).1.Live := by
  induction keys generalizing loops change with
  | nil => exact h
  | cons key keys ih =>
      rw [List.foldl_cons, visit_eq hmet]
      refine ih _ ?_
      split
      · exact h
      · exact replace_live hmet h key

end Live

/-! ## What was done -/

/-- Counting pair after pair counts the pairs of each kind. -/
theorem foldl_count (verdict : Key → Action) (keys : List Key) (change : Change) :
    keys.foldl (fun change key => change.count (verdict key)) change =
      { started := change.started + keys.countP fun key => verdict key = .start
        stopped := change.stopped + keys.countP fun key => verdict key = .stop
        retimed := change.retimed + keys.countP fun key => verdict key = .retime
        rebound := change.rebound + keys.countP fun key => verdict key = .rebind
        declined := change.declined } := by
  induction keys generalizing change with
  | nil => rfl
  | cons key keys ih =>
      rw [List.foldl_cons, ih]
      cases hverdict : verdict key with
      | leave => simp [Change.count, hverdict]
      | start => simp [Change.count, hverdict, Nat.add_assoc, Nat.add_comm 1]
      | stop => simp [Change.count, hverdict, Nat.add_assoc, Nat.add_comm 1]
      | retime => simp [Change.count, hverdict, Nat.add_assoc, Nat.add_comm 1]
      | rebind => simp [Change.count, hverdict, Nat.add_assoc, Nat.add_comm 1]

/-- Among pairs listed once, those of a kind that are all listed. -/
theorem countP_eq_ncard {keys : List Key} (hnodup : keys.Nodup) {p : Key → Prop}
    [DecidablePred p] (hall : ∀ key, p key → key ∈ keys) :
    keys.countP (fun key => p key) = {key | p key}.ncard := by
  have hset : {key | p key} = ↑(keys.filter fun key => p key).toFinset := by
    ext key
    simp only [Set.mem_ofPred_eq, List.coe_toFinset, List.mem_filter, decide_eq_true_eq]
    exact (and_iff_right_of_imp (hall key)).symm
  rw [hset, Set.ncard_coe_finset, List.toFinset_card_of_nodup (hnodup.filter _),
    List.countP_eq_length_filter]

/-! ## One pass, and another -/

theorem mem_named {loops : Loops} {wanted : KeyMap Wanted} {key : Key} :
    key ∈ loops.named wanted ↔ (wanted[key]?).isSome ∨ (loops.running[key]?).isSome := by
  unfold Loops.named
  rw [Std.TreeSet.mem_toList, Std.TreeSet.mem_ofList, List.contains_iff_mem, List.mem_append,
    Std.TreeMap.mem_keys, Std.TreeMap.mem_keys, Std.TreeMap.mem_iff_isSome_getElem?,
    Std.TreeMap.mem_iff_isSome_getElem?]

/-- A pair that is not as wanted is named by one side. -/
theorem named_of_wrong {loops : Loops} {wanted : KeyMap Wanted} {key : Key}
    (h : loops.current key ≠ wanted[key]?) : key ∈ loops.named wanted := by
  by_contra hnot
  rw [mem_named, not_or, Option.not_isSome_iff_eq_none, Option.not_isSome_iff_eq_none] at hnot
  refine h ?_
  unfold Loops.current
  rw [hnot.1, hnot.2]
  rfl

theorem named_nodup (loops : Loops) (wanted : KeyMap Wanted) : (loops.named wanted).Nodup := by
  refine Std.TreeSet.distinct_toList.imp fun h heq => h ?_
  exact Std.LawfulEqCmp.compare_eq_iff_eq.mpr heq

/-- What a pass over the loops comes to. -/
structure Converged (loops : Loops) (schedule : List FieldSchedule) (after : Loops)
    (change : Change) : Prop where
  /-- What is wanted runs, at its interval and against its device, and nothing else does. -/
  exact : ∀ key want, after.current key = some want ↔ Wants schedule loops.fleet key want
  /-- What was right has the entry and the token it had. -/
  untouched : ∀ (key : Key) running, loops.running[key]? = some running →
    Wants schedule loops.fleet key running.wanted → after.running[key]? = some running
  /-- What was not has been started. -/
  spawned : ∀ (key : Key) running, after.running[key]? = some running →
    loops.running[key]? ≠ some running →
    loops.made ≤ running.cancel ∧ ∃ device, loops.fleet[key.2]? = some device ∧
      ⟨device, key.1, running.interval, running.cancel⟩ ∈ after.tasks
  live : loops.Live → after.Live
  started : change.started =
    {key | loops.current key = none ∧ ∃ want, Wants schedule loops.fleet key want}.ncard
  stopped : change.stopped =
    {key | (∃ now, loops.current key = some now) ∧
      ∀ want, ¬ Wants schedule loops.fleet key want}.ncard
  retimed : change.retimed =
    {key | ∃ now want, loops.current key = some now ∧ Wants schedule loops.fleet key want ∧
      now.device = want.device ∧ now.interval ≠ want.interval}.ncard
  rebound : change.rebound =
    {key | ∃ now want, loops.current key = some now ∧ Wants schedule loops.fleet key want ∧
      now.device ≠ want.device}.ncard

section Pass

variable {wanted : KeyMap Wanted} {fleet : Fleet}

/-- Every pair that is not left alone is visited. -/
theorem ncard_of_action {loops : Loops} {action : Action} (h : action ≠ .leave) :
    (loops.named wanted).countP (fun key => act (loops.current key) wanted[key]? = action) =
      {key | action.For (loops.current key) wanted[key]?}.ncard := by
  have hall : ∀ key, action.For (loops.current key) wanted[key]? → key ∈ loops.named wanted := by
    intro key hfor
    refine named_of_wrong fun hright => h ?_
    rw [← (act_eq_iff action).mpr hfor]
    exact act_leave_iff.mpr hright
  have hcount := countP_eq_ncard (named_nodup loops wanted)
    (p := fun key => act (loops.current key) wanted[key]? = action)
    fun key hkey => hall key ((act_eq_iff action).mp hkey)
  rw [hcount]
  exact congrArg Set.ncard (Set.ext fun key => act_eq_iff action)

end Pass

/-- A pass over every pair that either side names. -/
def Loops.pass (loops : Loops) (wanted : KeyMap Wanted) (declined : Nat) : Loops × Change :=
  (loops.named wanted).foldl (Loops.visit wanted loops.fleet) (loops, ⟨0, 0, 0, 0, declined⟩)

/-- The tasks that have ended, collected. -/
def Loops.reap (loops : Loops) (ended : List Token) : Loops :=
  { loops with tasks := loops.tasks.filter fun task => task.cancel ∉ ended }

theorem reconcile_eq (loops : Loops) (ended : List Token) (schedule : List FieldSchedule) :
    loops.reconcile ended schedule = (loops.reap ended).pass (wantedLoops schedule loops.fleet).1
      (wantedLoops schedule loops.fleet).2 := rfl

section Pass

variable {loops : Loops} {schedule : List FieldSchedule} {wanted : KeyMap Wanted}

theorem fleet_congr {loops' : Loops} (h : loops'.registry = loops.registry) :
    loops'.fleet = loops.fleet := by
  unfold Loops.fleet
  rw [h]

/-- What is wanted is there to be polled. -/
theorem met_of_wants {fleet : Fleet}
    (hwants : ∀ key want, wanted[key]? = some want ↔ Wants schedule fleet key want) :
    Met wanted fleet := by
  intro key want hwant
  obtain ⟨-, device, hdevice, -⟩ := (hwants key want).mp hwant
  exact ⟨device, hdevice⟩

theorem pass_passed (hmet : Met wanted loops.fleet) (declined : Nat) :
    Passed wanted loops.fleet loops (loops.named wanted) (loops.pass wanted declined).1 :=
  (passed hmet (named_nodup loops wanted) loops _).1

theorem pass_change (hmet : Met wanted loops.fleet) (declined : Nat) :
    (loops.pass wanted declined).2 =
      { started := {key | Action.start.For (loops.current key) wanted[key]?}.ncard
        stopped := {key | Action.stop.For (loops.current key) wanted[key]?}.ncard
        retimed := {key | Action.retime.For (loops.current key) wanted[key]?}.ncard
        rebound := {key | Action.rebind.For (loops.current key) wanted[key]?}.ncard
        declined := declined } := by
  have hchange := (passed hmet (named_nodup loops wanted) loops ⟨0, 0, 0, 0, declined⟩).2
  refine hchange.trans ?_
  rw [foldl_count, ← ncard_of_action (by decide), ← ncard_of_action (by decide),
    ← ncard_of_action (by decide), ← ncard_of_action (by decide)]
  simp only [Nat.zero_add]

/-- A pass leaves the table as it is wanted. -/
theorem pass_current (hmet : Met wanted loops.fleet) (declined : Nat) (key : Key) :
    (loops.pass wanted declined).1.current key = wanted[key]? := by
  have hpassed := pass_passed hmet declined
  by_cases hright : loops.current key = wanted[key]?
  · rw [← hright]
    exact current_congr (hpassed.kept key (.inr hright))
  · obtain ⟨token, -, hset, -⟩ := hpassed.set key (named_of_wrong hright) hright
    have hsame : (Running.wanted ∘ fun want : Wanted => want.under token) = id := rfl
    unfold Loops.current
    rw [hset, Option.map_map, hsame, Option.map_id]
    rfl

/-- **One pass** brings the loops to what is wanted. -/
theorem pass_converges (loops : Loops)
    (hwants : ∀ key want, wanted[key]? = some want ↔ Wants schedule loops.fleet key want)
    (declined : Nat) :
    Converged loops schedule (loops.pass wanted declined).1 (loops.pass wanted declined).2 := by
  have hmet := met_of_wants hwants
  have hpassed := pass_passed hmet declined
  have hright : ∀ (key : Key) running, loops.running[key]? = some running →
      Wants schedule loops.fleet key running.wanted → loops.current key = wanted[key]? := by
    intro key running hrunning hwant
    unfold Loops.current
    rw [hrunning, (hwants key running.wanted).mpr hwant]
    rfl
  refine ⟨?_, ?_, ?_, fun hlive => pass_live hmet _ _ hlive, ?_, ?_, ?_, ?_⟩
  · intro key want
    rw [pass_current hmet, hwants]
  · intro key running hrunning hwant
    exact (hpassed.kept key (.inr (hright key running hrunning hwant))).trans hrunning
  · intro key running hrunning hnew
    have hwrong : loops.current key ≠ wanted[key]? := by
      intro hsame
      exact hnew ((hpassed.kept key (.inr hsame)).symm.trans hrunning)
    obtain ⟨token, hmade, hset, hspawned⟩ := hpassed.set key (named_of_wrong hwrong) hwrong
    rw [hset] at hrunning
    obtain ⟨want, hwant, rfl⟩ := Option.map_eq_some_iff.mp hrunning
    exact ⟨hmade, hspawned want hwant⟩
  · rw [pass_change hmet]
    simp only [Action.For, hwants]
  · rw [pass_change hmet]
    simp only [Action.For, Option.eq_none_iff_forall_ne_some, ne_eq, hwants]
  · rw [pass_change hmet]
    simp only [Action.For, hwants]
  · rw [pass_change hmet]
    simp only [Action.For, hwants]

end Pass

/--
**Reconciliation converges.** Whatever is running, whatever the fleet and whatever a schedule
that names no field twice: after one pass exactly what is wanted runs, what was right is
untouched, the counts are those of the pairs in each case, and another pass does nothing.
-/
theorem reconcile_converges (loops : Loops) (ended : List Token) {schedule : List FieldSchedule}
    (hnodup : (schedule.map (·.name)).Nodup) :
    Converged loops schedule (loops.reconcile ended schedule).1
        (loops.reconcile ended schedule).2 ∧
      ∀ ended', (loops.reconcile ended schedule).1.reconcile ended' schedule =
        ((loops.reconcile ended schedule).1.reap ended',
          ⟨0, 0, 0, 0, (loops.reconcile ended schedule).2.declined⟩) := by
  have hwants := wantedLoops_iff hnodup loops.fleet
  have hmet : Met (wantedLoops schedule loops.fleet).1 (loops.reap ended).fleet :=
    met_of_wants hwants
  refine ⟨?_, ?_⟩
  · have h := pass_converges (loops.reap ended) hwants (wantedLoops schedule loops.fleet).2
    exact ⟨h.exact, h.untouched, h.spawned, fun hlive => h.live ⟨hlive.uncanceled, hlive.own,
      hlive.earlier, hlive.canceledEarlier⟩, h.started, h.stopped, h.retimed, h.rebound⟩
  · intro ended'
    have hfleet : (loops.reconcile ended schedule).1.fleet = loops.fleet :=
      fleet_congr (pass_passed hmet (wantedLoops schedule loops.fleet).2).registry
    have hdeclined : (loops.reconcile ended schedule).2.declined =
        (wantedLoops schedule loops.fleet).2 := by
      rw [reconcile_eq, pass_change hmet]
    rw [reconcile_eq (loops.reconcile ended schedule).1, hfleet, hdeclined]
    refine pass_right ?_ _ _ ?_
    · exact fun key want hwant => hfleet ▸ hmet key want hwant
    · intro key _
      exact pass_current hmet (wantedLoops schedule loops.fleet).2 key

theorem untitled_host : "10.0.0.1".utf8ByteSize < 2 ^ 63 := by decide

theorem untitled_username : "admin".utf8ByteSize < 2 ^ 63 := by decide

theorem untitled_password : "extron".utf8ByteSize < 2 ^ 63 := by decide

/-- A recorder that declines its title. -/
def untitled : DeviceConfig where
  uuid := Uuid.nil
  id := "a"
  host := ⟨"10.0.0.1", untitled_host⟩
  port := 22023
  username := ⟨"admin", untitled_username⟩
  password := ⟨"extron", untitled_password⟩
  connectTimeout := 5000000000
  exchangeTimeout := 3000000000
  eager := false
  sisKeepalive := none
  eagerRetry := none
  coldBackoff := none
  disabledFields := OrderedSet.ofList ["TITLE"]
  autoDisableAfter := 2
  selfHeal := none

def idleLoops : Loops := ⟨⟨[⟨0, untitled⟩], [], 1⟩, [], ∅, [], 0⟩

def twoFields : List FieldSchedule :=
  [⟨"FIRMWARE", some 30000000000⟩, ⟨"TITLE", some 30000000000⟩, ⟨"TIMEZONE", none⟩]

/-- Of three scheduled fields, the one that is declined and the one that is never due are not
polled. -/
theorem reconcile_converges_idle :
    (idleLoops.reconcile [] twoFields).1.current ("FIRMWARE", "a") =
        some ⟨30000000000, Uuid.nil⟩ ∧
      (idleLoops.reconcile [] twoFields).1.current ("TITLE", "a") = none ∧
      (idleLoops.reconcile [] twoFields).1.current ("TIMEZONE", "a") = none := by
  have hconverged := (@reconcile_converges idleLoops [] twoFields (by decide)).1
  have hdevice : idleLoops.fleet["a"]? = some ⟨0, untitled⟩ := by
    unfold Loops.fleet
    exact Std.TreeMap.getElem?_insert_self
  refine ⟨?_, ?_, ?_⟩
  · exact (hconverged.exact _ _).mpr ⟨by decide, _, hdevice, by decide, rfl⟩
  · refine Option.eq_none_iff_forall_ne_some.mpr fun want hwant => ?_
    obtain ⟨-, device, hthere, hwilling, -⟩ := (hconverged.exact _ _).mp hwant
    rw [hdevice] at hthere
    obtain rfl := Option.some.inj hthere
    exact hwilling (by decide)
  · refine Option.eq_none_iff_forall_ne_some.mpr fun want hwant => ?_
    obtain ⟨hscheduled, -⟩ := (hconverged.exact _ _).mp hwant
    simp [twoFields] at hscheduled

end Sismatic.Sync
