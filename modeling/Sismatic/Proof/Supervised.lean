import Sismatic.Proof.PollLoops
import Sismatic.Sync.Supervisor

/-!
# Nothing published passes the supervisor by

Schedules are published and devices come and go while the supervisor is at its work. However
the steps of all fall, once the others are done it has a bounded number of steps before it, and
then what runs is what the last schedule asks of the devices last registered. A loop that all
of them ask for runs on through it, under the token it was started with.
-/

namespace Sismatic.Sync

open Devices
open Sismatic.Configuration (FieldSchedule)

/-! ## What is wanted is there -/

theorem met_wantOn {fleet : Fleet} {name : FieldName} {interval : Duration}
    {acc : KeyMap Wanted × Nat} (hmet : Met acc.1 fleet) {device : DeviceId × Devices.Device}
    (hthere : fleet[device.1]? = some device.2) :
    Met (wantOn name interval acc device).1 fleet := by
  intro key want hwant
  unfold wantOn at hwant
  split at hwant
  · exact hmet key want hwant
  · rw [getElem?_insert] at hwant
    split at hwant
    · rename_i heq
      exact ⟨device.2, heq ▸ hthere⟩
    · exact hmet key want hwant

theorem met_wantField {fleet : Fleet} {acc : KeyMap Wanted × Nat} (hmet : Met acc.1 fleet)
    (entry : FieldSchedule) : Met (wantField fleet acc entry).1 fleet := by
  unfold wantField
  cases entry.interval with
  | none => exact hmet
  | some interval =>
      dsimp only
      have hthere : ∀ device ∈ fleet.toList, fleet[device.1]? = some device.2 := by
        intro device hmem
        exact Std.TreeMap.mem_toList_iff_getElem?_eq_some.mp hmem
      revert hthere
      induction fleet.toList generalizing acc with
      | nil => exact fun _ => hmet
      | cons device devices ih =>
          intro hthere
          refine ih (met_wantOn hmet (hthere device List.mem_cons_self)) ?_
          exact fun device' hmem => hthere device' (List.mem_cons_of_mem _ hmem)

/-- Whatever the schedule, what it asks for is asked of a device of the fleet. -/
theorem met_wantedLoops (schedule : List FieldSchedule) (fleet : Fleet) :
    Met (wantedLoops schedule fleet).1 fleet := by
  have hfold : ∀ (acc : KeyMap Wanted × Nat), Met acc.1 fleet →
      Met (schedule.foldl (wantField fleet) acc).1 fleet := by
    induction schedule with
    | nil => exact fun acc hmet => hmet
    | cons entry schedule ih => exact fun acc hmet => ih _ (met_wantField hmet entry)
  refine hfold (∅, 0) ?_
  intro key want hwant
  simp at hwant

/-- One pass makes the loops match, whatever the schedule, and leaves the registry alone. -/
theorem reconcile_matches (loops : Loops) (registry : Devices.Registry) (ended : List Token)
    (schedule : List FieldSchedule) :
    Matches schedule registry ((loops.over registry).reconcile ended schedule).1 := by
  have hmet : Met (wantedLoops schedule (loops.over registry).fleet).1
      ((loops.over registry).reap ended).fleet := met_wantedLoops schedule _
  intro key
  exact pass_current hmet (wantedLoops schedule (loops.over registry).fleet).2 key

/-! ## The supervisor keeps up -/

/-- A schedule wakes the supervisor to take it up and to apply it, the fleet to apply the one in
force. -/
theorem supervise_lawful : supervise.Lawful where
  sound := by
    intro c
    cases c with
    | fields =>
        refine ⟨?_, ?_, ?_, ?_, trivial⟩
        · intro c hc i habout
          cases i with
          | schedule => exact .inl rfl
          | loops => exact .inr ⟨reconcileLoops, List.mem_cons_self, rfl⟩
        · intro i _ j hspoils
          cases j with
          | schedule => cases i <;> exact hspoils.elim
          | loops => exact ⟨reconcileLoops, List.mem_cons_self, rfl⟩
        · intro c hc
          cases hc
        · intro i hi j hspoils
          cases hi
          cases j <;> exact hspoils.elim
    | fleet =>
        refine ⟨?_, ?_, ?_, ?_, trivial⟩
        · intro c hc i habout
          cases hc
          obtain ⟨chore, hmem, hpart⟩ := habout
          rcases List.mem_cons.mp hmem with rfl | hmem
          · cases hpart
          · exact .inr ⟨chore, hmem, hpart⟩
        · intro i hi
          cases hi
        · intro c hc
          cases hc
        · intro i hi j hspoils
          cases hi
          cases j <;> exact hspoils.elim
  moves := by
    intro c p p' hmoves i habout own hright
    cases c with
    | fields => exact hmoves.elim
    | fleet =>
        obtain ⟨resolved, rfl⟩ := hmoves
        cases i with
        | schedule => exact hright
        | loops => exact absurd ⟨reconcileLoops, by simp [supervise, woken], rfl⟩ habout
  publishes := by
    intro c p p' hpublishes i habout own hright
    cases c with
    | fleet => exact hpublishes.elim
    | fields =>
        obtain ⟨fields, rfl⟩ := hpublishes
        cases i with
        | schedule => exact absurd ⟨borrowFields, by simp [supervise, woken], rfl⟩ habout
        | loops => exact hright
  makes := by
    intro i p own own' hdoes
    cases i with
    | schedule =>
        obtain rfl := hdoes
        rfl
    | loops =>
        obtain ⟨ended, rfl⟩ := hdoes
        exact reconcile_matches own.loops p.registry ended own.schedule
  keeps := by
    intro i p own own' hdoes j hspoils hright
    cases i with
    | schedule =>
        obtain rfl := hdoes
        cases j with
        | schedule => rfl
        | loops => exact absurd trivial hspoils
    | loops =>
        cases j with
        | schedule =>
            obtain ⟨ended, rfl⟩ := hdoes
            exact hright
        | loops =>
            obtain ⟨ended, rfl⟩ := hdoes
            exact reconcile_matches own.loops p.registry ended own.schedule

theorem supervise_able (i : Kept) (p : Published) (own : Supervisor) :
    ∃ own', supervise.Does i p own own' := by
  cases i with
  | schedule => exact ⟨_, rfl⟩
  | loops => exact ⟨_, [], rfl⟩

theorem length_woken (c : Channel) : (supervise.work c).length ≤ 2 := by
  cases c <;> exact Nat.le_refl 2

theorem starting_sound : supervise.Sound starting := by
  refine ⟨?_, ?_, ?_, ?_, ?_, ?_, trivial⟩
  · intro c _ i _
    cases i with
    | schedule => exact .inl rfl
    | loops => exact .inr ⟨reconcileLoops, by simp, rfl⟩
  · intro i _ j hspoils
    cases j with
    | schedule => cases i <;> exact hspoils.elim
    | loops => exact ⟨reconcileLoops, by simp, rfl⟩
  · intro c hc i habout
    cases hc
    obtain ⟨chore, hmem, hpart⟩ := habout
    rcases List.mem_cons.mp hmem with rfl | hmem
    · cases hpart
    · exact .inr ⟨chore, hmem, hpart⟩
  · intro i hi
    cases hi
  · intro c hc
    cases hc
  · intro i hi j hspoils
    cases hi
    cases j <;> exact hspoils.elim

theorem inv_of_starts {s : Watch.State Channel Kept Published Supervisor} (h : Starts s) :
    supervise.Inv s := by
  refine Watch.Scheme.inv_of_covers (Watch.Scheme.tidy_of_open h.behind h.opened h.watching) ?_ ?_
  · rw [h.chores]
    exact starting_sound
  · intro i
    rw [h.chores]
    cases i with
    | schedule => exact ⟨borrowFields, List.mem_cons_self, rfl⟩
    | loops => exact ⟨reconcileLoops, by simp [starting], rfl⟩

/--
**The supervisor keeps up.** However schedules were published and devices came and went while
it was at its work, once what was moved has been announced it takes at most eleven steps more,
and then what runs is what the schedule last published asks of the devices now registered.
-/
theorem supervisor_keeps_up {start s : Watch.State Channel Kept Published Supervisor}
    (hstart : Starts start) (hrun : Relation.ReflTransGen supervise.Step start s)
    (hannounced : ∀ c, s.unannounced c = 0) :
    (∃ n s', Watch.Scheme.Steps supervise n s s' ∧ ∀ s'', ¬ supervise.Own s' s'') ∧
      ∀ n s', Watch.Scheme.Steps supervise n s s' → n ≤ 11 ∧
        ((∀ s'', ¬ supervise.Own s' s'') → s'.own.schedule = s.source.fields ∧
          Matches s.source.fields s.source.registry s'.own.loops) := by
  have hinv := Watch.Scheme.inv_run supervise_lawful (inv_of_starts hstart) hrun
  obtain ⟨hends, hcatches⟩ :=
    Watch.Scheme.catches_up supervise_lawful supervise_able hinv hannounced
  have hchores : s.chores.length ≤ 3 := by
    refine Watch.Scheme.length_chores (fun c => (length_woken c).trans (Nat.le_succ 2)) ?_ hrun
    rw [hstart.chores]
    exact Nat.le_refl 3
  refine ⟨hends, fun n s' hsteps => ?_⟩
  obtain ⟨hbound, hright⟩ := hcatches n s' hsteps
  refine ⟨hbound.trans (Watch.Scheme.weight_le length_woken hchores), fun hstuck => ?_⟩
  have hschedule : s'.own.schedule = s.source.fields := hright hstuck .schedule
  have hloops : Matches s'.own.schedule s.source.registry s'.own.loops := hright hstuck .loops
  refine ⟨hschedule, ?_⟩
  rw [← hschedule]
  exact hloops

/-- The schedule published and the devices registered ask for this loop. -/
structure AskedFor (key : Key) (want : Wanted) (p : Published) : Prop where
  distinct : (p.fields.map (·.name)).Nodup
  wanted : Wants p.fields (fleetOf p.registry) key want

/-- A supervisor of one recorder that is about to be told of two fields. -/
def aboutToRun : Watch.State Channel Kept Published Supervisor where
  source := ⟨twoFields, idleLoops.registry⟩
  own := ⟨[], idleLoops⟩
  chores := starting
  version := fun _ => 0
  seen := fun _ => 0
  unannounced := fun _ => 0
  closed := fun _ => false
  watching := fun _ => true

theorem aboutToRun_starts : Starts aboutToRun :=
  ⟨rfl, rfl, rfl, fun _ => le_rfl, fun _ => rfl, fun _ => rfl⟩

theorem idleLoops_fleet : (fleetOf idleLoops.registry)["a"]? = some ⟨0, untitled⟩ := by
  unfold fleetOf
  exact Std.TreeMap.getElem?_insert_self

theorem aboutToRun_asked :
    AskedFor ("FIRMWARE", "a") ⟨30000000000, Uuid.nil⟩ aboutToRun.source :=
  ⟨by decide, by decide, ⟨0, untitled⟩, idleLoops_fleet, by decide, rfl⟩

/-- The field that is due, half as often. -/
def slower : List FieldSchedule := [⟨"FIRMWARE", some 60000000000⟩]

/-- A recorder like the first. -/
def besides : DeviceConfig := { untitled with id := "b" }

/-- The document with both. -/
def bothRecorders : Devices.Resolved := ⟨[untitled, besides], []⟩

/-- What the others come to while the supervisor starts. -/
def interrupted : Published := ⟨slower, (idleLoops.registry.apply bothRecorders).1⟩

theorem interrupted_asked :
    AskedFor ("FIRMWARE", "b") ⟨60000000000, Uuid.nil⟩ interrupted := by
  have hdevices : interrupted.registry.devices = [⟨1, besides⟩, ⟨0, untitled⟩] := by
    decide +kernel
  refine ⟨by decide, by decide, ⟨1, besides⟩, ?_, by decide, rfl⟩
  unfold fleetOf
  rw [hdevices, List.foldl_cons, List.foldl_cons, List.foldl_nil, Std.TreeMap.getElem?_insert]
  exact Std.TreeMap.getElem?_insert_self

/-- A schedule is published when the supervisor has read the one before, and a recorder is added
before it has looked at the fleet, and announced when it has started its loops. -/
theorem aboutToRun_interrupted : ∃ s, Relation.ReflTransGen supervise.Step aboutToRun s ∧
    (∀ c, s.unannounced c = 0) ∧ s.source = interrupted := by
  have hrun : Relation.ReflTransGen supervise.Step aboutToRun _ :=
    .tail (.tail (.tail (.tail (.tail (.single
      (.inr (.chore aboutToRun borrowFields _ _ rfl rfl)))
      (.inl (.publish _ Channel.fields ⟨slower, idleLoops.registry⟩ rfl ⟨slower, rfl⟩)))
      (.inl (.move _ Channel.fleet interrupted rfl ⟨bothRecorders, rfl⟩)))
      (.inr (.chore _ borrowFleet _ _ rfl rfl)))
      (.inr (.chore _ reconcileLoops _ _ rfl ⟨[], rfl⟩)))
      (.inl (.announce _ Channel.fleet Nat.one_pos))
  refine ⟨_, hrun, ?_, rfl⟩
  intro c
  cases c with
  | fields => rfl
  | fleet => rfl

/-- It comes to poll the recorder that was added as the new schedule has it. -/
theorem supervisor_keeps_up_interrupted : ∃ s n s',
    Relation.ReflTransGen supervise.Step aboutToRun s ∧ s.source = interrupted ∧
      Watch.Scheme.Steps supervise n s s' ∧ n ≤ 11 ∧
        s'.own.loops.current ("FIRMWARE", "b") = some ⟨60000000000, Uuid.nil⟩ := by
  obtain ⟨s, hrun, hannounced, hsource⟩ := aboutToRun_interrupted
  obtain ⟨⟨n, s', hsteps, hstuck⟩, hcatches⟩ :=
    supervisor_keeps_up aboutToRun_starts hrun hannounced
  obtain ⟨hbound, hmatches⟩ := hcatches n s' hsteps
  obtain ⟨hdistinct, hwanted⟩ := interrupted_asked
  refine ⟨s, n, s', hrun, hsource, hsteps, hbound, ?_⟩
  have hexact := (hmatches hstuck).2 ("FIRMWARE", "b")
  rw [hsource] at hexact
  exact hexact.trans ((wantedLoops_iff hdistinct _ _ _).mpr hwanted)

/-! ## A loop that is asked for throughout -/

/-- A step to where the loop is still asked for. -/
def StepsOn (key : Key) (want : Wanted) (s s' : Watch.State Channel Kept Published Supervisor) :
    Prop :=
  supervise.Step s s' ∧ AskedFor key want s'.source

/-- The schedule in force asks for the loop, and one that runs is the one it asks for. -/
structure InForce (key : Key) (want : Wanted) (own : Supervisor) : Prop where
  distinct : (own.schedule.map (·.name)).Nodup
  scheduled : ⟨key.1, some want.interval⟩ ∈ own.schedule
  wanted : ∀ running, own.loops.running[key]? = some running → running.wanted = want

/-- What the supervisor keeps is in force, or it has kept nothing yet. -/
structure Following (key : Key) (want : Wanted)
    (s : Watch.State Channel Kept Published Supervisor) : Prop where
  live : s.own.loops.Live
  inForce : (s.chores = starting ∧ s.own.loops.running = ∅) ∨ InForce key want s.own

/-- The loop that runs for the pair runs on. -/
def RunsOn (key : Key) (own own' : Supervisor) : Prop :=
  ∀ running, own.loops.running[key]? = some running → own'.loops.running[key]? = some running

theorem following_of_starts {key : Key} {want : Wanted}
    {s : Watch.State Channel Kept Published Supervisor} (h : Starts s) : Following key want s := by
  refine ⟨?_, .inl ⟨h.chores, h.nothing⟩⟩
  have htoken : ∀ key, s.own.loops.token key = none := by
    intro key
    unfold Loops.token
    rw [h.nothing]
    rfl
  refine ⟨?_, ?_, ?_, ?_⟩
  · intro key token hkey
    rw [htoken] at hkey
    cases hkey
  · intro key key' token hkey
    rw [htoken] at hkey
    cases hkey
  · intro key token hkey
    rw [htoken] at hkey
    cases hkey
  · intro token hcanceled
    rw [h.uncanceled] at hcanceled
    cases hcanceled

/-- A pass with a schedule that asks for the loop leaves it be, or starts it. -/
theorem inForce_reconcile {key : Key} {want : Wanted} {p : Published} {own : Supervisor}
    (hasked : AskedFor key want p) (h : InForce key want own) (hlive : own.loops.Live)
    (ended : List Token) :
    let own' : Supervisor :=
      { own with loops := ((own.loops.over p.registry).reconcile ended own.schedule).1 }
    RunsOn key own own' ∧ InForce key want own' ∧ own'.loops.Live := by
  obtain ⟨hdistinct, hscheduled, hwanted⟩ := h
  obtain ⟨-, hthere⟩ := hasked.wanted
  have hwants : Wants own.schedule (fleetOf p.registry) key want := ⟨hscheduled, hthere⟩
  have hconverged := pass_converges ((own.loops.over p.registry).reap ended)
    (wantedLoops_iff hdistinct (fleetOf p.registry))
    (wantedLoops own.schedule (fleetOf p.registry)).2
  intro own'
  refine ⟨?_, ⟨hdistinct, hscheduled, ?_⟩, ?_⟩
  · intro running hrunning
    refine hconverged.untouched key running hrunning ?_
    rw [hwanted running hrunning]
    exact hwants
  · intro running hrunning
    have hcurrent : own'.loops.current key = some want := (hconverged.exact key want).mpr hwants
    unfold Loops.current at hcurrent
    rw [hrunning] at hcurrent
    exact Option.some.inj hcurrent
  · exact hconverged.live ⟨hlive.uncanceled, hlive.own, hlive.earlier, hlive.canceledEarlier⟩

/-- Every chore but the first is done with a schedule in force. -/
theorem inForce_of_chore {key : Key} {want : Wanted}
    {s : Watch.State Channel Kept Published Supervisor} (h : Following key want s)
    {chore : Watch.Chore Channel Kept} {chores : List (Watch.Chore Channel Kept)}
    (hnext : s.chores = chore :: chores) :
    (chore = borrowFields ∧ s.own.loops.running = ∅) ∨ InForce key want s.own := by
  rcases h.inForce with ⟨hstarting, hnothing⟩ | hinForce
  · rw [hstarting] at hnext
    exact .inl ⟨(List.cons.inj hnext).1.symm, hnothing⟩
  · exact .inr hinForce

/-- One step leaves the loop be, as long as the loop is asked for. -/
theorem following_step {key : Key} {want : Wanted}
    {s s' : Watch.State Channel Kept Published Supervisor} (hasked : AskedFor key want s.source)
    (hstep : supervise.Step s s') (h : Following key want s) :
    RunsOn key s.own s'.own ∧ Following key want s' := by
  rcases hstep with hothers | hown
  · cases hothers <;> exact ⟨fun _ hrunning => hrunning, h.live, h.inForce⟩
  · cases hown with
    | wake c hidle hwatching hunseen =>
        refine ⟨fun _ hrunning => hrunning, h.live, .inr ?_⟩
        rcases h.inForce with ⟨hstarting, -⟩ | hinForce
        · rw [hidle] at hstarting
          cases hstarting
        · exact hinForce
    | deafen => exact ⟨fun _ hrunning => hrunning, h.live, h.inForce⟩
    | chore chore chores own hnext hdone =>
        have hfirst := inForce_of_chore h hnext
        cases hpart : chore.part with
        | none =>
            rw [hpart] at hdone
            obtain rfl := hdone
            rcases hfirst with ⟨rfl, -⟩ | hinForce
            · cases hpart
            · exact ⟨fun _ hrunning => hrunning, h.live, .inr hinForce⟩
        | some i =>
            rw [hpart] at hdone
            cases i with
            | schedule =>
                obtain rfl := hdone
                refine ⟨fun _ hrunning => hrunning, h.live, .inr ?_⟩
                refine ⟨hasked.distinct, hasked.wanted.1, ?_⟩
                intro running hrunning
                rcases hfirst with ⟨-, hnothing⟩ | hinForce
                · rw [hnothing] at hrunning
                  cases hrunning
                · exact hinForce.wanted running hrunning
            | loops =>
                obtain ⟨ended, rfl⟩ := hdone
                rcases hfirst with ⟨rfl, -⟩ | hinForce
                · cases hpart
                · obtain ⟨hon, hinForce', hlive⟩ := inForce_reconcile hasked hinForce h.live ended
                  exact ⟨hon, hlive, .inr hinForce'⟩

theorem following_run {key : Key} {want : Wanted}
    {s s' : Watch.State Channel Kept Published Supervisor} (hasked : AskedFor key want s.source)
    (hrun : Relation.ReflTransGen (StepsOn key want) s s') (h : Following key want s) :
    RunsOn key s.own s'.own ∧ Following key want s' ∧ AskedFor key want s'.source := by
  induction hrun with
  | refl => exact ⟨fun _ hrunning => hrunning, h, hasked⟩
  | tail _ hstep ih =>
      obtain ⟨hon, hfollowing, hasked'⟩ := ih
      obtain ⟨hon', hfollowing'⟩ := following_step hasked' hstep.1 hfollowing
      exact ⟨fun running hrunning => hon' running (hon running hrunning), hfollowing', hstep.2⟩

/--
**A loop that is asked for throughout is never touched.** As long as every schedule published
and every set of devices registered asks for a loop, it is started once and left under the
token it was started with, which nobody cancels, whatever else is started and stopped.
-/
theorem loop_undisturbed {key : Key} {want : Wanted}
    {start s s' : Watch.State Channel Kept Published Supervisor} (hstart : Starts start)
    (hasked : AskedFor key want start.source)
    (hrun : Relation.ReflTransGen (StepsOn key want) start s)
    (hrun' : Relation.ReflTransGen (StepsOn key want) s s') {running : Running}
    (hrunning : s.own.loops.running[key]? = some running) :
    running.wanted = want ∧ s'.own.loops.running[key]? = some running ∧
      running.cancel ∉ s'.own.loops.canceled := by
  obtain ⟨-, hfollowing, hasked'⟩ := following_run hasked hrun (following_of_starts hstart)
  obtain ⟨hon, hfollowing', -⟩ := following_run hasked' hrun' hfollowing
  have hstill := hon running hrunning
  refine ⟨?_, hstill, hfollowing'.live.uncanceled key running.cancel ?_⟩
  · rcases hfollowing.inForce with ⟨-, hnothing⟩ | hinForce
    · rw [hnothing] at hrunning
      cases hrunning
    · exact hinForce.wanted running hrunning
  · unfold Loops.token
    rw [hstill]
    rfl

/-- The first schedule, with a field due that was not. -/
def oftener : List FieldSchedule :=
  [⟨"FIRMWARE", some 30000000000⟩, ⟨"TITLE", some 30000000000⟩, ⟨"TIMEZONE", some 10000000000⟩]

theorem oftener_asked :
    AskedFor ("FIRMWARE", "a") ⟨30000000000, Uuid.nil⟩ ⟨oftener, idleLoops.registry⟩ :=
  ⟨by decide, by decide, ⟨0, untitled⟩, idleLoops_fleet, by decide, rfl⟩

/-- At rest over the one recorder, with the loops of a schedule. -/
structure Resting (schedule : List FieldSchedule)
    (s : Watch.State Channel Kept Published Supervisor) : Prop where
  registry : s.source.registry = idleLoops.registry
  idle : s.chores = []
  opened : s.closed .fields = false
  watching : s.watching .fields = true
  seen : s.seen .fields = s.version .fields
  polls : Matches schedule idleLoops.registry s.own.loops

theorem aboutToRun_rests : ∃ s, Relation.ReflTransGen
    (StepsOn ("FIRMWARE", "a") ⟨30000000000, Uuid.nil⟩) aboutToRun s ∧ Resting twoFields s := by
  have hrun : Relation.ReflTransGen
      (StepsOn ("FIRMWARE", "a") ⟨30000000000, Uuid.nil⟩) aboutToRun _ :=
    .tail (.tail (.single
      ⟨.inr (.chore aboutToRun borrowFields _ _ rfl rfl), aboutToRun_asked⟩)
      ⟨.inr (.chore _ borrowFleet _ _ rfl rfl), aboutToRun_asked⟩)
      ⟨.inr (.chore _ reconcileLoops _ _ rfl ⟨[], rfl⟩), aboutToRun_asked⟩
  exact ⟨_, hrun, rfl, rfl, rfl, rfl, rfl, reconcile_matches _ _ _ _⟩

/-- The other schedule is published, and the supervisor takes it up. -/
theorem resting_publish {s : Watch.State Channel Kept Published Supervisor}
    (h : Resting twoFields s) : ∃ s', Relation.ReflTransGen
      (StepsOn ("FIRMWARE", "a") ⟨30000000000, Uuid.nil⟩) s s' ∧ Resting oftener s' := by
  have hpublishes : supervise.Publishes .fields s.source ⟨oftener, idleLoops.registry⟩ := by
    refine ⟨oftener, ?_⟩
    rw [← h.registry]
  have hunseen : s.seen .fields ≠
      Function.update s.version Channel.fields (s.version .fields + 1) .fields := by
    rw [Function.update_self, h.seen]
    omega
  have hrun : Relation.ReflTransGen
      (StepsOn ("FIRMWARE", "a") ⟨30000000000, Uuid.nil⟩) s _ :=
    .tail (.tail (.tail (.single
      ⟨.inl (.publish s Channel.fields _ h.opened hpublishes), oftener_asked⟩)
      ⟨.inr (.wake _ Channel.fields h.idle h.watching hunseen), oftener_asked⟩)
      ⟨.inr (.chore _ borrowFields _ _ rfl rfl), oftener_asked⟩)
      ⟨.inr (.chore _ reconcileLoops _ _ rfl ⟨[], rfl⟩), oftener_asked⟩
  exact ⟨_, hrun, rfl, rfl, h.opened, h.watching, rfl, reconcile_matches _ _ _ _⟩

/-- The one field that is due is polled, and the loop of another is started beside it. -/
theorem loop_undisturbed_beside :
    ∃ (s s' : Watch.State Channel Kept Published Supervisor) (running : Running),
    s.own.loops.current ("TIMEZONE", "a") = none ∧
      s'.own.loops.current ("TIMEZONE", "a") = some ⟨10000000000, Uuid.nil⟩ ∧
        s'.own.loops.running[(("FIRMWARE", "a") : Key)]? = some running ∧
          running.wanted = ⟨30000000000, Uuid.nil⟩ ∧ running.cancel ∉ s'.own.loops.canceled := by
  obtain ⟨s, hrun, hrests⟩ := aboutToRun_rests
  obtain ⟨s', hrun', hrests'⟩ := resting_publish hrests
  have hcurrent : s.own.loops.current ("FIRMWARE", "a") = some ⟨30000000000, Uuid.nil⟩ :=
    (hrests.polls _).trans ((wantedLoops_iff aboutToRun_asked.distinct _ _ _).mpr
      aboutToRun_asked.wanted)
  obtain ⟨running, hrunning, -⟩ := Option.map_eq_some_iff.mp hcurrent
  obtain ⟨hwant, hstill, huncanceled⟩ :=
    loop_undisturbed aboutToRun_starts aboutToRun_asked hrun hrun' hrunning
  refine ⟨s, s', running, ?_, ?_, hstill, hwant, huncanceled⟩
  · refine (hrests.polls _).trans (Option.eq_none_iff_forall_ne_some.mpr fun want hwant => ?_)
    obtain ⟨hscheduled, -⟩ := (wantedLoops_iff aboutToRun_asked.distinct _ _ _).mp hwant
    simp [aboutToRun, twoFields] at hscheduled
  · refine (hrests'.polls _).trans ((wantedLoops_iff oftener_asked.distinct _ _ _).mpr ?_)
    exact ⟨by decide, ⟨0, untitled⟩, idleLoops_fleet, by decide, rfl⟩

end Sismatic.Sync
