import Sismatic.Proof.PollLoops
import Sismatic.Server.Reconcile

/-!
# What the fleet reconciler owns

Its two rosters are never out of step with themselves: whatever is registered and whenever, a
task that was started is the one its device has or has been told to stop, once. With the
registry they are in step whenever the reconciler has woken up and come to rest.

Before it wakes for the first time it may be behind. The generation is marked after the tasks
have been built, so a change announced in between is not applied until another one is.
-/

namespace Sismatic.Server

open Devices IntentRelay

/-! ## One application -/

theorem reconcile_makes {i : Tasks} {registry : Devices.Registry} {own own' : Handles}
    (hdoes : Does i registry own own') : Right i registry own' := by
  cases i with
  | relay =>
      obtain rfl := hdoes
      exact Rosters.apply_applied.exact
  | keepalive =>
      obtain rfl := hdoes
      exact Rosters.apply_applied.exact

theorem reconcile_keeps {i j : Tasks} {registry : Devices.Registry} {own own' : Handles}
    (hdoes : Does i registry own own') (hright : Right j registry own) :
    Right j registry own' := by
  by_cases hsame : i = j
  · obtain rfl := hsame
    exact reconcile_makes hdoes
  · cases i with
    | relay =>
        obtain rfl := hdoes
        cases j with
        | relay => exact absurd rfl hsame
        | keepalive => exact hright
    | keepalive =>
        obtain rfl := hdoes
        cases j with
        | relay => exact hright
        | keepalive => exact absurd rfl hsame

/--
**One application** starts what is missing, stops what is stale, and leaves the rest alone, of
the relay's tasks and the keepalive's alike. What it reports is how many of each there were, and
applying the same devices again does nothing.
-/
theorem tasks_applied (own : Handles) (registry : Devices.Registry) :
    (Rosters.Applied Devices.Device.uuid (byId registry.devices) own.relay
        (RelayHandle.apply own.relay registry).1 (RelayHandle.apply own.relay registry).2 ∧
      RelayHandle.apply (RelayHandle.apply own.relay registry).1 registry =
        ((RelayHandle.apply own.relay registry).1, ⟨0, 0, 0, (byId registry.devices).size⟩)) ∧
      Rosters.Applied Devices.Device.uuid
          (byId (registry.devices.filter fun device => device.config.eager)) own.keepalive
          (SisKeepalive.apply own.keepalive registry.devices).1
          (SisKeepalive.apply own.keepalive registry.devices).2 ∧
        SisKeepalive.apply (SisKeepalive.apply own.keepalive registry.devices).1
            registry.devices =
          ((SisKeepalive.apply own.keepalive registry.devices).1, ⟨0, 0, 0,
            (byId (registry.devices.filter fun device => device.config.eager)).size⟩) := by
  refine ⟨⟨Rosters.apply_applied, ?_⟩, Rosters.apply_applied, ?_⟩
  · exact Rosters.apply_same Rosters.apply_applied.exact
  · exact Rosters.apply_same Rosters.apply_applied.exact

theorem about_all (c : Wakes) (i : Tasks) : reconcile.About c i := by
  cases i with
  | relay => exact ⟨applyRelay, by simp [reconcile, regenerated], rfl⟩
  | keepalive => exact ⟨applyKeepalive, by simp [reconcile, regenerated], rfl⟩

theorem reconcile_lawful : reconcile.Lawful where
  sound := by
    intro c
    refine ⟨?_, ?_, ⟨?_, ?_, ?_, ?_, trivial⟩⟩
    · intro c hc i _
      cases i with
      | relay => exact .inr ⟨applyRelay, by simp, rfl⟩
      | keepalive => exact .inr ⟨applyKeepalive, by simp, rfl⟩
    · exact fun i _ j hspoils => hspoils.elim
    · intro c hc
      cases hc
    · exact fun i _ j hspoils => hspoils.elim
    · intro c hc
      cases hc
    · exact fun i _ j hspoils => hspoils.elim
  moves := fun c _ _ _ i habout _ _ => absurd (about_all c i) habout
  publishes := fun _ _ _ hpublishes => hpublishes.elim
  makes := fun _ _ _ _ hdoes => reconcile_makes hdoes
  keeps := fun _ _ _ _ hdoes _ _ hright => reconcile_keeps hdoes hright

theorem reconcile_able (i : Tasks) (registry : Devices.Registry) (own : Handles) :
    ∃ own', reconcile.Does i registry own own' := by
  cases i <;> exact ⟨_, rfl⟩

/-! ## No task is left behind -/

/-- Both rosters account for every task. -/
structure Accounted (own : Handles) : Prop where
  relay : Rosters.Sound Devices.Device.uuid own.relay
  keepalive : Rosters.Sound Devices.Device.uuid own.keepalive

theorem accounted_does {i : Tasks} {registry : Devices.Registry} {own own' : Handles}
    (hdoes : Does i registry own own') (h : Accounted own) : Accounted own' := by
  cases i with
  | relay =>
      obtain rfl := hdoes
      exact ⟨Rosters.sound_apply h.relay, h.keepalive⟩
  | keepalive =>
      obtain rfl := hdoes
      exact ⟨h.relay, Rosters.sound_apply h.keepalive⟩

theorem accounted_step {s s' : Watch.State Wakes Tasks Devices.Registry Handles}
    (hstep : reconcile.Step s s') (h : Accounted s.own) : Accounted s'.own := by
  rcases hstep with hothers | hown
  · cases hothers <;> exact h
  · cases hown with
    | wake => exact h
    | deafen => exact h
    | chore chore chores own hnext hdone =>
        cases hpart : chore.part with
        | none =>
            rw [hpart] at hdone
            obtain rfl := hdone
            exact h
        | some i =>
            rw [hpart] at hdone
            exact accounted_does hdone h

/--
**No task is left behind.** Whatever devices come, go and are replaced, and whenever the
reconciler looks: a task ever started, for the relay or to keep a connection warm, is the one
its device has, or has been told to stop, and that once. The one a device has was started for
a device of the configuration it is filed under.
-/
theorem tasks_accounted {start s : Watch.State Wakes Tasks Devices.Registry Handles}
    (hstart : Starts start) (hrun : Relation.ReflTransGen reconcile.Step start s) :
    Accounted s.own := by
  induction hrun with
  | refl =>
      refine ⟨?_, ?_⟩
      · rw [hstart.relay]
        exact Rosters.sound_empty
      · rw [hstart.keepalive]
        exact Rosters.sound_empty
  | tail _ hstep ih => exact accounted_step hstep ih

/-! ## In step with the registry -/

/-- Nothing has been announced or is to be: what has been built is as the registry has it. -/
structure Still (start s : Watch.State Wakes Tasks Devices.Registry Handles) : Prop where
  grown : start.version .generation ≤ s.version .generation
  right : s.version .generation + s.unannounced .generation = start.version .generation →
    ∀ i, Right i s.source s.own ∨ Watch.Covers s.chores i

theorem still_step {start s s' : Watch.State Wakes Tasks Devices.Registry Handles}
    (hstep : Watch.Scheme.Asleep reconcile s s') (h : Still start s) : Still start s' := by
  obtain ⟨hgrown, hright⟩ := h
  obtain ⟨hstep, hasleep⟩ := hstep
  rcases hstep with hothers | hown
  · cases hothers with
    | move c registry hopen hmoves =>
        cases c
        refine ⟨hgrown, fun hnone => ?_⟩
        dsimp only at hnone
        rw [Function.update_self] at hnone
        omega
    | announce c hmoved =>
        cases c
        refine ⟨?_, fun hnone => hright ?_⟩
        · dsimp only
          rw [Function.update_self]
          omega
        · dsimp only at hnone
          rw [Function.update_self, Function.update_self] at hnone
          omega
    | publish c registry hopen hpublishes => exact hpublishes.elim
    | close c hnone => exact ⟨hgrown, hright⟩
  · refine ⟨?_, ?_⟩
    · cases hown <;> exact hgrown
    · cases hown with
      | wake c hidle =>
          refine absurd ⟨hidle, ?_⟩ hasleep
          exact List.cons_ne_nil _ _
      | deafen => exact hright
      | chore chore chores own hnext hdone =>
          intro hnone i
          rw [hnext] at hright
          by_cases hpart : chore.part = some i
          · rw [hpart] at hdone
            exact .inl (reconcile_makes hdone)
          · rcases hright hnone i with hright | hcovers
            · cases hmade : chore.part with
              | none =>
                  rw [hmade] at hdone
                  obtain rfl := hdone
                  exact .inl hright
              | some j =>
                  rw [hmade] at hdone
                  exact .inl (reconcile_keeps hdone hright)
            · exact .inr ((Watch.covers_cons.mp hcovers).resolve_left hpart)

theorem still_run {start s : Watch.State Wakes Tasks Devices.Registry Handles}
    (hstart : Starts start)
    (hrun : Relation.ReflTransGen (Watch.Scheme.Asleep reconcile) start s) : Still start s := by
  induction hrun with
  | refl =>
      refine ⟨Nat.le_refl _, fun _ i => .inr ?_⟩
      rw [hstart.chores]
      cases i with
      | relay => exact ⟨applyRelay, by simp [building], rfl⟩
      | keepalive => exact ⟨applyKeepalive, by simp [building], rfl⟩
  | tail _ hstep ih => exact still_step hstep ih

/-- While the reconciler sleeps, what it has seen is what it saw when it was built. -/
theorem looked {start s : Watch.State Wakes Tasks Devices.Registry Handles} (hstart : Starts start)
    (hrun : Relation.ReflTransGen (Watch.Scheme.Asleep reconcile) start s) :
    s.chores <:+ building ∧ (s.chores = [] →
      ∃ built, Relation.ReflTransGen (Watch.Scheme.Asleep reconcile) start built ∧
        Relation.ReflTransGen (Watch.Scheme.Asleep reconcile) built s ∧ built.chores ≠ [] ∧
          built.version .generation = s.seen .generation) := by
  induction hrun with
  | refl =>
      refine ⟨hstart.chores ▸ List.suffix_refl _, fun hidle => ?_⟩
      rw [hstart.chores] at hidle
      cases hidle
  | @tail t t' hrun hstep ih =>
      obtain ⟨hsuffix, hbuilt⟩ := ih
      have hlater : ∀ built, Relation.ReflTransGen (Watch.Scheme.Asleep reconcile) built t →
          Relation.ReflTransGen (Watch.Scheme.Asleep reconcile) built t' :=
        fun built hrun' => hrun'.tail hstep
      have hkeeps : t'.chores = t.chores → t'.seen = t.seen → t'.chores <:+ building ∧
          (t'.chores = [] →
            ∃ built, Relation.ReflTransGen (Watch.Scheme.Asleep reconcile) start built ∧
              Relation.ReflTransGen (Watch.Scheme.Asleep reconcile) built t' ∧
                built.chores ≠ [] ∧ built.version .generation = t'.seen .generation) := by
        intro hchores hseen
        rw [hchores, hseen]
        refine ⟨hsuffix, fun hidle => ?_⟩
        obtain ⟨built, hbuilding, hrun', hbusy, hsaw⟩ := hbuilt hidle
        exact ⟨built, hbuilding, hlater built hrun', hbusy, hsaw⟩
      have hwhole := hstep
      obtain ⟨hstep, hasleep⟩ := hstep
      rcases hstep with hothers | hown
      · cases hothers <;> exact hkeeps rfl rfl
      · cases hown with
        | wake c hidle =>
            refine absurd ⟨hidle, ?_⟩ hasleep
            exact List.cons_ne_nil _ _
        | deafen => exact hkeeps rfl rfl
        | chore chore chores own hnext hdone =>
            rw [hnext] at hsuffix
            refine ⟨(List.suffix_cons _ _).trans hsuffix,
              fun hidle => ⟨t, hrun, .single hwhole, ?_, ?_⟩⟩
            · rw [hnext]
              exact List.cons_ne_nil _ _
            · -- the last of what is done to build it is a look
              dsimp only at hidle
              rw [hidle] at hsuffix
              obtain ⟨before, hbefore⟩ := hsuffix
              have hlast : chore = borrowGeneration := by
                have hlasts := congrArg List.getLast? hbefore
                rw [List.getLast?_append] at hlasts
                exact Option.some.inj hlasts
              rw [hlast]
              exact (Function.update_self Wakes.generation (t.version .generation) t.seen).symm

/-- The relay is applied once on the way. -/
theorem once_built {chore : Watch.Chore Wakes Tasks} {chores : List (Watch.Chore Wakes Tasks)}
    (hsuffix : chore :: chores <:+ building) (hpart : chore.part = some .relay) :
    ¬ Watch.Covers chores .relay := by
  simp only [building, List.suffix_cons_iff, List.suffix_nil, List.cons.injEq] at hsuffix
  rcases hsuffix with ⟨rfl, -⟩ | ⟨-, rfl⟩ | ⟨rfl, -⟩ | ⟨rfl, -⟩ | h
  · cases hpart
  · rintro ⟨later, hmem, hlater⟩
    simp at hmem
    subst hmem
    cases hlater
  · cases hpart
  · cases hpart
  · cases h

/-- Until it wakes it has told no task of the relay to stop: it applies the devices once. -/
theorem unstopped {start s : Watch.State Wakes Tasks Devices.Registry Handles}
    (hstart : Starts start)
    (hrun : Relation.ReflTransGen (Watch.Scheme.Asleep reconcile) start s) :
    s.own.relay.stopped = [] ∧
      (Watch.Covers s.chores .relay → s.own.relay = Rosters.Roster.empty) := by
  induction hrun with
  | refl =>
      rw [hstart.relay]
      exact ⟨rfl, fun _ => rfl⟩
  | @tail t t' hrun hstep ih =>
      obtain ⟨hnone, hbuilding⟩ := ih
      have hsuffix := (looked hstart hrun).1
      obtain ⟨hstep, hasleep⟩ := hstep
      rcases hstep with hothers | hown
      · cases hothers <;> exact ⟨hnone, hbuilding⟩
      · cases hown with
        | wake c hidle =>
            refine absurd ⟨hidle, ?_⟩ hasleep
            exact List.cons_ne_nil _ _
        | deafen => exact ⟨hnone, hbuilding⟩
        | chore chore chores own hnext hdone =>
            rw [hnext] at hbuilding hsuffix
            cases hpart : chore.part with
            | none =>
                rw [hpart] at hdone
                obtain rfl := hdone
                exact ⟨hnone, fun hcovers => hbuilding (Watch.covers_cons.mpr (.inr hcovers))⟩
            | some i =>
                rw [hpart] at hdone
                cases i with
                | keepalive =>
                    obtain rfl := hdone
                    exact ⟨hnone, fun hcovers =>
                      hbuilding (Watch.covers_cons.mpr (.inr hcovers))⟩
                | relay =>
                    obtain rfl := hdone
                    -- the one time it is applied, it is applied to nothing
                    have hempty := hbuilding (Watch.covers_cons.mpr (.inl hpart))
                    refine ⟨?_, fun hcovers => ?_⟩
                    · dsimp only
                      rw [hempty]
                      exact Rosters.apply_empty_stopped
                    · exact absurd hcovers (once_built hsuffix hpart)

/-- The reconciler has not woken yet, and a change was announced while it was being built. -/
structure Missed (start s : Watch.State Wakes Tasks Devices.Registry Handles) : Prop where
  asleep : Relation.ReflTransGen (Watch.Scheme.Asleep reconcile) start s
  announced : ∃ built, Relation.ReflTransGen (Watch.Scheme.Asleep reconcile) start built ∧
    Relation.ReflTransGen (Watch.Scheme.Asleep reconcile) built s ∧ built.chores ≠ [] ∧
      start.version .generation < built.version .generation

/--
**The reconciler keeps up**, from the first time it wakes. However devices came and went while
it was built and at its work, once every change has been announced it takes at most nine steps
more, and then each registered device has one relay task and each eager one a keepalive, for
the configuration it has now, and no other device has any; unless it has not woken yet, and a
change was announced while it was being built.
-/
theorem reconciler_keeps_up {start s : Watch.State Wakes Tasks Devices.Registry Handles}
    (hstart : Starts start) (hrun : Relation.ReflTransGen reconcile.Step start s)
    (hannounced : ∀ c, s.unannounced c = 0) :
    (∃ n s', Watch.Scheme.Steps reconcile n s s' ∧ ∀ s'', ¬ reconcile.Own s' s'') ∧
      ∀ n s', Watch.Scheme.Steps reconcile n s s' → n ≤ 9 ∧
        ((∀ s'', ¬ reconcile.Own s' s'') →
          (Kept s'.own.relay s.source.devices ∧
            Kept s'.own.keepalive (s.source.devices.filter fun device => device.config.eager)) ∨
          Missed start s') := by
  have htidy : Watch.Scheme.Tidy start :=
    Watch.Scheme.tidy_of_open hstart.behind hstart.opened hstart.watching
  have hchores : s.chores.length ≤ 4 := by
    refine Watch.Scheme.length_chores (fun _ => Nat.le_succ 3) ?_ hrun
    rw [hstart.chores]
    exact Nat.le_refl 4
  refine ⟨Watch.Scheme.exists_stuck s, fun n s' hsteps => ⟨?_, fun hstuck => ?_⟩⟩
  · have hlength := Watch.Scheme.length_le_weight hsteps
    have hweight : Watch.Scheme.weight reconcile s ≤ 4 + 1 * (3 + 2) :=
      Watch.Scheme.weight_le (fun _ => Nat.le_refl 3) hchores
    omega
  · obtain ⟨hsource, -, hmoved⟩ := Watch.Scheme.source_steps hsteps
    have hall : Relation.ReflTransGen reconcile.Step start s' :=
      hrun.trans (Watch.Scheme.run_of_steps hsteps)
    have htidy' := Watch.Scheme.tidy_run htidy hall
    have hnone : ∀ c, s'.unannounced c = 0 := fun c => (congrFun hmoved c).trans (hannounced c)
    obtain ⟨hidle, hseen⟩ := Watch.Scheme.rest_of_stuck reconcile_able htidy' hstuck
    rcases Watch.Scheme.asleep_or_inv reconcile_lawful about_all htidy hall with hasleep | hinv
    · obtain ⟨hgrown, hright⟩ := still_run hstart hasleep
      rcases Nat.lt_or_eq_of_le hgrown with hlt | heq
      · obtain ⟨built, hbuilding, hsince, hbusy, hsaw⟩ := (looked hstart hasleep).2 hidle
        refine .inr ⟨hasleep, built, hbuilding, hsince, hbusy, ?_⟩
        rw [hsaw, hseen]
        exact hlt
      · have hright := hright (by rw [hnone, heq, Nat.add_zero])
        rw [hidle, hsource] at hright
        have hdone : ∀ i, Right i s.source s'.own := by
          intro i
          refine (hright i).resolve_right fun hcovers => ?_
          obtain ⟨_, hmem, -⟩ := hcovers
          cases hmem
        exact .inl ⟨hdone .relay, hdone .keepalive⟩
    · have hright := Watch.Scheme.right_of_rest hinv hidle hseen hnone
      rw [hsource] at hright
      exact .inl ⟨hright .relay, hright .keepalive⟩

/-! ## A recorder that is removed in between -/

/-- One eager recorder registered. -/
def oneRecorder : Devices.Registry := ⟨[⟨0, { Sync.untitled with eager := true }⟩], [], 1⟩

/-- The process is about to build what the reconciler will own. -/
def aboutToBuild : Watch.State Wakes Tasks Devices.Registry Handles where
  source := oneRecorder
  own := ⟨Rosters.Roster.empty, Rosters.Roster.empty⟩
  chores := building
  version := fun _ => 0
  seen := fun _ => 0
  unannounced := fun _ => 0
  closed := fun _ => false
  watching := fun _ => true

theorem aboutToBuild_starts : Starts aboutToBuild :=
  ⟨rfl, rfl, rfl, fun _ => le_rfl, fun _ => rfl, fun _ => rfl, fun _ => rfl⟩

theorem oneRecorder_byId : (byId oneRecorder.devices)["a"]? =
    some ⟨0, { Sync.untitled with eager := true }⟩ := by
  unfold byId
  exact Std.TreeMap.getElem?_insert_self

/-- The recorder under another configuration, and one beside it that is not kept warm. -/
def replaced : Devices.Resolved :=
  ⟨[{ Sync.untitled with uuid := ⟨Vector.replicate 16 1⟩, eager := true },
    { Sync.untitled with id := "b" }], []⟩

/-- The relay's task is the one recorder's, and the two that replace it have been announced. -/
structure Announced (s : Watch.State Wakes Tasks Devices.Registry Handles) : Prop where
  source : s.source = (oneRecorder.apply replaced).1
  relay : s.own.relay = RelayHandle.spawn oneRecorder
  idle : s.chores = []
  watching : ∀ c, s.watching c = true
  opened : ∀ c, s.closed c = false
  unseen : s.seen .generation ≠ s.version .generation
  announced : ∀ c, s.unannounced c = 0

theorem aboutToBuild_replaced :
    ∃ s, Relation.ReflTransGen reconcile.Step aboutToBuild s ∧ Announced s := by
  have hrun : Relation.ReflTransGen reconcile.Step aboutToBuild _ :=
    .trans (.tail (.tail (.tail (.single
      (.inr (.chore aboutToBuild applyKeepalive _ _ rfl rfl)))
      (.inr (.chore _ applyRelay _ _ rfl rfl)))
      (.inr (.chore _ borrowGeneration _ _ rfl rfl)))
      (.inr (.chore _ borrowGeneration _ _ rfl rfl)))
      (Watch.Scheme.run_of_moves rfl (c := .generation) ⟨replaced, rfl⟩)
  exact ⟨_, hrun, rfl, rfl, rfl, fun _ => rfl, fun _ => rfl, by decide, fun _ => rfl⟩

/-- The recorder's task is replaced, and the other one gets its own. -/
theorem reconciler_keeps_up_replaced : ∃ s s',
    Relation.ReflTransGen reconcile.Step aboutToBuild s ∧
      s.source = (oneRecorder.apply replaced).1 ∧ Watch.Scheme.Steps reconcile 4 s s' ∧
        Kept s'.own.relay s.source.devices ∧
          Kept s'.own.keepalive (s.source.devices.filter fun device => device.config.eager) ∧
            s'.own.relay.stopped = [0] := by
  obtain ⟨s, hrun, hs⟩ := aboutToBuild_replaced
  have hsteps : Watch.Scheme.Steps reconcile 4 s _ :=
    .tail (.tail (.tail (.tail (.refl s)
      (.wake s Wakes.generation hs.idle (hs.watching _) hs.unseen))
      (.chore _ borrowGeneration _ _ rfl rfl))
      (.chore _ applyRelay _ _ rfl rfl))
      (.chore _ applyKeepalive _ _ rfl rfl)
  have hstopped : (RelayHandle.apply s.own.relay s.source).1.stopped = [0] := by
    rw [hs.relay, hs.source]
    decide +kernel
  refine ⟨s, _, hrun, hs.source, hsteps, ?_⟩
  have hkept := ((reconciler_keeps_up aboutToBuild_starts hrun hs.announced).2 4 _ hsteps).2 ?_
  · rcases hkept with ⟨hrelay, hkeepalive⟩ | ⟨hasleep, -⟩
    · exact ⟨hrelay, hkeepalive, hstopped⟩
    · -- a reconciler that has not woken has told no task to stop
      have hnone := (unstopped aboutToBuild_starts hasleep).1
      dsimp only at hnone
      rw [hstopped] at hnone
      cases hnone
  · exact Watch.Scheme.stuck_of_rest rfl (fun _ => rfl) hs.opened

/-- Its tasks are accounted for while they are being started. -/
theorem tasks_accounted_built : ∃ s, Relation.ReflTransGen reconcile.Step aboutToBuild s ∧
    s.own.keepalive.running.size = 1 ∧ Accounted s.own := by
  have hrun : Relation.ReflTransGen reconcile.Step aboutToBuild _ :=
    .single (.inr (.chore aboutToBuild applyKeepalive _ _ rfl rfl))
  exact ⟨_, hrun, by decide, tasks_accounted aboutToBuild_starts hrun⟩

/-- A recorder that is removed after its tasks were started, and before the generation was
looked at, keeps them: all is announced, and the reconciler has nothing to do. -/
theorem removal_missed : ∃ s, Relation.ReflTransGen reconcile.Step aboutToBuild s ∧
    (∀ c, s.unannounced c = 0) ∧ (∀ s', ¬ reconcile.Own s s') ∧
      ¬ Kept s.own.relay s.source.devices := by
  have hrun : Relation.ReflTransGen reconcile.Step aboutToBuild _ :=
    .tail (.tail (.trans (.tail (.single
      (.inr (.chore aboutToBuild applyKeepalive _ _ rfl rfl)))
      (.inr (.chore _ applyRelay _ _ rfl rfl)))
      (Watch.Scheme.run_of_moves rfl (c := .generation) ⟨⟨[], []⟩, rfl⟩))
      (.inr (.chore _ borrowGeneration _ _ rfl rfl)))
      (.inr (.chore _ borrowGeneration _ _ rfl rfl))
  refine ⟨_, hrun, ?_, ?_, ?_⟩
  · intro c
    cases c
    rfl
  · exact Watch.Scheme.stuck_of_rest rfl (fun _ => rfl) fun _ => rfl
  · intro hkept
    have hspawned : ((RelayHandle.spawn oneRecorder).running["a"]?).map Rosters.Task.version =
        some Uuid.nil := (Rosters.apply_applied.exact "a").trans
      (congrArg (Option.map Devices.Device.uuid) oneRecorder_byId)
    have hgone : ((byId (oneRecorder.apply ⟨[], []⟩).1.devices)["a"]?).map
      Devices.Device.uuid = none := rfl
    exact Option.some_ne_none _ (hspawned.symm.trans ((hkept "a").trans hgone))

end Sismatic.Server
