import Sismatic.Lib.Run
import Sismatic.Proof.Frame
import Sismatic.Proof.Rewritten
import Sismatic.Proof.Traffic
import Sismatic.StoreMemory.Clock

/-!
# Settings over a run

Patches and reloads come one after another, with the store and the outbox at work between them.
What is in force stays in the form a file resolves to, so the document that is served can be sent
back at any time and changes nothing; and what enforces a setting enforces the one in force,
for neither the store nor the outbox moves its own limit.
-/

namespace Sismatic

/-! ## The limits are not moved by use -/

namespace MemoryOutbox

theorem submit_maxAttempts (o : MemoryOutbox) (s : Submission) :
    (o.submit s).1.maxAttempts = o.maxAttempts := by
  unfold submit
  split
  · rfl
  split
  · rfl
  split
  · rfl
  split
  · rfl
  · rename_i rows _
    have hexpect : ∀ o : MemoryOutbox, (expectGroup s o).maxAttempts = o.maxAttempts := by
      intro o
      unfold expectGroup
      split
      · rfl
      · rfl
    have hrows := congrArg Prod.snd (foldl_appendRow_beside s o rows)
    have harm := congrArg Prod.snd (armBatch_beside s (expectGroup s (rows.foldl (appendRow s) o)))
    exact (harm.trans (hexpect _)).trans hrows

/-- **No call moves the limit on attempts.** -/
theorem step_maxAttempts (c : Chrono) (o : MemoryOutbox) (op : Op) :
    (step c o op).maxAttempts = o.maxAttempts := by
  by_cases hsubmit : ∃ s, op = .submit s
  · obtain ⟨s, rfl⟩ := hsubmit
    exact submit_maxAttempts o s
  · exact congrArg Prod.snd (step_beside c o fun s hop => hsubmit ⟨s, hop⟩)

end MemoryOutbox

/-- What is asked of the store by those who may not move its cap. -/
inductive Use
  | upsert (read : Read)
  | forget (device : DeviceId)
  | prune (before : Timestamp)

def Use.request : Use → Request
  | .upsert read => .upsertLatest read
  | .forget device => .forgetDevice device
  | .prune before => .prune before

/-- **No use of the store moves its cap.** -/
theorem perform_budget (layout : Layout) (store : MemoryStore) (use : Use) :
    (store.perform layout use.request).1.books.budget = store.books.budget := by
  cases use with
  | upsert read =>
      refine (congrArg Books.budget (MemoryStore.dropFront_rest _ _).2).trans ?_
      exact (Books.enforce_evicts _).budget
  | forget device => rfl
  | prune before => exact (congrArg Books.budget (MemoryStore.dropFront_rest _ _).2).trans rfl

namespace Configuration

open Devices (ok_of_bind)

variable {h : Humantime} {c : Calendar}

/-! ## One patch -/

/-- What a request may state of the schedule is a field, or all of them. -/
theorem known_of_ok {name : String} (hok : known name = .ok ()) :
    name = allFields ∨ (Query.fromStr name).isSome := by
  unfold known at hok
  split at hok
  · assumption
  · cases hok

theorem mapM_raw_known {fields : List FieldSettings} {raw : List RawField}
    (hok : fields.mapM FieldSettings.raw = .ok raw) :
    ∀ field ∈ raw, field.name = allFields ∨ (Query.fromStr field.name).isSome := by
  induction fields generalizing raw with
  | nil =>
      obtain rfl := Except.ok.inj hok
      exact fun _ hfield => absurd hfield List.not_mem_nil
  | cons field fields ih =>
      rw [List.mapM_cons] at hok
      obtain ⟨first, hfirst, hok⟩ := ok_of_bind hok
      obtain ⟨rest, hrest, hok⟩ := ok_of_bind hok
      obtain rfl := Except.ok.inj hok
      obtain ⟨_, hknown, hfirst⟩ := ok_of_bind hfirst
      obtain rfl := Except.ok.inj hfirst
      intro other hother
      rcases List.mem_cons.mp hother with rfl | hother
      · exact known_of_ok hknown
      · exact ih hrest other hother

/-- A schedule in force, with what a patch leaves of it. -/
structure Scheduled (sync : SyncConfig) : Prop where
  inherited : Stated sync.defaultInterval
  fields : Settled sync.fields

theorem patchedSync_scheduled {current next : SyncConfig} (hcurrent : Scheduled current)
    {patch : Option SyncPatch} (hok : patchedSync current patch = .ok next) :
    Scheduled next ∧ ((∀ field ∈ current.fields, (Query.fromStr field.name).isSome) →
      ∀ field ∈ next.fields, (Query.fromStr field.name).isSome) := by
  have hsame : next = current → Scheduled next ∧
      ((∀ field ∈ current.fields, (Query.fromStr field.name).isSome) →
        ∀ field ∈ next.fields, (Query.fromStr field.name).isSome) := by
    intro hsame
    subst hsame
    exact ⟨hcurrent, id⟩
  -- what is folded is the schedule stated, or the names of the one in force
  have hfolded : ∀ (default : Option Duration) (raw : List RawField), Stated default →
      next = ⟨default, resolveFields raw default⟩ →
      ((∀ field ∈ current.fields, (Query.fromStr field.name).isSome) →
        ∀ field ∈ raw, field.name = allFields ∨ (Query.fromStr field.name).isSome) →
      Scheduled next ∧ ((∀ field ∈ current.fields, (Query.fromStr field.name).isSome) →
        ∀ field ∈ next.fields, (Query.fromStr field.name).isSome) := by
    intro default raw hstated hnext hraw
    subst hnext
    exact ⟨⟨hstated, resolveFields_settled hstated raw⟩,
      fun hknown => queryable_resolveFields.mpr (hraw hknown)⟩
  have hstated : ∀ interval : Option UInt64,
      Stated ((interval.map handleInterval).getD current.defaultInterval) := by
    intro interval
    cases interval with
    | none => exact hcurrent.inherited
    | some secs => exact ⟨secs, rfl⟩
  cases patch with
  | none => exact hsame (Except.ok.inj hok).symm
  | some patch =>
      obtain ⟨interval, fields⟩ := patch
      cases fields with
      | none =>
          cases interval with
          | none => exact hsame (Except.ok.inj hok).symm
          | some secs =>
              refine hfolded _ _ (hstated (some secs)) (Except.ok.inj hok).symm ?_
              intro hknown field hfield
              obtain ⟨configured, hconfigured, rfl⟩ := List.mem_map.mp hfield
              exact .inr (hknown configured hconfigured)
      | some fields =>
          have hok' : (fields.mapM FieldSettings.raw).bind (fun raw => Except.ok (SyncConfig.mk
              ((interval.map handleInterval).getD current.defaultInterval)
              (resolveFields raw ((interval.map handleInterval).getD
                current.defaultInterval)))) = .ok next := by
            rw [← hok]
            cases interval <;> rfl
          obtain ⟨raw, hraw, hnext⟩ := ok_of_bind hok'
          exact hfolded _ raw (hstated interval) (Except.ok.inj hnext).symm
            fun _ => mapM_raw_known hraw

/-- What was read of a request was read by what reads the file. -/
theorem setting_ok {α : Type} {key : String} {visit : String → Except String α} {text : String}
    {value : α} (hok : setting key visit text = .ok value) : visit text = .ok value := by
  unfold setting at hok
  split at hok
  · rename_i hvisit
    rw [hvisit, Except.ok.inj hok]
  · cases hok

/-- The settings of the store, in the form they have once they are resolved. -/
structure Stored (c : Calendar) (store : StoreConfig) : Prop where
  retain : store.retain.Written c
  cleanup : ∃ every < durationBound, store.cleanup = handleCleanup every
  maxMemory : ∃ cap, store.maxMemory = handleBudget cap

/-- A setting of a patch: what it states, read, or what is in force. -/
def stated {α : Type} (read : String → Except PatchError α) (current : α) :
    Option String → Except PatchError α
  | some text => read text
  | none => .ok current

theorem patchedStore_some (current : StoreConfig) (patch : StorePatch) :
    patchedStore h c current (some patch) =
      (stated (setting "store.retain" (retentionOfText h c)) current.retain patch.retain).bind
        fun retain =>
      (stated (fun text => (setting "store.cleanup_interval" (durationOfText h) text).map
        handleCleanup) current.cleanup patch.cleanupInterval).bind fun cleanup =>
      (stated (fun text => (setting "store.max_memory" bytesOfText text).map handleBudget)
        current.maxMemory patch.maxMemory).bind fun maxMemory =>
      .ok ⟨retain, cleanup, maxMemory, current.cleanupOnRemove⟩ := by
  obtain ⟨retain, cleanup, maxMemory⟩ := patch
  cases retain <;> cases cleanup <;> cases maxMemory <;>
    simp only [patchedStore, stated, bind, pure, Except.pure]

/-- What a setting comes to has what every reading of it has, and the one in force. -/
theorem stated_of {α : Type} {P : α → Prop} {read : String → Except PatchError α} {current : α}
    (hcurrent : P current) (hread : ∀ text value, read text = .ok value → P value)
    {text : Option String} {value : α} (hok : stated read current text = .ok value) : P value := by
  cases text with
  | none => exact Except.ok.inj hok ▸ hcurrent
  | some text => exact hread text value hok

theorem patchedStore_stored (hh : h.Documented) {current next : StoreConfig}
    (hcurrent : Stored c current) {patch : Option StorePatch}
    (hok : patchedStore h c current patch = .ok next) :
    Stored c next ∧ next.cleanupOnRemove = current.cleanupOnRemove := by
  cases patch with
  | none =>
      obtain rfl := Except.ok.inj hok
      exact ⟨hcurrent, rfl⟩
  | some patch =>
      rw [patchedStore_some] at hok
      obtain ⟨retain, hretain, hok⟩ := ok_of_bind hok
      obtain ⟨cleanup, hcleanup, hok⟩ := ok_of_bind hok
      obtain ⟨maxMemory, hmaxMemory, hok⟩ := ok_of_bind hok
      obtain rfl := Except.ok.inj hok
      refine ⟨⟨?_, ?_, ?_⟩, rfl⟩
      · refine stated_of hcurrent.retain (fun text value hvalue => ?_) hretain
        have hread : retentionOfText h c text = .ok value := setting_ok hvalue
        exact @retentionOf_written h c hh (.text text) value hread
      · refine @stated_of _ (fun cleanup => ∃ every < durationBound, cleanup = handleCleanup every)
          _ _ hcurrent.cleanup (fun text value hvalue => ?_) _ _ hcleanup
        obtain ⟨every, hevery, rfl⟩ := ok_of_map hvalue
        have hread : durationOfText h text = .ok every := setting_ok hevery
        exact ⟨every, @durationOf_represented h hh (.text text) every hread, rfl⟩
      · refine @stated_of _ (fun maxMemory => ∃ cap, maxMemory = handleBudget cap)
          _ _ hcurrent.maxMemory (fun text value hvalue => ?_) _ _ hmaxMemory
        obtain ⟨cap, -, rfl⟩ := ok_of_map hvalue
        exact ⟨cap, rfl⟩

/-- The settings that no patch moves. -/
def SameForGood (config other : ServerConfig) : Prop :=
  other.http = config.http ∧ other.inventory = config.inventory ∧
    other.store.cleanupOnRemove = config.store.cleanupOnRemove

/-- **A patch leaves the settings in the form a file resolves to**, and the fixed ones alone. -/
theorem patched_resolved (hh : h.Documented) {current next : ServerConfig}
    (hcurrent : Resolved c current) {patch : ConfigPatch}
    (hok : patched h c current patch = .ok next) :
    Resolved c next ∧ SameForGood current next ∧ (Queryable current → Queryable next) := by
  unfold patched at hok
  obtain ⟨_, -, hok⟩ := ok_of_bind hok
  obtain ⟨sync, hsync, hok⟩ := ok_of_bind hok
  obtain ⟨store, hstore, hok⟩ := ok_of_bind hok
  obtain rfl := Except.ok.inj hok
  obtain ⟨hscheduled, hknown⟩ :=
    patchedSync_scheduled ⟨hcurrent.inherited, hcurrent.fields⟩ hsync
  obtain ⟨hstored, hcleanup⟩ :=
    patchedStore_stored hh ⟨hcurrent.retain, hcurrent.cleanup, hcurrent.maxMemory⟩ hstore
  refine ⟨⟨?_, ?_, hscheduled.inherited, hscheduled.fields, hstored.retain, hstored.cleanup,
    hstored.maxMemory⟩, ⟨rfl, rfl, hcleanup⟩, hknown⟩
  · cases hrelay : patch.intentRelay with
    | none =>
        obtain ⟨ms, hms⟩ := hcurrent.poll
        exact ⟨ms, hms⟩
    | some relay =>
        cases hpoll : relay.pollMs with
        | none =>
            obtain ⟨ms, hms⟩ := hcurrent.poll
            exact ⟨ms, by simp only [patchedRelay, hpoll, Option.map_none, Option.getD_none, hms]⟩
        | some ms =>
            exact ⟨ms, by simp only [patchedRelay, hpoll, Option.map_some, Option.getD_some]⟩
  · cases hrelay : patch.intentRelay with
    | none =>
        obtain ⟨attempts, hattempts⟩ := hcurrent.attempts
        exact ⟨attempts, hattempts⟩
    | some relay =>
        cases hmax : relay.maxAttempts with
        | none =>
            obtain ⟨attempts, hattempts⟩ := hcurrent.attempts
            exact ⟨attempts, by
              simp only [patchedRelay, hmax, Option.map_none, Option.getD_none, hattempts]⟩
        | some attempts =>
            exact ⟨attempts, by simp only [patchedRelay, hmax, Option.map_some, Option.getD_some]⟩

/-- **A document that is served can be sent back**: it changes nothing, exactly when the floor of
the retention is dated. -/
theorem patched_own (hh : h.Documented) (hc : c.Documented) {current : ServerConfig}
    (hcurrent : Resolved c current) (hknown : Queryable current) :
    patched h c current (document h current).asPatch = .ok current ↔
      current.store.retain.Dated c := by
  have hself : ¬ Moved current current := by simp [Moved]
  rcases patched_document hh hc hcurrent current with
    ⟨hmoved, -⟩ | ⟨-, -, hdated, hpatched⟩ | ⟨-, hlost, what, hpatched⟩
  · exact absurd hmoved hself
  · exact ⟨fun _ => hdated, fun _ => hpatched⟩
  · rw [hpatched]
    exact ⟨fun hok => (by cases hok), fun hdated => absurd ⟨hknown, hdated⟩ hlost⟩

/-! ## A run -/

/-- What happens to the live settings, and to what they hold. -/
inductive Tuning
  | patch (patch : ConfigPatch)
  | reload (file : Except String ConfigFile)
  | store (use : Use)
  | outbox (op : MemoryOutbox.Op)

def LiveSettings.tune (h : Humantime) (c : Calendar) (chrono : Chrono) (layout : Layout)
    (settings : LiveSettings) : Tuning → LiveSettings
  | .patch patch => (settings.apply h c patch).1
  | .reload file => (settings.reload h c file).1
  | .store use => { settings with store := (settings.store.perform layout use.request).1 }
  | .outbox op => { settings with outbox := MemoryOutbox.step chrono settings.outbox op }

/-- The settings a process starts with, and the adapters it starts under them. -/
def LiveSettings.started (config : ServerConfig) (source : ConfigSource) (backoff : Duration) :
    LiveSettings :=
  .new config source (.withBudget (config.store.maxMemory.map UInt64.toNat))
    (.withMaxAttempts config.intentRelay.maxAttempts.toNat backoff)

/-- What every change of the settings keeps, of those the process started with. -/
structure Kept (c : Calendar) (config : ServerConfig) (settings : LiveSettings) : Prop where
  enforced : Enforced settings
  resolved : Resolved c settings.current
  same : SameForGood config settings.current
  queryable : Queryable config → Queryable settings.current

section Runs

variable {chrono : Chrono} {layout : Layout} {config : ServerConfig} {settings : LiveSettings}

theorem toNat_effectiveAttempts (attempts : UInt32) :
    (effectiveAttempts attempts).toNat = max attempts.toNat 1 := by
  have hone : (1 : UInt32).toNat = 1 := rfl
  show (if attempts ≤ 1 then (1 : UInt32) else attempts).toNat = _
  split
  · rename_i hle
    have hle := UInt32.le_iff_toNat_le.mp hle
    omega
  · rename_i hlt
    have hlt := mt UInt32.le_iff_toNat_le.mpr hlt
    omega

theorem kept_started (hconfig : Resolved c config) (source : ConfigSource) (backoff : Duration) :
    Kept c config (.started config source backoff) :=
  ⟨⟨rfl, rfl, rfl, rfl, (toNat_effectiveAttempts _).symm⟩, hconfig, ⟨rfl, rfl, rfl⟩, id⟩

theorem kept_apply (hh : h.Documented) (hs : Kept c config settings) (patch : ConfigPatch) :
    Kept c config (settings.apply h c patch).1 := by
  have henforced := enforced_apply (h := h) (c := c) hs.enforced patch
  unfold LiveSettings.apply at henforced ⊢
  split
  · exact hs
  · rename_i next hpatched
    rw [hpatched] at henforced
    obtain ⟨hresolved, hsame, hknown⟩ := patched_resolved hh hs.resolved hpatched
    refine ⟨henforced, hresolved, ?_, fun hconfig => hknown (hs.queryable hconfig)⟩
    exact ⟨hsame.1.trans hs.same.1, hsame.2.1.trans hs.same.2.1, hsame.2.2.trans hs.same.2.2⟩

theorem kept_tune (hh : h.Documented) (hs : Kept c config settings) (tuning : Tuning) :
    Kept c config (settings.tune h c chrono layout tuning) := by
  cases tuning with
  | patch patch => exact kept_apply hh hs patch
  | reload file =>
      unfold LiveSettings.tune LiveSettings.reload
      dsimp only
      split
      · exact hs
      · exact kept_apply hh hs _
  | store use =>
      obtain ⟨henforced, hresolved, hsame, hknown⟩ := hs
      refine ⟨⟨henforced.schedule, henforced.policy, henforced.drain, ?_, henforced.attempts⟩,
        hresolved, hsame, hknown⟩
      exact (perform_budget layout settings.store use).trans henforced.budget
  | outbox op =>
      obtain ⟨henforced, hresolved, hsame, hknown⟩ := hs
      refine ⟨⟨henforced.schedule, henforced.policy, henforced.drain, henforced.budget, ?_⟩,
        hresolved, hsame, hknown⟩
      exact (MemoryOutbox.step_maxAttempts chrono settings.outbox op).trans henforced.attempts

/--
**Whatever is patched and reloaded, in whatever order**, and whatever the store and the outbox do
meanwhile: each task, the cap and the limit on attempts go by the settings in force; those that
are fixed are as they were at the start; and where the file named no field that cannot be queried,
the document that is served changes nothing when it is sent back, exactly when the floor of the
retention is dated.
-/
theorem settings_kept (hh : h.Documented) (hc : c.Documented) {source : ConfigSource}
    {file : Except String ConfigFile} (hload : source.load h c file = .ok config)
    (chrono : Chrono) (layout : Layout) (backoff : Duration) (tunings : List Tuning)
    (hsettings : settings = Machine.exec (LiveSettings.tune h c chrono layout)
      (.started config source backoff) tunings) :
    Enforced settings ∧ SameForGood config settings.current ∧
      (Queryable config →
        (patched h c settings.current (document h settings.current).asPatch =
            .ok settings.current ↔ settings.current.store.retain.Dated c)) := by
  have hkept : Kept c config settings := by
    rw [hsettings]
    exact @Machine.exec_invariant _ _ (LiveSettings.tune h c chrono layout) (fun _ _ => True)
      (Kept c config) (fun _ tuning hs _ => kept_tune hh hs tuning) _ tunings
      (Machine.along_of_mem fun _ _ => trivial)
      (kept_started (resolved_of_load hh hload) source backoff)
  exact ⟨hkept.enforced, hkept.same,
    fun hknown => patched_own hh hc hkept.resolved (hkept.queryable hknown)⟩

end Runs

/-- The schedule is re-paced, a read is written, and the file cannot be read again. -/
def repaced : List Tuning :=
  [.patch ⟨some ⟨some 5, none⟩, none, none, none, none⟩, .store (.upsert (titled "Lecture" "")),
    .reload (.error "gone")]

/-- What enforces the settings has followed. -/
theorem settings_kept_repaced :
    Enforced (Machine.exec (LiveSettings.tune nanos twoYears utc layout64)
      (.started (configOf [⟨"RUNNING_STATE", some 5000000000⟩, ⟨"FIRMWARE", some 60000000000⟩]
        (.since ⟨"2026-01-01T00:00:00.000Z"⟩) none) etcSource 0) repaced) :=
  (settings_kept nanos_documented twoYears_documented load_spelled utc layout64 0 repaced rfl).1

end Configuration

end Sismatic
