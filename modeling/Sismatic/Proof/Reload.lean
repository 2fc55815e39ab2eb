import Sismatic.Proof.Journal
import Sismatic.Proof.Schedule
import Sismatic.Proof.Settings

/-!
# A reload is the file, or a refusal

The loader's result, rendered as a document and folded on as a patch, is what the loader
returned: every setting is written so that its reader takes it back. Three things it
takes do not come through. A field it cannot query is refused only on the way back in, a
floor in a year past four digits is written in a form no reader takes, and a runtime path
the file no longer states is no part of the patch.
-/

namespace Sismatic.Configuration

open Devices (ok_of_bind)

variable {h : Humantime} {c : Calendar}

/-! ## What the loader returns -/

/-- A configuration in the form every setting has once it is resolved. -/
structure Resolved (c : Calendar) (config : ServerConfig) : Prop where
  poll : ∃ ms, config.intentRelay.poll = handlePoll ms
  attempts : ∃ attempts, config.intentRelay.maxAttempts = effectiveAttempts attempts
  inherited : Stated config.sync.defaultInterval
  fields : Settled config.sync.fields
  retain : config.store.retain.Written c
  cleanup : ∃ every < durationBound, config.store.cleanup = handleCleanup every
  maxMemory : ∃ cap, config.store.maxMemory = handleBudget cap

/-- What was read of a key that may be absent. -/
theorem optionMapM_ok {ε α β : Type} {f : α → Except ε β} {x : Option α} {b : β}
    (hok : x.mapM f = .ok (some b)) : ∃ a, f a = .ok b := by
  cases x with
  | none => cases hok
  | some a =>
      obtain ⟨value, hvalue, hsome⟩ := ok_of_bind (f := fun value => pure (some value)) hok
      obtain rfl := Option.some.inj (Except.ok.inj hsome)
      exact ⟨a, hvalue⟩

/-- What the visitors leave in the `store` section. -/
theorem deserialize_store (hh : h.Documented) {store : StoreSection} {raw : RawStore}
    (hok : store.deserialize h c = .ok raw) :
    (∀ retain, raw.retain = some retain → retain.Written c) ∧
      ∀ every, raw.cleanupInterval = some every → every < durationBound := by
  obtain ⟨retain, hretain, hok⟩ := ok_of_bind hok
  obtain ⟨every, hevery, hok⟩ := ok_of_bind hok
  obtain ⟨cap, -, hok⟩ := ok_of_bind hok
  obtain rfl := Except.ok.inj hok
  constructor
  · rintro retain rfl
    obtain ⟨scalar, hscalar⟩ := optionMapM_ok hretain
    exact retentionOf_written hh hscalar
  · rintro every rfl
    obtain ⟨scalar, hscalar⟩ := optionMapM_ok hevery
    exact durationOf_represented hh hscalar

theorem defaultRetain_written : Retention.Written c (.age (Devices.fromSecs defaultRetainSecs)) :=
  ⟨by decide, fromSecs_lt _⟩

/-- **Whatever file it is, what the loader returns is resolved.** -/
theorem resolved_of_load (hh : h.Documented) {source : ConfigSource}
    {file : Except String ConfigFile} {loaded : ServerConfig}
    (hload : source.load h c file = .ok loaded) : Resolved c loaded := by
  obtain ⟨file, -, hload⟩ := ok_of_bind hload
  obtain ⟨raw, hraw, hload⟩ := ok_of_bind hload
  obtain rfl := Except.ok.inj hload
  obtain ⟨store, hstore, hraw⟩ := ok_of_bind hraw
  obtain rfl := Except.ok.inj hraw
  have hretain : ((store.getD ⟨none, none, none, none⟩).retain.getD
      (.age (Devices.fromSecs defaultRetainSecs))).Written c := by
    cases store with
    | none => exact defaultRetain_written
    | some raw =>
        obtain ⟨written, hwritten⟩ := optionMapM_ok hstore
        cases hkey : raw.retain with
        | none => rw [Option.getD_some, hkey]; exact defaultRetain_written
        | some retain =>
            rw [Option.getD_some, hkey]
            exact (deserialize_store hh hwritten).1 retain hkey
  have hcleanup : (store.getD ⟨none, none, none, none⟩).cleanupInterval.getD
      (Devices.fromSecs defaultCleanupIntervalSecs) < durationBound := by
    cases store with
    | none => exact fromSecs_lt defaultCleanupIntervalSecs
    | some raw =>
        obtain ⟨written, hwritten⟩ := optionMapM_ok hstore
        cases hkey : raw.cleanupInterval with
        | none =>
            rw [Option.getD_some, hkey]
            exact fromSecs_lt defaultCleanupIntervalSecs
        | some every =>
            rw [Option.getD_some, hkey]
            exact (deserialize_store hh hwritten).2 every hkey
  simp only [resolveConfig, ServerConfig.withOverrides]
  exact {
    poll := ⟨_, rfl⟩
    attempts := ⟨_, rfl⟩
    inherited := ⟨_, rfl⟩
    fields := resolveFields_settled ⟨_, rfl⟩ _
    retain := hretain
    cleanup := ⟨_, hcleanup, rfl⟩
    maxMemory := ⟨_, rfl⟩ }

/-! ## The document, read back -/

/-- A floor is reached once. -/
theorem max_floor {α : Type} [LE α] [DecidableLE α] {a b : α} (hrefl : b ≤ b) :
    maxOfLe.max (maxOfLe.max a b) b = maxOfLe.max a b := by
  show (if (if a ≤ b then b else a) ≤ b then b else (if a ≤ b then b else a)) =
    if a ≤ b then b else a
  by_cases hab : a ≤ b
  · rw [if_pos hab, if_pos hrefl]
  · rw [if_neg hab, if_neg hab]

theorem asMillis_fromMillis (ms : UInt64) : asMillis (fromMillis ms) = ms := by
  have hlt := ms.toNat_lt
  have hwhole : ms.toNat * 1000000 / 1000000 = ms.toNat := Nat.mul_div_cancel _ (by decide)
  rw [asMillis, fromMillis, hwhole, Nat.min_eq_left (by omega), UInt64.ofNat_toNat]

theorem handlePoll_asMillis (ms : UInt64) :
    handlePoll (asMillis (handlePoll ms)) = handlePoll ms := by
  have hfloor : max (max ms 1) 1 = max ms 1 := max_floor (UInt64.le_refl 1)
  rw [handlePoll, handlePoll, asMillis_fromMillis, hfloor]

theorem effectiveAttempts_effectiveAttempts (attempts : UInt32) :
    effectiveAttempts (effectiveAttempts attempts) = effectiveAttempts attempts :=
  max_floor (UInt32.le_refl 1)

/-- The settings a file names that no other form can stand for. -/
def Queryable (config : ServerConfig) : Prop :=
  ∀ field ∈ config.sync.fields, (Query.fromStr field.name).isSome

theorem patchedRelay_document {config : ServerConfig} (hconfig : Resolved c config)
    (current : IntentRelayConfig) :
    patchedRelay current (document h config).asPatch.intentRelay = config.intentRelay := by
  obtain ⟨ms, hpoll⟩ := hconfig.poll
  obtain ⟨attempts, hattempts⟩ := hconfig.attempts
  show IntentRelayConfig.mk (handlePoll (asMillis config.intentRelay.poll))
    (effectiveAttempts config.intentRelay.maxAttempts) = config.intentRelay
  rw [hpoll, handlePoll_asMillis, ← hpoll, hattempts, effectiveAttempts_effectiveAttempts,
    ← hattempts]

theorem known_ok {name : String} (h : (Query.fromStr name).isSome) : known name = .ok () :=
  if_pos (.inr h)

theorem known_error {name : String} (hall : name ≠ allFields)
    (h : ¬ (Query.fromStr name).isSome) : ∃ what, known name = .error (.malformed what) :=
  ⟨_, if_neg (not_or.mpr ⟨hall, h⟩)⟩

/-- A field, as a document states it. -/
def FieldConfig.settings (field : FieldConfig) : FieldSettings :=
  ⟨field.name, some (secs field.interval)⟩

/-- The fields of a document, as entries to be folded. -/
theorem mapM_raw {fields : List FieldConfig}
    (hknown : ∀ field ∈ fields, (Query.fromStr field.name).isSome) :
    (fields.map FieldConfig.settings).mapM FieldSettings.raw = .ok (restated fields) := by
  induction fields with
  | nil => rfl
  | cons field fields ih =>
      rw [List.map_cons, List.mapM_cons, ih fun f hf => hknown f (List.mem_cons_of_mem _ hf),
        FieldSettings.raw, FieldConfig.settings, known_ok (hknown field List.mem_cons_self)]
      rfl

/-- A schedule is refused for its first field that cannot be queried. -/
theorem mapM_raw_error {fields : List FieldConfig}
    (hexplicit : ∀ field ∈ fields, field.name ≠ allFields)
    (hunknown : ¬ ∀ field ∈ fields, (Query.fromStr field.name).isSome) :
    ∃ what, (fields.map FieldConfig.settings).mapM FieldSettings.raw =
      .error (.malformed what) := by
  induction fields with
  | nil => exact absurd (fun _ hf => nomatch hf) hunknown
  | cons field fields ih =>
      rw [List.map_cons, List.mapM_cons]
      by_cases hfield : (Query.fromStr field.name).isSome
      · have hrest : ¬ ∀ field ∈ fields, (Query.fromStr field.name).isSome := fun hall =>
          hunknown (List.forall_mem_cons.mpr ⟨hfield, hall⟩)
        obtain ⟨what, hwhat⟩ := ih (fun f hf => hexplicit f (List.mem_cons_of_mem _ hf)) hrest
        rw [FieldSettings.raw, FieldConfig.settings, known_ok hfield, hwhat]
        exact ⟨what, rfl⟩
      · obtain ⟨what, hwhat⟩ := known_error (hexplicit field List.mem_cons_self) hfield
        rw [FieldSettings.raw, FieldConfig.settings, hwhat]
        exact ⟨what, rfl⟩

/-- A whole schedule, stated, is folded at the interval stated with it. -/
theorem patchedSync_stated (current : SyncConfig) (n : UInt64) (fields : List FieldSettings) :
    patchedSync current (some ⟨some n, some fields⟩) =
      (fields.mapM FieldSettings.raw).map fun raw =>
        ⟨handleInterval n, resolveFields raw (handleInterval n)⟩ := by
  simp only [patchedSync]
  cases fields.mapM FieldSettings.raw <;> rfl

theorem patchedSync_document {config : ServerConfig} (hconfig : Resolved c config)
    (hknown : Queryable config) (current : SyncConfig) :
    patchedSync current (document h config).asPatch.sync = .ok config.sync := by
  refine (patchedSync_stated current _ (config.sync.fields.map FieldConfig.settings)).trans ?_
  rw [mapM_raw hknown]
  simp only [document, handleInterval_secs hconfig.inherited, Except.map,
    resolveFields_restated hconfig.fields]

theorem patchedSync_unknown {config : ServerConfig} (hconfig : Resolved c config)
    (hunknown : ¬ Queryable config) (current : SyncConfig) :
    ∃ what, patchedSync current (document h config).asPatch.sync = .error (.malformed what) := by
  obtain ⟨what, hwhat⟩ := mapM_raw_error hconfig.fields.explicit hunknown
  refine ⟨what, ?_⟩
  refine (patchedSync_stated current _ (config.sync.fields.map FieldConfig.settings)).trans ?_
  rw [hwhat]
  rfl

/-! ## The store's settings -/

/-- A setting that is read is read of a request as well. -/
theorem setting_map {α β : Type} (key : String) {visit : String → Except String α} {text : String}
    {f : α → β} {value : β} (hread : (visit text).map f = .ok value) :
    (setting key visit text).map f = .ok value := by
  unfold setting
  cases hvisit : visit text with
  | ok a => rw [hvisit] at hread; exact congrArg Except.ok (Except.ok.inj hread)
  | error err => rw [hvisit] at hread; cases hread

theorem durationOfText_cleanup (hh : h.Documented) {every : Duration}
    (hlt : every < durationBound) :
    (durationOfText h (((handleCleanup every).map h.formatDuration).getD neverWord)).map
      handleCleanup = .ok (handleCleanup every) := by
  by_cases hzero : every = 0
  · subst hzero
    have hnever : durationOfText h neverWord = .ok 0 := by
      have hword : eqIgnoreAsciiCase (trim neverWord) neverWord = true := by decide
      rw [durationOfText, if_pos hword]
    rw [handleCleanup, if_pos rfl, Option.map_none, Option.getD_none, hnever]
    rfl
  · have hread := hh.durationOfText_format hlt
    rw [handleCleanup, if_neg hzero, Option.map_some, Option.getD_some, hread]
    exact congrArg Except.ok (if_neg hzero)

theorem bytesOfText_budget (cap : UInt64) :
    (bytesOfText (((handleBudget cap).map formatBytes).getD unlimitedWord)).map handleBudget =
      .ok (handleBudget cap) := by
  by_cases hpos : cap > 0
  · rw [handleBudget, if_pos hpos, Option.map_some, Option.getD_some, bytesOfText_formatBytes]
    exact congrArg Except.ok (if_pos hpos)
  · have hunlimited : bytesOfText unlimitedWord = .ok 0 := by
      have hword : eqIgnoreAsciiCase (trim unlimitedWord) unlimitedWord = true := by decide
      rw [bytesOfText, if_pos hword]
    rw [handleBudget, if_neg hpos, Option.map_none, Option.getD_none, hunlimited]
    rfl

theorem patchedStore_document (hh : h.Documented) (hc : c.Documented) {config : ServerConfig}
    (hconfig : Resolved c config) (hdated : config.store.retain.Dated c) (current : StoreConfig) :
    patchedStore h c current (document h config).asPatch.store =
      .ok { config.store with cleanupOnRemove := current.cleanupOnRemove } := by
  obtain ⟨every, hlt, hcleanup⟩ := hconfig.cleanup
  obtain ⟨cap, hcap⟩ := hconfig.maxMemory
  have hretain : setting "store.retain" (retentionOfText h c)
      (renderRetention h config.store.retain) = .ok config.store.retain := by
    rw [setting, retentionOfText_render hh hc hconfig.retain hdated]
  have hevery := setting_map "store.cleanup_interval" (durationOfText_cleanup hh hlt)
  have hbudget := setting_map "store.max_memory" (bytesOfText_budget cap)
  rw [← hcleanup] at hevery
  rw [← hcap] at hbudget
  simp only [patchedStore, document, ConfigDocument.asPatch, hretain, hevery, hbudget, bind,
    Except.bind, pure, Except.pure]

theorem patchedStore_undated (hh : h.Documented) (hc : c.Documented) {config : ServerConfig}
    (hconfig : Resolved c config) (hundated : ¬ config.store.retain.Dated c)
    (current : StoreConfig) : ∃ what,
      patchedStore h c current (document h config).asPatch.store = .error (.malformed what) := by
  obtain ⟨err, herr⟩ := retentionOfText_undated hh hc hconfig.retain hundated
  have hretain : setting "store.retain" (retentionOfText h c)
      (renderRetention h config.store.retain) =
        .error (.malformed ("store.retain" ++ ": " ++ err)) := by
    rw [setting, herr]
  refine ⟨"store.retain" ++ ": " ++ err, ?_⟩
  simp only [patchedStore, document, ConfigDocument.asPatch, hretain, bind, Except.bind]

/-! ## The fixed settings -/

/-- The settings that are fixed until a restart are the same. -/
def SameFixed (current loaded : ServerConfig) : Prop :=
  loaded.http = current.http ∧ loaded.inventory = current.inventory

/-- A fixed setting that a document states is not the one in force. -/
def Moved (current loaded : ServerConfig) : Prop :=
  loaded.http ≠ current.http ∨ loaded.inventory.configPath ≠ current.inventory.configPath ∨
    (loaded.inventory.runtimeConfigPath.isSome ∧
      loaded.inventory.runtimeConfigPath ≠ current.inventory.runtimeConfigPath)

/-- What a document does not state is not compared. -/
theorem sameFixed_iff {current loaded : ServerConfig} :
    SameFixed current loaded ↔ ¬ Moved current loaded ∧
      loaded.inventory.runtimeConfigPath = current.inventory.runtimeConfigPath := by
  unfold SameFixed Moved
  cases loaded.inventory
  cases current.inventory
  constructor
  · rintro ⟨hhttp, hinventory⟩
    obtain ⟨rfl, rfl⟩ := InventoryConfig.mk.inj hinventory
    simp [hhttp]
  · rintro ⟨hmoved, rfl⟩
    simpa using hmoved

theorem http_ne_iff {a b : HttpConfig} : a ≠ b ↔ a.host ≠ b.host ∨ a.port ≠ b.port := by
  cases a
  cases b
  simp only [ne_eq, HttpConfig.mk.injEq, not_and_or]

/-- The fixed settings are checked first, each by its own test. -/
theorem checkFixed_document (current loaded : ServerConfig) :
    (Moved current loaded ∧ ∃ what,
      checkFixed current (document h loaded).asPatch = .error (.fixed what)) ∨
    (¬ Moved current loaded ∧ checkFixed current (document h loaded).asPatch = .ok ()) := by
  simp only [checkFixed, document, ConfigDocument.asPatch]
  by_cases hhttp : loaded.http.host ≠ current.http.host ∨ loaded.http.port ≠ current.http.port
  · rw [if_pos hhttp]
    exact .inl ⟨.inl (http_ne_iff.mpr hhttp), _, rfl⟩
  by_cases hpath : loaded.inventory.configPath ≠ current.inventory.configPath
  · rw [if_neg hhttp, if_pos hpath]
    exact .inl ⟨.inr (.inl hpath), _, rfl⟩
  by_cases hruntime : loaded.inventory.runtimeConfigPath.isSome = true ∧
      loaded.inventory.runtimeConfigPath ≠ current.inventory.runtimeConfigPath
  · rw [if_neg hhttp, if_neg hpath, if_pos hruntime]
    exact .inl ⟨.inr (.inr hruntime), _, rfl⟩
  · rw [if_neg hhttp, if_neg hpath, if_neg hruntime]
    refine .inr ⟨?_, rfl⟩
    rintro (hmoved | hmoved | hmoved)
    · exact hhttp (http_ne_iff.mp hmoved)
    · exact hpath hmoved
    · exact hruntime hmoved

/-! ## A reload -/

/-- What a document puts in force on top of `current`. -/
def adopted (current loaded : ServerConfig) : ServerConfig :=
  { loaded with
    inventory := current.inventory
    http := current.http
    store := { loaded.store with cleanupOnRemove := current.store.cleanupOnRemove } }

/-- **A document is refused for a fixed setting, or read whole, or refused for a value.** -/
theorem patched_document (hh : h.Documented) (hc : c.Documented) {loaded : ServerConfig}
    (hloaded : Resolved c loaded) (current : ServerConfig) :
    (Moved current loaded ∧
      ∃ what, patched h c current (document h loaded).asPatch = .error (.fixed what)) ∨
    (¬ Moved current loaded ∧ Queryable loaded ∧ loaded.store.retain.Dated c ∧
      patched h c current (document h loaded).asPatch = .ok (adopted current loaded)) ∨
    (¬ Moved current loaded ∧ ¬ (Queryable loaded ∧ loaded.store.retain.Dated c) ∧
      ∃ what, patched h c current (document h loaded).asPatch = .error (.malformed what)) := by
  rcases checkFixed_document (h := h) current loaded with ⟨hmoved, what, hcheck⟩ | ⟨hmoved, hcheck⟩
  · refine .inl ⟨hmoved, what, ?_⟩
    rw [patched, hcheck]
    rfl
  refine .inr ?_
  by_cases hknown : Queryable loaded
  · have hsync := patchedSync_document (h := h) hloaded hknown current.sync
    by_cases hdated : loaded.store.retain.Dated c
    · refine .inl ⟨hmoved, hknown, hdated, ?_⟩
      have hrelay := patchedRelay_document (h := h) hloaded current.intentRelay
      have hstore := patchedStore_document hh hc hloaded hdated current.store
      rw [patched, hcheck, hsync, hstore, hrelay]
      rfl
    · obtain ⟨what, hstore⟩ := patchedStore_undated hh hc hloaded hdated current.store
      refine .inr ⟨hmoved, fun hboth => hdated hboth.2, what, ?_⟩
      rw [patched, hcheck, hsync, hstore]
      rfl
  · obtain ⟨what, hsync⟩ := patchedSync_unknown (h := h) hloaded hknown current.sync
    refine .inr ⟨hmoved, fun hboth => hknown hboth.1, what, ?_⟩
    rw [patched, hcheck, hsync]
    rfl

/--
What is owed to a reload: the file in force, but for what removal does with a device's
reads, or a refusal naming a setting that cannot change and nothing done.
-/
structure Faithful (settings : LiveSettings) (loaded : ServerConfig)
    (outcome : LiveSettings × Except ConfigRefusal ConfigDocument) : Prop where
  same : SameFixed settings.current loaded →
    (∃ applied, outcome.2 = .ok applied) ∧ outcome.1.current =
      { loaded with
        store := { loaded.store with cleanupOnRemove := settings.current.store.cleanupOnRemove } }
  moved : ¬ SameFixed settings.current loaded →
    (∃ what, outcome.2 = .error (.fixed what)) ∧ outcome.1 = settings

/-- What the loader takes and a patch carries. -/
structure Carried (c : Calendar) (current loaded : ServerConfig) : Prop where
  runtime : loaded.inventory.runtimeConfigPath = current.inventory.runtimeConfigPath
  queryable : Queryable loaded
  dated : loaded.store.retain.Dated c

/--
**A reload is faithful exactly when the file is refused for a fixed setting it states, or
states what is in force and nothing that only the loader takes.** Whatever the loader
returns, its own document leaves it as it is exactly when every field can be queried and
the floor is dated.
-/
theorem reload_faithful_iff (hh : h.Documented) (hc : c.Documented) {settings : LiveSettings}
    {file : Except String ConfigFile} {loaded : ServerConfig}
    (hload : settings.source.load h c file = .ok loaded) :
    (Faithful settings loaded (settings.reload h c file) ↔
      Moved settings.current loaded ∨ Carried c settings.current loaded) ∧
    (patched h c loaded (document h loaded).asPatch = .ok loaded ↔
      Queryable loaded ∧ loaded.store.retain.Dated c) := by
  have hresolved := resolved_of_load hh hload
  have hreload : settings.reload h c file = settings.apply h c (document h loaded).asPatch := by
    rw [LiveSettings.reload, hload]
  constructor
  · rw [hreload, LiveSettings.apply]
    rcases patched_document hh hc hresolved settings.current with
      ⟨hmoved, what, hpatched⟩ | ⟨hmoved, hknown, hdated, hpatched⟩ |
      ⟨hmoved, hlost, what, hpatched⟩
    · rw [hpatched]
      refine ⟨fun _ => .inl hmoved, fun _ => ⟨fun hsame => ?_, fun _ => ⟨⟨what, rfl⟩, rfl⟩⟩⟩
      exact absurd hmoved (sameFixed_iff.mp hsame).1
    · rw [hpatched]
      constructor
      · intro hfaithful
        by_cases hsame : SameFixed settings.current loaded
        · exact .inr ⟨(sameFixed_iff.mp hsame).2, hknown, hdated⟩
        · obtain ⟨⟨what, hwhat⟩, -⟩ := hfaithful.moved hsame
          cases hwhat
      · rintro (hfixed | hcarried)
        · exact absurd hfixed hmoved
        · have hsame := sameFixed_iff.mpr ⟨hmoved, hcarried.runtime⟩
          refine ⟨fun _ => ⟨⟨_, rfl⟩, ?_⟩, fun hdiffers => absurd hsame hdiffers⟩
          show adopted settings.current loaded = _
          rw [adopted, ← hsame.1, ← hsame.2]
    · rw [hpatched]
      constructor
      · intro hfaithful
        by_cases hsame : SameFixed settings.current loaded
        · obtain ⟨⟨applied, happlied⟩, -⟩ := hfaithful.same hsame
          cases happlied
        · obtain ⟨⟨what, hwhat⟩, -⟩ := hfaithful.moved hsame
          cases hwhat
      · rintro (hfixed | hcarried)
        · exact absurd hfixed hmoved
        · exact absurd ⟨hcarried.queryable, hcarried.dated⟩ hlost
  · have hself : ¬ Moved loaded loaded := by simp [Moved]
    rcases patched_document hh hc hresolved loaded with
      ⟨hmoved, -⟩ | ⟨-, hknown, hdated, hpatched⟩ | ⟨-, hlost, what, hpatched⟩
    · exact absurd hmoved hself
    · exact ⟨fun _ => ⟨hknown, hdated⟩, fun _ => hpatched⟩
    · rw [hpatched]
      exact ⟨fun hok => (nomatch hok), fun hboth => absurd hboth hlost⟩

/-- Every field can be queried exactly when the file spells none that cannot. -/
theorem queryable_of_load {source : ConfigSource} {file : ConfigFile} {loaded : ServerConfig}
    (hload : source.load h c (.ok file) = .ok loaded) :
    ∃ raw, file.deserialize h c = .ok raw ∧ (Queryable loaded ↔
      ∀ field ∈ raw.schedule, field.name = allFields ∨ (Query.fromStr field.name).isSome) := by
  obtain ⟨raw, hraw, hload⟩ := ok_of_bind (f := fun raw => pure
    ((resolveConfig source.base raw).withOverrides source.overrides)) hload
  obtain rfl := Except.ok.inj hload
  exact ⟨raw, hraw, queryable_resolveFields⟩

/-! ## What enforces a setting -/

/-- Everything that enforces a setting enforces the one in force. -/
structure Enforced (settings : LiveSettings) : Prop where
  schedule : settings.schedule = schedules settings.current.sync
  policy : settings.policy = settings.current.store
  drain : settings.drain = settings.current.intentRelay.poll
  budget : settings.store.books.budget = settings.current.store.maxMemory.map UInt64.toNat
  attempts : settings.outbox.maxAttempts =
    (effectiveAttempts settings.current.intentRelay.maxAttempts).toNat

theorem budget_setBudget (store : MemoryStore) (budget : Option Nat) :
    (store.setBudget budget).1.books.budget = budget := by
  rw [MemoryStore.setBudget, (MemoryStore.dropFront_rest _ _).2]
  exact (Books.enforce_evicts { store.books with budget := budget }).budget

theorem enforced_publish (settings : LiveSettings) (next : ServerConfig) :
    Enforced (settings.publish h next).1 :=
  ⟨rfl, rfl, rfl, budget_setBudget _ _, rfl⟩

theorem enforced_apply {settings : LiveSettings} (hs : Enforced settings) (patch : ConfigPatch) :
    Enforced (settings.apply h c patch).1 := by
  rw [LiveSettings.apply]
  split
  case h_1 => exact hs
  case h_2 next _ => exact enforced_publish (h := h) settings next

/-- **A reload that is refused changes nothing, and one that is not reaches every task.** -/
theorem enforced_reload {settings : LiveSettings} (hs : Enforced settings)
    (file : Except String ConfigFile) : Enforced (settings.reload h c file).1 := by
  rw [LiveSettings.reload]
  split
  case h_1 => exact hs
  case h_2 => exact enforced_apply hs _

/-! ## Crates small enough to run -/

/-- A `humantime` that has only nanoseconds to write a span in. -/
def nanos : Humantime where
  formatDuration d := toString d ++ "ns"
  parseDuration text :=
    if text.toList.dropWhile Char.isDigit = ['n', 's'] then
      match parseUnsigned durationBound (String.ofList (text.toList.takeWhile Char.isDigit)) with
      | some d => .ok d
      | none => .error "number is too large"
    else .error "unknown time unit"

theorem nanos_documented : nanos.Documented where
  represented := by
    intro text d hok
    simp only [nanos] at hok
    split at hok
    · split at hok
      case h_1 value hparse =>
        obtain rfl := Except.ok.inj hok
        exact parseUnsigned_lt hparse
      case h_2 => cases hok
    · cases hok
  reads_back := by
    intro d hd
    have hdigit : ∀ ch ∈ Nat.toDigits 10 d, ch.isDigit = true := fun ch hch =>
      Nat.isDigit_of_mem_toDigits (by decide) (by decide) hch
    have hnumber : (Nat.toDigits 10 d ++ ['n', 's']).takeWhile Char.isDigit =
        Nat.toDigits 10 d := by
      rw [List.takeWhile_append_of_pos hdigit]
      exact List.append_nil _
    have hunit : (Nat.toDigits 10 d ++ ['n', 's']).dropWhile Char.isDigit = ['n', 's'] := by
      rw [List.dropWhile_append_of_pos hdigit]
      rfl
    have htext : (toString d ++ "ns").toList = Nat.toDigits 10 d ++ ['n', 's'] :=
      toList_number d "ns"
    simp only [nanos, htext, hnumber, hunit, parseUnsigned_toDigits hd, if_true]
  spelled := by
    intro d
    obtain ⟨first, rest, hdigits, hfirst⟩ := head_toDigits d
    refine ⟨first, rest ++ ['n'], 's', ?_, hfirst, by decide⟩
    show toString d ++ "ns" = _
    rw [← String.ofList_toList (s := toString d ++ "ns"), toList_number, hdigits]
    simp
  undashed := by
    intro text d hok hdash
    simp only [nanos] at hok
    split at hok
    case isFalse => cases hok
    case isTrue hunit =>
      rw [← List.takeWhile_append_dropWhile (p := Char.isDigit) (l := text.toList), hunit] at hdash
      rcases List.mem_append.mp hdash with hnumber | hsuffix
      · exact absurd (List.all_eq_true.mp List.all_takeWhile _ hnumber) (by decide)
      · exact absurd hsuffix (by decide)

/-- A `chrono` that knows two instants, the first of a year with four digits and one with five. -/
def twoYears : Calendar where
  Instant := Bool
  parseFromRfc3339 text := if text = "2026-01-01T00:00:00.000Z" then some false else none
  parseDate text :=
    if text = "2026-01-01" then some false else if text = "+10000-01-01" then some true else none
  toRfc3339
    | false => "2026-01-01T00:00:00.000Z"
    | true => "+10000-01-01T00:00:00.000Z"
  year
    | false => 2026
    | true => 10000

theorem twoYears_documented : twoYears.Documented where
  dated
    | false => ⟨'2', "026".toList, "01-01T00:00:00.000".toList, by decide, by decide⟩
    | true => ⟨'+', "10000".toList, "01-01T00:00:00.000".toList, by decide, by decide⟩
  reads_back
    | false => fun _ => ⟨false, rfl, rfl⟩
    | true => fun hyear => absurd hyear.2 (by decide)
  signed
    | false => fun hyear => absurd ⟨by decide, by decide⟩ hyear
    | true => fun _ => ⟨rfl, rfl⟩

/-- A file that schedules these fields and keeps history this far back. -/
def fileOf (fields : List RawField) (retain : String) (runtime : Option PathBuf) : ConfigFile where
  defaults := ⟨none, none, none, none⟩
  intentRelay := none
  sync := some ⟨some 60, some fields⟩
  inventory := some ⟨none, runtime⟩
  store := some ⟨some (.text retain), some (.text "500ns"), some (.text "1GiB"), none⟩
  http := none

def etcSource : ConfigSource := ⟨"/etc/sismatic/server.yaml", "/etc/sismatic", ⟨none, none, none⟩⟩

/-- What the loader makes of `fileOf`. -/
def configOf (fields : List FieldConfig) (retain : Retention) (runtime : Option PathBuf) :
    ServerConfig where
  inventory := ⟨"/etc/sismatic/devices.toml", runtime⟩
  intentRelay := ⟨250000000, 3⟩
  sync := ⟨some 60000000000, fields⟩
  store := ⟨retain, some 500, some 1073741824, false⟩
  http := ⟨"127.0.0.1", 8080⟩

/-- A server that has just started under `config`. -/
def startedUnder (config : ServerConfig) : LiveSettings where
  current := config
  source := etcSource
  schedule := schedules config.sync
  policy := config.store
  drain := config.intentRelay.poll
  store := MemoryStore.withBudget (config.store.maxMemory.map UInt64.toNat)
  outbox := MemoryOutbox.withMaxAttempts config.intentRelay.maxAttempts.toNat 0

theorem load_spelled : etcSource.load nanos twoYears
    (.ok (fileOf [⟨"running-state", some 5⟩, .named "FIRMWARE"] "2026-01-01" none)) =
      .ok (configOf [⟨"RUNNING_STATE", some 5000000000⟩, ⟨"FIRMWARE", some 60000000000⟩]
        (.since ⟨"2026-01-01T00:00:00.000Z"⟩) none) := by
  decide +kernel

/-- A schedule in any spelling and a floor in this year go through, and stay as they are. -/
theorem reload_faithful_spelled :
    Faithful (startedUnder (configOf [] .forever none))
      (configOf [⟨"RUNNING_STATE", some 5000000000⟩, ⟨"FIRMWARE", some 60000000000⟩]
        (.since ⟨"2026-01-01T00:00:00.000Z"⟩) none)
      ((startedUnder (configOf [] .forever none)).reload nanos twoYears
        (.ok (fileOf [⟨"running-state", some 5⟩, .named "FIRMWARE"] "2026-01-01" none))) :=
  (reload_faithful_iff nanos_documented twoYears_documented load_spelled).1.mpr
    (.inr ⟨rfl, by unfold Queryable; decide +kernel, ⟨false, rfl, by decide, by decide⟩⟩)

/--
Three files the loader takes. A misspelled field is refused although nothing fixed has
moved; so is a floor past the year 9999; and dropping the runtime path is not refused.
-/
theorem reload_unfaithful :
    (∃ loaded, etcSource.load nanos twoYears (.ok (fileOf [.named "BOGUS"] "forever" none)) =
        .ok loaded ∧
      ¬ Faithful (startedUnder loaded) loaded ((startedUnder loaded).reload nanos twoYears
        (.ok (fileOf [.named "BOGUS"] "forever" none)))) ∧
    (∃ loaded, etcSource.load nanos twoYears (.ok (fileOf [] "+10000-01-01" none)) =
        .ok loaded ∧
      ¬ Faithful (startedUnder loaded) loaded ((startedUnder loaded).reload nanos twoYears
        (.ok (fileOf [] "+10000-01-01" none)))) ∧
    (∃ running loaded, etcSource.load nanos twoYears
        (.ok (fileOf [] "forever" (some "devices.state.toml"))) = .ok running ∧
      etcSource.load nanos twoYears (.ok (fileOf [] "forever" none)) = .ok loaded ∧
      ¬ Faithful (startedUnder running) loaded ((startedUnder running).reload nanos twoYears
        (.ok (fileOf [] "forever" none)))) := by
  refine ⟨⟨configOf [⟨"BOGUS", some 60000000000⟩] .forever none, by decide +kernel, ?_⟩,
    ⟨configOf [] (.since ⟨"+10000-01-01T00:00:00.000Z"⟩) none, by decide +kernel, ?_⟩,
    ⟨configOf [] .forever (some "/etc/sismatic/devices.state.toml"),
      configOf [] .forever none, by decide +kernel, by decide +kernel, ?_⟩⟩
  · intro hfaithful
    obtain ⟨⟨applied, happlied⟩, -⟩ := hfaithful.same ⟨rfl, rfl⟩
    have hrefused : ((startedUnder (configOf [⟨"BOGUS", some 60000000000⟩] .forever none)).reload
        nanos twoYears (.ok (fileOf [.named "BOGUS"] "forever" none))).2.isOk = false := by
      decide +kernel
    rw [happlied] at hrefused
    cases hrefused
  · intro hfaithful
    obtain ⟨⟨applied, happlied⟩, -⟩ := hfaithful.same ⟨rfl, rfl⟩
    have hrefused : ((startedUnder
        (configOf [] (.since ⟨"+10000-01-01T00:00:00.000Z"⟩) none)).reload
        nanos twoYears (.ok (fileOf [] "+10000-01-01" none))).2.isOk = false := by
      decide +kernel
    rw [happlied] at hrefused
    cases hrefused
  · intro hfaithful
    obtain ⟨⟨what, hwhat⟩, -⟩ := hfaithful.moved fun hsame => absurd hsame.2 (by decide)
    have happlied : ((startedUnder (configOf [] .forever
        (some "/etc/sismatic/devices.state.toml"))).reload
        nanos twoYears (.ok (fileOf [] "forever" none))).2.isOk = true := by
      decide +kernel
    rw [hwhat] at happlied
    cases happlied

end Sismatic.Configuration
