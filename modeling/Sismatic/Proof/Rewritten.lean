import Sismatic.Proof.Reload

/-!
# The store's settings, written into a file

A document's store section is three texts. Put into a file as they stand, they are read by
the visitors that read the operator's own. Two of them always come back as they were, and
so does a retention whose floor, where it has one, falls in a year of four digits.
-/

namespace Sismatic.Configuration

variable {h : Humantime} {c : Calendar}

/-- A file that states the three texts of a document's store section and nothing else. -/
def storeFile (store : StoreSettings) (cleanupOnRemove : Bool) : ConfigFile where
  defaults := ⟨none, none, none, none⟩
  intentRelay := none
  sync := none
  inventory := none
  store := some
    ⟨some (.text store.retain), some (.text store.cleanupInterval), some (.text store.maxMemory),
      some cleanupOnRemove⟩
  http := none

/-- What the loader makes of that file's store section. -/
def reread (h : Humantime) (c : Calendar) (store : StoreSettings) (cleanupOnRemove : Bool) :
    Except String StoreConfig := do
  let raw ← (storeFile store cleanupOnRemove).deserialize h c
  return (resolveConfig "" raw).store

/-- What is read of each of the three texts, and nothing where one cannot be read. -/
theorem reread_eq (store : StoreSettings) (cleanupOnRemove : Bool) :
    reread h c store cleanupOnRemove =
      (retentionOfText h c store.retain).bind fun retain =>
        (durationOfText h store.cleanupInterval).bind fun every =>
          (bytesOfText store.maxMemory).map fun cap =>
            ⟨retain, handleCleanup every, handleBudget cap, cleanupOnRemove⟩ := by
  simp only [reread, storeFile, ConfigFile.deserialize, Option.mapM_some,
    StoreSection.deserialize, retentionOf, durationOf, bytesOf]
  cases retentionOfText h c store.retain with
  | error err => rfl
  | ok retain =>
      cases durationOfText h store.cleanupInterval with
      | error err => rfl
      | ok every =>
          cases bytesOfText store.maxMemory with
          | error err => rfl
          | ok cap => rfl

/-- A text that is read as a setting was read. -/
theorem ok_of_map {ε α β : Type} {x : Except ε α} {f : α → β} {b : β} (hmap : x.map f = .ok b) :
    ∃ a, x = .ok a ∧ f a = b := by
  cases x with
  | error err => cases hmap
  | ok a => exact ⟨a, rfl, Except.ok.inj hmap⟩

/-- A retention that was written is read back as it was exactly when its floor is dated. -/
theorem retentionOfText_iff (hh : h.Documented) (hc : c.Documented) {retain : Retention}
    (hwritten : retain.Written c) :
    retentionOfText h c (renderRetention h retain) = .ok retain ↔ retain.Dated c := by
  refine ⟨fun hread => ?_, fun hdated => retentionOfText_render hh hc hwritten hdated⟩
  by_contra hundated
  obtain ⟨err, herr⟩ := retentionOfText_undated hh hc hwritten hundated
  rw [herr] at hread
  cases hread

/--
**The store's settings survive as text exactly when the floor is dated.** Every size is read
back from its text, and so are the cleanup interval and the cap of whatever the loader
returns.
-/
theorem reread_iff (hh : h.Documented) (hc : c.Documented) {source : ConfigSource}
    {file : Except String ConfigFile} {loaded : ServerConfig}
    (hload : source.load h c file = .ok loaded) :
    (∀ n, bytes (formatBytes n) = .ok n) ∧
    (durationOfText h (document h loaded).store.cleanupInterval).map handleCleanup =
      .ok loaded.store.cleanup ∧
    (bytesOfText (document h loaded).store.maxMemory).map handleBudget =
      .ok loaded.store.maxMemory ∧
    (retentionOfText h c (document h loaded).store.retain = .ok loaded.store.retain ↔
      loaded.store.retain.Dated c) ∧
    (reread h c (document h loaded).store loaded.store.cleanupOnRemove = .ok loaded.store ↔
      loaded.store.retain.Dated c) := by
  have hresolved := resolved_of_load hh hload
  obtain ⟨every, hlt, hcleanup⟩ := hresolved.cleanup
  obtain ⟨cap, hcap⟩ := hresolved.maxMemory
  have hevery : (durationOfText h (document h loaded).store.cleanupInterval).map handleCleanup =
      .ok loaded.store.cleanup := by
    rw [document, hcleanup]
    exact durationOfText_cleanup hh hlt
  have hbudget : (bytesOfText (document h loaded).store.maxMemory).map handleBudget =
      .ok loaded.store.maxMemory := by
    rw [document, hcap]
    exact bytesOfText_budget cap
  have hretain : retentionOfText h c (document h loaded).store.retain = .ok loaded.store.retain ↔
      loaded.store.retain.Dated c :=
    retentionOfText_iff hh hc hresolved.retain
  refine ⟨bytes_formatBytes, hevery, hbudget, hretain, ?_⟩
  obtain ⟨readEvery, hreadEvery, hsameEvery⟩ := ok_of_map hevery
  obtain ⟨readCap, hreadCap, hsameCap⟩ := ok_of_map hbudget
  rw [← hretain, reread_eq, hreadEvery, hreadCap]
  refine ⟨fun hread => ?_, fun hread => ?_⟩
  · cases hfloor : retentionOfText h c (document h loaded).store.retain with
    | error err => rw [hfloor] at hread; cases hread
    | ok retain =>
        rw [hfloor] at hread
        have hstore := congrArg StoreConfig.retain (Except.ok.inj hread)
        exact congrArg Except.ok hstore
  · rw [hread]
    simp only [Except.bind, Except.map, hsameEvery, hsameCap]

/-- A floor in a year of four digits comes back, with everything next to it. -/
theorem reread_dated :
    reread nanos twoYears
      (document nanos (configOf [⟨"RUNNING_STATE", some 5000000000⟩,
        ⟨"FIRMWARE", some 60000000000⟩] (.since ⟨"2026-01-01T00:00:00.000Z"⟩) none)).store false =
      .ok ⟨.since ⟨"2026-01-01T00:00:00.000Z"⟩, some 500, some 1073741824, false⟩ :=
  (reread_iff nanos_documented twoYears_documented load_spelled).2.2.2.2.mpr
    ⟨false, rfl, by decide, by decide⟩

/-- A floor past the year 9999 is loaded, and its text is refused. -/
theorem reread_undated :
    ∃ loaded, etcSource.load nanos twoYears (.ok (fileOf [] "+10000-01-01" none)) = .ok loaded ∧
      reread nanos twoYears (document nanos loaded).store loaded.store.cleanupOnRemove ≠
        .ok loaded.store := by
  have hload : etcSource.load nanos twoYears (.ok (fileOf [] "+10000-01-01" none)) =
      .ok (configOf [] (.since ⟨"+10000-01-01T00:00:00.000Z"⟩) none) := by
    decide +kernel
  refine ⟨_, hload, fun hread => ?_⟩
  have hrefused : (reread nanos twoYears (document nanos
      (configOf [] (.since ⟨"+10000-01-01T00:00:00.000Z"⟩) none)).store false).isOk = false := by
    decide +kernel
  have hkept : (configOf [] (.since ⟨"+10000-01-01T00:00:00.000Z"⟩) none).store.cleanupOnRemove =
      false := rfl
  rw [hkept] at hread
  rw [hread] at hrefused
  cases hrefused

end Sismatic.Configuration
