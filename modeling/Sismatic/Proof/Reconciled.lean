import Sismatic.Core.Learned
import Sismatic.Proof.Undisturbed

/-!
# Making the registry match a document

The diff takes the devices a document resolves to one by one. What it makes of one it makes of
the registry before, whatever it has made of the others: the handle that was there, one that
shares what the handle before had learned, or one that has learned nothing. From that one step
the whole pass follows, with the ids it reports.
-/

namespace Sismatic

open Devices

variable {R : LearningRegistry}

/-! ## The learned sets ride on the diff -/

theorem applyOne_registry (acc : LearningRegistry × RegistryChange) (config : DeviceConfig) :
    Registry.applyOne (acc.1.registry, acc.2) config =
      ((LearningRegistry.applyOne acc config).1.registry,
        (LearningRegistry.applyOne acc config).2) := by
  unfold Registry.applyOne LearningRegistry.applyOne
  cases acc.1.registry.device config.id with
  | none => rfl
  | some existing =>
      by_cases huuid : existing.config.uuid = config.uuid
      · simp only [if_pos huuid]
      · simp only [if_neg huuid]
        rfl

theorem foldl_applyOne_registry (configs : List DeviceConfig)
    (acc : LearningRegistry × RegistryChange) :
    configs.foldl Registry.applyOne (acc.1.registry, acc.2) =
      ((configs.foldl LearningRegistry.applyOne acc).1.registry,
        (configs.foldl LearningRegistry.applyOne acc).2) := by
  induction configs generalizing acc with
  | nil => rfl
  | cons config configs ih => rw [List.foldl_cons, List.foldl_cons, applyOne_registry, ih]

/-- What the sets add to the registry changes nothing of what is done to it. -/
theorem apply_registry (R : LearningRegistry) (resolved : Resolved) :
    R.registry.apply resolved = ((R.apply resolved).1.registry, (R.apply resolved).2) := by
  have hfold := foldl_applyOne_registry (Registry.desired resolved.devices) (R, ⟨[], [], [], 0⟩)
  dsimp only at hfold
  simp only [Registry.apply, LearningRegistry.apply, hfold]

/-! ## One device -/

/-- One handle for each id, and every handle and set was made. -/
structure Devices.LearningRegistry.Kept (R : LearningRegistry) : Prop where
  oneEach : R.registry.OneEach
  handles : ∀ d ∈ R.registry.devices, d.handle < R.registry.made
  sets : ∀ d ∈ R.registry.devices, R.autoDisabled d < R.madeSets

/-- Nothing that was made before is made again, and what was made is as it was. -/
structure Devices.LearningRegistry.Extends (R after : LearningRegistry) : Prop where
  made : R.registry.made ≤ after.registry.made
  madeSets : R.madeSets ≤ after.madeSets
  sharedBy : ∀ handle < R.registry.made, after.sharedBy handle = R.sharedBy handle
  learned : ∀ set < R.madeSets, after.learned set = R.learned set

theorem Devices.LearningRegistry.Extends.refl (R : LearningRegistry) : R.Extends R :=
  ⟨Nat.le_refl _, Nat.le_refl _, fun _ _ => rfl, fun _ _ => rfl⟩

theorem Devices.LearningRegistry.Extends.trans {after later : LearningRegistry}
    (h : R.Extends after) (h' : after.Extends later) : R.Extends later where
  made := h.made.trans h'.made
  madeSets := h.madeSets.trans h'.madeSets
  sharedBy handle hlt := (h'.sharedBy handle (hlt.trans_le h.made)).trans (h.sharedBy handle hlt)
  learned set hlt := (h'.learned set (hlt.trans_le h.madeSets)).trans (h.learned set hlt)

/-- What is made of one device: the handle there was, one in its place, or a new one. -/
def Matched (R after : LearningRegistry) (config : DeviceConfig) : Prop :=
  match R.registry.device config.id with
  | some existing =>
      if existing.config.uuid = config.uuid then after.registry.device config.id = some existing
      else
        ∃ d, after.registry.device config.id = some d ∧ d.config = config ∧
          R.registry.made ≤ d.handle ∧ after.autoDisabled d = R.autoDisabled existing
  | none =>
      ∃ d, after.registry.device config.id = some d ∧ d.config = config ∧
        R.madeSets ≤ after.autoDisabled d ∧ after.learned (after.autoDisabled d) = .new

theorem insertWith_spec (h : R.Kept) (config : DeviceConfig) {set : Nat} (hset : set < R.madeSets) :
    (R.insertWith config set).Kept ∧ R.Extends (R.insertWith config set) ∧
      (R.insertWith config set).registry.device config.id = some ⟨R.registry.made, config⟩ ∧
      (R.insertWith config set).autoDisabled ⟨R.registry.made, config⟩ = set ∧
      ∀ id, id ≠ config.id →
        (R.insertWith config set).registry.device id = R.registry.device id := by
  have hnew : (R.insertWith config set).autoDisabled ⟨R.registry.made, config⟩ = set :=
    Function.update_self ..
  have hold : ∀ handle < R.registry.made,
      (R.insertWith config set).sharedBy handle = R.sharedBy handle :=
    fun handle hlt => Function.update_of_ne (Nat.ne_of_lt hlt) ..
  refine ⟨⟨oneEach_insert h.oneEach config, ?_, ?_⟩, ⟨Nat.le_succ _, Nat.le_refl _, hold,
    fun _ _ => rfl⟩, (device_insert h.oneEach config).1, hnew, (device_insert h.oneEach config).2⟩
  · intro d hd
    rcases mem_insert.mp hd with rfl | ⟨hd, -⟩
    · exact Nat.lt_succ_self _
    · exact (h.handles d hd).trans (Nat.lt_succ_self _)
  · intro d hd
    rcases mem_insert.mp hd with rfl | ⟨hd, -⟩
    · rw [hnew]
      exact hset
    · have hkept := h.sets d hd
      rw [LearningRegistry.autoDisabled] at hkept ⊢
      rw [hold d.handle (h.handles d hd)]
      exact hkept

theorem insertNew_spec (h : R.Kept) (config : DeviceConfig) :
    (R.insertNew config).Kept ∧ R.Extends (R.insertNew config) ∧
      (∃ d, (R.insertNew config).registry.device config.id = some d ∧ d.config = config ∧
        R.madeSets ≤ (R.insertNew config).autoDisabled d ∧
        (R.insertNew config).learned ((R.insertNew config).autoDisabled d) = .new) ∧
      ∀ id, id ≠ config.id → (R.insertNew config).registry.device id = R.registry.device id := by
  -- the set is made before the handle that shares it
  have hkept : LearningRegistry.Kept { R with
      learned := Function.update R.learned R.madeSets .new
      madeSets := R.madeSets + 1 } :=
    ⟨h.oneEach, h.handles, fun d hd => (h.sets d hd).trans (Nat.lt_succ_self _)⟩
  obtain ⟨hkept', hext, hdevice, hset, hothers⟩ :=
    insertWith_spec hkept config (Nat.lt_succ_self R.madeSets)
  have hset : (R.insertNew config).autoDisabled ⟨R.registry.made, config⟩ = R.madeSets := hset
  refine ⟨hkept', ?_, ⟨_, hdevice, rfl, hset.ge, ?_⟩, hothers⟩
  · refine ⟨hext.made, (Nat.le_succ _).trans hext.madeSets, hext.sharedBy, fun set hlt => ?_⟩
    exact (hext.learned set (hlt.trans (Nat.lt_succ_self _))).trans
      (Function.update_of_ne (Nat.ne_of_lt hlt) ..)
  · rw [hset]
    exact Function.update_self ..

/-- What the pass does with one device. -/
theorem applyOne_spec {acc : LearningRegistry × RegistryChange} (h : acc.1.Kept)
    (config : DeviceConfig) :
    (LearningRegistry.applyOne acc config).1.Kept ∧
      acc.1.Extends (LearningRegistry.applyOne acc config).1 ∧
      Matched acc.1 (LearningRegistry.applyOne acc config).1 config ∧
      ∀ id, id ≠ config.id → (LearningRegistry.applyOne acc config).1.registry.device id =
        acc.1.registry.device id := by
  unfold LearningRegistry.applyOne Matched
  cases hold : acc.1.registry.device config.id with
  | none =>
      exact insertNew_spec h config
  | some existing =>
      dsimp only
      by_cases huuid : existing.config.uuid = config.uuid
      · rw [if_pos huuid, if_pos huuid]
        exact ⟨h, .refl _, hold, fun _ _ => rfl⟩
      · rw [if_neg huuid, if_neg huuid]
        have hexisting := ((device_eq_some h.oneEach).mp hold).1
        obtain ⟨hkept, hext, hdevice, hset, hothers⟩ :=
          insertWith_spec h config (h.sets existing hexisting)
        exact ⟨hkept, hext, ⟨_, hdevice, rfl, Nat.le_refl _, hset⟩, hothers⟩

/-! ## The whole pass -/

/-- What was made of a device stays, while the pass goes on with others. -/
theorem Matched.later {after later : LearningRegistry} {config : DeviceConfig}
    (h : Matched R after config) (hafter : after.Kept) (hext : after.Extends later)
    (hsame : later.registry.device config.id = after.registry.device config.id) :
    Matched R later config := by
  unfold Matched at h ⊢
  have hset : ∀ d, after.registry.device config.id = some d →
      later.autoDisabled d = after.autoDisabled d := fun d hd =>
    hext.sharedBy d.handle (hafter.handles d ((device_eq_some hafter.oneEach).mp hd).1)
  cases hold : R.registry.device config.id with
  | none =>
      rw [hold] at h
      obtain ⟨d, hd, hconfig, hfresh, hempty⟩ := h
      refine ⟨d, hsame.trans hd, hconfig, hset d hd ▸ hfresh, ?_⟩
      rw [hset d hd, hext.learned _ (hafter.sets d ((device_eq_some hafter.oneEach).mp hd).1)]
      exact hempty
  | some existing =>
      rw [hold] at h
      dsimp only at h ⊢
      by_cases huuid : existing.config.uuid = config.uuid
      · rw [if_pos huuid] at h ⊢
        exact hsame.trans h
      · rw [if_neg huuid] at h ⊢
        obtain ⟨d, hd, hconfig, hfresh, hshares⟩ := h
        exact ⟨d, hsame.trans hd, hconfig, hfresh, (hset d hd).trans hshares⟩

/-- What is made of a device is made of it as it was before the pass came to others. -/
theorem Matched.earlier {mid after : LearningRegistry} {config : DeviceConfig} (hR : R.Kept)
    (hext : R.Extends mid)
    (hsame : mid.registry.device config.id = R.registry.device config.id)
    (h : Matched mid after config) : Matched R after config := by
  unfold Matched at h ⊢
  rw [hsame] at h
  cases hold : R.registry.device config.id with
  | none =>
      rw [hold] at h
      obtain ⟨d, hd, hconfig, hfresh, hempty⟩ := h
      exact ⟨d, hd, hconfig, hext.madeSets.trans hfresh, hempty⟩
  | some existing =>
      rw [hold] at h
      dsimp only at h ⊢
      by_cases huuid : existing.config.uuid = config.uuid
      · rw [if_pos huuid] at h ⊢
        exact h
      · rw [if_neg huuid] at h ⊢
        obtain ⟨d, hd, hconfig, hfresh, hshares⟩ := h
        have hexisting := ((device_eq_some hR.oneEach).mp hold).1
        refine ⟨d, hd, hconfig, hext.made.trans hfresh, hshares.trans ?_⟩
        exact hext.sharedBy existing.handle (hR.handles existing hexisting)

theorem foldl_applyOne_spec {configs : List DeviceConfig} (hnodup : (configs.map (·.id)).Nodup)
    (acc : LearningRegistry × RegistryChange) (h : acc.1.Kept) :
    (configs.foldl LearningRegistry.applyOne acc).1.Kept ∧
      acc.1.Extends (configs.foldl LearningRegistry.applyOne acc).1 ∧
      (∀ config ∈ configs, Matched acc.1 (configs.foldl LearningRegistry.applyOne acc).1 config) ∧
      ∀ id, id ∉ configs.map (·.id) →
        (configs.foldl LearningRegistry.applyOne acc).1.registry.device id =
          acc.1.registry.device id := by
  induction configs generalizing acc with
  | nil => exact ⟨h, .refl _, by simp, fun _ _ => rfl⟩
  | cons config configs ih =>
      obtain ⟨hnew, hnodup⟩ := List.nodup_cons.mp hnodup
      obtain ⟨hkept, hext, hfirst, hothers⟩ := applyOne_spec h config
      obtain ⟨hkept', hext', hall, hrest⟩ := ih hnodup _ hkept
      rw [List.foldl_cons]
      refine ⟨hkept', hext.trans hext', ?_, ?_⟩
      · intro other hother
        rcases List.mem_cons.mp hother with rfl | hother
        · exact hfirst.later hkept hext' (hrest _ hnew)
        · have hne : other.id ≠ config.id := by
            intro heq
            exact hnew (List.mem_map.mpr ⟨other, hother, heq⟩)
          exact (hall other hother).earlier h hext (hothers other.id hne)
      · intro id hid
        rw [List.map_cons, List.mem_cons, not_or] at hid
        exact (hrest id hid.2).trans (hothers id hid.1)

/-! ## What is reported -/

/-- What becomes of a device that is asked for. -/
inductive Verdict
  | added | replaced | unchanged
deriving DecidableEq

def Devices.Registry.verdict (r : Registry) (config : DeviceConfig) : Verdict :=
  match r.device config.id with
  | some existing => if existing.config.uuid = config.uuid then .unchanged else .replaced
  | none => .added

/-- The ids a verdict is passed on, in the order of the pass. -/
def passedOn (r : Devices.Registry) (verdict : Verdict) (configs : List DeviceConfig) :
    List DeviceId :=
  (configs.filter fun config => r.verdict config = verdict).map (·.id)

theorem passedOn_congr {r r' : Devices.Registry} {configs : List DeviceConfig}
    (h : ∀ config ∈ configs, r'.device config.id = r.device config.id) (verdict : Verdict) :
    passedOn r' verdict configs = passedOn r verdict configs := by
  unfold passedOn
  refine congrArg _ (List.filter_congr fun config hconfig => ?_)
  rw [Registry.verdict, Registry.verdict, h config hconfig]

theorem passedOn_cons (r : Devices.Registry) (verdict : Verdict) (config : DeviceConfig)
    (configs : List DeviceConfig) :
    passedOn r verdict (config :: configs) =
      (if r.verdict config = verdict then [config.id] else []) ++ passedOn r verdict configs := by
  unfold passedOn
  by_cases hverdict : r.verdict config = verdict
  · rw [List.filter_cons_of_pos (by simpa using hverdict), if_pos hverdict]
    rfl
  · rw [List.filter_cons_of_neg (by simpa using hverdict), if_neg hverdict]
    rfl

/-- One device adds its id to the report, or counts. -/
theorem applyOne_change (acc : LearningRegistry × RegistryChange) (config : DeviceConfig) :
    (LearningRegistry.applyOne acc config).2 =
      { acc.2 with
        added := acc.2.added ++
          if acc.1.registry.verdict config = .added then [config.id] else []
        replaced := acc.2.replaced ++
          if acc.1.registry.verdict config = .replaced then [config.id] else []
        unchanged := acc.2.unchanged +
          (if acc.1.registry.verdict config = .unchanged then [config.id] else []).length } := by
  unfold LearningRegistry.applyOne Registry.verdict
  cases acc.1.registry.device config.id with
  | none => simp
  | some existing =>
      dsimp only
      by_cases huuid : existing.config.uuid = config.uuid
      · simp [if_pos huuid]
      · simp [if_neg huuid]

theorem foldl_applyOne_change {configs : List DeviceConfig} (hnodup : (configs.map (·.id)).Nodup)
    (acc : LearningRegistry × RegistryChange) (h : acc.1.Kept) :
    (configs.foldl LearningRegistry.applyOne acc).2 =
      { acc.2 with
        added := acc.2.added ++ passedOn acc.1.registry .added configs
        replaced := acc.2.replaced ++ passedOn acc.1.registry .replaced configs
        unchanged := acc.2.unchanged + (passedOn acc.1.registry .unchanged configs).length } := by
  induction configs generalizing acc with
  | nil => simp [passedOn]
  | cons config configs ih =>
      obtain ⟨hnew, hnodup⟩ := List.nodup_cons.mp hnodup
      obtain ⟨hkept, -, -, hothers⟩ := applyOne_spec h config
      have hrest := @passedOn_congr acc.1.registry
        (LearningRegistry.applyOne acc config).1.registry configs fun other hother =>
          hothers other.id fun heq => hnew (List.mem_map.mpr ⟨other, hother, heq⟩)
      rw [List.foldl_cons, ih hnodup _ hkept, applyOne_change]
      simp only [hrest, passedOn_cons, List.append_assoc, List.length_append, Nat.add_assoc]

/-! ## The registry and the document -/

/-- **The registry after a pass, and its report, are exactly what the document asks for.** -/
structure Reconciled (R : LearningRegistry) (resolved : Resolved) (after : LearningRegistry)
    (change : RegistryChange) : Prop where
  /-- One handle for each resolved device, over its configuration, and no others. -/
  devices : ∀ id, (after.registry.device id).map (·.config) =
    resolved.devices.find? fun config => config.id = id
  oneEach : after.registry.OneEach
  /-- The very same handle, where the identity did not change. -/
  kept : ∀ config ∈ resolved.devices, ∀ old, R.registry.device config.id = some old →
    old.config.uuid = config.uuid → after.registry.device config.id = some old ∧
      after.autoDisabled old = R.autoDisabled old ∧
        after.learned (R.autoDisabled old) = R.learned (R.autoDisabled old)
  /-- A new handle that shares the learned set, where it did. -/
  replaced : ∀ config ∈ resolved.devices, ∀ old, R.registry.device config.id = some old →
    old.config.uuid ≠ config.uuid → ∃ new, after.registry.device config.id = some new ∧
      (∀ d ∈ R.registry.devices, new.handle ≠ d.handle) ∧
        after.autoDisabled new = R.autoDisabled old ∧
          after.learned (R.autoDisabled old) = R.learned (R.autoDisabled old)
  /-- A new handle that has learned nothing, and shares what no other had. -/
  added : ∀ config ∈ resolved.devices, R.registry.device config.id = none →
    ∃ new, after.registry.device config.id = some new ∧
      (∀ d ∈ R.registry.devices, after.autoDisabled new ≠ R.autoDisabled d) ∧
        after.learned (after.autoDisabled new) = .new
  addedIds : ∀ id, id ∈ change.added ↔
    R.registry.device id = none ∧ ∃ config ∈ resolved.devices, config.id = id
  replacedIds : ∀ id, id ∈ change.replaced ↔ ∃ old, R.registry.device id = some old ∧
    ∃ config ∈ resolved.devices, config.id = id ∧ old.config.uuid ≠ config.uuid
  removedIds : ∀ id, id ∈ change.removed ↔
    (R.registry.device id).isSome ∧ ∀ config ∈ resolved.devices, config.id ≠ id
  /-- The rest are counted: together these are the old ids and the new, each once. -/
  partition : ∃ unchanged : List DeviceId, change.unchanged = unchanged.length ∧
    (∀ id, id ∈ unchanged ↔ ∃ old, R.registry.device id = some old ∧
      ∃ config ∈ resolved.devices, config.id = id ∧ old.config.uuid = config.uuid) ∧
    (change.added ++ change.replaced ++ change.removed ++ unchanged).Nodup ∧
    ∀ id, id ∈ change.added ++ change.replaced ++ change.removed ++ unchanged ↔
      (R.registry.device id).isSome ∨ ∃ config ∈ resolved.devices, config.id = id
  /-- Each group is over the handles now registered for its members, in their order. -/
  groups : ∀ group ∈ resolved.groups, ∃ g, after.registry.group group.id = some g ∧
    g.devices.map some = group.deviceIds.map after.registry.device
  noOthers : ∀ g ∈ after.registry.groups, ∃ group ∈ resolved.groups, group.id = g.id

/-- The ids that are reported, before they are sorted. -/
theorem mem_passedOn {r : Devices.Registry} {configs : List DeviceConfig} {verdict : Verdict}
    {id : DeviceId} : id ∈ passedOn r verdict configs ↔
      ∃ config ∈ configs, config.id = id ∧ r.verdict config = verdict := by
  unfold passedOn
  simp only [List.mem_map, List.mem_filter, decide_eq_true_eq]
  exact exists_congr fun config => ⟨fun ⟨⟨hmem, hv⟩, hid⟩ => ⟨hmem, hid, hv⟩,
    fun ⟨hmem, hid, hv⟩ => ⟨⟨hmem, hv⟩, hid⟩⟩

theorem verdict_added {r : Devices.Registry} {config : DeviceConfig} :
    r.verdict config = .added ↔ r.device config.id = none := by
  unfold Registry.verdict
  cases r.device config.id with
  | none => simp
  | some existing =>
      dsimp only
      split <;> simp

theorem verdict_replaced {r : Devices.Registry} {config : DeviceConfig} :
    r.verdict config = .replaced ↔
      ∃ old, r.device config.id = some old ∧ old.config.uuid ≠ config.uuid := by
  unfold Registry.verdict
  cases r.device config.id with
  | none => simp
  | some existing =>
      dsimp only
      split
      · rename_i huuid
        simp [huuid]
      · rename_i huuid
        simp [huuid]

theorem verdict_unchanged {r : Devices.Registry} {config : DeviceConfig} :
    r.verdict config = .unchanged ↔
      ∃ old, r.device config.id = some old ∧ old.config.uuid = config.uuid := by
  unfold Registry.verdict
  cases r.device config.id with
  | none => simp
  | some existing =>
      dsimp only
      split
      · rename_i huuid
        simp [huuid]
      · rename_i huuid
        simp [huuid]

/-! ## Exactly -/

/-- A pass keeps what the devices asked for came to. -/
theorem apply_device_of_mem (h : R.Kept) {resolved : Resolved}
    (hnodup : (resolved.devices.map (·.id)).Nodup) {config : DeviceConfig}
    (hconfig : config ∈ resolved.devices) :
    Matched R (R.apply resolved).1 config := by
  have hwanted := (mem_desired hnodup).mpr hconfig
  obtain ⟨hkept, -, hall, -⟩ :=
    foldl_applyOne_spec (desired_nodup resolved.devices) (R, ⟨[], [], [], 0⟩) h
  have hone : (R.apply resolved).1.registry.OneEach := by
    have honly := (apply_device h.oneEach hnodup).1
    rw [apply_registry] at honly
    exact honly
  refine (hall config hwanted).later hkept ⟨Nat.le_refl _, Nat.le_refl _, fun _ _ => rfl,
    fun _ _ => rfl⟩ (Option.ext fun d => ?_)
  rw [device_eq_some hone, device_eq_some hkept.oneEach]
  change d ∈ List.filter _ _ ∧ _ ↔ _
  rw [List.mem_filter, and_assoc]
  refine and_congr_right fun _ => and_iff_right_of_imp fun hid => ?_
  rw [hid]
  exact List.contains_iff_mem.mpr (List.mem_map_of_mem hwanted)

theorem extends_apply (h : R.Kept) (resolved : Resolved) :
    R.Extends (R.apply resolved).1 := by
  obtain ⟨-, hext, -, -⟩ :=
    foldl_applyOne_spec (desired_nodup resolved.devices) (R, ⟨[], [], [], 0⟩) h
  exact ⟨hext.made, hext.madeSets, hext.sharedBy, hext.learned⟩

/-- The ids that were registered and are not asked for. -/
theorem mem_removed (h : R.Kept) {resolved : Resolved}
    (hnodup : (resolved.devices.map (·.id)).Nodup) {id : DeviceId} :
    id ∈ (R.apply resolved).2.removed ↔
      (R.registry.device id).isSome ∧ ∀ config ∈ resolved.devices, config.id ≠ id := by
  obtain ⟨hkept, -, -, hrest⟩ :=
    foldl_applyOne_spec (desired_nodup resolved.devices) (R, ⟨[], [], [], 0⟩) h
  have hwanted : id ∈ (Registry.desired resolved.devices).map (·.id) ↔
      ∃ config ∈ resolved.devices, config.id = id := by
    rw [List.mem_map]
    exact exists_congr fun config => and_congr_left fun _ => mem_desired hnodup
  change id ∈ (List.map _ (List.filter _ _)).insertionSort (· ≤ ·) ↔ _
  rw [List.mem_insertionSort, List.mem_map]
  have hnone : (∀ config ∈ resolved.devices, config.id ≠ id) ↔
      id ∉ (Registry.desired resolved.devices).map (·.id) := by
    rw [hwanted, not_exists]
    simp only [not_and, ne_eq]
  rw [hnone]
  refine ⟨fun ⟨d, hd, hid⟩ => ?_, fun ⟨hsome, hstale⟩ => ?_⟩
  · obtain ⟨hmem, hstale⟩ := List.mem_filter.mp hd
    have hstale : id ∉ (Registry.desired resolved.devices).map (·.id) := by
      rw [← hid]
      simpa [List.contains_iff_mem] using hstale
    refine ⟨?_, hstale⟩
    rw [← hrest id hstale, (device_eq_some hkept.oneEach).mpr ⟨hmem, hid⟩]
    rfl
  · obtain ⟨d, hd⟩ := Option.isSome_iff_exists.mp hsome
    rw [← hrest id hstale] at hd
    obtain ⟨hmem, hid⟩ := (device_eq_some hkept.oneEach).mp hd
    refine ⟨d, List.mem_filter.mpr ⟨hmem, ?_⟩, hid⟩
    simpa [List.contains_iff_mem, hid] using hstale

/-- What is reported, before the ids are sorted. -/
theorem change_apply (h : R.Kept) (resolved : Resolved) :
    (R.apply resolved).2.added.Perm
        (passedOn R.registry .added (Registry.desired resolved.devices)) ∧
      (R.apply resolved).2.replaced.Perm
        (passedOn R.registry .replaced (Registry.desired resolved.devices)) ∧
      (R.apply resolved).2.unchanged =
        (passedOn R.registry .unchanged (Registry.desired resolved.devices)).length := by
  have hchange := foldl_applyOne_change (desired_nodup resolved.devices) (R, ⟨[], [], [], 0⟩) h
  refine ⟨?_, ?_, ?_⟩
  · refine (List.perm_insertionSort _ _).trans ?_
    rw [hchange]
    exact .refl _
  · refine (List.perm_insertionSort _ _).trans ?_
    rw [hchange]
    exact .refl _
  · exact (congrArg RegistryChange.unchanged hchange).trans (Nat.zero_add _)

theorem passedOn_nodup (r : Devices.Registry) (verdict : Verdict) (configs : List DeviceConfig) :
    (passedOn r verdict (Registry.desired configs)).Nodup :=
  (desired_nodup configs).sublist (List.filter_sublist.map _)

/-- An id is passed on by one verdict only. -/
theorem passedOn_disjoint (r : Devices.Registry) {verdict verdict' : Verdict}
    (hne : verdict ≠ verdict') (configs : List DeviceConfig) :
    (passedOn r verdict (Registry.desired configs)).Disjoint
      (passedOn r verdict' (Registry.desired configs)) := by
  intro id hid hid'
  obtain ⟨config, hconfig, heq, hv⟩ := mem_passedOn.mp hid
  obtain ⟨config', hconfig', heq', hv'⟩ := mem_passedOn.mp hid'
  have hsame : config = config' :=
    List.inj_on_of_nodup_map (desired_nodup configs) hconfig hconfig' (heq.trans heq'.symm)
  exact hne (hv.symm.trans (hsame ▸ hv'))

theorem mem_added (h : R.Kept) {resolved : Resolved}
    (hnodup : (resolved.devices.map (·.id)).Nodup) (id : DeviceId) :
    id ∈ (R.apply resolved).2.added ↔
      R.registry.device id = none ∧ ∃ config ∈ resolved.devices, config.id = id := by
  rw [(change_apply h resolved).1.mem_iff, mem_passedOn]
  refine ⟨fun ⟨config, hconfig, hid, hv⟩ => ?_, fun ⟨hnone, config, hconfig, hid⟩ => ?_⟩
  · exact ⟨hid ▸ verdict_added.mp hv, config, (mem_desired hnodup).mp hconfig, hid⟩
  · exact ⟨config, (mem_desired hnodup).mpr hconfig, hid, verdict_added.mpr (hid ▸ hnone)⟩

theorem mem_replaced (h : R.Kept) {resolved : Resolved}
    (hnodup : (resolved.devices.map (·.id)).Nodup) (id : DeviceId) :
    id ∈ (R.apply resolved).2.replaced ↔ ∃ old, R.registry.device id = some old ∧
      ∃ config ∈ resolved.devices, config.id = id ∧ old.config.uuid ≠ config.uuid := by
  rw [(change_apply h resolved).2.1.mem_iff, mem_passedOn]
  refine ⟨fun ⟨config, hconfig, hid, hv⟩ => ?_, fun ⟨old, hold, config, hconfig, hid, hne⟩ => ?_⟩
  · obtain ⟨old, hold, hne⟩ := verdict_replaced.mp hv
    exact ⟨old, hid ▸ hold, config, (mem_desired hnodup).mp hconfig, hid, hne⟩
  · exact ⟨config, (mem_desired hnodup).mpr hconfig, hid,
      verdict_replaced.mpr ⟨old, hid ▸ hold, hne⟩⟩

theorem mem_unchanged {r : Devices.Registry} {resolved : Resolved}
    (hnodup : (resolved.devices.map (·.id)).Nodup) (id : DeviceId) :
    id ∈ passedOn r .unchanged (Registry.desired resolved.devices) ↔
      ∃ old, r.device id = some old ∧
        ∃ config ∈ resolved.devices, config.id = id ∧ old.config.uuid = config.uuid := by
  rw [mem_passedOn]
  refine ⟨fun ⟨config, hconfig, hid, hv⟩ => ?_, fun ⟨old, hold, config, hconfig, hid, heq⟩ => ?_⟩
  · obtain ⟨old, hold, heq⟩ := verdict_unchanged.mp hv
    exact ⟨old, hid ▸ hold, config, (mem_desired hnodup).mp hconfig, hid, heq⟩
  · exact ⟨config, (mem_desired hnodup).mpr hconfig, hid,
      verdict_unchanged.mpr ⟨old, hid ▸ hold, heq⟩⟩

theorem removed_nodup (h : R.Kept) (resolved : Resolved) :
    (R.apply resolved).2.removed.Nodup := by
  obtain ⟨hkept, -, -, -⟩ :=
    foldl_applyOne_spec (desired_nodup resolved.devices) (R, ⟨[], [], [], 0⟩) h
  refine (List.perm_insertionSort _ _).nodup_iff.mpr ?_
  exact hkept.oneEach.sublist (List.filter_sublist.map _)

/-- **The ids there were and the ids there are, each once.** -/
theorem partition_ids (h : R.Kept) {resolved : Resolved}
    (hnodup : (resolved.devices.map (·.id)).Nodup) :
    ∃ unchanged : List DeviceId, (R.apply resolved).2.unchanged = unchanged.length ∧
      (∀ id, id ∈ unchanged ↔ ∃ old, R.registry.device id = some old ∧
        ∃ config ∈ resolved.devices, config.id = id ∧ old.config.uuid = config.uuid) ∧
      ((R.apply resolved).2.added ++ (R.apply resolved).2.replaced ++
        (R.apply resolved).2.removed ++ unchanged).Nodup ∧
      ∀ id, id ∈ (R.apply resolved).2.added ++ (R.apply resolved).2.replaced ++
          (R.apply resolved).2.removed ++ unchanged ↔
        (R.registry.device id).isSome ∨ ∃ config ∈ resolved.devices, config.id = id := by
  obtain ⟨hadded, hreplaced, hunchanged⟩ := change_apply h resolved
  refine ⟨passedOn R.registry .unchanged (Registry.desired resolved.devices), hunchanged,
    mem_unchanged hnodup, ?_, fun id => ?_⟩
  · have hstale : ∀ verdict, ∀ id ∈ passedOn R.registry verdict (Registry.desired resolved.devices),
        id ∉ (R.apply resolved).2.removed := by
      intro verdict id hid hremoved
      obtain ⟨config, hconfig, heq, -⟩ := mem_passedOn.mp hid
      exact ((mem_removed h hnodup).mp hremoved).2 config ((mem_desired hnodup).mp hconfig) heq
    have hperm := ((hadded.append hreplaced).append
      (List.Perm.refl (R.apply resolved).2.removed)).append
        (List.Perm.refl (passedOn R.registry .unchanged (Registry.desired resolved.devices)))
    rw [hperm.nodup_iff]
    refine List.nodup_append'.mpr ⟨List.nodup_append'.mpr ⟨List.nodup_append'.mpr
      ⟨passedOn_nodup _ _ _, passedOn_nodup _ _ _, passedOn_disjoint _ (by decide) _⟩,
        removed_nodup h resolved, ?_⟩, passedOn_nodup _ _ _, ?_⟩
    · intro id hid
      rcases List.mem_append.mp hid with hid | hid
      · exact hstale _ id hid
      · exact hstale _ id hid
    · intro id hid hsame
      rcases List.mem_append.mp hid with hid | hremoved
      · rcases List.mem_append.mp hid with hid | hid
        · exact passedOn_disjoint _ (by decide) _ hid hsame
        · exact passedOn_disjoint _ (by decide) _ hid hsame
      · exact hstale _ id hsame hremoved
  · simp only [List.mem_append, mem_added h hnodup, mem_replaced h hnodup, mem_removed h hnodup,
      mem_unchanged hnodup]
    cases hold : R.registry.device id with
    | none => simp
    | some old =>
        by_cases hasked : ∃ config ∈ resolved.devices, config.id = id
        · obtain ⟨config, hconfig, hid⟩ := hasked
          by_cases heq : old.config.uuid = config.uuid
          · exact iff_of_true (.inr ⟨old, rfl, config, hconfig, hid, heq⟩) (.inl rfl)
          · exact iff_of_true (.inl (.inl (.inr ⟨old, rfl, config, hconfig, hid, heq⟩))) (.inl rfl)
        · have hstale : ∀ config ∈ resolved.devices, config.id ≠ id :=
            fun config hconfig hid => hasked ⟨config, hconfig, hid⟩
          exact iff_of_true (.inl (.inr ⟨rfl, hstale⟩)) (.inl rfl)

section Document

variable {newV5 : Uuid → List UInt8 → Uuid}

/-- A registry the program can come to: over devices a document resolved to. -/
structure Devices.LearningRegistry.Held (newV5 : Uuid → List UInt8 → Uuid) (R : LearningRegistry) :
    Prop where
  kept : R.Kept
  stated : ∀ d ∈ R.registry.devices, Stated newV5 d.config

/-- Nothing that is asked for hashes like a registered device of its id and is another. -/
def Devices.LearningRegistry.ToldApart (newV5 : Uuid → List UInt8 → Uuid) (R : LearningRegistry)
    (resolved : Resolved) : Prop :=
  ∀ d ∈ R.registry.devices, ∀ config ∈ resolved.devices, d.config.id = config.id →
    newV5 deviceNamespace (fingerprintBytes d.config) =
      newV5 deviceNamespace (fingerprintBytes config) →
    fingerprintBytes d.config = fingerprintBytes config

/-- A device of the same identity is the same device. -/
theorem config_of_uuid (h : R.Held newV5) {resolved : Resolved} (hsound : resolved.Sound newV5)
    (hapart : R.ToldApart newV5 resolved) {d : Devices.Device}
    (hd : d ∈ R.registry.devices) {config : DeviceConfig} (hconfig : config ∈ resolved.devices)
    (hid : d.config.id = config.id) (huuid : d.config.uuid = config.uuid) : d.config = config := by
  have hold := h.stated d hd
  have hnew := hsound.stated config hconfig
  have hhash : fingerprint newV5 d.config = fingerprint newV5 config := by
    rw [← hold.uuid, ← hnew.uuid, huuid]
  exact eq_of_fingerprintBytes hold hnew hid (hapart d hd config hconfig hid hhash)

/-- The device that is registered for one that is asked for is over its configuration. -/
theorem Matched.config (h : R.Held newV5) {resolved : Resolved} (hsound : resolved.Sound newV5)
    (hapart : R.ToldApart newV5 resolved) {after : LearningRegistry} {config : DeviceConfig}
    (hconfig : config ∈ resolved.devices) (hmatched : Matched R after config) :
    ∃ d, after.registry.device config.id = some d ∧ d.config = config := by
  unfold Matched at hmatched
  cases hold : R.registry.device config.id with
  | none =>
      rw [hold] at hmatched
      obtain ⟨d, hd, hsame, -, -⟩ := hmatched
      exact ⟨d, hd, hsame⟩
  | some existing =>
      rw [hold] at hmatched
      dsimp only at hmatched
      obtain ⟨hmem, hid⟩ := (device_eq_some h.kept.oneEach).mp hold
      split at hmatched
      · rename_i huuid
        exact ⟨existing, hmatched, config_of_uuid h hsound hapart hmem hconfig hid huuid⟩
      · obtain ⟨d, hd, hsame, -, -⟩ := hmatched
        exact ⟨d, hd, hsame⟩

theorem find_config {configs : List DeviceConfig} (hnodup : (configs.map (·.id)).Nodup)
    {id : DeviceId} {config : DeviceConfig} :
    (configs.find? fun config => config.id = id) = some config ↔
      config ∈ configs ∧ config.id = id :=
  find_key (fun config : DeviceConfig => config.id) hnodup

/-- The groups of a document are over devices it has. -/
theorem groupOf_members {r : Devices.Registry} {group : GroupConfig}
    (h : ∀ id ∈ group.deviceIds, (r.device id).isSome) :
    (r.groupOf group).devices.map some = group.deviceIds.map r.device := by
  unfold Registry.groupOf
  exact (map_some_filterMap h).symm

/-- A group is found under its id, over the devices now registered. -/
theorem group_apply {resolved : Resolved} (hsound : resolved.Sound newV5) {group : GroupConfig}
    (hgroup : group ∈ resolved.groups) :
    (R.apply resolved).1.registry.group group.id =
      some ((R.apply resolved).1.registry.groupOf group) := by
  have hmem : ∀ g, g ∈ (R.apply resolved).1.registry.groups ↔
      ∃ group ∈ resolved.groups, g = (R.apply resolved).1.registry.groupOf group :=
    fun g => mem_rebuildGroups hsound.groups_nodup
  cases hfind : (R.apply resolved).1.registry.group group.id with
  | none =>
      have hno := List.find?_eq_none.mp hfind _ ((hmem _).mpr ⟨group, hgroup, rfl⟩)
      exact absurd (decide_eq_true rfl) hno
  | some g =>
      obtain ⟨other, hother, rfl⟩ := (hmem g).mp (List.mem_of_find?_eq_some hfind)
      have hid : ((R.apply resolved).1.registry.groupOf other).id = group.id := by
        simpa using List.find?_some hfind
      rw [List.inj_on_of_nodup_map hsound.groups_nodup hother hgroup hid]

/--
**Reconciliation is exact.** For every registry of devices that were resolved, and every document
that resolves: the handles, the learned sets, the report and the groups are those it asks for.
-/
theorem apply_exact (h : R.Held newV5) {resolved : Resolved} (hsound : resolved.Sound newV5)
    (hapart : R.ToldApart newV5 resolved) :
    Reconciled R resolved (R.apply resolved).1 (R.apply resolved).2 := by
  have hnodup := hsound.devices_nodup
  have hmatched : ∀ config ∈ resolved.devices, Matched R (R.apply resolved).1 config :=
    fun config hconfig => apply_device_of_mem h.kept hnodup hconfig
  have hext := extends_apply h.kept resolved
  have hdiff := apply_device h.kept.oneEach hnodup
  rw [apply_registry] at hdiff
  obtain ⟨hone, -, honly⟩ := hdiff
  have hregistered : ∀ config ∈ resolved.devices, ∃ d,
      (R.apply resolved).1.registry.device config.id = some d ∧ d.config = config :=
    fun config hconfig => (hmatched config hconfig).config h hsound hapart hconfig
  have hset : ∀ d ∈ R.registry.devices,
      (R.apply resolved).1.learned (R.autoDisabled d) = R.learned (R.autoDisabled d) :=
    fun d hd => hext.learned _ (h.kept.sets d hd)
  refine ⟨?_, hone, ?_, ?_, ?_, mem_added h.kept hnodup, mem_replaced h.kept hnodup,
    fun _ => mem_removed h.kept hnodup, partition_ids h.kept hnodup, ?_, ?_⟩
  · intro id
    refine Option.ext fun config => ?_
    rw [find_config hnodup, Option.map_eq_some_iff]
    refine ⟨?_, ?_⟩
    · rintro ⟨d, hd, rfl⟩
      obtain ⟨hmem, hid⟩ := (device_eq_some hone).mp hd
      obtain ⟨config, hconfig, hsame⟩ := honly d hmem
      obtain ⟨d', hd', rfl⟩ := hregistered config hconfig
      rw [hsame, hid, hd] at hd'
      obtain rfl := Option.some.inj hd'
      exact ⟨hconfig, hid⟩
    · rintro ⟨hconfig, rfl⟩
      exact hregistered config hconfig
  · intro config hconfig old hold heq
    have hm := hmatched config hconfig
    unfold Matched at hm
    rw [hold] at hm
    dsimp only at hm
    rw [if_pos heq] at hm
    have hmem := ((device_eq_some h.kept.oneEach).mp hold).1
    exact ⟨hm, hext.sharedBy _ (h.kept.handles old hmem), hset old hmem⟩
  · intro config hconfig old hold hne
    have hm := hmatched config hconfig
    unfold Matched at hm
    rw [hold] at hm
    dsimp only at hm
    rw [if_neg hne] at hm
    obtain ⟨new, hnew, -, hfresh, hshares⟩ := hm
    have hmem := ((device_eq_some h.kept.oneEach).mp hold).1
    refine ⟨new, hnew, fun d hd heq => ?_, hshares, hset old hmem⟩
    have hlt := h.kept.handles d hd
    omega
  · intro config hconfig hnone
    have hm := hmatched config hconfig
    unfold Matched at hm
    rw [hnone] at hm
    obtain ⟨new, hnew, -, hfresh, hempty⟩ := hm
    refine ⟨new, hnew, fun d hd heq => ?_, hempty⟩
    have hlt := h.kept.sets d hd
    omega
  · intro group hgroup
    refine ⟨_, group_apply hsound hgroup, ?_⟩
    refine groupOf_members fun id hid => ?_
    obtain ⟨config, hconfig, rfl⟩ := hsound.members group hgroup id hid
    obtain ⟨d, hd, -⟩ := hregistered config hconfig
    rw [hd]
    rfl
  · intro g hg
    obtain ⟨group, hgroup, rfl⟩ := (mem_rebuildGroups hsound.groups_nodup).mp hg
    exact ⟨group, hgroup, rfl⟩

/-! ## Every registry -/

/-- The registries the program comes to: built and reconciled over resolved documents, while
devices learn. -/
inductive Reached (newV5 : Uuid → List UInt8 → Uuid) : LearningRegistry → Prop
  | build {resolved : Resolved} (h : resolved.Sound newV5) : Reached newV5 (.build resolved)
  | apply {R : LearningRegistry} {resolved : Resolved} (hR : Reached newV5 R)
      (h : resolved.Sound newV5) : Reached newV5 (R.apply resolved).1
  | learn {R : LearningRegistry} (hR : Reached newV5 R) (learned : Nat → AutoDisabled) :
      Reached newV5 { R with learned := learned }

theorem held_foldl_insertNew {configs : List DeviceConfig}
    (hstated : ∀ config ∈ configs, Stated newV5 config) (h : R.Held newV5) :
    (configs.foldl LearningRegistry.insertNew R).Held newV5 := by
  induction configs generalizing R with
  | nil => exact h
  | cons config configs ih =>
      obtain ⟨hfirst, hrest⟩ := List.forall_mem_cons.mp hstated
      refine ih hrest ⟨(insertNew_spec h.kept config).1, fun d hd => ?_⟩
      rcases mem_insert.mp hd with rfl | ⟨hd, -⟩
      · exact hfirst
      · exact h.stated d hd

theorem held_build {resolved : Resolved} (hsound : resolved.Sound newV5) :
    (LearningRegistry.build resolved).Held newV5 := by
  have hempty : LearningRegistry.Held newV5 ⟨⟨[], [], 0⟩, fun _ => 0, fun _ => .new, 0⟩ :=
    ⟨⟨List.nodup_nil, by simp, by simp⟩, by simp⟩
  have hfiled := held_foldl_insertNew hsound.stated hempty
  exact ⟨⟨hfiled.kept.oneEach, hfiled.kept.handles, hfiled.kept.sets⟩, hfiled.stated⟩

theorem held_apply (h : R.Held newV5) {resolved : Resolved} (hsound : resolved.Sound newV5) :
    (R.apply resolved).1.Held newV5 := by
  obtain ⟨hkept, -, -, -⟩ :=
    foldl_applyOne_spec (desired_nodup resolved.devices) (R, ⟨[], [], [], 0⟩) h.kept
  have hdiff := apply_device h.kept.oneEach hsound.devices_nodup
  rw [apply_registry] at hdiff
  obtain ⟨hone, -, honly⟩ := hdiff
  refine ⟨⟨hone, fun d hd => hkept.handles d (List.mem_of_mem_filter hd),
    fun d hd => hkept.sets d (List.mem_of_mem_filter hd)⟩, fun d hd => ?_⟩
  obtain ⟨config, hconfig, hid⟩ := honly d hd
  have hfound := (device_eq_some hone).mpr ⟨hd, hid.symm⟩
  have hm := apply_device_of_mem h.kept hsound.devices_nodup hconfig
  have hstated := hsound.stated config hconfig
  unfold Matched at hm
  rw [hfound] at hm
  cases hold : R.registry.device config.id with
  | none =>
      rw [hold] at hm
      obtain ⟨d', hd', rfl, -, -⟩ := hm
      rw [Option.some.inj hd']
      exact hstated
  | some existing =>
      rw [hold] at hm
      dsimp only at hm
      split at hm
      · rw [Option.some.inj hm]
        exact h.stated existing ((device_eq_some h.kept.oneEach).mp hold).1
      · obtain ⟨d', hd', rfl, -, -⟩ := hm
        rw [Option.some.inj hd']
        exact hstated

theorem Reached.held (h : Reached newV5 R) : R.Held newV5 := by
  induction h with
  | build hsound => exact held_build hsound
  | apply _ hsound ih => exact held_apply ih hsound
  | learn _ learned ih => exact ⟨⟨ih.kept.oneEach, ih.kept.handles, ih.kept.sets⟩, ih.stated⟩

instance (R : LearningRegistry) (resolved : Resolved) : Decidable (R.ToldApart newV5 resolved) :=
  inferInstanceAs (Decidable (∀ d ∈ _, ∀ config ∈ _, _ → _ → _))

end Document

/-! ## A device that moves, beside one that joins -/

/-- `a` on another port, and `b` before it in the group. -/
def movedDocument : RawConfig where
  defaults := labDocument.defaults
  devices := [rawOfWrite "a" (deviceAt ⟨"10.0.0.1", firstHost_fits⟩ (some 22022) none),
    rawOfWrite "b" (deviceAt secondHost none none)]
  groups := [⟨"lab", ["b", "a"], none, none⟩]

def labFleet : Resolved := ⟨recorders.take 1, [⟨"lab", ["a"], 8000000000, .failBatch⟩]⟩

def movedFleet : Resolved :=
  ⟨(recorders.drop 1).reverse, [⟨"lab", ["b", "a"], 8000000000, .failBatch⟩]⟩

theorem apply_exact_moved :
    Reconciled (.build labFleet) movedFleet (LearningRegistry.apply (.build labFleet) movedFleet).1
      (LearningRegistry.apply (.build labFleet) movedFleet).2 := by
  have hlab : resolveConfig newV5OfRecorders labDocument = .ok labFleet := by decide +kernel
  have hmoved : resolveConfig newV5OfRecorders movedDocument = .ok movedFleet := by decide +kernel
  have hapart : LearningRegistry.ToldApart newV5OfRecorders (.build labFleet) movedFleet := by
    decide +kernel
  exact apply_exact (held_build (sound_of_resolveConfig hlab)) (sound_of_resolveConfig hmoved)
    hapart

end Sismatic
