import Sismatic.Proof.Identity
import Sismatic.Lib.Run

/-!
# One fleet in three places

The document, the registry and the catalog each hold the fleet in a form of their own.
Every verb goes through the same amendment, so what has to be seen is one step: the
projection that is kept resolves to what was applied, the registry's diff ends in the
devices asked for and keeps the handle of every device that did not change, and a
refusal comes before anything is written.
-/

namespace Sismatic

open Devices

/-! ## Looking up by a key -/

theorem find_key {α κ : Type} [DecidableEq κ] (key : α → κ) {xs : List α}
    (hnodup : (xs.map key).Nodup) {k : κ} {x : α} :
    xs.find? (fun x => decide (key x = k)) = some x ↔ x ∈ xs ∧ key x = k := by
  refine ⟨?_, ?_⟩
  · intro h
    exact ⟨List.mem_of_find?_eq_some h, by simpa using List.find?_some h⟩
  · intro h
    obtain ⟨hmem, rfl⟩ := h
    cases hfind : xs.find? (fun y => decide (key y = key x)) with
    | none =>
        have hno := List.find?_eq_none.mp hfind x hmem
        simp at hno
    | some y =>
        have hy := List.mem_of_find?_eq_some hfind
        have hkey : key y = key x := by simpa using List.find?_some hfind
        rw [List.inj_on_of_nodup_map hnodup hy hmem hkey]

/-! ## What resolution guarantees -/

section Resolution

variable {newV5 : Uuid → List UInt8 → Uuid}

theorem resolveDevices_ok {defaults : Defaults} {seen : List String} {raws : List RawDevice}
    {configs : List DeviceConfig} (h : resolveDevices newV5 defaults seen raws = .ok configs) :
    configs.map (·.id) = raws.map (·.id) ∧ (raws.map (·.id)).Nodup ∧
      (∀ raw ∈ raws, raw.id ∉ seen) ∧ ∀ config ∈ configs, Stated newV5 config := by
  induction raws generalizing seen configs with
  | nil =>
      cases h
      exact ⟨rfl, List.nodup_nil, by simp, by simp⟩
  | cons raw raws ih =>
      unfold resolveDevices at h
      by_cases hseen : raw.id ∈ seen
      · rw [if_pos hseen] at h
        cases h
      · rw [if_neg hseen] at h
        obtain ⟨config, hconfig, h⟩ := ok_of_bind h
        obtain ⟨rest, hrest, h⟩ := ok_of_bind h
        obtain rfl := Except.ok.inj h
        obtain ⟨hid, hstated⟩ := resolve_ok hconfig
        obtain ⟨hids, hnodup, hfresh, hall⟩ := ih hrest
        refine ⟨?_, ?_, ?_, ?_⟩
        · rw [List.map_cons, List.map_cons, hids, hid]
        · refine List.nodup_cons.mpr ⟨?_, hnodup⟩
          intro hmem
          obtain ⟨other, hother, heq⟩ := List.mem_map.mp hmem
          exact hfresh other hother (heq ▸ List.mem_cons_self ..)
        · intro other hother
          rcases List.mem_cons.mp hother with rfl | hother
          · exact hseen
          · exact fun hmem => hfresh other hother (List.mem_cons_of_mem _ hmem)
        · intro other hother
          rcases List.mem_cons.mp hother with rfl | hother
          · exact hstated
          · exact hall other hother

theorem resolveDevices_rawOf (defaults : Defaults) {seen : List String}
    {configs : List DeviceConfig} (hnodup : (configs.map (·.id)).Nodup)
    (hfresh : ∀ config ∈ configs, config.id ∉ seen)
    (hstated : ∀ config ∈ configs, Stated newV5 config) :
    resolveDevices newV5 defaults seen (configs.map rawOf) = .ok configs := by
  induction configs generalizing seen with
  | nil => rfl
  | cons config configs ih =>
      obtain ⟨hnew, hnodup⟩ := List.nodup_cons.mp hnodup
      have hrest : resolveDevices newV5 defaults (config.id :: seen) (configs.map rawOf) =
          .ok configs := by
        refine ih hnodup ?_ fun other hother => hstated other (List.mem_cons_of_mem _ hother)
        intro other hother hmem
        rcases List.mem_cons.mp hmem with heq | hmem
        · exact hnew (List.mem_map.mpr ⟨other, hother, heq⟩)
        · exact hfresh other (List.mem_cons_of_mem _ hother) hmem
      have hseen : (rawOf config).id ∉ seen := hfresh config (List.mem_cons_self ..)
      rw [List.map_cons, resolveDevices, if_neg hseen,
        resolve_rawOf defaults (hstated config (List.mem_cons_self ..))]
      show (resolveDevices newV5 defaults (config.id :: seen) (configs.map rawOf) >>= _) = _
      rw [hrest]
      rfl

/-- A device resolves as it does whatever is written beside it. -/
theorem mem_resolveDevices {defaults : Defaults} {seen : List String} {raws : List RawDevice}
    {configs : List DeviceConfig} (h : resolveDevices newV5 defaults seen raws = .ok configs)
    {config : DeviceConfig} :
    config ∈ configs ↔ ∃ raw ∈ raws, resolve newV5 defaults raw = .ok config := by
  induction raws generalizing seen configs with
  | nil =>
      cases h
      simp
  | cons raw raws ih =>
      unfold resolveDevices at h
      by_cases hseen : raw.id ∈ seen
      · rw [if_pos hseen] at h
        cases h
      · rw [if_neg hseen] at h
        obtain ⟨first, hfirst, h⟩ := ok_of_bind h
        obtain ⟨rest, hrest, h⟩ := ok_of_bind h
        obtain rfl := Except.ok.inj h
        rw [List.mem_cons, ih hrest]
        simp only [List.mem_cons, exists_eq_or_imp, hfirst, Except.ok.injEq]
        exact or_congr_left eq_comm

theorem resolveGroup_ok {devices : List DeviceConfig} {group : RawGroup} {config : GroupConfig}
    (h : resolveGroup devices group = .ok config) :
    config.id = group.id ∧ ∀ id ∈ config.deviceIds, ∃ device ∈ devices, device.id = id := by
  unfold resolveGroup at h
  split at h
  · cases h
  · split at h
    · cases h
    · rename_i hfind
      have hmembers : ∀ id ∈ group.devices, ∃ device ∈ devices, device.id = id := by
        intro id hid
        have hno := List.find?_eq_none.mp hfind id hid
        simpa using hno
      dsimp only at h
      split at h
      · cases h
      · obtain rfl := Except.ok.inj h
        exact ⟨rfl, hmembers⟩

theorem resolveGroups_ok {devices : List DeviceConfig} {seen : List String} {raws : List RawGroup}
    {configs : List GroupConfig} (h : resolveGroups devices seen raws = .ok configs) :
    configs.map (·.id) = raws.map (·.id) ∧ (raws.map (·.id)).Nodup ∧
      (∀ raw ∈ raws, raw.id ∉ seen) ∧
      ∀ config ∈ configs, ∀ id ∈ config.deviceIds, ∃ device ∈ devices, device.id = id := by
  induction raws generalizing seen configs with
  | nil =>
      cases h
      exact ⟨rfl, List.nodup_nil, by simp, by simp⟩
  | cons raw raws ih =>
      unfold resolveGroups at h
      by_cases hseen : raw.id ∈ seen
      · rw [if_pos hseen] at h
        cases h
      · rw [if_neg hseen] at h
        obtain ⟨config, hconfig, h⟩ := ok_of_bind h
        obtain ⟨rest, hrest, h⟩ := ok_of_bind h
        obtain rfl := Except.ok.inj h
        obtain ⟨hid, hmembers⟩ := resolveGroup_ok hconfig
        obtain ⟨hids, hnodup, hfresh, hall⟩ := ih hrest
        refine ⟨?_, ?_, ?_, ?_⟩
        · rw [List.map_cons, List.map_cons, hids, hid]
        · refine List.nodup_cons.mpr ⟨?_, hnodup⟩
          intro hmem
          obtain ⟨other, hother, heq⟩ := List.mem_map.mp hmem
          exact hfresh other hother (heq ▸ List.mem_cons_self ..)
        · intro other hother
          rcases List.mem_cons.mp hother with rfl | hother
          · exact hseen
          · exact fun hmem => hfresh other hother (List.mem_cons_of_mem _ hmem)
        · intro other hother
          rcases List.mem_cons.mp hother with rfl | hother
          · exact hmembers
          · exact hall other hother

/-- What a document that resolves resolves to. -/
structure Devices.Resolved.Sound (newV5 : Uuid → List UInt8 → Uuid) (resolved : Resolved) : Prop where
  devices_nodup : (resolved.devices.map (·.id)).Nodup
  stated : ∀ config ∈ resolved.devices, Stated newV5 config
  groups_nodup : (resolved.groups.map (·.id)).Nodup
  members : ∀ group ∈ resolved.groups, ∀ id ∈ group.deviceIds,
    ∃ config ∈ resolved.devices, config.id = id

theorem mapError_ok {α ε ε' : Type} {f : ε → ε'} {x : Except ε α} {y : α} :
    x.mapError f = .ok y ↔ x = .ok y := by
  cases x with
  | error e => simp [Except.mapError]
  | ok a => simp [Except.mapError]

theorem resolveConfig_ok {raw : RawConfig} {resolved : Resolved} :
    resolveConfig newV5 raw = .ok resolved ↔
      resolveDevices newV5 raw.defaults [] raw.devices = .ok resolved.devices ∧
        resolveGroups resolved.devices (raw.devices.map (·.id)) raw.groups =
          .ok resolved.groups := by
  refine ⟨?_, ?_⟩
  · intro h
    unfold resolveConfig at h
    obtain ⟨devices, hdevices, h⟩ := ok_of_bind h
    obtain ⟨groups, hgroups, h⟩ := ok_of_bind h
    obtain rfl := Except.ok.inj h
    exact ⟨mapError_ok.mp hdevices, hgroups⟩
  · intro h
    unfold resolveConfig
    rw [h.1]
    show (resolveGroups resolved.devices (raw.devices.map (·.id)) raw.groups >>= _) = _
    rw [h.2]
    rfl

theorem sound_of_resolveConfig {raw : RawConfig} {resolved : Resolved}
    (h : resolveConfig newV5 raw = .ok resolved) : resolved.Sound newV5 := by
  obtain ⟨hdevices, hgroups⟩ := resolveConfig_ok.mp h
  obtain ⟨hids, hnodup, _, hstated⟩ := resolveDevices_ok hdevices
  obtain ⟨hgids, hgnodup, _, hmembers⟩ := resolveGroups_ok hgroups
  exact ⟨hids ▸ hnodup, hstated, hgids ▸ hgnodup, hmembers⟩

/-- **The projection that is kept resolves to what was applied**, whatever its defaults. -/
theorem resolveConfig_kept {raw : RawConfig} {resolved : Resolved}
    (h : resolveConfig newV5 raw = .ok resolved) (defaults : Defaults) :
    resolveConfig newV5 ⟨defaults, resolved.devices.map rawOf, raw.groups⟩ = .ok resolved := by
  obtain ⟨hdevices, hgroups⟩ := resolveConfig_ok.mp h
  obtain ⟨hids, hnodup, _, hstated⟩ := resolveDevices_ok hdevices
  refine resolveConfig_ok.mpr ⟨?_, ?_⟩
  · exact resolveDevices_rawOf defaults (hids ▸ hnodup) (by simp) hstated
  · have hsame : (resolved.devices.map rawOf).map (·.id) = raw.devices.map (·.id) := by
      rw [List.map_map, ← hids]
      rfl
    rw [hsame]
    exact hgroups

end Resolution

/-! ## What the registry's diff ends in -/

/-- One handle for each id. -/
def Devices.Registry.OneEach (r : Registry) : Prop := (r.devices.map (·.config.id)).Nodup

theorem device_eq_some {r : Devices.Registry} (h : r.OneEach) {id : DeviceId}
    {d : Devices.Device} : r.device id = some d ↔ d ∈ r.devices ∧ d.config.id = id :=
  find_key (fun d : Devices.Device => d.config.id) h

theorem mem_insert {r : Devices.Registry} {config : DeviceConfig} {d : Devices.Device} :
    d ∈ (r.insert config).devices ↔
      d = ⟨r.made, config⟩ ∨ (d ∈ r.devices ∧ d.config.id ≠ config.id) := by
  simp [Registry.insert]

theorem oneEach_insert {r : Devices.Registry} (h : r.OneEach) (config : DeviceConfig) :
    (r.insert config).OneEach := by
  unfold Registry.OneEach Registry.insert
  rw [List.map_cons, List.nodup_cons]
  refine ⟨?_, ?_⟩
  · intro hmem
    obtain ⟨d, hd, heq⟩ := List.mem_map.mp hmem
    have hne := (List.mem_filter.mp hd).2
    simp only [ne_eq, decide_not, Bool.not_eq_eq_eq_not, Bool.not_true, decide_eq_false_iff_not]
      at hne
    exact hne heq
  · exact List.Nodup.sublist (List.filter_sublist.map _) h

/-- What a diff makes of one device: the handle already there, or one over `config`. -/
def Adopts (old : Option Devices.Device) (config : DeviceConfig) (d : Devices.Device) : Prop :=
  match old with
  | some existing => if existing.config.uuid = config.uuid then d = existing else d.config = config
  | none => d.config = config

/-- The handle that is filed is found under its id, and no other id finds another. -/
theorem device_insert {r : Devices.Registry} (h : r.OneEach) (config : DeviceConfig) :
    (r.insert config).device config.id = some ⟨r.made, config⟩ ∧
      ∀ id, id ≠ config.id → (r.insert config).device id = r.device id := by
  have hone := oneEach_insert h config
  refine ⟨(device_eq_some hone).mpr ⟨mem_insert.mpr (.inl rfl), rfl⟩, ?_⟩
  intro id hid
  refine Option.ext fun d => ?_
  rw [device_eq_some hone, device_eq_some h, mem_insert]
  refine ⟨?_, ?_⟩
  · intro hd
    obtain ⟨rfl | ⟨hmem, _⟩, rfl⟩ := hd
    · exact absurd rfl hid
    · exact ⟨hmem, rfl⟩
  · intro hd
    obtain ⟨hmem, rfl⟩ := hd
    exact ⟨.inr ⟨hmem, hid⟩, rfl⟩

theorem applyOne_device {acc : Devices.Registry × RegistryChange} (h : acc.1.OneEach)
    (config : DeviceConfig) :
    (Registry.applyOne acc config).1.OneEach ∧
      (∃ d, (Registry.applyOne acc config).1.device config.id = some d ∧
        Adopts (acc.1.device config.id) config d) ∧
      ∀ id, id ≠ config.id → (Registry.applyOne acc config).1.device id = acc.1.device id := by
  have hinserted : (acc.1.insert config).OneEach ∧
      (∃ d, (acc.1.insert config).device config.id = some d ∧ d.config = config) ∧
      ∀ id, id ≠ config.id → (acc.1.insert config).device id = acc.1.device id :=
    ⟨oneEach_insert h config, ⟨_, (device_insert h config).1, rfl⟩, (device_insert h config).2⟩
  unfold Registry.applyOne
  cases hold : acc.1.device config.id with
  | none => exact hinserted
  | some existing =>
      by_cases huuid : existing.config.uuid = config.uuid
      · simp only [if_pos huuid]
        exact ⟨h, ⟨existing, hold, by simp [Adopts, huuid]⟩, fun _ _ => trivial⟩
      · simp only [if_neg huuid, Adopts]
        exact hinserted

theorem foldl_applyOne_device {configs : List DeviceConfig} (hnodup : (configs.map (·.id)).Nodup)
    (acc : Devices.Registry × RegistryChange) (h : acc.1.OneEach) :
    (configs.foldl Registry.applyOne acc).1.OneEach ∧
      (∀ config ∈ configs, ∃ d, (configs.foldl Registry.applyOne acc).1.device config.id = some d ∧
        Adopts (acc.1.device config.id) config d) ∧
      ∀ id, id ∉ configs.map (·.id) →
        (configs.foldl Registry.applyOne acc).1.device id = acc.1.device id := by
  induction configs generalizing acc with
  | nil => exact ⟨h, by simp, fun _ _ => rfl⟩
  | cons config configs ih =>
      obtain ⟨hnew, hnodup⟩ := List.nodup_cons.mp hnodup
      obtain ⟨hone, ⟨d, hd, hadopts⟩, hothers⟩ := applyOne_device h config
      obtain ⟨hone', hall, hrest⟩ := ih hnodup _ hone
      rw [List.foldl_cons]
      refine ⟨hone', ?_, ?_⟩
      · intro other hother
        rcases List.mem_cons.mp hother with rfl | hother
        · exact ⟨d, (hrest _ hnew).trans hd, hadopts⟩
        · obtain ⟨d', hd', hadopts'⟩ := hall other hother
          have hne : other.id ≠ config.id := by
            intro heq
            exact hnew (List.mem_map.mpr ⟨other, hother, heq⟩)
          rw [hothers other.id hne] at hadopts'
          exact ⟨d', hd', hadopts'⟩
      · intro id hid
        rw [List.map_cons, List.mem_cons, not_or] at hid
        exact (hrest id hid.2).trans (hothers id hid.1)

/-- The desired set is the resolved one, when no id comes twice. -/
theorem mem_desired {configs : List DeviceConfig} (hnodup : (configs.map (·.id)).Nodup)
    {config : DeviceConfig} : config ∈ Registry.desired configs ↔ config ∈ configs := by
  have hreverse : (configs.reverse.map (·.id)).Nodup := by
    rw [List.map_reverse, List.nodup_reverse]
    exact hnodup
  unfold Registry.desired
  rw [List.mem_filterMap]
  refine ⟨?_, ?_⟩
  · intro h
    obtain ⟨id, _, hfind⟩ := h
    exact List.mem_reverse.mp (List.mem_of_find?_eq_some hfind)
  · intro h
    refine ⟨config.id, OrderedSet.mem_ofList.mpr (List.mem_map_of_mem h), ?_⟩
    exact (find_key (fun config : DeviceConfig => config.id) hreverse).mpr
      ⟨List.mem_reverse.mpr h, rfl⟩

theorem desired_nodup (configs : List DeviceConfig) :
    ((Registry.desired configs).map (·.id)).Nodup := by
  unfold Registry.desired
  rw [List.map_filterMap]
  refine (OrderedSet.nodup _).filterMap ?_
  intro id id' found h h'
  obtain ⟨config, hconfig, rfl⟩ := Option.map_eq_some_iff.mp h
  obtain ⟨config', hconfig', hid⟩ := Option.map_eq_some_iff.mp h'
  have h₁ : config.id = id := by simpa using List.find?_some hconfig
  have h₂ : config'.id = id' := by simpa using List.find?_some hconfig'
  rw [← h₁, ← h₂, hid]

/-- **What the diff ends in**: the devices asked for, and no others. -/
theorem apply_device {r : Devices.Registry} (h : r.OneEach) {resolved : Resolved}
    (hnodup : (resolved.devices.map (·.id)).Nodup) :
    (r.apply resolved).1.OneEach ∧
      (∀ config ∈ resolved.devices, ∃ d, (r.apply resolved).1.device config.id = some d ∧
        Adopts (r.device config.id) config d) ∧
      ∀ d ∈ (r.apply resolved).1.devices, ∃ config ∈ resolved.devices,
        config.id = d.config.id := by
  obtain ⟨hone, hall, _⟩ :=
    foldl_applyOne_device (desired_nodup resolved.devices) (r, ⟨[], [], [], 0⟩) h
  have hdevices : (r.apply resolved).1.devices =
      ((Registry.desired resolved.devices).foldl Registry.applyOne
        (r, ⟨[], [], [], 0⟩)).1.devices.filter fun d =>
          ((Registry.desired resolved.devices).map (·.id)).contains d.config.id := rfl
  have hone' : (r.apply resolved).1.OneEach := by
    unfold Registry.OneEach
    rw [hdevices]
    exact List.Nodup.sublist (List.filter_sublist.map _) hone
  refine ⟨hone', ?_, ?_⟩
  · intro config hconfig
    have hwanted := (mem_desired hnodup).mpr hconfig
    obtain ⟨d, hd, hadopts⟩ := hall config hwanted
    obtain ⟨hmem, hid⟩ := (device_eq_some hone).mp hd
    refine ⟨d, (device_eq_some hone').mpr ⟨?_, hid⟩, hadopts⟩
    rw [hdevices, List.mem_filter, hid]
    exact ⟨hmem, List.contains_iff_mem.mpr (List.mem_map_of_mem hwanted)⟩
  · intro d hd
    rw [hdevices, List.mem_filter] at hd
    obtain ⟨config, hwanted, hid⟩ := List.mem_map.mp (List.contains_iff_mem.mp hd.2)
    exact ⟨config, (mem_desired hnodup).mp hwanted, hid⟩

theorem mem_foldl_groups {r : Devices.Registry} {configs : List GroupConfig}
    (hnodup : (configs.map (·.id)).Nodup) {built : List DeviceGroup}
    (hfresh : ∀ g ∈ built, g.id ∉ configs.map (·.id)) {g : DeviceGroup} :
    g ∈ configs.foldl (fun built group =>
        r.groupOf group :: built.filter fun g => g.id ≠ group.id) built ↔
      g ∈ built ∨ ∃ group ∈ configs, g = r.groupOf group := by
  induction configs generalizing built with
  | nil => simp
  | cons config configs ih =>
      obtain ⟨hnew, hnodup⟩ := List.nodup_cons.mp hnodup
      have hkept : built.filter (fun g => g.id ≠ config.id) = built := by
        refine List.filter_eq_self.mpr ?_
        intro g hg
        have hno := hfresh g hg
        rw [List.map_cons, List.mem_cons, not_or] at hno
        exact decide_eq_true hno.1
      rw [List.foldl_cons, ih hnodup, hkept]
      · simp only [List.mem_cons, exists_eq_or_imp]
        tauto
      · intro g hg
        rcases List.mem_cons.mp hg with rfl | hg
        · exact hnew
        · have hno := hfresh g (List.mem_of_mem_filter hg)
          rw [List.map_cons, List.mem_cons, not_or] at hno
          exact hno.2

/-- The groups are the resolved ones, over the devices registered with them. -/
theorem mem_rebuildGroups {r : Devices.Registry} {configs : List GroupConfig}
    (hnodup : (configs.map (·.id)).Nodup) {g : DeviceGroup} :
    g ∈ (r.rebuildGroups configs).groups ↔ ∃ group ∈ configs, g = r.groupOf group := by
  unfold Registry.rebuildGroups
  rw [mem_foldl_groups hnodup (by simp)]
  simp

/-- The handles a group is over: the registered ones of its members, in order. -/
def Devices.DeviceGroup.Over (r : Devices.Registry) (group : GroupConfig) (g : DeviceGroup) :
    Prop :=
  g.id = group.id ∧ g.devices.map (·.config.id) = group.deviceIds ∧ ∀ d ∈ g.devices, d ∈ r.devices

theorem filterMap_device {r : Devices.Registry} (h : r.OneEach) {ds : List Devices.Device}
    (hmem : ∀ d ∈ ds, d ∈ r.devices) : (ds.map (·.config.id)).filterMap r.device = ds := by
  induction ds with
  | nil => rfl
  | cons d ds ih =>
      have hd : r.device d.config.id = some d :=
        (device_eq_some h).mpr ⟨hmem d (List.mem_cons_self ..), rfl⟩
      rw [List.map_cons, List.filterMap_cons, hd]
      exact congrArg _ (ih fun e he => hmem e (List.mem_cons_of_mem _ he))

theorem over_iff {r : Devices.Registry} (h : r.OneEach) {group : GroupConfig}
    (hmembers : ∀ id ∈ group.deviceIds, ∃ d ∈ r.devices, d.config.id = id) {g : DeviceGroup} :
    g.Over r group ↔ g = r.groupOf group := by
  refine ⟨?_, ?_⟩
  · intro hover
    obtain ⟨hid, hids, hmem⟩ := hover
    obtain ⟨id, devices⟩ := g
    have hdevices := filterMap_device h hmem
    rw [hids] at hdevices
    unfold Registry.groupOf
    rw [hdevices, ← hid]
  · rintro rfl
    refine ⟨rfl, ?_, ?_⟩
    · unfold Registry.groupOf
      generalize group.deviceIds = ids at hmembers
      induction ids with
      | nil => rfl
      | cons id ids ih =>
          obtain ⟨d, hd, hid⟩ := hmembers id (List.mem_cons_self ..)
          have hsome : r.device id = some d := (device_eq_some h).mpr ⟨hd, hid⟩
          rw [List.filterMap_cons, hsome]
          dsimp only
          rw [List.map_cons, hid, ih fun other hother => hmembers other (List.mem_cons_of_mem _ hother)]
    · intro d hd
      obtain ⟨id, _, hsome⟩ := List.mem_filterMap.mp hd
      exact ((device_eq_some h).mp hsome).1

/-! ## The fleet, coherent -/

/-- The document resolves, and the registry and the catalog hold what it resolves to. -/
structure Coherent (newV5 : Uuid → List UInt8 → Uuid) (fleet : LiveFleet)
    (resolved : Resolved) : Prop where
  document : resolveConfig newV5 fleet.document = .ok resolved
  oneEach : fleet.registry.OneEach
  registered : ∀ config, (∃ d ∈ fleet.registry.devices, d.config = config) ↔
    config ∈ resolved.devices
  grouped : ∀ g, g ∈ fleet.registry.groups ↔
    ∃ group ∈ resolved.groups, g.Over fleet.registry group
  listed : ∀ summary, summary ∈ fleet.catalog.devices ↔
    ∃ config ∈ resolved.devices, summary = summarize config
  listedGroups : ∀ summary, summary ∈ fleet.catalog.groups ↔
    ∃ group ∈ resolved.groups, summary = summarizeGroup group

theorem mem_sortedDevices {summaries : List DeviceSummary} {summary : DeviceSummary} :
    summary ∈ MemoryCatalog.sortedDevices summaries ↔ summary ∈ summaries := by
  unfold MemoryCatalog.sortedDevices
  exact List.mem_insertionSort _

theorem mem_sortedGroups {summaries : List GroupSummary} {summary : GroupSummary} :
    summary ∈ MemoryCatalog.sortedGroups summaries ↔ summary ∈ summaries := by
  unfold MemoryCatalog.sortedGroups
  exact List.mem_insertionSort _

section Coherent

variable {newV5 : Uuid → List UInt8 → Uuid}

/-- Over the devices a document resolves to, groups and catalog follow. -/
theorem coherent_of_registered {document : RawConfig} {resolved : Resolved}
    (hresolves : resolveConfig newV5 document = .ok resolved) {r : Devices.Registry}
    (hone : r.OneEach)
    (hregistered : ∀ config, (∃ d ∈ r.devices, d.config = config) ↔ config ∈ resolved.devices)
    (outbox : MemoryOutbox) (configPath : String) :
    Coherent newV5 ⟨document, r.rebuildGroups resolved.groups,
      .new (resolved.devices.map summarize) (resolved.groups.map summarizeGroup), outbox,
      configPath⟩ resolved := by
  have hsound := sound_of_resolveConfig hresolves
  have hmembers : ∀ group ∈ resolved.groups, ∀ id ∈ group.deviceIds,
      ∃ d ∈ r.devices, d.config.id = id := by
    intro group hgroup id hid
    obtain ⟨config, hconfig, rfl⟩ := hsound.members group hgroup id hid
    obtain ⟨d, hd, hsame⟩ := (hregistered config).mpr hconfig
    exact ⟨d, hd, by rw [hsame]⟩
  refine ⟨hresolves, hone, hregistered, ?_, ?_, ?_⟩
  · intro g
    refine (mem_rebuildGroups hsound.groups_nodup).trans ?_
    refine exists_congr fun group => and_congr_right fun hgroup => ?_
    exact (over_iff hone (hmembers group hgroup)).symm
  · intro summary
    refine mem_sortedDevices.trans ?_
    rw [List.mem_map]
    exact exists_congr fun config => and_congr_right fun _ => eq_comm
  · intro summary
    refine mem_sortedGroups.trans ?_
    rw [List.mem_map]
    exact exists_congr fun group => and_congr_right fun _ => eq_comm

theorem foldl_insert {configs : List DeviceConfig} (hnodup : (configs.map (·.id)).Nodup)
    {r : Devices.Registry} (h : r.OneEach)
    (hfresh : ∀ d ∈ r.devices, d.config.id ∉ configs.map (·.id)) :
    (configs.foldl Registry.insert r).OneEach ∧
      ∀ config, (∃ d ∈ (configs.foldl Registry.insert r).devices, d.config = config) ↔
        (∃ d ∈ r.devices, d.config = config) ∨ config ∈ configs := by
  induction configs generalizing r with
  | nil => exact ⟨h, by simp⟩
  | cons first configs ih =>
      obtain ⟨hnew, hnodup⟩ := List.nodup_cons.mp hnodup
      have hone := oneEach_insert h first
      obtain ⟨hone', hall⟩ := ih hnodup hone (by
        intro d hd
        rcases mem_insert.mp hd with rfl | ⟨hd, _⟩
        · exact hnew
        · exact fun hmem => hfresh d hd (List.mem_cons_of_mem _ hmem))
      rw [List.foldl_cons]
      refine ⟨hone', ?_⟩
      intro config
      rw [hall config, List.mem_cons, ← or_assoc]
      refine or_congr_left ⟨?_, ?_⟩
      · rintro ⟨d, hd, rfl⟩
        rcases mem_insert.mp hd with rfl | ⟨hd, _⟩
        · exact .inr rfl
        · exact .inl ⟨d, hd, rfl⟩
      · rintro (⟨d, hd, rfl⟩ | rfl)
        · have hne : d.config.id ≠ first.id := by
            intro heq
            exact hfresh d hd (heq ▸ List.mem_cons_self ..)
          exact ⟨d, mem_insert.mpr (.inr ⟨hd, hne⟩), rfl⟩
        · exact ⟨⟨r.made, config⟩, mem_insert.mpr (.inl rfl), rfl⟩

/-- The process starts with what its document says. -/
theorem coherent_new {document : RawConfig} {resolved : Resolved}
    (hresolves : resolveConfig newV5 document = .ok resolved) (outbox : MemoryOutbox)
    (configPath : String) :
    Coherent newV5 (.new document resolved outbox configPath) resolved := by
  have hsound := sound_of_resolveConfig hresolves
  obtain ⟨hone, hall⟩ := foldl_insert (r := ⟨[], [], 0⟩) hsound.devices_nodup List.nodup_nil
    (by simp)
  refine coherent_of_registered hresolves hone ?_ outbox configPath
  intro config
  rw [hall config]
  simp

/-- Nothing that now resolves hashes like a registered device of its id and is another. -/
def HashesApart (newV5 : Uuid → List UInt8 → Uuid) (fleet : LiveFleet) (resolved : Resolved) :
    Prop :=
  ∀ d ∈ fleet.registry.devices, ∀ config ∈ resolved.devices, d.config.id = config.id →
    newV5 deviceNamespace (fingerprintBytes d.config) =
      newV5 deviceNamespace (fingerprintBytes config) →
    fingerprintBytes d.config = fingerprintBytes config

theorem coherent_adopt {fleet : LiveFleet} {old : Resolved} (h : Coherent newV5 fleet old)
    {document : RawConfig} {resolved : Resolved}
    (hresolves : resolveConfig newV5 document = .ok resolved)
    (hapart : HashesApart newV5 fleet resolved) :
    Coherent newV5 (fleet.adopt document resolved).1 resolved := by
  have hsound := sound_of_resolveConfig hresolves
  have hwas := sound_of_resolveConfig h.document
  obtain ⟨hone, hall, honly⟩ := apply_device h.oneEach hsound.devices_nodup
  -- whichever handle a device ends with, it is over the configuration asked for
  have hexact : ∀ config ∈ resolved.devices, ∃ d,
      (fleet.registry.apply resolved).1.device config.id = some d ∧ d.config = config := by
    intro config hconfig
    obtain ⟨d, hd, hadopts⟩ := hall config hconfig
    refine ⟨d, hd, ?_⟩
    cases hold : fleet.registry.device config.id with
    | none =>
        rw [hold] at hadopts
        exact hadopts
    | some existing =>
        rw [hold] at hadopts
        unfold Adopts at hadopts
        dsimp only at hadopts
        split at hadopts
        · rename_i huuid
          subst hadopts
          obtain ⟨hmem, hid⟩ := (device_eq_some h.oneEach).mp hold
          have hstated := hwas.stated d.config ((h.registered d.config).mp ⟨d, hmem, rfl⟩)
          have hstated' := hsound.stated config hconfig
          rw [hstated.uuid, hstated'.uuid] at huuid
          exact eq_of_fingerprintBytes hstated hstated' hid
            (hapart d hmem config hconfig hid huuid)
        · exact hadopts
  have hregistered : ∀ config, (∃ d ∈ (fleet.registry.apply resolved).1.devices,
      d.config = config) ↔ config ∈ resolved.devices := by
    intro config
    refine ⟨?_, ?_⟩
    · rintro ⟨d, hd, rfl⟩
      obtain ⟨config, hconfig, hid⟩ := honly d hd
      obtain ⟨d', hd', hsame⟩ := hexact config hconfig
      have hd₀ : (fleet.registry.apply resolved).1.device config.id = some d :=
        (device_eq_some hone).mpr ⟨hd, hid.symm⟩
      obtain rfl := Option.some.inj (hd₀.symm.trans hd')
      rw [hsame]
      exact hconfig
    · intro hconfig
      obtain ⟨d, hd, hsame⟩ := hexact config hconfig
      exact ⟨d, ((device_eq_some hone).mp hd).1, hsame⟩
  -- the groups go over the devices the diff ends in, and leave them as they are
  exact coherent_of_registered (r := { (fleet.registry.apply resolved).1 with groups := [] })
    hresolves hone hregistered fleet.outbox fleet.configPath

end Coherent

end Sismatic
