import Sismatic.Server.Exporting
import Sismatic.Proof.Exported

/-!
# When an export is a snapshot

An export that nothing in the registry moved under has read the devices registered then,
and a verb in progress knows what is missing, so whenever no verb is in progress the
fleet is one that can be loaded. What an export reads of the groups comes later and from
the document, so it is of the same fleet only if those groups were in force over the
devices that were read.
-/

namespace Sismatic

open Devices

/-! ## Reading a map shard by shard -/

theorem mem_sortedById {devices : List DeviceConfig} {config : DeviceConfig} :
    config ∈ sortedById devices ↔ config ∈ devices :=
  List.mem_insertionSort _

theorem sortedById_nodup {devices : List DeviceConfig} (h : (devices.map (·.id)).Nodup) :
    ((sortedById devices).map (·.id)).Nodup :=
  ((List.perm_insertionSort _ devices).map _).nodup_iff.mpr h

/-- Sorting forgets the order things were read in, where each id is read once. -/
theorem sortedById_eq_of_perm {devices devices' : List DeviceConfig} (h : devices.Perm devices')
    (hnodup : (devices.map (·.id)).Nodup) : sortedById devices = sortedById devices' := by
  have hperm : (sortedById devices).Perm (sortedById devices') :=
    (List.perm_insertionSort _ devices).trans (h.trans (List.perm_insertionSort _ devices').symm)
  have htotal : Std.Total fun a b : DeviceConfig => a.id ≤ b.id := ⟨fun a b => le_total a.id b.id⟩
  have htrans : IsTrans DeviceConfig fun a b => a.id ≤ b.id := ⟨fun _ _ _ => le_trans⟩
  refine hperm.eq_of_pairwise ?_ (List.pairwise_insertionSort _ _) (List.pairwise_insertionSort _ _)
  intro a b ha hb hab hba
  exact List.inj_on_of_nodup_map (sortedById_nodup hnodup) ha (hperm.mem_iff.mpr hb)
    (le_antisymm hab hba)

/-- The configurations filed in the first shards. -/
def Devices.Registry.firstShards (r : Registry) (shards : Shards) (i : Nat) : List DeviceConfig :=
  r.configs.filter fun config => (shards.of config.id).val < i

theorem firstShards_zero (r : Devices.Registry) (shards : Shards) : r.firstShards shards 0 = [] :=
  List.filter_eq_nil_iff.mpr (by simp)

theorem firstShards_succ (r : Devices.Registry) (shards : Shards) (i : Nat) :
    (r.firstShards shards i ++ r.shard shards i).Perm (r.firstShards shards (i + 1)) := by
  have hbefore : r.firstShards shards i =
      (r.firstShards shards (i + 1)).filter fun config => (shards.of config.id).val < i := by
    unfold Registry.firstShards
    rw [List.filter_filter]
    refine List.filter_congr fun config _ => ?_
    rw [← Bool.decide_and]
    exact decide_eq_decide.mpr (by omega)
  have hat : r.shard shards i =
      (r.firstShards shards (i + 1)).filter fun config =>
        !decide ((shards.of config.id).val < i) := by
    unfold Registry.firstShards Registry.shard
    rw [List.filter_filter]
    refine List.filter_congr fun config _ => ?_
    rw [← decide_not, ← Bool.decide_and]
    exact decide_eq_decide.mpr (by omega)
  rw [hbefore, hat]
  exact List.filter_append_perm _ _

theorem firstShards_all (r : Devices.Registry) {shards : Shards} {i : Nat}
    (h : shards.count ≤ i) : r.firstShards shards i = r.configs := by
  refine List.filter_eq_self.mpr fun config _ => ?_
  have hlt := (shards.of config.id).isLt
  exact decide_eq_true (by omega)

/-! ## One step of a verb in the registry -/

theorem ids_eq (r : Devices.Registry) : r.configs.map (·.id) = r.ids := by
  unfold Devices.Registry.configs Devices.Registry.ids
  rw [List.map_map]
  rfl

/-- A desired device is there already, or a handle is filed for it. -/
theorem applyOne_cases (acc : Devices.Registry × RegistryChange) (config : DeviceConfig) :
    ((Registry.applyOne acc config).1 = acc.1 ∧ config.id ∈ acc.1.ids) ∨
      (Registry.applyOne acc config).1 = acc.1.insert config := by
  unfold Registry.applyOne
  cases hold : acc.1.device config.id with
  | none => exact .inr rfl
  | some existing =>
      dsimp only
      split
      · have hid : existing.config.id = config.id := by simpa using List.find?_some hold
        exact .inl ⟨rfl, hid ▸ List.mem_map_of_mem (List.mem_of_find?_eq_some hold)⟩
      · exact .inr rfl

section Registered

variable {newV5 : Uuid → List UInt8 → Uuid}

/-- One handle for each id, over a configuration the loader made. -/
structure Devices.Registry.Filed (newV5 : Uuid → List UInt8 → Uuid) (r : Registry) : Prop where
  oneEach : r.OneEach
  stated : ∀ d ∈ r.devices, Stated newV5 d.config

theorem filed_applyOne {acc : Devices.Registry × RegistryChange} (h : acc.1.Filed newV5)
    {config : DeviceConfig} (hconfig : Stated newV5 config) :
    (Registry.applyOne acc config).1.Filed newV5 ∧
      ∀ id, id ∈ (Registry.applyOne acc config).1.ids ↔ id ∈ acc.1.ids ∨ id = config.id := by
  rcases applyOne_cases acc config with ⟨hsame, hid⟩ | hinsert
  · rw [hsame]
    refine ⟨h, fun id => (or_iff_left_of_imp ?_).symm⟩
    rintro rfl
    exact hid
  · rw [hinsert]
    refine ⟨⟨oneEach_insert h.oneEach config, ?_⟩, ?_⟩
    · intro d hd
      rcases mem_insert.mp hd with rfl | ⟨hd, _⟩
      · exact hconfig
      · exact h.stated d hd
    · intro id
      unfold Devices.Registry.ids
      rw [List.mem_map, List.mem_map]
      refine ⟨?_, ?_⟩
      · rintro ⟨d, hd, rfl⟩
        rcases mem_insert.mp hd with rfl | ⟨hd, _⟩
        · exact .inr rfl
        · exact .inl ⟨d, hd, rfl⟩
      · rintro (⟨d, hd, rfl⟩ | rfl)
        · by_cases hsame : d.config.id = config.id
          · exact ⟨⟨acc.1.made, config⟩, mem_insert.mpr (.inl rfl), hsame.symm⟩
          · exact ⟨d, mem_insert.mpr (.inr ⟨hd, hsame⟩), rfl⟩
        · exact ⟨⟨acc.1.made, config⟩, mem_insert.mpr (.inl rfl), rfl⟩

theorem filed_remove {r : Devices.Registry} (h : r.Filed newV5) (id : DeviceId) :
    (r.remove id).Filed newV5 ∧
      ∀ other, other ∈ (r.remove id).ids ↔ other ∈ r.ids ∧ other ≠ id := by
  refine ⟨⟨List.Nodup.sublist (List.filter_sublist.map _) h.oneEach, ?_⟩, ?_⟩
  · intro d hd
    exact h.stated d (List.mem_of_mem_filter hd)
  · intro other
    unfold Devices.Registry.remove Devices.Registry.ids
    simp only [ne_eq, decide_not, List.mem_map, List.mem_filter, Bool.not_eq_eq_eq_not,
      Bool.not_true, decide_eq_false_iff_not]
    refine ⟨?_, ?_⟩
    · rintro ⟨d, ⟨hd, hne⟩, rfl⟩
      exact ⟨⟨d, hd, rfl⟩, hne⟩
    · rintro ⟨⟨d, hd, rfl⟩, hne⟩
      exact ⟨d, ⟨hd, hne⟩, rfl⟩

/-- The registered devices under a fleet's groups load, when they are the fleet's ids. -/
theorem loadable_registered {r : Devices.Registry} (h : r.Filed newV5) {resolved : Resolved}
    (hloadable : resolved.Loadable newV5)
    (hids : ∀ id, id ∈ r.ids ↔ ∃ config ∈ resolved.devices, config.id = id) :
    (Resolved.mk (sortedById r.configs) resolved.groups).Loadable newV5 := by
  have hmem : ∀ {config : DeviceConfig}, config ∈ sortedById r.configs ↔
      ∃ d ∈ r.devices, d.config = config := by
    intro config
    rw [mem_sortedById]
    exact List.mem_map
  refine ⟨⟨?_, ?_, hloadable.groups_nodup, ?_⟩, ?_, hloadable.nonempty, hloadable.timed⟩
  · refine sortedById_nodup ?_
    rw [ids_eq]
    exact h.oneEach
  · intro config hconfig
    obtain ⟨d, hd, rfl⟩ := hmem.mp hconfig
    exact h.stated d hd
  · intro group hgroup id hid
    have hregistered := (hids id).mpr (hloadable.members group hgroup id hid)
    obtain ⟨d, hd, heq⟩ := List.mem_map.mp hregistered
    exact ⟨d.config, hmem.mpr ⟨d, hd, rfl⟩, heq⟩
  · intro group hgroup config hconfig
    obtain ⟨d, hd, rfl⟩ := hmem.mp hconfig
    obtain ⟨wanted, hwanted, heq⟩ := (hids d.config.id).mp (List.mem_map_of_mem hd)
    rw [← heq]
    exact hloadable.fresh group hgroup wanted hwanted

end Registered

/-! ## The fleet, whatever verb is in progress -/

section Runs

variable {newV5 : Uuid → List UInt8 → Uuid} {shards : Shards} {formats : ExportFormat → Format}

/-- What the verb has still to do to the registry is what is missing from it. -/
structure Applying.Underway (applying : Applying) (r : Devices.Registry) : Prop where
  wanted : ∀ config ∈ applying.todo, config ∈ applying.resolved.devices
  covered : ∀ config ∈ applying.resolved.devices, config.id ∈ r.ids ∨ config ∈ applying.todo
  dropped : ∀ stale, applying.stale = some stale → applying.todo = [] ∧
    (∀ config ∈ applying.resolved.devices, config.id ∉ stale) ∧
    ∀ id ∈ r.ids, id ∈ stale ∨ ∃ config ∈ applying.resolved.devices, config.id = id

/-- The registry, the document and every view kept are of fleets that can be loaded. -/
structure Inventory.Consistent (newV5 : Uuid → List UInt8 → Uuid) (w : Inventory) : Prop where
  filed : w.fleet.registry.Filed newV5
  loadable : ∀ v ∈ w.passed, (Resolved.mk v.devices v.groups).Loadable newV5
  counted : ∀ v ∈ w.passed, v.moved ≤ w.moved
  stamped : ∀ v ∈ w.passed, v.moved = w.moved →
    v.devices = sortedById w.fleet.registry.configs
  now : w.now ∈ w.passed
  free : w.holding = none → ∃ resolved, resolveConfig newV5 w.fleet.document = .ok resolved ∧
    resolved.groups = w.now.groups ∧ w.now.moved = w.moved
  held : ∀ applying, w.holding = some applying →
    resolveConfig newV5 w.fleet.document = .ok applying.resolved ∧
      applying.Underway w.fleet.registry

namespace Inventory

theorem consistent_init {document : RawConfig} {resolved : Resolved}
    (h : resolveConfig newV5 document = .ok resolved) (outbox : MemoryOutbox)
    (configPath : String) : (init document resolved outbox configPath).Consistent newV5 := by
  have hcoherent := coherent_new h outbox configPath
  have hloadable := loadable_of_resolveConfig h
  have hfiled : (init document resolved outbox configPath).fleet.registry.Filed newV5 := by
    refine ⟨hcoherent.oneEach, fun d hd => ?_⟩
    exact hloadable.stated d.config ((hcoherent.registered d.config).mp ⟨d, hd, rfl⟩)
  have hids : ∀ id, id ∈ (init document resolved outbox configPath).fleet.registry.ids ↔
      ∃ config ∈ resolved.devices, config.id = id := by
    intro id
    refine List.mem_map.trans ⟨?_, ?_⟩
    · rintro ⟨d, hd, rfl⟩
      exact ⟨d.config, (hcoherent.registered d.config).mp ⟨d, hd, rfl⟩, rfl⟩
    · rintro ⟨config, hconfig, rfl⟩
      obtain ⟨d, hd, rfl⟩ := (hcoherent.registered config).mpr hconfig
      exact ⟨d, hd, rfl⟩
  refine ⟨hfiled, ?_, ?_, ?_, List.mem_singleton_self _, ?_, nofun⟩
  · intro v hv
    rw [List.mem_singleton.mp hv]
    exact loadable_registered hfiled hloadable hids
  · intro v hv
    rw [List.mem_singleton.mp hv]
    exact Nat.le_refl 0
  · intro v hv _
    rw [List.mem_singleton.mp hv]
    rfl
  · intro _
    exact ⟨resolved, h, rfl, rfl⟩

theorem moved_register (w : Inventory) (registry : Devices.Registry) :
    (registry.devices = w.fleet.registry.devices ∧ (w.register registry).moved = w.moved) ∨
      (w.register registry).moved = w.moved + 1 := by
  unfold register
  dsimp only
  split
  · rename_i hsame
    exact .inl ⟨hsame, rfl⟩
  · exact .inr rfl

/-- A verb in progress goes one step further. -/
theorem consistent_register {w : Inventory} (h : w.Consistent newV5) {resolved : Resolved}
    (hdocument : resolveConfig newV5 w.fleet.document = .ok resolved)
    {registry : Devices.Registry} (hfiled : registry.Filed newV5) {todo : List DeviceConfig}
    {change : RegistryChange} {stale : Option (List DeviceId)}
    (hunderway : (Applying.mk resolved todo change stale).Underway registry) :
    Consistent newV5
      { w.register registry with holding := some ⟨resolved, todo, change, stale⟩ } where
  filed := hfiled
  loadable := h.loadable
  counted := by
    intro v hv
    have hle := h.counted v hv
    show v.moved ≤ (w.register registry).moved
    rcases moved_register w registry with ⟨_, hmoved⟩ | hmoved <;> omega
  stamped := by
    intro v hv hmoved'
    have hle := h.counted v hv
    change v.moved = (w.register registry).moved at hmoved'
    rcases moved_register w registry with ⟨hsame, hmoved⟩ | hmoved
    · rw [h.stamped v hv (by omega)]
      exact congrArg (fun devices : List Devices.Device => sortedById (devices.map (·.config)))
        hsame.symm
    · omega
  now := h.now
  free := nofun
  held := by
    rintro applying hsome
    obtain rfl := Option.some.inj hsome
    exact ⟨hdocument, hunderway⟩

/-- A verb with nothing left to do leaves the fleet its document describes. -/
theorem consistent_finish {w : Inventory} (h : w.Consistent newV5) {applying : Applying}
    (hheld : w.holding = some applying) (htodo : applying.todo = [])
    (hstale : applying.stale = some []) : (w.finish applying.resolved).Consistent newV5 := by
  obtain ⟨hdocument, hunderway⟩ := h.held applying hheld
  have hids : ∀ id, id ∈ w.fleet.registry.ids ↔
      ∃ config ∈ applying.resolved.devices, config.id = id := by
    intro id
    obtain ⟨_, _, honly⟩ := hunderway.dropped [] hstale
    refine ⟨?_, ?_⟩
    · intro hid
      exact (honly id hid).resolve_left (List.not_mem_nil)
    · rintro ⟨config, hconfig, rfl⟩
      refine (hunderway.covered config hconfig).resolve_right ?_
      rw [htodo]
      exact List.not_mem_nil
  refine ⟨⟨h.filed.oneEach, h.filed.stated⟩, ?_, ?_, ?_, List.mem_cons_self .., ?_, nofun⟩
  · intro v hv
    rcases List.mem_cons.mp hv with rfl | hv
    · exact loadable_registered h.filed (loadable_of_resolveConfig hdocument) hids
    · exact h.loadable v hv
  · intro v hv
    rcases List.mem_cons.mp hv with rfl | hv
    · exact Nat.le_refl w.moved
    · exact h.counted v hv
  · intro v hv hmoved
    rcases List.mem_cons.mp hv with rfl | hv
    · rfl
    · exact h.stamped v hv hmoved
  · intro _
    exact ⟨applying.resolved, hdocument, rfl, rfl⟩

section Advance

variable {w : Inventory} {resolved : Resolved} {todo : List DeviceConfig}
  {change : RegistryChange} {stale : List DeviceId}

theorem advance_next {config : DeviceConfig} {stale : Option (List DeviceId)}
    (h : w.holding = some ⟨resolved, config :: todo, change, stale⟩) :
    w.advance =
      { w.register (Registry.applyOne (w.fleet.registry, change) config).1 with
        holding := some ⟨resolved, todo,
          (Registry.applyOne (w.fleet.registry, change) config).2, stale⟩ } := by
  rw [advance, h]

theorem advance_collect (h : w.holding = some ⟨resolved, [], change, none⟩) :
    w.advance =
      { w with
        holding := some ⟨resolved, [], change, some (w.fleet.registry.ids.filter fun id =>
          !((Registry.desired resolved.devices).map (·.id)).contains id)⟩ } := by
  rw [advance, h]

theorem advance_remove {id : DeviceId}
    (h : w.holding = some ⟨resolved, [], change, some (id :: stale)⟩) :
    w.advance =
      { w.register (w.fleet.registry.remove id) with
        holding := some ⟨resolved, [], change, some stale⟩ } := by
  rw [advance, h]

theorem advance_finish (h : w.holding = some ⟨resolved, [], change, some []⟩) :
    w.advance = w.finish resolved := by
  rw [advance, h]

end Advance

theorem consistent_advance {w : Inventory} (h : w.Consistent newV5) :
    w.advance.Consistent newV5 := by
  cases hheld : w.holding with
  | none =>
      rw [advance, hheld]
      exact h
  | some applying =>
      obtain ⟨resolved, todo, change, stale⟩ := applying
      obtain ⟨hdocument, hwanted, hcovered, hdropped⟩ := h.held _ hheld
      cases todo with
      | cons config todo =>
          have hconfig : Stated newV5 config :=
            (loadable_of_resolveConfig hdocument).stated config
              (hwanted config (List.mem_cons_self ..))
          have hnow : (w.fleet.registry, change).1.Filed newV5 := h.filed
          obtain ⟨hfiled, hids⟩ := filed_applyOne hnow hconfig
          rw [advance_next hheld]
          refine consistent_register h hdocument hfiled ⟨?_, ?_, ?_⟩
          · exact fun other hother => hwanted other (List.mem_cons_of_mem _ hother)
          · intro other hother
            rcases hcovered other hother with hid | hmem
            · exact .inl ((hids other.id).mpr (.inl hid))
            · rcases List.mem_cons.mp hmem with rfl | hmem
              · exact .inl ((hids other.id).mpr (.inr rfl))
              · exact .inr hmem
          · intro stale' hstale
            exact absurd (hdropped stale' hstale).1 (List.cons_ne_nil _ _)
      | nil =>
          cases stale with
          | none =>
              rw [advance_collect hheld]
              refine ⟨h.filed, h.loadable, h.counted, h.stamped, h.now, nofun, ?_⟩
              rintro applying hsome
              obtain rfl := Option.some.inj hsome
              refine ⟨hdocument, hwanted, hcovered, ?_⟩
              rintro stale hstale
              obtain rfl := Option.some.inj hstale
              have hdesired : ∀ id, id ∈ (Registry.desired resolved.devices).map (·.id) ↔
                  ∃ config ∈ resolved.devices, config.id = id := by
                intro id
                rw [List.mem_map]
                refine exists_congr fun config => and_congr_left fun _ => ?_
                exact mem_desired (loadable_of_resolveConfig hdocument).devices_nodup
              refine ⟨rfl, ?_, ?_⟩
              · intro config hconfig hmem
                have hno := (List.mem_filter.mp hmem).2
                have hin := (hdesired config.id).mpr ⟨config, hconfig, rfl⟩
                simp [hin] at hno
              · intro id hid
                by_cases hin : id ∈ (Registry.desired resolved.devices).map (·.id)
                · exact .inr ((hdesired id).mp hin)
                · exact .inl (List.mem_filter.mpr ⟨hid, by simpa using hin⟩)
          | some stale =>
              cases stale with
              | nil =>
                  rw [advance_finish hheld]
                  exact consistent_finish h hheld rfl rfl
              | cons id stale =>
                  obtain ⟨_, hkept, honly⟩ := hdropped _ rfl
                  obtain ⟨hfiled, hids⟩ := filed_remove h.filed id
                  rw [advance_remove hheld]
                  refine consistent_register h hdocument hfiled ⟨hwanted, ?_, ?_⟩
                  · intro config hconfig
                    refine (hcovered config hconfig).imp_left fun hid => ?_
                    refine (hids config.id).mpr ⟨hid, fun heq => ?_⟩
                    exact hkept config hconfig (heq ▸ List.mem_cons_self ..)
                  · intro stale' hstale
                    obtain rfl := Option.some.inj hstale
                    refine ⟨rfl, ?_, ?_⟩
                    · intro config hconfig hmem
                      exact hkept config hconfig (List.mem_cons_of_mem _ hmem)
                    · intro other hother
                      obtain ⟨hmem, hne⟩ := (hids other).mp hother
                      refine (honly other hmem).imp_left fun hstale => ?_
                      exact (List.mem_cons.mp hstale).resolve_left hne

/-- A verb is refused, or holds the document it wrote with everything still to do. -/
theorem keep_cases (newV5 : Uuid → List UInt8 → Uuid) (w : Inventory) (change : Change) :
    w.keep newV5 change = w ∨ w.holding = none ∧ ∃ document catalog resolved,
      resolveConfig newV5 document = .ok resolved ∧
      w.keep newV5 change =
        { w with
          fleet := { w.fleet with document := document, catalog := catalog }
          holding := some
            ⟨resolved, Registry.desired resolved.devices, ⟨[], [], [], 0⟩, none⟩ } := by
  unfold keep
  cases hheld : w.holding with
  | some applying => exact .inl rfl
  | none =>
      rcases w.fleet.change newV5 change with ⟨after, answer⟩
      cases answer with
      | error fault => exact .inl rfl
      | ok _ =>
          cases hresolves : resolveConfig newV5 after.document with
          | error fault => exact .inl (by simp only [hresolves])
          | ok resolved =>
              exact .inr ⟨rfl, after.document, after.catalog, resolved, hresolves,
                by simp only [hresolves]⟩

theorem consistent_keep {w : Inventory} (h : w.Consistent newV5) (change : Change) :
    (w.keep newV5 change).Consistent newV5 := by
  rcases keep_cases newV5 w change with hsame | ⟨_, document, catalog, resolved, hresolves, hkeep⟩
  · rw [hsame]
    exact h
  · rw [hkeep]
    refine ⟨h.filed, h.loadable, h.counted, h.stamped, h.now, nofun, ?_⟩
    rintro applying hsome
    obtain rfl := Option.some.inj hsome
    have hdesired : ∀ config, config ∈ Registry.desired resolved.devices ↔
        config ∈ resolved.devices :=
      fun config => mem_desired (loadable_of_resolveConfig hresolves).devices_nodup
    refine ⟨hresolves, fun config => (hdesired config).mp, ?_, nofun⟩
    exact fun config hconfig => .inr ((hdesired config).mpr hconfig)

theorem consistent_setExport {w : Inventory} (h : w.Consistent newV5) (k : Nat) (e : Exporting) :
    (w.setExport k e).Consistent newV5 :=
  ⟨h.filed, h.loadable, h.counted, h.stamped, h.now, h.free, h.held⟩

/-! ## What an export has read -/

/-- The fleet has gone on from `w`, with no export the further. -/
structure Later (w w' : Inventory) : Prop where
  exports : w'.exports = w.exports
  moved : w.moved ≤ w'.moved
  same : w'.moved = w.moved → w'.fleet.registry.devices = w.fleet.registry.devices
  fresh : ∀ v ∈ w'.passed, v ∈ w.passed ∨
    v.moved = w'.moved ∧ v.devices = sortedById w'.fleet.registry.configs
  passed : ∀ v ∈ w.passed, v ∈ w'.passed

theorem Later.refl (w : Inventory) : w.Later w :=
  ⟨rfl, Nat.le_refl _, fun _ => rfl, fun _ hv => .inl hv, fun _ hv => hv⟩

theorem later_register (w : Inventory) (registry : Devices.Registry) (holding : Option Applying) :
    w.Later { w.register registry with holding := holding } := by
  refine ⟨rfl, ?_, ?_, fun _ hv => .inl hv, fun _ hv => hv⟩
  · show w.moved ≤ (w.register registry).moved
    rcases moved_register w registry with ⟨_, hmoved⟩ | hmoved <;> omega
  · intro hsame
    change (w.register registry).moved = w.moved at hsame
    rcases moved_register w registry with ⟨hdevices, _⟩ | hmoved
    · exact hdevices
    · omega

theorem later_finish (w : Inventory) (resolved : Resolved) : w.Later (w.finish resolved) := by
  refine ⟨rfl, Nat.le_refl _, fun _ => rfl, ?_, fun _ hv => List.mem_cons_of_mem _ hv⟩
  intro v hv
  rcases List.mem_cons.mp hv with rfl | hv
  · exact .inr ⟨rfl, rfl⟩
  · exact .inl hv

theorem later_advance (w : Inventory) : w.Later w.advance := by
  cases hheld : w.holding with
  | none =>
      rw [advance, hheld]
      exact .refl w
  | some applying =>
      obtain ⟨resolved, todo, change, stale⟩ := applying
      cases todo with
      | cons config todo =>
          rw [advance_next hheld]
          exact later_register w _ _
      | nil =>
          cases stale with
          | none =>
              rw [advance_collect hheld]
              exact ⟨rfl, Nat.le_refl _, fun _ => rfl, fun _ hv => .inl hv, fun _ hv => hv⟩
          | some stale =>
              cases stale with
              | nil =>
                  rw [advance_finish hheld]
                  exact later_finish w resolved
              | cons id stale =>
                  rw [advance_remove hheld]
                  exact later_register w _ _

theorem later_keep (newV5 : Uuid → List UInt8 → Uuid) (w : Inventory) (change : Change) :
    w.Later (w.keep newV5 change) := by
  rcases keep_cases newV5 w change with hsame | ⟨_, document, catalog, resolved, _, hkeep⟩
  · rw [hsame]
    exact .refl w
  · rw [hkeep]
    exact ⟨rfl, Nat.le_refl _, fun _ => rfl, fun _ hv => .inl hv, fun _ hv => hv⟩

/-- The devices are those that were registered after so many changes, if that is known. -/
def ReadAt (w : Inventory) (read : Option Nat) (devices : List DeviceConfig) : Prop :=
  ∀ m, read = some m → m ≤ w.moved ∧
    (m = w.moved → devices = sortedById w.fleet.registry.configs) ∧
    ∀ v ∈ w.passed, v.moved = m → v.devices = devices

/-- What is true of an export in progress, and what a finished one has to be. -/
def Follows (shards : Shards) (formats : ExportFormat → Format) (w : Inventory) :
    Exporting → Prop
  | .idle => True
  | .reading _ began shard devices => began ≤ w.moved ∧
      (began = w.moved → devices.Perm (w.fleet.registry.firstShards shards shard))
  | .promoting _ read devices => w.ReadAt read devices
  | .grouping _ read devices _ => w.ReadAt read devices
  | .answered query learned document answer => ∃ v ∈ w.passed,
      document = exported v.devices v.groups learned query ∧
        answer = render formats v.devices v.groups learned query
  | .refused _ => True

theorem readAt_later {w w' : Inventory} (h : w.Later w') {read : Option Nat}
    {devices : List DeviceConfig} (hread : w.ReadAt read devices) : w'.ReadAt read devices := by
  intro m hm
  obtain ⟨hle, hnow, hthen⟩ := hread m hm
  have hmoved := h.moved
  have hsame : m = w'.moved → devices = sortedById w'.fleet.registry.configs := by
    intro heq
    rw [hnow (by omega)]
    exact congrArg (fun devices : List Devices.Device => sortedById (devices.map (·.config)))
      (h.same (by omega)).symm
  refine ⟨by omega, hsame, ?_⟩
  intro v hv hvm
  rcases h.fresh v hv with hold | ⟨hstamp, hdevices⟩
  · exact hthen v hold hvm
  · rw [hdevices, hsame (by omega)]

theorem follows_later {w w' : Inventory} (h : w.Later w') {e : Exporting}
    (he : w.Follows shards formats e) : w'.Follows shards formats e := by
  cases e with
  | idle => trivial
  | refused fault => trivial
  | reading query began shard devices =>
      obtain ⟨hle, hperm⟩ := he
      have hmoved := h.moved
      refine ⟨by omega, fun heq => ?_⟩
      have hdevices := h.same (by omega)
      unfold Registry.firstShards Registry.configs
      rw [hdevices]
      exact hperm (by omega)
  | promoting query read devices => exact readAt_later h he
  | grouping query read devices learned => exact readAt_later h he
  | answered query learned document answer =>
      obtain ⟨v, hv, hdocument⟩ := he
      exact ⟨v, h.passed v hv, hdocument⟩

/-- The fleet is consistent, and every export has read what it is supposed to have. -/
structure Kept (newV5 : Uuid → List UInt8 → Uuid) (shards : Shards)
    (formats : ExportFormat → Format) (w : Inventory) : Prop where
  consistent : w.Consistent newV5
  follows : ∀ k, w.Follows shards formats (w.exports k)

theorem follows_setExport {w : Inventory} {k : Nat} {e e' : Exporting} :
    (w.setExport k e).Follows shards formats e' ↔ w.Follows shards formats e' := by
  cases e' <;> exact Iff.rfl

theorem kept_setExport {w : Inventory} (h : w.Kept newV5 shards formats) {k : Nat} {e : Exporting}
    (he : w.Follows shards formats e) : (w.setExport k e).Kept newV5 shards formats := by
  refine ⟨consistent_setExport h.consistent k e, fun k' => follows_setExport.mpr ?_⟩
  show w.Follows shards formats (Function.update w.exports k e k')
  by_cases hk : k' = k
  · subst hk
    rw [Function.update_self]
    exact he
  · rw [Function.update_of_ne hk]
    exact h.follows k'

theorem kept_later {w w' : Inventory} (h : w.Kept newV5 shards formats) (hlater : w.Later w')
    (hconsistent : w'.Consistent newV5) : w'.Kept newV5 shards formats := by
  refine ⟨hconsistent, fun k => ?_⟩
  rw [hlater.exports]
  exact follows_later hlater (h.follows k)

theorem kept_ask {w : Inventory} (h : w.Kept newV5 shards formats) (k : Nat)
    (query : ExportQuery) : (w.ask k query).Kept newV5 shards formats := by
  unfold ask
  split
  · refine kept_setExport h ⟨Nat.le_refl _, fun _ => ?_⟩
    rw [firstShards_zero]
  · exact h

/-- An export that nothing moved under has read every registered device. -/
theorem kept_glance {w : Inventory} (h : w.Kept newV5 shards formats) (k : Nat) :
    (w.glance shards k).Kept newV5 shards formats := by
  unfold glance
  split
  · rename_i query began shard devices hexport
    have hfollows := h.follows k
    rw [hexport] at hfollows
    obtain ⟨hle, hperm⟩ := hfollows
    have hnext : began = w.moved → (devices ++ w.fleet.registry.shard shards shard).Perm
        (w.fleet.registry.firstShards shards (shard + 1)) :=
      fun heq => ((hperm heq).append_right _).trans (firstShards_succ _ _ _)
    refine kept_setExport h ?_
    split
    · exact ⟨hle, hnext⟩
    · rename_i hlast
      intro m hm
      split at hm
      · rename_i hbegan
        obtain rfl := Option.some.inj hm
        have hall : sortedById (devices ++ w.fleet.registry.shard shards shard) =
            sortedById w.fleet.registry.configs := by
          have hread := hnext hbegan
          rw [firstShards_all _ (by omega)] at hread
          refine (sortedById_eq_of_perm hread.symm ?_).symm
          rw [ids_eq]
          exact h.consistent.filed.oneEach
        refine ⟨Nat.le_refl _, fun _ => hall, fun v hv hmoved => ?_⟩
        rw [h.consistent.stamped v hv hmoved]
        exact hall.symm
      · cases hm
  · exact h

theorem kept_learn {w : Inventory} (h : w.Kept newV5 shards formats) (k : Nat)
    (learned : Promoted) : (w.learn k learned).Kept newV5 shards formats := by
  unfold learn
  split
  · rename_i query read devices hexport
    have hfollows := h.follows k
    rw [hexport] at hfollows
    exact kept_setExport h hfollows
  · exact h

/--
The groups an export goes on to read were in force, with no verb in progress, over the
devices it has read, and those were not changed while it read them.
-/
def Together (w : Inventory) (k : Nat) : Prop :=
  match w.exports k, w.holding with
  | .grouping _ read _ _, none => ∃ v ∈ w.passed, read = some v.moved ∧ v.groups = w.now.groups
  | _, _ => True

/-- Exports conclude on groups that belong to the devices they have read. -/
def Steady (w : Inventory) : Act → Prop
  | .conclude k => w.Together k
  | _ => True

theorem kept_conclude {w : Inventory} (h : w.Kept newV5 shards formats) {k : Nat}
    (htogether : w.Together k) :
    (w.conclude newV5 formats k).Kept newV5 shards formats := by
  unfold conclude
  split
  · rename_i query read devices learned hexport hfree
    have hfollows := h.follows k
    rw [hexport] at hfollows
    unfold Together at htogether
    rw [hexport, hfree] at htogether
    obtain ⟨v, hv, hread, hgroups⟩ := htogether
    obtain ⟨_, _, hthen⟩ := hfollows v.moved hread
    obtain ⟨resolved, hresolves, hnow, _⟩ := h.consistent.free hfree
    rw [hresolves]
    refine kept_setExport h ⟨v, hv, ?_, ?_⟩
    · rw [hthen v hv rfl, hgroups, hnow]
    · rw [hthen v hv rfl, hgroups, hnow]
  · exact h

theorem kept_step {w : Inventory} (h : w.Kept newV5 shards formats) {act : Act}
    (hsteady : w.Steady act) : (w.step newV5 shards formats act).Kept newV5 shards formats := by
  cases act with
  | keep change =>
      exact kept_later h (later_keep newV5 w change) (consistent_keep h.consistent change)
  | advance => exact kept_later h (later_advance w) (consistent_advance h.consistent)
  | ask k query => exact kept_ask h k query
  | glance k => exact kept_glance h k
  | learn k learned => exact kept_learn h k learned
  | conclude k => exact kept_conclude h hsteady

/-- Where nothing has moved since the devices were read, the groups are the ones over them. -/
theorem together_of_unmoved {w : Inventory} (h : w.Consistent newV5) {k : Nat}
    {query : ExportQuery} {devices : List DeviceConfig} {learned : Promoted}
    (hexport : w.exports k = .grouping query (some w.moved) devices learned) :
    w.Together k := by
  unfold Together
  rw [hexport]
  cases hfree : w.holding with
  | some applying => trivial
  | none =>
      obtain ⟨_, _, _, hmoved⟩ := h.free hfree
      exact ⟨w.now, h.now, by rw [hmoved], rfl⟩

/-! ## With nothing in between -/

theorem foldl_remove (r : Devices.Registry) (ids : List DeviceId) :
    ids.foldl Registry.remove r =
      { r with devices := r.devices.filter fun d => !ids.contains d.config.id } := by
  induction ids generalizing r with
  | nil => simp
  | cons id ids ih =>
      rw [List.foldl_cons, ih]
      unfold Registry.remove
      rw [List.filter_filter]
      refine congrArg (Devices.Registry.mk · _ _) (List.filter_congr fun d _ => ?_)
      by_cases hid : d.config.id = id <;> simp [hid]

/-- Removing what is not wanted, one id at a time, keeps what is. -/
theorem foldl_remove_unwanted (r : Devices.Registry) (wanted : List DeviceId) :
    (r.ids.filter fun id => !wanted.contains id).foldl Registry.remove r =
      { r with devices := r.devices.filter fun d => wanted.contains d.config.id } := by
  rw [foldl_remove]
  refine congrArg (Devices.Registry.mk · _ _) (List.filter_congr fun d hd => ?_)
  have hid : d.config.id ∈ r.ids := List.mem_map_of_mem hd
  by_cases hwanted : d.config.id ∈ wanted <;> simp [hid, hwanted]

/-- The devices still to do are put in, one step each. -/
theorem iterate_todo {w : Inventory} {resolved : Resolved} {todo : List DeviceConfig}
    {change : RegistryChange} (h : w.holding = some ⟨resolved, todo, change, none⟩) :
    ∃ moved, advance^[todo.length] w =
      { w with
        fleet := { w.fleet with
          registry := (todo.foldl Registry.applyOne (w.fleet.registry, change)).1 }
        moved := moved
        holding := some
          ⟨resolved, [], (todo.foldl Registry.applyOne (w.fleet.registry, change)).2, none⟩ } := by
  induction todo generalizing w change with
  | nil =>
      refine ⟨w.moved, ?_⟩
      show w = { w with holding := some ⟨resolved, [], change, none⟩ }
      rw [← h]
  | cons config todo ih =>
      obtain ⟨moved, hrest⟩ := ih (w := w.advance) (by rw [advance_next h])
      refine ⟨moved, ?_⟩
      rw [List.length_cons, Function.iterate_succ_apply, hrest, advance_next h]
      rfl

/-- The ids still to be removed are, one step each. -/
theorem iterate_stale {w : Inventory} {resolved : Resolved} {change : RegistryChange}
    {stale : List DeviceId} (h : w.holding = some ⟨resolved, [], change, some stale⟩) :
    ∃ moved, advance^[stale.length] w =
      { w with
        fleet := { w.fleet with registry := stale.foldl Registry.remove w.fleet.registry }
        moved := moved
        holding := some ⟨resolved, [], change, some []⟩ } := by
  induction stale generalizing w with
  | nil =>
      refine ⟨w.moved, ?_⟩
      show w = { w with holding := some ⟨resolved, [], change, some []⟩ }
      rw [← h]
  | cons id stale ih =>
      obtain ⟨moved, hrest⟩ := ih (w := w.advance) (by rw [advance_remove h])
      refine ⟨moved, ?_⟩
      rw [List.length_cons, Function.iterate_succ_apply, hrest, advance_remove h]
      rfl

/-- A verb's steps come to what `Registry::apply` comes to, and let go of the document. -/
theorem iterate_advance {w : Inventory} {resolved : Resolved}
    (h : w.holding =
      some ⟨resolved, Registry.desired resolved.devices, ⟨[], [], [], 0⟩, none⟩) :
    ∃ n, (advance^[n] w).fleet =
        { w.fleet with registry := (w.fleet.registry.apply resolved).1 } ∧
      (advance^[n] w).holding = none := by
  obtain ⟨moved, htodo⟩ := iterate_todo h
  generalize hdone : advance^[(Registry.desired resolved.devices).length] w = done at htodo
  have hcollect := advance_collect (w := done) (by rw [htodo])
  obtain ⟨moved', hstale⟩ := iterate_stale (w := done.advance) (by rw [hcollect])
  generalize hstale' : (done.fleet.registry.ids.filter fun id =>
    !((Registry.desired resolved.devices).map (·.id)).contains id) = stale at hcollect hstale
  generalize hpruned : advance^[stale.length] done.advance = pruned at hstale
  have hfinish := advance_finish (w := pruned) (by rw [hstale])
  refine ⟨1 + (stale.length + (1 + (Registry.desired resolved.devices).length)), ?_⟩
  rw [Function.iterate_add_apply, Function.iterate_add_apply, Function.iterate_add_apply, hdone,
    Function.iterate_one, hpruned, hfinish]
  refine ⟨?_, rfl⟩
  have hregistry : pruned.fleet.registry = stale.foldl Registry.remove done.fleet.registry := by
    rw [hstale, hcollect]
  rw [← hstale', foldl_remove_unwanted, htodo] at hregistry
  unfold finish
  dsimp only
  rw [hregistry, hstale, hcollect, htodo]
  rfl

/-- What a verb that is not refused keeps. -/
theorem keep_ok {w : Inventory} (hfree : w.holding = none) {change : Change}
    {document : RawConfig} {resolved : Resolved} {outbox : MemoryOutbox}
    (hchange : w.fleet.change newV5 change =
      ({ (w.fleet.adopt document resolved).1 with outbox := outbox }, .ok ()))
    (hresolves : resolveConfig newV5 document = .ok resolved) :
    w.keep newV5 change =
      { w with
        fleet := { w.fleet with
          document := document
          catalog := (w.fleet.adopt document resolved).1.catalog }
        holding := some
          ⟨resolved, Registry.desired resolved.devices, ⟨[], [], [], 0⟩, none⟩ } := by
  have hdocument : (w.fleet.adopt document resolved).1.document = document := rfl
  unfold keep
  rw [hfree, hchange]
  simp only [hdocument, hresolves]

/--
**With nothing in between, a verb's steps are the verb**, but for the errands it runs in the
outbox once it has let go of the document.
-/
theorem iterate_keep {w : Inventory} (hfree : w.holding = none) {change : Change}
    (hok : (w.fleet.change newV5 change).2 = .ok ()) :
    ∃ n, (advance^[n] (w.keep newV5 change)).fleet =
        { (w.fleet.change newV5 change).1 with outbox := w.fleet.outbox } ∧
      (advance^[n] (w.keep newV5 change)).holding = none := by
  have hadopts : ∃ document resolved outbox, resolveConfig newV5 document = .ok resolved ∧
      w.fleet.change newV5 change =
        ({ (w.fleet.adopt document resolved).1 with outbox := outbox }, .ok ()) := by
    have hspec := change_spec newV5 w.fleet change
    generalize w.fleet.change newV5 change = changed at hspec hok
    obtain ⟨after, answer⟩ := changed
    dsimp only at hspec hok
    subst hok
    cases hspec with
    | amended amended resolved outbox _ _ hresolves =>
        exact ⟨_, resolved, outbox, resolveConfig_kept hresolves w.fleet.document.defaults, rfl⟩
    | reloaded document resolved outbox _ hresolves =>
        exact ⟨document, resolved, outbox, hresolves, rfl⟩
  obtain ⟨document, resolved, outbox, hresolves, hchange⟩ := hadopts
  have hkeep := keep_ok hfree hchange hresolves
  obtain ⟨n, hfleet, hholding⟩ := iterate_advance (w := w.keep newV5 change) (by rw [hkeep])
  refine ⟨n, ?_, hholding⟩
  rw [hfleet, hkeep, hchange]
  rfl

/-! ## Snapshots -/

/--
Every finished export is of one fleet there was, every member of its groups is one of its
devices, and its text loads.
-/
def Snapshots (newV5 : Uuid → List UInt8 → Uuid) (formats : ExportFormat → Format)
    (w : Inventory) : Prop :=
  ∀ k query learned document answer, w.exports k = .answered query learned document answer →
    (∃ v ∈ w.passed, document = exported v.devices v.groups learned query) ∧
      (∀ group ∈ document.groups, ∀ id ∈ group.devices,
        ∃ device ∈ document.devices, device.id = id) ∧
      ((formats query.format).Inverse document.node →
        ∃ text, answer = .ok text ∧ Loads newV5 (formats query.format) query text)

theorem snapshots_of_kept {w : Inventory} (h : w.Kept newV5 shards formats) :
    w.Snapshots newV5 formats := by
  intro k query learned document answer hexport
  have hfollows := h.follows k
  rw [hexport] at hfollows
  obtain ⟨v, hv, rfl, rfl⟩ := hfollows
  have hloadable := h.consistent.loadable v hv
  refine ⟨⟨v, hv, rfl⟩, ?_, ?_⟩
  · intro group hgroup id hid
    obtain ⟨config, hconfig, rfl⟩ := List.mem_map.mp hgroup
    obtain ⟨device, hdevice, heq⟩ := hloadable.members config hconfig id hid
    exact ⟨_, List.mem_map_of_mem hdevice, heq⟩
  · exact loads_render hloadable learned query

/--
**An export is a snapshot, if the groups it reads belong to the devices it read.** Over every
order in which verbs and exports take their steps.
-/
theorem export_is_snapshot (newV5 : Uuid → List UInt8 → Uuid) (shards : Shards)
    (formats : ExportFormat → Format) {document : RawConfig} {resolved : Resolved}
    (h : resolveConfig newV5 document = .ok resolved) (outbox : MemoryOutbox)
    (configPath : String) {acts : List Act}
    (hsteady : Machine.Along (step newV5 shards formats) Steady
      (init document resolved outbox configPath) acts) :
    (Machine.exec (step newV5 shards formats) (init document resolved outbox configPath)
      acts).Snapshots newV5 formats := by
  have hstep : ∀ (w : Inventory) act, w.Kept newV5 shards formats → w.Steady act →
      (w.step newV5 shards formats act).Kept newV5 shards formats :=
    fun w act hkept hact => kept_step hkept hact
  have hinit : (init document resolved outbox configPath).Kept newV5 shards formats :=
    ⟨consistent_init h outbox configPath, fun _ => trivial⟩
  exact snapshots_of_kept (Machine.exec_invariant hstep hsteady hinit)

end Inventory

end Runs

/-! ## A verb between the devices and the groups -/

namespace Inventory

instance (w : Inventory) (k : Nat) : Decidable (w.Together k) := by
  unfold Together
  split <;> infer_instance

instance (w : Inventory) : (act : Act) → Decidable (w.Steady act)
  | .conclude k => inferInstanceAs (Decidable (w.Together k))
  | .keep _ | .advance | .ask _ _ | .glance _ | .learn _ _ => .isTrue trivial

/-- Four shards, `a` in one and the rest in another. -/
def fourShards : Shards := ⟨4, fun id => if id = "a" then 1 else 2⟩

/-- The lab, its `a` registered, and nothing under way. -/
def lab : Inventory := init labDocument labResolved (.withMaxAttempts 3 1000000000) "devices.toml"

/-- An export reads the devices: `a` alone, as the fleet is then. -/
def readsDevices : List Act := [.ask 0 labQuery, .glance 0, .glance 0, .glance 0, .glance 0]

/-- `b` joins. -/
def joins : List Act :=
  [.keep (.add (deviceAt secondHost none (some "b"))), .advance, .advance, .advance, .advance]

/-- `b` is put in a group with `a`. -/
def pairs : List Act :=
  [.keep (.addGroup ⟨some "pair", ["a", "b"], none, none⟩), .advance, .advance, .advance,
    .advance]

/-- The export asks what was learned, and reads the groups. -/
def readsGroups : List Act := [.learn 0 labPromoted, .conclude 0]

/-- Between the two `b` joins, and the groups stay: the export is of the fleet before. -/
theorem export_is_snapshot_lab :
    (Machine.exec (step newV5OfPromoted fourShards fun _ => labJson) lab
      (readsDevices ++ joins ++ readsGroups)).Snapshots newV5OfPromoted fun _ => labJson :=
  export_is_snapshot newV5OfPromoted fourShards (fun _ => labJson)
    (show resolveConfig newV5OfPromoted labDocument = .ok labResolved by decide +kernel) _ _
    (show Machine.Along _ Steady lab (readsDevices ++ joins ++ readsGroups) by decide +kernel)

/-- A finished export that has a group over a device it does not have. -/
def Stray (w : Inventory) (k : Nat) : Prop :=
  match w.exports k with
  | .answered _ _ document _ => ∃ group ∈ document.groups, ∃ id ∈ group.devices,
      ∀ device ∈ document.devices, device.id ≠ id
  | _ => False

instance (w : Inventory) (k : Nat) : Decidable (w.Stray k) := by
  unfold Stray
  split <;> infer_instance

theorem not_snapshots_of_stray {newV5 : Uuid → List UInt8 → Uuid}
    {formats : ExportFormat → Format} {w : Inventory} {k : Nat} (h : w.Stray k) :
    ¬ w.Snapshots newV5 formats := by
  intro hsnapshots
  unfold Stray at h
  split at h
  · rename_i query learned document answer hexport
    obtain ⟨group, hgroup, id, hid, hno⟩ := h
    obtain ⟨_, hmembers, _⟩ := hsnapshots k query learned document answer hexport
    obtain ⟨device, hdevice, heq⟩ := hmembers group hgroup id hid
    exact hno device hdevice heq
  · exact h

/-- Between the two `b` joins and gets a group: the export has the group, and not `b`. -/
theorem export_torn :
    ¬ (Machine.exec (step newV5OfPromoted fourShards fun _ => labJson) lab
      (readsDevices ++ joins ++ pairs ++ readsGroups)).Snapshots newV5OfPromoted
        fun _ => labJson := by
  refine not_snapshots_of_stray (k := 0) ?_
  decide +kernel

end Inventory

end Sismatic
