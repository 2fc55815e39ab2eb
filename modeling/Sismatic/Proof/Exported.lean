import Sismatic.Server.Export
import Sismatic.Proof.Undisturbed

/-!
# An export is read back

What the loader guarantees of a fleet is enough to write it down and load it again. Each
key is written as the loader reads it, a device with every key stated resolves to itself,
and a group's timeout is a number of seconds wherever it came from. What an export folds
into a device's list is part of what the device is identified by, so a device that gained
a name that way comes back under another identity.
-/

namespace Sismatic

open Devices

/-! ## Reading what was written -/

namespace Devices

theorem ok_bind {ε α β : Type} (a : α) (f : α → Except ε β) : (Except.ok a >>= f) = f a := rfl

@[simp] theorem readUnsigned_toNat {bound n : Nat} (h : n < bound) :
    readUnsigned bound (.int n) = .ok n := by
  have hrange : (0 : Int) ≤ n ∧ (n : Int) < bound := by omega
  rw [readUnsigned, if_pos hrange]
  rfl

@[simp] theorem readU16_toNat (n : UInt16) : readU16 (.int n.toNat) = .ok n := by
  rw [readU16, readUnsigned_toNat n.toNat_lt]
  exact congrArg Except.ok n.ofNat_toNat

@[simp] theorem readU32_toNat (n : UInt32) : readU32 (.int n.toNat) = .ok n := by
  rw [readU32, readUnsigned_toNat n.toNat_lt]
  exact congrArg Except.ok n.ofNat_toNat

@[simp] theorem readU64_toNat (n : UInt64) : readU64 (.int n.toNat) = .ok n := by
  rw [readU64, readUnsigned_toNat n.toNat_lt]
  exact congrArg Except.ok n.ofNat_toNat

@[simp] theorem readText_val (text : Text) : readText (.str text.val) = .ok text := by
  show (if h : text.val.utf8ByteSize < 2 ^ 63 then Except.ok (⟨text.val, h⟩ : Text)
    else .error "capacity overflow") = .ok text
  rw [dif_pos text.2]

theorem readList_map {α β : Type} {read : Node → Except String β} {write : α → Node} {f : α → β}
    {xs : List α} (h : ∀ x ∈ xs, read (write x) = .ok (f x)) :
    readList read (.list (xs.map write)) = .ok (xs.map f) := by
  show (xs.map write).mapM read = .ok (xs.map f)
  induction xs with
  | nil => rfl
  | cons x xs ih =>
      rw [List.map_cons, List.mapM_cons, h x (List.mem_cons_self ..),
        ih fun y hy => h y (List.mem_cons_of_mem _ hy)]
      rfl

@[simp] theorem readList_str (names : List String) :
    readList readString (.list (names.map .str)) = .ok names := by
  have hsame : readList readString (.list (names.map .str)) = .ok (names.map id) :=
    readList_map fun _ _ => rfl
  rw [hsame, List.map_id]

theorem readStruct_of_known {known : List String} {entries : List (String × Node)}
    (h : entries.map (·.1) ⊆ known) : readStruct known (.table entries) = .ok entries := by
  have hfind : (entries.find? fun entry => !known.contains entry.1) = none := by
    refine List.find?_eq_none.mpr fun entry hentry => ?_
    simpa using h (List.mem_map_of_mem hentry)
  rw [readStruct, hfind]

theorem field_of_mem {entries : List (String × Node)} (hnodup : (entries.map (·.1)).Nodup)
    {name : String} {node : Node} (h : (name, node) ∈ entries) :
    field entries [name] = .ok (some node) := by
  have hone : (entries.filter fun entry => [name].contains entry.1) = [(name, node)] := by
    induction entries with
    | nil => cases h
    | cons entry entries ih =>
        obtain ⟨hnew, hnodup⟩ := List.nodup_cons.mp hnodup
        rcases List.mem_cons.mp h with rfl | h
        · have hrest : (entries.filter fun entry => [name].contains entry.1) = [] := by
            refine List.filter_eq_nil_iff.mpr fun other hother hsame => hnew ?_
            have heq : other.1 = name := by simpa using hsame
            exact List.mem_map.mpr ⟨other, hother, heq⟩
          rw [List.filter_cons_of_pos (by simp), hrest]
        · have hne : entry.1 ≠ name := by
            rintro rfl
            exact hnew (List.mem_map.mpr ⟨_, h, rfl⟩)
          rw [List.filter_cons_of_neg (by simpa using hne), ih hnodup h]
  rw [field, hone]

theorem required_of_mem {α : Type} {read : Node → Except String α}
    {entries : List (String × Node)} (hnodup : (entries.map (·.1)).Nodup) {name : String}
    {node : Node} (h : (name, node) ∈ entries) : required read entries name = read node := by
  rw [required, field_of_mem hnodup h]
  rfl

theorem optional_of_mem {α : Type} {read : Node → Except String α}
    {entries : List (String × Node)} (hnodup : (entries.map (·.1)).Nodup) {name : String}
    {node : Node} {value : α} (h : (name, node) ∈ entries) (hread : read node = .ok value)
    (hnull : node ≠ .null) : optional read entries name = .ok (some value) := by
  rw [optional, field_of_mem hnodup h]
  cases node with
  | null => exact absurd rfl hnull
  | bool b => exact congrArg (Except.map some) hread
  | int n => exact congrArg (Except.map some) hread
  | str s => exact congrArg (Except.map some) hread
  | list items => exact congrArg (Except.map some) hread
  | table entries => exact congrArg (Except.map some) hread

theorem filter_contains_eq_nil {entries : List (String × Node)} {names : List String}
    (h : ∀ entry ∈ entries, entry.1 ∉ names) :
    (entries.filter fun entry => names.contains entry.1) = [] := by
  refine List.filter_eq_nil_iff.mpr fun entry hentry => ?_
  simpa using h entry hentry

theorem optional_of_absent {α : Type} {read : Node → Except String α}
    {entries : List (String × Node)} {name : String} (h : ∀ entry ∈ entries, entry.1 ≠ name) :
    optional read entries name = .ok none := by
  have hnone : (entries.filter fun entry => [name].contains entry.1) = [] :=
    filter_contains_eq_nil fun entry hentry => by simpa using h entry hentry
  rw [optional, field, hnone]
  rfl

end Devices

/-! ## A fleet written down -/

/-- The device as an export states it, before it has an identity. -/
def noted (promoted : Promoted) (query : ExportQuery) (device : DeviceConfig) : DeviceConfig :=
  { device with
    disabledFields := extend device.disabledFields (query.inferred promoted device.id) }

/-- The device as the loader finds it written. -/
def written (promoted : Promoted) (query : ExportQuery) (device : DeviceConfig) : RawDevice :=
  { rawOf (noted promoted query device) with
    password := if query.includeSecrets then some device.password else none }

theorem keys_exportDevice (promoted : Promoted) (query : ExportQuery) (device : DeviceConfig) :
    (exportDevice promoted query device).entries.map (·.1) =
      if query.includeSecrets then ["id", "host", "port", "username", "password", "connect_secs",
        "exchange_secs", "eager", "sis_keepalive_secs", "eager_retry_secs", "cold_backoff_secs",
        "disabled_fields", "auto_disable_after", "self_heal_secs"]
      else ["id", "host", "port", "username", "connect_secs", "exchange_secs", "eager",
        "sis_keepalive_secs", "eager_retry_secs", "cold_backoff_secs", "disabled_fields",
        "auto_disable_after", "self_heal_secs"] := by
  unfold exportDevice ExportDevice.entries
  cases query.includeSecrets <;> rfl

/-- Every key of a device is read back as it was written. -/
theorem readDevice_exportDevice (promoted : Promoted) (query : ExportQuery)
    (device : DeviceConfig) :
    readDevice (exportDevice promoted query device).node =
      .ok (written promoted query device) := by
  have hkeys := keys_exportDevice promoted query device
  have hnodup : ((exportDevice promoted query device).entries.map (·.1)).Nodup := by
    rw [hkeys]
    split <;> decide
  have hpassword : optional readText (exportDevice promoted query device).entries "password" =
      .ok (written promoted query device).password := by
    unfold written
    cases hsecrets : query.includeSecrets with
    | true =>
        refine optional_of_mem hnodup ?_ (readText_val device.password) nofun
        simp [exportDevice, ExportDevice.entries, stated, hsecrets]
    | false =>
        refine optional_of_absent fun entry hentry hname => ?_
        have hkey := List.mem_map_of_mem (f := (·.1)) hentry
        rw [hkeys, hsecrets, hname] at hkey
        simp at hkey
  have hmem : ∀ {i : Nat} {entry : String × Node},
      (exportDevice promoted query device).entries[i]? = some entry →
      entry ∈ (exportDevice promoted query device).entries := fun h => List.mem_of_getElem? h
  have hlater : ∀ {i : Nat} {entry : String × Node},
      [("connect_secs", Node.int (asSecs device.connectTimeout).toNat),
        ("exchange_secs", .int (asSecs device.exchangeTimeout).toNat),
        ("eager", .bool device.eager),
        ("sis_keepalive_secs", .int (secsOf device.sisKeepalive).toNat),
        ("eager_retry_secs", .int (secsOf device.eagerRetry).toNat),
        ("cold_backoff_secs", .int (secsOf device.coldBackoff).toNat),
        ("disabled_fields", .list ((noted promoted query device).disabledFields.elems.map .str)),
        ("auto_disable_after", .int device.autoDisableAfter.toNat),
        ("self_heal_secs", .int (secsOf device.selfHeal).toNat)][i]? = some entry →
      entry ∈ (exportDevice promoted query device).entries :=
    fun h => List.mem_append_right _ (List.mem_of_getElem? h)
  have hsecs : ∀ {name : String} {secs : UInt64},
      (name, .int secs.toNat) ∈ (exportDevice promoted query device).entries →
      optional readU64 (exportDevice promoted query device).entries name = .ok (some secs) :=
    fun h => optional_of_mem hnodup h (readU64_toNat _) nofun
  have hconnect := hsecs (hlater (i := 0) rfl)
  have hexchange := hsecs (hlater (i := 1) rfl)
  have hkeepalive := hsecs (hlater (i := 3) rfl)
  have hretry := hsecs (hlater (i := 4) rfl)
  have hbackoff := hsecs (hlater (i := 5) rfl)
  have hheal := hsecs (hlater (i := 8) rfl)
  have hid : required readString (exportDevice promoted query device).entries "id" =
      .ok device.id := required_of_mem hnodup (hmem (i := 0) rfl)
  have hhost : required readText (exportDevice promoted query device).entries "host" =
      .ok device.host :=
    (required_of_mem hnodup (hmem (i := 1) rfl)).trans (readText_val _)
  have hport := optional_of_mem hnodup (hmem (i := 2) rfl) (readU16_toNat device.port) nofun
  have husername :=
    optional_of_mem hnodup (hmem (i := 3) rfl) (readText_val device.username) nofun
  have heager := optional_of_mem hnodup (hlater (i := 2) rfl)
    (show readBool (.bool device.eager) = .ok device.eager from rfl) nofun
  have hfields := optional_of_mem hnodup (hlater (i := 6) rfl)
    (readList_str (noted promoted query device).disabledFields.elems) nofun
  have hauto := optional_of_mem hnodup (hlater (i := 7) rfl)
    (readU32_toNat device.autoDisableAfter) nofun
  have hknown : (exportDevice promoted query device).entries.map (·.1) ⊆ ["id", "host", "port",
      "username", "password", "connect_secs", "exchange_secs", "eager", "sis_keepalive_secs",
      "eager_retry_secs", "cold_backoff_secs", "disabled_fields", "auto_disable_after",
      "self_heal_secs"] := by
    rw [hkeys]
    split <;> decide
  unfold readDevice ExportDevice.node
  rw [readStruct_of_known hknown]
  simp only [ok_bind, hid, hhost, hport, husername, hpassword, hconnect, hexchange, heager,
    hkeepalive, hretry, hbackoff, hfields, hauto, hheal]
  rfl

/-- A group as an export states it. -/
def rawOfGroup (group : GroupConfig) : RawGroup where
  id := group.id
  devices := group.deviceIds
  barrierTimeoutSecs := some (asSecs group.barrierTimeout)
  barrier := some (match group.barrier with
    | .failBatch => .failBatch
    | .dispatchReady => .dispatchReady)

theorem readGroup_exportGroup (group : GroupConfig) :
    readGroup (exportGroup group).node = .ok (rawOfGroup group) := by
  have hkeys : (exportGroup group).entries.map (·.1) =
      ["id", "devices", "barrier_timeout_secs", "barrier"] := rfl
  have hnodup : ((exportGroup group).entries.map (·.1)).Nodup := by
    rw [hkeys]
    decide
  have hmem : ∀ {i : Nat} {entry : String × Node}, (exportGroup group).entries[i]? = some entry →
      entry ∈ (exportGroup group).entries := fun h => List.mem_of_getElem? h
  have hid : required readString (exportGroup group).entries "id" = .ok group.id :=
    required_of_mem hnodup (hmem (i := 0) rfl)
  have hdevices : required (readList readString) (exportGroup group).entries "devices" =
      .ok group.deviceIds :=
    (required_of_mem hnodup (hmem (i := 1) rfl)).trans (readList_str _)
  have hsecs : optional readU64 (exportGroup group).entries "barrier_timeout_secs" =
      .ok (some (asSecs group.barrierTimeout)) :=
    optional_of_mem hnodup (hmem (i := 2) rfl) (readU64_toNat _) nofun
  have hbarrier : optional readBarrier (exportGroup group).entries "barrier" =
      .ok (rawOfGroup group).barrier := by
    refine optional_of_mem hnodup (hmem (i := 3) rfl) ?_ nofun
    unfold exportGroup
    cases group.barrier <;> rfl
  unfold readGroup ExportGroup.node
  rw [readStruct_of_known (by rw [hkeys]; exact List.Subset.refl _)]
  simp only [ok_bind, hid, hdevices, hsecs, hbarrier]
  rfl

theorem mem_listed {α : Type} {name : String} {write : α → Node} {items : List α}
    {entry : String × Node} (h : entry ∈ listed name write items) : entry.1 = name := by
  unfold listed at h
  split at h
  · cases h
  · rw [List.mem_singleton.mp h]

theorem defaulted_absent {α : Type} {default : α} {read : Node → Except String α}
    {entries : List (String × Node)} {names : List String}
    (h : ∀ entry ∈ entries, entry.1 ∉ names) :
    defaulted default read entries names = .ok default := by
  rw [defaulted, field, filter_contains_eq_nil h]
  rfl

/-- A list left out when it is empty is read back, empty or not. -/
theorem defaulted_listed {α β : Type} {read : Node → Except String β} {write : α → Node}
    {items : List α} {values : List β} {before after : List (String × Node)} {name : String}
    {names : List String} (hname : name ∈ names) (hbefore : ∀ entry ∈ before, entry.1 ∉ names)
    (hafter : ∀ entry ∈ after, entry.1 ∉ names)
    (hread : readList read (.list (items.map write)) = .ok values) :
    defaulted [] (readList read) (before ++ listed name write items ++ after) names =
      .ok values := by
  have hlisted : ((listed name write items).filter fun entry => names.contains entry.1) =
      listed name write items := by
    refine List.filter_eq_self.mpr fun entry hentry => ?_
    simpa [mem_listed hentry] using hname
  rw [defaulted, field, List.filter_append, List.filter_append, filter_contains_eq_nil hbefore,
    filter_contains_eq_nil hafter, hlisted, List.nil_append, List.append_nil]
  cases items with
  | nil => exact hread
  | cons item items => exact hread

/-- What an exported fleet is read back as. -/
theorem readConfig_exported (devices : List DeviceConfig) (groups : List GroupConfig)
    (promoted : Promoted) (query : ExportQuery) :
    readConfig (exported devices groups promoted query).node =
      .ok ⟨.unset, devices.map (written promoted query), groups.map rawOfGroup⟩ := by
  have hnode : (exported devices groups promoted query).node =
      .table (listed "device" ExportDevice.node (devices.map (exportDevice promoted query)) ++
        listed "group" ExportGroup.node (groups.map exportGroup)) := rfl
  have hdevice : ∀ entry ∈
      listed "device" ExportDevice.node (devices.map (exportDevice promoted query)),
      entry.1 = "device" := fun _ h => mem_listed h
  have hgroup : ∀ entry ∈ listed "group" ExportGroup.node (groups.map exportGroup),
      entry.1 = "group" := fun _ h => mem_listed h
  rw [hnode]
  generalize hds : listed "device" ExportDevice.node _ = ds at hdevice
  generalize hgs : listed "group" ExportGroup.node _ = gs at hgroup
  have hknown : (ds ++ gs).map (·.1) ⊆ ["defaults", "devices", "device", "groups", "group"] := by
    intro key hkey
    obtain ⟨entry, hentry, rfl⟩ := List.mem_map.mp hkey
    rcases List.mem_append.mp hentry with hentry | hentry
    · rw [hdevice entry hentry]
      decide
    · rw [hgroup entry hentry]
      decide
  have hdefaults : defaulted .unset readDefaults (ds ++ gs) ["defaults"] = .ok .unset := by
    refine defaulted_absent fun entry hentry => ?_
    rcases List.mem_append.mp hentry with hentry | hentry
    · rw [hdevice entry hentry]
      decide
    · rw [hgroup entry hentry]
      decide
  have hdevices : defaulted [] (readList readDevice) (ds ++ gs) ["devices", "device"] =
      .ok (devices.map (written promoted query)) := by
    rw [← hds, ← List.nil_append (listed "device" _ _)]
    refine defaulted_listed (by decide) nofun ?_ ?_
    · intro entry hentry
      rw [hgroup entry hentry]
      decide
    · rw [List.map_map]
      exact readList_map fun device _ => readDevice_exportDevice promoted query device
  have hgroups : defaulted [] (readList readGroup) (ds ++ gs) ["groups", "group"] =
      .ok (groups.map rawOfGroup) := by
    rw [← hgs, ← List.append_nil (ds ++ _)]
    refine defaulted_listed (by decide) ?_ nofun ?_
    · intro entry hentry
      rw [hdevice entry hentry]
      decide
    · rw [List.map_map]
      exact readList_map fun group _ => readGroup_exportGroup group
  unfold readConfig
  rw [readStruct_of_known hknown, ok_bind, hdefaults, ok_bind, hdevices, ok_bind, hgroups]
  rfl

/-! ## What can be loaded -/

/-- Everything the loader guarantees of a fleet. -/
structure Devices.Resolved.Loadable (newV5 : Uuid → List UInt8 → Uuid) (resolved : Resolved) :
    Prop extends resolved.Sound newV5 where
  fresh : ∀ group ∈ resolved.groups, ∀ config ∈ resolved.devices, config.id ≠ group.id
  nonempty : ∀ group ∈ resolved.groups, group.deviceIds ≠ []
  timed : ∀ group ∈ resolved.groups, ∃ secs, group.barrierTimeout = fromSecs secs

section Loadable

variable {newV5 : Uuid → List UInt8 → Uuid}

theorem defaultBarrierTimeout_timed {devices : List DeviceConfig} {members : List DeviceId}
    {timeout : Duration} (h : defaultBarrierTimeout devices members = some timeout) :
    ∃ secs, timeout = fromSecs secs := by
  unfold defaultBarrierTimeout at h
  obtain ⟨budgets, _, h⟩ := Option.bind_eq_some_iff.mp h
  exact ⟨_, (Option.some.inj h).symm⟩

theorem resolveGroup_loads {devices : List DeviceConfig} {group : RawGroup} {config : GroupConfig}
    (h : resolveGroup devices group = .ok config) :
    config.deviceIds ≠ [] ∧ ∃ secs, config.barrierTimeout = fromSecs secs := by
  unfold resolveGroup at h
  split at h
  · cases h
  · rename_i hnonempty
    split at h
    · cases h
    · dsimp only at h
      split at h
      · cases h
      · rename_i timeout htimeout
        obtain rfl := Except.ok.inj h
        refine ⟨fun hnil => hnonempty (List.isEmpty_iff.mpr hnil), ?_⟩
        cases hsecs : group.barrierTimeoutSecs with
        | some secs =>
            rw [hsecs] at htimeout
            exact ⟨secs, (Option.some.inj htimeout).symm⟩
        | none =>
            rw [hsecs] at htimeout
            exact defaultBarrierTimeout_timed htimeout

theorem mem_resolveGroups {devices : List DeviceConfig} {seen : List String}
    {raws : List RawGroup} {configs : List GroupConfig}
    (h : resolveGroups devices seen raws = .ok configs) {config : GroupConfig}
    (hmem : config ∈ configs) : ∃ raw ∈ raws, resolveGroup devices raw = .ok config := by
  induction raws generalizing seen configs with
  | nil =>
      cases h
      cases hmem
  | cons raw raws ih =>
      unfold resolveGroups at h
      by_cases hseen : raw.id ∈ seen
      · rw [if_pos hseen] at h
        cases h
      · rw [if_neg hseen] at h
        obtain ⟨first, hfirst, h⟩ := ok_of_bind h
        obtain ⟨rest, hrest, h⟩ := ok_of_bind h
        obtain rfl := Except.ok.inj h
        rcases List.mem_cons.mp hmem with rfl | hmem
        · exact ⟨raw, List.mem_cons_self .., hfirst⟩
        · obtain ⟨raw', hraw', hok⟩ := ih hrest hmem
          exact ⟨raw', List.mem_cons_of_mem _ hraw', hok⟩

theorem loadable_of_resolveConfig {raw : RawConfig} {resolved : Resolved}
    (h : resolveConfig newV5 raw = .ok resolved) : resolved.Loadable newV5 := by
  obtain ⟨hdevices, hgroups⟩ := resolveConfig_ok.mp h
  obtain ⟨hids, _⟩ := resolveDevices_ok hdevices
  obtain ⟨_, _, hfresh, _⟩ := resolveGroups_ok hgroups
  refine ⟨sound_of_resolveConfig h, ?_, ?_, ?_⟩
  · intro group hgroup config hconfig heq
    obtain ⟨rawGroup, hraw, hok⟩ := mem_resolveGroups hgroups hgroup
    refine hfresh rawGroup hraw ?_
    rw [← hids, ← (resolveGroup_ok hok).1, ← heq]
    exact List.mem_map_of_mem hconfig
  · intro group hgroup
    obtain ⟨_, _, hok⟩ := mem_resolveGroups hgroups hgroup
    exact (resolveGroup_loads hok).1
  · intro group hgroup
    obtain ⟨_, _, hok⟩ := mem_resolveGroups hgroups hgroup
    exact (resolveGroup_loads hok).2

theorem resolveGroup_rawOfGroup {devices : List DeviceConfig} {group : GroupConfig}
    (hnonempty : group.deviceIds ≠ [])
    (hmembers : ∀ id ∈ group.deviceIds, ∃ config ∈ devices, config.id = id)
    (htimed : ∃ secs, group.barrierTimeout = fromSecs secs) :
    resolveGroup devices (rawOfGroup group) = .ok group := by
  obtain ⟨id, members, timeout, barrier⟩ := group
  obtain ⟨secs, rfl⟩ : ∃ secs, timeout = fromSecs secs := htimed
  have hfind : (members.find? fun member => !(devices.map (·.id)).contains member) = none := by
    refine List.find?_eq_none.mpr fun member hmember => ?_
    simpa using hmembers member hmember
  unfold resolveGroup rawOfGroup
  rw [if_neg (by simpa using hnonempty)]
  simp only [hfind, asSecs_fromSecs]
  cases barrier <;> rfl

theorem resolveGroups_rawOfGroup {devices : List DeviceConfig} {seen : List String}
    {groups : List GroupConfig} (hnodup : (groups.map (·.id)).Nodup)
    (hfresh : ∀ group ∈ groups, group.id ∉ seen)
    (hall : ∀ group ∈ groups, resolveGroup devices (rawOfGroup group) = .ok group) :
    resolveGroups devices seen (groups.map rawOfGroup) = .ok groups := by
  induction groups generalizing seen with
  | nil => rfl
  | cons group groups ih =>
      obtain ⟨hnew, hnodup⟩ := List.nodup_cons.mp hnodup
      have hrest : resolveGroups devices (group.id :: seen) (groups.map rawOfGroup) =
          .ok groups := by
        refine ih hnodup ?_ fun other hother => hall other (List.mem_cons_of_mem _ hother)
        intro other hother hmem
        rcases List.mem_cons.mp hmem with heq | hmem
        · exact hnew (List.mem_map.mpr ⟨other, hother, heq⟩)
        · exact hfresh other (List.mem_cons_of_mem _ hother) hmem
      have hseen : (rawOfGroup group).id ∉ seen := hfresh group (List.mem_cons_self ..)
      rw [List.map_cons, resolveGroups, if_neg hseen, hall group (List.mem_cons_self ..), ok_bind]
      show (resolveGroups devices (group.id :: seen) (groups.map rawOfGroup) >>= _) = _
      rw [hrest]
      rfl

/-- **A fleet with every key stated loads**, whatever the defaults. -/
theorem resolveConfig_rawOf (defaults : Defaults) {resolved : Resolved}
    (h : resolved.Loadable newV5) :
    resolveConfig newV5 ⟨defaults, resolved.devices.map rawOf, resolved.groups.map rawOfGroup⟩ =
      .ok resolved := by
  refine resolveConfig_ok.mpr ⟨?_, ?_⟩
  · exact resolveDevices_rawOf defaults h.devices_nodup (by simp) h.stated
  · refine resolveGroups_rawOfGroup h.groups_nodup ?_ ?_
    · intro group hgroup hmem
      rw [List.map_map] at hmem
      obtain ⟨config, hconfig, heq⟩ := List.mem_map.mp hmem
      exact h.fresh group hgroup config hconfig heq
    · intro group hgroup
      exact resolveGroup_rawOfGroup (h.nonempty group hgroup) (h.members group hgroup)
        (h.timed group hgroup)

/-! ## Folding in what was learned -/

theorem mem_extend {names : OrderedSet String} {more : List String} {name : String} :
    name ∈ extend names more ↔ name ∈ names ∨ name ∈ more := by
  unfold extend
  induction more generalizing names with
  | nil => simp
  | cons first more ih =>
      rw [List.foldl_cons, ih, OrderedSet.mem_insert, List.mem_cons]
      tauto

theorem inferred_canonical {query : ExportQuery} {promoted : Promoted} {id : DeviceId}
    {name : FieldName} (h : name ∈ query.inferred promoted id) :
    canonicalField name = some name := by
  unfold ExportQuery.inferred at h
  split at h
  · obtain ⟨field, _, rfl⟩ := List.mem_map.mp h
    exact field.2
  · cases h

/-- The device an exported device is read back as. -/
def promote (newV5 : Uuid → List UInt8 → Uuid) (promoted : Promoted) (query : ExportQuery)
    (device : DeviceConfig) : DeviceConfig :=
  { noted promoted query device with
    uuid := fingerprint newV5 (noted promoted query device) }

theorem stated_promote {device : DeviceConfig} (h : Stated newV5 device) (promoted : Promoted)
    (query : ExportQuery) : Stated newV5 (promote newV5 promoted query device) where
  uuid := rfl
  connect := h.connect
  exchange := h.exchange
  keepalive := h.keepalive
  retry := h.retry
  backoff := h.backoff
  heal := h.heal
  canonical := by
    intro name hname
    rcases mem_extend.mp hname with hname | hname
    · exact h.canonical name hname
    · exact inferred_canonical hname

theorem noted_eq_self {device : DeviceConfig} {promoted : Promoted} {query : ExportQuery}
    (h : ∀ name ∈ query.inferred promoted device.id, name ∈ device.disabledFields) :
    noted promoted query device = device := by
  have hsame : extend device.disabledFields (query.inferred promoted device.id) =
      device.disabledFields := by
    refine OrderedSet.eq_of_mem_iff fun name => ?_
    rw [mem_extend]
    exact or_iff_left_of_imp (h name)
  rw [noted, hsame]

/-- Nothing changes, identity included, where every name folded in was there. -/
theorem promote_eq_self {device : DeviceConfig} (hstated : Stated newV5 device)
    {promoted : Promoted} {query : ExportQuery} :
    promote newV5 promoted query device = device ↔
      ∀ name ∈ query.inferred promoted device.id, name ∈ device.disabledFields := by
  refine ⟨?_, ?_⟩
  · intro heq name hname
    have hfields : extend device.disabledFields (query.inferred promoted device.id) =
        device.disabledFields := congrArg DeviceConfig.disabledFields heq
    rw [← hfields]
    exact mem_extend.mpr (.inr hname)
  · intro h
    unfold promote
    rw [noted_eq_self h, ← hstated.uuid]

theorem loadable_map {resolved : Resolved} (h : resolved.Loadable newV5)
    {f : DeviceConfig → DeviceConfig} (hid : ∀ device, (f device).id = device.id)
    (hstated : ∀ device, Stated newV5 device → Stated newV5 (f device)) :
    (Resolved.mk (resolved.devices.map f) resolved.groups).Loadable newV5 := by
  have hids : (resolved.devices.map f).map (·.id) = resolved.devices.map (·.id) := by
    rw [List.map_map]
    exact List.map_congr_left fun device _ => hid device
  refine ⟨⟨hids ▸ h.devices_nodup, ?_, h.groups_nodup, ?_⟩, ?_, h.nonempty, h.timed⟩
  · intro config hconfig
    obtain ⟨device, hdevice, rfl⟩ := List.mem_map.mp hconfig
    exact hstated device (h.stated device hdevice)
  · intro group hgroup id hmem
    obtain ⟨device, hdevice, heq⟩ := h.members group hgroup id hmem
    exact ⟨_, List.mem_map_of_mem hdevice, (hid device).trans heq⟩
  · intro group hgroup config hconfig
    obtain ⟨device, hdevice, rfl⟩ := List.mem_map.mp hconfig
    rw [hid device]
    exact h.fresh group hgroup device hdevice

/-! ## Credentials left out -/

/-- The device with the password the defaults state, where its own was left out. -/
def supplied (newV5 : Uuid → List UInt8 → Uuid) (query : ExportQuery) (defaults : Defaults)
    (device : DeviceConfig) : DeviceConfig :=
  if query.includeSecrets then device
  else
    let supplied := { device with password := defaults.password.getD device.password }
    { supplied with uuid := fingerprint newV5 supplied }

theorem stated_supplied {device : DeviceConfig} (h : Stated newV5 device) (query : ExportQuery)
    (defaults : Defaults) : Stated newV5 (supplied newV5 query defaults device) := by
  unfold supplied
  split
  · exact h
  · exact ⟨rfl, h.connect, h.exchange, h.keepalive, h.retry, h.backoff, h.heal, h.canonical⟩

theorem supplied_id (query : ExportQuery) (defaults : Defaults) (device : DeviceConfig) :
    (supplied newV5 query defaults device).id = device.id := by
  unfold supplied
  split <;> rfl

/-- The loader does not tell a password in the device from one in the defaults. -/
theorem resolve_written {defaults : Defaults} (promoted : Promoted) {query : ExportQuery}
    (hpassword : query.includeSecrets = false → defaults.password ≠ none) (device : DeviceConfig) :
    resolve newV5 defaults (written promoted query device) =
      resolve newV5 defaults
        (rawOf (promote newV5 promoted query (supplied newV5 query defaults device))) := by
  unfold written supplied
  cases hsecrets : query.includeSecrets with
  | true => rfl
  | false =>
      obtain ⟨password, hsome⟩ := Option.ne_none_iff_exists'.mp (hpassword hsecrets)
      unfold resolve
      rw [hsome]
      rfl

theorem resolveDevices_congr {defaults : Defaults} {seen : List String}
    {devices : List DeviceConfig} {f g : DeviceConfig → RawDevice}
    (hid : ∀ device, (f device).id = (g device).id)
    (h : ∀ device, resolve newV5 defaults (f device) = resolve newV5 defaults (g device)) :
    resolveDevices newV5 defaults seen (devices.map f) =
      resolveDevices newV5 defaults seen (devices.map g) := by
  induction devices generalizing seen with
  | nil => rfl
  | cons device devices ih =>
      rw [List.map_cons, List.map_cons, resolveDevices, resolveDevices, hid, h, ih]

/-- What an export says, under any defaults that state the password it leaves out. -/
theorem resolveConfig_written {resolved : Resolved} (h : resolved.Loadable newV5)
    {defaults : Defaults} (promoted : Promoted) {query : ExportQuery}
    (hpassword : query.includeSecrets = false → defaults.password ≠ none) :
    resolveConfig newV5 ⟨defaults, resolved.devices.map (written promoted query),
        resolved.groups.map rawOfGroup⟩ =
      .ok ⟨resolved.devices.map fun device =>
        promote newV5 promoted query (supplied newV5 query defaults device), resolved.groups⟩ := by
  have hloadable := loadable_map h
    (f := fun device => promote newV5 promoted query (supplied newV5 query defaults device))
    (fun device => supplied_id query defaults device)
    fun device hdevice => stated_promote (stated_supplied hdevice query defaults) promoted query
  have hid : ∀ device, (written promoted query device).id =
      (rawOf (promote newV5 promoted query (supplied newV5 query defaults device))).id :=
    fun device => (supplied_id query defaults device).symm
  obtain ⟨hdevices, hgroups⟩ := resolveConfig_ok.mp (resolveConfig_rawOf defaults hloadable)
  refine resolveConfig_ok.mpr ⟨?_, ?_⟩
  · rw [← hdevices, List.map_map]
    exact resolveDevices_congr hid (resolve_written promoted hpassword)
  · rw [← hgroups]
    refine congrArg (fun seen => resolveGroups _ seen _) ?_
    rw [List.map_map, List.map_map, List.map_map]
    exact List.map_congr_left fun device _ => hid device

/-! ## The round trip -/

/-- **A fleet that can be loaded is read back from its text.** -/
theorem fromText_render {resolved : Resolved} (h : resolved.Loadable newV5)
    {formats : ExportFormat → Format} (promoted : Promoted) {query : ExportQuery}
    (hsecrets : query.includeSecrets = true)
    (hinverse : (formats query.format).Inverse
      (exported resolved.devices resolved.groups promoted query).node) :
    ∃ text, render formats resolved.devices resolved.groups promoted query = .ok text ∧
      fromText newV5 (formats query.format) text =
        .ok ⟨resolved.devices.map (promote newV5 promoted query), resolved.groups⟩ := by
  obtain ⟨text, hserialize, hparse⟩ := hinverse
  refine ⟨text, ?_, ?_⟩
  · rw [render, hserialize]
    rfl
  · have hraw := readConfig_exported resolved.devices resolved.groups promoted query
    have hloads : resolveConfig newV5 ⟨.unset, _, _⟩ = _ := resolveConfig_written h promoted
      fun hout => absurd (hsecrets.symm.trans hout) (by decide)
    simp only [supplied, hsecrets, if_true] at hloads
    unfold fromText
    rw [hparse]
    show (do
      let raw ← (readConfig
        (exported resolved.devices resolved.groups promoted query).node).mapError
          fun e => Fault.refused (ConfigError.parse e)
      resolveConfig newV5 raw) = _
    rw [hraw]
    exact hloads

/--
The text is read, and describes a fleet: by itself, or under defaults that state the password
it was asked to leave out.
-/
def Loads (newV5 : Uuid → List UInt8 → Uuid) (format : Format) (query : ExportQuery)
    (text : String) : Prop :=
  ∃ node raw, format.parse text = .ok node ∧ readConfig node = .ok raw ∧
    ∀ defaults : Defaults, (query.includeSecrets = false → defaults.password ≠ none) →
      ∃ loaded, resolveConfig newV5 { raw with defaults := defaults } = .ok loaded

theorem loads_render {resolved : Resolved} (h : resolved.Loadable newV5)
    {formats : ExportFormat → Format} (promoted : Promoted) (query : ExportQuery)
    (hinverse : (formats query.format).Inverse
      (exported resolved.devices resolved.groups promoted query).node) :
    ∃ text, render formats resolved.devices resolved.groups promoted query = .ok text ∧
      Loads newV5 (formats query.format) query text := by
  obtain ⟨text, hserialize, hparse⟩ := hinverse
  refine ⟨text, ?_, _, _, hparse, readConfig_exported _ _ promoted query, ?_⟩
  · rw [render, hserialize]
    rfl
  · intro defaults hpassword
    exact ⟨_, resolveConfig_written h promoted hpassword⟩

/-- What is written to the state file is the fleet, with nothing folded in. -/
theorem fromText_persisted {raw : RawConfig} {resolved : Resolved}
    (h : resolveConfig newV5 raw = .ok resolved) {formats : ExportFormat → Format}
    {extension : Option String}
    (hinverse : (formats (stateQuery extension).format).Inverse
      (exported resolved.devices resolved.groups (fun _ => []) (stateQuery extension)).node) :
    ∃ text, persisted formats extension resolved = .ok text ∧
      fromText newV5 (formats (stateQuery extension).format) text = .ok resolved := by
  have hloadable := loadable_of_resolveConfig h
  obtain ⟨text, hrender, hloads⟩ := fromText_render hloadable (fun _ => []) rfl hinverse
  have hsame : resolved.devices.map (promote newV5 (fun _ => []) (stateQuery extension)) =
      resolved.devices := by
    refine (List.map_congr_left fun device hdevice => ?_).trans (List.map_id _)
    exact (promote_eq_self (hloadable.stated device hdevice)).mpr nofun
  rw [hsame] at hloads
  exact ⟨text, hrender, hloads⟩

/--
**An export is read back as the fleet it is of.** In order, each device has the configuration
it had, with the names folded in added to its list, and the identity that configuration has,
which is the one it had exactly when there was nothing to add. The groups are as they were.
-/
theorem exported_is_read_back (newV5 : Uuid → List UInt8 → Uuid) {raw : RawConfig}
    {resolved : Resolved} (h : resolveConfig newV5 raw = .ok resolved)
    {formats : ExportFormat → Format} (promoted : Promoted) {query : ExportQuery}
    (hsecrets : query.includeSecrets = true)
    (hinverse : (formats query.format).Inverse
      (exported resolved.devices resolved.groups promoted query).node) :
    (∃ text, render formats resolved.devices resolved.groups promoted query = .ok text ∧
      fromText newV5 (formats query.format) text =
        .ok ⟨resolved.devices.map (promote newV5 promoted query), resolved.groups⟩) ∧
      ∀ device ∈ resolved.devices,
        (∀ name, name ∈ (promote newV5 promoted query device).disabledFields ↔
          name ∈ device.disabledFields ∨ name ∈ query.inferred promoted device.id) ∧
        (promote newV5 promoted query device = device ↔
          ∀ name ∈ query.inferred promoted device.id, name ∈ device.disabledFields) := by
  have hloadable := loadable_of_resolveConfig h
  refine ⟨fromText_render hloadable promoted hsecrets hinverse, ?_⟩
  intro device hdevice
  exact ⟨fun name => mem_extend, promote_eq_self (hloadable.stated device hdevice)⟩

end Loadable

/-! ## A field learned to be refused -/

/-- `a` with the name folded in, under the version 5 UUID it has then. -/
def promotedRecorder : DeviceConfig :=
  { recorder #v[0x5a, 0xbe, 0xf6, 0x3c, 0xf6, 0x13, 0x52, 0xc3, 0xbe, 0x03, 0x01, 0xd0, 0xb6, 0xd0,
      0x79, 0x30] "a" ⟨"10.0.0.1", firstHost_fits⟩ 22023 with
    disabledFields := OrderedSet.empty.insert "SNMP_STATE" }

def newV5OfPromoted (space : Uuid) (name : List UInt8) : Uuid :=
  if name = fingerprintBytes promotedRecorder then promotedRecorder.uuid
  else newV5OfRecorders space name

def labResolved : Resolved where
  devices := [recorders.head (by decide)]
  groups := [⟨"lab", ["a"], 8000000000, .failBatch⟩]

def labPromoted : Promoted := fun id => if id = "a" then [⟨"SNMP_STATE", by decide +kernel⟩] else []

def labQuery : ExportQuery := ⟨.json, true, true⟩

def labText : String := "\n".intercalate
  ["\x7b",
    "  \"device\": [",
    "    \x7b",
    "      \"id\": \"a\",",
    "      \"host\": \"10.0.0.1\",",
    "      \"port\": 22023,",
    "      \"username\": \"admin\",",
    "      \"password\": \"extron\",",
    "      \"connect_secs\": 5,",
    "      \"exchange_secs\": 3,",
    "      \"eager\": false,",
    "      \"sis_keepalive_secs\": 120,",
    "      \"eager_retry_secs\": 30,",
    "      \"cold_backoff_secs\": 30,",
    "      \"disabled_fields\": [",
    "        \"SNMP_STATE\"",
    "      ],",
    "      \"auto_disable_after\": 2,",
    "      \"self_heal_secs\": 0",
    "    \x7d",
    "  ],",
    "  \"group\": [",
    "    \x7b",
    "      \"id\": \"lab\",",
    "      \"devices\": [",
    "        \"a\"",
    "      ],",
    "      \"barrier_timeout_secs\": 8,",
    "      \"barrier\": \"fail_batch\"",
    "    \x7d",
    "  ]",
    "\x7d"]

/-- JSON, on the one document. -/
def labJson : Format where
  serialize _ := .ok labText
  parse _ := .ok (exported labResolved.devices labResolved.groups labPromoted labQuery).node

theorem exported_is_read_back_lab :
    (∃ text, render (fun _ => labJson) labResolved.devices labResolved.groups labPromoted labQuery =
        .ok text ∧
      fromText newV5OfPromoted labJson text =
        .ok ⟨labResolved.devices.map (promote newV5OfPromoted labPromoted labQuery),
          labResolved.groups⟩) ∧
      ∀ device ∈ labResolved.devices,
        (∀ name, name ∈ (promote newV5OfPromoted labPromoted labQuery device).disabledFields ↔
          name ∈ device.disabledFields ∨ name ∈ labQuery.inferred labPromoted device.id) ∧
        (promote newV5OfPromoted labPromoted labQuery device = device ↔
          ∀ name ∈ labQuery.inferred labPromoted device.id, name ∈ device.disabledFields) :=
  exported_is_read_back newV5OfPromoted
    (show resolveConfig newV5OfPromoted labDocument = .ok labResolved by decide +kernel)
    labPromoted rfl ⟨labText, rfl, rfl⟩

/-- The name folded in gives the device another identity. -/
theorem exported_is_renamed :
    resolveConfig newV5OfPromoted labDocument = .ok labResolved ∧
      labJson.Inverse
        (exported labResolved.devices labResolved.groups labPromoted labQuery).node ∧
      ∃ text reloaded,
        render (fun _ => labJson) labResolved.devices labResolved.groups labPromoted labQuery =
          .ok text ∧
        fromText newV5OfPromoted labJson text = .ok reloaded ∧
        reloaded.devices.map (·.uuid) ≠ labResolved.devices.map (·.uuid) :=
  ⟨by decide +kernel, ⟨labText, rfl, rfl⟩, labText, ⟨[promotedRecorder], labResolved.groups⟩, rfl,
    by decide +kernel, by decide +kernel⟩

end Sismatic
