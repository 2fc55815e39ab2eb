import Sismatic.Core.AutoDisabled
import Sismatic.StoreMemory.Clock
import Sismatic.Proof.Coherence
import Sismatic.Proof.Respelled

/-!
# Durations that come from a document

Seconds are read as they are written, up to the largest 64-bit number. They are added to each
other where a group states no barrier timeout, and to a clock where a gate, a veto or a barrier
is armed. Where each addition panics is a matter of the document and the time alone, and is said
here of the document as it is written.
-/

namespace Sismatic.Devices

/-! ## What a document asks for -/

def connectSecsOf (defaults : Defaults) (device : RawDevice) : UInt64 :=
  (device.connectSecs.or defaults.connectSecs).getD defaultConnectSecs

def exchangeSecsOf (defaults : Defaults) (device : RawDevice) : UInt64 :=
  (device.exchangeSecs.or defaults.exchangeSecs).getD defaultExchangeSecs

def coldBackoffSecsOf (defaults : Defaults) (device : RawDevice) : UInt64 :=
  (device.coldBackoffSecs.or defaults.coldBackoffSecs).getD defaultColdBackoffSecs

def selfHealSecsOf (defaults : Defaults) (device : RawDevice) : UInt64 :=
  (device.selfHealSecs.or defaults.selfHealSecs).getD defaultSelfHealSecs

def autoDisableAfterOf (defaults : Defaults) (device : RawDevice) : UInt32 :=
  (device.autoDisableAfter.or defaults.autoDisableAfter).getD defaultAutoDisableAfter

/-- The seconds a device may take to be dialed and asked. -/
def budgetSecs (defaults : Defaults) (device : RawDevice) : Nat :=
  (connectSecsOf defaults device).toNat + (exchangeSecsOf defaults device).toNat

/-- The devices a group names. -/
def membersOf (raw : RawConfig) (group : RawGroup) : List RawDevice :=
  group.devices.filterMap fun id => raw.devices.find? fun device => device.id = id

/-- The seconds a group's barrier stays open. -/
def barrierSecsOf (raw : RawConfig) (group : RawGroup) : Nat :=
  match group.barrierTimeoutSecs with
  | some secs => secs.toNat
  | none => max (((membersOf raw group).map (budgetSecs raw.defaults)).foldl max 0) 1

/-- A group that states no timeout, with a member whose two timeouts are together too long. -/
def Overlong (raw : RawConfig) (group : RawGroup) : Prop :=
  group.barrierTimeoutSecs = none ∧
    ∃ device ∈ membersOf raw group, 2 ^ 64 ≤ budgetSecs raw.defaults device

/-- A group that is refused behind these ids. -/
def GroupRefused (raw : RawConfig) (seen : List String) (group : RawGroup) : Prop :=
  group.id ∈ seen ∨ group.devices = [] ∨
    ∃ member ∈ group.devices, member ∉ raw.devices.map (·.id)

/-- An overlong group stands before the first that is refused. -/
def ReachesOverlong (raw : RawConfig) (seen : List String) : List RawGroup → Prop
  | [] => False
  | group :: rest =>
      ¬ GroupRefused raw seen group ∧
        (Overlong raw group ∨ ReachesOverlong raw (group.id :: seen) rest)

/-- No group is refused. -/
def GroupsAccepted (raw : RawConfig) (seen : List String) : List RawGroup → Prop
  | [] => True
  | group :: rest =>
      ¬ GroupRefused raw seen group ∧ GroupsAccepted raw (group.id :: seen) rest

/-! ## What the devices come to -/

section Resolution

variable {newV5 : Uuid → List UInt8 → Uuid}

/-- A device with the times it was written with. -/
structure Timed (defaults : Defaults) (device : RawDevice) (config : DeviceConfig) : Prop where
  id : config.id = device.id
  connect : config.connectTimeout = fromSecs (connectSecsOf defaults device)
  exchange : config.exchangeTimeout = fromSecs (exchangeSecsOf defaults device)
  backoff : config.coldBackoff = interval (coldBackoffSecsOf defaults device)
  heal : config.selfHeal = interval (selfHealSecsOf defaults device)
  threshold : config.autoDisableAfter = autoDisableAfterOf defaults device

theorem resolve_timed {defaults : Defaults} {device : RawDevice} {config : DeviceConfig}
    (h : resolve newV5 defaults device = .ok config) : Timed defaults device config := by
  unfold resolve at h
  obtain ⟨username, -, h⟩ := ok_of_bind h
  obtain ⟨password, -, h⟩ := ok_of_bind h
  obtain ⟨names, -, h⟩ := ok_of_bind h
  obtain rfl := Except.ok.inj h
  exact ⟨rfl, rfl, rfl, rfl, rfl, rfl⟩

theorem resolveDevices_timed {defaults : Defaults} {seen : List String} {raws : List RawDevice}
    {configs : List DeviceConfig} (h : resolveDevices newV5 defaults seen raws = .ok configs) :
    List.Forall₂ (Timed defaults) raws configs := by
  induction raws generalizing seen configs with
  | nil =>
      cases h
      exact .nil
  | cons raw raws ih =>
      unfold resolveDevices at h
      by_cases hseen : raw.id ∈ seen
      · rw [if_pos hseen] at h
        cases h
      · rw [if_neg hseen] at h
        obtain ⟨config, hconfig, h⟩ := ok_of_bind h
        obtain ⟨rest, hrest, h⟩ := ok_of_bind h
        obtain rfl := Except.ok.inj h
        exact .cons (resolve_timed hconfig) (ih hrest)

/-- The device an id finds is the one written under it. -/
theorem find_timed {defaults : Defaults} {raws : List RawDevice} {configs : List DeviceConfig}
    (h : List.Forall₂ (Timed defaults) raws configs) (id : DeviceId) :
    Option.Rel (Timed defaults) (raws.find? fun device => device.id = id)
      (configs.find? fun config => config.id = id) := by
  induction h with
  | nil => exact .none
  | @cons device config raws configs hfirst hrest ih =>
      by_cases hid : device.id = id
      · rw [List.find?_cons_of_pos (by simpa using hid),
          List.find?_cons_of_pos (by simpa [hfirst.id] using hid)]
        exact .some hfirst
      · rw [List.find?_cons_of_neg (by simpa using hid),
          List.find?_cons_of_neg (by simpa [hfirst.id] using hid)]
        exact ih

theorem members_timed {raw : RawConfig} {configs : List DeviceConfig}
    (h : List.Forall₂ (Timed raw.defaults) raw.devices configs) (group : RawGroup) :
    List.Forall₂ (Timed raw.defaults) (membersOf raw group)
      (group.devices.filterMap fun id => configs.find? fun config => config.id = id) := by
  unfold membersOf
  induction group.devices with
  | nil => exact .nil
  | cons id ids ih =>
      have hfind := find_timed h id
      rw [List.filterMap_cons, List.filterMap_cons]
      cases hfind' : raw.devices.find? fun device => device.id = id with
      | none =>
          rw [hfind'] at hfind
          cases hconfig : configs.find? fun config => config.id = id with
          | none => exact ih
          | some config => rw [hconfig] at hfind; cases hfind
      | some device =>
          rw [hfind'] at hfind
          cases hconfig : configs.find? fun config => config.id = id with
          | none => rw [hconfig] at hfind; cases hfind
          | some config =>
              rw [hconfig] at hfind
              cases hfind with
              | some hfirst => exact .cons hfirst ih

/-! ## The derived timeout -/

theorem addDuration_timed {defaults : Defaults} {device : RawDevice} {config : DeviceConfig}
    (h : Timed defaults device config) :
    addDuration config.connectTimeout config.exchangeTimeout =
      if 2 ^ 64 ≤ budgetSecs defaults device then none
      else some (budgetSecs defaults device * 1000000000) := by
  have hsum : config.connectTimeout + config.exchangeTimeout =
      budgetSecs defaults device * (1000000000 : Nat) := by
    rw [h.connect, h.exchange, budgetSecs, Nat.add_mul]
    rfl
  unfold addDuration
  rw [hsum]
  by_cases hlong : 2 ^ 64 ≤ budgetSecs defaults device
  · rw [if_pos hlong, if_neg]
    show ¬ budgetSecs defaults device * (1000000000 : Nat) < 2 ^ 64 * 1000000000
    omega
  · rw [if_neg hlong, if_pos]
    show budgetSecs defaults device * (1000000000 : Nat) < 2 ^ 64 * 1000000000
    omega

theorem budgets_timed {defaults : Defaults} {raws : List RawDevice} {configs : List DeviceConfig}
    (h : List.Forall₂ (Timed defaults) raws configs) :
    (configs.mapM fun d => addDuration d.connectTimeout d.exchangeTimeout) =
      if ∃ device ∈ raws, 2 ^ 64 ≤ budgetSecs defaults device then none
      else some (raws.map fun device => budgetSecs defaults device * 1000000000) := by
  induction h with
  | nil => rfl
  | @cons device config raws configs hfirst hrest ih =>
      rw [List.mapM_cons, addDuration_timed hfirst, ih]
      by_cases hlong : 2 ^ 64 ≤ budgetSecs defaults device
      · have hany : ∃ other ∈ device :: raws, 2 ^ 64 ≤ budgetSecs defaults other :=
          ⟨device, List.mem_cons_self, hlong⟩
        rw [if_pos hlong, if_pos hany]
        rfl
      · rw [if_neg hlong]
        by_cases hother : ∃ device ∈ raws, 2 ^ 64 ≤ budgetSecs defaults device
        · obtain ⟨other, hmem, hlonger⟩ := hother
          rw [if_pos ⟨other, hmem, hlonger⟩,
            if_pos ⟨other, List.mem_cons_of_mem _ hmem, hlonger⟩]
          rfl
        · have hnone : ¬ ∃ other ∈ device :: raws, 2 ^ 64 ≤ budgetSecs defaults other := by
            rintro ⟨other, hmem, hlonger⟩
            rcases List.mem_cons.mp hmem with rfl | hmem
            · exact hlong hlonger
            · exact hother ⟨other, hmem, hlonger⟩
          rw [if_neg hother, if_neg hnone]
          rfl

theorem foldl_max_mul (ns : List Nat) (n k : Nat) :
    (ns.map (· * k)).foldl max (n * k) = ns.foldl max n * k := by
  induction ns generalizing n with
  | nil => rfl
  | cons m ns ih =>
      rw [List.map_cons, List.foldl_cons, List.foldl_cons, Nat.mul_max_mul_right, ih]

theorem foldl_max_lt {ns : List Nat} {n bound : Nat} (hn : n < bound) (h : ∀ m ∈ ns, m < bound) :
    ns.foldl max n < bound := by
  induction ns generalizing n with
  | nil => exact hn
  | cons m ns ih =>
      have hm := h m List.mem_cons_self
      exact ih (by omega) fun m' hm' => h m' (List.mem_cons_of_mem _ hm')

/-- The timeout a group gets when it states none. -/
theorem defaultBarrierTimeout_timed {raw : RawConfig} {configs : List DeviceConfig}
    (h : List.Forall₂ (Timed raw.defaults) raw.devices configs) {group : RawGroup}
    (hnone : group.barrierTimeoutSecs = none) :
    defaultBarrierTimeout configs group.devices =
      if ∃ device ∈ membersOf raw group, 2 ^ 64 ≤ budgetSecs raw.defaults device then none
      else some (barrierSecsOf raw group * 1000000000) := by
  unfold defaultBarrierTimeout
  rw [budgets_timed (members_timed h group)]
  by_cases hlong : ∃ device ∈ membersOf raw group, 2 ^ 64 ≤ budgetSecs raw.defaults device
  · rw [if_pos hlong, if_pos hlong]
    rfl
  · rw [if_neg hlong, if_neg hlong]
    have hmax : ((membersOf raw group).map fun device =>
        budgetSecs raw.defaults device * 1000000000).foldl max 0 =
          ((membersOf raw group).map (budgetSecs raw.defaults)).foldl max 0 * 1000000000 := by
      have hmul := foldl_max_mul ((membersOf raw group).map (budgetSecs raw.defaults)) 0 1000000000
      rw [Nat.zero_mul, List.map_map] at hmul
      exact hmul
    have hlt : ((membersOf raw group).map (budgetSecs raw.defaults)).foldl max 0 < 2 ^ 64 := by
      refine foldl_max_lt (by decide) fun m hm => ?_
      obtain ⟨device, hdevice, rfl⟩ := List.mem_map.mp hm
      exact Nat.lt_of_not_le fun hle => hlong ⟨device, hdevice, hle⟩
    generalize hbudget : ((membersOf raw group).map (budgetSecs raw.defaults)).foldl max 0 =
      slowest at hmax hlt
    have hsecs : barrierSecsOf raw group = max slowest 1 := by
      rw [barrierSecsOf, hnone, ← hbudget]
    -- whole seconds leave nothing to round up
    have hwhole : slowest * 1000000000 % 1000000000 = 0 := Nat.mul_mod_left _ _
    have hdiv : asSecs (slowest * 1000000000) = UInt64.ofNat slowest :=
      congrArg UInt64.ofNat (Nat.mul_div_cancel _ (by decide))
    have hslowest : (UInt64.ofNat slowest).toNat = slowest := UInt64.toNat_ofNat_of_lt' hlt
    have hrounded : fromSecs (max (UInt64.ofNat slowest + 0) 1) = max slowest 1 * 1000000000 := by
      rw [UInt64.add_zero, fromSecs]
      change (if UInt64.ofNat slowest ≤ 1 then 1 else UInt64.ofNat slowest).toNat * _ = _
      by_cases hle : UInt64.ofNat slowest ≤ 1
      · have hle' : slowest ≤ 1 := hslowest ▸ UInt64.le_iff_toNat_le.mp hle
        rw [if_pos hle, Nat.max_eq_right hle']
        rfl
      · have hle' : 1 ≤ slowest :=
          Nat.le_of_lt (hslowest ▸ UInt64.lt_iff_toNat_lt.mp (UInt64.not_le.mp hle))
        rw [if_neg hle, Nat.max_eq_left hle', hslowest]
    simp only [bind, Option.bind, pure, hmax, hsecs, hdiv, hwhole, Nat.lt_irrefl, gt_iff_lt,
      if_false, hrounded]

/-! ## The groups -/

/-- A group is refused, or panics, or stays open as long as it says or its members need. -/
theorem resolveGroup_cases {raw : RawConfig} {configs : List DeviceConfig}
    (h : List.Forall₂ (Timed raw.defaults) raw.devices configs)
    (hids : configs.map (·.id) = raw.devices.map (·.id)) {seen : List String} {group : RawGroup}
    (hseen : group.id ∉ seen) :
    (GroupRefused raw seen group ∧ ∃ e, resolveGroup configs group = .error (.refused e)) ∨
      (¬ GroupRefused raw seen group ∧ Overlong raw group ∧
        resolveGroup configs group = .error .panicked) ∨
      (¬ GroupRefused raw seen group ∧ ¬ Overlong raw group ∧
        ∃ config, resolveGroup configs group = .ok config ∧
          config.barrierTimeout = barrierSecsOf raw group * 1000000000) := by
  unfold resolveGroup
  by_cases hempty : group.devices.isEmpty
  · rw [if_pos hempty]
    exact .inl ⟨.inr (.inl (List.isEmpty_iff.mp hempty)), _, rfl⟩
  · rw [if_neg hempty]
    cases hfind : group.devices.find? fun member => !(configs.map (·.id)).contains member with
    | some member =>
        have hunknown := List.find?_some hfind
        rw [hids] at hunknown
        refine .inl ⟨.inr (.inr ⟨member, List.mem_of_find?_eq_some hfind, ?_⟩), _, rfl⟩
        simpa using hunknown
    | none =>
        have hknown : ∀ member ∈ group.devices, member ∈ raw.devices.map (·.id) := by
          intro member hmember
          have hno := List.find?_eq_none.mp hfind member hmember
          rw [hids] at hno
          simpa using hno
        have haccepted : ¬ GroupRefused raw seen group := by
          rintro (hid | hnil | ⟨member, hmember, hunknown⟩)
          · exact hseen hid
          · exact hempty (List.isEmpty_iff.mpr hnil)
          · exact hunknown (hknown member hmember)
        refine .inr ?_
        cases hsecs : group.barrierTimeoutSecs with
        | some secs =>
            have hshort : ¬ Overlong raw group := fun hlong => by
              rw [Overlong, hsecs] at hlong
              cases hlong.1
            refine .inr ⟨haccepted, hshort, _, rfl, ?_⟩
            rw [barrierSecsOf, hsecs]
            rfl
        | none =>
            dsimp only
            rw [defaultBarrierTimeout_timed h hsecs]
            by_cases hlong : ∃ device ∈ membersOf raw group, 2 ^ 64 ≤ budgetSecs raw.defaults device
            · rw [if_pos hlong]
              exact .inl ⟨haccepted, ⟨hsecs, hlong⟩, rfl⟩
            · rw [if_neg hlong]
              exact .inr ⟨haccepted, fun hover => hlong hover.2, _, rfl, rfl⟩

/-- What the groups of a document come to, of devices that all resolve. -/
theorem resolveGroups_cases {raw : RawConfig} {configs : List DeviceConfig}
    (h : List.Forall₂ (Timed raw.defaults) raw.devices configs)
    (hids : configs.map (·.id) = raw.devices.map (·.id)) (seen : List String)
    (groups : List RawGroup) :
    (ReachesOverlong raw seen groups ∧ resolveGroups configs seen groups = .error .panicked) ∨
      (¬ ReachesOverlong raw seen groups ∧ ¬ GroupsAccepted raw seen groups ∧
        ∃ e, resolveGroups configs seen groups = .error (.refused e)) ∨
      (¬ ReachesOverlong raw seen groups ∧ GroupsAccepted raw seen groups ∧
        ∃ found, resolveGroups configs seen groups = .ok found ∧
          List.Forall₂ (fun group config =>
            config.barrierTimeout = barrierSecsOf raw group * 1000000000) groups found) := by
  induction groups generalizing seen with
  | nil => exact .inr (.inr ⟨not_false, trivial, [], rfl, .nil⟩)
  | cons group groups ih =>
      unfold resolveGroups
      by_cases hseen : group.id ∈ seen
      · rw [if_pos hseen]
        have hrefused : GroupRefused raw seen group := .inl hseen
        exact .inr (.inl ⟨fun hover => hover.1 hrefused, fun hall => hall.1 hrefused, _, rfl⟩)
      · rw [if_neg hseen]
        rcases resolveGroup_cases h hids hseen with ⟨hrefused, e, he⟩ | ⟨haccepted, hlong, he⟩ |
          ⟨haccepted, hshort, config, hconfig, htimeout⟩
        · rw [he]
          exact .inr (.inl ⟨fun hover => hover.1 hrefused, fun hall => hall.1 hrefused, e, rfl⟩)
        · rw [he]
          exact .inl ⟨⟨haccepted, .inl hlong⟩, rfl⟩
        · rw [hconfig]
          have hreach : ReachesOverlong raw seen (group :: groups) ↔
              ReachesOverlong raw (group.id :: seen) groups :=
            ⟨fun hover => hover.2.resolve_left hshort, fun hover => ⟨haccepted, .inr hover⟩⟩
          have hall : GroupsAccepted raw seen (group :: groups) ↔
              GroupsAccepted raw (group.id :: seen) groups :=
            ⟨fun hall => hall.2, fun hall => ⟨haccepted, hall⟩⟩
          rw [hreach, hall]
          rcases ih (group.id :: seen) with ⟨hover, he⟩ | ⟨hover, hrest, e, he⟩ |
            ⟨hover, hrest, found, hfound, htimes⟩
          · refine .inl ⟨hover, ?_⟩
            change (resolveGroups configs (group.id :: seen) groups >>= _) = _
            rw [he]
            rfl
          · refine .inr (.inl ⟨hover, hrest, e, ?_⟩)
            change (resolveGroups configs (group.id :: seen) groups >>= _) = _
            rw [he]
            rfl
          · refine .inr (.inr ⟨hover, hrest, config :: found, ?_, .cons htimeout htimes⟩)
            change (resolveGroups configs (group.id :: seen) groups >>= _) = _
            rw [hfound]
            rfl

/-- **Loading a document panics exactly if** its devices resolve and a group whose timeout does
not fit stands before the first group that is refused. -/
theorem resolveConfig_cases (newV5 : Uuid → List UInt8 → Uuid) (raw : RawConfig) :
    ((∀ devices, resolveDevices newV5 raw.defaults [] raw.devices ≠ .ok devices) ∧
        ∃ e, resolveConfig newV5 raw = .error (.refused e)) ∨
      ∃ devices, resolveDevices newV5 raw.defaults [] raw.devices = .ok devices ∧
        List.Forall₂ (Timed raw.defaults) raw.devices devices ∧
        ((ReachesOverlong raw (raw.devices.map (·.id)) raw.groups ∧
            resolveConfig newV5 raw = .error .panicked) ∨
          (¬ ReachesOverlong raw (raw.devices.map (·.id)) raw.groups ∧
            ¬ GroupsAccepted raw (raw.devices.map (·.id)) raw.groups ∧
              ∃ e, resolveConfig newV5 raw = .error (.refused e)) ∨
          (¬ ReachesOverlong raw (raw.devices.map (·.id)) raw.groups ∧
            GroupsAccepted raw (raw.devices.map (·.id)) raw.groups ∧
              ∃ groups, resolveConfig newV5 raw = .ok ⟨devices, groups⟩ ∧
                List.Forall₂ (fun group config =>
                  config.barrierTimeout = barrierSecsOf raw group * 1000000000) raw.groups
                  groups)) := by
  unfold resolveConfig
  cases hdevices : resolveDevices newV5 raw.defaults [] raw.devices with
  | error e => exact .inl ⟨fun devices h => (by cases h), e, rfl⟩
  | ok devices =>
      have htimed := resolveDevices_timed hdevices
      refine .inr ⟨devices, rfl, htimed, ?_⟩
      rcases resolveGroups_cases htimed (resolveDevices_ok hdevices).1 (raw.devices.map (·.id))
        raw.groups with ⟨hover, he⟩ | ⟨hover, hall, e, he⟩ | ⟨hover, hall, found, hfound, htimes⟩
      · refine .inl ⟨hover, ?_⟩
        change (resolveGroups devices (raw.devices.map (·.id)) raw.groups >>= _) = _
        rw [he]
        rfl
      · refine .inr (.inl ⟨hover, hall, e, ?_⟩)
        change (resolveGroups devices (raw.devices.map (·.id)) raw.groups >>= _) = _
        rw [he]
        rfl
      · refine .inr (.inr ⟨hover, hall, found, ?_, htimes⟩)
        change (resolveGroups devices (raw.devices.map (·.id)) raw.groups >>= _) = _
        rw [hfound]
        rfl

end Resolution

/-! ## Deadlines -/

section Deadlines

variable {instantEnd now : Instant}

theorem addInstant_ne_none {wait : Duration} :
    addInstant instantEnd now wait ≠ none ↔ now + wait < instantEnd := by
  unfold addInstant
  split
  · rename_i hfits
    simp [hfits]
  · rename_i hlate
    simp [hlate]

theorem interval_eq_some {secs : UInt64} {d : Duration} :
    interval secs = some d ↔ secs ≠ 0 ∧ d = fromSecs secs := by
  unfold interval
  split
  · rename_i hpos
    have hne : secs ≠ 0 := UInt64.pos_iff_ne_zero.mp hpos
    simp [hne, eq_comm]
  · rename_i hzero
    have heq : secs = 0 := by
      by_contra hne
      exact hzero (UInt64.pos_iff_ne_zero.mpr hne)
    simp [heq]

/-- A failed dial arms its gate unless the gate's end cannot be represented. -/
theorem armGate_ne_none {config : DeviceConfig} :
    armGate instantEnd config now ≠ none ↔
      ∀ backoff, config.coldBackoff = some backoff → now + backoff < instantEnd := by
  unfold armGate
  cases config.coldBackoff with
  | none => simp
  | some backoff =>
      simp only [ne_eq, Option.map_eq_none_iff, Option.some.injEq, forall_eq']
      exact addInstant_ne_none

namespace AutoDisabled

/-- A refusal is recorded whatever has been learned, unless it may arm a veto whose end cannot
be represented. -/
theorem refused_ne_none {threshold : UInt32} {selfHeal : Option Duration} :
    (∀ learned field, refused instantEnd learned field threshold selfHeal now ≠ none) ↔
      threshold = 0 ∨ ∀ wait, selfHeal = some wait → now + wait < instantEnd := by
  refine ⟨fun h => or_iff_not_imp_left.mpr fun hne wait hwait => ?_, fun h learned field => ?_⟩
  · -- a field that has been refused as often as can be counted
    have hnow := h ⟨fun _ => some ⟨UInt32.ofNat (2 ^ 32 - 1), none⟩⟩ ""
    have hreached : ¬ saturatingSucc (UInt32.ofNat (2 ^ 32 - 1)) < threshold := by
      have hlt := threshold.toNat_lt
      rw [UInt32.not_lt, UInt32.le_iff_toNat_le]
      change threshold.toNat ≤ 2 ^ 32 - 1
      omega
    unfold refused at hnow
    simp only [if_neg hne, Option.getD_some, if_neg hreached, hwait] at hnow
    rw [ne_eq, Option.map_eq_none_iff] at hnow
    exact addInstant_ne_none.mp hnow
  · unfold refused
    by_cases hzero : threshold = 0
    · rw [if_pos hzero]
      exact Option.some_ne_none _
    · have hfits := h.resolve_left hzero
      rw [if_neg hzero]
      dsimp only
      split
      · exact Option.some_ne_none _
      · cases hheal : selfHeal with
        | none => exact Option.some_ne_none _
        | some wait =>
            rw [ne_eq, Option.map_eq_none_iff]
            exact addInstant_ne_none.mpr (hfits wait hheal)

end AutoDisabled

end Deadlines

end Sismatic.Devices

namespace Sismatic

open Devices

/-- `DateTime + Duration` panics past the last instant, and only there. -/
def Chrono.Spans (c : Chrono) (lastInstant : Int) : Prop :=
  ∀ t delay, c.add t delay = if t + delay ≤ lastInstant then some (t + (delay : Int)) else none

/-- The longest duration `chrono` takes over from the standard library. -/
def longestDelta : Duration := 9223372036854775807 * 1000000

theorem elapsedPast_ne_none {c : Chrono} {lastInstant : Int} (hc : c.Spans lastInstant)
    {armedAt now : Timestamp} {timeout : Duration} :
    elapsedPast c armedAt timeout now ≠ none ↔
      ∀ armed, c.parseFromRfc3339 armedAt.str = some armed →
        (c.parseFromRfc3339 now.str).isSome → timeout ≤ longestDelta →
          armed + (timeout : Int) ≤ lastInstant := by
  unfold elapsedPast fromStd
  cases c.parseFromRfc3339 armedAt.str with
  | none => simp
  | some armed =>
      cases c.parseFromRfc3339 now.str with
      | none => simp
      | some current =>
          by_cases hlong : timeout ≤ longestDelta
          · have hlong' : timeout ≤ 9223372036854775807 * 1000000 := hlong
            simp only [if_pos hlong', ne_eq, Option.map_eq_none_iff, hc armed timeout]
            by_cases hfits : armed + (timeout : Int) ≤ lastInstant
            · simp [hfits]
            · simp [hfits, hlong]
          · have hlong' : ¬ timeout ≤ 9223372036854775807 * 1000000 := hlong
            simp [if_neg hlong', hlong]

section Documents

variable (newV5 : Uuid → List UInt8 → Uuid) (c : Chrono) (instantEnd : Instant)

/-- **A document's durations never overflow**: not when it is loaded, and at this time not when a
gate, a veto or a barrier is armed with them. -/
def NeverOverflows (raw : RawConfig) (instant : Instant) (armedAt now : Timestamp) : Prop :=
  resolveConfig newV5 raw ≠ .error .panicked ∧
    ∀ resolved, resolveConfig newV5 raw = .ok resolved →
      (∀ config ∈ resolved.devices, armGate instantEnd config instant ≠ none ∧
        ∀ learned field, AutoDisabled.refused instantEnd learned field config.autoDisableAfter
          config.selfHeal instant ≠ none) ∧
      ∀ group ∈ resolved.groups, elapsedPast c armedAt group.barrierTimeout now ≠ none

/-- Seconds from now there still is an instant. -/
def SecsFit (instant : Instant) (secs : UInt64) : Prop :=
  secs = 0 ∨ instant + secs.toNat * 1000000000 < instantEnd

/-- The barrier of a group armed now expires while there still is a calendar, or never. -/
def BarrierFits (lastInstant : Int) (raw : RawConfig) (group : RawGroup)
    (armedAt now : Timestamp) : Prop :=
  ∀ armed, c.parseFromRfc3339 armedAt.str = some armed → (c.parseFromRfc3339 now.str).isSome →
    barrierSecsOf raw group * 1000000000 ≤ longestDelta →
      armed + ((barrierSecsOf raw group * 1000000000 : Nat) : Int) ≤ lastInstant

/-- What of a document makes its durations fit. -/
def DurationsFit (lastInstant : Int) (raw : RawConfig) (instant : Instant)
    (armedAt now : Timestamp) : Prop :=
  (∃ devices, resolveDevices newV5 raw.defaults [] raw.devices = .ok devices) →
    ¬ ReachesOverlong raw (raw.devices.map (·.id)) raw.groups ∧
      (GroupsAccepted raw (raw.devices.map (·.id)) raw.groups →
        (∀ device ∈ raw.devices,
          SecsFit instantEnd instant (coldBackoffSecsOf raw.defaults device) ∧
            (autoDisableAfterOf raw.defaults device = 0 ∨
              SecsFit instantEnd instant (selfHealSecsOf raw.defaults device))) ∧
        ∀ group ∈ raw.groups, BarrierFits c lastInstant raw group armedAt now)

theorem secsFit_iff {instant : Instant} {secs : UInt64} :
    SecsFit instantEnd instant secs ↔
      ∀ wait, interval secs = some wait → instant + wait < instantEnd := by
  unfold SecsFit
  simp only [interval_eq_some, and_imp, forall_eq_apply_imp_iff]
  rw [or_iff_not_imp_left]
  exact Iff.rfl

theorem forall_iff_of_forall₂ {α β : Type} {R : α → β → Prop} {p : α → Prop} {q : β → Prop}
    {xs : List α} {ys : List β} (h : List.Forall₂ R xs ys) (hpq : ∀ x y, R x y → (p x ↔ q y)) :
    (∀ x ∈ xs, p x) ↔ ∀ y ∈ ys, q y := by
  induction h with
  | nil => simp
  | cons hfirst _ ih => rw [List.forall_mem_cons, List.forall_mem_cons, hpq _ _ hfirst, ih]

theorem barrierFits_iff {lastInstant : Int} (hc : c.Spans lastInstant) {raw : RawConfig}
    {group : RawGroup} {config : GroupConfig}
    (h : config.barrierTimeout = barrierSecsOf raw group * 1000000000) {armedAt now : Timestamp} :
    BarrierFits c lastInstant raw group armedAt now ↔
      elapsedPast c armedAt config.barrierTimeout now ≠ none := by
  rw [elapsedPast_ne_none hc, h]
  exact Iff.rfl

/--
**Loading never panics and deadlines never overflow exactly if the document's durations fit**:
unless a device is refused, no group whose derived timeout overflows stands before the first group
that is refused; and if none is, now and the seconds of every gate and veto are an instant, and
the time a barrier was armed at and its seconds one of the calendar.
-/
theorem neverOverflows_iff {lastInstant : Int} (hc : c.Spans lastInstant) (raw : RawConfig)
    (instant : Instant) (armedAt now : Timestamp) :
    NeverOverflows newV5 c instantEnd raw instant armedAt now ↔
      DurationsFit newV5 c instantEnd lastInstant raw instant armedAt now := by
  unfold NeverOverflows DurationsFit
  rcases resolveConfig_cases newV5 raw with ⟨hnone, e, he⟩ | ⟨devices, hdevices, htimed, hcases⟩
  · rw [he]
    refine ⟨fun _ ⟨devices, hdevices⟩ => absurd hdevices (hnone devices), fun _ => ⟨?_, ?_⟩⟩
    · exact fun h => by cases h
    · exact fun resolved h => by cases h
  · have haccepted : ∃ devices, resolveDevices newV5 raw.defaults [] raw.devices = .ok devices :=
      ⟨devices, hdevices⟩
    rcases hcases with ⟨hover, he⟩ | ⟨hover, hall, e, he⟩ | ⟨hover, hall, groups, hok, htimes⟩
    · rw [he]
      exact ⟨fun h => absurd rfl h.1, fun h => absurd hover (h haccepted).1⟩
    · rw [he]
      refine ⟨fun _ _ => ⟨hover, fun h => absurd h hall⟩, fun _ => ⟨?_, ?_⟩⟩
      · exact fun h => by cases h
      · exact fun resolved h => by cases h
    · have hgates := forall_iff_of_forall₂
        (p := fun device => SecsFit instantEnd instant (coldBackoffSecsOf raw.defaults device) ∧
          (autoDisableAfterOf raw.defaults device = 0 ∨
            SecsFit instantEnd instant (selfHealSecsOf raw.defaults device)))
        (q := fun config => armGate instantEnd config instant ≠ none ∧
          ∀ learned field, AutoDisabled.refused instantEnd learned field config.autoDisableAfter
            config.selfHeal instant ≠ none) htimed fun device config h => by
          rw [armGate_ne_none, AutoDisabled.refused_ne_none, secsFit_iff, secsFit_iff, h.backoff,
            h.threshold, h.heal]
      have hbarriers := forall_iff_of_forall₂
        (p := fun group => BarrierFits c lastInstant raw group armedAt now)
        (q := fun config => elapsedPast c armedAt config.barrierTimeout now ≠ none) htimes
        fun group config h => barrierFits_iff c hc h
      rw [hok]
      refine ⟨fun h _ => ⟨hover, fun _ => ?_⟩, fun h => ⟨fun h => (by cases h), ?_⟩⟩
      · obtain ⟨hrun, hexpire⟩ := h.2 _ rfl
        exact ⟨hgates.mpr hrun, hbarriers.mpr hexpire⟩
      · intro resolved heq
        obtain rfl := Except.ok.inj heq
        obtain ⟨hrun, hexpire⟩ := (h haccepted).2 hall
        exact ⟨hgates.mp hrun, hbarriers.mp hexpire⟩

end Documents

/-! ## A document that does not fit -/

theorem spans_utc : utc.Spans (253402300800 * 1000000000 - 1) := by
  intro t delay
  change (if t + (delay : Int) < 253402300800 * 1000000000 then some (t + (delay : Int))
    else none) = _
  by_cases hfits : t + (delay : Int) ≤ 253402300800 * 1000000000 - 1
  · rw [if_pos hfits, if_pos (by omega)]
  · rw [if_neg hfits, if_neg (by omega)]

/-- One device with these seconds to connect in, in a group that states no timeout. -/
def slowLab (connectSecs : UInt64) : RawConfig where
  defaults := Defaults.unset
  devices := [{ vetoing [] with connectSecs := some connectSecs }]
  groups := [⟨"lab", ["a"], none, none⟩]

/-- An instant of a clock of seconds in 64 bits, and a calendar up to the year 9999. -/
theorem neverOverflows_slow :
    NeverOverflows (fun _ _ => Uuid.nil) utc (2 ^ 63 * 1000000000) (slowLab 5) 0
        ⟨"2024-01-01T00:00:00Z"⟩ ⟨"2024-01-01T00:00:01Z"⟩ ↔
      DurationsFit (fun _ _ => Uuid.nil) utc (2 ^ 63 * 1000000000)
        (253402300800 * 1000000000 - 1) (slowLab 5) 0
        ⟨"2024-01-01T00:00:00Z"⟩ ⟨"2024-01-01T00:00:01Z"⟩ :=
  neverOverflows_iff _ utc _ spans_utc _ _ _ _

/-- **Loading a device that may take for ever to connect to panics.** -/
theorem slowLab_overflows :
    ¬ ∀ (newV5 : Uuid → List UInt8 → Uuid) (c : Chrono) (instantEnd : Instant) (raw : RawConfig)
      (instant : Instant) (armedAt now : Timestamp), (∃ lastInstant, c.Spans lastInstant) →
        instant < instantEnd → NeverOverflows newV5 c instantEnd raw instant armedAt now := by
  intro h
  have hpanics : resolveConfig (fun _ _ => Uuid.nil) (slowLab (UInt64.ofNat (2 ^ 64 - 1))) =
      .error .panicked := by
    decide +kernel
  exact (h (fun _ _ => Uuid.nil) utc 1 _ 0 ⟨""⟩ ⟨""⟩ ⟨_, spans_utc⟩ (by decide)).1 hpanics

end Sismatic
