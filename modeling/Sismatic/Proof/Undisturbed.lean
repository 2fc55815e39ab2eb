import Sismatic.Proof.Coherence

/-!
# One verb at a time

Every verb is one amendment of the document, or one reload of it, with what follows it in
the outbox; and an amendment leaves every device it is not about as it was written. So a
verb is refused with nothing changed, or ends in a coherent fleet in which the devices it
is not about have the handles they had.
-/

namespace Sismatic

open Devices

section Verbs

variable {newV5 : Uuid → List UInt8 → Uuid}

/-! ## What a change comes to -/

/-- The devices a change is about; a reset is about all of them. -/
def Change.Edits (change : Change) (id : DeviceId) : Prop :=
  match change with
  | .add write => write.id = some id
  | .replace target _ | .remove target => target = id
  | .addGroup _ | .replaceGroup _ _ | .removeGroup _ => False
  | .reset _ => True

/-- What a change comes to: nothing, or a fleet adopted from an amended or reloaded document. -/
inductive Changed (newV5 : Uuid → List UInt8 → Uuid) (fleet : LiveFleet) (change : Change) :
    LiveFleet → Except Refused Unit → Prop
  | refused (fault : Refused) : Changed newV5 fleet change fleet (.error fault)
  | amended (amended : RawConfig) (resolved : Resolved) (outbox : MemoryOutbox) :
      amended.defaults = fleet.document.defaults →
      (∀ raw : RawDevice, ¬ change.Edits raw.id →
        (raw ∈ amended.devices ↔ raw ∈ fleet.document.devices)) →
      resolveConfig newV5 amended = .ok resolved →
      Changed newV5 fleet change
        { (fleet.adopt ⟨fleet.document.defaults, resolved.devices.map rawOf, amended.groups⟩
            resolved).1 with outbox := outbox } (.ok ())
  | reloaded (document : RawConfig) (resolved : Resolved) (outbox : MemoryOutbox) :
      (∀ id, change.Edits id) → resolveConfig newV5 document = .ok resolved →
      Changed newV5 fleet change { (fleet.adopt document resolved).1 with outbox := outbox }
        (.ok ())

/-- An amendment is refused before anything is written, or adopts what the edit resolves to. -/
theorem amend_cases (newV5 : Uuid → List UInt8 → Uuid) (fleet : LiveFleet)
    (edit : RawConfig → Except InventoryRefusal RawConfig) :
    (∃ fault, fleet.amend newV5 edit = (fleet, .error fault)) ∨
      ∃ amended resolved, edit fleet.document = .ok amended ∧
        resolveConfig newV5 amended = .ok resolved ∧
        fleet.amend newV5 edit =
          ((fleet.adopt ⟨fleet.document.defaults, resolved.devices.map rawOf, amended.groups⟩
            resolved).1, .ok resolved) := by
  unfold LiveFleet.amend
  cases hedit : edit fleet.document with
  | error refusal => exact .inl ⟨.refused refusal, rfl⟩
  | ok amended =>
      cases hresolve : resolveConfig newV5 amended with
      | error fault => exact .inl ⟨fault.refusal, by simp only [hresolve]⟩
      | ok resolved => exact .inr ⟨amended, resolved, rfl, hresolve, by simp only [hresolve]⟩

/-- Taking a device out is refused, or adopts the document without it. -/
theorem takeOut_cases (newV5 : Uuid → List UInt8 → Uuid) (fleet : LiveFleet) (id : DeviceId) :
    (∃ fault, fleet.takeOut newV5 id = (fleet, .error fault)) ∨
      ∃ amended resolved, amended = { fleet.document with
          devices := fleet.document.devices.filter fun device => device.id ≠ id } ∧
        resolveConfig newV5 amended = .ok resolved ∧
        fleet.takeOut newV5 id =
          ((fleet.adopt ⟨fleet.document.defaults, resolved.devices.map rawOf, amended.groups⟩
            resolved).1, .ok resolved) := by
  unfold LiveFleet.takeOut
  rcases amend_cases newV5 fleet _ with hrefused | ⟨amended, resolved, hok, hresolves, hamend⟩
  · exact .inl hrefused
  · refine .inr ⟨amended, resolved, ?_, hresolves, hamend⟩
    dsimp only at hok
    split at hok
    · cases hok
    · exact (Except.ok.inj hok).symm

theorem takeOutGroup_cases (newV5 : Uuid → List UInt8 → Uuid) (fleet : LiveFleet) (id : GroupId) :
    (∃ fault, fleet.takeOutGroup newV5 id = (fleet, .error fault)) ∨
      ∃ amended resolved, amended = { fleet.document with
          groups := fleet.document.groups.filter fun group => group.id ≠ id } ∧
        resolveConfig newV5 amended = .ok resolved ∧
        fleet.takeOutGroup newV5 id =
          ((fleet.adopt ⟨fleet.document.defaults, resolved.devices.map rawOf, amended.groups⟩
            resolved).1, .ok resolved) := by
  unfold LiveFleet.takeOutGroup
  rcases amend_cases newV5 fleet _ with hrefused | ⟨amended, resolved, hok, hresolves, hamend⟩
  · exact .inl hrefused
  · refine .inr ⟨amended, resolved, ?_, hresolves, hamend⟩
    dsimp only at hok
    split at hok
    · cases hok
    · exact (Except.ok.inj hok).symm

theorem replaceDevice_some {raw : RawDevice} {raws raws' : List RawDevice}
    (h : LiveFleet.replaceDevice raw raws = some raws') :
    raw ∈ raws' ∧ ∀ other : RawDevice, other.id ≠ raw.id → (other ∈ raws' ↔ other ∈ raws) := by
  induction raws generalizing raws' with
  | nil => cases h
  | cons first raws ih =>
      unfold LiveFleet.replaceDevice at h
      by_cases hid : first.id = raw.id
      · rw [if_pos hid] at h
        obtain rfl := Option.some.inj h
        refine ⟨List.mem_cons_self .., ?_⟩
        intro other hother
        have h₁ : other ≠ raw := fun heq => hother (by rw [heq])
        have h₂ : other ≠ first := fun heq => hother (by rw [heq, hid])
        simp only [List.mem_cons, h₁, h₂, false_or]
      · rw [if_neg hid] at h
        obtain ⟨rest, hrest, rfl⟩ := Option.map_eq_some_iff.mp h
        obtain ⟨hmem, hothers⟩ := ih hrest
        refine ⟨List.mem_cons_of_mem _ hmem, ?_⟩
        intro other hother
        rw [List.mem_cons, List.mem_cons, hothers other hother]

theorem replaceRawGroup_some {raw : RawGroup} {raws raws' : List RawGroup}
    (h : LiveFleet.replaceRawGroup raw raws = some raws') : raw ∈ raws' := by
  induction raws generalizing raws' with
  | nil => cases h
  | cons first raws ih =>
      unfold LiveFleet.replaceRawGroup at h
      by_cases hid : first.id = raw.id
      · rw [if_pos hid] at h
        obtain rfl := Option.some.inj h
        exact List.mem_cons_self ..
      · rw [if_neg hid] at h
        obtain ⟨rest, hrest, rfl⟩ := Option.map_eq_some_iff.mp h
        exact List.mem_cons_of_mem _ (ih hrest)

/-- A device the document describes has a summary once it resolves. -/
theorem summaryOf_ok {raw : RawConfig} {resolved : Resolved}
    (h : resolveConfig newV5 raw = .ok resolved) {device : RawDevice}
    (hmem : device ∈ raw.devices) :
    ∃ summary, LiveFleet.summaryOf resolved device.id = .ok summary := by
  obtain ⟨hids, _⟩ := resolveDevices_ok (resolveConfig_ok.mp h).1
  have hid : device.id ∈ resolved.devices.map (·.id) := hids ▸ List.mem_map_of_mem hmem
  obtain ⟨config, hconfig, heq⟩ := List.mem_map.mp hid
  unfold LiveFleet.summaryOf
  cases hfind : resolved.devices.find? fun d => decide (d.id = device.id) with
  | none =>
      have hno := List.find?_eq_none.mp hfind config hconfig
      simp [heq] at hno
  | some found => exact ⟨_, rfl⟩

theorem groupSummaryOf_ok {raw : RawConfig} {resolved : Resolved}
    (h : resolveConfig newV5 raw = .ok resolved) {group : RawGroup} (hmem : group ∈ raw.groups) :
    ∃ summary, LiveFleet.groupSummaryOf resolved group.id = .ok summary := by
  obtain ⟨hids, _⟩ := resolveGroups_ok (resolveConfig_ok.mp h).2
  have hid : group.id ∈ resolved.groups.map (·.id) := hids ▸ List.mem_map_of_mem hmem
  obtain ⟨config, hconfig, heq⟩ := List.mem_map.mp hid
  unfold LiveFleet.groupSummaryOf
  cases hfind : resolved.groups.find? fun g => decide (g.id = group.id) with
  | none =>
      have hno := List.find?_eq_none.mp hfind config hconfig
      simp [heq] at hno
  | some found => exact ⟨_, rfl⟩

/-- An edit that touches no other device, and whose summary is there to answer with. -/
theorem changed_of_amend {α : Type} {fleet : LiveFleet} {change : Change}
    {edit : RawConfig → Except InventoryRefusal RawConfig} {answer : Resolved → Except Refused α}
    (hedit : ∀ amended, edit fleet.document = .ok amended →
      amended.defaults = fleet.document.defaults ∧
        (∀ raw : RawDevice, ¬ change.Edits raw.id →
          (raw ∈ amended.devices ↔ raw ∈ fleet.document.devices)) ∧
        ∀ resolved, resolveConfig newV5 amended = .ok resolved →
          ∃ a, answer resolved = .ok a) :
    Changed newV5 fleet change (fleet.amend newV5 edit).1
      (((fleet.amend newV5 edit).2.bind answer).map fun _ => ()) := by
  rcases amend_cases newV5 fleet edit with
    ⟨fault, hamend⟩ | ⟨amended, resolved, hok, hresolves, hamend⟩
  · rw [hamend]
    exact .refused fault
  · obtain ⟨hdefaults, hothers, hanswer⟩ := hedit amended hok
    obtain ⟨a, ha⟩ := hanswer resolved hresolves
    rw [hamend]
    show Changed newV5 fleet change _ ((answer resolved).map fun _ => ())
    rw [ha]
    exact .amended amended resolved fleet.outbox hdefaults hothers hresolves

theorem changed_add (fleet : LiveFleet) (write : DeviceWrite) :
    Changed newV5 fleet (.add write) (fleet.change newV5 (.add write)).1
      (fleet.change newV5 (.add write)).2 := by
  show Changed newV5 fleet (.add write) (fleet.add newV5 write).1
    ((fleet.add newV5 write).2.map fun _ => ())
  unfold LiveFleet.add
  cases hid : write.id with
  | none => exact .refused _
  | some id =>
      refine changed_of_amend ?_
      intro amended hok
      obtain rfl := Except.ok.inj hok
      refine ⟨rfl, ?_, ?_⟩
      · intro raw hraw
        have hne : raw ≠ rawOfWrite id write := by
          rintro rfl
          exact hraw hid
        simp [hne]
      · intro resolved hresolves
        have hmem : rawOfWrite id write ∈ fleet.document.devices ++ [rawOfWrite id write] := by simp
        exact summaryOf_ok hresolves hmem

theorem changed_replace (fleet : LiveFleet) (id : DeviceId) (write : DeviceWrite) :
    Changed newV5 fleet (.replace id write) (fleet.change newV5 (.replace id write)).1
      (fleet.change newV5 (.replace id write)).2 := by
  show Changed newV5 fleet (.replace id write) (fleet.replace newV5 id write).1
    ((fleet.replace newV5 id write).2.map fun _ => ())
  unfold LiveFleet.replace
  dsimp only
  split
  · exact .refused _
  · refine changed_of_amend ?_
    intro amended hok
    cases hreplaced : LiveFleet.replaceDevice (rawOfWrite id write) fleet.document.devices with
    | none => simp [hreplaced] at hok
    | some devices =>
        simp only [hreplaced] at hok
        obtain rfl := Except.ok.inj hok
        obtain ⟨hmem, hothers⟩ := replaceDevice_some hreplaced
        refine ⟨rfl, ?_, ?_⟩
        · intro raw hraw
          exact hothers raw fun heq => hraw heq.symm
        · intro resolved hresolves
          exact summaryOf_ok hresolves hmem

theorem changed_remove (fleet : LiveFleet) (id : DeviceId) :
    Changed newV5 fleet (.remove id) (fleet.change newV5 (.remove id)).1
      (fleet.change newV5 (.remove id)).2 := by
  show Changed newV5 fleet (.remove id) (fleet.remove newV5 id).1
    ((fleet.remove newV5 id).2.map fun _ => ())
  unfold LiveFleet.remove
  rcases takeOut_cases newV5 fleet id with ⟨fault, hout⟩ | ⟨amended, resolved, rfl, hresolves, hout⟩
  · rw [hout]
    exact .refused fault
  · rw [hout]
    refine .amended _ resolved _ rfl ?_ hresolves
    intro raw hraw
    have hne : raw.id ≠ id := fun heq => hraw heq.symm
    simp [hne]

theorem changed_addGroup (fleet : LiveFleet) (write : GroupWrite) :
    Changed newV5 fleet (.addGroup write) (fleet.change newV5 (.addGroup write)).1
      (fleet.change newV5 (.addGroup write)).2 := by
  show Changed newV5 fleet (.addGroup write) (fleet.addGroup newV5 write).1
    ((fleet.addGroup newV5 write).2.map fun _ => ())
  unfold LiveFleet.addGroup
  cases write.id with
  | none => exact .refused _
  | some id =>
      refine changed_of_amend ?_
      intro amended hok
      obtain rfl := Except.ok.inj hok
      refine ⟨rfl, fun _ _ => Iff.rfl, ?_⟩
      intro resolved hresolves
      have hmem : rawOfGroupWrite id write ∈
          fleet.document.groups ++ [rawOfGroupWrite id write] := by simp
      exact groupSummaryOf_ok hresolves hmem

theorem changed_replaceGroup (fleet : LiveFleet) (id : GroupId) (write : GroupWrite) :
    Changed newV5 fleet (.replaceGroup id write) (fleet.change newV5 (.replaceGroup id write)).1
      (fleet.change newV5 (.replaceGroup id write)).2 := by
  show Changed newV5 fleet (.replaceGroup id write) (fleet.replaceGroup newV5 id write).1
    ((fleet.replaceGroup newV5 id write).2.map fun _ => ())
  unfold LiveFleet.replaceGroup
  dsimp only
  split
  · exact .refused _
  · refine changed_of_amend ?_
    intro amended hok
    cases hreplaced : LiveFleet.replaceRawGroup (rawOfGroupWrite id write)
        fleet.document.groups with
    | none => simp [hreplaced] at hok
    | some groups =>
        simp only [hreplaced] at hok
        obtain rfl := Except.ok.inj hok
        refine ⟨rfl, fun _ _ => Iff.rfl, ?_⟩
        intro resolved hresolves
        exact groupSummaryOf_ok hresolves (replaceRawGroup_some hreplaced)

theorem changed_removeGroup (fleet : LiveFleet) (id : GroupId) :
    Changed newV5 fleet (.removeGroup id) (fleet.change newV5 (.removeGroup id)).1
      (fleet.change newV5 (.removeGroup id)).2 := by
  show Changed newV5 fleet (.removeGroup id) (fleet.removeGroup newV5 id).1
    (fleet.removeGroup newV5 id).2
  unfold LiveFleet.removeGroup
  rcases takeOutGroup_cases newV5 fleet id with
    ⟨fault, hout⟩ | ⟨amended, resolved, rfl, hresolves, hout⟩
  · rw [hout]
    exact .refused fault
  · rw [hout]
    exact .amended _ resolved _ rfl (fun _ _ => Iff.rfl) hresolves

theorem changed_reset (fleet : LiveFleet) (source : Except ConfigError RawConfig) :
    Changed newV5 fleet (.reset source) (fleet.change newV5 (.reset source)).1
      (fleet.change newV5 (.reset source)).2 := by
  show Changed newV5 fleet (.reset source) (fleet.reset newV5 source).1
    ((fleet.reset newV5 source).2.map fun _ => ())
  unfold LiveFleet.reset LiveFleet.reload
  cases source with
  | error e => exact .refused _
  | ok document =>
      cases hresolve : resolveConfig newV5 document with
      | error fault =>
          simp only [hresolve]
          exact .refused _
      | ok resolved =>
          simp only [hresolve]
          exact .reloaded document resolved _ (fun _ => trivial) hresolve

/-- **What a change does.** -/
theorem change_spec (newV5 : Uuid → List UInt8 → Uuid) (fleet : LiveFleet) (change : Change) :
    Changed newV5 fleet change (fleet.change newV5 change).1 (fleet.change newV5 change).2 := by
  cases change with
  | add write => exact changed_add fleet write
  | replace id write => exact changed_replace fleet id write
  | remove id => exact changed_remove fleet id
  | addGroup write => exact changed_addGroup fleet write
  | replaceGroup id write => exact changed_replaceGroup fleet id write
  | removeGroup id => exact changed_removeGroup fleet id
  | reset source => exact changed_reset fleet source

/-! ## What a change leaves -/

/-- The ids the change is not about resolve to what they did. -/
theorem mem_resolved_of_not_edits {fleet : LiveFleet} {old resolved : Resolved}
    (hold : resolveConfig newV5 fleet.document = .ok old) {change : Change} {amended : RawConfig}
    (hdefaults : amended.defaults = fleet.document.defaults)
    (hothers : ∀ raw : RawDevice, ¬ change.Edits raw.id →
      (raw ∈ amended.devices ↔ raw ∈ fleet.document.devices))
    (hresolves : resolveConfig newV5 amended = .ok resolved) {config : DeviceConfig}
    (hid : ¬ change.Edits config.id) : config ∈ resolved.devices ↔ config ∈ old.devices := by
  rw [mem_resolveDevices (resolveConfig_ok.mp hresolves).1,
    mem_resolveDevices (resolveConfig_ok.mp hold).1, hdefaults]
  refine exists_congr fun raw => and_congr_left fun hraw => hothers raw ?_
  rw [← (resolve_ok hraw).1]
  exact hid

/-- **Nothing else moves**: an id the change is not about has the handle it had. -/
theorem device_adopt {fleet : LiveFleet} {old : Resolved} (h : Coherent newV5 fleet old)
    {document : RawConfig} {resolved : Resolved}
    (hresolves : resolveConfig newV5 document = .ok resolved)
    {id : DeviceId}
    (hsame : ∀ config : DeviceConfig, config.id = id →
      (config ∈ resolved.devices ↔ config ∈ old.devices)) :
    (fleet.adopt document resolved).1.registry.device id = fleet.registry.device id := by
  obtain ⟨hone, hall, honly⟩ :=
    apply_device h.oneEach (sound_of_resolveConfig hresolves).devices_nodup
  show (fleet.registry.apply resolved).1.device id = fleet.registry.device id
  cases hold : fleet.registry.device id with
  | some d =>
      obtain ⟨hd, rfl⟩ := (device_eq_some h.oneEach).mp hold
      have hconfig : d.config ∈ resolved.devices :=
        (hsame d.config rfl).mpr ((h.registered d.config).mp ⟨d, hd, rfl⟩)
      obtain ⟨d', hd', hadopts⟩ := hall d.config hconfig
      rw [hold] at hadopts
      unfold Adopts at hadopts
      dsimp only at hadopts
      rw [if_pos rfl] at hadopts
      rw [hd', hadopts]
  | none =>
      refine Option.eq_none_iff_forall_ne_some.mpr ?_
      intro d hd
      obtain ⟨hmem, rfl⟩ := (device_eq_some hone).mp hd
      obtain ⟨config, hconfig, hid⟩ := honly d hmem
      obtain ⟨d', hd', hsome⟩ := (h.registered config).mpr ((hsame config hid).mp hconfig)
      have hfound : fleet.registry.device d.config.id = some d' :=
        (device_eq_some h.oneEach).mpr ⟨hd', by rw [hsome, hid]⟩
      rw [hold] at hfound
      cases hfound

/-- What has to hold once a change is through. -/
structure Undisturbed (newV5 : Uuid → List UInt8 → Uuid) (fleet : LiveFleet) (change : Change) :
    Prop where
  coherent : ∃ resolved, Coherent newV5 (fleet.change newV5 change).1 resolved
  undisturbed : ∀ id, ¬ change.Edits id →
    (fleet.change newV5 change).1.registry.device id = fleet.registry.device id
  refused : ∀ fault, (fleet.change newV5 change).2 = .error fault →
    (fleet.change newV5 change).1 = fleet

/-- The hash tells the registered devices apart from what the change resolves them to. -/
def ToldApart (newV5 : Uuid → List UInt8 → Uuid) (fleet : LiveFleet) (change : Change) : Prop :=
  ∀ resolved, resolveConfig newV5 (fleet.change newV5 change).1.document = .ok resolved →
    HashesApart newV5 fleet resolved

theorem kept_change {fleet : LiveFleet} {old : Resolved} (h : Coherent newV5 fleet old)
    {change : Change} (hapart : ToldApart newV5 fleet change) : Undisturbed newV5 fleet change := by
  have hspec := change_spec newV5 fleet change
  unfold ToldApart at hapart
  generalize hafter : (fleet.change newV5 change).1 = after at hspec hapart
  generalize hanswer : (fleet.change newV5 change).2 = answer at hspec
  refine ⟨?_, ?_, ?_⟩
  all_goals rw [hafter]
  · cases hspec with
    | refused fault => exact ⟨old, h⟩
    | amended amended resolved outbox hdefaults hothers hresolves =>
        have hkept := resolveConfig_kept hresolves fleet.document.defaults
        obtain ⟨h₁, h₂, h₃, h₄, h₅, h₆⟩ := coherent_adopt h hkept (hapart resolved hkept)
        exact ⟨resolved, h₁, h₂, h₃, h₄, h₅, h₆⟩
    | reloaded document resolved outbox hall hresolves =>
        obtain ⟨h₁, h₂, h₃, h₄, h₅, h₆⟩ := coherent_adopt h hresolves (hapart resolved hresolves)
        exact ⟨resolved, h₁, h₂, h₃, h₄, h₅, h₆⟩
  · intro id hid
    cases hspec with
    | refused fault => rfl
    | amended amended resolved outbox hdefaults hothers hresolves =>
        refine device_adopt h (resolveConfig_kept hresolves fleet.document.defaults) ?_
        rintro config rfl
        exact mem_resolved_of_not_edits h.document hdefaults hothers hresolves hid
    | reloaded document resolved outbox hall hresolves => exact absurd (hall id) hid
  · intro fault hfault
    rw [hanswer] at hfault
    cases hspec with
    | refused fault => rfl
    | amended amended resolved outbox hdefaults hothers hresolves => cases hfault
    | reloaded document resolved outbox hall hresolves => cases hfault

/-- The fleet after a change. -/
def LiveFleet.after (newV5 : Uuid → List UInt8 → Uuid) (fleet : LiveFleet) (change : Change) :
    LiveFleet := (fleet.change newV5 change).1

/--
**One fleet, in three places.** After every change of every run the document, the registry
and the catalog hold the same devices and groups, the devices the change was not about are
as they were, and a refusal changed nothing, as long as the hash tells the devices apart.
-/
theorem fleet_kept (newV5 : Uuid → List UInt8 → Uuid) {document : RawConfig} {resolved : Resolved}
    (h : resolveConfig newV5 document = .ok resolved) (outbox : MemoryOutbox)
    (configPath : String) {changes : List Change}
    (hapart : Machine.Along (LiveFleet.after newV5) (ToldApart newV5)
      (.new document resolved outbox configPath) changes) :
    Machine.Along (LiveFleet.after newV5) (Undisturbed newV5)
      (.new document resolved outbox configPath) changes := by
  have hstep : ∀ fleet change, (∃ resolved, Coherent newV5 fleet resolved) →
      ToldApart newV5 fleet change →
      ∃ resolved, Coherent newV5 (fleet.after newV5 change) resolved := by
    rintro fleet change ⟨old, hold⟩ hapart
    exact (kept_change hold hapart).coherent
  have hkept : ∀ fleet change, (∃ resolved, Coherent newV5 fleet resolved) →
      ToldApart newV5 fleet change → Undisturbed newV5 fleet change := by
    rintro fleet change ⟨old, hold⟩ hapart
    exact kept_change hold hapart
  exact Machine.along_of_invariant hstep hkept hapart
    ⟨resolved, coherent_new h outbox configPath⟩

instance (fleet : LiveFleet) (resolved : Resolved) :
    Decidable (HashesApart newV5 fleet resolved) :=
  inferInstanceAs (Decidable (∀ d ∈ _, ∀ config ∈ _, _ → _ → _))

instance (fleet : LiveFleet) (change : Change) : Decidable (ToldApart newV5 fleet change) :=
  match h : resolveConfig newV5 (fleet.change newV5 change).1.document with
  | .ok resolved =>
      decidable_of_iff (HashesApart newV5 fleet resolved) (by simp [ToldApart, h])
  | .error _ => .isTrue (by simp [ToldApart, h])

end Verbs

/-! ## A fleet of two -/

theorem admin_fits : "admin".utf8ByteSize < 2 ^ 63 := by decide

theorem extron_fits : "extron".utf8ByteSize < 2 ^ 63 := by decide

theorem firstHost_fits : "10.0.0.1".utf8ByteSize < 2 ^ 63 := by decide

theorem secondHost_fits : "10.0.0.2".utf8ByteSize < 2 ^ 63 := by decide

/-- A device as the defaults below resolve it. -/
def recorder (uuid : Vector UInt8 16) (id : DeviceId) (host : Text) (port : UInt16) :
    DeviceConfig where
  uuid := ⟨uuid⟩
  id := id
  host := host
  port := port
  username := ⟨"admin", admin_fits⟩
  password := ⟨"extron", extron_fits⟩
  connectTimeout := 5000000000
  exchangeTimeout := 3000000000
  eager := false
  sisKeepalive := some 120000000000
  eagerRetry := some 30000000000
  coldBackoff := some 30000000000
  disabledFields := OrderedSet.empty
  autoDisableAfter := 2
  selfHeal := none

/-- Two recorders, and the first again on another port, with their version 5 UUIDs. -/
def recorders : List DeviceConfig :=
  [recorder #v[0x5c, 0x02, 0xfb, 0x59, 0x9a, 0xe1, 0x5d, 0xc9, 0x82, 0x2f, 0xb3, 0x40, 0x09, 0xfe,
      0xa1, 0xa9] "a" ⟨"10.0.0.1", firstHost_fits⟩ 22023,
    recorder #v[0x25, 0xe4, 0x5f, 0xfa, 0x3d, 0xd2, 0x52, 0x17, 0x94, 0x5e, 0xff, 0x5a, 0x72, 0xca,
      0x6d, 0xac] "b" ⟨"10.0.0.2", secondHost_fits⟩ 22023,
    recorder #v[0xed, 0x5a, 0xb6, 0xa2, 0x51, 0x2f, 0x5d, 0x2e, 0xa3, 0x13, 0x43, 0x55, 0x07, 0xca,
      0x01, 0x6e] "a" ⟨"10.0.0.1", firstHost_fits⟩ 22022]

/-- The hash, on the names these recorders have. -/
def newV5OfRecorders (_ : Uuid) (name : List UInt8) : Uuid :=
  ((recorders.find? fun config => fingerprintBytes config = name).map (·.uuid)).getD Uuid.nil

def noDefaults : Defaults :=
  ⟨none, none, none, none, none, none, none, none, none, none, none, none⟩

/-- `a` alone in the group `lab`, with credentials from the defaults. -/
def labDocument : RawConfig where
  defaults := { noDefaults with
    username := some ⟨"admin", admin_fits⟩, password := some ⟨"extron", extron_fits⟩ }
  devices := [⟨"a", ⟨"10.0.0.1", firstHost_fits⟩, none, none, none, none, none, none, none, none,
    none, none, none, none⟩]
  groups := [⟨"lab", ["a"], none, none⟩]

def secondHost : Text := ⟨"10.0.0.2", secondHost_fits⟩

def deviceAt (host : Text) (port : Option UInt16) (id : Option DeviceId) : DeviceWrite :=
  ⟨id, host, port, none, none, none, none, none, none, none, none, none, none, none⟩

/-- `b` joins, `a` cannot leave its group, moves to another port, and leaves once it can. -/
def labChanges : List Change :=
  [.add (deviceAt secondHost none (some "b")), .remove "a",
    .replace "a" (deviceAt ⟨"10.0.0.1", firstHost_fits⟩ (some 22022) none), .removeGroup "lab",
    .remove "a"]

theorem fleet_kept_lab :
    Machine.Along (LiveFleet.after newV5OfRecorders) (Undisturbed newV5OfRecorders)
      (.new labDocument ⟨[recorders.head (by decide)], [⟨"lab", ["a"], 8000000000, .failBatch⟩]⟩
        (.withMaxAttempts 3 1000000000) "devices.toml") labChanges := by
  refine fleet_kept newV5OfRecorders (by decide +kernel) _ _ ⟨?_, ?_, ?_, ?_, ?_, trivial⟩
  all_goals decide +kernel

end Sismatic
