import Sismatic.Proof.Expectations
import Sismatic.Proof.Respelled

/-!
# Writes under another spelling

A write route folds the case and the dashes of the field it is given and looks no further,
while the lists of disabled fields and the reads go by the canonical names. So a field is
written under an alias past a list that disables it, and what a group was told is filed
where no read of the field is.
-/

namespace Sismatic

open Devices

/-! ## Fields that are written -/

/-- A field that a write route names: a metadata register or a setting. -/
inductive WritableField
  | register (register : Register)
  | setting (setting : Setting)

namespace WritableField

def name : WritableField → FieldName
  | .register r => r.name
  | .setting s => s.name

def accepted : WritableField → List String
  | .register r => r.accepted
  | .setting s => s.accepted

/-- The catalog the field is in takes `raw` for it. -/
def Spells (field : WritableField) (raw : String) : Prop :=
  match field with
  | .register r => Register.fromStr raw = some r
  | .setting s => Setting.fromStr raw = some s

def onDevice (field : WritableField) (device : DeviceId) (raw value : String)
    (key : Option String) : DeviceRequest :=
  match field with
  | .register _ => setMetadata device raw value key
  | .setting _ => setSetting device raw value key

def onGroup (field : WritableField) (group : GroupId) (raw value : String)
    (key : Option String) : GroupRequest :=
  match field with
  | .register _ => setGroupMetadata group raw value key
  | .setting _ => setGroupSetting group raw value key

/-- The intent of a write under this name. -/
def intent (field : WritableField) (written : FieldName) (value : String) : Intent :=
  match field with
  | .register _ => .setMetadata written value
  | .setting _ => .setSetting written value

end WritableField

section Routes

variable (stamp : Stamp) (catalog : MemoryCatalog) (o : MemoryOutbox) (field : WritableField)

/-- What comes of a write under a `/devices` route. -/
def putDevice (device : DeviceId) (raw value : String) (key : Option String) :
    MemoryOutbox × Except (Fault ApiFailure) Acceptance :=
  handOver o (submitDevice stamp (field.onDevice device raw value key) catalog)

/-- What comes of a write under a `/groups` route. -/
def putGroup (group : GroupId) (raw value : String) (key : Option String) :
    MemoryOutbox × Except (Fault ApiFailure) Acceptance :=
  handOver o (submitGroup stamp (field.onGroup group raw value key) catalog)

/-- What the group was told is filed under the field's name, and nowhere else. -/
def FiledUnder (group : GroupId) (raw value : String) (key : Option String) : Prop :=
  ∀ s, submitGroup stamp (field.onGroup group raw value key) catalog = .ok s →
    ∀ g f, (putGroup stamp catalog o field group raw value key).1.groups g f =
      if o.Accepts s ∧ g = group ∧ f = field.name then
        some ⟨field.name, .text value, s.atTime⟩
      else o.groups g f

/-- Two spellings come to the same in a write to a group. -/
structure WritesAlike (group : GroupId) (raw raw' value : String) (key : Option String) :
    Prop where
  answer : (putGroup stamp catalog o field group raw value key).2 =
    (putGroup stamp catalog o field group raw' value key).2
  filed : FiledUnder stamp catalog o field group raw value key
  filed' : FiledUnder stamp catalog o field group raw' value key

end Routes

/-! ## What a spelling is folded to -/

theorem toUpper_ne_dash {c : Char} (h : c ≠ '-') : c.toUpper ≠ '-' := by
  unfold Char.toUpper
  split
  · rename_i hlower
    intro heq
    have hval := congrArg (fun c : Char => c.val.toNat) heq
    have hlow : 97 ≤ c.val.toNat := hlower.1
    have hhigh : c.val.toNat ≤ 122 := hlower.2
    have hshift : ('A'.val - 'a'.val).toNat = 2 ^ 32 - 32 := by decide
    have hdash : '-'.val.toNat = 45 := by decide
    simp only [UInt32.toNat_add, hshift, hdash] at hval
    omega
  · exact h

/-- A route folds a field the way the catalogs do. -/
theorem normalizeField_eq (raw : String) : normalizeField raw = normalize raw := by
  unfold normalizeField normalize toAsciiUppercase
  rw [String.toList_ofList, String.toList_ofList, List.map_map, List.map_map]
  refine congrArg String.ofList (List.map_congr_left fun c _ => ?_)
  simp only [Function.comp_apply]
  by_cases hdash : c = '-'
  · subst hdash
    rfl
  · rw [if_neg hdash, if_neg (toUpper_ne_dash hdash)]

theorem mem_accepted_of_fromCatalog {α : Type} {all : List α} {accepted : α → List String}
    {raw : String} {variant : α} (h : fromCatalog all accepted raw = some variant) :
    normalize raw ∈ accepted variant := by
  have hfound := List.find?_some h
  simpa using hfound

namespace WritableField

variable {field : WritableField} {raw raw' : String}

theorem mem_accepted_of_spells (h : field.Spells raw) : normalize raw ∈ field.accepted := by
  cases field with
  | register r =>
      have hmem : normalize raw ∈ r.accepted := mem_accepted_of_fromCatalog h
      exact hmem
  | setting s =>
      have hmem : normalize raw ∈ s.accepted := mem_accepted_of_fromCatalog h
      exact hmem

theorem spelled (field : WritableField) : Spelled field.accepted field.name := by
  cases field with
  | register r => exact spelled_register r (mem_all_register r)
  | setting s => exact spelled_setting s (mem_all_setting s)

theorem canonicalField_of_spells (h : field.Spells raw) :
    canonicalField (normalizeField raw) = some field.name := by
  rw [normalizeField_eq]
  exact (field.spelled.2 _ (mem_accepted_of_spells h)).2.1

/-- **Reads of a field go by its name**, whichever spelling they were asked under. -/
theorem name_of_query (h : field.Spells raw) {q : Query} (hq : Query.fromStr raw = some q) :
    q.name = field.name := by
  have hcanonical := field.spelled.canonicalField_eq (mem_accepted_of_spells h)
  unfold canonicalField at hcanonical
  rw [hq] at hcanonical
  exact Option.some.inj hcanonical

/-- A register has one spelling. -/
theorem normalizeField_register {r : Register} (h : (WritableField.register r).Spells raw) :
    normalizeField raw = r.name := by
  rw [normalizeField_eq]
  exact List.mem_singleton.mp (mem_accepted_of_spells h)

theorem onGroup_eq (field : WritableField) (group : GroupId) (raw value : String)
    (key : Option String) :
    ∃ route, field.onGroup group raw value key =
      ⟨group, route, field.intent (normalizeField raw) value, key⟩ := by
  cases field with
  | register _ => exact ⟨_, rfl⟩
  | setting _ => exact ⟨_, rfl⟩

theorem onDevice_eq (field : WritableField) (device : DeviceId) (raw value : String)
    (key : Option String) :
    ∃ route, field.onDevice device raw value key =
      ⟨device, route, field.intent (normalizeField raw) value, key⟩ := by
  cases field with
  | register _ => exact ⟨_, rfl⟩
  | setting _ => exact ⟨_, rfl⟩

theorem fieldOf_intent (written : FieldName) (value : String) :
    fieldOf (field.intent written value) = some written := by
  cases field with
  | register _ => rfl
  | setting _ => rfl

theorem verb_intent (written written' : FieldName) (value : String) :
    Verb.of (field.intent written value) = Verb.of (field.intent written' value) := by
  cases field with
  | register _ => rfl
  | setting _ => rfl

theorem expects_intent (written : FieldName) (value : String) :
    expects (field.intent written value) = (written, .text value) := by
  cases field with
  | register _ => rfl
  | setting _ => rfl

end WritableField

/-! ## What a document's catalog is like -/

/-- The lists of disabled fields are canonical, groups have members, and no id is taken twice. -/
structure MemoryCatalog.Configured (catalog : MemoryCatalog) : Prop where
  canonical : ∀ device ∈ catalog.devices, ∀ f ∈ device.disabledFields, canonicalField f = some f
  members : ∀ group ∈ catalog.groups, group.members ≠ []
  apart : ∀ device ∈ catalog.devices, ∀ group ∈ catalog.groups, group.id ≠ device.id

/-- A device's id is no group's. -/
theorem MemoryCatalog.Configured.not_group {catalog : MemoryCatalog} (h : catalog.Configured)
    {device : DeviceSummary} (hmem : device ∈ catalog.devices) :
    catalog.group device.id = none := by
  refine List.find?_eq_none.mpr fun group hgroup => ?_
  simpa using h.apart device hmem group hgroup

theorem resolveGroups_members {devices : List DeviceConfig} {seen : List String}
    {raws : List RawGroup} {configs : List GroupConfig}
    (h : resolveGroups devices seen raws = .ok configs) :
    ∀ config ∈ configs, config.deviceIds ≠ [] := by
  induction raws generalizing seen configs with
  | nil =>
      obtain rfl := Except.ok.inj h
      exact fun _ hmem => absurd hmem List.not_mem_nil
  | cons raw raws ih =>
      unfold resolveGroups at h
      split at h
      · cases h
      · obtain ⟨config, hconfig, h⟩ := ok_of_bind h
        obtain ⟨rest, hrest, h⟩ := ok_of_bind h
        obtain rfl := Except.ok.inj h
        intro other hother
        rcases List.mem_cons.mp hother with rfl | hother
        · unfold resolveGroup at hconfig
          split at hconfig
          · cases hconfig
          · rename_i hnonempty
            split at hconfig
            · cases hconfig
            · dsimp only at hconfig
              split at hconfig
              · cases hconfig
              · obtain rfl := Except.ok.inj hconfig
                exact fun hnil => hnonempty (List.isEmpty_iff.mpr hnil)
        · exact ih hrest other hother

theorem configured_of_resolveConfig {newV5 : Uuid → List UInt8 → Uuid} {raw : RawConfig}
    {resolved : Devices.Resolved} (h : resolveConfig newV5 raw = .ok resolved) :
    resolved.catalog.Configured := by
  have hsound := sound_of_resolveConfig h
  obtain ⟨hdevices, hgroups⟩ := resolveConfig_ok.mp h
  obtain ⟨hids, -, -, -⟩ := resolveDevices_ok hdevices
  obtain ⟨hgids, -, hfresh, -⟩ := resolveGroups_ok hgroups
  refine ⟨?_, ?_, ?_⟩
  · intro device hdevice f hf
    obtain ⟨config, hconfig, rfl⟩ := List.mem_map.mp (mem_sortedDevices.mp hdevice)
    exact (hsound.stated config hconfig).canonical f hf
  · intro group hgroup
    obtain ⟨config, hconfig, rfl⟩ := List.mem_map.mp (mem_sortedGroups.mp hgroup)
    exact resolveGroups_members hgroups config hconfig
  · intro device hdevice group hgroup heq
    obtain ⟨config, hconfig, rfl⟩ := List.mem_map.mp (mem_sortedDevices.mp hdevice)
    obtain ⟨told, htold, rfl⟩ := List.mem_map.mp (mem_sortedGroups.mp hgroup)
    have hmem : told.id ∈ raw.groups.map (·.id) := hgids ▸ List.mem_map_of_mem htold
    obtain ⟨written, hwritten, hid⟩ := List.mem_map.mp hmem
    refine hfresh written hwritten ?_
    rw [hid, ← hids]
    exact List.mem_map.mpr ⟨config, hconfig, heq.symm⟩

/-! ## A submission and its field -/

section Submission

variable {stamp : Stamp} {catalog : MemoryCatalog} {o : MemoryOutbox} {field : WritableField}
  {id route value : String} {key : Option String} {written : FieldName}

theorem assemble_of_targets (stamp : Stamp) (request : GroupRequest) {targets : List DeviceId}
    (h : targets ≠ []) (group : Option GroupSummary) :
    ∃ s, assemble stamp request targets group = .ok s ∧ s.targets = targets ∧
      s.ids.length = targets.length ∧ s.idempotencyKey = request.idempotencyKey := by
  unfold assemble
  dsimp only
  rw [if_neg (by simpa using h)]
  exact ⟨_, rfl, rfl, by simp, rfl⟩

theorem intent_of_submit {request : GroupRequest} {targets : List DeviceId}
    {group : Option GroupSummary} {s : Submission}
    (h : submit stamp request catalog targets group = .ok s) :
    s.intent = request.intent ∧ s.group = group.map (·.id) := by
  unfold submit at h
  obtain ⟨_, -, h⟩ := ok_of_bind h
  unfold assemble at h
  dsimp only at h
  split at h
  · cases h
  · obtain rfl := Except.ok.inj h
    exact ⟨rfl, rfl⟩

/-- A group that is found is submitted to by its members. -/
theorem submitGroup_found {group : GroupSummary} (hgroup : catalog.group id = some group) :
    submitGroup stamp ⟨id, route, field.intent written value, key⟩ catalog =
      submit stamp ⟨id, "", field.intent written value, key⟩ catalog group.members
        (some group) := by
  unfold submitGroup groupMembers
  rw [hgroup]
  rfl

theorem submitDevice_found {device : DeviceSummary} (hdevice : catalog.device id = some device)
    (hgroup : catalog.group id = none) :
    submitDevice stamp ⟨id, route, field.intent written value, key⟩ catalog =
      submit stamp ⟨id, "", field.intent written value, key⟩ catalog [id] none := by
  unfold submitDevice rejectGroup
  dsimp only
  rw [hgroup, hdevice]
  rfl

/-- No list of disabled fields holds what is not a canonical name. -/
theorem refusing_alias (hcatalog : catalog.Configured)
    (halias : canonicalField written ≠ some written) (target : DeviceId) :
    refusing catalog written target = none := by
  unfold refusing
  cases hdevice : catalog.device target with
  | none => rfl
  | some device =>
      have hmem : device ∈ catalog.devices := List.mem_of_find?_eq_some hdevice
      exact if_neg fun hlisted => halias (hcatalog.canonical device hmem written hlisted)

theorem submit_unrefused {targets : List DeviceId}
    (h : ∀ target ∈ targets, refusing catalog written target = none)
    (group : Option GroupSummary) :
    submit stamp ⟨id, route, field.intent written value, key⟩ catalog targets group =
      assemble stamp ⟨id, route, field.intent written value, key⟩ targets group := by
  have hnone : targets.filterMap (refusing catalog written) = [] :=
    List.filterMap_eq_nil_iff.mpr h
  unfold submit rejectDisabledField
  rw [WritableField.fieldOf_intent]
  dsimp only
  rw [hnone]
  rfl

theorem submit_refused (stamp : Stamp) (field : WritableField) (route value : String)
    (key : Option String) {device : DeviceSummary} (hdevice : catalog.device id = some device)
    (hlisted : written ∈ device.disabledFields) :
    ∃ message, submit stamp ⟨id, route, field.intent written value, key⟩ catalog [id] none =
      .error (.refused (.rejected .fieldDisabled message)) := by
  have hrefusing : refusing catalog written id = some device.id := by
    unfold refusing
    rw [hdevice]
    exact if_pos hlisted
  unfold submit rejectDisabledField
  rw [WritableField.fieldOf_intent]
  dsimp only
  rw [List.filterMap_cons_some hrefusing]
  exact ⟨_, rfl⟩

/-- Under another name the same is submitted, but for the name. -/
theorem assemble_respelled (written written' : FieldName) (targets : List DeviceId)
    (group : Option GroupSummary) :
    assemble stamp ⟨id, route, field.intent written' value, key⟩ targets group =
      (assemble stamp ⟨id, route, field.intent written value, key⟩ targets group).map
        fun s => { s with intent := field.intent written' value } := by
  have hverb : needsRendezvous (field.intent written' value) =
      needsRendezvous (field.intent written value) := by
    cases field with
    | register _ => rfl
    | setting _ => rfl
  unfold assemble
  dsimp only
  rw [hverb]
  split
  · rfl
  · rfl

/-- The outbox answers a submission by its verb. -/
theorem submit_answer (s : Submission) {intent : Intent}
    (hverb : Verb.of intent = Verb.of s.intent) :
    (o.submit { s with intent := intent }).2 = (o.submit s).2 := by
  have hreplayed : o.replayed { s with intent := intent } = o.replayed s := rfl
  unfold MemoryOutbox.submit
  dsimp only
  rw [hreplayed, hverb]
  split
  · rfl
  · split
    · rfl
    · split
      · rfl
      · split
        · rfl
        · rfl

/-- A setting is admitted whatever a device is meant to be doing. -/
theorem admitAll_setting (rows : List (WriteId × DeviceId)) :
    ∃ admitted, o.admitAll .writeSetting rows = .ok admitted := by
  induction rows with
  | nil => exact ⟨[], rfl⟩
  | cons row rows ih =>
      obtain ⟨id, device⟩ := row
      obtain ⟨admitted, hadmitted⟩ := ih
      have hverb : admitVerb (o.logs device).desiredRecordingState .writeSetting =
          .ok (o.logs device).desiredRecordingState := by
        cases (o.logs device).desiredRecordingState <;> rfl
      unfold MemoryOutbox.admitAll
      dsimp only
      rw [hverb, hadmitted]
      exact ⟨_, rfl⟩

/-- A setting is accepted as something new, unless its key has been used. -/
theorem accepts_setting {s : Submission} (htargets : s.targets ≠ [])
    (hids : s.ids.length = s.targets.length) (hkey : s.idempotencyKey = none)
    (hverb : Verb.of s.intent = .writeSetting) : o.Accepts s := by
  have hreplayed : o.replayed s = none := by
    unfold MemoryOutbox.replayed
    rw [hkey]
    rfl
  obtain ⟨rows, hrows⟩ := admitAll_setting (o := o) (s.ids.zip s.targets)
  refine ⟨hreplayed, ?_⟩
  unfold MemoryOutbox.submit
  rw [if_neg htargets, if_neg (not_not.mpr hids), hreplayed, hverb]
  dsimp only
  rw [hrows]
  rfl

end Submission

/-! ## Two spellings -/

section Alike

variable {catalog : MemoryCatalog} {field : WritableField} {id raw raw' : String}

theorem refusing_of_respelled (hcatalog : catalog.Configured) (h : field.Spells raw)
    (halias : normalizeField raw ≠ field.name) (target : DeviceId) :
    refusing catalog (normalizeField raw) target = none := by
  refine refusing_alias hcatalog ?_ target
  rw [WritableField.canonicalField_of_spells h]
  exact fun heq => halias (Option.some.inj heq).symm

/-- Under its canonical name, what a group was told of a field is filed with the field. -/
theorem filedUnder_of_canonical {stamp : Stamp} {o : MemoryOutbox} {group : GroupSummary}
    (hgroup : catalog.group id = some group) (h : normalizeField raw = field.name)
    (value : String) (key : Option String) :
    FiledUnder stamp catalog o field id raw value key := by
  intro s hs g f
  have hput : (putGroup stamp catalog o field id raw value key).1 = (o.submit s).1 := by
    unfold putGroup
    rw [hs]
    rfl
  obtain ⟨route, hroute⟩ := field.onGroup_eq id raw value key
  rw [hroute, submitGroup_found hgroup] at hs
  obtain ⟨hintent, hfiled⟩ := intent_of_submit hs
  have hid : group.id = id := by simpa using List.find?_some hgroup
  have hexpectation : s.expectation = ⟨field.name, .text value, s.atTime⟩ := by
    unfold Submission.expectation
    rw [hintent, WritableField.expects_intent, h]
  rw [hput]
  rcases submit_groups o s with ⟨hno, hsame⟩ | ⟨hyes, hfiles⟩
  · rw [hsame, if_neg fun hall => hno hall.1]
  · rw [hfiles g f, hexpectation, hfiled, Option.map_some, hid]
    refine if_congr ?_ rfl rfl
    rw [Option.some.injEq, eq_comm (a := id), and_iff_right hyes]

/-- Under an alias, it is filed elsewhere. -/
theorem not_filedUnder_of_alias (hcatalog : catalog.Configured) {group : GroupSummary}
    (hgroup : catalog.group id = some group) (h : field.Spells raw)
    (halias : normalizeField raw ≠ field.name) :
    ¬ ∀ stamp o value key, FiledUnder stamp catalog o field id raw value key := by
  intro hall
  -- an outbox nothing has been submitted to, and a request without a key
  let stamp : Stamp := fun _ => ("", ⟨""⟩)
  let o : MemoryOutbox := .withMaxAttempts 1 0
  have hmem : group ∈ catalog.groups := List.mem_of_find?_eq_some hgroup
  obtain ⟨route, hroute⟩ := field.onGroup_eq id raw "" none
  obtain ⟨s, hassemble, htargets, hids, hkey⟩ := assemble_of_targets stamp
    ⟨id, "", field.intent (normalizeField raw) "", none⟩ (hcatalog.members group hmem) (some group)
  have hsubmit : submit stamp ⟨id, "", field.intent (normalizeField raw) "", none⟩ catalog
      group.members (some group) = .ok s := by
    rw [submit_unrefused fun target _ => refusing_of_respelled hcatalog h halias target]
    exact hassemble
  have hs : submitGroup stamp (field.onGroup id raw "" none) catalog = .ok s := by
    rw [hroute, submitGroup_found hgroup]
    exact hsubmit
  obtain ⟨hintent, hfiled⟩ := intent_of_submit hsubmit
  have hverb : Verb.of s.intent = .writeSetting := by
    rw [hintent]
    cases field with
    | register _ => exact absurd (WritableField.normalizeField_register h) halias
    | setting _ => rfl
  have haccepts : o.Accepts s := by
    refine accepts_setting ?_ ?_ hkey hverb
    · rw [htargets]
      exact hcatalog.members group hmem
    · rw [hids, htargets]
  have hid : group.id = id := by simpa using List.find?_some hgroup
  rcases submit_groups o s with ⟨hno, -⟩ | ⟨-, hfiles⟩
  · exact hno haccepts
  · -- the alias has an expectation now, and none is due there
    have hthere := hfiles id (normalizeField raw)
    have hdue := hall stamp o "" none s hs id (normalizeField raw)
    have hput : (putGroup stamp catalog o field id raw "" none).1 = (o.submit s).1 := by
      unfold putGroup
      rw [hs]
      rfl
    have hfield : s.expectation.field = normalizeField raw := by
      unfold Submission.expectation
      rw [hintent, WritableField.expects_intent]
    rw [if_pos ⟨by rw [hfiled, Option.map_some, hid], hfield.symm⟩] at hthere
    rw [hput, hthere, if_neg fun hname => halias hname.2.2] at hdue
    cases hdue

/-- **A write to a group** comes to the same under two spellings, and is filed with the field,
if and only if both are its canonical name but for case and dashes. -/
theorem writesAlike_iff (hcatalog : catalog.Configured) {group : GroupSummary}
    (hgroup : catalog.group id = some group) (h : field.Spells raw) (h' : field.Spells raw') :
    (∀ stamp o value key, WritesAlike stamp catalog o field id raw raw' value key) ↔
      normalizeField raw = field.name ∧ normalizeField raw' = field.name := by
  refine ⟨?_, ?_⟩
  · intro hall
    refine ⟨?_, ?_⟩
    · by_contra halias
      exact not_filedUnder_of_alias hcatalog hgroup h halias
        fun stamp o value key => (hall stamp o value key).filed
    · by_contra halias
      exact not_filedUnder_of_alias hcatalog hgroup h' halias
        fun stamp o value key => (hall stamp o value key).filed'
  · rintro ⟨hname, hname'⟩ stamp o value key
    refine ⟨?_, filedUnder_of_canonical hgroup hname value key,
      filedUnder_of_canonical hgroup hname' value key⟩
    obtain ⟨route, hroute⟩ := field.onGroup_eq id raw value key
    obtain ⟨route', hroute'⟩ := field.onGroup_eq id raw' value key
    unfold putGroup
    rw [hroute, hroute', hname, hname', submitGroup_found hgroup, submitGroup_found hgroup]

/-! ### Under a device's own route -/

theorem putDevice_found {stamp : Stamp} {o : MemoryOutbox} {device : DeviceSummary}
    (hcatalog : catalog.Configured) (hdevice : catalog.device id = some device)
    (raw value : String) (key : Option String) :
    putDevice stamp catalog o field id raw value key =
      handOver o (submit stamp ⟨id, "", field.intent (normalizeField raw) value, key⟩ catalog
        [id] none) := by
  have hid : device.id = id := by simpa using List.find?_some hdevice
  have hgroup : catalog.group id = none :=
    hid ▸ hcatalog.not_group (List.mem_of_find?_eq_some hdevice)
  obtain ⟨route, hroute⟩ := field.onDevice_eq id raw value key
  unfold putDevice
  rw [hroute, submitDevice_found hdevice hgroup]

/-- The device does not refuse this spelling. -/
theorem putDevice_unrefused {stamp : Stamp} {o : MemoryOutbox} {device : DeviceSummary}
    (hcatalog : catalog.Configured) (hdevice : catalog.device id = some device)
    (h : field.Spells raw)
    (hfree : normalizeField raw ≠ field.name ∨ field.name ∉ device.disabledFields)
    (value : String) (key : Option String) :
    putDevice stamp catalog o field id raw value key =
      handOver o (assemble stamp ⟨id, "", field.intent (normalizeField raw) value, key⟩ [id]
        none) := by
  rw [putDevice_found hcatalog hdevice, submit_unrefused]
  intro target htarget
  rw [List.mem_singleton.mp htarget]
  by_cases hname : normalizeField raw = field.name
  · unfold refusing
    rw [hdevice, hname]
    exact if_neg (hfree.resolve_left (not_not.mpr hname))
  · exact refusing_of_respelled hcatalog h hname id

/-- What the outbox answers is never that a field is disabled. -/
theorem handOver_ne_rejected (o : MemoryOutbox) (s : Submission) (rejection : Rejection)
    (message : String) :
    (handOver o (.ok s)).2 ≠ .error (.refused (.rejected rejection message)) := by
  unfold handOver
  dsimp only
  cases (o.submit s).2 with
  | error e => exact fun h => nomatch h
  | ok acceptance => exact fun h => nomatch h

/-- A list that disables the field refuses its canonical name, and no alias. -/
theorem putDevice_ne {stamp : Stamp} {o : MemoryOutbox} {device : DeviceSummary}
    (hcatalog : catalog.Configured) (hdevice : catalog.device id = some device)
    (hname : normalizeField raw = field.name) (h' : field.Spells raw')
    (halias : normalizeField raw' ≠ field.name) (hlisted : field.name ∈ device.disabledFields)
    (value : String) (key : Option String) :
    (putDevice stamp catalog o field id raw value key).2 ≠
      (putDevice stamp catalog o field id raw' value key).2 := by
  obtain ⟨message, hrefused⟩ := submit_refused stamp field "" value key hdevice hlisted
  obtain ⟨s, hassemble, -⟩ := assemble_of_targets stamp
    ⟨id, "", field.intent (normalizeField raw') value, key⟩ (List.cons_ne_nil id []) none
  rw [putDevice_found hcatalog hdevice raw, hname, hrefused,
    putDevice_unrefused hcatalog hdevice h' (.inl halias), hassemble]
  exact (handOver_ne_rejected o s _ _).symm

/-- **A write to one device** is answered the same under two spellings if and only if both or
neither are the canonical name, unless the device does not disable the field. -/
theorem putDevice_iff (hcatalog : catalog.Configured) {device : DeviceSummary}
    (hdevice : catalog.device id = some device) (h : field.Spells raw) (h' : field.Spells raw') :
    (∀ stamp o value key, (putDevice stamp catalog o field id raw value key).2 =
        (putDevice stamp catalog o field id raw' value key).2) ↔
      ((normalizeField raw = field.name ↔ normalizeField raw' = field.name) ∨
        field.name ∉ device.disabledFields) := by
  refine ⟨?_, ?_⟩
  · intro hall
    have hanswer := hall (fun _ => ("", ⟨""⟩)) (.withMaxAttempts 1 0) "" none
    by_contra hnot
    rw [not_or, not_not] at hnot
    obtain ⟨hdiffer, hlisted⟩ := hnot
    by_cases hname : normalizeField raw = field.name
    · have halias : normalizeField raw' ≠ field.name :=
        fun hname' => hdiffer (iff_of_true hname hname')
      exact putDevice_ne hcatalog hdevice hname h' halias hlisted _ _ hanswer
    · have hname' : normalizeField raw' = field.name := by
        by_contra halias
        exact hdiffer (iff_of_false hname halias)
      exact putDevice_ne hcatalog hdevice hname' h hname hlisted _ _ hanswer.symm
  · intro hfree stamp o value key
    by_cases hboth : normalizeField raw = field.name ∧ normalizeField raw' = field.name
    · rw [putDevice_found hcatalog hdevice, putDevice_found hcatalog hdevice, hboth.1, hboth.2]
    · have hunrefused : ∀ {spelling}, (normalizeField spelling = field.name →
          normalizeField raw = field.name ∧ normalizeField raw' = field.name ∨
            field.name ∉ device.disabledFields) →
          normalizeField spelling ≠ field.name ∨ field.name ∉ device.disabledFields := by
        intro spelling hspelling
        by_cases hname : normalizeField spelling = field.name
        · exact .inr ((hspelling hname).resolve_left hboth)
        · exact .inl hname
      have hraw : normalizeField raw ≠ field.name ∨ field.name ∉ device.disabledFields :=
        hunrefused fun hname => hfree.imp_left fun hiff => ⟨hname, hiff.mp hname⟩
      have hraw' : normalizeField raw' ≠ field.name ∨ field.name ∉ device.disabledFields :=
        hunrefused fun hname => hfree.imp_left fun hiff => ⟨hiff.mpr hname, hname⟩
      rw [putDevice_unrefused hcatalog hdevice h hraw,
        putDevice_unrefused hcatalog hdevice h' hraw',
        assemble_respelled (normalizeField raw) (normalizeField raw')]
      obtain ⟨s, hassemble, -⟩ := assemble_of_targets stamp
        ⟨id, "", field.intent (normalizeField raw) value, key⟩ (List.cons_ne_nil id []) none
      have hintent : s.intent = field.intent (normalizeField raw) value := by
        unfold assemble at hassemble
        obtain rfl := Except.ok.inj hassemble
        rfl
      rw [hassemble]
      have hverb : Verb.of (field.intent (normalizeField raw') value) = Verb.of s.intent := by
        rw [hintent]
        exact WritableField.verb_intent ..
      have hsame := submit_answer (o := o) s hverb
      unfold handOver
      dsimp only [Except.map]
      rw [hsame]

end Alike

/--
**Where writes are insensitive to spelling.** Reads of a field go by its canonical name. In every
fleet that resolves, a write to a group comes to the same under two spellings of a field, filed
under that name, if and only if both fold to the name; and a write to a device if and only if
both or neither do, or the device does not disable the field.
-/
theorem spelling_exact {newV5 : Uuid → List UInt8 → Uuid} {document : RawConfig}
    {resolved : Devices.Resolved} (hok : resolveConfig newV5 document = .ok resolved)
    (field : WritableField) {raw raw' : String} (h : field.Spells raw) (h' : field.Spells raw') :
    (∀ spelling, field.Spells spelling → ∀ q, Query.fromStr spelling = some q →
      q.name = field.name) ∧
    (∀ id group, resolved.catalog.group id = some group →
      ((∀ stamp o value key, WritesAlike stamp resolved.catalog o field id raw raw' value key) ↔
        normalizeField raw = field.name ∧ normalizeField raw' = field.name)) ∧
    ∀ id device, resolved.catalog.device id = some device →
      ((∀ stamp o value key, (putDevice stamp resolved.catalog o field id raw value key).2 =
          (putDevice stamp resolved.catalog o field id raw' value key).2) ↔
        ((normalizeField raw = field.name ↔ normalizeField raw' = field.name) ∨
          field.name ∉ device.disabledFields)) := by
  have hcatalog := configured_of_resolveConfig hok
  refine ⟨?_, ?_, ?_⟩
  · intro spelling hspelling q hq
    exact WritableField.name_of_query hspelling hq
  · intro id group hgroup
    exact writesAlike_iff hcatalog hgroup h h'
  · intro id device hdevice
    exact putDevice_iff hcatalog hdevice h h'

/-- A group of one device, which disables the name of its first stream. -/
def aliasedDocument : RawConfig :=
  ⟨Defaults.unset, [vetoing ["STREAM_1_NAME"]], [⟨"lab", ["a"], none, none⟩]⟩

def aliasedResolved : Devices.Resolved :=
  (resolveConfig (fun _ _ => Uuid.nil) aliasedDocument).toOption.getD ⟨[], []⟩

/-- The canonical name is refused, and its alias accepted. -/
theorem not_writesAlike_alias :
    resolveConfig (fun _ _ => Uuid.nil) aliasedDocument = .ok aliasedResolved ∧
      (WritableField.setting .stream1Name).Spells "STREAM_1_NAME" ∧
      (WritableField.setting .stream1Name).Spells "stream-name-1" ∧
      ¬ WritesAlike stampOf aliasedResolved.catalog (.withMaxAttempts 3 1000000000)
        (.setting .stream1Name) "lab" "STREAM_1_NAME" "stream-name-1" "Lecture" none := by
  refine ⟨by decide +kernel, ?_, ?_, ?_⟩
  · change Setting.fromStr "STREAM_1_NAME" = some .stream1Name
    decide +kernel
  · change Setting.fromStr "stream-name-1" = some .stream1Name
    decide +kernel
  · intro h
    have hanswer := congrArg Except.isOk h.answer
    revert hanswer
    decide +kernel

/-- In lower case and with dashes, the canonical name is the same field to every route. -/
theorem spelling_exact_folded :
    WritesAlike stampOf aliasedResolved.catalog (.withMaxAttempts 3 1000000000)
      (.setting .stream1Name) "lab" "STREAM_1_NAME" "stream-1-name" "Lecture" none := by
  have hok : resolveConfig (fun _ _ => Uuid.nil) aliasedDocument = .ok aliasedResolved := by
    decide +kernel
  have hname : Setting.fromStr "STREAM_1_NAME" = some .stream1Name := by decide +kernel
  have hfolded : Setting.fromStr "stream-1-name" = some .stream1Name := by decide +kernel
  obtain ⟨group, hgroup⟩ : ∃ group, aliasedResolved.catalog.group "lab" = some group :=
    Option.isSome_iff_exists.mp (by decide +kernel)
  exact ((spelling_exact hok (.setting .stream1Name) hname hfolded).2.1 "lab" group hgroup).mpr
    ⟨by decide +kernel, by decide +kernel⟩ _ _ _ _

end Sismatic
