import Sismatic.Proof.Identity
import Sismatic.Server.Export

/-!
# However its fields are spelled

A device is what its configuration says, and nothing about how the configuration is written
down. What its identity is hashed from tells any two resolved devices apart that differ in
anything but the identity; and the entries of a list of disabled fields may be put in any
order, repeated, and spelled in any way the catalogs take for the same fields.
-/

namespace Sismatic.Devices

/-! ## Two spellings of one field -/

/-- Written alike but for case and dashes, or both a catalog's spellings of one entry. -/
inductive Respelled (written written' : String) : Prop
  | alike (h : normalize written = normalize written')
  | query (q : Query) (h : normalize written ∈ q.accepted) (h' : normalize written' ∈ q.accepted)
  | setting (setting : Setting) (h : normalize written ∈ setting.accepted)
      (h' : normalize written' ∈ setting.accepted)
  | register (register : Register) (h : normalize written ∈ register.accepted)
      (h' : normalize written' ∈ register.accepted)

/-- Every entry of one list is an entry of the other in some spelling. -/
def Restated (fields fields' : List String) : Prop :=
  (∀ written ∈ fields, ∃ written' ∈ fields', Respelled written written') ∧
    ∀ written' ∈ fields', ∃ written ∈ fields, Respelled written written'

/-- The catalogs look at a spelling without its case and dashes. -/
theorem canonicalField_alike {written written' : String}
    (h : normalize written = normalize written') :
    canonicalField written = canonicalField written' := by
  unfold canonicalField Query.fromStr Setting.fromStr Register.fromStr fromCatalog
  rw [h]

theorem Spelled.canonicalField_eq {accepted : List String} {name : FieldName}
    (h : Spelled accepted name) {written : String} (hwritten : normalize written ∈ accepted) :
    canonicalField written = some name := by
  obtain ⟨hplain, hname, -⟩ := h.2 _ hwritten
  exact (canonicalField_alike hplain.symm).trans hname

theorem mem_all_query (q : Query) : q ∈ Query.all := by cases q <;> decide

theorem mem_all_setting (setting : Setting) : setting ∈ Setting.all := by cases setting <;> decide

theorem mem_all_register (register : Register) : register ∈ Register.all := by
  cases register <;> decide

/-- Two spellings of a field have one canonical spelling. -/
theorem Respelled.canonicalField_eq {written written' : String} (h : Respelled written written') :
    canonicalField written = canonicalField written' := by
  cases h with
  | alike h => exact canonicalField_alike h
  | query q h h' =>
      have hspelled := spelled_query q (mem_all_query q)
      rw [hspelled.canonicalField_eq h, hspelled.canonicalField_eq h']
  | setting setting h h' =>
      have hspelled := spelled_setting setting (mem_all_setting setting)
      rw [hspelled.canonicalField_eq h, hspelled.canonicalField_eq h']
  | register register h h' =>
      have hspelled := spelled_register register (mem_all_register register)
      rw [hspelled.canonicalField_eq h, hspelled.canonicalField_eq h']

/-! ## One list of fields written two ways -/

/-- The names found are those of the entries, one after the other. -/
theorem mapM_canonicalDisabled {device : DeviceId} {fields : List String} {found : List FieldName} :
    fields.mapM (canonicalDisabled device) = .ok found ↔
      fields.map canonicalField = found.map some := by
  induction fields generalizing found with
  | nil =>
      rw [List.mapM_nil, List.map_nil]
      refine ⟨fun h => ?_, fun h => ?_⟩
      · rw [← Except.ok.inj h, List.map_nil]
      · rw [List.map_eq_nil_iff.mp h.symm]
        rfl
  | cons written fields ih =>
      rw [List.mapM_cons, List.map_cons]
      refine ⟨fun h => ?_, fun h => ?_⟩
      · obtain ⟨name, hname, h⟩ := ok_of_bind h
        obtain ⟨rest, hrest, h⟩ := ok_of_bind h
        obtain rfl := Except.ok.inj h
        rw [canonicalDisabled_ok.mp hname, ih.mp hrest, List.map_cons]
      · obtain ⟨name, rest, rfl, hname, hrest⟩ := List.map_eq_cons_iff.mp h.symm
        rw [canonicalDisabled_ok.mpr hname.symm, ih.mpr hrest.symm]
        rfl

/-- The names a list of disabled fields comes to, unless one of its entries is unknown. -/
theorem canonicalizeDisabled_iff {device : DeviceId} {fields : List String}
    {names : OrderedSet String} :
    canonicalizeDisabled device (some fields) = .ok names ↔
      (∀ written ∈ fields, (canonicalField written).isSome) ∧
        ∀ name, name ∈ names ↔ ∃ written ∈ fields, canonicalField written = some name := by
  change (fields.mapM (canonicalDisabled device)).map OrderedSet.ofList = .ok names ↔ _
  refine ⟨fun h => ?_, fun ⟨hknown, hnames⟩ => ?_⟩
  · cases hfound : fields.mapM (canonicalDisabled device) with
    | error e => rw [hfound] at h; cases h
    | ok found =>
        rw [hfound] at h
        obtain rfl := Except.ok.inj h
        have hmap := mapM_canonicalDisabled.mp hfound
        refine ⟨fun written hwritten => ?_, fun name => ?_⟩
        · have hmem := List.mem_map_of_mem (f := canonicalField) hwritten
          rw [hmap] at hmem
          obtain ⟨name, -, hname⟩ := List.mem_map.mp hmem
          rw [← hname]
          rfl
        · rw [OrderedSet.mem_ofList, ← List.mem_map, hmap,
            List.mem_map_of_injective (Option.some_injective _)]
  · have hmap := map_some_filterMap hknown
    rw [mapM_canonicalDisabled.mpr hmap]
    refine congrArg Except.ok (OrderedSet.eq_of_mem_iff fun name => ?_)
    rw [OrderedSet.mem_ofList, hnames, List.mem_filterMap]

/-- **However its entries are ordered, repeated and spelled**, a list comes to the same set. -/
theorem canonicalizeDisabled_restated {device : DeviceId} {fields fields' : List String}
    (h : Restated fields fields') {names : OrderedSet String}
    (hok : canonicalizeDisabled device (some fields) = .ok names) :
    canonicalizeDisabled device (some fields') = .ok names := by
  obtain ⟨hknown, hnames⟩ := canonicalizeDisabled_iff.mp hok
  refine canonicalizeDisabled_iff.mpr ⟨fun written' hwritten' => ?_, fun name => ?_⟩
  · obtain ⟨written, hwritten, hsame⟩ := h.2 written' hwritten'
    rw [← hsame.canonicalField_eq]
    exact hknown written hwritten
  · rw [hnames]
    refine ⟨fun ⟨written, hwritten, hname⟩ => ?_, fun ⟨written', hwritten', hname⟩ => ?_⟩
    · obtain ⟨written', hwritten', hsame⟩ := h.1 written hwritten
      exact ⟨written', hwritten', hsame.canonicalField_eq ▸ hname⟩
    · obtain ⟨written, hwritten, hsame⟩ := h.2 written' hwritten'
      exact ⟨written, hwritten, hsame.canonicalField_eq.trans hname⟩

section Resolution

variable {newV5 : Uuid → List UInt8 → Uuid}

/-- A device resolves to the same whichever way its disabled fields are listed. -/
theorem resolve_restated {defaults : Defaults} {device : RawDevice}
    {inherited own : Option (List String)} {fields fields' : List String}
    (hfields : device.disabledFields.or defaults.disabledFields = some fields)
    (hfields' : own.or inherited = some fields') (h : Restated fields fields')
    {config : DeviceConfig} (hok : resolve newV5 defaults device = .ok config) :
    resolve newV5 { defaults with disabledFields := inherited }
      { device with disabledFields := own } = .ok config := by
  unfold resolve at hok ⊢
  obtain ⟨username, huser, hok⟩ := ok_of_bind hok
  obtain ⟨password, hpass, hok⟩ := ok_of_bind hok
  obtain ⟨names, hdis, hok⟩ := ok_of_bind hok
  rw [hfields] at hdis
  have hdis' := canonicalizeDisabled_restated h hdis
  dsimp only
  rw [hfields', hdis', huser, hpass]
  exact hok

/-- Of two devices whose ids fit a string, equal fingerprints mean equal devices. -/
theorem fingerprintBytes_inj {c c' : DeviceConfig} (h : Stated newV5 c) (h' : Stated newV5 c')
    (hid : c.id.utf8ByteSize < 2 ^ 63) (hid' : c'.id.utf8ByteSize < 2 ^ 63)
    (heq : fingerprintBytes c = fingerprintBytes c') : c = c' := by
  have heq' := heq
  unfold fingerprintBytes at heq'
  obtain ⟨hsame, -⟩ := prefixFree_putStr hid hid' heq'
  exact eq_of_fingerprintBytes h h' hsame heq

/--
**A device's identity is its configuration.** What it is hashed from is equal for two resolved
devices exactly if they are equal in every field but the identity, and stays the same when the
entries of the disabled fields are reordered, repeated or respelled, a device's own or those it
inherits.
-/
theorem fingerprint_exact :
    (∀ defaults device config defaults' device' config',
      resolve newV5 defaults device = .ok config → resolve newV5 defaults' device' = .ok config' →
        config.id.utf8ByteSize < 2 ^ 63 → config'.id.utf8ByteSize < 2 ^ 63 →
          (fingerprintBytes config = fingerprintBytes config' ↔
            { config with uuid := config'.uuid } = config')) ∧
      ∀ (defaults : Defaults) (device : RawDevice) (inherited own : Option (List String))
        (fields fields' : List String),
        device.disabledFields.or defaults.disabledFields = some fields →
          own.or inherited = some fields' → Restated fields fields' →
            ∀ config, resolve newV5 defaults device = .ok config →
              ∃ config', resolve newV5 { defaults with disabledFields := inherited }
                  { device with disabledFields := own } = .ok config' ∧
                fingerprintBytes config' = fingerprintBytes config := by
  refine ⟨?_, ?_⟩
  · intro defaults device config defaults' device' config' hok hok' hid hid'
    refine ⟨fun heq => ?_, fun hsame => ?_⟩
    · rw [fingerprintBytes_inj (resolve_ok hok).2 (resolve_ok hok').2 hid hid' heq]
    · rw [← hsame]
      rfl
  · intro defaults device inherited own fields fields' hfields hfields' h config hok
    exact ⟨config, resolve_restated hfields hfields' h hok, rfl⟩

end Resolution

theorem letter_fits : "a".utf8ByteSize < 2 ^ 63 := by decide

/-- A device that disables these fields. -/
def vetoing (fields : List String) : RawDevice where
  id := "a"
  host := ⟨"a", letter_fits⟩
  port := none
  username := some ⟨"a", letter_fits⟩
  password := some ⟨"a", letter_fits⟩
  connectSecs := none
  exchangeSecs := none
  eager := none
  sisKeepaliveSecs := none
  eagerRetrySecs := none
  coldBackoffSecs := none
  disabledFields := some fields
  autoDisableAfter := none
  selfHealSecs := none

/-- A stream's name is disabled by its alias, or by its name twice: one device. -/
theorem fingerprint_alias : ∃ config config',
    resolve (fun _ _ => Uuid.nil) Defaults.unset (vetoing ["stream-name-1"]) = .ok config ∧
      resolve (fun _ _ => Uuid.nil) Defaults.unset (vetoing ["Stream_1_Name", "STREAM_1_NAME"]) =
        .ok config' ∧
      fingerprintBytes config' = fingerprintBytes config := by
  have hok : (resolve (fun _ _ => Uuid.nil) Defaults.unset
      (vetoing ["stream-name-1"])).toOption.isSome := by
    decide +kernel
  have hsame : Restated ["stream-name-1"] ["Stream_1_Name", "STREAM_1_NAME"] := by
    have hfirst : Respelled "stream-name-1" "Stream_1_Name" :=
      .query .stream1Name (by decide) (by decide)
    have hsecond : Respelled "stream-name-1" "STREAM_1_NAME" :=
      .query .stream1Name (by decide) (by decide)
    refine ⟨fun written hwritten => ?_, fun written' hwritten' => ?_⟩
    · obtain rfl := List.mem_singleton.mp hwritten
      exact ⟨_, List.mem_cons_self, hfirst⟩
    · refine ⟨_, List.mem_cons_self, ?_⟩
      rcases List.mem_cons.mp hwritten' with rfl | hwritten'
      · exact hfirst
      · obtain rfl := List.mem_singleton.mp hwritten'
        exact hsecond
  cases hresolved :
      resolve (fun _ _ => Uuid.nil) Defaults.unset (vetoing ["stream-name-1"]) with
  | error e => rw [hresolved] at hok; cases hok
  | ok config =>
      obtain ⟨config', hok', hbytes⟩ := fingerprint_exact.2 Defaults.unset
        (vetoing ["stream-name-1"]) none (some ["Stream_1_Name", "STREAM_1_NAME"]) _ _ rfl rfl
        hsame config hresolved
      exact ⟨config, config', rfl, hok', hbytes⟩

end Sismatic.Devices
