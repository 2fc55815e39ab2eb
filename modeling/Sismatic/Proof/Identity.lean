import Sismatic.Server.Fleet
import Mathlib.Data.List.Basic

/-!
# What a device is identified by

A resolved device can be written down again with every value stated, and resolves to
itself whatever the defaults: that is what lets the kept document be a projection of
what runs. And what its identity is hashed from tells two resolved devices of one id
apart, so where the hash does too, equal identities are equal devices.
-/

namespace Sismatic.Devices

/-! ## Canonical names -/

/-- No spelling of a catalog entry is as long as this. -/
def longestName : Nat := 64

/-- Every spelling a catalog takes for an entry is written plainly, is short, and is that entry's. -/
def Spelled (accepted : List String) (name : FieldName) : Prop :=
  name ∈ accepted ∧ ∀ written ∈ accepted,
    normalize written = written ∧ canonicalField written = some name ∧
      written.utf8ByteSize < longestName

instance (accepted : List String) (name : FieldName) : Decidable (Spelled accepted name) :=
  inferInstanceAs (Decidable (_ ∧ _))

theorem spelled_query : ∀ q ∈ Query.all, Spelled q.accepted q.name := by decide +kernel

theorem spelled_setting : ∀ setting ∈ Setting.all, Spelled setting.accepted setting.name := by
  decide +kernel

theorem spelled_register :
    ∀ register ∈ Register.all, Spelled register.accepted register.name := by decide +kernel

theorem Spelled.canonical {accepted : List String} {name : FieldName} (h : Spelled accepted name) :
    canonicalField name = some name ∧ name.utf8ByteSize < longestName :=
  (h.2 name h.1).2

theorem mem_of_fromCatalog {α : Type} {all : List α} {accepted : α → List String} {s : String}
    {variant : α} (h : fromCatalog all accepted s = some variant) : variant ∈ all :=
  List.mem_of_find?_eq_some h

/-- A canonical name is its own canonical spelling, and short. -/
theorem canonicalField_canonical {written name : String} (h : canonicalField written = some name) :
    canonicalField name = some name ∧ name.utf8ByteSize < longestName := by
  unfold canonicalField at h
  rcases Option.or_eq_some_iff.mp h with hquery | ⟨_, h⟩
  · obtain ⟨q, hq, rfl⟩ := Option.map_eq_some_iff.mp hquery
    have hmem : q ∈ Query.all := mem_of_fromCatalog hq
    exact (spelled_query q hmem).canonical
  · rcases Option.or_eq_some_iff.mp h with hsetting | ⟨_, h⟩
    · obtain ⟨setting, hs, rfl⟩ := Option.map_eq_some_iff.mp hsetting
      have hmem : setting ∈ Setting.all := mem_of_fromCatalog hs
      exact (spelled_setting setting hmem).canonical
    · obtain ⟨register, hr, rfl⟩ := Option.map_eq_some_iff.mp h
      have hmem : register ∈ Register.all := mem_of_fromCatalog hr
      exact (spelled_register register hmem).canonical

theorem canonicalDisabled_ok {device : DeviceId} {written name : String} :
    canonicalDisabled device written = .ok name ↔ canonicalField written = some name := by
  unfold canonicalDisabled
  cases canonicalField written <;> simp

/-- What a mapping that does not fail lists, some element was mapped to. -/
theorem mem_of_mapM {α β ε : Type} {f : α → Except ε β} {xs : List α} {ys : List β}
    (h : xs.mapM f = .ok ys) {y : β} (hy : y ∈ ys) : ∃ x ∈ xs, f x = .ok y := by
  induction xs generalizing ys with
  | nil =>
      cases h
      cases hy
  | cons x xs ih =>
      rw [List.mapM_cons] at h
      cases hx : f x with
      | error e =>
          rw [hx] at h
          cases h
      | ok first =>
          rw [hx] at h
          cases hxs : xs.mapM f with
          | error e =>
              rw [hxs] at h
              cases h
          | ok rest =>
              rw [hxs] at h
              cases h
              rcases List.mem_cons.mp hy with rfl | hy
              · exact ⟨x, List.mem_cons_self .., hx⟩
              · obtain ⟨x', hx', hok⟩ := ih hxs hy
                exact ⟨x', List.mem_cons_of_mem _ hx', hok⟩

theorem map_some_filterMap {α β : Type} {f : α → Option β} {xs : List α}
    (h : ∀ x ∈ xs, (f x).isSome) : xs.map f = (xs.filterMap f).map some := by
  induction xs with
  | nil => rfl
  | cons x xs ih =>
      obtain ⟨y, hy⟩ := Option.isSome_iff_exists.mp (h x List.mem_cons_self)
      have hrest := ih fun x' hx' => h x' (List.mem_cons_of_mem x hx')
      rw [List.map_cons, List.filterMap_cons_some hy, List.map_cons, hy, hrest]

theorem mapM_of_forall {α ε : Type} {f : α → Except ε α} {xs : List α}
    (h : ∀ x ∈ xs, f x = .ok x) : xs.mapM f = .ok xs := by
  induction xs with
  | nil => rfl
  | cons x xs ih =>
      rw [List.mapM_cons, h x (List.mem_cons_self ..),
        ih fun y hy => h y (List.mem_cons_of_mem _ hy)]
      rfl

theorem canonicalizeDisabled_canonical {device : DeviceId} {fields : Option (List String)}
    {names : OrderedSet String} (h : canonicalizeDisabled device fields = .ok names) :
    ∀ name ∈ names, canonicalField name = some name := by
  cases fields with
  | none =>
      cases h
      intro name hname
      cases hname
  | some fields =>
      change (fields.mapM (canonicalDisabled device)).map OrderedSet.ofList = .ok names at h
      cases hmap : fields.mapM (canonicalDisabled device) with
      | error e =>
          rw [hmap] at h
          cases h
      | ok found =>
          rw [hmap] at h
          obtain rfl := Except.ok.inj h
          intro name hname
          obtain ⟨written, _, hok⟩ := mem_of_mapM hmap (OrderedSet.mem_ofList.mp hname)
          exact (canonicalField_canonical (canonicalDisabled_ok.mp hok)).1

/-- Canonical names are put through the catalogs unchanged. -/
theorem canonicalizeDisabled_self (device : DeviceId) {names : OrderedSet String}
    (h : ∀ name ∈ names, canonicalField name = some name) :
    canonicalizeDisabled device (some names.elems) = .ok names := by
  show (names.elems.mapM (canonicalDisabled device)).map OrderedSet.ofList = .ok names
  rw [mapM_of_forall fun name hname => canonicalDisabled_ok.mpr (h name hname)]
  refine congrArg Except.ok (OrderedSet.eq_of_mem_iff fun name => ?_)
  rw [OrderedSet.mem_ofList, OrderedSet.mem_def]

/-! ## Intervals -/

@[simp] theorem asSecs_fromSecs (secs : UInt64) : asSecs (fromSecs secs) = secs := by
  unfold asSecs fromSecs
  rw [Nat.mul_div_cancel _ (by omega), UInt64.ofNat_toNat]

@[simp] theorem interval_secsOf (secs : UInt64) :
    interval (secsOf (interval secs)) = interval secs := by
  unfold interval secsOf
  split
  · rename_i hpos
    simp [hpos]
  · simp

/-! ## A resolved device can be written down again -/

/-- What every resolved device is like, whatever it was resolved from. -/
structure Stated (newV5 : Uuid → List UInt8 → Uuid) (config : DeviceConfig) : Prop where
  uuid : config.uuid = fingerprint newV5 config
  connect : ∃ secs, config.connectTimeout = fromSecs secs
  exchange : ∃ secs, config.exchangeTimeout = fromSecs secs
  keepalive : ∃ secs, config.sisKeepalive = interval secs
  retry : ∃ secs, config.eagerRetry = interval secs
  backoff : ∃ secs, config.coldBackoff = interval secs
  heal : ∃ secs, config.selfHeal = interval secs
  canonical : ∀ name ∈ config.disabledFields, canonicalField name = some name

section Resolution

variable {newV5 : Uuid → List UInt8 → Uuid}

theorem ok_of_bind {ε α β : Type} {x : Except ε α} {f : α → Except ε β} {y : β}
    (h : x >>= f = .ok y) : ∃ a, x = .ok a ∧ f a = .ok y := by
  cases x with
  | error e => cases h
  | ok a => exact ⟨a, rfl, h⟩

theorem resolve_ok {defaults : Defaults} {device : RawDevice} {config : DeviceConfig}
    (h : resolve newV5 defaults device = .ok config) :
    config.id = device.id ∧ Stated newV5 config := by
  unfold resolve at h
  obtain ⟨username, _, h⟩ := ok_of_bind h
  obtain ⟨password, _, h⟩ := ok_of_bind h
  obtain ⟨names, hdis, h⟩ := ok_of_bind h
  obtain rfl := Except.ok.inj h
  exact ⟨rfl, rfl, ⟨_, rfl⟩, ⟨_, rfl⟩, ⟨_, rfl⟩, ⟨_, rfl⟩, ⟨_, rfl⟩, ⟨_, rfl⟩,
    canonicalizeDisabled_canonical hdis⟩

/-- **A resolved device resolves to itself**, whatever the defaults. -/
theorem resolve_rawOf (defaults : Defaults) {config : DeviceConfig} (h : Stated newV5 config) :
    resolve newV5 defaults (rawOf config) = .ok config := by
  obtain ⟨uuid, id, host, port, username, password, connectTimeout, exchangeTimeout, eager,
    sisKeepalive, eagerRetry, coldBackoff, disabledFields, autoDisableAfter, selfHeal⟩ := config
  obtain ⟨huuid, ⟨_, hconnect⟩, ⟨_, hexchange⟩, ⟨_, hkeepalive⟩, ⟨_, hretry⟩, ⟨_, hbackoff⟩,
    ⟨_, hheal⟩, hcanonical⟩ := h
  dsimp only at huuid hconnect hexchange hkeepalive hretry hbackoff hheal hcanonical
  subst hconnect hexchange hkeepalive hretry hbackoff hheal
  have hdis := canonicalizeDisabled_self id hcanonical
  unfold resolve rawOf
  simp only [Option.some_or, require, Option.getD_some, hdis, asSecs_fromSecs, interval_secsOf]
  exact congrArg (fun u => Except.ok (DeviceConfig.mk u id host port username password _ _ eager
    _ _ _ disabledFields autoDisableAfter _)) huuid.symm

end Resolution

/-! ## What identities are hashed from tells devices apart -/

theorem prefixFree_putNat (width : Nat) (hwidth : width < 2 ^ 64) :
    Bytes.PrefixFree (fun n => n < 256 ^ width) (putNat width) :=
  Bytes.prefixFree_put (fun n _ => by rw [Bytes.length_le]; exact hwidth)
    fun _ _ hn hm h => Bytes.le_inj hn hm h

theorem prefixFree_putStr : Bytes.PrefixFree (fun s : String => s.utf8ByteSize < 2 ^ 63) putStr := by
  refine Bytes.prefixFree_put ?_ ?_
  · intro s hs
    rw [Array.length_toList]
    exact lt_trans hs (by decide)
  · intro s t _ _ h
    refine String.toByteArray_inj.mp (ByteArray.ext ?_)
    exact Array.toList_inj.mp h

/-- A duration fits the sixteen bytes it is written in. -/
theorem fromSecs_lt (secs : UInt64) : fromSecs secs < 256 ^ 16 := by
  refine lt_of_lt_of_le (Nat.mul_lt_mul_of_pos_right secs.toNat_lt (by decide)) ?_
  decide

theorem interval_lt {secs : UInt64} {d : Duration} (h : interval secs = some d) : d < 256 ^ 16 := by
  unfold interval at h
  split at h
  · rw [← Option.some.inj h]
    exact fromSecs_lt secs
  · cases h

theorem prefixFree_putOptDuration :
    Bytes.PrefixFree (fun o : Option Duration => ∀ d, o = some d → d < 256 ^ 16)
      putOptDuration := by
  intro a b x y ha hb h
  -- a dash is one byte, and a duration sixteen
  have hdash : ∀ {d : Duration} {x y : List UInt8}, putStr "-" ++ x ≠ putNat 16 d ++ y := by
    intro d x y h
    obtain ⟨heq, _⟩ := Bytes.put_append_inj (by decide) (by rw [Bytes.length_le]; decide) h
    have hlen := congrArg List.length heq
    rw [Bytes.length_le] at hlen
    exact absurd hlen (by decide)
  cases a with
  | none =>
      cases b with
      | none => exact ⟨rfl, List.append_cancel_left h⟩
      | some d => exact absurd h hdash
  | some d =>
      cases b with
      | none => exact absurd h.symm hdash
      | some e =>
          obtain ⟨rfl, hrest⟩ := prefixFree_putNat 16 (by decide) (ha d rfl) (hb e rfl) h
          exact ⟨rfl, hrest⟩

/-- There are only so many canonical names. -/
theorem canonical_length {names : OrderedSet String}
    (h : ∀ name ∈ names, canonicalField name = some name) : names.elems.length < 256 ^ 8 := by
  have hsub : names.elems ⊆ Query.all.map Query.name ++
      (Setting.all.map Setting.name ++ Register.all.map Register.name) := by
    intro name hname
    have hcan := h name hname
    unfold canonicalField at hcan
    rcases Option.or_eq_some_iff.mp hcan with hquery | ⟨_, hcan⟩
    · obtain ⟨q, hq, rfl⟩ := Option.map_eq_some_iff.mp hquery
      have hmem : q ∈ Query.all := mem_of_fromCatalog hq
      exact List.mem_append_left _ (List.mem_map_of_mem hmem)
    · refine List.mem_append_right _ ?_
      rcases Option.or_eq_some_iff.mp hcan with hsetting | ⟨_, hcan⟩
      · obtain ⟨setting, hs, rfl⟩ := Option.map_eq_some_iff.mp hsetting
        have hmem : setting ∈ Setting.all := mem_of_fromCatalog hs
        exact List.mem_append_left _ (List.mem_map_of_mem hmem)
      · obtain ⟨register, hr, rfl⟩ := Option.map_eq_some_iff.mp hcan
        have hmem : register ∈ Register.all := mem_of_fromCatalog hr
        exact List.mem_append_right _ (List.mem_map_of_mem hmem)
  refine lt_of_le_of_lt (List.subperm_of_subset names.nodup hsub).length_le ?_
  decide

theorem putFlag_inj {a b : Bool} (h : [if a then (1 : UInt8) else 0] = [if b then 1 else 0]) :
    a = b := by
  cases a <;> cases b <;> first | rfl | cases h

/-- **Equal fingerprints are equal devices**, of one id. -/
theorem eq_of_fingerprintBytes {newV5 : Uuid → List UInt8 → Uuid} {c c' : DeviceConfig}
    (h : Stated newV5 c) (h' : Stated newV5 c') (hid : c.id = c'.id)
    (heq : fingerprintBytes c = fingerprintBytes c') : c = c' := by
  have huuid : c.uuid = c'.uuid := by rw [h.uuid, h'.uuid, fingerprint, fingerprint, heq]
  have hopt : ∀ {o : Option Duration}, (∃ secs, o = interval secs) →
      ∀ d, o = some d → d < 256 ^ 16 := by
    intro o hsecs d hd
    obtain ⟨secs, rfl⟩ := hsecs
    exact interval_lt hd
  have hdur : ∀ {d : Duration}, (∃ secs, d = fromSecs secs) → d < 256 ^ 16 := by
    intro d hsecs
    obtain ⟨secs, rfl⟩ := hsecs
    exact fromSecs_lt secs
  have hname : ∀ {names : OrderedSet String},
      (∀ name ∈ names, canonicalField name = some name) →
      ∀ name ∈ names.elems, name.utf8ByteSize < 2 ^ 63 := by
    intro names hcan name hmem
    exact lt_trans (canonicalField_canonical (hcan name hmem)).2 (by decide)
  unfold fingerprintBytes at heq
  rw [hid] at heq
  have heq := List.append_cancel_left heq
  obtain ⟨hhost, heq⟩ := prefixFree_putStr c.host.2 c'.host.2 heq
  obtain ⟨hport, heq⟩ := prefixFree_putNat 2 (by decide) c.port.toNat_lt c'.port.toNat_lt heq
  obtain ⟨huser, heq⟩ := prefixFree_putStr c.username.2 c'.username.2 heq
  obtain ⟨hpass, heq⟩ := prefixFree_putStr c.password.2 c'.password.2 heq
  obtain ⟨hconnect, heq⟩ := prefixFree_putNat 16 (by decide) (hdur h.connect) (hdur h'.connect) heq
  obtain ⟨hexchange, heq⟩ :=
    prefixFree_putNat 16 (by decide) (hdur h.exchange) (hdur h'.exchange) heq
  obtain ⟨heager, heq⟩ := Bytes.put_append_inj (by simp) (by simp) heq
  obtain ⟨hkeepalive, heq⟩ :=
    prefixFree_putOptDuration (hopt h.keepalive) (hopt h'.keepalive) heq
  obtain ⟨hretry, heq⟩ := prefixFree_putOptDuration (hopt h.retry) (hopt h'.retry) heq
  obtain ⟨hbackoff, heq⟩ := prefixFree_putOptDuration (hopt h.backoff) (hopt h'.backoff) heq
  obtain ⟨hlen, heq⟩ := prefixFree_putNat 8 (by decide) (canonical_length h.canonical)
    (canonical_length h'.canonical) heq
  obtain ⟨hfields, heq⟩ := Bytes.prefixFree_flatMap prefixFree_putStr (hname h.canonical)
    (hname h'.canonical) hlen heq
  obtain ⟨hauto, heq⟩ := prefixFree_putNat 4 (by decide) c.autoDisableAfter.toNat_lt
    c'.autoDisableAfter.toNat_lt heq
  have heal : putOptDuration c.selfHeal ++ [] = putOptDuration c'.selfHeal ++ [] := by rw [heq]
  obtain ⟨hheal, _⟩ := prefixFree_putOptDuration (hopt h.heal) (hopt h'.heal) heal
  exact DeviceConfig.ext huuid hid (Subtype.ext hhost) (UInt16.toNat_inj.mp hport)
    (Subtype.ext huser) (Subtype.ext hpass) hconnect hexchange (putFlag_inj heager) hkeepalive
    hretry hbackoff (OrderedSet.ext hfields) (UInt32.toNat_inj.mp hauto) hheal

end Sismatic.Devices
