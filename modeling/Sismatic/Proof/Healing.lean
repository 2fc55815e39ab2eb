import Sismatic.Proof.Reconciled
import Sismatic.Proof.Vetoes

/-!
# Vetoes across edits of the configuration

A poll counts a refusal under the policy of the device it went through, and arms a deadline
from that policy. The deadline is kept with the learned set, and the set travels to every
device that replaces this one. So what a device enforces was armed by a policy that need not
be its own: an edit of the policy changes what is counted next, and no deadline there is.
-/

namespace Sismatic

open Devices

/-! ## Polls and passes, in any order -/

/-- A registry in use. -/
structure Learning where
  registry : LearningRegistry
  /-- Every handle there has been. A poll under way keeps the one it was made through. -/
  filed : List Devices.Device
  /-- What each learned set has been told. -/
  told : Nat → List (FieldName × Evidence)

/-- What happens to a registry: a pass over it, or a poll that a device has answered. -/
inductive LearningAct
  | apply (resolved : Resolved)
  | refused (device : Devices.Device) (field : FieldName) (now : Instant)
  | answered (device : Devices.Device) (field : FieldName)

namespace Learning

/-- The registry a document was built into. -/
def start (resolved : Resolved) : Learning :=
  let registry := LearningRegistry.build resolved
  ⟨registry, registry.registry.devices, fun _ => []⟩

/-- Take a poll through `device` into account; `none` where that panics. -/
def tell (instantEnd : Instant) (w : Learning) (device : Devices.Device) (field : FieldName)
    (evidence : Evidence) : Option Learning :=
  if device ∈ w.filed then
    let set := w.registry.autoDisabled device
    ((w.registry.learned set).tell instantEnd field evidence).map fun learned =>
      { w with
        registry := { w.registry with learned := Function.update w.registry.learned set learned.1 }
        told := Function.update w.told set (w.told set ++ [(field, evidence)]) }
  else some w

def step (instantEnd : Instant) (w : Learning) : LearningAct → Option Learning
  | .apply resolved =>
      let registry := (w.registry.apply resolved).1
      some ⟨registry, registry.registry.devices ++ w.filed, w.told⟩
  -- the threshold and the window are the polled device's own
  | .refused device field now =>
      w.tell instantEnd device field
        (.refused ⟨device.config.autoDisableAfter, device.config.selfHeal, now⟩)
  | .answered device field => w.tell instantEnd device field .answered

/-- Acts one after another; `none` where one of them panics. -/
def run (instantEnd : Instant) (w : Learning) (acts : List LearningAct) : Option Learning :=
  acts.foldlM (step instantEnd) w

/-- What the polls of a field have shown of the recorder behind a device. -/
def shown (w : Learning) (d : Devices.Device) (field : FieldName) : List Evidence :=
  evidenceOf field (w.told (w.registry.autoDisabled d))

end Learning

/-! ## What is kept -/

/-- A handle there has been shares one of the sets that have been made. -/
def Devices.LearningRegistry.Shares (R : LearningRegistry) (d : Devices.Device) : Prop :=
  d.handle < R.registry.made ∧ R.autoDisabled d < R.madeSets

/-- A set that has been made since is a new one. -/
def MadeNew (R after : LearningRegistry) : Prop :=
  ∀ set, R.madeSets ≤ set → set < after.madeSets → after.learned set = .new

theorem MadeNew.refl (R : LearningRegistry) : MadeNew R R :=
  fun _ hle hlt => absurd hlt (Nat.not_lt.mpr hle)

theorem MadeNew.trans {R after later : LearningRegistry} (h : MadeNew R after)
    (h' : MadeNew after later) (hext : after.Extends later) : MadeNew R later := by
  intro set hle hlt
  rcases Nat.lt_or_ge set after.madeSets with hearly | hlate
  · rw [hext.learned set hearly]
    exact h set hle hearly
  · exact h' set hlate hlt

theorem insertNew_madeNew (R : LearningRegistry) (config : DeviceConfig) :
    MadeNew R (R.insertNew config) := by
  intro set hle hlt
  have hset : set = R.madeSets := Nat.le_antisymm (Nat.le_of_lt_succ hlt) hle
  rw [hset]
  exact Function.update_self ..

theorem applyOne_madeNew (acc : LearningRegistry × RegistryChange) (config : DeviceConfig) :
    MadeNew acc.1 (LearningRegistry.applyOne acc config).1 := by
  unfold LearningRegistry.applyOne
  cases acc.1.registry.device config.id with
  | none => exact insertNew_madeNew acc.1 config
  | some existing =>
      dsimp only
      split
      · exact .refl _
      · exact fun set hle hlt => absurd hlt (Nat.not_lt.mpr hle)

theorem foldl_applyOne_madeNew (configs : List DeviceConfig)
    (acc : LearningRegistry × RegistryChange) (h : acc.1.Kept) :
    (configs.foldl LearningRegistry.applyOne acc).1.Kept ∧
      acc.1.Extends (configs.foldl LearningRegistry.applyOne acc).1 ∧
      MadeNew acc.1 (configs.foldl LearningRegistry.applyOne acc).1 := by
  induction configs generalizing acc with
  | nil => exact ⟨h, .refl _, .refl _⟩
  | cons config configs ih =>
      obtain ⟨hkept, hext, -, -⟩ := applyOne_spec h config
      obtain ⟨hkept', hext', hnew⟩ := ih _ hkept
      rw [List.foldl_cons]
      exact ⟨hkept', hext.trans hext', (applyOne_madeNew acc config).trans hnew hext'⟩

theorem foldl_insertNew_madeNew (configs : List DeviceConfig) (R : LearningRegistry) (h : R.Kept) :
    (configs.foldl LearningRegistry.insertNew R).Kept ∧
      R.Extends (configs.foldl LearningRegistry.insertNew R) ∧
      MadeNew R (configs.foldl LearningRegistry.insertNew R) := by
  induction configs generalizing R with
  | nil => exact ⟨h, .refl _, .refl _⟩
  | cons config configs ih =>
      obtain ⟨hkept, hext, -, -⟩ := insertNew_spec h config
      obtain ⟨hkept', hext', hnew⟩ := ih _ hkept
      rw [List.foldl_cons]
      exact ⟨hkept', hext.trans hext', (insertNew_madeNew R config).trans hnew hext'⟩

theorem Devices.LearningRegistry.Shares.later {R after : LearningRegistry} {d : Devices.Device}
    (h : R.Shares d) (hext : R.Extends after) :
    after.autoDisabled d = R.autoDisabled d ∧ after.Shares d := by
  have hsame : after.autoDisabled d = R.autoDisabled d := hext.sharedBy d.handle h.1
  refine ⟨hsame, h.1.trans_le hext.made, ?_⟩
  rw [hsame]
  exact h.2.trans_le hext.madeSets

/-- What every set has learned is what it has been told. -/
structure Learning.Faithful (w : Learning) : Prop where
  kept : w.registry.Kept
  shares : ∀ d ∈ w.filed, w.registry.Shares d
  registered : ∀ d ∈ w.registry.registry.devices, d ∈ w.filed
  records : ∀ set < w.registry.madeSets,
    Records (w.registry.learned set) ((w.told set).foldl tally fun _ => [])
  untold : ∀ set, w.registry.madeSets ≤ set → w.told set = []

/-- Taking groups for other groups and devices away keeps what the sets have learned. -/
theorem Devices.LearningRegistry.Kept.apply {R : LearningRegistry} (h : R.Kept)
    (resolved : Resolved) :
    (R.apply resolved).1.Kept ∧ MadeNew R (R.apply resolved).1 := by
  obtain ⟨hkept, -, hnew⟩ :=
    foldl_applyOne_madeNew (Registry.desired resolved.devices) (R, ⟨[], [], [], 0⟩) h
  refine ⟨⟨?_, ?_, ?_⟩, hnew⟩
  · exact hkept.oneEach.sublist (List.filter_sublist.map _)
  · exact fun d hd => hkept.handles d (List.mem_of_mem_filter hd)
  · exact fun d hd => hkept.sets d (List.mem_of_mem_filter hd)

theorem Learning.faithful_start (resolved : Resolved) : (Learning.start resolved).Faithful := by
  have hnone : LearningRegistry.Kept ⟨⟨[], [], 0⟩, fun _ => 0, fun _ => .new, 0⟩ :=
    ⟨List.Pairwise.nil, fun d hd => (nomatch hd), fun d hd => (nomatch hd)⟩
  obtain ⟨hkept, -, hnew⟩ := foldl_insertNew_madeNew resolved.devices _ hnone
  refine ⟨⟨hkept.oneEach, hkept.handles, hkept.sets⟩,
    fun d hd => ⟨hkept.handles d hd, hkept.sets d hd⟩, fun d hd => hd, ?_, fun _ _ => rfl⟩
  intro set hlt
  have hlearned : (Learning.start resolved).registry.learned set = .new :=
    hnew set (Nat.zero_le _) hlt
  rw [hlearned]
  exact records_new

theorem Learning.Faithful.apply {w : Learning} (h : w.Faithful) (resolved : Resolved) :
    Learning.Faithful ⟨(w.registry.apply resolved).1,
      (w.registry.apply resolved).1.registry.devices ++ w.filed, w.told⟩ := by
  obtain ⟨hkept, hnew⟩ := h.kept.apply resolved
  have hext := extends_apply h.kept resolved
  refine ⟨hkept, ?_, fun d hd => List.mem_append_left _ hd, ?_, ?_⟩
  · intro d hd
    rcases List.mem_append.mp hd with hd | hd
    · exact ⟨hkept.handles d hd, hkept.sets d hd⟩
    · exact ((h.shares d hd).later hext).2
  · intro set hlt
    dsimp only at hlt ⊢
    rcases Nat.lt_or_ge set w.registry.madeSets with hearly | hlate
    · rw [hext.learned set hearly]
      exact h.records set hearly
    · rw [hnew set hlate hlt, h.untold set hlate]
      exact records_new
  · exact fun set hle => h.untold set (hext.madeSets.trans hle)

theorem Learning.Faithful.tell {instantEnd : Instant} {w w' : Learning} (h : w.Faithful)
    {device : Devices.Device} {field : FieldName} {evidence : Evidence}
    (htell : w.tell instantEnd device field evidence = some w') : w'.Faithful := by
  unfold Learning.tell at htell
  split at htell
  · rename_i hfiled
    obtain ⟨hhandle, hset⟩ := h.shares device hfiled
    obtain ⟨⟨learned, report⟩, htold, rfl⟩ := Option.map_eq_some_iff.mp htell
    refine ⟨⟨h.kept.oneEach, h.kept.handles, h.kept.sets⟩, h.shares, h.registered, ?_, ?_⟩
    · intro set hlt
      dsimp only
      by_cases heq : set = w.registry.autoDisabled device
      · rw [heq, Function.update_self, Function.update_self, List.foldl_append]
        rcases @tell_records instantEnd _ _ (h.records _ hset) (field, evidence) with
          ⟨-, hnone⟩ | ⟨-, learned', report', hsome, hrecords, -⟩
        · rw [htold] at hnone
          cases hnone
        · rw [htold] at hsome
          obtain ⟨rfl, -⟩ := Prod.mk.inj (Option.some.inj hsome)
          exact hrecords
      · rw [Function.update_of_ne heq, Function.update_of_ne heq]
        exact h.records set hlt
    · intro set hle
      have hne : set ≠ w.registry.autoDisabled device := by
        rintro rfl
        exact absurd hset (Nat.not_lt.mpr hle)
      dsimp only
      rw [Function.update_of_ne hne]
      exact h.untold set hle
  · obtain rfl := Option.some.inj htell
    exact h

theorem Learning.Faithful.step {instantEnd : Instant} {w w' : Learning} (h : w.Faithful)
    {act : LearningAct} (hstep : w.step instantEnd act = some w') : w'.Faithful := by
  cases act with
  | apply resolved =>
      obtain rfl := Option.some.inj hstep
      exact h.apply resolved
  | refused device field now => exact h.tell hstep
  | answered device field => exact h.tell hstep

theorem Learning.Faithful.run {instantEnd : Instant} {acts : List LearningAct} {w w' : Learning}
    (h : w.Faithful) (hrun : w.run instantEnd acts = some w') : w'.Faithful := by
  induction acts generalizing w with
  | nil =>
      obtain rfl := Option.some.inj hrun
      exact h
  | cons act acts ih =>
      unfold Learning.run at hrun
      rw [List.foldlM_cons] at hrun
      obtain ⟨mid, hstep, hrest⟩ := Option.bind_eq_some_iff.mp hrun
      exact ih (h.step hstep) hrest

/-- **What a device has learned of a field is what the polls of it have shown,** through this
device and through those it replaced. -/
theorem Learning.Faithful.recorded {w : Learning} (h : w.Faithful) {d : Devices.Device}
    (hd : d ∈ w.filed) (field : FieldName) :
    (w.registry.learned (w.registry.autoDisabled d)).fields field =
      recordOf (standing (w.shown d field)) := by
  refine (h.records _ (h.shares d hd).2 field).trans ?_
  rw [foldl_tally]
  rfl

/-! ## What an edit leaves in force -/

def Devices.Evidence.refusal : Evidence → Option Devices.Refused
  | .refused r => some r
  | .answered => none

/-- The last refusal of a field, whatever came of it. -/
def lastRefused (evidence : List Evidence) : Option Devices.Refused :=
  (evidence.filterMap Evidence.refusal).getLast?

/--
What a device enforces of a field, from `now` on, is what its own configuration asks for: with
the inference off nothing is inferred, and an inferred veto ends a window after the last refusal.
-/
def HealsInTime (w : Learning) (d : Devices.Device) (field : FieldName) (now : Instant) : Prop :=
  ∀ t, now ≤ t →
    ∀ retryIn, fieldVeto d.config (w.registry.learned (w.registry.autoDisabled d)) field t =
        some (.inferred, retryIn) →
      d.config.autoDisableAfter ≠ 0 ∧
        ∀ wait, d.config.selfHeal = some wait →
          ∃ last, lastRefused (w.shown d field) = some last ∧ t < last.now + wait

/-- The refusal that armed a field's veto has run out, or armed it for no longer than the device's
own window, with the inference on. -/
def InTime (config : DeviceConfig) (last : Option Devices.Refused) (now : Instant)
    (r : Devices.Refused) : Prop :=
  (∃ armed, r.selfHeal = some armed ∧ r.now + armed ≤ now) ∨
    config.autoDisableAfter ≠ 0 ∧
      ∀ wait, config.selfHeal = some wait →
        ∃ armed l, r.selfHeal = some armed ∧ last = some l ∧ r.now + armed ≤ l.now + wait

/-- A field that is not declared is vetoed while the refusal that armed its veto says so. -/
theorem fieldVeto_inferred {config : DeviceConfig} {learned : AutoDisabled} {field : FieldName}
    {rs : List Devices.Refused} (hrecord : learned.fields field = recordOf rs)
    (hdeclared : field ∉ config.disabledFields) (t : Instant) :
    (∃ retryIn, fieldVeto config learned field t = some (.inferred, retryIn)) ↔
      ∃ r, arming 0 rs = some r ∧ ∀ armed, r.selfHeal = some armed → t < r.now + armed := by
  unfold fieldVeto
  rw [if_neg hdeclared, veto_of_record hrecord]
  cases arming 0 rs with
  | none => simp
  | some r =>
      simp only [Option.bind_some, Option.map_eq_some_iff, Prod.mk.injEq, true_and,
        Option.some.injEq, exists_eq_left']
      rw [← vetoAt_isSome, Option.isSome_iff_exists]
      constructor
      · rintro ⟨retryIn, retryIn', hveto, -⟩
        exact ⟨retryIn', hveto⟩
      · rintro ⟨retryIn, hveto⟩
        exact ⟨retryIn, retryIn, hveto, rfl⟩

/-- A declared field is vetoed as declared. -/
theorem fieldVeto_declared {config : DeviceConfig} (learned : AutoDisabled) {field : FieldName}
    (h : field ∈ config.disabledFields) (t : Instant) (retryIn : Option Duration) :
    fieldVeto config learned field t ≠ some (.inferred, retryIn) := by
  unfold fieldVeto
  rw [if_pos h]
  intro heq
  cases heq

/--
**A device heals as its configuration says exactly if the refusal that armed a veto was counted
under a policy that ends no later,** or has run out already.
-/
theorem healsInTime_iff {instantEnd : Instant} {resolved : Resolved} {acts : List LearningAct}
    {w : Learning} (h : (Learning.start resolved).run instantEnd acts = some w) {id : DeviceId}
    {d : Devices.Device} (hd : w.registry.registry.device id = some d) (field : FieldName)
    (now : Instant) :
    HealsInTime w d field now ↔ field ∈ d.config.disabledFields ∨
      ∀ r, arming 0 (standing (w.shown d field)) = some r →
        InTime d.config (lastRefused (w.shown d field)) now r := by
  have hfaithful := (Learning.faithful_start resolved).run h
  have hmem := hfaithful.registered d ((device_eq_some hfaithful.kept.oneEach).mp hd).1
  have hrecord := hfaithful.recorded hmem field
  unfold HealsInTime
  generalize lastRefused (w.shown d field) = last
  by_cases hdeclared : field ∈ d.config.disabledFields
  · refine iff_of_true ?_ (.inl hdeclared)
    exact fun t _ retryIn hveto => absurd hveto (fieldVeto_declared _ hdeclared t retryIn)
  · have hinferred := fun t => @fieldVeto_inferred _ _ _ _ hrecord hdeclared t
    rw [or_iff_right hdeclared]
    constructor
    · intro hheals r harmed
      -- what holds of every instant at which the veto is in force
      have hthen : ∀ t, now ≤ t → (∀ armed, r.selfHeal = some armed → t < r.now + armed) →
          d.config.autoDisableAfter ≠ 0 ∧ ∀ wait, d.config.selfHeal = some wait →
            ∃ l, last = some l ∧ t < l.now + wait := by
        intro t ht hopen
        obtain ⟨retryIn, hveto⟩ := (hinferred t).mpr ⟨r, harmed, hopen⟩
        exact hheals t ht retryIn hveto
      -- the veto is not in force when the device's own window has run out
      have hlate : ∀ l wait, last = some l → d.config.selfHeal = some wait →
          ¬ ∀ armed, r.selfHeal = some armed → max now (l.now + wait) < r.now + armed := by
        intro l wait hlast hwait hopen
        obtain ⟨-, hwindow⟩ := hthen _ (Nat.le_max_left _ _) hopen
        obtain ⟨l', hlast', hlt⟩ := hwindow wait hwait
        obtain rfl := Option.some.inj (hlast.symm.trans hlast')
        exact absurd hlt (Nat.not_lt.mpr (Nat.le_max_right _ _))
      by_cases hover : ∃ armed, r.selfHeal = some armed ∧ r.now + armed ≤ now
      · exact .inl hover
      · obtain ⟨hon, hwindow⟩ := hthen now (Nat.le_refl now) fun armed hheal =>
          Nat.lt_of_not_le fun hle => hover ⟨armed, hheal, hle⟩
        refine .inr ⟨hon, fun wait hwait => ?_⟩
        obtain ⟨l, hlast, -⟩ := hwindow wait hwait
        have hclosed := hlate l wait hlast hwait
        simp only [not_forall, Nat.not_lt] at hclosed
        obtain ⟨armed, hheal, hle⟩ := hclosed
        refine ⟨armed, l, hheal, hlast, ?_⟩
        rcases Nat.le_total now (l.now + wait) with hnow | hnow
        · rwa [Nat.max_eq_right hnow] at hle
        · rw [Nat.max_eq_left hnow] at hle
          exact absurd ⟨armed, hheal, hle⟩ hover
    · intro htime t ht retryIn hveto
      obtain ⟨r, harmed, hopen⟩ := (hinferred t).mp ⟨retryIn, hveto⟩
      rcases htime r harmed with ⟨armed, hheal, hover⟩ | ⟨hon, hwindow⟩
      · exact absurd (hopen armed hheal) (Nat.not_lt.mpr (hover.trans ht))
      · refine ⟨hon, fun wait hwait => ?_⟩
        obtain ⟨armed, l, hheal, hlast, hle⟩ := hwindow wait hwait
        exact ⟨l, hlast, (hopen armed hheal).trans_le hle⟩

/-! ### Three edits -/

/-- A recorder whose fields are given up at the first refusal, and tried again after a minute. -/
def retried : DeviceConfig :=
  { recorder #v[0x21, 0x38, 0x86, 0x03, 0x2a, 0x97, 0x51, 0x4c, 0x97, 0xc4, 0x70, 0xf4, 0xff, 0x1a,
      0x6a, 0x73] "a" ⟨"10.0.0.1", firstHost_fits⟩ 22023 with
    autoDisableAfter := 1, selfHeal := some 60000000000 }

/-- The same, and never tried again. -/
def unretried : DeviceConfig :=
  { recorder #v[0xf9, 0x34, 0x38, 0xf3, 0x79, 0x76, 0x5b, 0x46, 0xbd, 0x24, 0x47, 0xfe, 0x55, 0x7e,
      0x9b, 0x3b] "a" ⟨"10.0.0.1", firstHost_fits⟩ 22023 with
    autoDisableAfter := 1 }

/-- The same, with nothing inferred. -/
def uninferred : DeviceConfig :=
  { recorder #v[0x07, 0xdb, 0x89, 0x62, 0xd9, 0xe2, 0x56, 0x6d, 0xac, 0x64, 0x7e, 0xc0, 0xce, 0x03,
      0xb1, 0x28] "a" ⟨"10.0.0.1", firstHost_fits⟩ 22023 with
    autoDisableAfter := 0 }

/-- A field is refused through one device, and another takes its place. -/
def refusedThenEdited (before after : DeviceConfig) : List LearningAct :=
  [.refused ⟨0, before⟩ "FIRMWARE" 0, .apply ⟨[after], []⟩]

/-- A window that is taken away is served out. -/
theorem healsInTime_unretried : ∃ w d,
    (Learning.start ⟨[retried], []⟩).run clockEnd (refusedThenEdited retried unretried) = some w ∧
      w.registry.registry.device "a" = some d ∧ HealsInTime w d "FIRMWARE" 1 := by
  refine ⟨_, ⟨1, unretried⟩, rfl, rfl, ?_⟩
  refine (@healsInTime_iff clockEnd ⟨[retried], []⟩ (refusedThenEdited retried unretried) _ rfl
    "a" _ rfl "FIRMWARE" 1).mpr (.inr fun r _ => .inr ⟨by decide, fun wait hwait => ?_⟩)
  cases hwait

/-- A window that is given comes too late for a veto with no end, and to take the inference away
takes no veto with it. -/
theorem not_healsInTime_edited :
    (∃ w d, (Learning.start ⟨[unretried], []⟩).run clockEnd (refusedThenEdited unretried retried) =
        some w ∧
      w.registry.registry.device "a" = some d ∧ ¬ HealsInTime w d "FIRMWARE" 1) ∧
    ∃ w d, (Learning.start ⟨[unretried], []⟩).run clockEnd
        (refusedThenEdited unretried uninferred) = some w ∧
      w.registry.registry.device "a" = some d ∧ ¬ HealsInTime w d "FIRMWARE" 1 := by
  refine ⟨⟨_, ⟨1, retried⟩, rfl, rfl, fun hheals => ?_⟩, _, ⟨1, uninferred⟩, rfl, rfl,
    fun hheals => ?_⟩
  · obtain ⟨-, hwindow⟩ := hheals 60000000000 (by decide) none rfl
    obtain ⟨last, hlast, hlt⟩ := hwindow 60000000000 rfl
    obtain rfl := Option.some.inj hlast
    exact absurd hlt (by decide)
  · exact (hheals 1 (Nat.le_refl _) none rfl).1 rfl

end Sismatic
