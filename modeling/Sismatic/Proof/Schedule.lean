import Sismatic.Server.Dynamic
import Sismatic.Proof.Identity

/-!
# The schedule a list of entries comes to

Folding a list of entries is one pass of pushes: an entry pushes its name, a wildcard
the whole catalog, and a name that is scheduled already is left where it is. What comes
out names each field once, in its canonical spelling, at an interval some entry states
or inherits. Such a schedule is folded to itself.
-/

namespace Sismatic.Configuration

open Devices (fromSecs asSecs asSecs_fromSecs mem_of_fromCatalog)

/-! ## Names -/

theorem fromStr_name : ∀ query ∈ Query.all, Query.fromStr query.name = some query ∧
    query.name ≠ allFields := by
  decide +kernel

theorem canonicalName_query {query : Query} (h : query ∈ Query.all) :
    canonicalName query.name = query.name := by
  obtain ⟨hfrom, hne⟩ := fromStr_name query h
  rw [canonicalName, if_neg hne, hfrom]
  rfl

@[simp] theorem canonicalName_allFields : canonicalName allFields = allFields := if_pos rfl

/-- Only the wildcard is spelled as the wildcard. -/
theorem canonicalName_eq_allFields {name : String} :
    canonicalName name = allFields ↔ name = allFields := by
  constructor
  · intro h
    by_contra hne
    rw [canonicalName, if_neg hne] at h
    cases hquery : Query.fromStr name with
    | none => rw [hquery] at h; exact hne h
    | some query =>
        rw [hquery] at h
        exact (fromStr_name query (mem_of_fromCatalog hquery)).2 h
  · rintro rfl
    exact canonicalName_allFields

/-- The canonical spelling is its own. -/
@[simp] theorem canonicalName_canonicalName (name : String) :
    canonicalName (canonicalName name) = canonicalName name := by
  by_cases hall : name = allFields
  · rw [hall, canonicalName_allFields, canonicalName_allFields]
  · cases hquery : Query.fromStr name with
    | none =>
        have hself : canonicalName name = name := by rw [canonicalName, if_neg hall, hquery]; rfl
        rw [hself, hself]
    | some query =>
        have hname : canonicalName name = query.name := by
          rw [canonicalName, if_neg hall, hquery]; rfl
        rw [hname, canonicalName_query (mem_of_fromCatalog hquery)]

/-- A spelling is known exactly when its canonical one is. -/
theorem fromStr_canonicalName (name : String) :
    (Query.fromStr (canonicalName name)).isSome = (Query.fromStr name).isSome := by
  by_cases hall : name = allFields
  · rw [hall, canonicalName_allFields]
  · cases hquery : Query.fromStr name with
    | none =>
        have hself : canonicalName name = name := by rw [canonicalName, if_neg hall, hquery]; rfl
        rw [hself, hquery]
    | some query =>
        have hname : canonicalName name = query.name := by
          rw [canonicalName, if_neg hall, hquery]; rfl
        rw [hname, (fromStr_name query (mem_of_fromCatalog hquery)).1]

/-! ## Pushing -/

/-- A name, and the interval it is scheduled at. -/
abbrev Entry := String × Option Duration

def FieldConfig.entry (field : FieldConfig) : Entry := (field.name, field.interval)

/-- The names on a schedule. -/
def scheduled (fields : List FieldConfig) : List String := fields.map (·.name)

/-- Push entries, one after another. -/
def pushAll (fields : List FieldConfig) (entries : List Entry) : List FieldConfig :=
  entries.foldl (fun fields entry => push fields entry.1 entry.2) fields

@[simp] theorem pushAll_cons (fields : List FieldConfig) (entry : Entry) (entries : List Entry) :
    pushAll fields (entry :: entries) = pushAll (push fields entry.1 entry.2) entries := rfl

theorem push_of_mem {fields : List FieldConfig} {name : String} (resolved : Option Duration)
    (h : name ∈ scheduled fields) : push fields name resolved = fields := by
  obtain ⟨field, hmem, hname⟩ := List.mem_map.mp h
  exact if_pos (List.any_eq_true.mpr ⟨field, hmem, decide_eq_true hname⟩)

theorem push_of_notMem {fields : List FieldConfig} {name : String} (resolved : Option Duration)
    (h : name ∉ scheduled fields) :
    push fields name resolved = fields ++ [⟨name, resolved⟩] := by
  refine if_neg fun hany => h ?_
  obtain ⟨field, hmem, hname⟩ := List.any_eq_true.mp hany
  exact List.mem_map.mpr ⟨field, hmem, of_decide_eq_true hname⟩

theorem mem_scheduled_push {fields : List FieldConfig} {name other : String}
    {resolved : Option Duration} :
    other ∈ scheduled (push fields name resolved) ↔ other ∈ scheduled fields ∨ other = name := by
  by_cases hmem : name ∈ scheduled fields
  · rw [push_of_mem _ hmem]
    exact ⟨.inl, fun h => h.elim id fun heq => heq ▸ hmem⟩
  · rw [push_of_notMem _ hmem, scheduled, List.map_append, List.mem_append]
    exact or_congr_right List.mem_singleton

theorem nodup_push {fields : List FieldConfig} {name : String} {resolved : Option Duration}
    (h : (scheduled fields).Nodup) : (scheduled (push fields name resolved)).Nodup := by
  by_cases hmem : name ∈ scheduled fields
  · rwa [push_of_mem _ hmem]
  · rw [push_of_notMem _ hmem, scheduled, List.map_append]
    refine List.nodup_append.mpr ⟨h, List.nodup_singleton _, ?_⟩
    intro a ha b hb hab
    obtain rfl := List.mem_singleton.mp hb
    exact hmem (hab ▸ ha)

theorem nodup_pushAll {fields : List FieldConfig} (entries : List Entry)
    (h : (scheduled fields).Nodup) : (scheduled (pushAll fields entries)).Nodup := by
  induction entries generalizing fields with
  | nil => exact h
  | cons entry entries ih => exact ih (nodup_push h)

/-- A schedule names what it named, and what is pushed. -/
theorem mem_scheduled_pushAll {fields : List FieldConfig} {entries : List Entry} {name : String} :
    name ∈ scheduled (pushAll fields entries) ↔
      name ∈ scheduled fields ∨ name ∈ entries.map (·.1) := by
  induction entries generalizing fields with
  | nil => simp [pushAll]
  | cons entry entries ih =>
      rw [pushAll_cons, ih, mem_scheduled_push, List.map_cons, List.mem_cons, or_assoc]

/-- Nothing comes on a schedule but what is pushed. -/
theorem mem_pushAll {fields : List FieldConfig} {entries : List Entry} {field : FieldConfig}
    (h : field ∈ pushAll fields entries) : field ∈ fields ∨ field.entry ∈ entries := by
  induction entries generalizing fields with
  | nil => exact .inl h
  | cons entry entries ih =>
      rw [pushAll_cons] at h
      rcases ih h with hpush | hrest
      · by_cases hmem : entry.1 ∈ scheduled fields
        · rw [push_of_mem _ hmem] at hpush
          exact .inl hpush
        · rw [push_of_notMem _ hmem] at hpush
          rcases List.mem_append.mp hpush with hold | hnew
          · exact .inl hold
          · obtain rfl := List.mem_singleton.mp hnew
            exact .inr List.mem_cons_self
      · exact .inr (List.mem_cons_of_mem _ hrest)

/-- Names that are new and distinct are all scheduled, in order. -/
theorem pushAll_of_nodup {fields more : List FieldConfig}
    (h : (scheduled (fields ++ more)).Nodup) :
    pushAll fields (more.map FieldConfig.entry) = fields ++ more := by
  induction more generalizing fields with
  | nil => exact (List.append_nil _).symm
  | cons field more ih =>
      have hnew : field.name ∉ scheduled fields := by
        rw [scheduled, List.map_append] at h
        exact fun hmem => (List.nodup_append.mp h).2.2 _ hmem _ List.mem_cons_self rfl
      rw [List.map_cons, pushAll_cons]
      simp only [FieldConfig.entry]
      rw [push_of_notMem _ hnew]
      have hsplit : fields ++ field :: more = (fields ++ [field]) ++ more := by
        rw [List.append_assoc, List.singleton_append]
      rw [hsplit] at h ⊢
      exact ih h

/-! ## Explicit mentions -/

theorem mention_of_notMem {entries : List Entry} {name : String} (resolved : Option Duration)
    (h : name ∉ entries.map (·.1)) :
    mention name resolved entries = entries ++ [(name, resolved)] := by
  induction entries with
  | nil => rfl
  | cons entry entries ih =>
      rw [List.map_cons, List.mem_cons, not_or] at h
      rw [mention, if_neg (Ne.symm h.1), ih h.2, List.cons_append]

/-- What is kept of a mention is what was kept before, or what it says. -/
theorem mem_mention {entries : List Entry} {name : String} {resolved : Option Duration}
    {entry : Entry} (h : entry ∈ mention name resolved entries) :
    entry ∈ entries ∨ entry = (name, resolved) := by
  induction entries with
  | nil => exact .inr (List.mem_singleton.mp h)
  | cons first entries ih =>
      rw [mention] at h
      split at h
      · rcases List.mem_cons.mp h with heq | hrest
        · exact .inr heq
        · exact .inl (List.mem_cons_of_mem _ hrest)
      · rcases List.mem_cons.mp h with rfl | hrest
        · exact .inl List.mem_cons_self
        · exact (ih hrest).imp (List.mem_cons_of_mem _) id

/-- An interval some number of seconds stands for. -/
def Stated (resolved : Option Duration) : Prop := ∃ secs, resolved = handleInterval secs

theorem handleInterval_secs {resolved : Option Duration} (h : Stated resolved) :
    handleInterval (secs resolved) = resolved := by
  obtain ⟨n, rfl⟩ := h
  unfold handleInterval
  split
  case isTrue hpos =>
    rw [secs, Option.map_some, Option.getD_some, asSecs_fromSecs, if_pos hpos]
  case isFalse => rfl

theorem stated_interval {default : Option Duration} (h : Stated default) (field : RawField) :
    Stated (field.interval default) := by
  unfold RawField.interval
  cases field.intervalSecs with
  | none => exact h
  | some n => exact ⟨n, rfl⟩

theorem stated_explicitFields {default : Option Duration} (h : Stated default)
    (raw : List RawField) : ∀ entry ∈ explicitFields default raw, Stated entry.2 := by
  unfold explicitFields
  have hfold : ∀ (named : List RawField) (entries : List Entry), (∀ e ∈ entries, Stated e.2) →
      ∀ e ∈ named.foldl (fun explicit field => mention field.name (field.interval default) explicit)
        entries, Stated e.2 := by
    intro named
    induction named with
    | nil => exact fun _ hentries => hentries
    | cons field named ih =>
        intro entries hentries
        refine ih _ fun e he => ?_
        rcases mem_mention he with hold | rfl
        · exact hentries e hold
        · exact stated_interval h field
  exact hfold _ [] fun e he => nomatch he

theorem mem_of_explicitInterval {entries : List Entry} {name : String} {resolved : Option Duration}
    (h : explicitInterval entries name = some resolved) : (name, resolved) ∈ entries := by
  obtain ⟨entry, hfind, rfl⟩ := Option.map_eq_some_iff.mp h
  have hname := List.find?_some hfind
  simp only [decide_eq_true_eq] at hname
  rw [← hname]
  exact List.mem_of_find?_eq_some hfind

/-! ## Folding -/

/-- The entries with every name in its canonical spelling. -/
def canonicalRaw (raw : List RawField) : List RawField :=
  raw.map fun field => { field with name := canonicalName field.name }

/-- What one entry pushes. -/
def lays (explicit : List Entry) (default : Option Duration) (field : RawField) : List Entry :=
  if field.isWildcard then
    Query.all.map fun query => (query.name,
      (explicitInterval explicit query.name).getD (field.interval default))
  else [(field.name, (explicitInterval explicit field.name).getD default)]

theorem layOut_eq (explicit : List Entry) (default : Option Duration) (fields : List FieldConfig)
    (field : RawField) :
    layOut explicit default fields field = pushAll fields (lays explicit default field) := by
  unfold layOut lays pushAll
  split
  · rw [List.foldl_map]
  · rfl

/-- **A schedule is one pass of pushes.** -/
theorem resolveFields_eq (raw : List RawField) (default : Option Duration) :
    resolveFields raw default = pushAll [] ((canonicalRaw raw).flatMap
      (lays (explicitFields default (canonicalRaw raw)) default)) := by
  have hfold : ∀ (explicit : List Entry) (raw : List RawField) (fields : List FieldConfig),
      raw.foldl (layOut explicit default) fields =
        pushAll fields (raw.flatMap (lays explicit default)) := by
    intro explicit raw
    induction raw with
    | nil => exact fun _ => rfl
    | cons field raw ih =>
        intro fields
        rw [List.foldl_cons, ih, layOut_eq, List.flatMap_cons, pushAll, pushAll, pushAll,
          List.foldl_append]
  exact hfold _ _ []

theorem isWildcard_iff {field : RawField} : field.isWildcard = true ↔ field.name = allFields :=
  beq_iff_eq

/-- A schedule that can be folded to itself. -/
structure Settled (fields : List FieldConfig) : Prop where
  distinct : (scheduled fields).Nodup
  canonical : ∀ field ∈ fields, canonicalName field.name = field.name
  explicit : ∀ field ∈ fields, field.name ≠ allFields
  stated : ∀ field ∈ fields, Stated field.interval

/-- What an entry pushes is a canonical name at an interval that was stated. -/
theorem lays_settled {default : Option Duration} (hdefault : Stated default)
    {raw : List RawField} {field : RawField} (hfield : field ∈ canonicalRaw raw) :
    ∀ entry ∈ lays (explicitFields default (canonicalRaw raw)) default field,
      canonicalName entry.1 = entry.1 ∧ entry.1 ≠ allFields ∧ Stated entry.2 := by
  have hlookup : ∀ name fill, Stated fill →
      Stated ((explicitInterval (explicitFields default (canonicalRaw raw)) name).getD fill) := by
    intro name fill hfill
    cases hfind : explicitInterval (explicitFields default (canonicalRaw raw)) name with
    | none => exact hfill
    | some resolved =>
        exact stated_explicitFields hdefault _ _ (mem_of_explicitInterval hfind)
  obtain ⟨written, -, rfl⟩ := List.mem_map.mp hfield
  intro entry hentry
  unfold lays at hentry
  split at hentry
  case isTrue =>
    obtain ⟨query, hquery, rfl⟩ := List.mem_map.mp hentry
    exact ⟨canonicalName_query hquery, (fromStr_name query hquery).2,
      hlookup _ _ (stated_interval hdefault _)⟩
  case isFalse hwild =>
    obtain rfl := List.mem_singleton.mp hentry
    exact ⟨canonicalName_canonicalName _, fun h => hwild (isWildcard_iff.mpr h),
      hlookup _ _ hdefault⟩

/-- **Whatever is folded, what comes out is settled.** -/
theorem resolveFields_settled {default : Option Duration} (hdefault : Stated default)
    (raw : List RawField) : Settled (resolveFields raw default) := by
  have hentry : ∀ field ∈ resolveFields raw default,
      canonicalName field.name = field.name ∧ field.name ≠ allFields ∧ Stated field.interval := by
    intro field hfield
    rw [resolveFields_eq] at hfield
    rcases mem_pushAll hfield with hnil | hpushed
    · cases hnil
    · obtain ⟨written, hwritten, hlays⟩ := List.mem_flatMap.mp hpushed
      exact lays_settled hdefault hwritten _ hlays
  refine ⟨?_, fun f hf => (hentry f hf).1, fun f hf => (hentry f hf).2.1,
    fun f hf => (hentry f hf).2.2⟩
  rw [resolveFields_eq]
  exact nodup_pushAll _ List.nodup_nil

/-- A schedule names the canonical spellings, and the catalog where there is a wildcard. -/
theorem mem_scheduled_resolveFields {raw : List RawField} {default : Option Duration}
    {name : String} :
    name ∈ scheduled (resolveFields raw default) ↔
      (∃ field ∈ raw, field.name ≠ allFields ∧ canonicalName field.name = name) ∨
      ((∃ field ∈ raw, field.name = allFields) ∧ ∃ query ∈ Query.all, query.name = name) := by
  have hlays : ∀ explicit (field : RawField), name ∈ (lays explicit default field).map (·.1) ↔
      (field.name ≠ allFields ∧ field.name = name) ∨
        (field.name = allFields ∧ ∃ query ∈ Query.all, query.name = name) := by
    intro explicit field
    unfold lays
    split
    case isTrue hwild =>
      have hname := isWildcard_iff.mp hwild
      simp only [List.map_map, List.mem_map, Function.comp_apply, hname, ne_eq,
        not_true_eq_false, false_and, true_and, false_or]
    case isFalse hwild =>
      have hname : field.name ≠ allFields := fun h => hwild (isWildcard_iff.mpr h)
      simp only [List.map_cons, List.map_nil, List.mem_singleton, hname, ne_eq, not_false_iff,
        true_and, false_and, or_false, eq_comm]
  rw [resolveFields_eq, mem_scheduled_pushAll, scheduled, List.map_nil, List.map_flatMap,
    List.mem_flatMap]
  simp only [List.not_mem_nil, false_or, hlays]
  constructor
  · rintro ⟨field, hfield, hcase⟩
    obtain ⟨written, hwritten, rfl⟩ := List.mem_map.mp hfield
    rcases hcase with ⟨hne, hname⟩ | ⟨hall, hquery⟩
    · exact .inl ⟨written, hwritten, fun h => hne (canonicalName_eq_allFields.mpr h), hname⟩
    · exact .inr ⟨⟨written, hwritten, canonicalName_eq_allFields.mp hall⟩, hquery⟩
  · rintro (⟨written, hwritten, hne, hname⟩ | ⟨⟨written, hwritten, hall⟩, hquery⟩)
    · exact ⟨_, List.mem_map_of_mem hwritten,
        .inl ⟨fun h => hne (canonicalName_eq_allFields.mp h), hname⟩⟩
    · exact ⟨_, List.mem_map_of_mem hwritten, .inr ⟨canonicalName_eq_allFields.mpr hall, hquery⟩⟩

/-- A schedule can be queried whole exactly when every entry is the wildcard or a field. -/
theorem queryable_resolveFields {raw : List RawField} {default : Option Duration} :
    (∀ field ∈ resolveFields raw default, (Query.fromStr field.name).isSome) ↔
      ∀ field ∈ raw, field.name = allFields ∨ (Query.fromStr field.name).isSome := by
  have hnames : (∀ field ∈ resolveFields raw default, (Query.fromStr field.name).isSome) ↔
      ∀ name ∈ scheduled (resolveFields raw default), (Query.fromStr name).isSome := by
    rw [scheduled, List.forall_mem_map]
  rw [hnames]
  constructor
  · intro h field hfield
    by_cases hall : field.name = allFields
    · exact .inl hall
    · have := h _ (mem_scheduled_resolveFields.mpr (.inl ⟨field, hfield, hall, rfl⟩))
      rw [fromStr_canonicalName] at this
      exact .inr this
  · intro h name hname
    rcases mem_scheduled_resolveFields.mp hname with ⟨field, hfield, hne, rfl⟩ | ⟨-, query, hq, rfl⟩
    · rw [fromStr_canonicalName]
      exact (h field hfield).resolve_left hne
    · rw [(fromStr_name query hq).1]
      rfl

/-! ## Folding again -/

/-- A schedule as entries that state every interval. -/
def restated (fields : List FieldConfig) : List RawField :=
  fields.map fun field => ⟨field.name, some (secs field.interval)⟩

theorem canonicalRaw_restated {fields : List FieldConfig} (h : Settled fields) :
    canonicalRaw (restated fields) = restated fields := by
  unfold canonicalRaw restated
  rw [List.map_map]
  refine List.map_congr_left fun field hfield => ?_
  simp only [Function.comp_apply, h.canonical field hfield]

/-- Distinct names are kept as they are mentioned. -/
theorem explicitFields_restated {fields : List FieldConfig} (h : Settled fields)
    (default : Option Duration) :
    explicitFields default (restated fields) = fields.map FieldConfig.entry := by
  have hnamed : (restated fields).filter (fun field => !field.isWildcard) = restated fields := by
    refine List.filter_eq_self.mpr fun field hfield => ?_
    obtain ⟨config, hconfig, rfl⟩ := List.mem_map.mp hfield
    simp only [RawField.isWildcard, Bool.not_eq_true', beq_eq_false_iff_ne]
    exact h.explicit config hconfig
  have hfold : ∀ more seen : List FieldConfig, (∀ field ∈ more, Stated field.interval) →
      (scheduled (seen ++ more)).Nodup →
      (restated more).foldl
        (fun explicit field => mention field.name (field.interval default) explicit)
        (seen.map FieldConfig.entry) = (seen ++ more).map FieldConfig.entry := by
    intro more
    induction more with
    | nil => intro seen _ _; rw [List.append_nil]; rfl
    | cons field more ih =>
        intro seen hstated hnodup
        have hsplit : seen ++ field :: more = (seen ++ [field]) ++ more := by
          rw [List.append_assoc, List.singleton_append]
        have hnew : field.name ∉ (seen.map FieldConfig.entry).map (·.1) := by
          rw [List.map_map]
          rw [scheduled, List.map_append] at hnodup
          exact fun hmem => (List.nodup_append.mp hnodup).2.2 _ hmem _ List.mem_cons_self rfl
        have hinterval : RawField.interval ⟨field.name, some (secs field.interval)⟩ default =
            field.interval :=
          handleInterval_secs (hstated field List.mem_cons_self)
        rw [restated, List.map_cons, List.foldl_cons]
        simp only [hinterval]
        rw [mention_of_notMem _ hnew]
        have hnext := ih (seen ++ [field]) (fun f hf => hstated f (List.mem_cons_of_mem _ hf))
          (hsplit ▸ hnodup)
        rw [hsplit, ← hnext, List.map_append]
        rfl
  rw [explicitFields, hnamed]
  exact hfold fields [] h.stated h.distinct

theorem explicitInterval_restated {fields : List FieldConfig} (h : (scheduled fields).Nodup)
    {field : FieldConfig} (hfield : field ∈ fields) :
    explicitInterval (fields.map FieldConfig.entry) field.name = some field.interval := by
  induction fields with
  | nil => cases hfield
  | cons first fields ih =>
      rw [scheduled, List.map_cons, List.nodup_cons] at h
      rw [explicitInterval, List.map_cons, List.find?_cons]
      rcases List.mem_cons.mp hfield with rfl | hrest
      · simp [FieldConfig.entry]
      · have hne : first.name ≠ field.name := fun heq =>
          h.1 (heq ▸ List.mem_map_of_mem hrest)
        have hskip : decide (first.entry.1 = field.name) = false := decide_eq_false hne
        rw [hskip]
        exact ih h.2 hrest

/-- **A settled schedule, restated, is folded to itself, whatever is inherited.** -/
theorem resolveFields_restated {fields : List FieldConfig} (h : Settled fields)
    (default : Option Duration) : resolveFields (restated fields) default = fields := by
  have hlays : ∀ field ∈ fields, lays (fields.map FieldConfig.entry) default
      ⟨field.name, some (secs field.interval)⟩ = [field.entry] := by
    intro field hfield
    have hexplicit : RawField.isWildcard ⟨field.name, some (secs field.interval)⟩ = false :=
      beq_eq_false_iff_ne.mpr (h.explicit field hfield)
    simp only [lays, hexplicit, explicitInterval_restated h.distinct hfield, Option.getD_some,
      Bool.false_eq_true, if_false]
    rfl
  have hall : (restated fields).flatMap (lays (fields.map FieldConfig.entry) default) =
      fields.map FieldConfig.entry := by
    rw [restated, List.flatMap_map, List.flatMap_congr hlays, List.map_eq_flatMap]
  rw [resolveFields_eq, canonicalRaw_restated h, explicitFields_restated h, hall]
  exact pushAll_of_nodup h.distinct

end Sismatic.Configuration
