import Sismatic.Proof.Schedule

/-!
# What each name is scheduled at

A name is scheduled at what its last mention says, wherever the wildcards stand, and a name
nobody mentions at what the first wildcard says. The two passes of the folding each settle
one of the two: the first keeps one entry for a name and overwrites it, the second keeps
whatever it laid out first.
-/

namespace Sismatic.Configuration

/-- The last entry that mentions a name itself, however it is spelled there. -/
def lastMention (raw : List RawField) (name : String) : Option RawField :=
  raw.reverse.find? fun field => !field.isWildcard && canonicalName field.name == name

/-- The first wildcard. -/
def firstWildcard (raw : List RawField) : Option RawField := raw.find? RawField.isWildcard

/-- What a schedule says of a name: nothing, or the interval it is at. -/
def intervalOf (fields : List FieldConfig) (name : String) : Option (Option Duration) :=
  (fields.find? fun field => field.name = name).map (·.interval)

/-! ## Looking a name up -/

theorem explicitInterval_append (entries later : List Entry) (name : String) :
    explicitInterval (entries ++ later) name =
      (explicitInterval entries name).or (explicitInterval later name) := by
  rw [explicitInterval, List.find?_append, Option.map_or]
  rfl

theorem explicitInterval_eq_none {entries : List Entry} {name : String} :
    explicitInterval entries name = none ↔ name ∉ entries.map (·.1) := by
  rw [explicitInterval, Option.map_eq_none_iff, List.find?_eq_none]
  simp only [decide_eq_true_eq, List.mem_map, not_exists, not_and]

/-- Entries that say something of each name of a list say it of each of those names. -/
theorem explicitInterval_map {names : List String} (stated : String → Option Duration)
    (name : String) :
    explicitInterval (names.map fun name => (name, stated name)) name =
      if name ∈ names then some (stated name) else none := by
  induction names with
  | nil => rfl
  | cons first names ih =>
      rw [List.map_cons, explicitInterval, List.find?_cons]
      by_cases heq : first = name
      · rw [decide_eq_true heq, if_pos (List.mem_cons.mpr (.inl heq.symm)), heq]
        rfl
      · rw [decide_eq_false heq]
        refine ih.trans ?_
        simp only [List.mem_cons, Ne.symm heq, false_or]

theorem intervalOf_of_mem {fields : List FieldConfig} (h : (scheduled fields).Nodup)
    {field : FieldConfig} (hfield : field ∈ fields) :
    intervalOf fields field.name = some field.interval := by
  have hentries := explicitInterval_restated h hfield
  rw [explicitInterval, List.find?_map, Option.map_map] at hentries
  exact hentries

theorem intervalOf_eq_none {fields : List FieldConfig} {name : String} :
    intervalOf fields name = none ↔ name ∉ scheduled fields := by
  rw [intervalOf, Option.map_eq_none_iff, List.find?_eq_none]
  simp only [decide_eq_true_eq, scheduled, List.mem_map, not_exists, not_and]

theorem lastMention_spec {raw : List RawField} {name : String} {field : RawField}
    (h : lastMention raw name = some field) :
    field ∈ raw ∧ field.name ≠ allFields ∧ canonicalName field.name = name := by
  unfold lastMention at h
  have hboth := List.find?_some h
  obtain ⟨hexplicit, hname⟩ := Bool.and_eq_true_iff.mp hboth
  refine ⟨List.mem_reverse.mp (List.mem_of_find?_eq_some h), fun hall => ?_, beq_iff_eq.mp hname⟩
  rw [isWildcard_iff.mpr hall] at hexplicit
  cases hexplicit

/-! ## The first pass -/

/-- The last mention of a name overwrites what was kept for it. -/
theorem explicitInterval_mention (entries : List Entry) (mentioned name : String)
    (resolved : Option Duration) :
    explicitInterval (mention mentioned resolved entries) name =
      if mentioned = name then some resolved else explicitInterval entries name := by
  induction entries with
  | nil =>
      rw [mention, explicitInterval, List.find?_singleton]
      by_cases heq : mentioned = name
      · simp [heq]
      · simp [heq, explicitInterval]
  | cons entry entries ih =>
      rw [mention]
      by_cases hentry : entry.1 = mentioned
      · rw [if_pos hentry, explicitInterval, explicitInterval, List.find?_cons, List.find?_cons]
        by_cases heq : mentioned = name
        · simp [heq]
        · simp [heq, hentry]
      · rw [if_neg hentry, explicitInterval, List.find?_cons]
        by_cases hname : entry.1 = name
        · have hother : mentioned ≠ name := fun heq => hentry (hname.trans heq.symm)
          simp [hname, hother, explicitInterval]
        · rw [decide_eq_false hname]
          refine ih.trans ?_
          rw [explicitInterval, explicitInterval, List.find?_cons, decide_eq_false hname]

/-- **The first pass keeps the last mention of every name.** -/
theorem explicitInterval_explicitFields (raw : List RawField) (default : Option Duration)
    (name : String) :
    explicitInterval (explicitFields default (canonicalRaw raw)) name =
      (lastMention raw name).map (RawField.interval · default) := by
  have hfold : ∀ (named : List RawField) (entries : List Entry),
      explicitInterval (named.foldl
        (fun explicit field => mention field.name (field.interval default) explicit) entries) name =
        ((named.reverse.find? fun field => field.name == name).map
          (RawField.interval · default)).or (explicitInterval entries name) := by
    intro named
    induction named with
    | nil => intro entries; rfl
    | cons field named ih =>
        intro entries
        rw [List.foldl_cons, ih, List.reverse_cons, List.find?_append, Option.map_or,
          Option.or_assoc, explicitInterval_mention, List.find?_singleton]
        by_cases heq : field.name = name
        · simp [heq]
        · simp [heq]
  have hwild : ∀ field : RawField,
      RawField.isWildcard { field with name := canonicalName field.name } = field.isWildcard := by
    intro field
    rw [Bool.eq_iff_iff, isWildcard_iff, isWildcard_iff]
    exact canonicalName_eq_allFields
  rw [explicitFields, hfold, canonicalRaw, ← List.filter_reverse, List.find?_filter,
    ← List.map_reverse, List.find?_map, Option.map_map, lastMention]
  simp only [explicitInterval, List.find?_nil, Option.map_none, Option.or_none, Function.comp_def,
    hwild, RawField.interval, Bool.decide_eq_true, Bool.decide_and]

/-! ## The second pass -/

/-- What is laid out first for a name is what it is scheduled at. -/
theorem intervalOf_pushAll (fields : List FieldConfig) (entries : List Entry) (name : String) :
    intervalOf (pushAll fields entries) name =
      (intervalOf fields name).or (explicitInterval entries name) := by
  induction entries generalizing fields with
  | nil => exact (Option.or_none).symm
  | cons entry entries ih =>
      have hcons : explicitInterval (entry :: entries) name =
          (explicitInterval [entry] name).or (explicitInterval entries name) :=
        explicitInterval_append [entry] entries name
      have hpush : intervalOf (push fields entry.1 entry.2) name =
          (intervalOf fields name).or (explicitInterval [entry] name) := by
        by_cases hmem : entry.1 ∈ scheduled fields
        · rw [push_of_mem _ hmem]
          cases hname : intervalOf fields name with
          | some interval => rfl
          | none =>
              rw [Option.none_or, eq_comm, explicitInterval_eq_none]
              intro hsame
              obtain rfl := List.mem_singleton.mp hsame
              exact intervalOf_eq_none.mp hname hmem
        · rw [push_of_notMem _ hmem, intervalOf, List.find?_append, Option.map_or]
          refine congrArg _ ?_
          rw [explicitInterval, List.find?_singleton, List.find?_singleton]
          by_cases heq : entry.1 = name
          · simp [heq]
          · simp [heq]
      rw [pushAll_cons, ih, hpush, hcons, Option.or_assoc]

/-- What one entry lays out for a name. -/
theorem explicitInterval_lays (explicit : List Entry) (default : Option Duration)
    (field : RawField) (name : String) :
    explicitInterval (lays explicit default field) name =
      if field.isWildcard then
        if name ∈ Query.all.map Query.name then
          some ((explicitInterval explicit name).getD (field.interval default))
        else none
      else if field.name = name then some ((explicitInterval explicit name).getD default)
      else none := by
  unfold lays
  split
  · rw [← explicitInterval_map fun name =>
      (explicitInterval explicit name).getD (field.interval default), List.map_map]
    rfl
  · rw [explicitInterval, List.find?_singleton]
    by_cases heq : field.name = name
    · simp [heq]
    · simp [heq]

/-- A name nobody mentions is laid out by the first wildcard. -/
theorem explicitInterval_unmentioned {explicit : List Entry} {name : String}
    (hnone : explicitInterval explicit name = none) (default : Option Duration)
    {raw : List RawField} (hraw : ∀ field ∈ raw, field.isWildcard = false → field.name ≠ name) :
    explicitInterval (raw.flatMap (lays explicit default)) name =
      if name ∈ Query.all.map Query.name then (firstWildcard raw).map (RawField.interval · default)
      else none := by
  induction raw with
  | nil =>
      split
      · rfl
      · rfl
  | cons field raw ih =>
      have hrest := ih fun other hother => hraw other (List.mem_cons_of_mem _ hother)
      rw [List.flatMap_cons, explicitInterval_append, hrest, explicitInterval_lays, hnone,
        Option.getD_none, Option.getD_none, firstWildcard, firstWildcard, List.find?_cons]
      cases hwild : field.isWildcard with
      | true =>
          rw [if_pos rfl]
          split
          · rfl
          · rfl
      | false =>
          rw [if_neg Bool.false_ne_true, if_neg (hraw field List.mem_cons_self hwild),
            Option.none_or]

theorem firstWildcard_canonicalRaw (raw : List RawField) (default : Option Duration) :
    (firstWildcard (canonicalRaw raw)).map (RawField.interval · default) =
      (firstWildcard raw).map (RawField.interval · default) := by
  have hwild : RawField.isWildcard ∘ (fun field : RawField =>
      { field with name := canonicalName field.name }) = RawField.isWildcard := by
    funext field
    rw [Function.comp_apply, Bool.eq_iff_iff, isWildcard_iff, isWildcard_iff]
    exact canonicalName_eq_allFields
  rw [firstWildcard, canonicalRaw, List.find?_map, hwild, Option.map_map]
  rfl

/-- **What a schedule says of a name.** -/
theorem intervalOf_resolveFields (raw : List RawField) (default : Option Duration)
    (name : String) :
    intervalOf (resolveFields raw default) name =
      ((lastMention raw name).or
        (if name ∈ Query.all.map Query.name then firstWildcard raw else none)).map
          (RawField.interval · default) := by
  have hexplicit := explicitInterval_explicitFields raw default name
  cases hlast : lastMention raw name with
  | some field =>
      rw [hlast, Option.map_some] at hexplicit
      rw [Option.some_or, Option.map_some]
      -- whoever lays the name out first, the first pass says at what
      cases hfound : intervalOf (resolveFields raw default) name with
      | none =>
          obtain ⟨hmem, hne, hname⟩ := lastMention_spec hlast
          exact absurd (mem_scheduled_resolveFields.mpr (.inl ⟨field, hmem, hne, hname⟩))
            (intervalOf_eq_none.mp hfound)
      | some interval =>
          rw [resolveFields_eq, intervalOf_pushAll] at hfound
          have hlaid := mem_of_explicitInterval hfound
          obtain ⟨written, -, hwritten⟩ := List.mem_flatMap.mp hlaid
          unfold lays at hwritten
          split at hwritten
          · obtain ⟨query, -, heq⟩ := List.mem_map.mp hwritten
            obtain ⟨rfl, rfl⟩ := Prod.mk.inj heq
            rw [hexplicit, Option.getD_some]
          · obtain ⟨rfl, rfl⟩ := Prod.mk.inj (List.mem_singleton.mp hwritten)
            rw [hexplicit, Option.getD_some]
  | none =>
      rw [hlast, Option.map_none] at hexplicit
      have hraw : ∀ field ∈ canonicalRaw raw, field.isWildcard = false → field.name ≠ name := by
        intro field hfield hwild heq
        obtain ⟨written, hwritten, rfl⟩ := List.mem_map.mp hfield
        have hnot := List.find?_eq_none.mp hlast written (List.mem_reverse.mpr hwritten)
        refine hnot (Bool.and_eq_true_iff.mpr ⟨?_, beq_iff_eq.mpr heq⟩)
        rw [Bool.not_eq_true', ← Bool.not_eq_true, isWildcard_iff, ← canonicalName_eq_allFields]
        intro hall
        rw [isWildcard_iff.mpr hall] at hwild
        cases hwild
      rw [resolveFields_eq, intervalOf_pushAll, explicitInterval_unmentioned hexplicit default hraw,
        Option.none_or, firstWildcard_canonicalRaw]
      split
      · rfl
      · rfl

/-! ## Where the wildcards stand -/

/-- A wildcard among explicit entries may stand before or behind them. -/
theorem intervalOf_moved {before named after : List RawField} {wildcard : RawField}
    (hwild : wildcard.isWildcard = true) (hnamed : ∀ field ∈ named, field.isWildcard = false)
    (default : Option Duration) (name : String) :
    intervalOf (resolveFields (before ++ named ++ wildcard :: after) default) name =
      intervalOf (resolveFields (before ++ wildcard :: named ++ after) default) name := by
  have hlast : lastMention (before ++ named ++ wildcard :: after) name =
      lastMention (before ++ wildcard :: named ++ after) name := by
    simp only [lastMention, List.reverse_append, List.reverse_cons, List.find?_append,
      List.find?_singleton, hwild, Bool.not_true, Bool.false_and, Bool.false_eq_true, if_false,
      Option.or_none]
  have hfirst : firstWildcard (before ++ named ++ wildcard :: after) =
      firstWildcard (before ++ wildcard :: named ++ after) := by
    have hnone : named.find? RawField.isWildcard = none :=
      List.find?_eq_none.mpr fun field hfield => Bool.not_eq_true _ ▸ hnamed field hfield
    simp only [firstWildcard, List.find?_append, List.find?_cons, hwild, hnone, Option.or_none,
      Option.or_assoc, Option.some_or]
  rw [intervalOf_resolveFields, intervalOf_resolveFields, hlast, hfirst]

/-- **The schedule a list of entries comes to.** -/
theorem resolveFields_exact (raw : List RawField) (default : Option Duration) :
    (scheduled (resolveFields raw default)).Nodup ∧
    (∀ name, name ∈ scheduled (resolveFields raw default) ↔
      (∃ field ∈ raw, field.name ≠ allFields ∧ canonicalName field.name = name) ∨
      ((∃ field ∈ raw, field.name = allFields) ∧ ∃ query ∈ Query.all, query.name = name)) ∧
    (∀ field ∈ resolveFields raw default,
      some field.interval = ((lastMention raw field.name).or (firstWildcard raw)).map
        (RawField.interval · default)) ∧
    (∀ before wildcard named after, raw = before ++ wildcard :: named ++ after →
      wildcard.isWildcard = true → (∀ field ∈ named, field.isWildcard = false) →
      ∀ name, intervalOf (resolveFields (before ++ named ++ wildcard :: after) default) name =
        intervalOf (resolveFields raw default) name) ∧
    (Stated default → ∀ inherited,
      resolveFields (restated (resolveFields raw default)) inherited =
        resolveFields raw default) := by
  have hnodup : (scheduled (resolveFields raw default)).Nodup := by
    rw [resolveFields_eq]
    exact nodup_pushAll _ List.nodup_nil
  refine ⟨hnodup, fun name => mem_scheduled_resolveFields, ?_, ?_, ?_⟩
  · intro field hfield
    have hinterval := intervalOf_of_mem hnodup hfield
    rw [intervalOf_resolveFields] at hinterval
    cases hlast : lastMention raw field.name with
    | some mentioned =>
        rw [hlast, Option.some_or] at hinterval
        exact hinterval.symm
    | none =>
        rw [hlast, Option.none_or] at hinterval
        rw [Option.none_or]
        split at hinterval
        · exact hinterval.symm
        · cases hinterval
  · rintro before wildcard named after rfl hwild hnamed name
    exact intervalOf_moved hwild hnamed default name
  · intro hdefault inherited
    exact resolveFields_restated (resolveFields_settled hdefault raw) inherited

end Sismatic.Configuration
