import Sismatic.HttpUi.FleetFilters
import Sismatic.Lib.Narrowest

/-!
# What the filters leave

The three readings of a query loosen one after another: a text that includes the phrase includes
each of its terms, and a text that includes a term has its units in order. So whatever the
filters show has every term's units in order, and a card that could have been shown is left out
only where another fits the query more narrowly.
-/

namespace Sismatic.FleetFilters

/-! ## In order -/

/-- By induction on the field, over how much of the term has been found. -/
theorem found_iff {term field : Units} {n : ℕ} (hn : n ≤ term.length) :
    found term field n = term.length ↔ (term.drop n).Sublist field := by
  induction field generalizing n with
  | nil =>
      rw [found, List.sublist_nil, List.drop_eq_nil_iff]
      omega
  | cons unit field ih =>
      rw [found]
      split
      · rename_i hunit
        obtain ⟨hlt, hget⟩ := List.getElem?_eq_some_iff.mp hunit
        rw [ih hlt, List.drop_eq_getElem_cons hlt, hget, List.cons_sublist_cons]
      · rename_i hother
        rw [ih hn, List.sublist_cons_iff]
        refine ⟨.inl, fun h => h.resolve_right ?_⟩
        rintro ⟨rest, hrest, -⟩
        exact hother (by rw [← List.head?_drop, hrest, List.head?_cons])

theorem inOrder_iff {term field : Units} : inOrder term field = true ↔ term.Sublist field := by
  rw [inOrder, beq_iff_eq, found_iff (Nat.zero_le _), List.drop_zero]

/-! ## The terms of a query -/

theorem splitOnP_pieces {α : Type} (p : α → Bool) (as : List α) :
    ∃ first rest, as.splitOnP p = first :: rest ∧ first <+: as ∧
      ∀ piece ∈ rest, piece <:+: as := by
  induction as with
  | nil => exact ⟨[], [], List.splitOnP_nil, List.prefix_refl [], fun _ h => (by cases h)⟩
  | cons a as ih =>
      obtain ⟨first, rest, hsplit, hfirst, hrest⟩ := ih
      have hlater : ∀ piece ∈ rest, piece <:+: a :: as := fun piece hpiece =>
        (hrest piece hpiece).trans (List.suffix_cons a as).isInfix
      rw [List.splitOnP_cons_eq_if_modifyHead, hsplit]
      split
      · refine ⟨[], first :: rest, rfl, List.nil_prefix, fun piece hpiece => ?_⟩
        rcases List.mem_cons.mp hpiece with rfl | hpiece
        · exact hfirst.isInfix.trans (List.suffix_cons a as).isInfix
        · exact hlater piece hpiece
      · exact ⟨a :: first, rest, rfl, List.cons_prefix_cons.mpr ⟨rfl, hfirst⟩, hlater⟩

theorem infix_of_term {query term : Units} (h : term ∈ termsOf query) : term <:+: query := by
  obtain ⟨first, rest, hsplit, hfirst, hrest⟩ := splitOnP_pieces isSpace query
  rw [termsOf, hsplit] at h
  rcases List.mem_cons.mp (List.mem_of_mem_filter h) with rfl | hmem
  · exact hfirst.isInfix
  · exact hrest term hmem

/-! ## The readings -/

theorem includes_iff {field query : Units} : includes field query = true ↔ query <:+: field := by
  rw [includes, List.any_eq_true, List.infix_iff_prefix_suffix]
  exact exists_congr fun rest => by
    rw [List.mem_tails, List.isPrefixOf_iff_prefix, and_comm]

theorem matchesEvery_iff {fields terms : List Units} {fits : Units → Units → Bool} :
    matchesEvery fields terms fits = true ↔
      ∀ term ∈ terms, ∃ field ∈ fields, fits term field = true := by
  rw [matchesEvery, List.all_eq_true]
  exact forall₂_congr fun term _ => List.any_eq_true

/-- The whole query, as a phrase. -/
def asPhrase (query : Units) (row : Searchable) : Bool :=
  row.fields.any fun field => includes field query

/-- Every term, each somewhere. -/
def asScattered (query : Units) (row : Searchable) : Bool :=
  matchesEvery row.fields (termsOf query) within

/-- Every term in order. -/
def asOrdered (query : Units) (row : Searchable) : Bool :=
  matchesEvery row.fields (termsOf query) inOrder

/-- The three readings of a query, narrowest first. -/
def readings (query : Units) : List (Searchable → Bool) :=
  [asPhrase query, asScattered query, asOrdered query]

theorem readings_phrase (query : Units) :
    readings query = [] ++ asPhrase query :: [asScattered query, asOrdered query] := rfl

theorem readings_scattered (query : Units) :
    readings query = [asPhrase query] ++ asScattered query :: [asOrdered query] := rfl

theorem readings_ordered (query : Units) :
    readings query = [asPhrase query, asScattered query] ++ asOrdered query :: [] := rfl

/-- The card fits the loosest reading. -/
def Fits (query : Units) (fields : List Units) : Prop :=
  ∀ term ∈ termsOf query, ∃ field ∈ fields, term.Sublist field

variable {query : Units} {row : Searchable}

theorem asPhrase_iff : asPhrase query row = true ↔ ∃ field ∈ row.fields, query <:+: field :=
  List.any_eq_true.trans <| exists_congr fun _ => and_congr_right fun _ => includes_iff

theorem asScattered_iff : asScattered query row = true ↔
    ∀ term ∈ termsOf query, ∃ field ∈ row.fields, term <:+: field :=
  matchesEvery_iff.trans <| forall₂_congr fun _ _ => exists_congr fun _ =>
    and_congr_right fun _ => includes_iff

theorem asOrdered_iff : asOrdered query row = true ↔ Fits query row.fields :=
  matchesEvery_iff.trans <| forall₂_congr fun _ _ => exists_congr fun _ =>
    and_congr_right fun _ => inOrder_iff

theorem scattered_of_phrase (h : asPhrase query row = true) : asScattered query row = true := by
  obtain ⟨field, hfield, hphrase⟩ := asPhrase_iff.mp h
  exact asScattered_iff.mpr fun term hterm =>
    ⟨field, hfield, (infix_of_term hterm).trans hphrase⟩

theorem fits_of_scattered (h : asScattered query row = true) : Fits query row.fields := by
  intro term hterm
  obtain ⟨field, hfield, hwithin⟩ := asScattered_iff.mp h term hterm
  exact ⟨field, hfield, hwithin.sublist⟩

/-- Each reading is looser than the one before it. -/
theorem fits_of_reading {reading : Searchable → Bool} (hreading : reading ∈ readings query)
    (h : reading row = true) : Fits query row.fields := by
  simp only [readings, List.mem_cons, List.not_mem_nil, or_false] at hreading
  rcases hreading with rfl | rfl | rfl
  · exact fits_of_scattered (scattered_of_phrase h)
  · exact fits_of_scattered h
  · exact asOrdered_iff.mp h

/-! ## What is shown -/

section Shown

variable (normalize : String → Units)

/-- A card with its texts. -/
def card (view : DeviceView) : Searchable := ⟨view, fieldsOf normalize view⟩

/-- The cards that are drawn of these. -/
def shown (views : List DeviceView) (filters : Filters) : List DeviceView :=
  applyFilters normalize (searchable normalize views) filters

/-- The readings, of a card whose texts are looked up. -/
def cardReadings (query : Units) : List (DeviceView → Bool) :=
  (readings query).map (· ∘ card normalize)

variable {normalize} {views : List DeviceView} {filters : Filters}

theorem facet_eq :
    ((searchable normalize views).filter fun row => filters.passes row.view) =
      (views.filter filters.passes).map (card normalize) := List.filter_map

theorem view_card : ((·.view) ∘ card normalize) = id := rfl

theorem shown_of_blank (h : queryOf normalize filters = []) :
    shown normalize views filters = views.filter filters.passes := by
  rw [shown, applyFilters, facet_eq]
  dsimp only
  rw [if_pos (List.isEmpty_iff.mpr h), List.map_map, view_card, List.map_id]

/-- **The cards shown are those of the narrowest reading that finds any.** -/
theorem shown_eq_search (h : queryOf normalize filters ≠ []) :
    shown normalize views filters = Narrowest.search (views.filter filters.passes)
      (cardReadings normalize (queryOf normalize filters)) := by
  have hsearch : shown normalize views filters =
      (Narrowest.search ((views.filter filters.passes).map (card normalize))
        (readings (queryOf normalize filters))).map (·.view) := by
    rw [shown, applyFilters, facet_eq]
    dsimp only
    rw [if_neg (mt List.isEmpty_iff.mp h), readings, Narrowest.search_cons, Narrowest.search_cons,
      Narrowest.search_singleton, apply_ite (List.map _), apply_ite (List.map _)]
    rfl
  rw [hsearch, Narrowest.search_map, List.map_map, view_card, List.map_id, cardReadings]

/-- What is shown of these cards. -/
structure Filtered (normalize : String → Units) (views : List DeviceView) (filters : Filters)
    (cards : List DeviceView) : Prop where
  /-- Cards of the kind and the status asked for, in the order they came in. -/
  sublist : cards.Sublist (views.filter filters.passes)
  /-- All of them, where nothing is asked for. -/
  blank : queryOf normalize filters = [] → cards = views.filter filters.passes
  /-- Each has the units of every term in order in some field. -/
  fits : ∀ view ∈ cards, Fits (queryOf normalize filters) (fieldsOf normalize view)
  /-- A card that has the whole query in a field is there. -/
  phrase : ∀ view ∈ views, filters.passes view = true →
    (∃ field ∈ fieldsOf normalize view, queryOf normalize filters <:+: field) → view ∈ cards
  /-- One that has every term in some field gives way only to such a card. -/
  scattered : ∀ view ∈ views, filters.passes view = true →
    (∀ term ∈ termsOf (queryOf normalize filters), ∃ field ∈ fieldsOf normalize view,
      term <:+: field) →
    view ∈ cards ∨ ∃ other ∈ cards, ∃ field ∈ fieldsOf normalize other,
      queryOf normalize filters <:+: field
  /-- One that has their units in order gives way only to cards that have every term. -/
  ordered : ∀ view ∈ views, filters.passes view = true →
    Fits (queryOf normalize filters) (fieldsOf normalize view) →
    view ∈ cards ∨ ∃ other ∈ cards, ∀ term ∈ termsOf (queryOf normalize filters),
      ∃ field ∈ fieldsOf normalize other, term <:+: field
  /-- With a card there that has the whole query in a field, there are only such cards. -/
  phraseOnly : ∀ other ∈ cards,
    (∃ field ∈ fieldsOf normalize other, queryOf normalize filters <:+: field) →
    ∀ view ∈ cards, ∃ field ∈ fieldsOf normalize view, queryOf normalize filters <:+: field
  /-- With one that has every term in some field, only cards that have. -/
  scatteredOnly : ∀ other ∈ cards,
    (∀ term ∈ termsOf (queryOf normalize filters), ∃ field ∈ fieldsOf normalize other,
      term <:+: field) →
    ∀ view ∈ cards, ∀ term ∈ termsOf (queryOf normalize filters),
      ∃ field ∈ fieldsOf normalize view, term <:+: field

theorem filtered_of_blank (h : queryOf normalize filters = []) :
    Filtered normalize views filters (shown normalize views filters) := by
  have hthere : ∀ view ∈ views, filters.passes view = true →
      view ∈ shown normalize views filters := fun view hview hpasses =>
    shown_of_blank h ▸ List.mem_filter.mpr ⟨hview, hpasses⟩
  refine ⟨shown_of_blank h ▸ List.Sublist.refl _, shown_of_blank, fun view _ term hterm => ?_,
    fun view hview hpasses _ => hthere view hview hpasses,
    fun view hview hpasses _ => .inl (hthere view hview hpasses),
    fun view hview hpasses _ => .inl (hthere view hview hpasses), fun _ _ _ view _ => ?_,
    fun _ _ _ view _ term hterm => ?_⟩
  -- a blank query has no terms, and is in every text
  · rw [h] at hterm
    cases hterm
  · exact ⟨normalize view.id, List.mem_cons_self, h ▸ List.nil_infix⟩
  · rw [h] at hterm
    cases hterm

section Reading

variable {before after : List (Searchable → Bool)} {reading : Searchable → Bool}

/-- What is shown is a search through the readings around any one of them. -/
theorem shown_eq_around (h : queryOf normalize filters ≠ [])
    (hreadings : readings (queryOf normalize filters) = before ++ reading :: after) :
    shown normalize views filters = Narrowest.search (views.filter filters.passes)
      (before.map (· ∘ card normalize) ++ (reading ∘ card normalize) ::
        after.map (· ∘ card normalize)) := by
  rw [shown_eq_search h, cardReadings, hreadings, List.map_append, List.map_cons]

/-- A card that fits a reading is shown, or another one is that fits a narrower reading. -/
theorem shown_or_narrower (h : queryOf normalize filters ≠ [])
    (hreadings : readings (queryOf normalize filters) = before ++ reading :: after)
    {view : DeviceView} (hview : view ∈ views) (hpasses : filters.passes view = true)
    (hfits : reading (card normalize view) = true) :
    view ∈ shown normalize views filters ∨ ∃ narrower ∈ before,
      ∃ other ∈ shown normalize views filters, narrower (card normalize other) = true := by
  have hfaceted : view ∈ views.filter filters.passes := List.mem_filter.mpr ⟨hview, hpasses⟩
  have honCard : (reading ∘ card normalize) view = true := hfits
  rw [shown_eq_around h hreadings]
  rcases Narrowest.search_or_narrower (before.map (· ∘ card normalize))
    (after.map (· ∘ card normalize)) hfaceted honCard with
    hfound | ⟨narrower, hmem, other, hother, hnarrow⟩
  · exact .inl hfound
  · obtain ⟨narrower, hbefore, rfl⟩ := List.mem_map.mp hmem
    exact .inr ⟨narrower, hbefore, other, hother, hnarrow⟩

/-- With a card shown that fits a reading, all that are fit it or a narrower one. -/
theorem all_fit_of_shown (h : queryOf normalize filters ≠ [])
    (hreadings : readings (queryOf normalize filters) = before ++ reading :: after)
    {view other : DeviceView} (hother : other ∈ shown normalize views filters)
    (hfits : reading (card normalize other) = true)
    (hview : view ∈ shown normalize views filters) :
    reading (card normalize view) = true ∨
      ∃ narrower ∈ before, narrower (card normalize view) = true := by
  have honCard : (reading ∘ card normalize) other = true := hfits
  rw [shown_eq_around h hreadings] at hother hview
  rcases Narrowest.all_fit_of_search _ _ hother honCard hview with hsame | ⟨narrower, hmem, hnarrow⟩
  · exact .inl hsame
  · obtain ⟨narrower, hbefore, rfl⟩ := List.mem_map.mp hmem
    exact .inr ⟨narrower, hbefore, hnarrow⟩

end Reading

theorem filtered_of_query (h : queryOf normalize filters ≠ []) :
    Filtered normalize views filters (shown normalize views filters) where
  sublist := shown_eq_search h ▸ Narrowest.search_sublist _ _
  blank hblank := absurd hblank h
  fits view hview := by
    rw [shown_eq_search h] at hview
    obtain ⟨reading, hreading, hfits⟩ := Narrowest.fits_of_search hview
    obtain ⟨onCard, honCard, rfl⟩ := List.mem_map.mp hreading
    exact fits_of_reading honCard hfits
  phrase view hview hpasses hphrase := by
    rcases shown_or_narrower h (readings_phrase _) hview hpasses (asPhrase_iff.mpr hphrase) with
      hfound | ⟨narrower, hmem, -⟩
    · exact hfound
    · cases hmem
  scattered view hview hpasses hscattered := by
    rcases shown_or_narrower h (readings_scattered _) hview hpasses
      (asScattered_iff.mpr hscattered) with hfound | ⟨narrower, hmem, other, hother, hnarrow⟩
    · exact .inl hfound
    · rw [List.mem_singleton] at hmem
      subst hmem
      exact .inr ⟨other, hother, asPhrase_iff.mp hnarrow⟩
  ordered view hview hpasses hordered := by
    rcases shown_or_narrower h (readings_ordered _) hview hpasses
      (asOrdered_iff.mpr hordered) with hfound | ⟨narrower, hmem, other, hother, hnarrow⟩
    · exact .inl hfound
    · refine .inr ⟨other, hother, ?_⟩
      rcases List.mem_pair.mp hmem with rfl | rfl
      · exact asScattered_iff.mp (scattered_of_phrase hnarrow)
      · exact asScattered_iff.mp hnarrow
  phraseOnly other hother hphrase view hview := by
    rcases all_fit_of_shown h (readings_phrase _) hother (asPhrase_iff.mpr hphrase) hview with
      hsame | ⟨narrower, hmem, -⟩
    · exact asPhrase_iff.mp hsame
    · cases hmem
  scatteredOnly other hother hscattered view hview := by
    rcases all_fit_of_shown h (readings_scattered _) hother (asScattered_iff.mpr hscattered)
      hview with hsame | ⟨narrower, hmem, hnarrow⟩
    · exact asScattered_iff.mp hsame
    · rw [List.mem_singleton] at hmem
      subst hmem
      exact asScattered_iff.mp (scattered_of_phrase hnarrow)

/-- Filtering what is shown hides nothing more. -/
theorem shown_again :
    shown normalize (shown normalize views filters) filters = shown normalize views filters := by
  have hpass : ∀ cards : List DeviceView, cards.Sublist (views.filter filters.passes) →
      cards.filter filters.passes = cards := fun cards hsub =>
    List.filter_eq_self.mpr fun view hview => (List.mem_filter.mp (hsub.subset hview)).2
  by_cases h : queryOf normalize filters = []
  · rw [shown_of_blank h, shown_of_blank h]
    exact hpass _ (List.Sublist.refl _)
  · rw [shown_eq_search h, shown_eq_search h, hpass _ (Narrowest.search_sublist _ _)]
    exact Narrowest.search_again _ _

/-- **What the filters leave of the cards.** A narrower reading never hides a card for nothing, and
filtering what is left leaves all of it. -/
theorem cards_filtered (normalize : String → Units) (views : List DeviceView)
    (filters : Filters) :
    Filtered normalize views filters (shown normalize views filters) ∧
      shown normalize (shown normalize views filters) filters = shown normalize views filters := by
  refine ⟨?_, shown_again⟩
  by_cases h : queryOf normalize filters = []
  · exact filtered_of_blank h
  · exact filtered_of_query h

end Shown

end Sismatic.FleetFilters
