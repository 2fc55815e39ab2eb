import Sismatic.HttpApi.FleetGroupReads
import Sismatic.Lib.Walk
import Sismatic.Proof.Fields
import Sismatic.Proof.FleetPages
import Sismatic.Proof.RollUp

/-!
# The groups, page by page

The pages of the group index are those of the sets of groups that match, and a row is what the
group's own index answers. A group matches by what every one of its reporting members says, and by
the verdict on all its fields, whichever of them are shown. A page lists its groups once and then
looks each up again, so between the two a group may come to be another or, as the one thing that a
page does not survive, be gone.
-/

namespace Sismatic

open Devices

namespace FleetGroups

/-! ## One row -/

section Row

variable {catalog : MemoryCatalog} {store : MemoryStore} {w : GroupOutbox}
  {summary : GroupSummary} {group : GroupId} {row : GroupFieldStateList}

/-- The reads the members have of a field. -/
def readsOf (store : MemoryStore) (summary : GroupSummary) (field : FieldName) : List Read :=
  summary.members.filterMap fun m => (store.latest m)[field]?

/-- Some member has reported the field, and what every one that has says satisfies the filter. -/
def Satisfied (store : MemoryStore) (summary : GroupSummary) (predicate : Predicate) : Prop :=
  readsOf store summary predicate.field ≠ [] ∧
    ∀ read ∈ readsOf store summary predicate.field, satisfies predicate.want read.value = true

theorem mem_readsOf {field : FieldName} {read : Read} :
    read ∈ readsOf store summary field ↔
      ∃ m ∈ summary.members, (store.latest m)[field]? = some read := List.mem_filterMap

/-- A filter looks at what the members say of its field. -/
theorem holds_iff (hfiles : store.Files) (hmirrors : w.Mirrors) (predicate : Predicate) :
    holds predicate (stateOf store w summary group).fields = true ↔
      Satisfied store summary predicate := by
  have hreads : (detailOf store w summary group predicate.field).members.filterMap (·.read) =
      readsOf store summary predicate.field := by
    unfold detailOf
    rw [reads_assemble, List.filterMap_map]
    rfl
  have hmatches : ∀ read ∈ readsOf store summary predicate.field,
      (predicate.matchesRead read = true ↔ satisfies predicate.want read.value = true) := by
    intro read hread
    obtain ⟨m, -, hlatest⟩ := mem_readsOf.mp hread
    have hfield : read.field = predicate.field := hfiles m _ _ hlatest
    rw [Predicate.matchesRead, Bool.and_eq_true, decide_eq_true_iff]
    exact and_iff_right hfield
  unfold holds
  cases hfind : (stateOf store w summary group).fields.find? fun f => f.field = predicate.field with
  | none =>
      -- nobody has reported the field, or it would be listed
      refine iff_of_false Bool.false_ne_true fun hsatisfied => ?_
      obtain ⟨read, hread⟩ := List.exists_mem_of_ne_nil _ hsatisfied.1
      obtain ⟨m, hm, hlatest⟩ := mem_readsOf.mp hread
      have hknown := (known_iff hfiles hmirrors summary group predicate.field).mpr
        (.inl ⟨m, hm, by rw [hlatest]; rfl⟩)
      have hlisted := List.find?_eq_none.mp hfind _ (List.mem_map_of_mem hknown)
      exact hlisted (decide_eq_true rfl)
  | some state =>
      have hname : state.field = predicate.field := by simpa using List.find?_some hfind
      obtain ⟨field, -, rfl⟩ := List.mem_map.mp (List.mem_of_find?_eq_some hfind)
      have hfield : field = predicate.field := hname
      rw [hfield]
      dsimp only
      rw [hreads, Bool.and_eq_true, List.all_eq_true, Satisfied]
      refine and_congr (by simp) (forall_congr' fun read => forall_congr' fun hread => ?_)
      exact hmatches read hread

end Row

/-! ## The loop -/

section Scan

variable {rowOf : GroupId → Except (Devices.Fault ApiFailure) GroupFieldStateList}
  {whole : GroupId → GroupFieldStateList}

/-- The loop shows the first rows that the filters let through, and asks for more after the last of
them if one more gets through. -/
theorem scan_eq (filters : Filters) {limit : Nat} (candidates : List GroupId)
    (hrows : ∀ group ∈ candidates, rowOf group = .ok (whole group))
    {groups : List GroupFieldStateList} (h : groups.length ≤ limit) :
    ∃ reads, scan rowOf filters limit candidates groups = .ok reads ∧
      reads.groups = groups ++
        ((candidates.filter fun group => filters.keep (whole group)).take
          (limit - groups.length)).map (fun group => filters.shown (whole group)) ∧
      reads.next =
        if limit < groups.length +
            (candidates.filter fun group => filters.keep (whole group)).length then
          reads.groups.getLast?.map (·.group)
        else none := by
  induction candidates generalizing groups with
  | nil =>
      refine ⟨⟨groups, none⟩, rfl, ?_, (if_neg (Nat.not_lt.mpr h)).symm⟩
      rw [List.filter_nil, List.take_nil, List.map_nil, List.append_nil]
  | cons group candidates ih =>
      have hrest := fun other hmem => hrows other (List.mem_cons_of_mem group hmem)
      rw [scan, hrows group List.mem_cons_self]
      dsimp only
      cases hkeep : filters.keep (whole group) with
      | false =>
          rw [if_pos (by simp), List.filter_cons_of_neg (by simp [hkeep])]
          exact ih hrest h
      | true =>
          rw [if_neg (by simp), List.filter_cons_of_pos (by simp [hkeep])]
          by_cases hfull : groups.length = limit
          · -- one more than there is room for
            rw [if_pos hfull]
            refine ⟨_, rfl, ?_, ?_⟩
            · rw [hfull, Nat.sub_self, List.take_zero, List.map_nil, List.append_nil]
            · rw [List.length_cons, if_pos (by omega)]
          · have hroom : groups.length < limit := lt_of_le_of_ne h hfull
            have hlength : (groups ++ [filters.shown (whole group)]).length = groups.length + 1 :=
              List.length_append
            have htake : limit - groups.length = limit - (groups.length + 1) + 1 := by omega
            obtain ⟨reads, hscan, hpage, hnext⟩ := ih hrest (hlength.le.trans hroom)
            rw [if_neg hfull]
            refine ⟨reads, hscan, ?_, ?_⟩
            · rw [hpage, hlength, htake, List.take_succ_cons, List.map_cons, List.append_assoc]
              rfl
            · rw [hnext, hlength, List.length_cons, Nat.add_right_comm, Nat.add_assoc]

/-- The first row that cannot be assembled is the whole answer, unless the page is full before. -/
theorem scan_error (filters : Filters) {limit : Nat} {before after : List GroupId} {gone : GroupId}
    {e : Devices.Fault ApiFailure} (hgone : rowOf gone = .error e)
    (hrows : ∀ group ∈ before, rowOf group = .ok (whole group))
    {groups : List GroupFieldStateList}
    (hroom : groups.length + (before.filter fun group => filters.keep (whole group)).length ≤
      limit) :
    scan rowOf filters limit (before ++ gone :: after) groups = .error e := by
  induction before generalizing groups with
  | nil => rw [List.nil_append, scan, hgone]
  | cons group before ih =>
      have hrest := fun other hmem => hrows other (List.mem_cons_of_mem group hmem)
      rw [List.cons_append, scan, hrows group List.mem_cons_self]
      dsimp only
      cases hkeep : filters.keep (whole group) with
      | false =>
          rw [List.filter_cons_of_neg (by simp [hkeep])] at hroom
          rw [if_pos (by simp)]
          exact ih hrest hroom
      | true =>
          rw [List.filter_cons_of_pos (by simp [hkeep]), List.length_cons] at hroom
          rw [if_neg (by simp), if_neg (by omega)]
          refine ih hrest ?_
          rw [List.length_append, List.length_singleton]
          omega

end Scan

/-! ## What matches -/

/-- What the loop meets when it gets to a group. -/
structure Met where
  catalog : MemoryCatalog
  store : MemoryStore
  outbox : GroupOutbox

/-- The row of a group, as it is assembled there. -/
def Met.rowOf (met : Met) (id : GroupId) : Except (Devices.Fault ApiFailure) GroupFieldStateList :=
  groupStateOf met.catalog met.store met.outbox id

/-- The group is configured, and matches the filters of the request. -/
structure GroupMatches (store : MemoryStore) (w : GroupOutbox) (query : FleetGroupQuery)
    (predicates : List Predicate) (sync : Option GroupSyncState) (catalog : MemoryCatalog)
    (id : GroupId) : Prop where
  configured : ∃ summary, catalog.group id = some summary ∧
    (∀ predicate ∈ predicates, Satisfied store summary predicate) ∧
    ∀ wanted, sync = some wanted → SyncVerdict wanted
      (∃ field, ∃ m ∈ summary.members,
        Drifts (w.outbox.groups id field) ((store.latest m)[field]?))
      (∃ field, ∃ m ∈ summary.members,
        Obeys (w.outbox.groups id field) ((store.latest m)[field]?))
  named : csv query.groups ≠ [] → id ∈ csv query.groups

/-- There is one verdict. -/
theorem verdict_unique {a b : GroupSyncState} {drift agreement : Prop}
    (ha : SyncVerdict a drift agreement) : SyncVerdict b drift agreement ↔ a = b := by
  constructor
  · intro hb
    cases a with
    | drifted => exact (hb.drifted.mpr (ha.drifted.mp rfl)).symm
    | inSync => exact (hb.inSync.mpr (ha.inSync.mp rfl)).symm
    | unknown =>
        have hdrift : ¬ drift := fun hd => by cases ha.drifted.mpr hd
        have hsync : ¬ agreement := fun hs => by cases ha.inSync.mpr ⟨hdrift, hs⟩
        cases b with
        | drifted => exact absurd (hb.drifted.mp rfl) hdrift
        | inSync => exact absurd (hb.inSync.mp rfl).2 hsync
        | unknown => rfl
  · intro heq
    rw [← heq]
    exact ha

section Page

variable {catalog : MemoryCatalog} {store : MemoryStore} {w : GroupOutbox}

theorem requestedOf_ok {named : List String} (h : ∀ id ∈ named, (catalog.group id).isSome)
    (requested : OrderedSet GroupId) :
    ∃ all, requestedOf catalog named requested = .ok all ∧
      ∀ id, id ∈ all ↔ id ∈ named ∨ id ∈ requested := by
  induction named generalizing requested with
  | nil => exact ⟨requested, rfl, fun id => by simp⟩
  | cons first named ih =>
      obtain ⟨group, hgroup⟩ := Option.isSome_iff_exists.mp (h first List.mem_cons_self)
      obtain ⟨all, hall, hmem⟩ :=
        ih (fun id hid => h id (List.mem_cons_of_mem first hid)) (requested.insert first)
      refine ⟨all, ?_, ?_⟩
      · rw [requestedOf, hgroup]
        exact hall
      · intro id
        rw [hmem, OrderedSet.mem_insert, List.mem_cons]
        tauto

/-- The ids that are named narrow the catalog's order. -/
theorem candidates_ok {query : FleetGroupQuery}
    (h : ∀ id ∈ csv query.groups, (catalog.group id).isSome) :
    ∃ keep : Option (OrderedSet GroupId),
      (∀ after, candidates catalog { query with after := after } =
        .ok (((catalog.groups.map (·.id)).filter (isKept keep)).filter (Paging.past after))) ∧
      ∀ id, isKept keep id = true ↔ (csv query.groups ≠ [] → id ∈ csv query.groups) := by
  by_cases hnil : csv query.groups = []
  · refine ⟨none, fun after => ?_, fun id => ?_⟩
    · unfold candidates namedFilter
      dsimp only
      rw [hnil]
      rfl
    · exact iff_of_true rfl fun hne => absurd hnil hne
  · obtain ⟨requested, hrequested, hmem⟩ := requestedOf_ok h OrderedSet.empty
    refine ⟨some requested, fun after => ?_, fun id => ?_⟩
    · unfold candidates namedFilter
      dsimp only
      rw [if_neg (by simpa using hnil), hrequested]
      rfl
    · have hkept : isKept (some requested) id = true ↔ id ∈ requested := decide_eq_true_iff
      rw [hkept, hmem]
      have hempty : ¬ id ∈ (OrderedSet.empty : OrderedSet GroupId) := List.not_mem_nil
      tauto

/-- What a group's row is made from. -/
def wholeOf (catalog : MemoryCatalog) (store : MemoryStore) (w : GroupOutbox) (group : GroupId) :
    GroupFieldStateList :=
  ((catalog.group group).map (stateOf store w · group)).getD ⟨group, .unknown, none, []⟩

theorem group_wholeOf (group : GroupId) : (wholeOf catalog store w group).group = group := by
  unfold wholeOf
  cases catalog.group group <;> rfl

theorem isSome_of_listed {id : GroupId} (h : id ∈ catalog.groups.map (·.id)) :
    (catalog.group id).isSome = true := by
  obtain ⟨summary, hsummary, rfl⟩ := List.mem_map.mp h
  exact List.find?_isSome.mpr ⟨summary, hsummary, decide_eq_true rfl⟩

theorem groupStateOf_listed (hfiles : store.Files) (hmirrors : w.Mirrors) {id : GroupId}
    (h : (catalog.group id).isSome = true) :
    groupStateOf catalog store w id = .ok (wholeOf catalog store w id) := by
  obtain ⟨summary, hsummary⟩ := Option.isSome_iff_exists.mp h
  rw [groupStateOf_eq hfiles hmirrors hsummary, wholeOf, hsummary]
  rfl

/-- The filters let a row through exactly if its group matches. -/
theorem keep_iff (hfiles : store.Files) (hmirrors : w.Mirrors) (filters : Filters)
    {summary : GroupSummary} {id : GroupId} (h : catalog.group id = some summary) :
    filters.keep (wholeOf catalog store w id) = true ↔
      (∀ predicate ∈ filters.predicates, Satisfied store summary predicate) ∧
        ∀ wanted, filters.sync = some wanted → SyncVerdict wanted
          (∃ field, ∃ m ∈ summary.members,
            Drifts (w.outbox.groups id field) ((store.latest m)[field]?))
          (∃ field, ∃ m ∈ summary.members,
            Obeys (w.outbox.groups id field) ((store.latest m)[field]?)) := by
  have hwhole : wholeOf catalog store w id = stateOf store w summary id := by
    rw [wholeOf, h]
    rfl
  rw [hwhole, Filters.keep, Bool.and_eq_true, List.all_eq_true]
  refine and_congr ?_ ?_
  · exact forall_congr' fun predicate => forall_congr' fun _ => holds_iff hfiles hmirrors predicate
  · have hverdict := verdict_stateOf hfiles hmirrors summary id
    cases filters.sync with
    | none => simp
    | some wanted =>
        simp only [Option.any_some, Option.some.injEq, forall_eq']
        rw [verdict_unique hverdict]
        simp

/-- The catalog of a document lists its groups by id, and each once. -/
theorem groups_sorted {newV5 : Uuid → List UInt8 → Uuid} {document : RawConfig}
    {resolved : Devices.Resolved} (h : resolveConfig newV5 document = .ok resolved) :
    (resolved.catalog.groups.map (·.id)).Pairwise (· < ·) := by
  have hle : (resolved.catalog.groups.map (·.id)).Pairwise (· ≤ ·) :=
    List.pairwise_map.mpr (List.pairwise_insertionSort _ _)
  have hnodup : (resolved.catalog.groups.map (·.id)).Nodup := by
    have hids := (sound_of_resolveConfig h).groups_nodup
    have hperm := (List.perm_insertionSort (fun a b : GroupSummary => a.id ≤ b.id)
      (resolved.groups.map summarizeGroup)).map (·.id)
    refine hperm.nodup_iff.mpr ?_
    rw [List.map_map]
    exact hids
  exact (hle.and hnodup).imp fun hboth => lt_of_le_of_ne hboth.1 hboth.2

/-- What the index shows of a group. -/
def Shows (met : Met) (fields : Option (OrderedSet FieldName)) (row : GroupFieldStateList) : Prop :=
  ∃ whole, listGroupFields met.catalog met.store met.outbox row.group = .ok whole ∧
    row = ⟨whole.group, whole.sync, whole.desiredRecordingState, project whole.fields fields⟩

/-- The group is in the fleet, and matches when the loop gets to it. -/
structure Found (catalog : MemoryCatalog) (met : Met) (query : FleetGroupQuery)
    (predicates : List Predicate) (sync : Option GroupSyncState) (id : GroupId) : Prop where
  listed : (catalog.group id).isSome
  matched : GroupMatches met.store met.outbox query predicates sync met.catalog id

/-- **A page is one of the set of groups that match, row by row.** -/
theorem listFleetGroups_eq {met : GroupId → Met} {query : FleetGroupQuery}
    {predicates : List Predicate} {sync : Option GroupSyncState} {size : Nat}
    (hsorted : (catalog.groups.map (·.id)).Pairwise (· < ·))
    (hfiles : ∀ id, (met id).store.Files) (hmirrors : ∀ id, (met id).outbox.Mirrors)
    (hstays : ∀ id, (catalog.group id).isSome → ((met id).catalog.group id).isSome)
    (hpredicates : predicatesOf query.predicates = .ok predicates)
    (hsync : wantedSync query.sync = .ok sync) (hsize : pageSize query.limit = .ok size)
    (hnamed : ∀ id ∈ csv query.groups, (catalog.group id).isSome) :
    ∃ s : OrderedSet GroupId,
      (∀ id, id ∈ s ↔ Found catalog (met id) query predicates sync id) ∧
      ∀ after, ∃ reads,
        listFleetGroups (fun id => (met id).rowOf id) { query with after := after } catalog =
          .ok reads ∧
        reads.groups.map (·.group) = (Paging.page size s after).rows ∧
        reads.next = (Paging.page size s after).next ∧
        ∀ row ∈ reads.groups, Shows (met row.group) (wantedFields query.fields) row := by
  obtain ⟨keep, hcandidates, hkeep⟩ := candidates_ok hnamed
  let filters : Filters := ⟨predicates, sync, wantedFields query.fields⟩
  let fleet : OrderedSet GroupId := ⟨catalog.groups.map (·.id), hsorted⟩
  let whole : GroupId → GroupFieldStateList := fun group =>
    wholeOf (met group).catalog (met group).store (met group).outbox group
  let passes : GroupId → Bool := fun group => filters.keep (whole group)
  have hwhole : ∀ {id}, (catalog.group id).isSome = true → (met id).rowOf id = .ok (whole id) :=
    fun {id} hid => groupStateOf_listed (hfiles id) (hmirrors id) (hstays id hid)
  refine ⟨(fleet.filter (isKept keep)).filter passes, ?_, ?_⟩
  · intro id
    rw [OrderedSet.mem_filter, OrderedSet.mem_filter, hkeep]
    constructor
    · intro h
      obtain ⟨⟨hlisted, hname⟩, hpasses⟩ := h
      have hsome := isSome_of_listed hlisted
      obtain ⟨summary, hsummary⟩ := Option.isSome_iff_exists.mp (hstays id hsome)
      exact ⟨hsome, ⟨summary, hsummary,
        (keep_iff (hfiles id) (hmirrors id) filters hsummary).mp hpasses⟩, hname⟩
    · intro h
      obtain ⟨summary, hsummary, hboth⟩ := h.matched.configured
      obtain ⟨listed, hlisted⟩ := Option.isSome_iff_exists.mp h.listed
      have hfound : catalog.groups.find? (fun g => decide (g.id = id)) = some listed := hlisted
      have hid : listed.id = id := by simpa using List.find?_some hfound
      have hmem : id ∈ fleet := by
        rw [← hid]
        exact List.mem_map_of_mem (List.mem_of_find?_eq_some hfound)
      exact ⟨⟨hmem, h.matched.named⟩,
        (keep_iff (hfiles id) (hmirrors id) filters hsummary).mpr hboth⟩
  · intro after
    -- the cursor is applied before the row filters, which comes to the same
    have hleft : ((fleet.filter (isKept keep)).filter passes).elems.filter (Paging.past after) =
        (((catalog.groups.map (·.id)).filter (isKept keep)).filter (Paging.past after)).filter
          passes := List.filter_comm ..
    have hlisted : ∀ id ∈ ((catalog.groups.map (·.id)).filter (isKept keep)).filter
        (Paging.past after), (catalog.group id).isSome = true := by
      intro id hid
      exact isSome_of_listed (List.mem_of_mem_filter (List.mem_of_mem_filter hid))
    obtain ⟨reads, hscan, hpage, hnext⟩ := @scan_eq (fun id => (met id).rowOf id) whole filters
      size _ (fun id hid => hwhole (hlisted id hid)) [] (Nat.zero_le size)
    have hids : reads.groups.map (·.group) = (Paging.page size
        ((fleet.filter (isKept keep)).filter passes) after).rows := by
      rw [hpage, List.nil_append, List.map_map]
      have hgroup : ∀ ids : List GroupId,
          ids.map (GroupFieldStateList.group ∘ fun id => filters.shown (whole id)) = ids :=
        fun ids => (List.map_congr_left fun id _ => group_wholeOf id).trans (List.map_id _)
      rw [hgroup]
      change _ = List.take size (((fleet.filter (isKept keep)).filter passes).elems.filter
        (Paging.past after))
      rw [hleft]
      rfl
    refine ⟨reads, ?_, hids, ?_, ?_⟩
    · unfold listFleetGroups
      rw [hpredicates]
      change (wantedSync query.sync >>= _) = _
      rw [hsync]
      change (pageSize query.limit >>= _) = _
      rw [hsize]
      change (candidates catalog { query with after := after } >>= _) = _
      rw [hcandidates]
      exact hscan
    · rw [hnext, ← List.getLast?_map, hids]
      unfold Paging.page
      dsimp only
      rw [hleft, List.length_nil, Nat.zero_add]
    · intro row hrow
      rw [hpage, List.nil_append] at hrow
      obtain ⟨id, hid, rfl⟩ := List.mem_map.mp hrow
      have hsome := hlisted id (List.mem_of_mem_filter (List.mem_of_mem_take hid))
      have hgroup : (filters.shown (whole id)).group = id := group_wholeOf id
      rw [hgroup]
      refine ⟨whole id, ?_, rfl⟩
      rw [hgroup]
      exact hwhole hsome

end Page

/-! ## A walk over the pages -/

/-- Requests that follow `next` from the first page, and what they meet. -/
structure GroupWalk where
  query : FleetGroupQuery
  /-- The fleet that the groups of a page are listed from. -/
  catalogs : ℕ → MemoryCatalog
  met : ℕ → GroupId → Met

/-- What answers them. -/
def GroupWalk.server (walk : GroupWalk) :
    Paging.Server GroupId FleetGroupReads (Devices.Fault ApiFailure) where
  fetch n after := listFleetGroups (fun id => (walk.met n id).rowOf id)
    { walk.query with after := after } (walk.catalogs n)
  shows reads := reads.groups.map (·.group)
  next := FleetGroupReads.next

/--
**What following `next` shows of the groups.** The store and the outbox go on being used, also from
one row to the next, and the document is replaced by others that keep what `?groups=` names; but no
group goes between being listed for a page and being looked up for it. Then every page is answered,
with rows that are what the groups' own indexes answer at the time; the ids are in strictly
increasing order, of groups that matched when they were shown; once the walk has ended, every group
that matched for each of its pages has been shown; and the walk ends, if the groups that match at
one time or another are finitely many.
-/
theorem group_pages {newV5 : Uuid → List UInt8 → Uuid} {layout : Layout} {budget : Option Nat}
    {c : Chrono} {maxAttempts : Nat} {backoff : Duration} (walk : GroupWalk)
    (hdocuments : ∀ n, ∃ document resolved, resolveConfig newV5 document = .ok resolved ∧
      walk.catalogs n = resolved.catalog)
    (hstores : ∀ n id, ∃ acts, (walk.met n id).store =
      (Machine.exec (Traffic.step layout) (.start budget) acts).store)
    (houtboxes : ∀ n id, ∃ ops, (walk.met n id).outbox =
      Machine.exec (GroupOutbox.step c) (.withMaxAttempts maxAttempts backoff) ops)
    (hstays : ∀ n id, ((walk.catalogs n).group id).isSome →
      ((walk.met n id).catalog.group id).isSome)
    {predicates : List Predicate} {sync : Option GroupSyncState}
    (hpredicates : predicatesOf walk.query.predicates = .ok predicates)
    (hsync : wantedSync walk.query.sync = .ok sync) (hlimit : walk.query.limit ≠ some 0)
    (hnamed : ∀ n, ∀ id ∈ csv walk.query.groups, ((walk.catalogs n).group id).isSome) :
    (∀ n after, ∃ reads, walk.server.fetch n after = .ok reads ∧ ∀ row ∈ reads.groups,
      Shows (walk.met n row.group) (wantedFields walk.query.fields) row) ∧
    walk.server.Shows fun n id =>
      Found (walk.catalogs n) (walk.met n id) walk.query predicates sync id := by
  obtain ⟨size, hpos, hsize⟩ := pageSize_ok hlimit
  have hpage : ∀ n, ∃ s : OrderedSet GroupId,
      (∀ id, id ∈ s ↔ Found (walk.catalogs n) (walk.met n id) walk.query predicates sync id) ∧
      ∀ after, ∃ reads, walk.server.fetch n after = .ok reads ∧
        walk.server.shows reads = (Paging.page size s after).rows ∧
        walk.server.next reads = (Paging.page size s after).next ∧
        ∀ row ∈ reads.groups, Shows (walk.met n row.group) (wantedFields walk.query.fields)
          row := by
    intro n
    obtain ⟨document, resolved, hok, hcatalog⟩ := hdocuments n
    have hfiles : ∀ id, (walk.met n id).store.Files := by
      intro id
      obtain ⟨acts, hstore⟩ := hstores n id
      exact hstore ▸ files_traffic layout budget acts
    have hmirrors : ∀ id, (walk.met n id).outbox.Mirrors := by
      intro id
      obtain ⟨ops, houtbox⟩ := houtboxes n id
      exact houtbox ▸ GroupOutbox.mirrors_run maxAttempts backoff ops
    exact listFleetGroups_eq (hcatalog ▸ groups_sorted hok) hfiles hmirrors (hstays n) hpredicates
      hsync hsize (hnamed n)
  choose s hmatches hpages using hpage
  refine ⟨fun n after => ?_, ?_⟩
  · obtain ⟨reads, hfetch, -, -, hrows⟩ := hpages n after
    exact ⟨reads, hfetch, hrows⟩
  · refine Paging.Server.shows_of_pages (s := s) hpos (fun n after => ?_) hmatches
    obtain ⟨reads, hfetch, hrows, hnext, -⟩ := hpages n after
    exact ⟨reads, hfetch, hrows, hnext⟩

/-! ## Two documents, one group to a page -/

/-- The laboratory and the hall. -/
def hallDocument : RawConfig :=
  { pairDocument with groups := [⟨"lab", ["a"], none, none⟩, ⟨"hall", ["a"], none, none⟩] }

/-- The hall has gone, and a studio and a spare recorder have come. -/
def studioDocument : RawConfig :=
  { pairDocument with
    groups := [⟨"lab", ["a"], none, none⟩, ⟨"studio", ["a"], none, none⟩,
      ⟨"spare", ["b"], none, none⟩] }

def groupOf (id : GroupId) (member : DeviceId) : GroupConfig :=
  ⟨id, [member], 8000000000, .failBatch⟩

def hallResolved : Devices.Resolved :=
  ⟨recorders.take 2, [groupOf "lab" "a", groupOf "hall" "a"]⟩

def studioResolved : Devices.Resolved :=
  ⟨recorders.take 2, [groupOf "lab" "a", groupOf "studio" "a", groupOf "spare" "b"]⟩

/-- What the catalogs say of the laboratory. -/
def labSummary : GroupSummary := ⟨"lab", ["a"], 8, .failBatch⟩

/-- `a` reports one version, and `b` another. -/
def versionsRead : List Traffic.Act :=
  [.begin (.upsertLatest ⟨"a", "FIRMWARE", .version "2.11", ⟨"2026"⟩⟩), .advance 0,
    .begin (.upsertLatest ⟨"b", "FIRMWARE", .version "2.10", ⟨"2026"⟩⟩), .advance 1]

/-- The groups on one version, one to a page. The document is replaced after the first page, and
`b` has not reported before. -/
def labWalk : GroupWalk where
  query := ⟨none, none, some "firmware:2.11", none, some 1, none⟩
  catalogs n := if n = 0 then hallResolved.catalog else studioResolved.catalog
  met n _ := {
    catalog := if n = 0 then hallResolved.catalog else studioResolved.catalog
    store := (Machine.exec (Traffic.step layout64) (.start none)
      (if n = 0 then versionsRead.take 2 else versionsRead)).store
    outbox := .withMaxAttempts 3 1000000000 }

theorem labWalk_documents (n : ℕ) : ∃ document resolved,
    resolveConfig newV5OfRecorders document = .ok resolved ∧
      labWalk.catalogs n = resolved.catalog := by
  have hhall : resolveConfig newV5OfRecorders hallDocument = .ok hallResolved := by decide +kernel
  have hstudio : resolveConfig newV5OfRecorders studioDocument = .ok studioResolved := by
    decide +kernel
  by_cases hn : n = 0
  · exact ⟨_, _, hhall, if_pos hn⟩
  · exact ⟨_, _, hstudio, if_neg hn⟩

/-- The group that is there throughout is shown between the one that goes and the one that comes. -/
theorem group_pages_lab :
    labWalk.server.Ends 2 ∧ "lab" ∈ labWalk.server.shown 3 ∧ labWalk.server.page 0 = ["hall"] ∧
      labWalk.server.page 2 = ["studio"] := by
  have hshows := (@group_pages newV5OfRecorders layout64 none utc 3 1000000000 labWalk
    labWalk_documents
    (fun _ _ => ⟨_, rfl⟩) (fun _ _ => ⟨[], rfl⟩) (fun _ _ h => h) [⟨"FIRMWARE", .text "2.11"⟩]
    none (by decide +kernel) rfl (by decide) fun _ _ hid => absurd hid List.not_mem_nil).2
  have hends : labWalk.server.Ends 2 := by
    have hasked : labWalk.server.asked 2 = some (some "lab") := by decide +kernel
    have hfetch : (labWalk.server.fetch 2 (some "lab")).toOption.map (·.next) = some none := by
      decide +kernel
    obtain ⟨answer, hanswer, hnone⟩ := Option.map_eq_some_iff.mp hfetch
    refine ⟨some "lab", answer, hasked, ?_, hnone⟩
    revert hanswer
    cases labWalk.server.fetch 2 (some "lab") with
    | error e => exact fun h => by cases h
    | ok reads => exact fun h => congrArg Except.ok (Option.some.inj h)
  have hlab : ∀ i ≤ 2, Found (labWalk.catalogs i) (labWalk.met i "lab") labWalk.query
      [⟨"FIRMWARE", .text "2.11"⟩] none "lab" := by
    have hlisted : ∀ i ≤ 2, (labWalk.catalogs i).group "lab" = some labSummary ∧
        (labWalk.met i "lab").catalog.group "lab" = some labSummary := by decide +kernel
    have hreads : ∀ i ≤ 2, readsOf (labWalk.met i "lab").store labSummary "FIRMWARE" =
        [⟨"a", "FIRMWARE", .version "2.11", ⟨"2026"⟩⟩] := by decide +kernel
    intro i hi
    obtain ⟨hfleet, hmet⟩ := hlisted i hi
    have hsatisfied : Satisfied (labWalk.met i "lab").store labSummary
        ⟨"FIRMWARE", .text "2.11"⟩ := by
      unfold Satisfied
      rw [hreads i hi]
      decide +kernel
    refine ⟨Option.isSome_iff_exists.mpr ⟨_, hfleet⟩, ⟨labSummary, hmet, ?_, ?_⟩, ?_⟩
    · intro predicate hmem
      obtain rfl := List.mem_singleton.mp hmem
      exact hsatisfied
    · exact fun _ hsome => by cases hsome
    · exact fun hne => absurd rfl hne
  exact ⟨hends, hshows.complete 2 hends "lab" hlab, by decide +kernel, by decide +kernel⟩

end FleetGroups

end Sismatic
