import Sismatic.HttpApi.FleetReads
import Sismatic.Lib.Walk
import Sismatic.Proof.GroupRequest

/-!
# A fleet, page by page

Every page is read from the catalog there is when it is asked for. The filters narrow the
catalog's own order, which is that of the ids, and the cursor is the last id on a page, so
the pages are those of the sets of devices that match. What a walk over them loses or
repeats, and whether it ends, is then a matter of those sets.
-/

namespace Sismatic

open Devices

/-! ## What matches -/

/-- What the filters name is configured. -/
structure FleetQuery.Named (query : FleetQuery) (catalog : MemoryCatalog) : Prop where
  group : ∀ group, query.group = some group → (catalog.group group).isSome
  devices : ∀ id ∈ csv query.devices, (catalog.device id).isSome

/-- The device is configured, and matches the filters. -/
structure Matches (store : MemoryStore) (query : FleetQuery) (predicates : List Predicate)
    (catalog : MemoryCatalog) (id : DeviceId) : Prop where
  configured : id ∈ catalog.devices.map (·.id)
  member : ∀ group, query.group = some group →
    ∃ summary, catalog.group group = some summary ∧ id ∈ summary.members
  named : csv query.devices ≠ [] → id ∈ csv query.devices
  holds : ∀ predicate ∈ predicates, predicate.holds (store.latestAll id) = true

/-! ## The filters -/

section Filters

variable {catalog : MemoryCatalog}

theorem groupFilter_ok {group : Option GroupId}
    (h : ∀ id, group = some id → (catalog.group id).isSome) :
    ∃ keep, groupFilter catalog group = .ok keep ∧
      ∀ id, isKept keep id = true ↔
        ∀ g, group = some g → ∃ summary, catalog.group g = some summary ∧ id ∈ summary.members := by
  cases group with
  | none => exact ⟨none, rfl, fun id => iff_of_true rfl fun g hg => nomatch hg⟩
  | some g =>
      obtain ⟨summary, hsummary⟩ := Option.isSome_iff_exists.mp (h g rfl)
      refine ⟨some (OrderedSet.ofList summary.members), ?_, ?_⟩
      · rw [groupFilter, groupMembers, hsummary]
        rfl
      · intro id
        have hkept : isKept (some (OrderedSet.ofList summary.members)) id = true ↔
            id ∈ summary.members := decide_eq_true_iff.trans OrderedSet.mem_ofList
        rw [hkept]
        refine ⟨?_, ?_⟩
        · intro hid g' hg'
          obtain rfl := Option.some.inj hg'
          exact ⟨summary, hsummary, hid⟩
        · intro hall
          obtain ⟨summary', hsummary', hid⟩ := hall g rfl
          rw [hsummary] at hsummary'
          obtain rfl := Option.some.inj hsummary'
          exact hid

theorem requestedOf_ok {named : List String} (h : ∀ id ∈ named, (catalog.device id).isSome)
    (requested : OrderedSet DeviceId) :
    ∃ all, requestedOf catalog named requested = .ok all ∧
      ∀ id, id ∈ all ↔ id ∈ named ∨ id ∈ requested := by
  induction named generalizing requested with
  | nil => exact ⟨requested, rfl, fun id => by simp⟩
  | cons first named ih =>
      obtain ⟨device, hdevice⟩ := Option.isSome_iff_exists.mp (h first List.mem_cons_self)
      obtain ⟨all, hall, hmem⟩ :=
        ih (fun id hid => h id (List.mem_cons_of_mem first hid)) (requested.insert first)
      refine ⟨all, ?_, ?_⟩
      · rw [requestedOf, hdevice]
        exact hall
      · intro id
        rw [hmem, OrderedSet.mem_insert, List.mem_cons]
        tauto

theorem namedFilter_ok {named : List String} (h : ∀ id ∈ named, (catalog.device id).isSome)
    (keep : Option (OrderedSet DeviceId)) :
    ∃ kept, namedFilter catalog named keep = .ok kept ∧
      ∀ id, isKept kept id = true ↔ isKept keep id = true ∧ (named ≠ [] → id ∈ named) := by
  unfold namedFilter
  by_cases hnil : named = []
  · subst hnil
    exact ⟨keep, rfl, fun id => by simp⟩
  · obtain ⟨requested, hrequested, hmem⟩ := requestedOf_ok h OrderedSet.empty
    have hall : ∀ id, id ∈ requested ↔ id ∈ named := by
      intro id
      rw [hmem]
      exact or_iff_left fun hempty => List.not_mem_nil hempty
    rw [if_neg (by simpa using hnil), hrequested]
    cases keep with
    | none =>
        refine ⟨some requested, rfl, fun id => ?_⟩
        have hkept : isKept (some requested) id = true ↔ id ∈ requested := decide_eq_true_iff
        rw [hkept, hall]
        exact ⟨fun hid => ⟨rfl, fun _ => hid⟩, fun hid => hid.2 hnil⟩
    | some group =>
        refine ⟨some (group.filter fun id => decide (id ∈ requested)), rfl, fun id => ?_⟩
        have hkept : isKept (some (group.filter fun id => decide (id ∈ requested))) id = true ↔
            id ∈ group ∧ id ∈ requested :=
          decide_eq_true_iff.trans (OrderedSet.mem_filter.trans
            (and_congr_right fun _ => decide_eq_true_iff))
        have hgroup : isKept (some group) id = true ↔ id ∈ group := decide_eq_true_iff
        rw [hkept, hgroup, hall]
        exact and_congr_right fun _ => ⟨fun hid _ => hid, fun hid => hid hnil⟩

/-- **The filters narrow the catalog's order**, whichever of them are given. -/
theorem candidates_ok {query : FleetQuery} (h : query.Named catalog) :
    ∃ keep : Option (OrderedSet DeviceId),
      (∀ after, candidates catalog { query with after := after } =
        .ok (((catalog.devices.map (·.id)).filter (isKept keep)).filter (Paging.past after))) ∧
      ∀ id, isKept keep id = true ↔
        (∀ g, query.group = some g →
          ∃ summary, catalog.group g = some summary ∧ id ∈ summary.members) ∧
        (csv query.devices ≠ [] → id ∈ csv query.devices) := by
  obtain ⟨group, hgroup, hmember⟩ := groupFilter_ok h.group
  obtain ⟨keep, hkeep, hnamed⟩ := namedFilter_ok h.devices group
  refine ⟨keep, ?_, ?_⟩
  · intro after
    unfold candidates
    dsimp only
    rw [hgroup]
    change (namedFilter catalog (csv query.devices) group >>= _) = _
    rw [hkeep]
    rfl
  · intro id
    rw [hnamed, hmember]

end Filters

/-! ## One page -/

section Page

variable {store : MemoryStore} {predicates : List Predicate}

/-- The whole of the where filter on one device. -/
def satisfiesAll (store : MemoryStore) (predicates : List Predicate) (device : DeviceId) : Bool :=
  predicates.all fun predicate => predicate.holds (store.latestAll device)

/-- The loop keeps the first devices that satisfy the filter, and asks for more after the last
of them if one more does. -/
theorem scan_eq (fields : Option (OrderedSet FieldName)) {limit : Nat}
    (candidates : List DeviceId) {devices : List DeviceReads} (h : devices.length ≤ limit) :
    (scan store predicates fields limit candidates devices).devices.map (·.device) =
        devices.map (·.device) ++
          (candidates.filter (satisfiesAll store predicates)).take (limit - devices.length) ∧
      (scan store predicates fields limit candidates devices).next =
        if limit < devices.length + (candidates.filter (satisfiesAll store predicates)).length then
          (devices.map (·.device) ++
            (candidates.filter (satisfiesAll store predicates)).take
              (limit - devices.length)).getLast?
        else none := by
  induction candidates generalizing devices with
  | nil =>
      refine ⟨by simp [scan], ?_⟩
      exact (if_neg (Nat.not_lt.mpr h)).symm
  | cons device candidates ih =>
      rw [scan]
      cases hholds : satisfiesAll store predicates device with
      | false =>
          have hskip : (!predicates.all (·.holds (store.latestAll device))) = true := by
            change (!satisfiesAll store predicates device) = true
            rw [hholds]
            rfl
          rw [if_pos hskip, List.filter_cons_of_neg (by rw [hholds]; exact Bool.false_ne_true)]
          exact ih h
      | true =>
          have hkeep : ¬ (!predicates.all (·.holds (store.latestAll device))) = true := by
            change ¬ (!satisfiesAll store predicates device) = true
            rw [hholds]
            exact Bool.false_ne_true
          rw [if_neg hkeep, List.filter_cons_of_pos hholds]
          by_cases hfull : devices.length = limit
          · -- one more than there is room for
            rw [if_pos hfull, hfull, Nat.sub_self, List.take_zero, List.append_nil,
              List.getLast?_map, List.length_cons, if_pos (by omega)]
            exact ⟨rfl, rfl⟩
          · have hroom : devices.length < limit := lt_of_le_of_ne h hfull
            have hlength : (devices ++
                [DeviceReads.mk device (project (store.latestAll device) fields)]).length =
                  devices.length + 1 := List.length_append
            obtain ⟨hrows, hnext⟩ := ih (hlength.le.trans hroom)
            have htake : limit - devices.length = limit - (devices.length + 1) + 1 := by omega
            rw [if_neg hfull, hrows, hnext, hlength, List.map_append, List.append_assoc, htake,
              List.take_succ_cons, List.length_cons, Nat.add_right_comm, Nat.add_assoc]
            exact ⟨rfl, rfl⟩

theorem pageSize_ok {limit : Option UInt32} (h : limit ≠ some 0) :
    ∃ size, 0 < size ∧ pageSize limit = .ok size := by
  cases limit with
  | none => exact ⟨defaultLimit.toNat, by decide, rfl⟩
  | some limit =>
      have hne : limit ≠ 0 := fun hzero => h (congrArg some hzero)
      refine ⟨(min limit maxLimit).toNat, ?_, if_neg hne⟩
      have hmin : min limit maxLimit = if limit ≤ maxLimit then limit else maxLimit := rfl
      rw [hmin]
      split
      · exact Nat.pos_of_ne_zero fun hzero => hne (UInt32.toNat_inj.mp hzero)
      · decide

/-- The catalog of a document lists its devices by id, and each once. -/
theorem catalog_sorted {newV5 : Uuid → List UInt8 → Uuid} {document : RawConfig}
    {resolved : Devices.Resolved} (h : resolveConfig newV5 document = .ok resolved) :
    (resolved.catalog.devices.map (·.id)).Pairwise (· < ·) := by
  have hle : (resolved.catalog.devices.map (·.id)).Pairwise (· ≤ ·) :=
    List.pairwise_map.mpr (List.pairwise_insertionSort _ _)
  have hnodup : (resolved.catalog.devices.map (·.id)).Nodup := by
    have hids := (sound_of_resolveConfig h).devices_nodup
    have hperm := (List.perm_insertionSort (fun a b : DeviceSummary => a.id ≤ b.id)
      (resolved.devices.map summarize)).map (·.id)
    refine hperm.nodup_iff.mpr ?_
    rw [List.map_map]
    exact hids
  exact (hle.and hnodup).imp fun hboth => lt_of_le_of_ne hboth.1 hboth.2

/-- **A page is one of the set of devices that match.** -/
theorem listFleet_eq {catalog : MemoryCatalog} {query : FleetQuery}
    (hsorted : (catalog.devices.map (·.id)).Pairwise (· < ·))
    (hpredicates : predicatesOf query.predicates = .ok predicates) {size : Nat}
    (hsize : pageSize query.limit = .ok size) (hnamed : query.Named catalog) :
    ∃ s : OrderedSet DeviceId, (∀ id, id ∈ s ↔ Matches store query predicates catalog id) ∧
      ∀ after, ∃ reads, listFleet store { query with after := after } catalog = .ok reads ∧
        reads.devices.map (·.device) = (Paging.page size s after).rows ∧
        reads.next = (Paging.page size s after).next := by
  obtain ⟨keep, hcandidates, hkeep⟩ := candidates_ok hnamed
  let fleet : OrderedSet DeviceId := ⟨catalog.devices.map (·.id), hsorted⟩
  refine ⟨(fleet.filter (isKept keep)).filter (satisfiesAll store predicates), ?_, ?_⟩
  · intro id
    rw [OrderedSet.mem_filter, OrderedSet.mem_filter, hkeep, satisfiesAll, List.all_eq_true]
    exact ⟨fun h => ⟨h.1.1, h.1.2.1, h.1.2.2, h.2⟩,
      fun h => ⟨⟨h.configured, h.member, h.named⟩, h.holds⟩⟩
  · intro after
    -- the cursor is applied before the where filter, which comes to the same
    have hleft : (((fleet.filter (isKept keep)).filter
        (satisfiesAll store predicates)).elems.filter (Paging.past after)) =
          (((catalog.devices.map (·.id)).filter (isKept keep)).filter (Paging.past after)).filter
            (satisfiesAll store predicates) :=
      List.filter_comm ..
    obtain ⟨hrows, hnext⟩ := @scan_eq store predicates (wantedFields query.fields) size
      (((catalog.devices.map (·.id)).filter (isKept keep)).filter (Paging.past after)) []
      (Nat.zero_le size)
    refine ⟨_, ?_, hrows.trans ?_, hnext.trans ?_⟩
    · unfold listFleet
      rw [hpredicates]
      change (pageSize query.limit >>= _) = _
      rw [hsize]
      change (candidates catalog { query with after := after } >>= _) = _
      rw [hcandidates]
      rfl
    · rw [← hleft]
      rfl
    · rw [← hleft, List.length_nil, Nat.zero_add]
      rfl

end Page

/-! ## A walk over the pages -/

/-- Requests that follow `next` from the first page, and the catalogs they meet. -/
structure FleetWalk where
  store : MemoryStore
  query : FleetQuery
  catalogs : ℕ → MemoryCatalog

/-- What answers them. -/
def FleetWalk.server (walk : FleetWalk) :
    Paging.Server DeviceId FleetReads (Devices.Fault ApiFailure) where
  fetch n after := listFleet walk.store { walk.query with after := after } (walk.catalogs n)
  shows reads := reads.devices.map (·.device)
  next := FleetReads.next

/--
**What following `next` shows.** Against a fixed store, and catalogs of documents that resolve and
keep what the filters name, every page is answered, and `next` is null exactly when no device that
matches is left behind the page. The ids shown are in strictly increasing order, and matched when
they were shown. Once the walk has ended, every device that matched for each of its pages has been
shown, and once. And the walk ends, if the devices that match in it at one time or another are
finitely many.
-/
theorem fleet_pages {newV5 : Uuid → List UInt8 → Uuid} (walk : FleetWalk)
    (hdocuments : ∀ n, ∃ document resolved, resolveConfig newV5 document = .ok resolved ∧
      walk.catalogs n = resolved.catalog)
    (hlimit : walk.query.limit ≠ some 0) {predicates : List Predicate}
    (hpredicates : predicatesOf walk.query.predicates = .ok predicates)
    (hnamed : ∀ n, walk.query.Named (walk.catalogs n)) :
    (∀ n after, walk.server.asked n = some after → ∃ reads, walk.server.fetch n after = .ok reads ∧
      (reads.next = none ↔ ∀ id, Matches walk.store walk.query predicates (walk.catalogs n) id →
        Paging.past after id = true → id ∈ reads.devices.map (·.device))) ∧
    (∀ n, (walk.server.shown n).Pairwise (· < ·)) ∧
    (∀ n, ∀ id ∈ walk.server.page n,
      Matches walk.store walk.query predicates (walk.catalogs n) id) ∧
    (∀ n, walk.server.Ends n → ∀ id,
      (∀ i ≤ n, Matches walk.store walk.query predicates (walk.catalogs i) id) →
        (walk.server.shown (n + 1)).count id = 1) ∧
    ({id | ∃ n, Matches walk.store walk.query predicates (walk.catalogs n) id}.Finite →
      ∃ n, walk.server.Ends n) := by
  obtain ⟨size, hpos, hsize⟩ := pageSize_ok hlimit
  have hpage : ∀ n, ∃ s : OrderedSet DeviceId,
      (∀ id, id ∈ s ↔ Matches walk.store walk.query predicates (walk.catalogs n) id) ∧
      ∀ after, ∃ reads, walk.server.fetch n after = .ok reads ∧
        walk.server.shows reads = (Paging.page size s after).rows ∧
        walk.server.next reads = (Paging.page size s after).next := by
    intro n
    obtain ⟨document, resolved, hok, hcatalog⟩ := hdocuments n
    exact listFleet_eq (hcatalog ▸ catalog_sorted hok) hpredicates hsize (hnamed n)
  choose s hmatches hpages using hpage
  have hshows := Paging.Server.shows_of_pages hpos (fun n after => hpages n after) hmatches
  refine ⟨fun n after _ => ?_, hshows.ordered, hshows.sound, fun n hends id hall => ?_,
    hshows.ends⟩
  · obtain ⟨reads, hfetch, hrows, hnext⟩ := hpages n after
    have hshown : reads.devices.map (·.device) = (Paging.page size (s n) after).rows := hrows
    have hcursor : reads.next = (Paging.page size (s n) after).next := hnext
    refine ⟨reads, hfetch, ?_⟩
    rw [hcursor, hshown, Paging.next_none_iff hpos]
    exact forall_congr' fun id => by rw [hmatches]
  · refine List.count_eq_one_of_mem ?_ (hshows.complete n hends id hall)
    exact (hshows.ordered (n + 1)).imp fun hlt => ne_of_lt hlt

/-! ## A fleet that keeps growing -/

def idOfLength (n : ℕ) : DeviceId := String.ofList (List.replicate (n + 1) 'a')

theorem idOfLength_strictMono : StrictMono idOfLength := by
  refine strictMono_nat_of_lt_succ fun n => ?_
  rw [idOfLength, idOfLength, String.lt_iff_toList_lt, String.toList_ofList, String.toList_ofList]
  induction n with
  | zero => decide
  | succ n ih =>
      rw [List.replicate_succ, List.replicate_succ (n := n + 1 + 1)]
      exact List.cons_lt_cons_iff.mpr (.inr ⟨rfl, ih⟩)

/-- Recorders of these ids, with nothing else to tell them apart. -/
def recordersOf (ids : List DeviceId) : List DeviceConfig :=
  ids.map fun id => recorder Uuid.nil.bytes id ⟨"10.0.0.1", firstHost_fits⟩ 22023

theorem resolveConfig_recordersOf {ids : List DeviceId} (hnodup : ids.Nodup) :
    resolveConfig (fun _ _ => Uuid.nil) ⟨noDefaults, (recordersOf ids).map rawOf, []⟩ =
      .ok ⟨recordersOf ids, []⟩ := by
  refine resolveConfig_ok.mpr ⟨?_, rfl⟩
  refine resolveDevices_rawOf noDefaults ?_ (fun _ _ => List.not_mem_nil) ?_
  · rw [recordersOf, List.map_map]
    exact (List.map_id ids).symm ▸ hnodup
  · intro config hconfig
    obtain ⟨id, -, rfl⟩ := List.mem_map.mp hconfig
    exact ⟨rfl, ⟨5, rfl⟩, ⟨3, rfl⟩, ⟨120, rfl⟩, ⟨30, rfl⟩, ⟨30, rfl⟩, ⟨0, rfl⟩,
      fun _ hname => absurd hname List.not_mem_nil⟩

theorem mem_catalog_recordersOf (ids : List DeviceId) {id : DeviceId} :
    id ∈ (⟨recordersOf ids, []⟩ : Devices.Resolved).catalog.devices.map (·.id) ↔ id ∈ ids := by
  have hperm : ((⟨recordersOf ids, []⟩ : Devices.Resolved).catalog.devices.map (·.id)).Perm
      ((recordersOf ids).map (·.id)) := by
    refine ((List.perm_insertionSort _ _).map _).trans ?_
    rw [List.map_map]
    exact .refl _
  rw [hperm.mem_iff, recordersOf, List.map_map]
  exact (congrArg (id ∈ ·) (List.map_id ids)).to_iff

/-- The device that is there for this page, and the one that is added for the next. -/
def grownDevices (n : ℕ) : List DeviceConfig :=
  [recorder Uuid.nil.bytes (idOfLength n) ⟨"10.0.0.1", firstHost_fits⟩ 22023,
    recorder Uuid.nil.bytes (idOfLength (n + 1)) ⟨"10.0.0.1", firstHost_fits⟩ 22023]

def grownDocument (n : ℕ) : RawConfig := ⟨noDefaults, (grownDevices n).map rawOf, []⟩

def grownResolved (n : ℕ) : Devices.Resolved := ⟨grownDevices n, []⟩

theorem resolveConfig_grown (n : ℕ) :
    resolveConfig (fun _ _ => Uuid.nil) (grownDocument n) = .ok (grownResolved n) := by
  have hlt := idOfLength_strictMono (Nat.lt_succ_self n)
  have hnodup : [idOfLength n, idOfLength (n + 1)].Nodup :=
    List.nodup_cons.mpr ⟨fun hmem => ne_of_lt hlt (List.mem_singleton.mp hmem),
      List.nodup_singleton _⟩
  exact resolveConfig_recordersOf hnodup

/-- One device a page, and nothing filtered. -/
def onePerPage : FleetQuery := ⟨none, none, none, none, some 1, none⟩

def growingWalk : FleetWalk where
  store := .withBudget none
  query := onePerPage
  catalogs n := (grownResolved n).catalog

theorem named_onePerPage (catalog : MemoryCatalog) : onePerPage.Named catalog where
  group := fun _ hgroup => nomatch hgroup
  devices := fun _ hid => absurd hid List.not_mem_nil

theorem matches_growing (n : ℕ) (id : DeviceId) :
    Matches growingWalk.store onePerPage [] (growingWalk.catalogs n) id ↔
      id = idOfLength n ∨ id = idOfLength (n + 1) := by
  have hmem : id ∈ (growingWalk.catalogs n).devices.map (·.id) ↔
      id = idOfLength n ∨ id = idOfLength (n + 1) := by
    have hlisted : id ∈ (growingWalk.catalogs n).devices.map (·.id) ↔
        id ∈ [idOfLength n, idOfLength (n + 1)] :=
      mem_catalog_recordersOf [idOfLength n, idOfLength (n + 1)]
    rw [hlisted, List.mem_cons, List.mem_singleton]
  refine ⟨fun h => hmem.mp h.configured, fun h => ⟨hmem.mpr h, ?_, ?_, ?_⟩⟩
  · exact fun _ hgroup => nomatch hgroup
  · exact fun hnil => absurd rfl hnil
  · exact fun _ hmem => absurd hmem List.not_mem_nil

/-- A device with a later id is added before every page, and `next` is never null. -/
theorem growing_never_ends :
    (∀ n, resolveConfig (fun _ _ => Uuid.nil) (grownDocument n) = .ok (grownResolved n) ∧
      growingWalk.catalogs n = (grownResolved n).catalog ∧
      growingWalk.query.Named (growingWalk.catalogs n)) ∧
    predicatesOf growingWalk.query.predicates = .ok [] ∧ growingWalk.query.limit = some 1 ∧
    ¬ ∃ n, growingWalk.server.Ends n := by
  refine ⟨fun n => ⟨resolveConfig_grown n, rfl, named_onePerPage _⟩, rfl, rfl, ?_⟩
  have hpage : ∀ n, ∃ s : OrderedSet DeviceId,
      (∀ id, id ∈ s ↔ Matches growingWalk.store onePerPage [] (growingWalk.catalogs n) id) ∧
      ∀ after, ∃ reads, growingWalk.server.fetch n after = .ok reads ∧
        growingWalk.server.shows reads = (Paging.page 1 s after).rows ∧
        growingWalk.server.next reads = (Paging.page 1 s after).next := fun n =>
    listFleet_eq (catalog_sorted (resolveConfig_grown n)) rfl rfl (named_onePerPage _)
  choose s hmatches hpages using hpage
  have hasked := Paging.asked_growing (s := s) idOfLength_strictMono fun n id =>
    (hmatches n id).trans (matches_growing n id)
  intro hends
  obtain ⟨n, hends⟩ := hends
  obtain ⟨after, hafter, hnone⟩ := (Paging.Server.ends_iff fun n after => hpages n after).mp hends
  have hnext := hasked n
  rw [Paging.asked, hafter, Option.bind_some, hnone] at hnext
  cases hnext

/-! ## A fleet of two, one to a page -/

def pairWalk : FleetWalk where
  store := .withBudget none
  query := { onePerPage with group := some "lab", devices := some "b, a" }
  catalogs _ := pairResolved.catalog

/-- Both are shown, and once. -/
theorem fleet_pages_pair :
    ∃ n, pairWalk.server.Ends n ∧
      ∀ id ∈ ["a", "b"], (pairWalk.server.shown (n + 1)).count id = 1 := by
  have hok : resolveConfig newV5OfRecorders pairDocument = .ok pairResolved := by decide +kernel
  have hnamed : pairWalk.query.Named pairResolved.catalog := by
    refine ⟨?_, by decide +kernel⟩
    intro group hgroup
    obtain rfl := Option.some.inj hgroup
    decide +kernel
  have hpredicates : predicatesOf pairWalk.query.predicates = .ok [] := rfl
  obtain ⟨-, -, -, hshown, hends⟩ := fleet_pages pairWalk (fun _ => ⟨_, _, hok, rfl⟩)
    (by decide) hpredicates fun _ => hnamed
  have hfinite :
      {id | ∃ n, Matches pairWalk.store pairWalk.query [] (pairWalk.catalogs n) id}.Finite := by
    refine (List.finite_toSet (pairResolved.catalog.devices.map (·.id))).subset fun id hid => ?_
    obtain ⟨_, hid⟩ := hid
    exact hid.configured
  obtain ⟨n, hn⟩ := hends hfinite
  refine ⟨n, hn, fun id hid => hshown n hn id fun i _ => ?_⟩
  have hgroup : ∃ summary, pairResolved.catalog.group "lab" = some summary ∧
      summary.members = ["a", "b"] := ⟨_, rfl, rfl⟩
  obtain ⟨summary, hsummary, hmembers⟩ := hgroup
  refine ⟨?_, ?_, ?_, fun _ hmem => absurd hmem List.not_mem_nil⟩
  · change id ∈ pairResolved.catalog.devices.map (·.id)
    revert id
    decide +kernel
  · intro group hgroup
    obtain rfl := Option.some.inj hgroup
    exact ⟨summary, hsummary, hmembers ▸ hid⟩
  · intro _
    revert id
    decide +kernel

end Sismatic
