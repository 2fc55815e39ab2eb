import Sismatic.HttpUi.Queries
import Sismatic.Proof.GroupPages
import Sismatic.Proof.Spellings

/-!
# What the overview has in hand

A fetch of the overview is a walk over one of the fleet routes that gives up after a hundred
pages. The routes answer with pages of sets, so the fetch is all there is unless it is so many rows
that the last page asked for was full.
-/

namespace Sismatic

/-! ## Collecting -/

section Collect

variable {T ε : Type} (fetchPage : ℕ → Option String → Except ε (FleetPage T)) (key : T → String)

/-- A fleet route, as what answers a walk. -/
def pagesOf : Paging.Server String (FleetPage T) ε where
  fetch := fetchPage
  shows page := page.rows.map key
  next := FleetPage.next

variable {fetchPage key} {k : ℕ} {s : ℕ → OrderedSet String}

/-- Behind a page without a next one there is nothing. -/
theorem page_of_ended {n : ℕ} (hnone : (pagesOf fetchPage key).asked n = none) {m : ℕ}
    (hm : n ≤ m) : (pagesOf fetchPage key).page m = [] := by
  have hended : (pagesOf fetchPage key).asked m = none := by
    by_contra hgoes
    exact Paging.Server.asked_mono hm hgoes hnone
  rw [Paging.Server.page, hended]
  rfl

/-- **The rounds collect what the walk shows**; by induction on how many are left. -/
theorem collectRounds_pages (hk : 0 < k) (h : (pagesOf fetchPage key).Pages k s) {left n : ℕ}
    {after : Option String} (hasked : (pagesOf fetchPage key).asked n = some after)
    (rows : List T) :
    ∃ more, collectRounds fetchPage left n after rows = .ok (rows ++ more) ∧
      more.map key = (List.range' n left).flatMap (pagesOf fetchPage key).page ∧
      ∀ row ∈ more, ∃ i after page, n ≤ i ∧ i < n + left ∧ fetchPage i after = .ok page ∧
        row ∈ page.rows := by
  induction left generalizing n after rows with
  | zero =>
      refine ⟨[], ?_, rfl, fun row hrow => absurd hrow List.not_mem_nil⟩
      rw [collectRounds, List.append_nil]
  | succ left ih =>
      obtain ⟨page, hfetch, hshows, hnext⟩ := h n after
      have hpage : (pagesOf fetchPage key).page n = page.rows.map key := by
        rw [Paging.Server.page, hasked]
        change ((fetchPage n after).toOption).toList.flatMap _ = _
        have hfetch' : fetchPage n after = .ok page := hfetch
        rw [hfetch']
        exact List.flatMap_singleton ..
      have hsucc : (pagesOf fetchPage key).asked (n + 1) = page.next.map some := by
        rw [Paging.Server.asked, hasked, Option.bind_some, hfetch]
        rfl
      have hfetch' : fetchPage n after = .ok page := hfetch
      rw [collectRounds, hfetch', List.range'_succ, List.flatMap_cons, hpage]
      dsimp only
      rcases hcursor : page.next with _ | cursor
      · -- the walk ends here
        rw [hcursor, Option.map_none] at hsucc
        have hrest : (List.range' (n + 1) left).flatMap (pagesOf fetchPage key).page = [] := by
          refine List.flatMap_eq_nil_iff.mpr fun m hm => page_of_ended hsucc ?_
          rw [List.mem_range'_1] at hm
          omega
        refine ⟨page.rows, if_pos rfl, ?_, fun row hrow => ?_⟩
        · rw [hrest, List.append_nil]
        · exact ⟨n, after, page, le_refl n, by omega, hfetch', hrow⟩
      · -- a page with a next one is full, and so not empty
        have hfull : page.rows.length = k := by
          have hgoes : (Paging.page k (s n) after).next ≠ none := by
            rw [← hnext]
            exact fun hnone => by cases hcursor.symm.trans hnone
          rw [← List.length_map key, ← Paging.length_of_next hgoes, ← hshows]
          rfl
        have hsome : page.rows.isEmpty = false := by
          rw [List.isEmpty_eq_false_iff]
          rintro hnil
          rw [hnil, List.length_nil] at hfull
          omega
        rw [hcursor, Option.map_some] at hsucc
        obtain ⟨more, hcollect, hmore, hfrom⟩ := ih hsucc (rows ++ page.rows)
        refine ⟨page.rows ++ more, ?_, ?_, fun row hrow => ?_⟩
        · rw [hsome, ← List.append_assoc]
          exact hcollect
        · rw [List.map_append, hmore]
        · rcases List.mem_append.mp hrow with hrow | hrow
          · exact ⟨n, after, page, le_refl n, by omega, hfetch', hrow⟩
          · obtain ⟨i, later, page, hi, hlt, hrest⟩ := hfrom row hrow
            exact ⟨i, later, page, by omega, by omega, hrest⟩

/-- What a fetch has come to, of rows that may be another lot for every page. -/
structure Fetched (limit : ℕ) (key : T → String) (there : ℕ → String → Prop)
    (answers : ℕ → T → Prop) (rows : List T) : Prop where
  /-- No two rows of one id, and all in order. -/
  ordered : (rows.map key).Pairwise (· < ·)
  /-- Each row is what was answered for an id that was there. -/
  sound : ∀ row ∈ rows, ∃ n < maxPages, there n (key row) ∧ answers n row
  bounded : rows.length ≤ maxPages * limit
  /-- Nothing is missing that was there all along, unless the last page was full. -/
  complete : rows.length < maxPages * limit →
    ∀ id, (∀ n < maxPages, there n id) → id ∈ rows.map key

/-- **What a route of pages gives the overview.** -/
theorem fetched_of_pages {limit : ℕ} (hlimit : 0 < limit) {there : ℕ → String → Prop}
    {answers : ℕ → T → Prop} (h : (pagesOf fetchPage key).Pages limit s)
    (hthere : ∀ n id, id ∈ s n ↔ there n id)
    (hanswers : ∀ n after page, fetchPage n after = .ok page → ∀ row ∈ page.rows,
      there n (key row) → answers n row) :
    ∃ rows, collectPages fetchPage = .ok rows ∧ Fetched limit key there answers rows := by
  obtain ⟨rows, hcollect, hrows, hfrom⟩ :=
    @collectRounds_pages T ε fetchPage key limit s hlimit h maxPages 0 none rfl []
  have hshown : rows.map key = (pagesOf fetchPage key).shown maxPages := by
    rw [hrows, Paging.Server.shown, List.range_eq_range']
  have hshows := Paging.Server.shows_of_pages hlimit h hthere
  refine ⟨rows, hcollect, ?_, fun row hrow => ?_, ?_, fun hshort id hall => ?_⟩
  · rw [hshown]
    exact hshows.ordered maxPages
  · obtain ⟨n, after, page, -, hlt, hfetch, hmem⟩ := hfrom row hrow
    obtain ⟨page', hfetch', hshows', -⟩ := h n after
    obtain rfl := Except.ok.inj (hfetch.symm.trans hfetch')
    have hkey : key row ∈ (Paging.page limit (s n) after).rows := by
      rw [← hshows']
      exact List.mem_map_of_mem hmem
    have hrow := (hthere n (key row)).mp (Paging.mem_of_rows hkey).1
    exact ⟨n, by omega, hrow, hanswers n after page hfetch row hmem hrow⟩
  · rw [← List.length_map key, hshown]
    exact Paging.Server.length_shown_le h maxPages
  · rw [hshown]
    refine Paging.Server.complete_of_short hlimit h hthere ?_ id hall
    rw [← hshown, List.length_map]
    exact hshort

end Collect

/-! ## The rows of a page of devices -/

theorem scan_rows {store : MemoryStore} {predicates : List Predicate}
    {fields : Option (OrderedSet FieldName)} {limit : Nat} (candidates : List DeviceId)
    {devices : List DeviceReads}
    (h : ∀ row ∈ devices, row.latest = project (store.latestAll row.device) fields) :
    ∀ row ∈ (scan store predicates fields limit candidates devices).devices,
      row.latest = project (store.latestAll row.device) fields := by
  induction candidates generalizing devices with
  | nil => exact h
  | cons device candidates ih =>
      rw [scan]
      split
      · exact ih h
      · split
        · exact h
        · refine ih fun row hrow => ?_
          rcases List.mem_append.mp hrow with hold | hnew
          · exact h row hold
          · obtain rfl := List.mem_singleton.mp hnew
            rfl

/-! ## The two fetches -/

namespace Answering

/-- Every request finds a document that loads, a store in use and an outbox in use. -/
structure Running (newV5 : Devices.Uuid → List UInt8 → Devices.Uuid) (layout : Layout)
    (budget : Option Nat) (c : Chrono) (maxAttempts : Nat) (backoff : Duration)
    (server : Answering) : Prop where
  document : ∀ n, ∃ document resolved, Devices.resolveConfig newV5 document = .ok resolved ∧
    server.catalogs n = resolved.catalog
  store : ∀ n, ∃ acts, server.stores n =
    (Machine.exec (Traffic.step layout) (.start budget) acts).store
  outbox : ∀ n, ∃ ops, server.outboxes n =
    Machine.exec (GroupOutbox.step c) (.withMaxAttempts maxAttempts backoff) ops

variable {newV5 : Devices.Uuid → List UInt8 → Devices.Uuid} {layout : Layout}
  {budget : Option Nat} {c : Chrono} {maxAttempts : Nat} {backoff : Duration} {server : Answering}

theorem devices_pages (h : server.Running newV5 layout budget c maxAttempts backoff) :
    ∃ s : ℕ → OrderedSet DeviceId,
      (pagesOf server.devicesPage (·.device)).Pages defaultLimit.toNat s ∧
      ∀ n id, id ∈ s n ↔ id ∈ (server.catalogs n).devices.map (·.id) := by
  have hpage : ∀ n, ∃ s : OrderedSet DeviceId,
      (∀ id, id ∈ s ↔ id ∈ (server.catalogs n).devices.map (·.id)) ∧
      ∀ after, ∃ page, server.devicesPage n after = .ok page ∧
        page.rows.map (·.device) = (Paging.page defaultLimit.toNat s after).rows ∧
        page.next = (Paging.page defaultLimit.toNat s after).next := by
    intro n
    obtain ⟨document, resolved, hok, hcatalog⟩ := h.document n
    have hnamed : (⟨none, none, none, none, none, none⟩ : FleetQuery).Named
        (server.catalogs n) := ⟨fun _ hsome => (by cases hsome), fun _ hid => (by cases hid)⟩
    obtain ⟨s, hs, hpages⟩ := @listFleet_eq (server.stores n) [] (server.catalogs n)
      ⟨none, none, none, none, none, none⟩ (hcatalog ▸ catalog_sorted hok) rfl
      defaultLimit.toNat rfl hnamed
    refine ⟨s, fun id => (hs id).trans ⟨fun hmatch => hmatch.configured, fun hid => ?_⟩, ?_⟩
    · exact ⟨hid, fun _ hsome => (by cases hsome), fun hne => absurd rfl hne,
        fun _ hmem => absurd hmem List.not_mem_nil⟩
    · intro after
      obtain ⟨reads, hreads, hrows, hnext⟩ := hpages after
      refine ⟨⟨reads.devices, reads.next⟩, ?_, hrows, hnext⟩
      exact congrArg (Except.map fun data => FleetPage.mk data.devices data.next) hreads
  choose s hs hpages using hpage
  exact ⟨s, fun n after => hpages n after, hs⟩

/-- What a page of groups meets for every one of its rows. -/
def met (server : Answering) (n : ℕ) : FleetGroups.Met :=
  ⟨server.catalogs n, server.stores n, server.outboxes n⟩

theorem groups_pages (h : server.Running newV5 layout budget c maxAttempts backoff) :
    ∃ s : ℕ → OrderedSet GroupId,
      (pagesOf server.groupsPage (·.group)).Pages defaultLimit.toNat s ∧
      ∀ n id, id ∈ s n ↔ ((server.catalogs n).group id).isSome := by
  have hpage : ∀ n, ∃ s : OrderedSet GroupId,
      (∀ id, id ∈ s ↔ ((server.catalogs n).group id).isSome) ∧
      ∀ after, ∃ page, server.groupsPage n after = .ok page ∧
        page.rows.map (·.group) = (Paging.page defaultLimit.toNat s after).rows ∧
        page.next = (Paging.page defaultLimit.toNat s after).next := by
    intro n
    obtain ⟨document, resolved, hok, hcatalog⟩ := h.document n
    obtain ⟨acts, hstore⟩ := h.store n
    obtain ⟨ops, houtbox⟩ := h.outbox n
    have hfiles : (server.stores n).Files := hstore ▸ files_traffic layout budget acts
    have hmirrors : (server.outboxes n).Mirrors :=
      houtbox ▸ GroupOutbox.mirrors_run maxAttempts backoff ops
    obtain ⟨s, hs, hpages⟩ := @FleetGroups.listFleetGroups_eq (server.catalogs n)
      (fun _ => server.met n) ⟨none, none, none, none, none, none⟩ [] none defaultLimit.toNat
      (hcatalog ▸ FleetGroups.groups_sorted hok) (fun _ => hfiles) (fun _ => hmirrors)
      (fun _ hid => hid) rfl rfl rfl fun _ hid => by cases hid
    refine ⟨s, fun id => (hs id).trans ⟨fun hfound => hfound.listed, fun hid => ?_⟩, ?_⟩
    · obtain ⟨summary, hsummary⟩ := Option.isSome_iff_exists.mp hid
      exact ⟨hid, ⟨summary, hsummary, fun _ hmem => absurd hmem List.not_mem_nil,
        fun _ hsome => by cases hsome⟩, fun hne => absurd rfl hne⟩
    · intro after
      obtain ⟨reads, hreads, hrows, hnext, -⟩ := hpages after
      refine ⟨⟨reads.groups, reads.next⟩, ?_, hrows, hnext⟩
      exact congrArg (Except.map fun data => FleetPage.mk data.groups data.next) hreads
  choose s hs hpages using hpage
  exact ⟨s, fun n after => hpages n after, hs⟩

theorem devices_answers (h : server.Running newV5 layout budget c maxAttempts backoff) (n : ℕ)
    (after : Option DeviceId) (page : FleetPage DeviceReads)
    (hpage : server.devicesPage n after = .ok page) :
    ∀ row ∈ page.rows, row.device ∈ (server.catalogs n).devices.map (·.id) →
      listFields (server.catalogs n) (server.stores n) row.device = .ok row.latest := by
  obtain ⟨document, resolved, hok, hcatalog⟩ := h.document n
  have hconfigured : (server.catalogs n).Configured := hcatalog ▸ configured_of_resolveConfig hok
  have hlatest : ∀ row ∈ page.rows, row.latest = (server.stores n).latestAll row.device := by
    unfold devicesPage listFleet at hpage
    rcases hcandidates : candidates (server.catalogs n) ⟨none, none, none, none, none, after⟩ with
      failure | ids
    · rw [hcandidates] at hpage
      cases hpage
    · rw [hcandidates] at hpage
      obtain rfl := Except.ok.inj hpage
      exact scan_rows ids fun row hrow => absurd hrow List.not_mem_nil
  intro row hrow hlisted
  obtain ⟨device, hdevice, hid⟩ := List.mem_map.mp hlisted
  rw [listFields, rejectGroup_ok (hid ▸ hconfigured.not_group hdevice), hlatest row hrow]
  rfl

theorem groups_answers (h : server.Running newV5 layout budget c maxAttempts backoff) (n : ℕ)
    (after : Option GroupId) (page : FleetPage GroupFieldStateList)
    (hpage : server.groupsPage n after = .ok page) :
    ∀ row ∈ page.rows, ((server.catalogs n).group row.group).isSome →
      listGroupFields (server.catalogs n) (server.stores n) (server.outboxes n) row.group =
        .ok row := by
  obtain ⟨document, resolved, hok, hcatalog⟩ := h.document n
  obtain ⟨acts, hstore⟩ := h.store n
  obtain ⟨ops, houtbox⟩ := h.outbox n
  have hfiles : (server.stores n).Files := hstore ▸ files_traffic layout budget acts
  have hmirrors : (server.outboxes n).Mirrors :=
    houtbox ▸ GroupOutbox.mirrors_run maxAttempts backoff ops
  obtain ⟨s, -, hpages⟩ := @FleetGroups.listFleetGroups_eq (server.catalogs n)
    (fun _ => server.met n) ⟨none, none, none, none, none, none⟩ [] none defaultLimit.toNat
    (hcatalog ▸ FleetGroups.groups_sorted hok) (fun _ => hfiles) (fun _ => hmirrors)
    (fun _ hid => hid) rfl rfl rfl fun _ hid => by cases hid
  obtain ⟨reads, hreads, -, -, hrows⟩ := hpages after
  have hsame : server.groupsPage n after = .ok ⟨reads.groups, reads.next⟩ :=
    congrArg (Except.map fun data : FleetGroupReads => FleetPage.mk data.groups data.next) hreads
  obtain rfl := Except.ok.inj (hpage.symm.trans hsame)
  intro row hrow _
  -- with every field asked for, a row is the whole of the index
  obtain ⟨whole, hwhole, hshown⟩ := hrows row hrow
  obtain rfl : row = whole := hshown
  exact hwhole

end Answering

/--
**A fetch of the overview is the fleet.** The server goes on working between the requests, so that
each may meet another document, store and outbox. Both fetches are answered. No device and no group
comes twice, they come in order, and each row is what its own route answered while the fetch was
on. Whatever was configured all along is there, unless there are ten thousand rows.
-/
theorem overview_fetched {newV5 : Devices.Uuid → List UInt8 → Devices.Uuid} {layout : Layout}
    {budget : Option Nat} {c : Chrono} {maxAttempts : Nat} {backoff : Duration}
    {server : Answering} (h : server.Running newV5 layout budget c maxAttempts backoff) :
    (∃ rows, server.useDevices = .ok rows ∧ Fetched defaultLimit.toNat (·.device)
      (fun n id => id ∈ (server.catalogs n).devices.map (·.id))
      (fun n row => listFields (server.catalogs n) (server.stores n) row.device = .ok row.latest)
      rows) ∧
    ∃ rows, server.useGroups = .ok rows ∧ Fetched defaultLimit.toNat (·.group)
      (fun n id => ((server.catalogs n).group id).isSome)
      (fun n row => listGroupFields (server.catalogs n) (server.stores n) (server.outboxes n)
        row.group = .ok row) rows := by
  have hlimit : 0 < defaultLimit.toNat := by decide
  obtain ⟨devices, hdevices, hlisted⟩ := Answering.devices_pages h
  obtain ⟨groups, hgroups, hgrouped⟩ := Answering.groups_pages h
  exact ⟨fetched_of_pages hlimit hdevices hlisted (Answering.devices_answers h),
    fetched_of_pages hlimit hgroups hgrouped (Answering.groups_answers h)⟩

/-- A fetch has no more rows than there are ids at one time or another. -/
theorem Fetched.length_le {T : Type} {key : T → String} {limit : ℕ} {there : ℕ → String → Prop}
    {answers : ℕ → T → Prop} {rows : List T} (h : Fetched limit key there answers rows)
    {ids : List String} (hids : ∀ n < maxPages, ∀ id, there n id → id ∈ ids) :
    rows.length ≤ ids.length := by
  have hnodup : (rows.map key).Nodup := h.ordered.imp fun hlt => ne_of_lt hlt
  have hsub : rows.map key ⊆ ids := by
    intro id hid
    obtain ⟨row, hrow, rfl⟩ := List.mem_map.mp hid
    obtain ⟨n, hn, hthere, -⟩ := h.sound row hrow
    exact hids n hn _ hthere
  rw [← List.length_map key]
  exact (List.subperm_of_subset hnodup hsub).length_le

/-! ## A fleet on two pages, and a document that is replaced -/

def firstIds (n : ℕ) : List DeviceId := (List.range n).map idOfLength

theorem firstIds_nodup (n : ℕ) : (firstIds n).Nodup :=
  List.nodup_range.map idOfLength_strictMono.injective

theorem firstIds_length (n : ℕ) : (firstIds n).length = n := by
  rw [firstIds, List.length_map, List.length_range]

theorem firstIds_mono {m n : ℕ} (hmn : m ≤ n) : firstIds m ⊆ firstIds n :=
  List.map_subset _ (List.range_subset.mpr hmn)

/-- A hundred and fifty recorders, and one more at every request. -/
def filling : Answering where
  catalogs n := (⟨recordersOf (firstIds (150 + n)), []⟩ : Devices.Resolved).catalog
  stores _ := (Machine.exec (Traffic.step layout64) (.start none) FleetGroups.versionsRead).store
  outboxes _ := .withMaxAttempts 3 1000000000

/-- The laboratory and the groups that come and go beside it. -/
def laboratory : Answering where
  catalogs := FleetGroups.labWalk.catalogs
  stores n := (FleetGroups.labWalk.met n "lab").store
  outboxes _ := .withMaxAttempts 3 1000000000

theorem running_filling : filling.Running (fun _ _ => Devices.Uuid.nil) layout64 none utc 3
    1000000000 where
  document n := ⟨_, _, resolveConfig_recordersOf (firstIds_nodup (150 + n)), rfl⟩
  store _ := ⟨_, rfl⟩
  outbox _ := ⟨[], rfl⟩

theorem running_laboratory : laboratory.Running newV5OfRecorders layout64 none utc 3
    1000000000 where
  document := FleetGroups.labWalk_documents
  store _ := ⟨_, rfl⟩
  outbox _ := ⟨[], rfl⟩

/-- All are fetched, with what they have reported; and so is the group that stays. -/
theorem overview_fetched_laboratory :
    (∃ rows, filling.useDevices = .ok rows ∧ 150 ≤ rows.length ∧
      ∃ row ∈ rows, row.device = "a" ∧ row.latest.map (·.value) = [.version "2.11"]) ∧
    ∃ rows, laboratory.useGroups = .ok rows ∧ "lab" ∈ rows.map (·.group) := by
  obtain ⟨rows, hrows, hfetched⟩ := (overview_fetched running_filling).1
  obtain ⟨groups, hgroups, hfetched'⟩ := (overview_fetched running_laboratory).2
  refine ⟨⟨rows, hrows, ?_⟩, groups, hgroups, ?_⟩
  · have hlisted : ∀ n id, id ∈ (filling.catalogs n).devices.map (·.id) ↔
        id ∈ firstIds (150 + n) := fun n id => mem_catalog_recordersOf (firstIds (150 + n))
    -- never more than two hundred and fifty, so that the last page asked for is not full
    have hshort : rows.length < maxPages * defaultLimit.toNat := by
      have hids : ∀ n < maxPages, ∀ id, id ∈ (filling.catalogs n).devices.map (·.id) →
          id ∈ firstIds 250 := by
        intro n hn id hid
        rw [maxPages] at hn
        exact firstIds_mono (by omega) ((hlisted n id).mp hid)
      have hle := hfetched.length_le hids
      have hmany : 250 < maxPages * defaultLimit.toNat := by decide
      rw [firstIds_length] at hle
      omega
    have hall : firstIds 150 ⊆ rows.map (·.device) := fun id hid =>
      hfetched.complete hshort id fun n _ => (hlisted n id).mpr (firstIds_mono (by omega) hid)
    refine ⟨?_, ?_⟩
    · have hle := (List.subperm_of_subset (firstIds_nodup 150) hall).length_le
      rwa [firstIds_length, List.length_map] at hle
    · have hfirst : idOfLength 0 ∈ firstIds 150 :=
        List.mem_map_of_mem (List.mem_range.mpr (by decide))
      obtain ⟨row, hrow, hid⟩ := List.mem_map.mp (hall hfirst)
      obtain ⟨n, -, -, hanswer⟩ := hfetched.sound row hrow
      have hname : row.device = "a" := hid
      have hlatest : listFields (filling.catalogs n) (filling.stores n) "a" =
          .ok ((filling.stores 0).latestAll "a") := rfl
      rw [hname] at hanswer
      refine ⟨row, hrow, hname, ?_⟩
      rw [← Except.ok.inj (hlatest.symm.trans hanswer)]
      decide +kernel
  · have hids : ∀ n < maxPages, ∀ id, ((laboratory.catalogs n).group id).isSome →
        id ∈ ["hall", "lab", "spare", "studio"] := by
      intro n _ id hid
      obtain ⟨summary, hsummary⟩ := Option.isSome_iff_exists.mp hid
      have hgroups : ∀ summary ∈ (laboratory.catalogs n).groups,
          summary.id ∈ ["hall", "lab", "spare", "studio"] := by
        by_cases hn : n = 0
        · rw [show laboratory.catalogs n = _ from if_pos hn]
          decide +kernel
        · rw [show laboratory.catalogs n = _ from if_neg hn]
          decide +kernel
      have hfound : (laboratory.catalogs n).groups.find? (fun g => decide (g.id = id)) =
        some summary := hsummary
      have hname : summary.id = id := by simpa using List.find?_some hfound
      exact hname ▸ hgroups summary (List.mem_of_find?_eq_some hfound)
    have hle := hfetched'.length_le hids
    have hmany : 4 < maxPages * defaultLimit.toNat := by decide
    refine hfetched'.complete (lt_of_le_of_lt hle hmany) "lab" fun n _ => ?_
    by_cases hn : n = 0
    · rw [show laboratory.catalogs n = _ from if_pos hn]
      decide +kernel
    · rw [show laboratory.catalogs n = _ from if_neg hn]
      decide +kernel

end Sismatic
