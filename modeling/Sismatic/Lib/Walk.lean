import Sismatic.Lib.Paging

/-!
# Walks over the pages a server answers

Requests follow the cursor of one answer to the next. A server is what it answers the `n`th request
with; as long as each answer is a page of some set, what the walk shows is what the walk over those
sets does.
-/

namespace Paging

variable {α R ε : Type*} [LinearOrder α]

/-- What is answered to the `n`th request, and what an answer shows. -/
structure Server (α R ε : Type*) where
  fetch : ℕ → Option α → Except ε R
  shows : R → List α
  next : R → Option α

/-- A page with a next one is full. -/
theorem length_of_next {k : ℕ} {s : OrderedSet α} {after : Option α}
    (h : (page k s after).next ≠ none) : (page k s after).rows.length = k := by
  by_cases hmore : k < (s.elems.filter (past after)).length
  · change ((s.elems.filter (past after)).take k).length = k
    rw [List.length_take]
    omega
  · exact absurd (if_neg hmore) h

namespace Server

/-- What the `n`th page is asked for after, if there is an `n`th request. -/
def asked (server : Server α R ε) : ℕ → Option (Option α)
  | 0 => some none
  | n + 1 => (server.asked n).bind fun after =>
      (server.fetch n after).toOption.bind fun answer => (server.next answer).map some

/-- What the `n`th page shows. -/
def page (server : Server α R ε) (n : ℕ) : List α :=
  ((server.asked n).bind fun after => (server.fetch n after).toOption).toList.flatMap server.shows

/-- What the first `n` pages show. -/
def shown (server : Server α R ε) (n : ℕ) : List α := (List.range n).flatMap server.page

/-- The walk ends with the `n`th page. -/
def Ends (server : Server α R ε) (n : ℕ) : Prop :=
  ∃ after answer, server.asked n = some after ∧ server.fetch n after = .ok answer ∧
    server.next answer = none

/-- Each answer is a page of a set. -/
def Pages (server : Server α R ε) (k : ℕ) (s : ℕ → OrderedSet α) : Prop :=
  ∀ n after, ∃ answer, server.fetch n after = .ok answer ∧
    server.shows answer = (Paging.page k (s n) after).rows ∧
    server.next answer = (Paging.page k (s n) after).next

variable {server : Server α R ε} {k : ℕ} {s : ℕ → OrderedSet α}

theorem asked_eq (h : server.Pages k s) (n : ℕ) : server.asked n = Paging.asked k s n := by
  induction n with
  | zero => rfl
  | succ n ih =>
      rw [asked, Paging.asked, ih]
      refine Option.bind_congr fun after _ => ?_
      obtain ⟨answer, hfetch, -, hnext⟩ := h n after
      rw [hfetch, ← hnext]
      rfl

theorem page_eq (h : server.Pages k s) (n : ℕ) : server.page n = Paging.rows k s n := by
  unfold page
  rw [asked_eq h]
  cases hasked : Paging.asked k s n with
  | none =>
      rw [rows_of_ended hasked]
      rfl
  | some after =>
      obtain ⟨answer, hfetch, hrows, -⟩ := h n after
      rw [rows_of_asked hasked, ← hrows, Option.bind_some, hfetch]
      exact List.flatMap_singleton ..

theorem shown_eq (h : server.Pages k s) (n : ℕ) : server.shown n = Paging.seen k s n := by
  unfold shown Paging.seen
  rw [funext (page_eq h)]

theorem ends_iff (h : server.Pages k s) {n : ℕ} :
    server.Ends n ↔
      ∃ after, Paging.asked k s n = some after ∧ (Paging.page k (s n) after).next = none := by
  unfold Ends
  rw [asked_eq h]
  refine exists_congr fun after => ?_
  obtain ⟨answer, hfetch, -, hnext⟩ := h n after
  constructor
  · intro hends
    obtain ⟨answer', hasked, hfetch', hnone⟩ := hends
    rw [hfetch] at hfetch'
    obtain rfl := Except.ok.inj hfetch'
    exact ⟨hasked, hnext.symm.trans hnone⟩
  · intro hends
    exact ⟨answer, hends.1, hfetch, hnext.trans hends.2⟩

/-- What a walk shows, by which rows there are for each page. -/
structure Shows (server : Server α R ε) (there : ℕ → α → Prop) : Prop where
  /-- Nothing is shown twice, or out of order. -/
  ordered : ∀ n, (server.shown n).Pairwise (· < ·)
  /-- What is shown was there. -/
  sound : ∀ n, ∀ a ∈ server.page n, there n a
  /-- What was there for each page of a walk that has ended has been shown. -/
  complete : ∀ n, server.Ends n → ∀ a, (∀ i ≤ n, there i a) → a ∈ server.shown (n + 1)
  /-- The walk ends, unless there are ever more. -/
  ends : {a | ∃ n, there n a}.Finite → ∃ n, server.Ends n

/-- **A walk over pages of sets shows what is in the sets.** -/
theorem shows_of_pages (hk : 0 < k) (h : server.Pages k s) {there : ℕ → α → Prop}
    (hs : ∀ n a, a ∈ s n ↔ there n a) : server.Shows there where
  ordered n := by
    rw [shown_eq h]
    exact Paging.seen_sorted n
  sound n a ha := by
    rw [page_eq h] at ha
    exact (hs n a).mp (Paging.mem_of_row ha)
  complete n hends a hall := by
    obtain ⟨after, hasked, hnone⟩ := (ends_iff h).mp hends
    rw [shown_eq h]
    exact Paging.seen_of_ended hk hasked hnone fun i hi => (hs i a).mpr (hall i hi)
  ends hfinite := by
    have hfinite' : {a | ∃ n, a ∈ s n}.Finite := by
      refine hfinite.subset fun a ha => ?_
      obtain ⟨n, hn⟩ := ha
      exact ⟨n, (hs n a).mp hn⟩
    obtain ⟨n, hends⟩ := Paging.ends (k := k) hfinite'
    exact ⟨n, (ends_iff h).mpr hends⟩

/-! ## Walks of bounded length -/

/-- A page behind which the walk goes on is full. -/
theorem length_page (h : server.Pages k s) {n : ℕ} (hgoes : server.asked (n + 1) ≠ none) :
    (server.page n).length = k := by
  rw [asked_eq h, Paging.asked] at hgoes
  rw [page_eq h]
  rcases hasked : Paging.asked k s n with _ | after
  · rw [hasked] at hgoes
    exact absurd rfl hgoes
  · rw [hasked, Option.bind_some, ne_eq, Option.map_eq_none_iff] at hgoes
    rw [rows_of_asked hasked]
    exact Paging.length_of_next hgoes

omit [LinearOrder α] in
theorem asked_mono {m n : ℕ} (hmn : m ≤ n) (hgoes : server.asked n ≠ none) :
    server.asked m ≠ none := by
  induction n, hmn using Nat.le_induction with
  | base => exact hgoes
  | succ n _ ih =>
      refine ih fun hnone => hgoes ?_
      rw [asked, hnone, Option.bind_none]

theorem length_shown (h : server.Pages k s) {n : ℕ} (hgoes : server.asked n ≠ none) :
    (server.shown n).length = n * k := by
  induction n with
  | zero => exact (Nat.zero_mul k).symm
  | succ n ih =>
      have hbefore := ih (asked_mono (Nat.le_succ n) hgoes)
      rw [shown, List.range_succ, List.flatMap_append, List.flatMap_singleton, List.length_append,
        length_page h hgoes]
      change (server.shown n).length + k = _
      rw [hbefore, Nat.succ_mul]

theorem length_shown_le (h : server.Pages k s) (n : ℕ) : (server.shown n).length ≤ n * k := by
  induction n with
  | zero => exact Nat.zero_le _
  | succ n ih =>
      have hpage : (server.page n).length ≤ k := by
        rw [page_eq h]
        rcases hasked : Paging.asked k s n with _ | after
        · rw [rows_of_ended hasked]
          exact Nat.zero_le k
        · rw [rows_of_asked hasked]
          exact List.length_take_le ..
      rw [shown, List.range_succ, List.flatMap_append, List.flatMap_singleton, List.length_append,
        Nat.succ_mul]
      exact Nat.add_le_add ih hpage

/-- A walk that is not asked to go on has ended. -/
theorem ends_of_asked_none (h : server.Pages k s) {n : ℕ} (hnone : server.asked n = none) :
    ∃ m < n, server.Ends m := by
  induction n with
  | zero => cases hnone
  | succ n ih =>
      rcases hasked : server.asked n with _ | after
      · obtain ⟨m, hm, hends⟩ := ih hasked
        exact ⟨m, by omega, hends⟩
      · obtain ⟨answer, hfetch, -, -⟩ := h n after
        refine ⟨n, by omega, after, answer, hasked, hfetch, ?_⟩
        rw [asked, hasked, Option.bind_some, hfetch] at hnone
        exact Option.map_eq_none_iff.mp hnone

omit [LinearOrder α] in
theorem shown_mono {m n : ℕ} (hmn : m ≤ n) : server.shown m ⊆ server.shown n := by
  intro a ha
  obtain ⟨i, hi, hpage⟩ := List.mem_flatMap.mp ha
  refine List.mem_flatMap.mpr ⟨i, ?_, hpage⟩
  rw [List.mem_range] at hi ⊢
  omega

/-- **Fewer rows than so many full pages hold are all there is to show.** -/
theorem complete_of_short (hk : 0 < k) (h : server.Pages k s) {there : ℕ → α → Prop}
    (hs : ∀ n a, a ∈ s n ↔ there n a) {n : ℕ} (hshort : (server.shown n).length < n * k) (a : α)
    (hall : ∀ i < n, there i a) : a ∈ server.shown n := by
  rcases hasked : server.asked n with _ | after
  · obtain ⟨m, hm, hends⟩ := ends_of_asked_none h hasked
    refine shown_mono (show m + 1 ≤ n by omega) ?_
    exact (shows_of_pages hk h hs).complete m hends a fun i hi => hall i (by omega)
  · have hlength := length_shown h (n := n) (by rw [hasked]; exact Option.some_ne_none after)
    omega

end Server

end Paging
