import Sismatic.Core.Controller
import Sismatic.Proof.Replies
import Mathlib.Data.List.Infix

/-!
# A reply that arrives in pieces

An exchange looks at what it has read after every read. What it looks at is the longest text
whose bytes have all arrived, whatever character a read may have cut in two, so an exchange
over one text is a walk along the beginnings of that text.
-/

namespace Sismatic.Devices

/-! ## Bytes and text -/

/-- The bytes a text is sent as. -/
def utf8 (text : List Char) : List UInt8 := text.flatMap String.utf8EncodeChar

theorem toArray_utf8 (text : List Char) : ⟨(utf8 text).toArray⟩ = text.utf8Encode := by
  refine ByteArray.ext (Array.toList_inj.mp ?_)
  simp [utf8, List.utf8Encode]

theorem utf8_append (text more : List Char) : utf8 (text ++ more) = utf8 text ++ utf8 more :=
  List.flatMap_append

theorem utf8_ne_nil {text : List Char} (h : text ≠ []) : utf8 text ≠ [] := by
  obtain ⟨c, text, rfl⟩ := List.exists_cons_of_ne_nil h
  intro hnil
  have hlen := congrArg List.length hnil
  rw [utf8, List.flatMap_cons, List.length_append, String.length_utf8EncodeChar] at hlen
  have := Char.utf8Size_pos c
  simp only [List.length_nil] at hlen
  omega

/-- A text whose bytes are the first bytes of another is the beginning of it. -/
theorem prefix_of_utf8 {part text : List Char} (h : utf8 part <+: utf8 text) : part <+: text := by
  obtain ⟨more, hmore⟩ := h
  refine List.isPrefix_of_utf8Encode_append_eq_utf8Encode ⟨more.toArray⟩ ?_
  rw [← toArray_utf8, ← toArray_utf8, ← hmore]
  refine ByteArray.ext (Array.toList_inj.mp ?_)
  simp only [ByteArray.data_append, Array.toList_append]

theorem findSome?_reverse_range {α : Type} {f : Nat → Option α} {k : Nat} {a : α}
    (h : (List.range (k + 1)).reverse.findSome? f = some a) :
    ∃ n ≤ k, f n = some a ∧ ∀ m, n < m → m ≤ k → f m = none := by
  induction k with
  | zero =>
      refine ⟨0, Nat.le_refl 0, ?_, fun m hm hle => by omega⟩
      simpa using h
  | succ k ih =>
      rw [List.range_succ, List.reverse_append, List.reverse_singleton, List.singleton_append,
        List.findSome?_cons] at h
      cases hlast : f (k + 1) with
      | some b =>
          rw [hlast] at h
          exact ⟨k + 1, Nat.le_refl _, hlast.trans h, fun m hm hle => by omega⟩
      | none =>
          rw [hlast] at h
          obtain ⟨n, hn, hfound, hlater⟩ := ih h
          refine ⟨n, by omega, hfound, fun m hm hle => ?_⟩
          rcases Nat.lt_or_eq_of_le hle with hlt | rfl
          · exact hlater m hm (by omega)
          · exact hlast

theorem fromUTF8?_utf8 {bytes : List UInt8} {text : String}
    (h : String.fromUTF8? ⟨bytes.toArray⟩ = some text) : utf8 text.toList = bytes := by
  unfold String.fromUTF8? at h
  split at h
  · rename_i hvalid
    obtain rfl := Option.some.inj h
    have heq := toArray_utf8 (String.fromUTF8 ⟨bytes.toArray⟩ hvalid).toList
    rw [String.utf8Encode_toList] at heq
    exact congrArg (fun bytes : ByteArray => bytes.data.toList) heq
  · cases h

theorem fromUTF8?_of_utf8 (text : List Char) :
    (String.fromUTF8? ⟨(utf8 text).toArray⟩).isSome := by
  unfold String.fromUTF8?
  rw [dif_pos]
  · rfl
  · exact ⟨text, toArray_utf8 text⟩

/-- The text that is looked at is the longest one whose bytes have arrived. -/
theorem validPrefix_spec (bytes : List UInt8) :
    utf8 (validPrefix bytes).toList <+: bytes ∧
      ∀ part, utf8 part <+: bytes → part <+: (validPrefix bytes).toList := by
  unfold validPrefix
  cases hfind : (List.range (bytes.length + 1)).reverse.findSome? fun n =>
      String.fromUTF8? ⟨(bytes.take n).toArray⟩ with
  | none =>
      have hzero := List.findSome?_eq_none_iff.mp hfind 0 (by simp)
      cases hzero
  | some text =>
      obtain ⟨n, hn, htext, hlater⟩ := findSome?_reverse_range hfind
      have htake := fromUTF8?_utf8 htext
      refine ⟨htake ▸ List.take_prefix n bytes, fun part hpart => ?_⟩
      have hsome := fromUTF8?_of_utf8 part
      rw [List.prefix_iff_eq_take.mp hpart] at hsome
      have hle : (utf8 part).length ≤ n := by
        by_contra hlt
        rw [hlater _ (by omega) hpart.length_le] at hsome
        cases hsome
      refine prefix_of_utf8 ?_
      rw [Option.getD_some, htake]
      refine List.prefix_of_prefix_length_le hpart (List.take_prefix n bytes) ?_
      rw [List.length_take]
      omega

theorem validPrefix_mono {seen bytes : List UInt8} (h : seen <+: bytes) :
    (validPrefix seen).toList <+: (validPrefix bytes).toList :=
  (validPrefix_spec bytes).2 _ ((validPrefix_spec seen).1.trans h)

theorem validPrefix_utf8 (text : List Char) : (validPrefix (utf8 text)).toList = text := by
  obtain ⟨harrived, hlongest⟩ := validPrefix_spec (utf8 text)
  exact (prefix_of_utf8 harrived).eq_of_length_le (hlongest text (List.prefix_refl _)).length_le

/-- What is looked at of a text is a beginning of it. -/
theorem validPrefix_begins {seen : List UInt8} {text : List Char} (h : seen <+: utf8 text) :
    (validPrefix seen).toList <+: text :=
  prefix_of_utf8 ((validPrefix_spec seen).1.trans h)

/-! ## What is looked for -/

/-- A character that begins no line end goes to the front of the first line, if there is one. -/
theorem completeLines_push {c : Char} {rest : List Char}
    (hnot : ∀ rest', c = '\r' → rest = '\n' :: rest' → False) :
    (SisError.completeLines rest = [] → SisError.completeLines (c :: rest) = []) ∧
      ∀ line lines, SisError.completeLines rest = line :: lines →
        SisError.completeLines (c :: rest) = (c :: line) :: lines := by
  refine ⟨fun hnone => ?_, fun line lines hsome => ?_⟩
  · rw [SisError.completeLines, hnone]
    exact hnot
  · rw [SisError.completeLines, hsome]
    exact hnot

/-- A text is taken apart by its line ends, and otherwise a character at a time. -/
@[elab_as_elim]
theorem completeLines_rec {motive : List Char → Prop} (nil : motive [])
    (ended : ∀ rest, motive rest → motive (cr :: lf :: rest))
    (unended : ∀ c rest, (∀ rest', c = '\r' → rest = '\n' :: rest' → False) →
      SisError.completeLines rest = [] → motive rest → motive (c :: rest))
    (pushed : ∀ c rest line lines, (∀ rest', c = '\r' → rest = '\n' :: rest' → False) →
      SisError.completeLines rest = line :: lines → motive rest → motive (c :: rest))
    (text : List Char) : motive text := by
  induction text using SisError.completeLines.induct with
  | case1 => exact nil
  | case2 rest ih => exact ended rest ih
  | case3 c rest hnot hnone ih => exact unended c rest hnot hnone ih
  | case4 c rest hnot line lines hsome ih => exact pushed c rest line lines hnot hsome ih

theorem completeLines_ends {text : List Char} (h : SisError.completeLines text ≠ []) :
    [cr, lf] <:+: text := by
  induction text using completeLines_rec with
  | nil => exact absurd rfl h
  | ended rest ih => exact (List.prefix_append [cr, lf] rest).isInfix
  | unended c rest hnot hnone ih => exact absurd ((completeLines_push hnot).1 hnone) h
  | pushed c rest line lines hnot hsome ih =>
      refine (ih ?_).trans (List.suffix_cons c rest).isInfix
      rw [hsome]
      exact List.cons_ne_nil _ _

/-- A text up to a line end has its lines, whatever follows. -/
theorem completeLines_append (text : List Char) :
    ∃ line lines, SisError.completeLines (text ++ [cr, lf]) = line :: lines ∧
      ∀ rest, SisError.completeLines (text ++ cr :: lf :: rest) =
        line :: lines ++ SisError.completeLines rest := by
  induction text using completeLines_rec with
  | nil => exact ⟨[], [], rfl, fun rest => rfl⟩
  | ended text ih =>
      obtain ⟨line, lines, hline, hrest⟩ := ih
      refine ⟨[], line :: lines, ?_, fun rest => ?_⟩
      · exact congrArg ([] :: ·) hline
      · exact congrArg ([] :: ·) (hrest rest)
  | unended c text hnot _ ih | pushed c text _ _ hnot _ ih =>
      obtain ⟨line, lines, hline, hrest⟩ := ih
      have hcons : ∀ rest, ∀ rest', c = '\r' → text ++ cr :: rest = '\n' :: rest' → False := by
        intro rest rest' hc heq
        cases text with
        | nil => exact absurd (List.cons.inj heq).1 (by decide)
        | cons d text => exact hnot text hc (congrArg (· :: text) (List.cons.inj heq).1)
      refine ⟨c :: line, lines, ?_, fun rest => ?_⟩
      · exact (completeLines_push (hcons [lf])).2 line lines hline
      · exact (completeLines_push (hcons (lf :: rest))).2 line _ (hrest rest)

/-- More text adds lines behind those there are. -/
theorem completeLines_begins (text more : List Char) :
    SisError.completeLines text <+: SisError.completeLines (text ++ more) := by
  induction text using completeLines_rec with
  | nil => exact List.nil_prefix
  | ended text ih => exact List.cons_prefix_cons.mpr ⟨rfl, ih⟩
  | unended c text hnot hnone ih =>
      rw [(completeLines_push hnot).1 hnone]
      exact List.nil_prefix
  | pushed c text line lines hnot hsome ih =>
      rw [hsome] at ih
      obtain ⟨later, hlater⟩ := ih
      have hnot' : ∀ rest', c = '\r' → text ++ more = '\n' :: rest' → False := by
        intro rest' hc heq
        cases text with
        | nil => exact absurd hsome (List.cons_ne_nil line lines).symm
        | cons d text => exact hnot text hc (congrArg (· :: text) (List.cons.inj heq).1)
      rw [List.cons_append, (completeLines_push hnot).2 line lines hsome,
        (completeLines_push hnot').2 line (lines ++ later) hlater.symm]
      exact List.prefix_append ((c :: line) :: lines) later

/-- A refusal that has been found stays the one that is found. -/
theorem inReply_mono {part text : List Char} (h : part <+: text) {error : SisError}
    (herror : SisError.inReply (String.ofList part) = some error) :
    SisError.inReply (String.ofList text) = some error := by
  obtain ⟨more, rfl⟩ := h
  obtain ⟨lines, hlines⟩ := completeLines_begins part more
  rw [SisError.inReply, String.toList_ofList] at herror ⊢
  rw [← hlines, List.findSome?_append, herror, Option.some_or]

/-- Neither a value nor a refusal is found in a text without a line end. -/
theorem parseReply_line {instruction : Instruction} (hwhole : WholeLine instruction)
    {acc : List UInt8} {answer : Except ControllerError Value}
    (h : parseReply instruction acc = some answer) : [cr, lf] <:+: (validPrefix acc).toList := by
  unfold parseReply at h
  dsimp only at h
  split at h
  · rename_i error herror
    refine completeLines_ends fun hnone => ?_
    rw [SisError.inReply, hnone] at herror
    cases herror
  · split at h
    · rename_i value hvalue
      exact hwhole _ value hvalue
    · cases h

/-! ## The loop -/

section Loop

variable {instruction : Instruction}

/-- Reads that complete nothing are only accumulated. -/
theorem exchangeLoop_waits {chunks : List (List UInt8)} {acc : List UInt8}
    (hne : ∀ chunk ∈ chunks, chunk ≠ [])
    (hnone : ∀ seen, seen ≠ [] → seen <+: chunks →
      parseReply instruction (acc ++ seen.flatten) = none) (later : List ChannelRead) :
    exchangeLoop instruction acc (chunks.map .ok ++ later) =
      exchangeLoop instruction (acc ++ chunks.flatten) later := by
  induction chunks generalizing acc with
  | nil => rw [List.map_nil, List.nil_append, List.flatten_nil, List.append_nil]
  | cons chunk chunks ih =>
      have hfirst := hnone [chunk] (List.cons_ne_nil _ _) ⟨chunks, rfl⟩
      rw [List.flatten_singleton] at hfirst
      rw [List.map_cons, List.cons_append, exchangeLoop, if_neg (hne chunk List.mem_cons_self),
        hfirst]
      refine (ih (fun c hc => hne c (List.mem_cons_of_mem _ hc)) ?_).trans ?_
      · intro seen hseen hbegins
        rw [List.append_assoc, ← List.flatten_cons]
        exact hnone (chunk :: seen) (List.cons_ne_nil _ _)
          (List.cons_prefix_cons.mpr ⟨rfl, hbegins⟩)
      · rw [List.append_assoc, ← List.flatten_cons]

/-- The read that completes the reply ends the exchange. -/
theorem exchangeLoop_completes {before : List (List UInt8)} {chunk acc : List UInt8}
    {outcome : Except ControllerError Value} (hne : ∀ c ∈ before, c ≠ []) (hchunk : chunk ≠ [])
    (hnone : ∀ seen, seen ≠ [] → seen <+: before →
      parseReply instruction (acc ++ seen.flatten) = none)
    (hsome : parseReply instruction (acc ++ before.flatten ++ chunk) = some outcome)
    (later : List ChannelRead) :
    exchangeLoop instruction acc (before.map .ok ++ .ok chunk :: later) =
      some (outcome, later) := by
  rw [exchangeLoop_waits hne hnone, exchangeLoop, if_neg hchunk, hsome]

/-- An exchange ends with the first read after which there is something to return. -/
theorem exchangeLoop_iff {chunks : List (List UInt8)} {acc : List UInt8}
    (hne : ∀ chunk ∈ chunks, chunk ≠ []) {outcome : Except ControllerError Value}
    {later : List ChannelRead} :
    exchangeLoop instruction acc (chunks.map .ok) = some (outcome, later) ↔
      ∃ before chunk after, chunks = before ++ chunk :: after ∧ later = after.map .ok ∧
        (∀ seen, seen ≠ [] → seen <+: before →
          parseReply instruction (acc ++ seen.flatten) = none) ∧
        parseReply instruction (acc ++ before.flatten ++ chunk) = some outcome := by
  refine ⟨?_, ?_⟩
  · intro h
    induction chunks generalizing acc with
    | nil => cases h
    | cons chunk chunks ih =>
        rw [List.map_cons, exchangeLoop, if_neg (hne chunk List.mem_cons_self)] at h
        cases hparse : parseReply instruction (acc ++ chunk) with
        | some found =>
            rw [hparse] at h
            obtain ⟨rfl, rfl⟩ := Prod.mk.inj (Option.some.inj h)
            refine ⟨[], chunk, chunks, rfl, rfl, ?_, ?_⟩
            · intro seen hseen hbegins
              exact absurd (List.prefix_nil.mp hbegins) hseen
            · rw [List.flatten_nil, List.append_nil, hparse]
        | none =>
            rw [hparse] at h
            obtain ⟨before, last, after, rfl, hlater, hnone, hsome⟩ :=
              ih (fun c hc => hne c (List.mem_cons_of_mem _ hc)) h
            refine ⟨chunk :: before, last, after, rfl, hlater, ?_, ?_⟩
            · intro seen hseen hbegins
              obtain ⟨first, rest, rfl⟩ := List.exists_cons_of_ne_nil hseen
              obtain ⟨rfl, hrest⟩ := List.cons_prefix_cons.mp hbegins
              rw [List.flatten_cons, ← List.append_assoc]
              cases rest with
              | nil => rw [List.flatten_nil, List.append_nil, hparse]
              | cons second rest => exact hnone _ (List.cons_ne_nil _ _) hrest
            · rw [List.flatten_cons, ← List.append_assoc acc, hsome]
  · rintro ⟨before, chunk, after, rfl, rfl, hnone, hsome⟩
    rw [List.map_append, List.map_cons]
    exact exchangeLoop_completes
      (fun c hc => hne c (List.mem_append_left _ hc))
      (hne chunk (List.mem_append_right _ List.mem_cons_self)) hnone hsome _

/-- An exchange still waits if nothing was there to return after any read. -/
theorem exchangeLoop_none {chunks : List (List UInt8)} {acc : List UInt8}
    (hne : ∀ chunk ∈ chunks, chunk ≠ [])
    (h : exchangeLoop instruction acc (chunks.map .ok) = none) {seen : List (List UInt8)}
    (hseen : seen ≠ []) (hbegins : seen <+: chunks) :
    parseReply instruction (acc ++ seen.flatten) = none := by
  induction chunks generalizing acc seen with
  | nil => exact absurd (List.prefix_nil.mp hbegins) hseen
  | cons chunk chunks ih =>
      rw [List.map_cons, exchangeLoop, if_neg (hne chunk List.mem_cons_self)] at h
      cases hparse : parseReply instruction (acc ++ chunk) with
      | some found => rw [hparse] at h; cases h
      | none =>
          rw [hparse] at h
          obtain ⟨first, rest, rfl⟩ := List.exists_cons_of_ne_nil hseen
          obtain ⟨rfl, hrest⟩ := List.cons_prefix_cons.mp hbegins
          rw [List.flatten_cons, ← List.append_assoc]
          cases rest with
          | nil => rw [List.flatten_nil, List.append_nil, hparse]
          | cons second rest =>
              have hlater := fun c hc => hne c (List.mem_cons_of_mem _ hc)
              exact ih hlater h (List.cons_ne_nil _ _) hrest

/-- The reads so far, of those before a read or of those with it. -/
theorem seen_before_or_after {before after seen : List (List UInt8)} {chunk : List UInt8}
    (h : seen <+: before ++ chunk :: after) : seen <+: before ∨ before ++ [chunk] <+: seen := by
  have hchunk : before ++ [chunk] <+: before ++ chunk :: after :=
    ⟨after, by rw [List.append_assoc]; rfl⟩
  rcases List.prefix_or_prefix_of_prefix h hchunk with hshort | hlong
  · rcases List.prefix_concat_iff.mp hshort with rfl | hshort
    · exact .inr (List.prefix_refl _)
    · exact .inl hshort
  · exact .inr hlong

/-- Some of the reads of a text are a beginning of it, and not all of it. -/
theorem seen_begins {chunks seen : List (List UInt8)} {bytes : List UInt8}
    (hsplit : chunks.flatten = bytes) (h : seen <+: chunks) : seen.flatten <+: bytes := by
  obtain ⟨rest, rfl⟩ := h
  exact ⟨rest.flatten, by rw [← List.flatten_append, hsplit]⟩

theorem seen_ne {chunks seen : List (List UInt8)} {bytes : List UInt8}
    (hne : ∀ chunk ∈ chunks, chunk ≠ []) (hsplit : chunks.flatten = bytes)
    (h : seen <+: chunks) (hall : seen ≠ chunks) : seen.flatten ≠ bytes := by
  obtain ⟨rest, rfl⟩ := h
  intro heq
  rw [List.flatten_append, heq, List.append_right_eq_self] at hsplit
  cases rest with
  | nil => exact hall (List.append_nil seen).symm
  | cons chunk rest =>
      rw [List.flatten_cons, List.append_eq_nil_iff] at hsplit
      exact hne chunk (List.mem_append_right _ List.mem_cons_self) hsplit.1

end Loop

end Sismatic.Devices
