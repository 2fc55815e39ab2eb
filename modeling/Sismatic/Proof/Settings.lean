import Sismatic.Server.Dynamic
import Sismatic.Proof.Digits

/-!
# Settings as text

A size, a span of time and an instant are each written so that the reader of the file
takes them back. Every reader trims what it is given and looks for a word before it looks
for a number, so each form is first told apart from the others by its first and last
character.
-/

namespace Sismatic

/-! ## Characters -/

theorem isDigit_iff {c : Char} : c.isDigit = true ↔ 48 ≤ c.toNat ∧ c.toNat ≤ 57 := by
  simp only [Char.isDigit, Bool.and_eq_true, decide_eq_true_eq, ge_iff_le,
    UInt32.le_iff_toNat_le]
  exact Iff.rfl

theorem range_of_isAlpha {c : Char} (h : c.isAlpha = true) : 65 ≤ c.toNat ∧ c.toNat ≤ 122 := by
  delta Char.isAlpha Char.isUpper Char.isLower at h
  simp only [Bool.or_eq_true, Bool.and_eq_true, decide_eq_true_eq, ge_iff_le,
    UInt32.le_iff_toNat_le] at h
  have hc : c.toNat = c.val.toNat := rfl
  have hA : 'A'.val.toNat = 65 := rfl
  have hZ : 'Z'.val.toNat = 90 := rfl
  have ha : 'a'.val.toNat = 97 := rfl
  have hz : 'z'.val.toNat = 122 := rfl
  omega

theorem not_isDigit_of_isAlpha {c : Char} (h : c.isAlpha = true) : c.isDigit = false := by
  have hrange := range_of_isAlpha h
  rw [← Bool.not_eq_true, isDigit_iff]
  omega

/-- No printing ASCII character is a blank. -/
theorem isWhitespace_eq_false {c : Char} (hlow : 0x21 ≤ c.toNat) (hhigh : c.toNat < 0x80) :
    isWhitespace c = false := by
  simp only [isWhitespace, Bool.or_eq_false_iff, decide_eq_false_iff_not,
    List.contains_eq_mem, List.mem_cons, List.not_mem_nil, or_false]
  omega

/-- Nothing before the letters has a case. -/
theorem toLower_eq_self {c : Char} (h : c.toNat < 65) : c.toLower = c := by
  have hA : 'A'.val.toNat = 65 := rfl
  have hc : c.toNat = c.val.toNat := rfl
  delta Char.toLower
  rw [dif_neg]
  simp only [ge_iff_le, UInt32.le_iff_toNat_le]
  omega

/-! ## Text -/

theorem dropWhile_eq_self {α : Type} {p : α → Bool} {xs : List α}
    (h : ∀ x, xs.head? = some x → p x = false) : xs.dropWhile p = xs := by
  cases xs with
  | nil => rfl
  | cons x xs => rw [List.dropWhile_cons, h x rfl, if_neg (by decide)]

/-- Text that neither begins nor ends with a blank is trimmed already. -/
theorem trim_eq_self {s : String}
    (hfirst : ∀ c, s.toList.head? = some c → isWhitespace c = false)
    (hlast : ∀ c, s.toList.getLast? = some c → isWhitespace c = false) : trim s = s := by
  rw [trim, dropWhile_eq_self hfirst, dropWhile_eq_self, List.reverse_reverse, String.ofList_toList]
  intro c hc
  rw [List.head?_reverse] at hc
  exact hlast c hc

/-- A word is not what text with another first letter says. -/
theorem eqIgnoreAsciiCase_ofList {first : Char} {rest : List Char} {word : String}
    (h : some first.toLower ≠ (word.toList.map Char.toLower).head?) :
    eqIgnoreAsciiCase (String.ofList (first :: rest)) word = false := by
  rw [eqIgnoreAsciiCase, beq_eq_false_iff_ne]
  intro heq
  have := congrArg (fun s => s.toList.head?) heq
  simp only [toAsciiLowercase, String.toList_ofList, List.map_cons, List.head?_cons] at this
  exact h this

/-! ## Sizes -/

/-- What may follow a number and be told from it: a unit, or nothing. -/
structure UnitSuffix (suffix : String) (scale : Nat) : Prop where
  scaled : byteScale (toAsciiLowercase (trim suffix)) = some scale
  head : ∀ c, suffix.toList.head? = some c → (c.isDigit || c == '.') = false
  last : ∀ c, suffix.toList.getLast? = some c → isWhitespace c = false
  pos : 0 < scale

theorem unitSuffix_none : UnitSuffix "" 1 :=
  ⟨by decide, fun c hc => by simp at hc, fun c hc => by simp at hc, by decide⟩

theorem unitSuffix_of_mem {scale : Nat} {suffix : String} (h : (scale, suffix) ∈ byteUnits) :
    UnitSuffix suffix scale := by
  simp only [byteUnits, List.mem_cons, Prod.mk.injEq, List.not_mem_nil, or_false] at h
  rcases h with ⟨rfl, rfl⟩ | ⟨rfl, rfl⟩ | ⟨rfl, rfl⟩ | ⟨rfl, rfl⟩
  all_goals refine ⟨by decide, ?_, ?_, by decide⟩
  all_goals
    intro c hc
    obtain rfl := Option.some.inj hc
    decide

theorem toList_number (m : Nat) (suffix : String) :
    (toString m ++ suffix).toList = Nat.toDigits 10 m ++ suffix.toList := by
  rw [String.toList_append, Nat.toString_eq_ofList_toDigits, String.toList_ofList]

theorem trim_number {m scale : Nat} {suffix : String} (h : UnitSuffix suffix scale) :
    trim (toString m ++ suffix) = toString m ++ suffix := by
  apply trim_eq_self
  · intro c hc
    obtain ⟨first, rest, hfirst, hd⟩ := head_toDigits m
    rw [toList_number, hfirst] at hc
    obtain rfl : first = c := Option.some.inj hc
    have := isDigit_iff.mp hd
    exact isWhitespace_eq_false (by omega) (by omega)
  · intro c hc
    rw [toList_number, List.getLast?_append] at hc
    rcases Option.or_eq_some_iff.mp hc with hc | ⟨-, hc⟩
    · exact h.last c hc
    · have hd : c.isDigit = true :=
        Nat.isDigit_of_mem_toDigits (by decide) (by decide) (List.mem_of_getLast? hc)
      have := isDigit_iff.mp hd
      exact isWhitespace_eq_false (by omega) (by omega)

/-- A whole number and a unit are read as the number times what the unit stands for. -/
theorem bytes_number {m scale : Nat} {suffix : String} (h : UnitSuffix suffix scale)
    (hfit : m * scale < 2 ^ 64) :
    bytes (toString m ++ suffix) = .ok (UInt64.ofNat (m * scale)) := by
  have hdigit : ∀ c ∈ Nat.toDigits 10 m, c.isDigit = true := fun c hc =>
    Nat.isDigit_of_mem_toDigits (by decide) (by decide) hc
  have hpoint : '.' ∉ Nat.toDigits 10 m := fun h => absurd (hdigit _ h) (by decide)
  have hparse := parseUnsigned_toDigits
    (Nat.lt_of_le_of_lt (Nat.le_mul_of_pos_right m h.pos) hfit)
  unfold bytes
  extract_lets text bad number unit unit'
  have htext : text.toList = Nat.toDigits 10 m ++ suffix.toList := by
    rw [← toList_number, ← trim_number h]
  have hnumber : number = Nat.toDigits 10 m := by
    have hmax : suffix.toList.takeWhile (fun c => c.isDigit || c == '.') = [] := by
      cases hs : suffix.toList with
      | nil => rfl
      | cons c cs =>
          rw [List.takeWhile_cons, h.head c (by rw [hs]; rfl), if_neg (by decide)]
    show text.toList.takeWhile _ = _
    rw [htext, List.takeWhile_append_of_pos fun c hc => by rw [hdigit c hc]; rfl, hmax,
      List.append_nil]
  have hunit : unit = suffix.toList := by
    show text.toList.dropWhile _ = _
    rw [htext, List.dropWhile_append_of_pos fun c hc => by rw [hdigit c hc]; rfl]
    exact dropWhile_eq_self h.head
  have hscaled : byteScale unit' = some scale := by
    rw [← h.scaled, ← String.ofList_toList (s := suffix), ← hunit]
  rw [hscaled]
  dsimp only
  rw [hnumber, if_neg hpoint, hparse]
  exact if_pos hfit

/-- A size is written as a whole number of some unit, or of bytes. -/
theorem formatBytes_spelled (n : UInt64) : ∃ m scale suffix,
    formatBytes n = toString m ++ suffix ∧ UnitSuffix suffix scale ∧ m * scale = n.toNat := by
  rw [formatBytes]
  split
  case h_1 =>
    exact ⟨n.toNat, 1, "", String.append_empty.symm, unitSuffix_none, Nat.mul_one _⟩
  case h_2 scale suffix hfind =>
    have hdvd := List.find?_some hfind
    simp only [decide_eq_true_eq] at hdvd
    exact ⟨_, scale, suffix, rfl, unitSuffix_of_mem (List.mem_of_find?_eq_some hfind),
      Nat.div_mul_cancel (Nat.dvd_of_mod_eq_zero hdvd.2)⟩

/-- **A byte count is read back from its text.** -/
theorem bytes_formatBytes (n : UInt64) : bytes (formatBytes n) = .ok n := by
  obtain ⟨m, scale, suffix, hformat, hsuffix, hvalue⟩ := formatBytes_spelled n
  have hn := n.toNat_lt
  rw [hformat, bytes_number hsuffix (by omega), hvalue, UInt64.ofNat_toNat]

/-- A size's text is not the word for no cap. -/
theorem bytesOfText_formatBytes (n : UInt64) :
    Configuration.bytesOfText (formatBytes n) = .ok n := by
  have hword : eqIgnoreAsciiCase (trim (formatBytes n)) unlimitedWord = false := by
    obtain ⟨m, scale, suffix, hformat, hsuffix, -⟩ := formatBytes_spelled n
    obtain ⟨first, rest, hdigits, hfirst⟩ := head_toDigits m
    have hd := isDigit_iff.mp hfirst
    rw [hformat, trim_number hsuffix, ← String.ofList_toList (s := toString m ++ suffix),
      toList_number, hdigits, List.cons_append]
    apply eqIgnoreAsciiCase_ofList
    rw [toLower_eq_self (by omega)]
    rintro heq
    obtain rfl := Option.some.inj heq
    exact absurd hfirst (by decide)
  rw [Configuration.bytesOfText, hword, if_neg (by decide), bytes_formatBytes]

/-! ## Spans of time -/

theorem fromSecs_lt (secs : UInt64) : Devices.fromSecs secs < durationBound := by
  have := secs.toNat_lt
  show secs.toNat * (1000000000 : Nat) < 2 ^ 64 * 1000000000
  omega

namespace Humantime.Documented

variable {h : Humantime} (hh : h.Documented)
include hh

theorem trim_format (d : Duration) : trim (h.formatDuration d) = h.formatDuration d := by
  obtain ⟨first, terms, last, hformat, hfirst, hlast⟩ := hh.spelled d
  have hdigit := isDigit_iff.mp hfirst
  have halpha := range_of_isAlpha hlast
  rw [hformat]
  refine trim_eq_self (fun c hc => ?_) fun c hc => ?_
  · rw [String.toList_ofList] at hc
    obtain rfl : first = c := Option.some.inj hc
    exact isWhitespace_eq_false (by omega) (by omega)
  · rw [String.toList_ofList, ← List.cons_append, List.getLast?_append_of_ne_nil _ (by simp)] at hc
    obtain rfl : last = c := Option.some.inj hc
    exact isWhitespace_eq_false (by omega) (by omega)

/-- A rendered duration is no setting's word. -/
theorem format_ne_word (d : Duration) {word : String}
    (hword : ((word.toList.map Char.toLower).head?.all fun c => !c.isDigit) = true) :
    eqIgnoreAsciiCase (h.formatDuration d) word = false := by
  obtain ⟨first, terms, last, hformat, hfirst, -⟩ := hh.spelled d
  have hdigit := isDigit_iff.mp hfirst
  rw [hformat]
  apply eqIgnoreAsciiCase_ofList
  intro heq
  rw [← heq, Option.all_some, toLower_eq_self (by omega), hfirst] at hword
  cases hword

/-- **A duration is read back from its text.** -/
theorem duration_format {d : Duration} (hd : d < durationBound) :
    duration h (h.formatDuration d) = .ok d := by
  have hunread : parseUnsigned (2 ^ 64) (h.formatDuration d) = none := by
    obtain ⟨first, terms, last, hformat, -, hlast⟩ := hh.spelled d
    rw [hformat]
    exact parseUnsigned_eq_none (by simp) (not_isDigit_of_isAlpha hlast)
  unfold duration
  simp only [hh.trim_format, hunread, hh.reads_back d hd]

theorem durationOfText_format {d : Duration} (hd : d < durationBound) :
    Configuration.durationOfText h (h.formatDuration d) = .ok d := by
  rw [Configuration.durationOfText, hh.trim_format, hh.format_ne_word d (by decide),
    if_neg (by decide), hh.duration_format hd]

/-- What is read as a duration can be held as one. -/
theorem duration_represented {text : String} {d : Duration} (hok : duration h text = .ok d) :
    d < durationBound := by
  unfold duration at hok
  extract_lets text' at hok
  split at hok
  case h_1 secs _ =>
    obtain rfl := Except.ok.inj hok
    exact fromSecs_lt _
  case h_2 =>
    split at hok
    case h_1 d' hparse =>
      obtain rfl := Except.ok.inj hok
      exact hh.represented hparse
    case h_2 => cases hok

end Humantime.Documented

/-! ## Instants and retention -/

namespace Calendar.Documented

variable {c : Calendar} (hc : c.Documented)
include hc

theorem trim_toRfc3339 (t : c.Instant) : trim (c.toRfc3339 t) = c.toRfc3339 t := by
  obtain ⟨first, year, rest, hformat, hfirst⟩ := hc.dated t
  rw [hformat]
  refine trim_eq_self (fun ch hch => ?_) fun ch hch => ?_
  · rw [String.toList_ofList] at hch
    obtain rfl : first = ch := Option.some.inj hch
    rcases hfirst with hdigit | rfl | rfl
    · have := isDigit_iff.mp hdigit
      exact isWhitespace_eq_false (by omega) (by omega)
    · decide
    · decide
  · have hends : first :: (year ++ '-' :: (rest ++ ['Z'])) =
        (first :: year ++ '-' :: rest) ++ ['Z'] := by simp
    rw [String.toList_ofList, hends, List.getLast?_append_of_ne_nil _ (by simp)] at hch
    obtain rfl : 'Z' = ch := Option.some.inj hch
    decide

/-- An instant's text is no setting's word. -/
theorem toRfc3339_ne_forever (t : c.Instant) :
    eqIgnoreAsciiCase (c.toRfc3339 t) foreverWord = false := by
  obtain ⟨first, year, rest, hformat, hfirst⟩ := hc.dated t
  rw [hformat]
  apply eqIgnoreAsciiCase_ofList
  rcases hfirst with hdigit | rfl | rfl
  · have := isDigit_iff.mp hdigit
    rw [toLower_eq_self (by omega)]
    intro heq
    obtain rfl : first = 'f' := Option.some.inj heq
    exact absurd hdigit (by decide)
  · decide
  · decide

/-- An instant's text is no duration: there is a dash in it. -/
theorem duration_toRfc3339 {h : Humantime} (hh : h.Documented) (t : c.Instant) :
    ∃ err, duration h (c.toRfc3339 t) = .error err := by
  obtain ⟨first, year, rest, hformat, -⟩ := hc.dated t
  have hdash : '-' ∈ year ++ '-' :: (rest ++ ['Z']) := by simp
  have hunread : parseUnsigned (2 ^ 64) (c.toRfc3339 t) = none := by
    rw [hformat]
    exact parseUnsigned_eq_none hdash (by decide)
  unfold duration
  simp only [hc.trim_toRfc3339, hunread]
  cases hparse : h.parseDuration (c.toRfc3339 t) with
  | error e => exact ⟨_, rfl⟩
  | ok d =>
      refine absurd ?_ (hh.undashed hparse)
      rw [hformat, String.toList_ofList]
      exact List.mem_cons_of_mem _ hdash

end Calendar.Documented

section Retentions

open Configuration

/-- A retention the reader of the file can come to. -/
def Retention.Written (c : Calendar) : Retention → Prop
  | .forever => True
  | .age window => 0 < window ∧ window < durationBound
  | .since floor => ∃ t, floor = stamp c t

/-- A floor, where there is one, falls in a year RFC 3339 has room for. -/
def Retention.Dated (c : Calendar) : Retention → Prop
  | .since floor => ∃ t, floor = stamp c t ∧ c.FourDigits t
  | _ => True

variable {h : Humantime} {c : Calendar} (hh : h.Documented) (hc : c.Documented)

include hc in
theorem instant_stamped (t : c.Instant) (hyear : c.FourDigits t) :
    ∃ again, instant c (c.toRfc3339 t) = .ok again ∧ stamp c again = stamp c t := by
  obtain ⟨again, hread, hsame⟩ := hc.reads_back t hyear
  refine ⟨again, ?_, congrArg Timestamp.mk hsame⟩
  unfold instant
  simp only [hc.trim_toRfc3339, hread]

include hc in
theorem instant_unreadable (t : c.Instant) (hyear : ¬ c.FourDigits t) :
    ∃ err, instant c (c.toRfc3339 t) = .error err := by
  obtain ⟨hrfc, hdate⟩ := hc.signed t hyear
  unfold instant
  simp only [hc.trim_toRfc3339, hrfc, hdate]
  exact ⟨_, rfl⟩

include hh hc in
/-- **A retention is read back from its text, when its floor is dated.** -/
theorem retentionOfText_render {retain : Retention} (hwritten : retain.Written c)
    (hdated : retain.Dated c) : retentionOfText h c (renderRetention h retain) = .ok retain := by
  unfold retentionOfText
  cases retain with
  | forever =>
      have hword : eqIgnoreAsciiCase (trim foreverWord) foreverWord = true := by decide
      simp only [renderRetention, hword, if_true]
  | age window =>
      obtain ⟨hpos, hlt⟩ := hwritten
      have hword : eqIgnoreAsciiCase (h.formatDuration window) foreverWord = false :=
        hh.format_ne_word window (by decide)
      simp only [renderRetention, hh.trim_format, hword, hh.duration_format hlt,
        Bool.false_eq_true, if_false]
      exact if_neg (Nat.ne_of_gt hpos)
  | since floor =>
      obtain ⟨t, rfl, hyear⟩ := hdated
      obtain ⟨err, hduration⟩ := hc.duration_toRfc3339 hh t
      obtain ⟨again, hinstant, hsame⟩ := instant_stamped hc t hyear
      simp only [renderRetention, stamp, hc.trim_toRfc3339, hc.toRfc3339_ne_forever, hduration,
        hinstant, Bool.false_eq_true, if_false]
      exact congrArg (fun floor => Except.ok (Retention.since floor)) hsame

include hh hc in
/-- A floor in any other year is not read back. -/
theorem retentionOfText_undated {retain : Retention} (hwritten : retain.Written c)
    (hundated : ¬ retain.Dated c) :
    ∃ err, retentionOfText h c (renderRetention h retain) = .error err := by
  cases retain with
  | forever => exact absurd trivial hundated
  | age window => exact absurd trivial hundated
  | since floor =>
      obtain ⟨t, rfl⟩ := hwritten
      obtain ⟨durationErr, hduration⟩ := hc.duration_toRfc3339 hh t
      obtain ⟨instantErr, hinstant⟩ :=
        instant_unreadable hc t fun hyear => hundated ⟨t, rfl, hyear⟩
      unfold retentionOfText
      simp only [renderRetention, stamp, hc.trim_toRfc3339, hc.toRfc3339_ne_forever, hduration,
        hinstant, Bool.false_eq_true, if_false]
      exact ⟨_, rfl⟩

/-! ## What the visitors come to -/

theorem nonNegative_ok {α : Type} {what : String} {visit : UInt64 → Except String α} {n : Int64}
    {value : α} (hok : nonNegative what visit n = .ok value) : ∃ secs, visit secs = .ok value := by
  unfold nonNegative at hok
  split at hok
  · cases hok
  · exact ⟨_, hok⟩

theorem finite_ok {window : Duration} {retain : Retention} (hok : finite window = .ok retain) :
    0 < window ∧ retain = .age window := by
  unfold finite at hok
  split at hok
  · cases hok
  · exact ⟨Nat.pos_of_ne_zero ‹_›, (Except.ok.inj hok).symm⟩

include hh in
theorem retentionOf_written {scalar : Scalar} {retain : Retention}
    (hok : retentionOf h c scalar = .ok retain) : retain.Written c := by
  have hfinite : ∀ secs, finite (Devices.fromSecs secs) = .ok retain → retain.Written c := by
    intro secs hok
    obtain ⟨hpos, rfl⟩ := finite_ok hok
    exact ⟨hpos, fromSecs_lt secs⟩
  cases scalar with
  | text s =>
      simp only [retentionOf, retentionOfText] at hok
      split at hok
      · obtain rfl := Except.ok.inj hok
        trivial
      · split at hok
        case h_1 window hduration =>
          obtain ⟨hpos, rfl⟩ := finite_ok hok
          exact ⟨hpos, hh.duration_represented hduration⟩
        case h_2 =>
          split at hok
          case h_1 floor _ =>
            obtain rfl := Except.ok.inj hok
            exact ⟨floor, rfl⟩
          case h_2 => cases hok
  | unsigned secs => exact hfinite secs hok
  | signed secs =>
      simp only [retentionOf] at hok
      obtain ⟨secs, hok⟩ := nonNegative_ok hok
      exact hfinite secs hok
  | other unexpected => cases hok

include hh in
theorem durationOf_represented {scalar : Scalar} {d : Duration}
    (hok : durationOf h scalar = .ok d) : d < durationBound := by
  have hsecs : ∀ secs, Except.ok (Devices.fromSecs secs) = Except.ok (ε := String) d →
      d < durationBound := by
    intro secs hok
    obtain rfl := Except.ok.inj hok
    exact fromSecs_lt secs
  cases scalar with
  | text s =>
      simp only [durationOf, durationOfText] at hok
      split at hok
      · obtain rfl := Except.ok.inj hok
        decide
      · exact hh.duration_represented hok
  | unsigned secs => exact hsecs secs hok
  | signed secs =>
      simp only [durationOf] at hok
      obtain ⟨secs, hok⟩ := nonNegative_ok hok
      exact hsecs secs hok
  | other unexpected => cases hok

end Retentions

end Sismatic
