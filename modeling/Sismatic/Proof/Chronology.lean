import Sismatic.HttpApi.Reads
import Sismatic.Lib.Lexicographic
import Sismatic.StoreMemory.Clock
import Sismatic.StoreMemory.Reads

/-!
# When the order of the texts is the order of the instants

The store compares timestamps as text. The stamps it keeps are all written one way:
four-digit year, capital `T`, three digits of fraction, `Z`. The bounds they are
compared with are not: a caller's is any RFC 3339 text, and a cutoff is rendered from an
instant whose year may have more digits than four or a sign.
-/

namespace Sismatic

open Lexicographic

/-! ## Spellings -/

/-- What stands between the date and the time of day. -/
inductive Separator
  | upper | lower | space
deriving DecidableEq, Repr

def Separator.char : Separator → Char
  | .upper => 'T'
  | .lower => 't'
  | .space => ' '

/-- How the offset of UTC is written. -/
inductive Zone
  | upper | lower | plus | minus
deriving DecidableEq, Repr

def Zone.chars : Zone → List Char
  | .upper => ['Z']
  | .lower => ['z']
  | .plus => ['+', '0', '0', ':', '0', '0']
  | .minus => ['-', '0', '0', ':', '0', '0']

/-- Whether the offset is written as a number. -/
def Zone.Numeric (zone : Zone) : Prop := zone = .plus ∨ zone = .minus

/-- A timestamp in UTC, field by field as it is written. -/
structure Spelling where
  year : Int
  month : Nat
  day : Nat
  hour : Nat
  minute : Nat
  second : Nat
  fraction : List (Fin 10)
  separator : Separator
  zone : Zone
  month_range : 1 ≤ month ∧ month ≤ 12
  day_range : 1 ≤ day ∧ day ≤ 31
  hour_range : hour < 24
  minute_range : minute < 60
  /-- A leap second is the sixty-first. -/
  second_range : second ≤ 60
deriving DecidableEq

namespace Spelling

/-- Four digits, or a sign and at least four. -/
def yearChars (year : Int) : List Char :=
  if 0 ≤ year ∧ year ≤ 9999 then padded 4 year.toNat
  else (if year < 0 then '-' else '+') :: padded 4 year.natAbs

def fractionChars : List (Fin 10) → List Char
  | [] => []
  | digits => '.' :: digits.map fun d => Nat.digitChar d.val

def chars (s : Spelling) : List Char :=
  yearChars s.year ++ ('-' :: (padded 2 s.month ++ ('-' :: (padded 2 s.day ++
    (s.separator.char :: (padded 2 s.hour ++ (':' :: (padded 2 s.minute ++
      (':' :: (padded 2 s.second ++ (fractionChars s.fraction ++ s.zone.chars)))))))))))

def text (s : Spelling) : String := String.ofList s.chars

/-- Which of two dates is the earlier. -/
def dateOrder (s t : Spelling) : Ordering :=
  (compare s.year t.year).then ((compare s.month t.month).then (compare s.day t.day))

/-- Which of two times of day is the earlier, to the second. -/
def clockOrder (s t : Spelling) : Ordering :=
  (compare s.hour t.hour).then ((compare s.minute t.minute).then (compare s.second t.second))

/-- Which of two instants is the earlier. -/
def chronology (s t : Spelling) : Ordering :=
  (s.dateOrder t).then ((s.clockOrder t).then
    (compare (expansion s.fraction) (expansion t.fraction)))

/-- `s` is an earlier instant than `t`, however the two are written. -/
def Before (s t : Spelling) : Prop := s.chronology t = .lt

instance (s t : Spelling) : Decidable (s.Before t) := inferInstanceAs (Decidable (_ = _))

/-- The year has four digits, as RFC 3339 has it. -/
def Standard (s : Spelling) : Prop := 0 ≤ s.year ∧ s.year ≤ 9999

/-- Written as `to_rfc3339_opts` writes it, in milliseconds and with a `Z`. -/
def Rendered (s : Spelling) : Prop :=
  s.separator = .upper ∧ s.fraction.length = 3 ∧ s.zone = .upper

end Spelling

/-- The stamp of a stored read: rendered from the clock. -/
abbrev StoredStamp := { s : Spelling // s.Rendered ∧ s.Standard }

/-- Both comparisons the store makes of a stamp with a bound answer as the calendar does. -/
def Agrees (s b : Spelling) : Prop :=
  (b.text ≤ s.text ↔ ¬ s.Before b) ∧ (s.text ≤ b.text ↔ ¬ b.Before s)

/-! ## Fields of a fixed width -/

theorem padded_succ (w n : Nat) :
    padded (w + 2) n = padded (w + 1) (n / 10) ++ [Nat.digitChar (n % 10)] := by
  by_cases h : n < 10
  · have hdiv : n / 10 = 0 := by omega
    have hmod : n % 10 = n := by omega
    rw [hdiv, hmod, padded, padded, Nat.toDigits_of_lt_base h, Nat.toDigits_zero]
    simp only [List.length_singleton, Nat.add_sub_cancel]
    rw [show w + 2 - 1 = w + 1 from rfl, List.replicate_succ']
  · have hdigits := Nat.toDigits_of_base_le (b := 10) (n := n) (by decide) (by omega)
    simp only [padded, hdigits, List.length_append, List.length_singleton, List.append_assoc]
    rw [show w + 2 - ((Nat.toDigits 10 (n / 10)).length + 1) =
      w + 1 - (Nat.toDigits 10 (n / 10)).length by omega]

theorem padded_one {n : Nat} (hn : n < 10) : padded 1 n = [Nat.digitChar n] := by
  rw [padded, Nat.toDigits_of_lt_base hn]
  rfl

theorem length_padded {w n : Nat} (hn : n < 10 ^ (w + 1)) : (padded (w + 1) n).length = w + 1 := by
  induction w generalizing n with
  | zero => rw [padded_one (by omega)]; rfl
  | succ w ih =>
      have hdiv : n / 10 < 10 ^ (w + 1) := by
        rw [Nat.div_lt_iff_lt_mul (by decide), ← Nat.pow_succ]
        exact hn
      rw [padded_succ, List.length_append, ih hdiv, List.length_singleton]

theorem compare_digitChar {m n : Nat} (hm : m < 10) (hn : n < 10) :
    compare (Nat.digitChar m) (Nat.digitChar n) = compare m n := by
  have h : ∀ m n : Fin 10, compare (Nat.digitChar m.val) (Nat.digitChar n.val) =
      compare m.val n.val := by decide
  exact h ⟨m, hm⟩ ⟨n, hn⟩

/-- Numbers padded to one width are ordered as their texts are. -/
theorem order_padded {w m n : Nat} (hm : m < 10 ^ (w + 1)) (hn : n < 10 ^ (w + 1)) :
    order (padded (w + 1) m) (padded (w + 1) n) = compare m n := by
  induction w generalizing m n with
  | zero =>
      rw [padded_one (by omega), padded_one (by omega), order_cons, order_nil, Ordering.then_eq]
      exact compare_digitChar (by omega) (by omega)
  | succ w ih =>
      have hm' : m / 10 < 10 ^ (w + 1) := by
        rw [Nat.div_lt_iff_lt_mul (by decide), ← Nat.pow_succ]
        exact hm
      have hn' : n / 10 < 10 ^ (w + 1) := by
        rw [Nat.div_lt_iff_lt_mul (by decide), ← Nat.pow_succ]
        exact hn
      rw [padded_succ, padded_succ,
        order_append (by rw [length_padded hm', length_padded hn']), ih hm' hn', order_cons,
        order_nil, Ordering.then_eq, compare_digitChar (by omega) (by omega)]
      -- the digits before the last decide first, in the numbers as in the texts
      rcases lt_trichotomy (m / 10) (n / 10) with h | h | h
      · rw [compare_lt_iff_lt.mpr h, compare_lt_iff_lt.mpr (show m < n by omega)]
        rfl
      · rw [compare_eq_iff_eq.mpr h]
        show compare (m % 10) (n % 10) = compare m n
        rcases lt_trichotomy (m % 10) (n % 10) with h' | h' | h'
        · rw [compare_lt_iff_lt.mpr h', compare_lt_iff_lt.mpr (show m < n by omega)]
        · rw [compare_eq_iff_eq.mpr h', compare_eq_iff_eq.mpr (show m = n by omega)]
        · rw [compare_gt_iff_gt.mpr h', compare_gt_iff_gt.mpr (show m > n by omega)]
      · rw [compare_gt_iff_gt.mpr h, compare_gt_iff_gt.mpr (show m > n by omega)]
        rfl

/-- A field of fixed width decides before what follows it. -/
theorem order_field {w m n : Nat} (hm : m < 10 ^ (w + 1)) (hn : n < 10 ^ (w + 1))
    (xs ys : List Char) :
    order (padded (w + 1) m ++ xs) (padded (w + 1) n ++ ys) =
      (compare m n).then (order xs ys) := by
  rw [order_append (by rw [length_padded hm, length_padded hn]), order_padded hm hn]

theorem order_same (c : Char) (xs ys : List Char) : order (c :: xs) (c :: ys) = order xs ys := by
  rw [order_cons, compare_eq_iff_eq.mpr rfl]
  rfl

/-! ## The date and the time of day -/

namespace Spelling

/-- Years of four digits are ordered as their texts are. -/
theorem order_year {y z : Int} (hy : 0 ≤ y ∧ y ≤ 9999) (hz : 0 ≤ z ∧ z ≤ 9999)
    (xs ys : List Char) :
    order (yearChars y ++ xs) (yearChars z ++ ys) = (compare y z).then (order xs ys) := by
  have hnat : compare y.toNat z.toNat = compare y z := by
    rcases lt_trichotomy y z with h | h | h
    · rw [compare_lt_iff_lt.mpr h, compare_lt_iff_lt.mpr (by omega)]
    · rw [compare_eq_iff_eq.mpr h, compare_eq_iff_eq.mpr (by omega)]
    · rw [compare_gt_iff_gt.mpr h, compare_gt_iff_gt.mpr (show y.toNat > z.toNat by omega)]
  rw [yearChars, yearChars, if_pos hy, if_pos hz, order_field (by omega) (by omega), hnat]

/-- A year with a sign is before every other in the order of the texts. -/
theorem order_signed {y z : Int} (hy : 0 ≤ y ∧ y ≤ 9999) (hz : ¬ (0 ≤ z ∧ z ≤ 9999))
    (xs ys : List Char) : order (yearChars y ++ xs) (yearChars z ++ ys) = .gt := by
  have hne : padded 4 y.toNat ≠ [] := by
    intro hnil
    have hlen := length_padded (w := 3) (n := y.toNat) (by omega)
    rw [hnil] at hlen
    cases hlen
  obtain ⟨c, cs, hcs⟩ := List.exists_cons_of_ne_nil hne
  have hdigit : c.isDigit := by
    have hmem : c ∈ padded 4 y.toNat := hcs ▸ List.mem_cons_self
    rw [padded, List.mem_append] at hmem
    rcases hmem with hzero | hrest
    · rw [List.eq_of_mem_replicate hzero]
      rfl
    · exact Nat.isDigit_of_mem_toDigits (by decide) (by decide) hrest
  have hlow : '0' ≤ c := by
    simp only [Char.isDigit, Bool.and_eq_true, decide_eq_true_eq] at hdigit
    exact hdigit.1
  rw [yearChars, yearChars, if_pos hy, if_neg hz, hcs, List.cons_append, List.cons_append,
    order_cons]
  have hsign : (if z < 0 then '-' else '+') < c := by
    split
    · exact lt_of_lt_of_le (by decide) hlow
    · exact lt_of_lt_of_le (by decide) hlow
  rw [compare_gt_iff_gt.mpr hsign]
  rfl

/-- Between years of four digits the fields decide in turn. -/
theorem order_chars {s t : Spelling} (hs : s.Standard) (ht : t.Standard) :
    order s.chars t.chars = (s.dateOrder t).then
      ((compare s.separator.char t.separator.char).then ((s.clockOrder t).then
        (order (fractionChars s.fraction ++ s.zone.chars)
          (fractionChars t.fraction ++ t.zone.chars)))) := by
  have hmonth := s.month_range
  have hmonth' := t.month_range
  have hday := s.day_range
  have hday' := t.day_range
  have hhour := s.hour_range
  have hhour' := t.hour_range
  have hminute := s.minute_range
  have hminute' := t.minute_range
  have hsecond := s.second_range
  have hsecond' := t.second_range
  unfold chars
  rw [order_year hs ht, order_same, order_field (by omega) (by omega), order_same,
    order_field (by omega) (by omega), order_cons, order_field (by omega) (by omega), order_same,
    order_field (by omega) (by omega), order_same, order_field (by omega) (by omega)]
  simp only [dateOrder, clockOrder, Ordering.then_assoc]

theorem chronology_swap (s t : Spelling) : t.chronology s = (s.chronology t).swap := by
  have hswap : ∀ {α : Type} [LinearOrder α] (a b : α), compare b a = (compare a b).swap := by
    intro α _ a b
    rcases lt_trichotomy a b with h | rfl | h
    · rw [compare_lt_iff_lt.mpr h, compare_gt_iff_gt.mpr h]
      rfl
    · rw [compare_eq_iff_eq.mpr rfl]
      rfl
    · rw [compare_gt_iff_gt.mpr h, compare_lt_iff_lt.mpr h]
      rfl
  simp only [chronology, dateOrder, clockOrder, Ordering.swap_then]
  rw [hswap s.year, hswap s.month, hswap s.day, hswap s.hour, hswap s.minute, hswap s.second,
    hswap (expansion s.fraction)]

/-- The two comparisons answer as the calendar does exactly if the two orders agree. -/
theorem inOrder_iff {s b : Spelling} :
    Agrees s b ↔ order s.chars b.chars = s.chronology b := by
  have hle : b.text ≤ s.text ↔ order s.chars b.chars ≠ .lt := by
    rw [String.le_iff_toList_le, text, text, String.toList_ofList, String.toList_ofList, ne_eq,
      order_eq_lt, not_lt]
  have hge : s.text ≤ b.text ↔ order s.chars b.chars ≠ .gt := by
    rw [String.le_iff_toList_le, text, text, String.toList_ofList, String.toList_ofList, ne_eq,
      order_eq_gt, not_lt]
  unfold Agrees Before
  rw [hle, hge, chronology_swap s b]
  cases order s.chars b.chars <;> cases s.chronology b <;> decide

end Spelling

/-! ## Fractions -/

/--
The fractions' texts, each up to the end of its timestamp, are ordered as their values:
a digit tells them apart, or the two are one text, or the bound stops early, before
digits that count, and at a sign, which is below every digit.
-/
def FractionSorts (xs ys : List (Fin 10)) (zone : Zone) : Prop :=
  xs.take ys.length ≠ ys.take xs.length ∨ (ys.length = xs.length ∧ zone = .upper) ∨
    (ys.length < xs.length ∧ zone.Numeric ∧ ∃ d ∈ xs.drop ys.length, d.val ≠ 0)

/-- The digits of a fraction, as characters. -/
def digitChars (ds : List (Fin 10)) : List Char := ds.map fun d => Nat.digitChar d.val

/-- Where the bound's digits end: `Z` and `z` are above every digit, a sign below. -/
theorem order_digit_zone (d : Fin 10) (cs : List Char) (zone : Zone) :
    order (Nat.digitChar d.val :: cs) zone.chars =
      match zone with
      | .upper | .lower => .lt
      | .plus | .minus => .gt := by
  have habove : ∀ d : Fin 10, compare (Nat.digitChar d.val) 'Z' = .lt ∧
      compare (Nat.digitChar d.val) 'z' = .lt ∧ compare (Nat.digitChar d.val) '+' = .gt ∧
        compare (Nat.digitChar d.val) '-' = .gt := by decide
  obtain ⟨hupper, hlower, hplus, hminus⟩ := habove d
  cases zone <;> simp only [Zone.chars, order_cons, *] <;> rfl

theorem digits_sort_iff (xs ys : List (Fin 10)) (zone : Zone) :
    order (digitChars xs ++ ['Z']) (digitChars ys ++ zone.chars) =
        compare (expansion xs) (expansion ys) ↔ FractionSorts xs ys zone := by
  induction xs generalizing ys with
  | nil =>
      cases ys with
      | nil => cases zone <;> simp [FractionSorts, digitChars, Zone.chars, Zone.Numeric]
      | cons y ys =>
          have habove : ∀ d : Fin 10, compare 'Z' (Nat.digitChar d.val) = .gt := by decide
          have hvalue : compare (expansion ([] : List (Fin 10))) (expansion (y :: ys)) ≠ .gt :=
            compare_le_iff_le.mpr (expansion_nonneg (y :: ys))
          have htext :
              order (digitChars [] ++ ['Z']) (digitChars (y :: ys) ++ zone.chars) = .gt := by
            simp only [digitChars, List.map_nil, List.map_cons, List.nil_append, List.cons_append,
              order_cons, habove]
            rfl
          rw [htext]
          refine ⟨fun h => absurd h.symm hvalue, ?_⟩
          intro h
          simp [FractionSorts] at h
  | cons x xs ih =>
      cases ys with
      | nil =>
          -- the bound has no digit left
          have htext := order_digit_zone x (digitChars xs ++ ['Z']) zone
          have hvalue : compare (expansion (x :: xs)) (expansion ([] : List (Fin 10))) =
              if ∃ d ∈ x :: xs, d.val ≠ 0 then .gt else .eq := by
            have hnonneg := expansion_nonneg (x :: xs)
            split
            · rename_i h
              refine compare_gt_iff_gt.mpr (lt_of_le_of_ne hnonneg fun hzero => ?_)
              obtain ⟨d, hd, hne⟩ := h
              exact hne (expansion_eq_zero.mp hzero.symm d hd)
            · rename_i h
              refine compare_eq_iff_eq.mpr (expansion_eq_zero.mpr fun d hd => ?_)
              by_contra hne
              exact h ⟨d, hd, hne⟩
          show order (Nat.digitChar x.val :: (digitChars xs ++ ['Z'])) zone.chars = _ ↔ _
          rw [htext, hvalue]
          have hsorts : FractionSorts (x :: xs) [] zone ↔
              zone.Numeric ∧ ∃ d ∈ x :: xs, d.val ≠ 0 := by
            simp [FractionSorts]
          rw [hsorts]
          by_cases h : ∃ d ∈ x :: xs, d.val ≠ 0
          · rw [if_pos h, and_iff_left h]
            cases zone <;> simp [Zone.Numeric]
          · rw [if_neg h]
            refine ⟨fun heq => ?_, fun h' => absurd h'.2 h⟩
            cases zone <;> cases heq
      | cons y ys =>
          -- two digits: they decide, or the rest does
          show order (Nat.digitChar x.val :: (digitChars xs ++ ['Z']))
            (Nat.digitChar y.val :: (digitChars ys ++ zone.chars)) = _ ↔ _
          rw [order_cons, compare_digitChar x.isLt y.isLt, compare_expansion_cons]
          have hfin : compare x.val y.val = compare x y := rfl
          rw [hfin]
          by_cases hxy : x = y
          · subst hxy
            rw [compare_eq_iff_eq.mpr (rfl : x = x)]
            show order _ _ = compare _ _ ↔ _
            rw [ih]
            simp [FractionSorts]
          · have hne : compare x y ≠ .eq := fun h => hxy (compare_eq_iff_eq.mp h)
            refine iff_of_true ?_ (Or.inl ?_)
            · cases hc : compare x y with
              | eq => exact absurd hc hne
              | lt => rfl
              | gt => rfl
            · simp [hxy]

/-! ## Bounds -/

/--
A bound whose text sorts among the stored stamps as its instant does. Its year may have
a minus sign but no plus sign. If its date is the stamp's, it is written with a `T` and
their times of day tell the two apart, or their fractions sort; or it is written with a
`t`, above every `T`, and is the later; or with a space, below, and is the earlier.
-/
def Sorts (s b : Spelling) : Prop :=
  b.year ≤ 9999 ∧ (b.year < 0 ∨ s.dateOrder b ≠ .eq ∨
    match b.separator with
    | .upper => s.clockOrder b ≠ .eq ∨ FractionSorts s.fraction b.fraction b.zone
    | .lower => s.Before b
    | .space => b.Before s)

namespace Spelling

/-- A bound without a date of its own: the separators, the times and the ends decide. -/
theorem sameDate_iff {s b : Spelling} (hs : s.Rendered) (hs' : s.Standard) (hb : b.Standard)
    (hdate : s.dateOrder b = .eq) :
    order s.chars b.chars = s.chronology b ↔
      match b.separator with
      | .upper => s.clockOrder b ≠ .eq ∨ FractionSorts s.fraction b.fraction b.zone
      | .lower => s.Before b
      | .space => b.Before s := by
  obtain ⟨hsep, hlen, hzone⟩ := hs
  have hswap := chronology_swap s b
  have hchron : s.chronology b = (s.clockOrder b).then
      (compare (expansion s.fraction) (expansion b.fraction)) := by
    rw [chronology, hdate]
    rfl
  have htext := order_chars hs' hb
  rw [hdate, hsep, hzone] at htext
  have hlower : compare 'T' 't' = .lt := by decide
  have hspace : compare 'T' ' ' = .gt := by decide
  cases hb : b.separator with
  | upper =>
      rw [hb] at htext
      have hsame : compare Separator.upper.char Separator.upper.char = .eq :=
        compare_eq_iff_eq.mpr rfl
      rw [hsame] at htext
      have htext : order s.chars b.chars = (s.clockOrder b).then
        (order (fractionChars s.fraction ++ Zone.upper.chars)
          (fractionChars b.fraction ++ b.zone.chars)) := htext
      rw [htext, hchron]
      show _ ↔ s.clockOrder b ≠ .eq ∨ FractionSorts s.fraction b.fraction b.zone
      cases hclock : s.clockOrder b with
      | lt => simp [Ordering.then]
      | gt => simp [Ordering.then]
      | eq =>
          obtain ⟨d, ds, hds⟩ := List.exists_cons_of_length_eq_add_one hlen
          show order _ _ = compare _ _ ↔ _
          simp only [ne_eq, not_true_eq_false, false_or, hds]
          cases hfraction : b.fraction with
          | nil =>
              -- the point of the stamp meets the end of the bound: a sign is below it
              have hpoint : order (fractionChars (d :: ds) ++ Zone.upper.chars)
                  (fractionChars [] ++ b.zone.chars) =
                    order (Nat.digitChar d.val :: (digitChars ds ++ ['Z'])) b.zone.chars := by
                rw [order_digit_zone]
                cases b.zone <;> rfl
              rw [hpoint]
              exact digits_sort_iff (d :: ds) [] b.zone
          | cons e es =>
              show order ('.' :: (digitChars (d :: ds) ++ ['Z']))
                ('.' :: (digitChars (e :: es) ++ b.zone.chars)) = _ ↔ _
              rw [order_same]
              exact digits_sort_iff (d :: ds) (e :: es) b.zone
  | lower =>
      rw [hb] at htext
      have htext : order s.chars b.chars = .lt := by
        rw [htext, show compare Separator.upper.char Separator.lower.char = .lt from hlower]
        rfl
      rw [htext, eq_comm]
      rfl
  | space =>
      rw [hb] at htext
      have htext : order s.chars b.chars = .gt := by
        rw [htext, show compare Separator.upper.char Separator.space.char = .gt from hspace]
        rfl
      rw [htext]
      show _ ↔ b.chronology s = .lt
      rw [hswap]
      cases s.chronology b <;> decide

end Spelling

/--
**Exactly when the order of the texts is the order of the instants**, of a stored stamp
and a bound it is compared with.
-/
theorem inOrder_iff_sorts (s : StoredStamp) (b : Spelling) : Agrees s.val b ↔ Sorts s.val b := by
  obtain ⟨s, hs, hs'⟩ := s
  show Agrees s b ↔ Sorts s b
  rw [Spelling.inOrder_iff]
  by_cases hb : b.Standard
  · -- both years have four digits, so the dates are compared as they should be
    have hyear : ¬ b.year < 0 := by have := hb.1; omega
    unfold Sorts
    rw [and_iff_right hb.2, or_iff_right hyear]
    cases hdate : s.dateOrder b with
    | eq =>
        rw [Spelling.sameDate_iff hs hs' hb hdate]
        exact (or_iff_right (fun h => h rfl)).symm
    | lt =>
        refine iff_of_true ?_ (Or.inl (by decide))
        rw [Spelling.order_chars hs' hb, Spelling.chronology, hdate]
        rfl
    | gt =>
        refine iff_of_true ?_ (Or.inl (by decide))
        rw [Spelling.order_chars hs' hb, Spelling.chronology, hdate]
        rfl
  · have htext : order s.chars b.chars = .gt := Spelling.order_signed hs' hb _ _
    rw [htext]
    by_cases hneg : b.year < 0
    · have hyear : compare s.year b.year = .gt :=
        compare_gt_iff_gt.mpr (by have := hs'.1; omega)
      refine iff_of_true ?_ ⟨by omega, Or.inl hneg⟩
      rw [Spelling.chronology, Spelling.dateOrder, hyear]
      rfl
    · have hlate : ¬ b.year ≤ 9999 := fun h => hb ⟨by omega, h⟩
      have hyear : compare s.year b.year = .lt :=
        compare_lt_iff_lt.mpr (by have := hs'.2; omega)
      refine iff_of_false ?_ (fun h => hlate h.1)
      rw [Spelling.chronology, Spelling.dateOrder, hyear]
      rintro ⟨⟩

/-- A cutoff the server renders sorts unless its year is past 9999. -/
theorem rendered_sorts (s : StoredStamp) {b : Spelling} (hb : b.Rendered) :
    Sorts s.val b ↔ b.year ≤ 9999 := by
  obtain ⟨s, ⟨_, hlen, _⟩, _⟩ := s
  obtain ⟨hsep, hlen', hzone⟩ := hb
  unfold Sorts
  rw [hsep]
  refine and_iff_left (Or.inr (Or.inr (Or.inr ?_)))
  exact Or.inr (Or.inl ⟨hlen'.trans hlen.symm, hzone⟩)

/-! ## What the store answers -/

/-- A query whose bounds sort among the stamps answers with the interval. -/
theorem between_exact {store : MemoryStore} {device : DeviceId} {field : FieldName}
    {span : TimeSpan} {lo hi : Spelling} (hlo : span.start.str = lo.text)
    (hhi : span.end.str = hi.text) {series : List Read}
    (hseries : (store.history device)[field]? = some series) (spelled : Read → StoredStamp)
    (hspelled : ∀ r ∈ series, r.atTime.str = (spelled r).val.text)
    (hsorts : ∀ r ∈ series, Sorts (spelled r).val lo ∧ Sorts (spelled r).val hi) :
    store.between device field span =
      series.filter fun r => !decide ((spelled r).val.Before lo) &&
        !decide (hi.Before (spelled r).val) := by
  rw [MemoryStore.between, hseries]
  refine List.filter_congr fun r hr => ?_
  have hstart := ((inOrder_iff_sorts (spelled r) lo).mpr (hsorts r hr).1).1
  have hend := ((inOrder_iff_sorts (spelled r) hi).mpr (hsorts r hr).2).2
  rw [TimeSpan.within, hspelled r hr, hlo, hhi, decide_eq_decide.mpr hstart,
    decide_eq_decide.mpr hend, decide_not, decide_not]

/-- A sweep whose cutoff sorts among the stamps claims what is older. -/
theorem takeExpired_exact {books : Books} {before : Timestamp} {cutoff : Spelling}
    (hcutoff : before.str = cutoff.text) (spelled : Slot → StoredStamp)
    (hspelled : ∀ slot ∈ books.queue, slot.atTime.str = (spelled slot).val.text)
    (hsorts : ∀ slot ∈ books.queue, Sorts (spelled slot).val cutoff) :
    (books.takeExpired before).2 =
      books.queue.filter fun slot => decide ((spelled slot).val.Before cutoff) := by
  refine List.filter_congr fun slot hslot => ?_
  have hstart := ((inOrder_iff_sorts (spelled slot) cutoff).mpr (hsorts slot hslot)).1
  rw [hspelled slot hslot, hcutoff]
  refine decide_eq_decide.mpr ?_
  rw [← not_le, hstart, not_not]

/-- A quarter of a second past noon, as a read is stamped. -/
def pastNoon : StoredStamp :=
  ⟨{ year := 2026, month := 1, day := 1, hour := 12, minute := 0, second := 0
     fraction := [2, 5, 0], separator := .upper, zone := .upper
     month_range := by decide, day_range := by decide, hour_range := by decide
     minute_range := by decide, second_range := by decide },
    ⟨rfl, rfl, rfl⟩, by decide, by decide⟩

/-- Noon, as a caller may write it. -/
def noon : Spelling where
  year := 2026
  month := 1
  day := 1
  hour := 12
  minute := 0
  second := 0
  fraction := []
  separator := .upper
  zone := .upper
  month_range := by decide
  day_range := by decide
  hour_range := by decide
  minute_range := by decide
  second_range := by decide

/-- A query from noon on leaves out the read taken a quarter of a second later. -/
theorem noon_misses_pastNoon :
    pastNoon.val.text = "2026-01-01T12:00:00.250Z" ∧ noon.text = "2026-01-01T12:00:00Z" ∧
      noon.Before pastNoon.val ∧
        (spanOf ⟨some ⟨noon.text⟩, none⟩).within ⟨pastNoon.val.text⟩ = false ∧
          ¬ Agrees pastNoon.val noon := by
  have hbefore : noon.Before pastNoon.val := by decide +kernel
  have htext : ¬ noon.text ≤ pastNoon.val.text := by decide +kernel
  have hafter : ¬ pastNoon.val.Before noon := by decide +kernel
  refine ⟨by decide +kernel, by decide +kernel, hbefore, by decide +kernel, ?_⟩
  intro h
  exact htext (h.1.mpr hafter)

end Sismatic
