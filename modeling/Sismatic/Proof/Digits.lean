import Sismatic.Core.Protocol

/-!
# Digits

What the standard library reads of a run of decimal digits, and of the digits of a number.
-/

namespace Sismatic

theorem digitsValue_toDigits (n : Nat) : digitsValue (Nat.toDigits 10 n) = n := by
  have h := @Nat.ofDigitChars_ten_toDigits n
  rw [Nat.ofDigitChars_eq_foldl] at h
  simpa only [digitsValue, Nat.mul_comm 10] using h

theorem head_toDigits (n : Nat) : ∃ first rest, Nat.toDigits 10 n = first :: rest ∧
    first.isDigit = true := by
  cases h : Nat.toDigits 10 n with
  | nil => exact absurd h Nat.toDigits_ne_nil
  | cons first rest =>
      have hmem : first ∈ Nat.toDigits 10 n := h ▸ List.mem_cons_self
      exact ⟨first, rest, rfl, Nat.isDigit_of_mem_toDigits (by decide) (by decide) hmem⟩

/-- A run of digits is the number it stands for, if that is below the bound. -/
theorem parseUnsigned_digits {digits : List Char} (hne : digits ≠ [])
    (hall : ∀ c ∈ digits, c.isDigit = true) (bound : Nat) :
    parseUnsigned bound (String.ofList digits) =
      if bound ≤ digitsValue digits then none else some (digitsValue digits) := by
  have hplus : ∀ rest, digits ≠ '+' :: rest := by
    rintro rest rfl
    exact absurd (hall '+' List.mem_cons_self) (by decide)
  rw [parseUnsigned, String.toList_ofList]
  split
  case h_1 rest => exact absurd rfl (hplus rest)
  case h_2 =>
    have hdigits : digits.all Char.isDigit = true := List.all_eq_true.mpr hall
    simp only [hne, hdigits, not_true_eq_false, false_or]

theorem parseUnsigned_lt {bound n : Nat} {s : String} (h : parseUnsigned bound s = some n) :
    n < bound := by
  unfold parseUnsigned at h
  extract_lets digits at h
  by_cases hbad : digits = [] ∨ ¬ digits.all Char.isDigit ∨ bound ≤ digitsValue digits
  · rw [if_pos hbad] at h
    cases h
  · rw [if_neg hbad] at h
    obtain rfl := Option.some.inj h
    omega

/-- A number is read back from its digits. -/
theorem parseUnsigned_toDigits {bound n : Nat} (h : n < bound) :
    parseUnsigned bound (String.ofList (Nat.toDigits 10 n)) = some n := by
  rw [parseUnsigned_digits Nat.toDigits_ne_nil fun c hc =>
    Nat.isDigit_of_mem_toDigits (by decide) (by decide) hc, digitsValue_toDigits,
    if_neg (Nat.not_le.mpr h)]

/-- No unsigned number has anything but digits after its first character. -/
theorem parseUnsigned_eq_none {bound : Nat} {first c : Char} {rest : List Char} (hc : c ∈ rest)
    (h : c.isDigit = false) : parseUnsigned bound (String.ofList (first :: rest)) = none := by
  have hall : ∀ digits : List Char, c ∈ digits → ¬ digits.all Char.isDigit = true := by
    intro digits hmem hdigits
    rw [List.all_eq_true.mp hdigits c hmem] at h
    cases h
  rw [parseUnsigned, String.toList_ofList]
  split
  case h_1 digits heq =>
    obtain ⟨-, rfl⟩ := List.cons.inj heq
    exact if_pos (.inr (.inl (hall _ hc)))
  case h_2 => exact if_pos (.inr (.inl (hall _ (List.mem_cons_of_mem _ hc))))

end Sismatic
