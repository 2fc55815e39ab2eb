import Mathlib.Algebra.Ring.Nat
import Mathlib.Data.List.Basic

/-!
# Byte encodings that can be told apart

Fixed-width little-endian numbers and length-prefixed fields. Neither is decoded here:
what a hashed encoding needs is that nothing else is written the same way, so each
comes with the lemma that takes an equation between two encodings apart, from the front.
-/

namespace Bytes

/-- The `width` least significant bytes of `n`, least significant first. -/
def le : (width : Nat) → (n : Nat) → List UInt8
  | 0, _ => []
  | width + 1, n => UInt8.ofNat n :: le width (n / 256)

@[simp] theorem length_le (width n : Nat) : (le width n).length = width := by
  induction width generalizing n with
  | zero => rfl
  | succ width ih => rw [le, List.length_cons, ih]

/-- Numbers that fit are told apart by their bytes. -/
theorem le_inj {width n m : Nat} (hn : n < 256 ^ width) (hm : m < 256 ^ width)
    (h : le width n = le width m) : n = m := by
  induction width generalizing n m with
  | zero => omega
  | succ width ih =>
      rw [le, le, List.cons.injEq] at h
      obtain ⟨hlow, hhigh⟩ := h
      rw [Nat.pow_succ] at hn hm
      have hdiv := ih (by omega) (by omega) hhigh
      have hmod : n % 256 = m % 256 := by
        have := congrArg UInt8.toNat hlow
        simpa using this
      omega

/-- A field behind its length. -/
def put (bytes : List UInt8) : List UInt8 := le 8 bytes.length ++ bytes

/-- Two fields in front are the same field, with the same behind it. -/
theorem put_append_inj {a b x y : List UInt8} (ha : a.length < 2 ^ 64) (hb : b.length < 2 ^ 64)
    (h : put a ++ x = put b ++ y) : a = b ∧ x = y := by
  unfold put at h
  rw [List.append_assoc, List.append_assoc] at h
  obtain ⟨hlen, hrest⟩ := List.append_inj h (by rw [length_le, length_le])
  have heq : a.length = b.length := le_inj (by omega) (by omega) hlen
  exact List.append_inj hrest heq

/-- From the front of a longer text, `f` gives back which of the `P` it wrote, and the rest. -/
def PrefixFree {α : Type*} (P : α → Prop) (f : α → List UInt8) : Prop :=
  ∀ ⦃a b : α⦄ ⦃x y : List UInt8⦄, P a → P b → f a ++ x = f b ++ y → a = b ∧ x = y

/-- A field whose bytes tell what is in it. -/
theorem prefixFree_put {α : Type*} {P : α → Prop} {bytes : α → List UInt8}
    (hlen : ∀ a, P a → (bytes a).length < 2 ^ 64)
    (hinj : ∀ a b, P a → P b → bytes a = bytes b → a = b) :
    PrefixFree P fun a => put (bytes a) := by
  intro a b x y ha hb h
  obtain ⟨hbytes, hrest⟩ := put_append_inj (hlen a ha) (hlen b hb) h
  exact ⟨hinj a b ha hb hbytes, hrest⟩

/-- As many fields, one behind another. -/
theorem prefixFree_flatMap {α : Type*} {P : α → Prop} {f : α → List UInt8} (hf : PrefixFree P f)
    {as bs : List α} {x y : List UInt8} (has : ∀ a ∈ as, P a) (hbs : ∀ b ∈ bs, P b)
    (hlen : as.length = bs.length) (h : as.flatMap f ++ x = bs.flatMap f ++ y) :
    as = bs ∧ x = y := by
  induction as generalizing bs with
  | nil =>
      obtain rfl := List.length_eq_zero_iff.mp hlen.symm
      exact ⟨rfl, h⟩
  | cons a as ih =>
      cases bs with
      | nil => cases hlen
      | cons b bs =>
          rw [List.flatMap_cons, List.flatMap_cons, List.append_assoc, List.append_assoc] at h
          obtain ⟨rfl, hrest⟩ := hf (has a (List.mem_cons_self ..)) (hbs b (List.mem_cons_self ..)) h
          obtain ⟨rfl, hxy⟩ := ih (fun c hc => has c (List.mem_cons_of_mem _ hc))
            (fun c hc => hbs c (List.mem_cons_of_mem _ hc)) (Nat.succ.inj hlen) hrest
          exact ⟨rfl, hxy⟩

end Bytes
