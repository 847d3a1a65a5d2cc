import Mathlib.Algebra.Group.Nat.Defs
import RuleLang.Calendar.Printer
import RuleLang.Number.Rounding

/-!
# Decimal digits

The digits of a number read back as the number, and so do digits that are filled up with
zeros on either side.
-/

namespace RuleLang

/-- The characters that satisfy a test end where the test fails. -/
theorem takeWhile_append_of_head {p : Char → Bool} {cs rest : List Char}
    (hcs : ∀ c ∈ cs, p c) (hrest : ∀ c ∈ rest.head?, ¬p c) :
  (cs ++ rest).takeWhile p = cs
  := by
  rw [List.takeWhile_append_of_pos hcs]
  cases rest with
  | nil => simp
  | cons c rest => simp [hrest c rfl]

/-- Whether a text consists of digits. -/
def AreDigits (cs : List Char) : Prop := ∀ c ∈ cs, c.isDigit

theorem AreDigits.append {as bs : List Char} (has : AreDigits as) (hbs : AreDigits bs) :
  AreDigits (as ++ bs)
  := by
  intro c hc
  obtain hc | hc := List.mem_append.mp hc
  · apply has c hc
  · apply hbs c hc

theorem areDigits_replicate_zero
    (n : Nat) :
  AreDigits (List.replicate n '0')
  := by
  intro c hc
  obtain rfl := List.eq_of_mem_replicate hc
  rfl

/-- A text that begins with digits begins with a digit. -/
theorem AreDigits.head {ds : List Char} (hds : AreDigits ds) (hne : ds ≠ []) (rest : List Char) :
  ∀ c ∈ (ds ++ rest).head?, c.isDigit
  := by
  cases ds with
  | nil => contradiction
  | cons d ds =>
    rintro c ⟨⟩
    apply hds d List.mem_cons_self

/-- Digits in front of others count as many tenfolds as there are others. -/
theorem digitsValue_append
    (as bs : List Char) :
  digitsValue (as ++ bs) = 10 ^ bs.length * digitsValue as + digitsValue bs
  := by
  apply Eq.trans (Nat.ofDigitChars_append 0)
  apply Nat.ofDigitChars_eq_ofDigitChars_zero

@[simp]
theorem digitsValue_replicate_zero
    (n : Nat) :
  digitsValue (List.replicate n '0') = 0
  := by
  apply Eq.trans Nat.ofDigitChars_replicate_zero
  apply Nat.mul_zero

namespace Decimal

theorem areDigits_digitsOf
    (n : Nat) :
  AreDigits (digitsOf n)
  := fun _ hc => Nat.isDigit_of_mem_toDigits (by decide) (by decide) hc

theorem digitsOf_ne_nil
    (n : Nat) :
  digitsOf n ≠ []
  := Nat.toDigits_ne_nil

/-- The digits of a number read back as the number. -/
@[simp]
theorem digitsValue_digitsOf
    (n : Nat) :
  digitsValue (digitsOf n) = n
  := Nat.ofDigitChars_ten_toDigits

/-- A number has at most `k` digits exactly if it is below the power of ten. -/
theorem length_digitsOf_le_iff {n k : Nat} (hk : 0 < k) :
  (digitsOf n).length ≤ k ↔ n < 10 ^ k
  := Nat.length_toDigits_le_iff (by decide) hk

/-- A natural number is written with its digits. -/
theorem toList_toString_natCast
    (n : Nat) :
  (toString (Int.ofNat n)).toList = digitsOf n
  := Nat.toList_repr

/-- A negative number is written with the digits of its magnitude. -/
theorem toList_toString_negSucc
    (n : Nat) :
  (toString (Int.negSucc n)).toList = '-' :: digitsOf (n + 1)
  := by
  change ("-" ++ (n + 1).repr).toList = _
  rw [String.toList_append, Nat.toList_repr]
  rfl

end Decimal

theorem areDigits_padded
    (width n : Nat) :
  AreDigits (padded width n)
  := (areDigits_replicate_zero _).append (Decimal.areDigits_digitsOf n)

@[simp]
theorem digitsValue_padded
    (width n : Nat) :
  digitsValue (padded width n) = n
  := by
  simp [padded, digitsValue_append]

/-- A number that is not too great is filled up to the width. -/
theorem length_padded {width n : Nat} (hwidth : 0 < width) (hn : n < 10 ^ width) :
  (padded width n).length = width
  := by
  have hle := (Decimal.length_digitsOf_le_iff hwidth).mpr hn
  rw [padded, List.length_append, List.length_replicate]
  omega

theorem padded_ne_nil
    (width n : Nat) :
  padded width n ≠ []
  := by
  simp [padded, Decimal.digitsOf_ne_nil]

end RuleLang
