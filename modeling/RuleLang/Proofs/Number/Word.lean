import Mathlib.Algebra.Group.Nat.Defs
import Mathlib.Algebra.Ring.Commute
import Mathlib.Algebra.Ring.Int.Defs
import Mathlib.Data.Nat.Basic
import Mathlib.Order.Basic
import RuleLang.Number.Word

/-!
# Integers that have words

An integer has a word if it is at least `-2 ^ 63` and below `2 ^ 63`.  What is checked is whether
the exact integer has one; for the power of a word it is enough to look at an exponent of at most
65.
-/

namespace RuleLang

/-- Whether there is a word that stands for an integer. -/
def HasWord (n : Int) : Prop := ∃ w : Int64, w.toInt = n

/-- The word that is found of an integer is the one that stands for it. -/
theorem int64?_eq_some_iff {n : Int} {w : Int64} :
  int64? n = some w ↔ w.toInt = n
  := by
  constructor
  · apply toInt_of_int64?_eq_some
  · rintro rfl
    apply int64?_toInt

/-- No word is found exactly if there is none. -/
theorem int64?_eq_none_iff_not_hasWord {n : Int} :
  int64? n = none ↔ ¬HasWord n
  := by
  rw [Option.eq_none_iff_forall_not_mem, HasWord, not_exists]
  exact forall_congr' fun w => not_congr int64?_eq_some_iff

theorem hasWord_iff {n : Int} :
  HasWord n ↔ -2 ^ 63 ≤ n ∧ n < 2 ^ 63
  := by
  rw [← not_iff_not, ← int64?_eq_none_iff_not_hasWord, int64?_eq_none_iff]
  omega

theorem natAbs_toInt_le
    (w : Int64) :
  w.toInt.natAbs ≤ 2 ^ 63
  := by
  have hlow := Int64.le_toInt w
  have hhigh := Int64.toInt_lt w
  omega

/-- An integer has a word if one at least as far from zero has, and its opposite as well. -/
theorem toInt_ofInt_of_natAbs_le {m n : Int} (hm : m.natAbs < 2 ^ 63) (hn : n.natAbs ≤ m.natAbs) :
  (Int64.ofInt n).toInt = n
  := Int64.toInt_ofInt_of_le (by omega) (by omega)

theorem toInt_ne_zero {w : Int64} (h : w ≠ 0) :
  w.toInt ≠ 0
  := fun hzero => h (Int64.toInt_inj.mp hzero)

/-! ### Quotients and remainders -/

/-- A quotient by a positive integer has the sign of the dividend. -/
theorem tdiv_nonpos {n k : Int} (hn : n ≤ 0) (hk : 0 ≤ k) :
  n.tdiv k ≤ 0
  := by
  have h := Int.tdiv_nonneg (Int.neg_nonneg_of_nonpos hn) hk
  rw [Int.neg_tdiv] at h
  apply Int.nonpos_of_neg_nonneg h

/-- A remainder has the sign of the dividend. -/
theorem tmod_nonpos {n : Int} (hn : n ≤ 0) (k : Int) :
  n.tmod k ≤ 0
  := by
  have h := Int.tmod_nonneg k (Int.neg_nonneg_of_nonpos hn)
  rw [Int.neg_tmod] at h
  apply Int.nonpos_of_neg_nonneg h

/-! ### Powers -/

/-- From the 64th on, the powers of all but -1, 0 and 1 are too great for words. -/
theorem not_hasWord_pow {n : Int} {k : Nat} (hn : 2 ≤ n.natAbs) (hk : 64 ≤ k) :
  ¬HasWord (n ^ k)
  := by
  have hgreat : 2 ^ 64 ≤ (n ^ k).natAbs := by
    rw [Int.natAbs_pow]
    calc 2 ^ 64
      _ ≤ 2 ^ k := Nat.pow_le_pow_right (by decide) hk
      _ ≤ n.natAbs ^ k := Nat.pow_le_pow_left hn k
  rw [hasWord_iff]
  omega

/-- The powers of -1, 0 and 1 depend on nothing but the parity of a positive exponent. -/
theorem pow_eq_pow_of_parity {n : Int} {j k : Nat} (hn : n.natAbs ≤ 1) (hj : 0 < j) (hk : 0 < k)
    (hparity : j % 2 = k % 2) :
  n ^ j = n ^ k
  := by
  obtain rfl | rfl | rfl : n = -1 ∨ n = 0 ∨ n = 1 := by omega
  · rw [neg_one_pow_eq_pow_mod_two j, neg_one_pow_eq_pow_mod_two k, hparity]
  · rw [zero_pow hj.ne', zero_pow hk.ne']
  · rw [one_pow, one_pow]

/-- The power that is found is the word of the exact power. -/
theorem Word.pow?_eq
    (a : Int64) (exponent : Nat) :
  Word.pow? a exponent = int64? (a.toInt ^ exponent)
  := by
  change int64? (a.toInt ^ (if exponent < 64 then exponent else 64 + exponent % 2)) = _
  split
  · rfl
  · rename_i hgreat
    obtain hbase | hsmall := Nat.lt_or_ge 1 a.toInt.natAbs
    · rw [int64?_eq_none_iff_not_hasWord.mpr (not_hasWord_pow hbase (by omega)),
        int64?_eq_none_iff_not_hasWord.mpr (not_hasWord_pow hbase (by omega))]
    · have hparity : (64 + exponent % 2) % 2 = exponent % 2 := by omega
      rw [pow_eq_pow_of_parity hsmall (by omega) (by omega) hparity]

end RuleLang
