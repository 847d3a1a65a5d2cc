import Mathlib.Algebra.Ring.Divisibility.Basic
import Mathlib.Algebra.Ring.Nat
import RuleLang.Eval.Arithmetic
import RuleLang.Proofs.Number.Word

/-!
# Arithmetic of integers

The result of an operation on integers is the exact integer if that has a word, and an error
if it has none, as `Value.Computes` says.  This is so of sums, differences, products, opposites
and quotients without a remainder; a quotient with a remainder is a float.  A remainder always has
a word, but it is refused along with its quotient, which happens for the least word and -1 alone.
-/

namespace RuleLang

variable {x y : Int64}

/-! ### Quotients and remainders -/

/-- A quotient with a remainder has a word: the divisor is neither 1 nor -1, so that the quotient
is at most half of the dividend. -/
theorem hasWord_tdiv (hy : y ≠ 0) (h : ¬y.toInt ∣ x.toInt) :
  HasWord (x.toInt.tdiv y.toInt)
  := by
  have hzero := Int.natAbs_ne_zero.mpr (toInt_ne_zero hy)
  have hone : y.toInt.natAbs ≠ 1 := fun hone => h (Int.natAbs_dvd_natAbs.mp (hone ▸ one_dvd _))
  have hhalf : (x.toInt.tdiv y.toInt).natAbs ≤ 2 ^ 62 := by
    rw [Int.natAbs_tdiv]
    calc x.toInt.natAbs / y.toInt.natAbs
      _ ≤ x.toInt.natAbs / 2 := Nat.div_le_div_left (by omega) (by decide)
      _ ≤ 2 ^ 63 / 2 := Nat.div_le_div_right (natAbs_toInt_le x)
  rw [hasWord_iff]
  omega

/-- Whether `r` is the remainder of `x` by `y` that is zero or has the sign of `x`. -/
structure IsRemainder (x y r : Int) : Prop where
  dvd : y ∣ x - r
  natAbs_lt : r.natAbs < y.natAbs
  nonneg : 0 ≤ x → 0 ≤ r
  nonpos : x ≤ 0 → r ≤ 0

theorem isRemainder_tmod
    (x : Int) {y : Int} (hy : y ≠ 0) :
  IsRemainder x y (x.tmod y)
  := {
    dvd := Int.dvd_self_sub_tmod
    natAbs_lt := by
      rw [Int.natAbs_tmod]
      exact Nat.mod_lt _ (Int.natAbs_pos.mpr hy)
    nonneg := Int.tmod_nonneg y
    nonpos := fun hx => tmod_nonpos hx y }

/-- There is no other remainder. -/
theorem IsRemainder.unique {x y r s : Int} (hr : IsRemainder x y r) (hs : IsRemainder x y s) :
  r = s
  := by
  have hdvd : y ∣ r - s := by
    rw [← sub_sub_sub_cancel_left s r x]
    apply dvd_sub hs.dvd hr.dvd
  have hlt : (r - s).natAbs < y.natAbs := by
    have hrlt := hr.natAbs_lt
    have hslt := hs.natAbs_lt
    obtain hx | hx := Int.le_total 0 x
    · have hrsign := hr.nonneg hx
      have hssign := hs.nonneg hx
      omega
    · have hrsign := hr.nonpos hx
      have hssign := hs.nonpos hx
      omega
  apply sub_eq_zero.mp (Int.eq_zero_of_dvd_of_natAbs_lt_natAbs hdvd hlt)

/-- A remainder has a word, for it lies between zero and the dividend. -/
theorem hasWord_tmod (hy : y ≠ 0) :
  HasWord (x.toInt.tmod y.toInt)
  := by
  have hle : (x.toInt.tmod y.toInt).natAbs ≤ x.toInt.natAbs := by
    rw [Int.natAbs_tmod]
    apply Nat.mod_le
  have hremainder := isRemainder_tmod x.toInt (toInt_ne_zero hy)
  have hlow := Int64.le_toInt x
  have hhigh := Int64.toInt_lt x
  rw [hasWord_iff]
  obtain hx | hx := Int.le_total 0 x.toInt
  · have hsign := hremainder.nonneg hx
    omega
  · have hsign := hremainder.nonpos hx
    omega

namespace Value

/-! ### Exact results -/

/-- Whether a result is the integer `n` if that has a word, and the error `refusal` if it has
none. -/
structure Computes (refusal : EvalError) (n : Int) (result : Except EvalError Value) : Prop where
  int_iff : ∀ w, result = .ok (.int w) ↔ w.toInt = n
  error_iff : result = .error refusal ↔ ¬HasWord n

/-- An integer is computed by looking for its word. -/
theorem computes_of_int64? {refusal : EvalError} {n : Int} {result : Except EvalError Value}
    (hsome : ∀ w, int64? n = some w → result = .ok (.int w))
    (hnone : int64? n = none → result = .error refusal) :
  Computes refusal n result
  := by
  cases hn : int64? n with
  | none =>
    have hword := int64?_eq_none_iff_not_hasWord.mp hn
    rw [hnone hn]
    exact {
      int_iff := fun w => iff_of_false nofun fun hw => hword ⟨w, hw⟩
      error_iff := iff_of_true rfl hword }
  | some v =>
    have hv := int64?_eq_some_iff.mp hn
    rw [hsome v hn]
    exact {
      int_iff := fun w => by
        rw [← hv, Int64.toInt_inj, Except.ok.injEq, Value.int.injEq, eq_comm]
      error_iff := iff_of_false nofun fun hword => hword ⟨v, hv⟩ }

theorem computes_ofWord?
    (site : OverflowSite) (n : Int) :
  Computes (.integerOverflow site) n (ofWord? site (int64? n))
  := by
  apply computes_of_int64?
  · intro w hw
    rw [hw]
    rfl
  · intro hn
    rw [hn]
    rfl

/-- An integer divided by one of which it is a multiple. -/
theorem computes_divide (hy : y ≠ 0) {q : Int} (h : x.toInt = y.toInt * q) :
  Computes (.integerOverflow (.arithmetic .divide)) q (divide (.int x) (.int y))
  := by
  have hquotient : x.toInt.tdiv y.toInt = q := Int.tdiv_eq_of_eq_mul_right (toInt_ne_zero hy) h
  have hremainder : x.toInt.tmod y.toInt = 0 := Int.tmod_eq_zero_of_dvd ⟨q, h⟩
  have hdivide : divide (.int x) (.int y) = ofWord? (.arithmetic .divide) (int64? q) := by
    rw [divide, if_neg hy, hquotient]
    cases int64? q with
    | none => rfl
    | some w =>
      dsimp only
      rw [if_pos hremainder]
      rfl
  rw [hdivide]
  apply computes_ofWord?

/-- An integer divided by one of which it is no multiple. -/
theorem divide_of_not_dvd (hy : y ≠ 0) (h : ¬y.toInt ∣ x.toInt) :
  divide (.int x) (.int y) = .ok (.float (Word.toFloat x / Word.toFloat y))
  := by
  obtain ⟨w, hw⟩ := hasWord_tdiv hy h
  have hremainder : x.toInt.tmod y.toInt ≠ 0 := fun hzero => h (Int.dvd_of_tmod_eq_zero hzero)
  rw [divide, if_neg hy, int64?_eq_some_iff.mpr hw]
  dsimp only
  rw [if_neg hremainder]
  rfl

/-- The remainder of two integers, other than that of the least word by -1. -/
theorem exists_modulo_eq (hy : y ≠ 0) (h : ¬(x = Int64.minValue ∧ y = -1)) :
  ∃ r : Int64, IsRemainder x.toInt y.toInt r.toInt ∧ modulo (.int x) (.int y) = .ok (.int r)
  := by
  obtain ⟨r, hr⟩ := hasWord_tmod (x := x) hy
  use r
  constructor
  · rw [hr]
    apply isRemainder_tmod _ (toInt_ne_zero hy)
  · rw [modulo, if_neg hy, if_neg h, ← hr, Int64.ofInt_toInt]
    rfl

/-! ### All operations -/

/-- Sums, differences, products and opposites of integers, and quotients without a remainder, are
exact where the exact integer has a word, and overflow exactly where it has none.  Other quotients
are floats.  The remainder is exact; that of the least word by -1, whose quotient has no word, is
refused as an overflow. -/
theorem arithmetic_int
    (x y : Int64) :
  Computes (.integerOverflow (.arithmetic .add)) (x.toInt + y.toInt) (add (.int x) (.int y))
    ∧ Computes (.integerOverflow (.arithmetic .subtract)) (x.toInt - y.toInt)
        (subtract (.int x) (.int y))
    ∧ Computes (.integerOverflow (.arithmetic .multiply)) (x.toInt * y.toInt)
        (multiply (.int x) (.int y))
    ∧ Computes (.integerOverflow .negate) (-x.toInt) (negate (.int x))
    ∧ (y = 0 → divide (.int x) (.int y) = .error .divisionByZero
        ∧ modulo (.int x) (.int y) = .error .moduloByZero)
    ∧ (y ≠ 0 →
        (∀ q, x.toInt = y.toInt * q →
          Computes (.integerOverflow (.arithmetic .divide)) q (divide (.int x) (.int y)))
        ∧ (¬y.toInt ∣ x.toInt →
            divide (.int x) (.int y) = .ok (.float (Word.toFloat x / Word.toFloat y)))
        ∧ (¬(x = Int64.minValue ∧ y = -1) →
            ∃ r : Int64, IsRemainder x.toInt y.toInt r.toInt
              ∧ modulo (.int x) (.int y) = .ok (.int r))
        ∧ (x = Int64.minValue ∧ y = -1 →
            modulo (.int x) (.int y) = .error (.integerOverflow (.arithmetic .modulo))))
  := by
  refine ⟨computes_ofWord? _ _, computes_ofWord? _ _, computes_ofWord? _ _, computes_ofWord? _ _,
    ?_, ?_⟩
  · rintro rfl
    exact ⟨rfl, rfl⟩
  · intro hy
    refine ⟨fun q => computes_divide hy, divide_of_not_dvd hy, exists_modulo_eq hy, ?_⟩
    rintro ⟨rfl, rfl⟩
    rfl

/-- The quotient of the least word and -1 has no word, and -7 leaves -1 when it is divided
by 2. -/
theorem arithmetic_int_least :
  divide (.int Int64.minValue) (.int (-1)) = .error (.integerOverflow (.arithmetic .divide))
    ∧ modulo (.int Int64.minValue) (.int (-1)) = .error (.integerOverflow (.arithmetic .modulo))
    ∧ modulo (.int (-7)) (.int 2) = .ok (.int (-1))
    ∧ divide (.int (-7)) (.int 0) = .error .divisionByZero
  := by
  obtain ⟨-, -, -, -, -, hleast⟩ := arithmetic_int Int64.minValue (-1)
  obtain ⟨hquotient, -, -, hremainder⟩ := hleast (by decide)
  obtain ⟨-, -, -, -, -, hseven⟩ := arithmetic_int (-7) 2
  obtain ⟨r, hr, hmodulo⟩ := (hseven (by decide)).2.2.1 (by decide)
  obtain ⟨-, -, -, -, hzero, -⟩ := arithmetic_int (-7) 0
  have hone : IsRemainder (-7 : Int64).toInt (2 : Int64).toInt (-1 : Int64).toInt :=
    isRemainder_tmod (-7 : Int64).toInt (by decide : (2 : Int) ≠ 0)
  obtain rfl : r = -1 := Int64.toInt_inj.mp (hr.unique hone)
  refine ⟨?_, hremainder ⟨rfl, rfl⟩, hmodulo, (hzero rfl).1⟩
  apply (hquotient 9223372036854775808 rfl).error_iff.mpr
  rw [hasWord_iff]
  decide

/-- The least word leaves zero when it is divided by -1, but this remainder is refused. -/
theorem not_modulo_of_isRemainder :
  ¬∀ x y r : Int64, y ≠ 0 → IsRemainder x.toInt y.toInt r.toInt →
    modulo (.int x) (.int y) = .ok (.int r)
  := by
  intro h
  have hremainder : IsRemainder Int64.minValue.toInt (-1 : Int64).toInt (0 : Int64).toInt :=
    isRemainder_tmod Int64.minValue.toInt (by decide : (-1 : Int) ≠ 0)
  cases h Int64.minValue (-1) 0 (by decide) hremainder

end Value

end RuleLang
