import Mathlib.Algebra.Order.Field.Power
import Mathlib.Data.Nat.Log
import Mathlib.Tactic.FieldSimp
import Mathlib.Tactic.Positivity
import Mathlib.Tactic.Ring
import RuleLang.Number.Binary
import RuleLang.Proofs.Number.Equality
import RuleLang.Proofs.Number.Finite
import RuleLang.Proofs.Number.Word

/-!
# The order of integers as floats

Integers are rounded to floats without their order being turned around: of two integers that are
different as floats, the smaller one is the smaller float.  An integer is rounded by a division by
a power of two, `rounded` being the number that it is rounded to.
-/

namespace RuleLang

open Float.Model Float.Model.UnpackedFloat

/-! ### Comparison of floats -/

/-- Whether an unpacked float is zero, or finite with a mantissa of exactly fifty-three bits. -/
def HasFullMantissa : UnpackedFloat → Prop
  | .zero _ => True
  | .finite _ m _ _ => 2 ^ 52 ≤ m ∧ m < 2 ^ 53
  | _ => False

/-- Of two floats with mantissas of fifty-three bits the one with the greater exponent is
greater. -/
theorem mul_zpow_lt_of_lt {m m' : Nat} {e e' : Int} (hm : m < 2 ^ 53) (hm' : 2 ^ 52 ≤ m')
    (h : e < e') :
  (m : ℚ) * 2 ^ e < m' * 2 ^ e'
  := by
  have hhigh : (m : ℚ) < 2 ^ 53 := by exact_mod_cast hm
  have hlow : (2 : ℚ) ^ 52 ≤ m' := by exact_mod_cast hm'
  calc (m : ℚ) * 2 ^ e
    _ < 2 ^ 53 * 2 ^ e := by gcongr
    _ = 2 ^ 52 * 2 ^ (e + 1) := by
      rw [zpow_add₀ two_ne_zero]
      ring
    _ ≤ m' * 2 ^ e' := by
      gcongr
      · exact one_le_two
      · exact h

/-- Magnitudes are compared by their exponents, and those with one exponent by their mantissas. -/
theorem compare_magnitudes {m m' : Nat} {e e' : Int} (hm : 2 ^ 52 ≤ m ∧ m < 2 ^ 53)
    (hm' : 2 ^ 52 ≤ m' ∧ m' < 2 ^ 53) :
  (compare e e').then (compare m m') = compare ((m : ℚ) * 2 ^ e) (m' * 2 ^ e')
  := by
  obtain h | rfl | h := lt_trichotomy e e'
  · rw [compare_lt_iff_lt.mpr h, compare_lt_iff_lt.mpr (mul_zpow_lt_of_lt hm.2 hm'.1 h)]
    rfl
  · have hpos : (0 : ℚ) < 2 ^ e := by positivity
    rw [compare_eq_iff_eq.mpr rfl, Ordering.eq_then, ← cmp_eq_compare, ← cmp_eq_compare,
      cmp_mul_pos_right hpos, Nat.strictMono_cast.cmp_map_eq]
  · rw [compare_gt_iff_gt.mpr h, compare_gt_iff_gt.mpr (mul_zpow_lt_of_lt hm'.2 hm.1 h)]
    rfl

theorem compare_neg_neg
    (a b : ℚ) :
  compare (-a) (-b) = (compare a b).swap
  := by
  obtain h | rfl | h := lt_trichotomy a b
  · rw [compare_lt_iff_lt.mpr h, compare_gt_iff_gt.mpr (neg_lt_neg h)]
    rfl
  · rw [compare_eq_iff_eq.mpr rfl, compare_eq_iff_eq.mpr rfl]
    rfl
  · rw [compare_gt_iff_gt.mpr h, compare_lt_iff_lt.mpr (neg_lt_neg h)]
    rfl

/-- Floats are compared as the numbers that they are. -/
theorem compare_unpacked {x y : UnpackedFloat} (hx : HasFullMantissa x) (hy : HasFullMantissa y) :
  x.compare y = some (compare (unpackedValue x) (unpackedValue y))
  := by
  have hzero (s : Sign) : unpackedValue (.zero s) = 0 := rfl
  have hpos {m : Nat} {e : Int} (h : 0 < m) : (0 : ℚ) < m * 2 ^ e := by positivity
  cases x with
  | notANumber => cases hx
  | infinity s => cases hx
  | zero s =>
    cases y with
    | notANumber => cases hy
    | infinity t => cases hy
    | zero t => rfl
    | finite t m e h =>
      cases t with
      | negative =>
        rw [hzero, unpackedValue_negative, compare_gt_iff_gt.mpr (neg_neg_of_pos (hpos h))]
        rfl
      | positive =>
        rw [hzero, unpackedValue_positive, compare_lt_iff_lt.mpr (hpos h)]
        rfl
  | finite s m e h =>
    cases y with
    | notANumber => cases hy
    | infinity t => cases hy
    | zero t =>
      cases s with
      | negative =>
        rw [hzero, unpackedValue_negative, compare_lt_iff_lt.mpr (neg_neg_of_pos (hpos h))]
        rfl
      | positive =>
        rw [hzero, unpackedValue_positive, compare_gt_iff_gt.mpr (hpos h)]
        rfl
    | finite t m' e' h' =>
      cases s with
      | negative =>
        cases t with
        | negative =>
          rw [unpackedValue_negative, unpackedValue_negative, compare_neg_neg,
            ← compare_magnitudes hx hy]
          rfl
        | positive =>
          have hlt := (neg_neg_of_pos (hpos (e := e) h)).trans (hpos (e := e') h')
          rw [unpackedValue_negative, unpackedValue_positive, compare_lt_iff_lt.mpr hlt]
          rfl
      | positive =>
        cases t with
        | negative =>
          have hlt := (neg_neg_of_pos (hpos (e := e') h')).trans (hpos (e := e) h)
          rw [unpackedValue_negative, unpackedValue_positive, compare_gt_iff_gt.mpr hlt]
          rfl
        | positive =>
          rw [unpackedValue_positive, unpackedValue_positive, ← compare_magnitudes hx hy]
          rfl

variable {x y : Float}

theorem float_le_iff (hx : HasFullMantissa x.toModel.unpack)
    (hy : HasFullMantissa y.toModel.unpack) :
  x ≤ y ↔ unpackedValue x.toModel.unpack ≤ unpackedValue y.toModel.unpack
  := by
  have hle : x ≤ y ↔ (x.toModel.unpack.compare y.toModel.unpack).any (·.isLE) = true := by
    change decide (x.toModel ≤ y.toModel) = true ↔ _
    rw [decide_eq_true_iff]
    exact Iff.rfl
  rw [hle, compare_unpacked hx hy, Option.any_some, ← Ordering.ne_gt_iff_isLE]
  exact compare_le_iff_le

theorem float_beq_iff_value (hx : HasFullMantissa x.toModel.unpack)
    (hy : HasFullMantissa y.toModel.unpack) :
  (x == y) = true ↔ unpackedValue x.toModel.unpack = unpackedValue y.toModel.unpack
  := by
  change (x.toModel.unpack.compare y.toModel.unpack == some .eq) = true ↔ _
  rw [beq_iff_eq, compare_unpacked hx hy, Option.some_inj, compare_eq_iff_eq]

/-! ### Rounding of mantissas -/

namespace Binary

theorem divToEven_mono {n n' : Nat} (h : n ≤ n') (d : Nat) :
  divToEven n d ≤ divToEven n' d
  := by
  have hn := Nat.div_add_mod' n d
  have hn' := Nat.div_add_mod' n' d
  have hle : n / d ≤ n' / d := Nat.div_le_div_right h
  unfold divToEven
  dsimp only
  obtain hlt | heq := Nat.lt_or_eq_of_le hle
  · split_ifs <;> omega
  · rw [heq] at hn ⊢
    split_ifs <;> omega

/-- A multiple is divided without rounding. -/
theorem divToEven_mul
    (n : Nat) {d : Nat} (hd : 0 < d) :
  divToEven (n * d) d = n
  := by
  unfold divToEven
  dsimp only
  rw [Nat.mul_mod_left, Nat.mul_div_cancel _ hd, if_pos hd]

end Binary

/-- The residual bits of a shifted mantissa say how the bits that were shifted out compare to a
half. -/
theorem shiftRight_eq
    (n k : Nat) :
  (ExtendedMantissa.mk n false false) >>> k
    = ⟨n / 2 ^ k, decide (2 ^ k ≤ 2 * (n % 2 ^ k)),
        decide (2 * (n % 2 ^ k) ≠ 0 ∧ 2 * (n % 2 ^ k) ≠ 2 ^ k)⟩
  := by
  change k.repeat ExtendedMantissa.shiftRightOne _ = _
  induction k with
  | zero => simp [Nat.repeat, Nat.mod_one]
  | succ k ih =>
    have hrest := Nat.mod_lt n (Nat.two_pow_pos k)
    have hsplit : n % 2 ^ (k + 1) = n % 2 ^ k + 2 ^ k * (n / 2 ^ k % 2) := Nat.mod_pow_succ
    rw [Nat.repeat, ih, ExtendedMantissa.shiftRightOne, hsplit, Nat.div_div_eq_div_mul]
    generalize n % 2 ^ k = rest at *
    have hround : (n / 2 ^ k % 2 != 0)
        = decide (2 ^ (k + 1) ≤ 2 * (rest + 2 ^ k * (n / 2 ^ k % 2))) := by
      rw [Bool.eq_iff_iff, bne_iff_ne, decide_eq_true_iff, Nat.pow_succ]
      obtain hbit | hbit := Nat.mod_two_eq_zero_or_one (n / 2 ^ k) <;> rw [hbit] <;> omega
    have hsticky : (decide (2 ^ k ≤ 2 * rest) || decide (2 * rest ≠ 0 ∧ 2 * rest ≠ 2 ^ k))
        = decide (2 * (rest + 2 ^ k * (n / 2 ^ k % 2)) ≠ 0
            ∧ 2 * (rest + 2 ^ k * (n / 2 ^ k % 2)) ≠ 2 ^ (k + 1)) := by
      rw [← Bool.decide_or, decide_eq_decide, Nat.pow_succ]
      obtain hbit | hbit := Nat.mod_two_eq_zero_or_one (n / 2 ^ k) <;> rw [hbit] <;> omega
    rw [← hround, ← hsticky]
    rfl

/-- A shifted mantissa is rounded as a quotient is. -/
theorem roundedMantissa_shiftRight
    (n k : Nat) :
  ((ExtendedMantissa.mk n false false) >>> k).roundedMantissa = Binary.divToEven n (2 ^ k)
  := by
  rw [shiftRight_eq, Binary.divToEven]
  generalize n % 2 ^ k = rest
  obtain hlt | heq | hgt := lt_trichotomy (2 * rest) (2 ^ k)
  · rw [if_pos hlt, decide_eq_false hlt.not_ge]
    cases decide (2 * rest ≠ 0 ∧ 2 * rest ≠ 2 ^ k) <;> rfl
  · rw [if_neg heq.not_lt, if_neg heq.not_gt, decide_eq_true heq.ge,
      decide_eq_false fun h => h.2 heq]
    rfl
  · rw [if_neg hgt.not_gt, if_pos hgt, decide_eq_true hgt.le,
      decide_eq_true ⟨(Nat.zero_lt_of_lt hgt).ne', hgt.ne'⟩]
    rfl

/-- What has fifty-three bits and `k` more is rounded to a mantissa of fifty-three bits. -/
theorem exists_roundWithAccuracy
    (s : Sign) {m k : Nat} {e : Int} (hlow : 2 ^ 52 * 2 ^ k ≤ m) (hhigh : m < 2 ^ 53 * 2 ^ k)
    (hleast : -1074 ≤ e + k) :
  ∃ m' e' h, roundWithAccuracy .binary64 s m e .exact = .finite s m' e' h
    ∧ (2 ^ 52 ≤ m' ∧ m' < 2 ^ 53) ∧ (e + k ≤ e' ∧ e' ≤ e + k + 1)
    ∧ (m' : ℚ) * 2 ^ e' = Binary.divToEven m (2 ^ k) * 2 ^ (e + k)
  := by
  have hpos := Nat.two_pow_pos k
  have hlog : m.log2 = 52 + k := by
    rw [Nat.log2_eq_iff (by omega), Nat.add_right_comm, Nat.pow_add, Nat.pow_add]
    exact ⟨hlow, hhigh⟩
  have htarget : Format.binary64.targetExponent (totalExponent m e) = e + k := by
    change max ((m.log2 : Int) + 1 + e - 53) (-1074) = e + k
    omega
  have hshift : (e + k - e).toNat = k := by omega
  have hfirst : shiftToTargetExponent .binary64 m e .exact
      = ((ExtendedMantissa.mk m false false) >>> k, e + k) := by
    rw [shiftToTargetExponent, htarget, shiftToExponent, hshift]
    rfl
  have hleastRounded := Binary.divToEven_mono hlow (2 ^ k)
  have hgreatestRounded := Binary.divToEven_mono hhigh.le (2 ^ k)
  rw [Binary.divToEven_mul _ hpos] at hleastRounded hgreatestRounded
  have hrounded := roundedMantissa_shiftRight m k
  generalize Binary.divToEven m (2 ^ k) = r at *
  have hresult {last : ExtendedMantissa × Int}
      (hagain : shiftToTargetExponent .binary64 r (e + k) .exact = last)
      (h : 0 < last.1.mantissa) :
      roundWithAccuracy .binary64 s m e .exact = .finite s last.1.mantissa last.2 h := by
    rw [← hrounded] at hagain
    exact (roundWithAccuracy_of_shifts hfirst hagain).2 h
  obtain hlt | rfl := Nat.lt_or_eq_of_le hgreatestRounded
  · have hagain := shiftToTargetExponent_of_zeros (n := 0) (e := e + k) hleastRounded hlt (by omega)
    rw [Nat.pow_zero, Nat.mul_one, Nat.cast_zero, Int.add_zero] at hagain
    have hr : 0 < r := by omega
    exact ⟨r, e + k, hr, hresult hagain hr, ⟨hleastRounded, hlt⟩, by omega, rfl⟩
  · have hagain := shiftToTargetExponent_of_zeros (m := 2 ^ 52) (n := 1) (e := e + k) (by decide)
      (by decide) (by omega)
    have hpower : 0 < 2 ^ 52 := by decide
    refine ⟨2 ^ 52, e + k + 1, hpower, hresult hagain hpower, by decide, by omega, ?_⟩
    rw [zpow_add₀ two_ne_zero (e + k) 1]
    push_cast
    ring

/-! ### Rounding of natural numbers -/

/-- The number that a natural number is rounded to: the quotient has fifty-three bits, or is the
power of two behind all that have. -/
def rounded (n : Nat) : ℚ :=
  Binary.divToEven (n * 2 ^ 53) (2 ^ (n.log2 + 1)) * 2 ^ ((n.log2 : Int) - 52)

variable {n : Nat}

theorem rounded_zero :
  rounded 0 = 0
  := by
  simp [rounded, Binary.divToEven]

theorem rounded_nonneg
    (n : Nat) :
  0 ≤ rounded n
  := by
  unfold rounded
  positivity

/-- The rounded number lies between the same powers of two. -/
theorem rounded_bounds (hpos : 0 < n) :
  (2 : ℚ) ^ n.log2 ≤ rounded n ∧ rounded n ≤ 2 ^ (n.log2 + 1)
  := by
  have hscale : (0 : ℚ) < 2 ^ ((n.log2 : Int) - 52) := by positivity
  have hlow : 2 ^ 52 * 2 ^ (n.log2 + 1) ≤ n * 2 ^ 53 := by
    have hself := Nat.log2_self_le hpos.ne'
    rw [Nat.pow_succ]
    omega
  have hhigh : n * 2 ^ 53 ≤ 2 ^ 53 * 2 ^ (n.log2 + 1) := by
    rw [Nat.mul_comm]
    exact Nat.mul_le_mul_left _ Nat.lt_log2_self.le
  have hleast := Binary.divToEven_mono hlow (2 ^ (n.log2 + 1))
  have hgreatest := Binary.divToEven_mono hhigh (2 ^ (n.log2 + 1))
  rw [Binary.divToEven_mul _ (Nat.two_pow_pos _)] at hleast hgreatest
  unfold rounded
  generalize Binary.divToEven _ _ = r at *
  have hleast : (2 : ℚ) ^ 52 ≤ r := by exact_mod_cast hleast
  have hgreatest : (r : ℚ) ≤ 2 ^ 53 := by exact_mod_cast hgreatest
  constructor
  · calc (2 : ℚ) ^ n.log2
      _ = 2 ^ 52 * 2 ^ ((n.log2 : Int) - 52) := by
        rw [zpow_sub₀ two_ne_zero, zpow_natCast]
        field_simp
      _ ≤ r * 2 ^ ((n.log2 : Int) - 52) := by gcongr
  · calc r * (2 : ℚ) ^ ((n.log2 : Int) - 52)
      _ ≤ 2 ^ 53 * 2 ^ ((n.log2 : Int) - 52) := by gcongr
      _ = 2 ^ (n.log2 + 1) := by
        rw [zpow_sub₀ two_ne_zero, zpow_natCast]
        field_simp
        ring

/-- Numbers with one binary length are rounded by one division; where the lengths differ a power
of two lies between the rounded numbers. -/
theorem rounded_mono {n' : Nat} (h : n ≤ n') :
  rounded n ≤ rounded n'
  := by
  obtain rfl | hpos := Nat.eq_zero_or_pos n
  · rw [rounded_zero]
    apply rounded_nonneg
  have hlog : n.log2 ≤ n'.log2 := by
    rw [Nat.log2_eq_log_two, Nat.log2_eq_log_two]
    exact Nat.log_mono_right h
  obtain hlt | heq := Nat.lt_or_eq_of_le hlog
  · calc rounded n
      _ ≤ 2 ^ (n.log2 + 1) := (rounded_bounds hpos).2
      _ ≤ 2 ^ n'.log2 := pow_le_pow_right₀ one_le_two hlt
      _ ≤ rounded n' := (rounded_bounds (hpos.trans_le h)).1
  · have hquotient := Binary.divToEven_mono (Nat.mul_le_mul_right (2 ^ 53) h) (2 ^ (n'.log2 + 1))
    unfold rounded
    rw [heq]
    gcongr

/-- What has at most fifty-three bits is not changed. -/
theorem rounded_of_lt (hpos : 0 < n) (h : n < 2 ^ 53) :
  rounded n = (n <<< (52 - n.log2) : Nat) * 2 ^ ((n.log2 : Int) - 52)
  := by
  have hlog : n.log2 ≤ 52 := Nat.le_of_lt_succ ((Nat.log2_lt hpos.ne').mpr h)
  have hpower : n * 2 ^ 53 = n <<< (52 - n.log2) * 2 ^ (n.log2 + 1) := by
    rw [Nat.shiftLeft_eq, Nat.mul_assoc, ← Nat.pow_add]
    congr 2
    omega
  rw [rounded, hpower, Binary.divToEven_mul _ (Nat.two_pow_pos _)]

/-- A natural number is rounded to a finite float with a mantissa of fifty-three bits. -/
theorem exists_unpack_ofNat (hpos : 0 < n) (h : n < 2 ^ 64) :
  ∃ m e hm, (Float.ofNat n).toModel.unpack = .finite .positive m e hm
    ∧ (2 ^ 52 ≤ m ∧ m < 2 ^ 53) ∧ (-1074 ≤ e ∧ e ≤ 971) ∧ (m : ℚ) * 2 ^ e = rounded n
  := by
  obtain hlt | hle := Nat.lt_or_ge n (2 ^ 53)
  · have hlog : n.log2 ≤ 52 := Nat.le_of_lt_succ ((Nat.log2_lt hpos.ne').mpr hlt)
    have hbounds := shiftLeft_bounds hpos hlt
    exact ⟨_, _, by omega, unpack_ofNat hpos hlt (by omega), hbounds, by omega,
      (rounded_of_lt hpos hlt).symm⟩
  · have hlog : n.log2 < 64 := (Nat.log2_lt hpos.ne').mpr h
    have hself := Nat.log2_self_le hpos.ne'
    have hlt : n < 2 ^ (n.log2 + 1) := Nat.lt_log2_self
    have hexponent : (-53 : Int) + (n.log2 + 1 : Nat) = n.log2 - 52 := by omega
    obtain ⟨m, e, hm, hround, hmantissa, he, hvalue⟩ := exists_roundWithAccuracy .positive
      (m := n * 2 ^ 53) (k := n.log2 + 1) (e := -53) (by rw [Nat.pow_succ]; omega) (by omega)
      (by omega)
    refine ⟨m, e, hm, ?_, hmantissa, by omega, ?_⟩
    · rw [toModel_ofNat hle, hround, unpack_pack hmantissa.1 hmantissa.2 (by omega) (by omega)]
    · rw [hvalue, hexponent, rounded]

/-! ### Rounding of words -/

/-- The number that an integer is rounded to. -/
def roundedInt : Int → ℚ
  | .ofNat n => rounded n
  | .negSucc n => -rounded (n + 1)

theorem roundedInt_mono {i j : Int} (h : i ≤ j) :
  roundedInt i ≤ roundedInt j
  := by
  cases i with
  | ofNat m =>
    cases j with
    | ofNat n => exact rounded_mono (Int.ofNat_le.mp h)
    | negSucc n => exact absurd ((Int.natCast_nonneg m).trans h) (Int.negSucc_lt_zero n).not_ge
  | negSucc m =>
    cases j with
    | ofNat n => exact (neg_nonpos_of_nonneg (rounded_nonneg (m + 1))).trans (rounded_nonneg n)
    | negSucc n => exact neg_le_neg (rounded_mono (by omega))

/-- A word is rounded to a float that is zero or has a mantissa of fifty-three bits. -/
theorem unpack_toFloat_spec
    (w : Int64) :
  HasFullMantissa (Word.toFloat w).toModel.unpack
    ∧ unpackedValue (Word.toFloat w).toModel.unpack = roundedInt w.toInt
  := by
  have hrange := natAbs_toInt_le w
  unfold Word.toFloat
  cases hw : w.toInt with
  | ofNat n =>
    rw [hw] at hrange
    change n ≤ 2 ^ 63 at hrange
    change HasFullMantissa (Float.ofNat n).toModel.unpack
      ∧ unpackedValue (Float.ofNat n).toModel.unpack = rounded n
    obtain rfl | hpos := Nat.eq_zero_or_pos n
    · exact ⟨trivial, rounded_zero.symm⟩
    · obtain ⟨m, e, hm, hunpack, hmantissa, -, hvalue⟩ := exists_unpack_ofNat hpos (by omega)
      rw [hunpack, unpackedValue_positive]
      exact ⟨hmantissa, hvalue⟩
  | negSucc n =>
    rw [hw] at hrange
    change n + 1 ≤ 2 ^ 63 at hrange
    obtain ⟨m, e, hm, hunpack, hmantissa, he, hvalue⟩ :=
      exists_unpack_ofNat n.succ_pos (by omega)
    have hopposite : (-Float.ofNat (n + 1)).toModel.unpack = .finite .negative m e hm := by
      change (Float.Model.pack (Float.ofNat (n + 1)).toModel.unpack.neg).unpack = _
      rw [hunpack]
      exact unpack_pack hmantissa.1 hmantissa.2 he.1 he.2
    change HasFullMantissa (-Float.ofNat (n + 1)).toModel.unpack
      ∧ unpackedValue (-Float.ofNat (n + 1)).toModel.unpack = -rounded (n + 1)
    rw [hopposite, unpackedValue_negative, hvalue]
    exact ⟨hmantissa, rfl⟩

/-- As floats, an integer is at most another exactly if it is so as an integer, or both are rounded
to one float. -/
theorem toFloat_le_iff {v w : Int64} :
  Word.toFloat v ≤ Word.toFloat w
    ↔ v.toInt ≤ w.toInt ∨ (Word.toFloat v == Word.toFloat w) = true
  := by
  obtain ⟨hv, hvalue⟩ := unpack_toFloat_spec v
  obtain ⟨hw, hvalue'⟩ := unpack_toFloat_spec w
  rw [float_le_iff hv hw, float_beq_iff_value hv hw, hvalue, hvalue']
  constructor
  · intro hle
    obtain h | h := Int.le_total v.toInt w.toInt
    · exact .inl h
    · exact .inr (hle.antisymm (roundedInt_mono h))
  · rintro (h | heq)
    · exact roundedInt_mono h
    · exact heq.le

end RuleLang
