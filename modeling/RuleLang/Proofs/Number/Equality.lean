import Mathlib.Tactic.NormNum
import Mathlib.Tactic.Ring
import RuleLang.Proofs.Number.Finite

/-!
# Equality of floats

Floats that are equal as numbers are both zero, or they are one and the same; NaN alone is not
equal to itself.  An integer of magnitude at most `2 ^ 53` is a float without rounding, so that
two such integers are equal as floats only if they are equal.
-/

namespace RuleLang

open Float.Model Float.Model.UnpackedFloat

/-! ### Equality -/

/-- Finite floats are equal if their signs, their exponents and their mantissas are. -/
theorem finite_beq_iff {s t : Sign} {m m' : Nat} {e e' : Int} {h : 0 < m} {h' : 0 < m'} :
  (finite s m e h).beq (finite t m' e' h') = true ↔ finite s m e h = finite t m' e' h'
  := by
  have hsame : (compare e e').then (compare m m') = .eq ↔ m = m' ∧ e = e' := by
    rw [Ordering.then_eq_eq, Int.compare_eq_eq, Nat.compare_eq_eq, and_comm]
  unfold UnpackedFloat.beq
  rw [finite.injEq, beq_iff_eq]
  cases s with
  | negative =>
    cases t with
    | negative =>
      change some ((compare e e').then (compare m m')).swap = some .eq ↔ _
      rw [Option.some_inj, Ordering.swap_eq_eq, hsame]
      exact (and_iff_right rfl).symm
    | positive => exact ⟨nofun, nofun⟩
  | positive =>
    cases t with
    | negative => exact ⟨nofun, nofun⟩
    | positive =>
      change some ((compare e e').then (compare m m')) = some .eq ↔ _
      rw [Option.some_inj, hsame]
      exact (and_iff_right rfl).symm

/-- Unpacked floats are equal as numbers exactly when both are zero, or they are the same and
a number. -/
theorem unpacked_beq_iff
    {x y : UnpackedFloat} :
  x.beq y = true ↔ (∃ s t, x = .zero s ∧ y = .zero t) ∨ x = y ∧ x ≠ .notANumber
  := by
  constructor
  · intro h
    cases x with
    | notANumber => cases y <;> cases h
    | infinity s =>
      cases y with
      | infinity t =>
        have hsign : s = t := by
          cases s <;> cases t <;> first | rfl | cases h
        exact .inr ⟨congrArg infinity hsign, nofun⟩
      | _ => cases s <;> cases h
    | zero s =>
      cases y with
      | notANumber => cases h
      | infinity t => cases t <;> cases h
      | zero t => exact .inl ⟨s, t, rfl, rfl⟩
      | finite t => cases t <;> cases h
    | finite s m e hm =>
      cases y with
      | notANumber => cases h
      | infinity t => cases t <;> cases h
      | zero t => cases s <;> cases h
      | finite t m' e' hm' => exact .inr ⟨finite_beq_iff.mp h, nofun⟩
  · rintro (⟨s, t, rfl, rfl⟩ | ⟨rfl, hne⟩)
    · rfl
    · cases x with
      | notANumber => exact absurd rfl hne
      | infinity s => cases s <;> rfl
      | zero s => rfl
      | finite s m e hm => exact finite_beq_iff.mpr rfl

/-- Equality of floats as numbers, read off their unpacked forms. -/
theorem float_beq_iff
    {x y : Float} :
  (x == y) = true ↔ (∃ s t, x.toModel.unpack = .zero s ∧ y.toModel.unpack = .zero t)
    ∨ x.toModel.unpack = y.toModel.unpack ∧ x.toModel.unpack ≠ .notANumber
  := unpacked_beq_iff

/-- A float is equal to itself unless it is no number. -/
theorem float_beq_self
    (x : Float) :
  (x == x) = !x.isNaN
  := by
  rw [Bool.eq_iff_iff, float_beq_iff]
  change _ ↔ (!x.toModel.unpack.isNaN) = true
  cases x.toModel.unpack with
  | notANumber =>
    constructor
    · rintro (⟨s, t, hzero, -⟩ | ⟨-, hne⟩)
      · cases hzero
      · exact absurd rfl hne
    · nofun
  | _ => exact ⟨fun _ => rfl, fun _ => .inr ⟨rfl, nofun⟩⟩

theorem float_beq_symm {x y : Float} (h : (x == y) = true) :
  (y == x) = true
  := by
  apply float_beq_iff.mpr
  obtain ⟨s, t, hx, hy⟩ | ⟨heq, hne⟩ := float_beq_iff.mp h
  · exact .inl ⟨t, s, hy, hx⟩
  · exact .inr ⟨heq.symm, heq ▸ hne⟩

theorem float_beq_comm
    (x y : Float) :
  (x == y) = (y == x)
  := by
  rw [Bool.eq_iff_iff]
  exact ⟨float_beq_symm, float_beq_symm⟩

theorem float_beq_trans {x y z : Float} (hxy : (x == y) = true) (hyz : (y == z) = true) :
  (x == z) = true
  := by
  apply float_beq_iff.mpr
  obtain ⟨s, t, hx, hy⟩ | ⟨heq, hne⟩ := float_beq_iff.mp hxy
  · obtain ⟨s', t', hy', hz⟩ | ⟨heq', hne'⟩ := float_beq_iff.mp hyz
    · exact .inl ⟨s, t', hx, hz⟩
    · exact .inl ⟨s, t, hx, heq' ▸ hy⟩
  · rw [heq] at hne ⊢
    exact float_beq_iff.mp hyz

/-! ### Rounding of what needs none -/

/-- Zeros behind a mantissa are shifted out without a trace. -/
theorem shiftRight_of_zeros
    (m n : Nat) :
  (ExtendedMantissa.mk (m * 2 ^ n) false false) >>> n = ⟨m, false, false⟩
  := by
  change n.repeat ExtendedMantissa.shiftRightOne _ = _
  induction n generalizing m with
  | zero => simp [Nat.repeat]
  | succ n ih =>
    have hdouble : m * 2 ^ (n + 1) = (2 * m) * 2 ^ n := by ring
    rw [Nat.repeat, hdouble, ih]
    simp [ExtendedMantissa.shiftRightOne]

/-- A mantissa of fifty-three bits is what is left when the zeros behind it are shifted out. -/
theorem shiftToTargetExponent_of_zeros
    {m n : Nat} {e : Int} (hlow : 2 ^ 52 ≤ m) (hhigh : m < 2 ^ 53) (hleast : -1074 ≤ e + n) :
  shiftToTargetExponent .binary64 (m * 2 ^ n) e .exact = (⟨m, false, false⟩, e + n)
  := by
  have hlog : (m * 2 ^ n).log2 = 52 + n := by
    have hpower : 0 < 2 ^ n := Nat.two_pow_pos n
    rw [Nat.log2_eq_iff (Nat.mul_pos (by omega) hpower).ne', Nat.add_right_comm, Nat.pow_add,
      Nat.pow_add]
    exact ⟨Nat.mul_le_mul_right _ hlow, Nat.mul_lt_mul_of_pos_right hhigh hpower⟩
  have htarget : Format.binary64.targetExponent (totalExponent (m * 2 ^ n) e) = e + n := by
    change max (((m * 2 ^ n).log2 : Int) + 1 + e - 53) (-1074) = e + n
    omega
  have hshift : (e + n - e).toNat = n := by omega
  rw [shiftToTargetExponent, htarget, shiftToExponent, hshift]
  exact congrArg (·, e + (n : Int)) (shiftRight_of_zeros m n)

/-- A mantissa of fifty-three bits with zeros behind it is not changed by rounding. -/
theorem roundWithAccuracy_of_zeros
    (s : Sign) {m n : Nat} {e : Int} (h : 0 < m) (hlow : 2 ^ 52 ≤ m) (hhigh : m < 2 ^ 53)
    (hleast : -1074 ≤ e + n) :
  roundWithAccuracy .binary64 s (m * 2 ^ n) e .exact = .finite s m (e + n) h
  := by
  have hfirst := shiftToTargetExponent_of_zeros hlow hhigh hleast
  have hagain := shiftToTargetExponent_of_zeros (n := 0) (e := e + n) hlow hhigh (by omega)
  rw [Nat.pow_zero, Nat.mul_one, Nat.cast_zero, Int.add_zero] at hagain
  exact (roundWithAccuracy_of_shifts hfirst hagain).2 h

/-! ### Integers of at most fifty-three bits -/

section

variable {n : Nat}

/-- A number of at most fifty-three bits has exactly so many when it is shifted to the left. -/
theorem shiftLeft_bounds (hpos : 0 < n) (h : n < 2 ^ 53) :
  2 ^ 52 ≤ n <<< (52 - n.log2) ∧ n <<< (52 - n.log2) < 2 ^ 53
  := by
  have hlog : n.log2 ≤ 52 := Nat.le_of_lt_succ ((Nat.log2_lt hpos.ne').mpr h)
  rw [Nat.shiftLeft_eq]
  constructor
  · calc 2 ^ 52
      _ = 2 ^ n.log2 * 2 ^ (52 - n.log2) := by rw [← Nat.pow_add, Nat.add_sub_cancel' hlog]
      _ ≤ n * 2 ^ (52 - n.log2) := Nat.mul_le_mul_right _ (Nat.log2_self_le hpos.ne')
  · calc n * 2 ^ (52 - n.log2)
      _ < 2 ^ (n.log2 + 1) * 2 ^ (52 - n.log2) :=
        Nat.mul_lt_mul_of_pos_right Nat.lt_log2_self (Nat.two_pow_pos _)
      _ = 2 ^ 53 := by rw [← Nat.pow_add, Nat.add_right_comm, Nat.add_sub_cancel' hlog]

/-- A word of at most fifty-three bits is a float without rounding. -/
theorem unpack_toFloat (hpos : 0 < n) (h : n < 2 ^ 53) (hm : 0 < n <<< (52 - n.log2)) :
  n.toUInt64.toFloat.toModel.unpack = .finite .positive (n <<< (52 - n.log2)) (n.log2 - 52) hm
  := by
  obtain ⟨hlow, hhigh⟩ := shiftLeft_bounds hpos h
  have hlog : n.log2 ≤ 52 := Nat.le_of_lt_succ ((Nat.log2_lt hpos.ne').mpr h)
  have hword : n.toUInt64.toNat = n := UInt64.toNat_ofNat_of_lt' (Nat.lt_trans h (by decide))
  have hsign : compare (n : Int) 0 = .gt := Int.compare_eq_gt.mpr (by omega)
  have htarget : Format.binary64.targetExponent (totalExponent n 0) = n.log2 - 52 := by
    change max ((n.log2 : Int) + 1 + 0 - 53) (-1074) = _
    omega
  have hshift : (0 - ((n.log2 : Int) - 52)).toNat = 52 - n.log2 := by omega
  have hexponent : (0 : Int) - (52 - n.log2 : Nat) = n.log2 - 52 := by omega
  have hexact := roundWithAccuracy_of_zeros .positive (n := 0) (e := n.log2 - 52) hm hlow hhigh
    (by omega)
  rw [Nat.pow_zero, Nat.mul_one, Nat.cast_zero, Int.add_zero] at hexact
  change (Float.Model.pack
    (UnpackedFloat.normalize .binary64 (n.toUInt64.toNat : Int) 0 .positive)).unpack = _
  rw [hword, UnpackedFloat.normalize, hsign]
  unfold UnpackedFloat.round decreaseExponent
  dsimp only
  rw [Int.toNat_natCast, htarget, hshift, hexponent, hexact,
    unpack_pack hlow hhigh (by omega) (by omega)]

/-- A natural number of at most fifty-three bits is a float without rounding. -/
theorem unpack_ofNat (hpos : 0 < n) (h : n < 2 ^ 53) (hm : 0 < n <<< (52 - n.log2)) :
  (Float.ofNat n).toModel.unpack = .finite .positive (n <<< (52 - n.log2)) (n.log2 - 52) hm
  := by
  obtain ⟨hlow, hhigh⟩ := shiftLeft_bounds hpos h
  have hlog : n.log2 ≤ 52 := Nat.le_of_lt_succ ((Nat.log2_lt hpos.ne').mpr h)
  have hone : (Float.exactlyRepresentablePowersOfTen[0]).toModel.unpack
      = .finite .positive (2 ^ 52) (-52) (by decide) := rfl
  -- the number is multiplied by the power of ten with the exponent zero
  have hmul : (Float.ofNat n).toModel = Float.Model.pack (UnpackedFloat.mul .binary64
      n.toUInt64.toFloat.toModel.unpack (.finite .positive (2 ^ 52) (-52) (by decide))) := by
    rw [← hone]
    change (Float.ofScientific n false 0).toModel = _
    rw [Float.ofScientific, dif_pos ⟨h, by decide⟩]
    rfl
  have hexact := roundWithAccuracy_of_zeros (.positive * .positive) (n := 52)
    (e := n.log2 - 52 + -52) hm hlow hhigh (by omega)
  rw [hmul, unpack_toFloat hpos h hm]
  unfold UnpackedFloat.mul
  dsimp only
  rw [hexact, unpack_pack hlow hhigh (by omega) (by omega), finite.injEq]
  exact ⟨rfl, rfl, by omega⟩

end

/-- The number that an unpacked float is, infinities and NaN left out. -/
def unpackedValue : UnpackedFloat → ℚ
  | .finite s m e _ => s.apply m * 2 ^ e
  | _ => 0

section

variable {m : Nat} {e : Int} (h : 0 < m)

@[simp]
theorem unpackedValue_positive :
  unpackedValue (.finite .positive m e h) = m * 2 ^ e
  := by
  have hsign : ((Sign.positive.apply m : Int) : ℚ) = m := Int.cast_natCast m
  exact congrArg (· * (2 : ℚ) ^ e) hsign

@[simp]
theorem unpackedValue_negative :
  unpackedValue (.finite .negative m e h) = -(m * 2 ^ e)
  := by
  have hsign : ((Sign.negative.apply m : Int) : ℚ) = -m := by
    rw [Sign.apply, Int.cast_neg, Int.cast_natCast]
  rw [← neg_mul]
  exact congrArg (· * (2 : ℚ) ^ e) hsign

end

/-- Equal floats are one number. -/
theorem unpackedValue_eq_of_beq {x y : Float} (h : (x == y) = true) :
  unpackedValue x.toModel.unpack = unpackedValue y.toModel.unpack
  := by
  obtain ⟨s, t, hx, hy⟩ | ⟨heq, -⟩ := float_beq_iff.mp h
  · rw [hx, hy]
    rfl
  · rw [heq]

/-- A natural number of magnitude at most `2 ^ 53` is a float without rounding, and so is its
opposite. -/
theorem unpackedValue_ofNat {n : Nat} (h : n ≤ 2 ^ 53) :
  unpackedValue (Float.ofNat n).toModel.unpack = n
    ∧ unpackedValue (-Float.ofNat n).toModel.unpack = -n
  := by
  obtain rfl | hpos := Nat.eq_zero_or_pos n
  · have hzero : (Float.ofNat 0).toModel.unpack = .zero .positive := rfl
    have hopposite : (-Float.ofNat 0).toModel.unpack = .zero .negative := rfl
    rw [hzero, hopposite, Nat.cast_zero, neg_zero]
    exact ⟨rfl, rfl⟩
  obtain rfl | hlt := Nat.eq_or_lt_of_le h
  · have hvalue : (Float.ofNat (2 ^ 53)).toModel.unpack
        = .finite .positive (2 ^ 52) 1 (by decide) := rfl
    have hopposite : (-Float.ofNat (2 ^ 53)).toModel.unpack
        = .finite .negative (2 ^ 52) 1 (by decide) := rfl
    rw [hvalue, hopposite, unpackedValue_positive, unpackedValue_negative]
    norm_num
  obtain ⟨hlow, hhigh⟩ := shiftLeft_bounds hpos hlt
  have hlog : n.log2 ≤ 52 := Nat.le_of_lt_succ ((Nat.log2_lt hpos.ne').mpr hlt)
  have hm : 0 < n <<< (52 - n.log2) := by omega
  have hvalue := unpack_ofNat hpos hlt hm
  have hopposite : (-Float.ofNat n).toModel.unpack
      = .finite .negative (n <<< (52 - n.log2)) (n.log2 - 52) hm := by
    change (Float.Model.pack (Float.ofNat n).toModel.unpack.neg).unpack = _
    rw [hvalue]
    exact unpack_pack hlow hhigh (by omega) (by omega)
  have hnumber : ((n <<< (52 - n.log2) : Nat) : ℚ) * 2 ^ ((n.log2 : Int) - 52) = n := by
    have hexponent : ((52 - n.log2 : Nat) : Int) + (n.log2 - 52) = 0 := by omega
    rw [Nat.shiftLeft_eq]
    push_cast
    rw [mul_assoc, ← zpow_natCast, ← zpow_add₀ two_ne_zero, hexponent, zpow_zero, mul_one]
  rw [hvalue, hopposite, unpackedValue_positive, unpackedValue_negative, hnumber]
  exact ⟨rfl, rfl⟩

/-- An integer of magnitude at most `2 ^ 53` is a float without rounding. -/
theorem unpackedValue_toFloat {w : Int64} (h : w.toInt.natAbs ≤ 2 ^ 53) :
  unpackedValue (Word.toFloat w).toModel.unpack = w.toInt
  := by
  unfold Word.toFloat
  cases hw : w.toInt with
  | ofNat n =>
    rw [hw] at h
    exact (unpackedValue_ofNat h).1
  | negSucc n =>
    rw [hw] at h
    have hopposite := (unpackedValue_ofNat (n := n + 1) h).2
    change unpackedValue (-Float.ofNat (n + 1)).toModel.unpack = _
    rw [hopposite, Int.cast_negSucc]

/-- Integers of magnitude at most `2 ^ 53` that are equal as floats are equal. -/
theorem eq_of_toFloat_beq {v w : Int64} (hv : v.toInt.natAbs ≤ 2 ^ 53)
    (hw : w.toInt.natAbs ≤ 2 ^ 53) (h : (Word.toFloat v == Word.toFloat w) = true) :
  v = w
  := by
  have hvalue := unpackedValue_eq_of_beq h
  rw [unpackedValue_toFloat hv, unpackedValue_toFloat hw] at hvalue
  apply Int64.toInt_inj.mp
  exact_mod_cast hvalue

end RuleLang
