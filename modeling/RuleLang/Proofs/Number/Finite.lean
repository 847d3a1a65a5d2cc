import Mathlib.Algebra.Group.Int.Defs
import Mathlib.Tactic.SplitIfs
import RuleLang.Number.Word
import RuleLang.Proofs.Number.Bits

/-!
# Integers as finite floats

Rounding takes bits from a mantissa and adds as many to the exponent.  An integer with few
enough bits is therefore rounded to a finite float.
-/

namespace RuleLang

open Float.Model Float.Model.UnpackedFloat

/-! ### Rounding -/

/-- Bits are only taken from a mantissa that is shifted. -/
theorem mantissa_shiftRight_le
    (em : ExtendedMantissa) (n : Nat) :
  (em >>> n).mantissa ≤ em.mantissa
  := by
  change (n.repeat ExtendedMantissa.shiftRightOne em).mantissa ≤ em.mantissa
  induction n with
  | zero => apply Nat.le_refl
  | succ n ih => apply Nat.le_trans (Nat.div_le_self _ 2) ih

theorem roundedMantissa_le
    (em : ExtendedMantissa) :
  em.roundedMantissa ≤ em.mantissa + 1
  := by
  unfold ExtendedMantissa.roundedMantissa Accuracy.roundToNearestEven
  split <;> omega

/-- A shift to the exponent of a format leaves no more than the mantissa had, and an exponent that
is greater by at most its bits. -/
theorem shiftToTargetExponent_le {m k : Nat} {e : Int} (hm : m < 2 ^ k) (he : -1074 ≤ e)
    (accuracy : Accuracy) :
  (shiftToTargetExponent Format.binary64 m e accuracy).1.mantissa ≤ m
    ∧ -1074 ≤ (shiftToTargetExponent Format.binary64 m e accuracy).2
    ∧ (shiftToTargetExponent Format.binary64 m e accuracy).2 ≤ e + k
  := by
  have hstart : (ExtendedMantissa.ofMantissaAndAccuracy m accuracy).mantissa = m := by
    unfold ExtendedMantissa.ofMantissaAndAccuracy
    split <;> rfl
  have hbits : m.log2 ≤ k := by
    obtain rfl | hne := Nat.eq_zero_or_pos m
    · exact Nat.zero_le k
    · exact Nat.le_of_lt ((Nat.log2_lt (Nat.ne_of_gt hne)).mpr hm)
  unfold shiftToTargetExponent shiftToExponent
  dsimp only
  refine ⟨Nat.le_trans (mantissa_shiftRight_le _ _) (Nat.le_of_eq hstart), by omega, ?_⟩
  have htarget : Format.binary64.targetExponent (totalExponent m e) ≤ e + k := by
    change max ((m.log2 : Int) + 1 + e - 53) (-1074) ≤ e + k
    omega
  omega

/-- Rounding shifts twice, before the mantissa is rounded and behind that. -/
theorem roundWithAccuracy_of_shifts {spec : Format} {s : Sign} {m : Nat} {e : Int}
    {accuracy : Accuracy} {first last : ExtendedMantissa × Int}
    (hfirst : shiftToTargetExponent spec m e accuracy = first)
    (hlast : shiftToTargetExponent spec first.1.roundedMantissa first.2 .exact = last) :
  (last.1.mantissa = 0 → roundWithAccuracy spec s m e accuracy = .zero s)
    ∧ ∀ h : 0 < last.1.mantissa,
      roundWithAccuracy spec s m e accuracy = .finite s last.1.mantissa last.2 h
  := by
  subst hfirst hlast
  constructor
  · intro h
    exact dif_pos h
  · intro h
    exact dif_neg (Nat.ne_of_gt h)

/-- What is rounded becomes zero, or a float with an exponent that is greater by at most the bits
of the mantissa and of the rounded mantissa. -/
theorem roundWithAccuracy_cases
    (s : Sign) {m k : Nat} {e : Int} (hm : m < 2 ^ k) (he : -1074 ≤ e) (accuracy : Accuracy) :
  roundWithAccuracy Format.binary64 s m e accuracy = .zero s
    ∨ ∃ m' e' h, roundWithAccuracy Format.binary64 s m e accuracy = .finite s m' e' h
      ∧ e' ≤ e + k + (k + 1)
  := by
  obtain ⟨hmantissa, hleast, hexponent⟩ := shiftToTargetExponent_le hm he accuracy
  generalize hfirst : shiftToTargetExponent Format.binary64 m e accuracy = first at *
  have hrounded : first.1.roundedMantissa < 2 ^ (k + 1) := by
    have hone := Nat.one_le_two_pow (n := k)
    have hle := roundedMantissa_le first.1
    rw [Nat.pow_succ]
    omega
  obtain ⟨-, -, hlast⟩ := shiftToTargetExponent_le hrounded hleast .exact
  obtain ⟨hzero, hfinite⟩ := roundWithAccuracy_of_shifts (s := s) hfirst rfl
  obtain h | h := Nat.eq_zero_or_pos
    (shiftToTargetExponent Format.binary64 first.1.roundedMantissa first.2 .exact).1.mantissa
  · exact .inl (hzero h)
  · exact .inr ⟨_, _, h, hfinite h, by omega⟩

/-! ### Finite floats -/

/-- A float whose exponent is in range stays finite. -/
theorem isFinite_pack {s : Sign} {m : Nat} {e : Int} (h : 0 < m) (he : e ≤ 971) :
  (Float.Model.pack (.finite s m e h)).isFinite
  := by
  have hbias : (Format.binary64.exponentBias : Int) = 1023 := rfl
  have htop : unpackExponent (UnpackedFloat.pack Format.binary64 (.finite s m e h)) ≠ -1#11 := by
    unfold UnpackedFloat.pack
    dsimp only
    split_ifs with hrange
    · omega
    · rw [unpackExponent_packComponents]
      intro htop
      have htop := congrArg BitVec.toNat htop
      rw [BitVec.toNat_ofNat, Nat.mod_eq_of_lt (by omega)] at htop
      change _ = 2047 at htop
      omega
    · rw [unpackExponent_packComponents]
      decide
  change (UnpackedFloat.unpack Format.binary64
    (UnpackedFloat.pack Format.binary64 (.finite s m e h))).isFinite
  obtain ⟨s', hzero⟩ | ⟨s', m', e', h', hfinite, -⟩ := unpack_cases htop
  · rw [hzero]
    rfl
  · rw [hfinite]
    rfl

/-- The negation of a finite float is finite. -/
theorem isFinite_neg {x : Float} (h : x.isFinite) :
  (-x).isFinite
  := by
  let b : BitVec Format.binary64.numBits := x.toModel.toBits.toBitVec
  change (UnpackedFloat.unpack Format.binary64 b).isFinite at h
  change (Float.Model.pack (UnpackedFloat.unpack Format.binary64 b).neg).isFinite
  by_cases htop : unpackExponent b = -1#_
  · rw [isFinite_unpack_of_top htop] at h
    cases h
  obtain ⟨s, hzero⟩ | ⟨s, m, e, hm, hfinite, he⟩ := unpack_cases htop
  · rw [hzero]
    cases s <;> decide
  · rw [hfinite]
    exact isFinite_pack hm he

/-- A whole number of more than fifty-three bits is rounded as the mantissa that it is with
fifty-three zeros behind it. -/
theorem toModel_ofNat {n : Nat} (hlow : 2 ^ 53 ≤ n) :
  (Float.ofNat n).toModel
    = Float.Model.pack (roundWithAccuracy .binary64 .positive (n * 2 ^ 53) (-53) .exact)
  := by
  have hslow : ¬(n < 2 ^ 53 ∧ 0 ≤ 22) := fun h => Nat.not_lt_of_le hlow h.1
  have hsmall : ¬(0 : Int) < -((2 ^ Format.binary64.exponentBits : Int) + n.log2) := by
    change ¬(0 : Int) < -(2048 + n.log2)
    omega
  change (Float.ofScientific n false 0).toModel = _
  unfold Float.ofScientific
  rw [dif_neg hslow]
  change Float.Model.pack (UnpackedFloat.ofScientific .binary64 n 0) = _
  unfold UnpackedFloat.ofScientific
  have hone : n <<< Format.binary64.mantissaBits * 10 ^ (0 : Int).toNat = n * 2 ^ 53 :=
    (Nat.mul_one _).trans (Nat.shiftLeft_eq n 53)
  rw [dif_neg (by omega), if_neg (by decide), if_neg hsmall, if_pos (by decide)]
  unfold UnpackedFloat.mul
  dsimp only
  rw [hone]
  rfl

/-- A whole number that is too great for a word but fits in one without a sign is rounded to a
finite float. -/
theorem isFinite_ofNat {n : Nat} (hlow : 2 ^ 53 ≤ n) (hhigh : n < 2 ^ 64) :
  (Float.ofNat n).isFinite
  := by
  have hmantissa : n * 2 ^ 53 < 2 ^ 117 := by omega
  change (Float.ofNat n).toModel.isFinite
  rw [toModel_ofNat hlow]
  obtain hzero | ⟨m, e, hm, hfinite, he⟩ := roundWithAccuracy_cases
    .positive hmantissa (by decide : -1074 ≤ (-53 : Int)) .exact
  · rw [hzero]
    decide
  · rw [hfinite]
    exact isFinite_pack hm (by omega)

/-- An integer of a document that has no word has a finite float. -/
theorem isFinite_ofInt_of_int64?_eq_none {n : Int} (hlow : -9223372036854775808 ≤ n)
    (hhigh : n < 18446744073709551616) (h : int64? n = none) :
  (Float.ofInt n).isFinite
  := by
  have hgreat := int64?_eq_none_iff.mp h
  obtain ⟨k, rfl⟩ := Int.eq_ofNat_of_zero_le (by omega : 0 ≤ n)
  apply isFinite_ofNat
  · omega
  · omega

end RuleLang
