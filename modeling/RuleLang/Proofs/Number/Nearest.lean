import Mathlib.Algebra.Order.Field.Power
import Mathlib.Data.Rat.Star
import Mathlib.Tactic.FieldSimp
import Mathlib.Tactic.Linarith
import Mathlib.Tactic.Positivity
import Mathlib.Tactic.Ring
import RuleLang.Proofs.Number.Bits
import RuleLang.Proofs.Number.Digits

/-!
# The nearest float

`Near v m q` says that the number `v` lies between the midpoints to the two neighbours of
the float `m * 2 ^ q`, on a midpoint only if `m` is even.  `Binary.bitsOfFraction` finds the
bits of the float that a fraction is near to.
-/

namespace RuleLang

/-! ### Powers -/

/-- A power with a numerator and a denominator of which one is one. -/
theorem power_div_power
    (b : Nat) (e : Int) :
  (power b e : ℚ) / power b (-e) = (b : ℚ) ^ e
  := by
  obtain h | h := Int.le_total 0 e
  · obtain ⟨n, rfl⟩ := Int.eq_ofNat_of_zero_le h
    rw [power_of_nonpos b (by omega : -(n : Int) ≤ 0), power]
    simp
  · obtain ⟨n, hn⟩ := Int.eq_ofNat_of_zero_le (by omega : 0 ≤ -e)
    obtain rfl : e = -n := by omega
    rw [power_of_nonpos b h, power]
    simp

theorem power_pos {b : Nat} (hb : 0 < b) (e : Int) :
  0 < power b e
  := Nat.pow_pos hb

namespace Binary

/-! ### Rounding to natural numbers -/

/-- A fraction is rounded to the number that it is within a half of. -/
theorem divToEven_eq {n d m : Nat} (hd : 0 < d) (hlow : 2 * (m * d) ≤ 2 * n + d)
    (hhigh : 2 * n ≤ 2 * (m * d) + d)
    (hodd : m % 2 = 1 → 2 * (m * d) < 2 * n + d ∧ 2 * n < 2 * (m * d) + d) :
  divToEven n d = m
  := by
  have hn := Nat.div_add_mod' n d
  have hr := Nat.mod_lt n hd
  unfold divToEven
  dsimp only
  generalize n / d = k at *
  generalize n % d = r at *
  subst hn
  have hk : k < m + 1 := by
    apply lt_of_mul_lt_mul_right _ (Nat.zero_le d)
    linarith
  have hm : m < k + 2 := by
    apply lt_of_mul_lt_mul_right _ (Nat.zero_le d)
    linarith
  obtain rfl | rfl : k = m ∨ m = k + 1 := by omega
  · split_ifs <;> omega
  · rw [Nat.add_mul] at *
    split_ifs <;> omega

/-! ### Binary exponents -/

/-- A scaled fraction is the fraction divided by the power of two. -/
theorem scale_div
    (n d : Nat) (e : Int) :
  ((scale n d e).1 : ℚ) / (scale n d e).2 = n / d / (2 : ℚ) ^ e
  := by
  have h := power_div_power 2 e
  have hpos : (0 : ℚ) < power 2 e := by exact_mod_cast power_pos (by decide) e
  have hpos' : (0 : ℚ) < power 2 (-e) := by exact_mod_cast power_pos (by decide) (-e)
  push_cast at h
  rw [← h, scale]
  push_cast
  field_simp

theorem scale_snd_pos {n d : Nat} (hd : 0 < d) (e : Int) :
  0 < (scale n d e).2
  := Nat.mul_pos hd (power_pos (by decide) e)

/-- The binary lengths of a numerator and a denominator give a positive fraction up to a
factor of two. -/
theorem log2_sub_log2 {n d : Nat} (hn : 0 < n) (hd : 0 < d) :
  (2 : ℚ) ^ ((Nat.log2 n : Int) - Nat.log2 d - 1) ≤ n / d
    ∧ (n / d : ℚ) < 2 ^ ((Nat.log2 n : Int) - Nat.log2 d + 1)
  := by
  have hd' : (0 : ℚ) < d := by exact_mod_cast hd
  have hnlow : (2 : ℚ) ^ Nat.log2 n ≤ n := by exact_mod_cast Nat.log2_self_le hn.ne'
  have hnhigh : (n : ℚ) < 2 ^ (Nat.log2 n + 1) := by exact_mod_cast Nat.lt_log2_self
  have hdlow : (2 : ℚ) ^ Nat.log2 d ≤ d := by exact_mod_cast Nat.log2_self_le hd.ne'
  have hdhigh : (d : ℚ) < 2 ^ (Nat.log2 d + 1) := by exact_mod_cast Nat.lt_log2_self
  constructor
  · rw [le_div_iff₀ hd']
    calc (2 : ℚ) ^ ((Nat.log2 n : Int) - Nat.log2 d - 1) * d
        ≤ 2 ^ ((Nat.log2 n : Int) - Nat.log2 d - 1) * 2 ^ (Nat.log2 d + 1) := by gcongr
      _ = 2 ^ ((Nat.log2 n : Int) - Nat.log2 d - 1 + (Nat.log2 d + 1 : Nat)) := by
        rw [zpow_add₀ two_ne_zero, zpow_natCast]
      _ = 2 ^ Nat.log2 n := by
        rw [← zpow_natCast]
        congr 1
        omega
      _ ≤ n := hnlow
  · rw [div_lt_iff₀ hd']
    calc (n : ℚ)
        < 2 ^ (Nat.log2 n + 1) := hnhigh
      _ = 2 ^ ((Nat.log2 n : Int) - Nat.log2 d + 1 + Nat.log2 d) := by
        rw [← zpow_natCast]
        congr 1
        omega
      _ = 2 ^ ((Nat.log2 n : Int) - Nat.log2 d + 1) * 2 ^ Nat.log2 d := by
        rw [zpow_add₀ two_ne_zero, zpow_natCast]
      _ ≤ 2 ^ ((Nat.log2 n : Int) - Nat.log2 d + 1) * d := by gcongr

/-- A positive fraction lies between two powers of two that follow each other. -/
theorem floorLog2_spec {n d : Nat} (hn : 0 < n) (hd : 0 < d) :
  (2 : ℚ) ^ floorLog2 n d ≤ n / d ∧ (n / d : ℚ) < 2 ^ (floorLog2 n d + 1)
  := by
  obtain ⟨hlow, hhigh⟩ := log2_sub_log2 hn hd
  have hscaled := scale_div n d (Nat.log2 n - Nat.log2 d)
  have hpos : (0 : ℚ) < (scale n d (Nat.log2 n - Nat.log2 d)).2 := by
    exact_mod_cast scale_snd_pos hd _
  have hpower : (0 : ℚ) < 2 ^ ((Nat.log2 n : Int) - Nat.log2 d) := by positivity
  unfold floorLog2
  dsimp only
  split
  · rename_i hle
    have hle : (1 : ℚ) ≤ n / d / 2 ^ ((Nat.log2 n : Int) - Nat.log2 d) := by
      rw [← hscaled, one_le_div hpos]
      exact_mod_cast hle
    exact ⟨(one_le_div hpower).mp hle, hhigh⟩
  · rename_i hlt
    have hlt : (n / d / 2 ^ ((Nat.log2 n : Int) - Nat.log2 d) : ℚ) < 1 := by
      rw [← hscaled, div_lt_one hpos]
      exact_mod_cast Nat.lt_of_not_le hlt
    rw [sub_add_cancel]
    exact ⟨hlow, (div_lt_one hpower).mp hlt⟩

/-- Powers of two that enclose a fraction give its binary exponent. -/
theorem floorLog2_eq {n d : Nat} {e : Int} (hn : 0 < n) (hd : 0 < d)
    (hlow : (2 : ℚ) ^ e ≤ n / d) (hhigh : (n / d : ℚ) < 2 ^ (e + 1)) :
  floorLog2 n d = e
  := by
  obtain ⟨hlow', hhigh'⟩ := floorLog2_spec hn hd
  have hle := (zpow_lt_zpow_iff_right₀ one_lt_two).mp (hlow.trans_lt hhigh')
  have hge := (zpow_lt_zpow_iff_right₀ one_lt_two).mp (hlow'.trans_lt hhigh)
  omega

/-- A fraction below a power of two has a smaller binary exponent. -/
theorem floorLog2_lt {n d : Nat} {e : Int} (hn : 0 < n) (hd : 0 < d)
    (hhigh : (n / d : ℚ) < 2 ^ e) :
  floorLog2 n d < e
  := (zpow_lt_zpow_iff_right₀ one_lt_two).mp ((floorLog2_spec hn hd).1.trans_lt hhigh)

/-! ### The float near a number -/

/-- Whether `m * 2 ^ q` is a positive float, with its only mantissa and exponent. -/
structure Canonical (m : Nat) (q : Int) : Prop where
  pos : 0 < m
  lt : m < 2 * hiddenBit
  minExponent_le : minExponent ≤ q
  le_or_eq : hiddenBit ≤ m ∨ q = minExponent
  exponent_le : q ≤ 971

/-- Four times the midpoint below a float, in its last place.  The gap below the least
mantissa of an exponent is half the gap above it. -/
def lowMark (m : Nat) (q : Int) : Nat :=
  if m = hiddenBit ∧ minExponent < q then 4 * m - 1 else 4 * m - 2

/-- Whether a number is nearer to the float `m * 2 ^ q` than to its neighbours, or a midpoint
that is rounded to it. -/
structure Near (v : ℚ) (m : Nat) (q : Int) : Prop where
  low : lowMark m q * (2 : ℚ) ^ (q - 2) ≤ v
  high : v ≤ (4 * m + 2) * (2 : ℚ) ^ (q - 2)
  odd : m % 2 = 1 → lowMark m q * (2 : ℚ) ^ (q - 2) < v ∧ v < (4 * m + 2) * (2 : ℚ) ^ (q - 2)

/-- The marks of a float are at least one and at most two quarters away from it. -/
theorem lowMark_cases
    (m : Nat) (q : Int) :
  (m = hiddenBit ∧ minExponent < q ∧ lowMark m q = 4 * m - 1)
    ∨ (¬(m = hiddenBit ∧ minExponent < q) ∧ lowMark m q = 4 * m - 2)
  := by
  unfold lowMark
  split
  · rename_i h
    exact .inl ⟨h.1, h.2, rfl⟩
  · rename_i h
    exact .inr ⟨h, rfl⟩

/-- A fraction within a half of `m` on the scale of an exponent is rounded to `m`. -/
theorem divToEven_scale {n d m : Nat} {e : Int} (hd : 0 < d)
    (hlow : (4 * m - 2) * (2 : ℚ) ^ (e - 2) ≤ n / d)
    (hhigh : (n / d : ℚ) ≤ (4 * m + 2) * 2 ^ (e - 2))
    (hodd : m % 2 = 1 → (4 * m - 2) * (2 : ℚ) ^ (e - 2) < n / d
      ∧ (n / d : ℚ) < (4 * m + 2) * 2 ^ (e - 2)) :
  divToEven (scale n d e).1 (scale n d e).2 = m
  := by
  have hscaled := scale_div n d e
  have hpos := scale_snd_pos (n := n) hd e
  generalize (scale n d e).1 = n' at *
  generalize (scale n d e).2 = d' at *
  have hpos' : (0 : ℚ) < d' := by exact_mod_cast hpos
  have hquarter : (0 : ℚ) < 2 ^ (e - 2) := by positivity
  have hpower : (2 : ℚ) ^ e = 4 * 2 ^ (e - 2) := by
    rw [zpow_sub₀ two_ne_zero]
    norm_num
    ring
  have hvalue : (n / d : ℚ) = 4 * n' / d' * 2 ^ (e - 2) := by
    rw [hpower] at hscaled
    field_simp at hscaled ⊢
    linarith
  rw [hvalue] at hlow hhigh hodd
  rw [mul_le_mul_iff_left₀ hquarter, le_div_iff₀ hpos'] at hlow
  rw [mul_le_mul_iff_left₀ hquarter, div_le_iff₀ hpos'] at hhigh
  rw [mul_lt_mul_iff_left₀ hquarter, lt_div_iff₀ hpos', mul_lt_mul_iff_left₀ hquarter,
    div_lt_iff₀ hpos'] at hodd
  apply divToEven_eq hpos
  · have hlow : (2 * (m * d') : ℚ) ≤ 2 * n' + d' := by linarith
    exact_mod_cast hlow
  · have hhigh : (2 * n' : ℚ) ≤ 2 * (m * d') + d' := by linarith
    exact_mod_cast hhigh
  · intro hm
    obtain ⟨hlow, hhigh⟩ := hodd hm
    have hlow : (2 * (m * d') : ℚ) < 2 * n' + d' := by linarith
    have hhigh : (2 * n' : ℚ) < 2 * (m * d') + d' := by linarith
    constructor
    · exact_mod_cast hlow
    · exact_mod_cast hhigh

/-- The numbers near to a float are positive. -/
theorem Near.pos {v : ℚ} {m : Nat} {q : Int} (hm : 0 < m) (h : Near v m q) :
  0 < v
  := by
  apply lt_of_lt_of_le _ h.low
  have hmark : 0 < lowMark m q := by
    obtain ⟨-, -, hmark⟩ | ⟨-, hmark⟩ := lowMark_cases m q <;> omega
  positivity

/-- The powers of two on the scale of a quarter of the last place. -/
theorem zpow_add_eq
    (q k : Int) :
  (2 : ℚ) ^ (q + k) = 2 ^ (k + 2) * 2 ^ (q - 2)
  := by
  rw [← zpow_add₀ two_ne_zero]
  congr 1
  omega

/-- The bits of a fraction whose binary exponent is known, up to that of subnormal floats. -/
theorem bitsOfFraction_of_bounds {n d m : Nat} {e : Int} (hn : 0 < n) (hd : 0 < d)
    (he : minExponent ≤ e) (hless : (n / d : ℚ) < 2 ^ (e + 53))
    (hnormal : e = minExponent ∨ (2 : ℚ) ^ (e + 52) ≤ n / d)
    (hlow : (4 * m - 2) * (2 : ℚ) ^ (e - 2) ≤ n / d)
    (hhigh : (n / d : ℚ) ≤ (4 * m + 2) * 2 ^ (e - 2))
    (hodd : m % 2 = 1 → (4 * m - 2) * (2 : ℚ) ^ (e - 2) < n / d
      ∧ (n / d : ℚ) < (4 * m + 2) * 2 ^ (e - 2)) :
  bitsOfFraction n d = (e - minExponent).toNat * hiddenBit + m
  := by
  have hexponent : max (floorLog2 n d - 52) minExponent = e := by
    have hlt := floorLog2_lt hn hd hless
    obtain rfl | hge := hnormal
    · omega
    · have heq := floorLog2_eq hn hd hge (by simpa [add_assoc] using hless)
      omega
  unfold bitsOfFraction
  dsimp only
  rw [hexponent, divToEven_scale hd hlow hhigh hodd]

/-- Below a power of two the places are half as wide: what is near to the power there has the
greatest coefficient of the narrower places, and the next one is the power. -/
theorem bitsOfFraction_below_power {n d : Nat} {q : Int} (hn : 0 < n) (hd : 0 < d)
    (hq : minExponent < q) (hlow : (4 * hiddenBit - 1) * (2 : ℚ) ^ (q - 2) ≤ n / d)
    (hlt : (n / d : ℚ) < 2 ^ (q + 52)) :
  bitsOfFraction n d = (q - minExponent).toNat * hiddenBit + hiddenBit
  := by
  have hquarter : (0 : ℚ) < 2 ^ (q - 2) := by positivity
  have hstep : (2 : ℚ) ^ (q - 2) = 2 * 2 ^ (q - 1 - 2) := by
    rw [zpow_sub₀ two_ne_zero, zpow_sub₀ two_ne_zero, zpow_sub₀ two_ne_zero]
    norm_num
    ring
  have hlow' : (2 : ℚ) ^ (q - 1 + 52) ≤ n / d := by
    rw [show q - 1 + 52 = q + 51 by omega, zpow_add_eq]
    apply le_trans _ hlow
    rw [mul_le_mul_iff_left₀ hquarter]
    norm_num [hiddenBit]
  have hhigh : (n / d : ℚ) < 4 * hiddenBit * 2 ^ (q - 2) := by
    rw [zpow_add_eq] at hlt
    apply lt_of_lt_of_le hlt
    rw [mul_le_mul_iff_left₀ hquarter]
    norm_num [hiddenBit]
  have hbits : bitsOfFraction n d = (q - 1 - minExponent).toNat * hiddenBit + 2 * hiddenBit := by
    have hstep' : (0 : ℚ) < 2 ^ (q - 1 - 2) := by positivity
    rw [hstep] at hlow hhigh
    apply bitsOfFraction_of_bounds hn hd (by omega) _ (.inr hlow')
    · push_cast
      linarith
    · push_cast
      linarith
    · intro hodd
      omega
    · rwa [show q - 1 + 53 = q + 52 by omega]
  have hq' : (q - minExponent).toNat = (q - 1 - minExponent).toNat + 1 := by omega
  rw [hbits, hq']
  ring

/-- The bits of the float that a fraction is near to. -/
theorem bitsOfFraction_eq {n d m : Nat} {q : Int} (hd : 0 < d) (hm : Canonical m q)
    (h : Near (n / d) m q) :
  bitsOfFraction n d = (q - minExponent).toNat * hiddenBit + m
  := by
  have hn : 0 < n := by
    have hn := h.pos hm.pos
    rw [div_pos_iff_of_pos_right (by exact_mod_cast hd)] at hn
    exact_mod_cast hn
  obtain ⟨hlow, hhigh, hodd⟩ := h
  obtain ⟨hmpos, hmlt, hq, hnormal, -⟩ := hm
  have hquarter : (0 : ℚ) < 2 ^ (q - 2) := by positivity
  have hbit : (hiddenBit : ℚ) = 2 ^ 52 := by norm_num [hiddenBit]
  have hmlt' : (m : ℚ) + 1 ≤ 2 * hiddenBit := by exact_mod_cast hmlt
  have hless : (n / d : ℚ) < 2 ^ (q + 53) := by
    rw [zpow_add_eq]
    apply lt_of_le_of_lt hhigh
    rw [mul_lt_mul_iff_left₀ hquarter]
    norm_num at hbit ⊢
    linarith
  obtain ⟨rfl, hq', hmark⟩ | ⟨hnot, hmark⟩ := lowMark_cases m q
  · have hmark : (lowMark hiddenBit q : ℚ) = 4 * hiddenBit - 1 := by
      rw [hmark]
      norm_num [hiddenBit]
    rw [hmark] at hlow hodd
    obtain hge | hlt := le_or_gt ((2 : ℚ) ^ (q + 52)) (n / d)
    · apply bitsOfFraction_of_bounds hn hd hq hless (.inr hge) _ hhigh
      · intro hodd
        cases hodd
      · nlinarith
    · apply bitsOfFraction_below_power hn hd hq' hlow hlt
  · have hmark : (lowMark m q : ℚ) = 4 * m - 2 := by
      rw [hmark]
      push_cast [show 2 ≤ 4 * m by omega]
      ring
    rw [hmark] at hlow hodd
    apply bitsOfFraction_of_bounds hn hd hq hless _ hlow hhigh hodd
    obtain hle | rfl := hnormal
    · by_cases hq' : minExponent < q
      · right
        have hlt : hiddenBit + 1 ≤ m := by omega
        have hlt : (hiddenBit : ℚ) + 1 ≤ m := by exact_mod_cast hlt
        rw [zpow_add_eq]
        apply le_trans _ hlow
        rw [mul_le_mul_iff_left₀ hquarter]
        norm_num at hbit ⊢
        linarith
      · left
        omega
    · exact .inl rfl

end Binary

/-! ### Bits of floats -/

section

open Float.Model Float.Model.UnpackedFloat

/-- The bits of finite floats are kept. -/
theorem toBits_ofBits {b : Nat} (h : b < Binary.infinityBits) :
  (Float.ofBits (UInt64.ofNat b)).toBits = UInt64.ofNat b
  := by
  have hexponent : @unpackExponent Format.binary64 (UInt64.ofNat b).toBitVec ≠ -1#_ := by
    intro htop
    have htop := congrArg BitVec.toNat htop
    simp [unpackExponent, Nat.shiftRight_eq_div_pow] at htop
    simp [Binary.infinityBits, Binary.topExponent, Binary.hiddenBit] at h
    omega
  apply UInt64.toBitVec_inj.mp
  apply pack_unpack hexponent

end

namespace Binary

/-- The bits of a float that is not negative, taken apart. -/
theorem ofFloat_signed {b : Nat} (h : b < infinityBits) :
  ∃ m q, ofFloat (signed false b) = .finite false m q
    ∧ b = (q - minExponent).toNat * hiddenBit + m ∧ (b = 0 ∧ m = 0 ∨ Canonical m q)
  := by
  have hbits : (signed false b).toBits.toNat = b := by
    rw [signed, if_neg (by decide), toBits_ofBits h, UInt64.toNat_ofNat_of_lt']
    exact Nat.lt_trans h (by decide)
  have hdiv := Nat.div_add_mod' b hiddenBit
  have hmod := Nat.mod_lt b (by decide : 0 < hiddenBit)
  have hbiased : b / hiddenBit < 2047 := Nat.div_lt_of_lt_mul (by rwa [Nat.mul_comm])
  have hfits := Nat.mod_eq_of_lt (Nat.lt_trans hbiased (by decide : 2047 < 2048))
  have hsign : ¬b / signBit = 1 := by
    rw [Nat.div_eq_of_lt (Nat.lt_trans h (by decide))]
    decide
  unfold ofFloat
  dsimp only
  rw [hbits, hfits, if_neg (Nat.ne_of_lt hbiased : ¬b / hiddenBit = topExponent)]
  simp only [hsign, decide_false]
  generalize b / hiddenBit = biased at *
  generalize b % hiddenBit = field at *
  split
  · rename_i hzero
    subst hzero
    refine ⟨field, minExponent, rfl, by simpa using hdiv.symm, ?_⟩
    obtain rfl | hfield := Nat.eq_zero_or_pos field
    · exact .inl ⟨by simpa using hdiv.symm, rfl⟩
    · exact .inr ⟨hfield, by omega, Int.le_refl _, .inr rfl, by decide⟩
  · refine ⟨hiddenBit + field, minExponent + biased - 1, rfl, ?_, .inr ?_⟩
    · obtain ⟨k, rfl⟩ := Nat.exists_eq_add_one_of_ne_zero (by assumption : ¬biased = 0)
      rw [← hdiv, show (minExponent + (k + 1 : Nat) - 1 - minExponent).toNat = k by omega]
      ring
    · have hmin : minExponent = -1074 := rfl
      constructor
      · omega
      · omega
      · omega
      · left
        omega
      · omega

end Binary

namespace Decimal

/-- The number that a decimal is. -/
def value (d : Decimal) : ℚ := d.coefficient * 10 ^ d.exponent

/-- The first digit of a positive decimal says between which powers of ten it lies. -/
theorem leadingExponent_spec {d : Decimal} (hd : 0 < d.coefficient) :
  10 ^ d.leadingExponent ≤ d.value ∧ d.value < 10 ^ (d.leadingExponent + 1)
  := by
  have hpower : (0 : ℚ) < 10 ^ d.exponent := by positivity
  have hlength := List.length_pos_of_ne_nil (digitsOf_ne_nil d.coefficient)
  obtain ⟨k, hk⟩ := Nat.exists_eq_add_one_of_ne_zero hlength.ne'
  have hleading : d.leadingExponent = k + d.exponent := by
    rw [leadingExponent, hk]
    omega
  have hhigh : d.coefficient < 10 ^ (k + 1) := (length_digitsOf_le_iff (by omega)).mp hk.le
  have hlow : 10 ^ k ≤ d.coefficient := by
    obtain rfl | hk' := Nat.eq_zero_or_pos k
    · apply hd
    · by_contra hlt
      have hle := (length_digitsOf_le_iff hk').mpr (Nat.lt_of_not_le hlt)
      omega
  rw [hleading, value]
  constructor
  · rw [zpow_add₀ (by norm_num), zpow_natCast, mul_le_mul_iff_left₀ hpower]
    exact_mod_cast hlow
  · rw [add_right_comm, zpow_add₀ (by norm_num), mul_lt_mul_iff_left₀ hpower]
    exact_mod_cast hhigh

/-- The decimals near to floats are neither too small nor too great to be looked at. -/
theorem leadingExponent_bounds {d : Decimal} {m : Nat} {q : Int} (hd : 0 < d.coefficient)
    (hm : Binary.Canonical m q) (h : Binary.Near d.value m q) :
  -330 ≤ d.leadingExponent ∧ d.leadingExponent ≤ 310
  := by
  obtain ⟨hlow, hhigh⟩ := leadingExponent_spec hd
  have hm' : (m : ℚ) < 2 * Binary.hiddenBit := by exact_mod_cast hm.lt
  constructor
  · have hstep : (2 : ℚ) ^ (-1076 : Int) ≤ 2 ^ (q - 2) := by
      apply zpow_le_zpow_right₀ one_le_two
      have hq := hm.minExponent_le
      simp only [Binary.minExponent] at hq
      omega
    have hmark : (1 : ℚ) ≤ Binary.lowMark m q := by
      have hpos := hm.pos
      have hmark : 1 ≤ Binary.lowMark m q := by
        obtain ⟨-, -, hmark⟩ | ⟨-, hmark⟩ := Binary.lowMark_cases m q <;> omega
      exact_mod_cast hmark
    have hleast : (2 : Nat) ^ 1076 < 10 ^ 330 := by decide +kernel
    have hvalue : (10 : ℚ) ^ (-330 : Int) < 10 ^ (d.leadingExponent + 1) := by
      calc (10 : ℚ) ^ (-330 : Int)
          < 1 * 2 ^ (-1076 : Int) := by
            rw [one_mul, zpow_neg, zpow_neg]
            exact inv_strictAnti₀ (by positivity) (by exact_mod_cast hleast)
        _ ≤ Binary.lowMark m q * 2 ^ (q - 2) := by gcongr
        _ ≤ d.value := h.low
        _ < 10 ^ (d.leadingExponent + 1) := hhigh
    have hlt := (zpow_lt_zpow_iff_right₀ (by norm_num)).mp hvalue
    omega
  · have hfactor : (0 : ℚ) ≤ 4 * (2 * Binary.hiddenBit) + 2 := by positivity
    have hquarter : (0 : ℚ) ≤ 2 ^ (q - 2) := by positivity
    have hstep : (2 : ℚ) ^ (q - 2) ≤ 2 ^ (969 : Int) := by
      apply zpow_le_zpow_right₀ one_le_two
      have hq := hm.exponent_le
      omega
    have hlargest : (4 * (2 * Binary.hiddenBit) + 2) * 2 ^ 969 < 10 ^ 311 := by decide +kernel
    have hvalue : (10 : ℚ) ^ d.leadingExponent < 10 ^ (311 : Int) := by
      calc (10 : ℚ) ^ d.leadingExponent
          ≤ d.value := hlow
        _ ≤ (4 * m + 2) * 2 ^ (q - 2) := h.high
        _ ≤ (4 * (2 * Binary.hiddenBit) + 2) * 2 ^ (969 : Int) :=
          mul_le_mul (by linarith) hstep hquarter hfactor
        _ < 10 ^ (311 : Int) := by exact_mod_cast hlargest
    have hlt := (zpow_lt_zpow_iff_right₀ (by norm_num)).mp hvalue
    omega

/-- The float that a decimal is near to is the one that it is rounded to. -/
theorem toFloat_eq {d : Decimal} {m : Nat} {q : Int} (hm : Binary.Canonical m q)
    (h : Binary.Near d.value m q) :
  d.toFloat false
    = Binary.signed false ((q - Binary.minExponent).toNat * Binary.hiddenBit + m)
  := by
  have hcoefficient : 0 < d.coefficient := by
    have hpos := h.pos hm.pos
    rw [value, mul_pos_iff_of_pos_right (by positivity)] at hpos
    exact_mod_cast hpos
  obtain ⟨hlow, hhigh⟩ := leadingExponent_bounds hcoefficient hm h
  have hnumerator := Nat.mul_pos hcoefficient (power_pos (by decide : 0 < 10) d.exponent)
  have hdenominator := power_pos (by decide : 0 < 10) (-d.exponent)
  have hfraction : ((d.coefficient * power 10 d.exponent : Nat) : ℚ)
      / (power 10 (-d.exponent) : Nat) = d.value := by
    have hpower := power_div_power 10 d.exponent
    push_cast at hpower ⊢
    rw [mul_div_assoc, hpower]
    rfl
  have hbits := Binary.bitsOfFraction_eq hdenominator hm (hfraction.symm ▸ h)
  have hfinite : (q - Binary.minExponent).toNat * Binary.hiddenBit + m ≤ Binary.infinityBits := by
    have hq : (q - Binary.minExponent).toNat ≤ 2045 := by
      have hq := hm.exponent_le
      simp only [Binary.minExponent]
      omega
    calc (q - Binary.minExponent).toNat * Binary.hiddenBit + m
        ≤ 2045 * Binary.hiddenBit + 2 * Binary.hiddenBit :=
          Nat.add_le_add (Nat.mul_le_mul_right _ hq) hm.lt.le
      _ = Binary.infinityBits := by decide
  unfold toFloat
  dsimp only
  rw [if_neg (by omega), if_neg (by omega), Binary.ofFraction, if_neg hnumerator.ne', hbits,
    Nat.min_eq_left hfinite]

end Decimal

end RuleLang
