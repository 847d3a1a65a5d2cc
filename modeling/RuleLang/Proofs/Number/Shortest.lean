import RuleLang.Number.Notation
import RuleLang.Proofs.Number.Nearest
import RuleLang.Token.Literal

/-!
# Shortest decimals read back

The shortest decimal of a float is near to the float, since seventeen digits always
suffice.  So the positional text of a float that is read from a text is read as the float
again.
-/

namespace RuleLang

open Binary

namespace Decimal

/-! ### Powers of ten -/

/-- The integer just below a fraction that is greater than one has as many digits as the
fraction needs tenfoldings. -/
theorem floorLog10_spec {n d : Nat} (hn : 0 < n) (hd : 0 < d) :
  (10 : ℚ) ^ floorLog10 n d ≤ n / d
  := by
  have hn' : (0 : ℚ) < n := by exact_mod_cast hn
  have hd' : (0 : ℚ) < d := by exact_mod_cast hd
  unfold floorLog10
  split
  · rename_i hle
    have hquotient : 0 < n / d := Nat.div_pos hle hd
    have hlength := List.length_pos_of_ne_nil (digitsOf_ne_nil (n / d))
    obtain ⟨k, hk⟩ := Nat.exists_eq_add_one_of_ne_zero hlength.ne'
    have hpower : 10 ^ k ≤ n / d := by
      obtain rfl | hk' := Nat.eq_zero_or_pos k
      · apply hquotient
      · by_contra hlt
        have hle := (length_digitsOf_le_iff hk').mpr (Nat.lt_of_not_le hlt)
        omega
    have hpower : (10 : ℚ) ^ k * d ≤ n := by
      exact_mod_cast (Nat.le_div_iff_mul_le hd).mp hpower
    rw [hk, le_div_iff₀ hd']
    simpa using hpower
  · generalize ht : (d + n - 1) / n - 1 = t
    have hlt : t < 10 ^ (digitsOf t).length :=
      (length_digitsOf_le_iff (List.length_pos_of_ne_nil (digitsOf_ne_nil t))).mp le_rfl
    have hceil : d ≤ n * 10 ^ (digitsOf t).length := by
      have hceil : (d + n - 1) / n ≤ 10 ^ (digitsOf t).length := by omega
      have hdiv := Nat.div_add_mod (d + n - 1) n
      have hmod := Nat.mod_lt (d + n - 1) hn
      have hmul := Nat.mul_le_mul_left n hceil
      omega
    have hceil : (d : ℚ) ≤ n * 10 ^ (digitsOf t).length := by exact_mod_cast hceil
    rw [zpow_neg, zpow_natCast, le_div_iff₀ hd', inv_mul_le_iff₀ (by positivity)]
    linarith

/-- Zeros at the end of a coefficient count for the exponent. -/
@[simp]
theorem value_stripZeros
    (d : Decimal) (count : Nat) :
  (d.stripZeros count).value = d.value
  := by
  induction count generalizing d with
  | zero => rfl
  | succ count ih =>
    rw [stripZeros]
    split
    · rename_i hzero
      obtain ⟨c, hc⟩ := Nat.dvd_of_mod_eq_zero hzero
      have hvalue : (10 : ℚ) ^ (d.exponent + 1) = 10 ^ d.exponent * 10 := by
        rw [zpow_add₀ (by norm_num), zpow_one]
      rw [ih, value, value, hc, Nat.mul_div_cancel_left c (by decide), hvalue]
      push_cast
      ring
    · rfl

/-! ### Grids -/

namespace Grid

/-- The steps of a grid are its powers of ten, on the scale of its fourths. -/
theorem step_div_fourth
    (m : Nat) (q e : Int) :
  ((beside m q e).step : ℚ) / (beside m q e).fourth = 10 ^ e / 2 ^ (q - 2)
  := by
  have htwo := power_div_power 2 (q - 2)
  have hten := power_div_power 10 e
  have hneg : -(q - 2) = 2 - q := by omega
  rw [hneg] at htwo
  push_cast at htwo hten
  rw [← htwo, ← hten]
  simp only [beside]
  push_cast
  field_simp

theorem fourth_pos
    (m : Nat) (q e : Int) :
  0 < (beside m q e).fourth
  := Nat.mul_pos (power_pos (by decide) _) (power_pos (by decide) _)

theorem step_pos
    (m : Nat) (q e : Int) :
  0 < (beside m q e).step
  := Nat.mul_pos (power_pos (by decide) _) (power_pos (by decide) _)

section

variable (m : Nat) (q e : Int) (a c : Nat)

/-- Fourths of a place are compared with steps on the scale of the grid. -/
theorem mul_fourth_le_iff :
  a * (beside m q e).fourth ≤ c * (beside m q e).step
    ↔ a * (2 : ℚ) ^ (q - 2) ≤ Decimal.value ⟨c, e⟩
  := by
  have hratio := step_div_fourth m q e
  have hfourth : (0 : ℚ) < (beside m q e).fourth := by exact_mod_cast fourth_pos m q e
  have hquarter : (0 : ℚ) < 2 ^ (q - 2) := by positivity
  rw [div_eq_div_iff hfourth.ne' hquarter.ne'] at hratio
  rw [value, ← @Nat.cast_le ℚ, ← mul_le_mul_iff_left₀ hquarter]
  push_cast
  rw [mul_assoc (c : ℚ), hratio, ← mul_assoc, mul_right_comm, mul_le_mul_iff_left₀ hfourth]

theorem mul_step_le_iff :
  c * (beside m q e).step ≤ a * (beside m q e).fourth
    ↔ Decimal.value ⟨c, e⟩ ≤ a * (2 : ℚ) ^ (q - 2)
  := by
  have hratio := step_div_fourth m q e
  have hfourth : (0 : ℚ) < (beside m q e).fourth := by exact_mod_cast fourth_pos m q e
  have hquarter : (0 : ℚ) < 2 ^ (q - 2) := by positivity
  rw [div_eq_div_iff hfourth.ne' hquarter.ne'] at hratio
  rw [value, ← @Nat.cast_le ℚ, ← mul_le_mul_iff_left₀ hquarter]
  push_cast
  rw [mul_assoc (c : ℚ), hratio, ← mul_assoc, mul_right_comm (a : ℚ),
    mul_le_mul_iff_left₀ hfourth]

end

/-- Steps of a grid read back exactly if they are near to the float. -/
theorem readsBack_iff {m c : Nat} {q e : Int} :
  (beside m q e).readsBack c ↔ Near (Decimal.value ⟨c, e⟩) m q
  := by
  have hlow := mul_fourth_le_iff m q e (lowMark m q) c
  have hhigh := mul_step_le_iff m q e (4 * m + 2) c
  have hlow' := not_congr (mul_step_le_iff m q e (lowMark m q) c)
  have hhigh' := not_congr (mul_fourth_le_iff m q e (4 * m + 2) c)
  have hcast : ((4 * m + 2 : Nat) : ℚ) = 4 * m + 2 := by push_cast; rfl
  rw [hcast] at hhigh hhigh'
  rw [Nat.not_le, not_le] at hlow' hhigh'
  unfold readsBack
  change (if m % 2 = 0 then decide (lowMark m q * _ ≤ _ ∧ _ ≤ (4 * m + 2) * _)
    else decide (lowMark m q * _ < _ ∧ _ < (4 * m + 2) * _)) = true ↔ _
  split
  · rename_i heven
    rw [decide_eq_true_iff, hlow, hhigh]
    constructor
    · rintro ⟨hlow, hhigh⟩
      exact ⟨hlow, hhigh, by omega⟩
    · intro h
      exact ⟨h.low, h.high⟩
  · rename_i hodd
    rw [decide_eq_true_iff, hlow', hhigh']
    constructor
    · rintro ⟨hlow, hhigh⟩
      exact ⟨hlow.le, hhigh.le, fun _ => ⟨hlow, hhigh⟩⟩
    · intro h
      exact h.odd (by omega)

/-- The multiple of a step that is not above a float, and the next one, enclose it. -/
theorem floor_spec
    (m : Nat) (q e : Int) :
  Decimal.value ⟨(beside m q e).floor, e⟩ ≤ 4 * m * 2 ^ (q - 2)
    ∧ 4 * m * 2 ^ (q - 2) < Decimal.value ⟨(beside m q e).floor + 1, e⟩
  := by
  have hle := Nat.div_mul_le_self (4 * m * (beside m q e).fourth) (beside m q e).step
  have hlt : 4 * m * (beside m q e).fourth
      < (beside m q e).floor * (beside m q e).step + (beside m q e).step :=
    Nat.lt_div_mul_add (step_pos m q e)
  have hcast : ((4 * m : Nat) : ℚ) = 4 * m := by push_cast; rfl
  constructor
  · rw [← hcast, ← mul_step_le_iff]
    apply hle
  · rw [← hcast, ← not_le, ← mul_step_le_iff, Nat.not_le, Nat.add_mul, Nat.one_mul]
    apply hlt

/-- One of the two multiples around a float reads back when the steps are small. -/
theorem readsBack_floor {m : Nat} {q e : Int} (hm : Canonical m q)
    (hstep : (10 : ℚ) ^ e * 10 ^ 16 ≤ 4 * m * 2 ^ (q - 2)) :
  (beside m q e).readsBack (beside m q e).floor
    ∨ (beside m q e).readsBack ((beside m q e).floor + 1)
  := by
  rw [readsBack_iff, readsBack_iff]
  obtain ⟨hle, hlt⟩ := floor_spec m q e
  generalize (beside m q e).floor = c at *
  have hnext : Decimal.value ⟨c + 1, e⟩ = Decimal.value ⟨c, e⟩ + 10 ^ e := by
    simp only [value]
    push_cast
    ring
  rw [hnext] at hlt ⊢
  generalize Decimal.value ⟨c, e⟩ = v at *
  generalize (10 : ℚ) ^ e = s at *
  have hquarter : (0 : ℚ) < 2 ^ (q - 2) := by positivity
  generalize hu : (2 : ℚ) ^ (q - 2) = u at *
  obtain ⟨rfl, -, hmark⟩ | ⟨-, hmark⟩ := lowMark_cases m q
  · have hmark : (lowMark hiddenBit q : ℚ) = 4 * hiddenBit - 1 := by
      rw [hmark]
      norm_num [hiddenBit]
    have hsmall : s < 2 * u := by
      norm_num [hiddenBit] at hstep
      linarith
    right
    have hlow : lowMark hiddenBit q * u < v + s := by
      rw [hmark]
      linarith
    have hhigh : v + s < (4 * hiddenBit + 2) * u := by linarith
    rw [← hu] at hlow hhigh
    exact ⟨hlow.le, hhigh.le, fun _ => ⟨hlow, hhigh⟩⟩
  · have hmpos := hm.pos
    have hmark : (lowMark m q : ℚ) = 4 * m - 2 := by
      rw [hmark]
      push_cast [show 2 ≤ 4 * m by omega]
      ring
    have hsmall : s < 4 * u := by
      have hlt : (m : ℚ) * u ≤ 2 ^ 53 * u := by
        rw [mul_le_mul_iff_left₀ hquarter]
        exact_mod_cast hm.lt.le
      linarith
    by_cases hlow : lowMark m q * u < v
    · left
      have hhigh : v < (4 * m + 2) * u := by linarith
      rw [← hu] at hlow hhigh
      exact ⟨hlow.le, hhigh.le, fun _ => ⟨hlow, hhigh⟩⟩
    · right
      have hhigh : v + s < (4 * m + 2) * u := by
        rw [hmark] at hlow
        linarith
      have hlow : lowMark m q * u < v + s := by
        rw [hmark]
        linarith
      rw [← hu] at hlow hhigh
      exact ⟨hlow.le, hhigh.le, fun _ => ⟨hlow, hhigh⟩⟩

/-- What a grid finds reads back. -/
theorem readsBack_of_nearest? {g : Grid} {tie : Tie} {c : Nat} (h : g.nearest? tie = some c) :
  g.readsBack c
  := by
  unfold nearest? at h
  dsimp only at h
  split at h
  · cases h
  · obtain rfl := Option.some.inj h
    assumption
  · obtain rfl := Option.some.inj h
    assumption
  · rename_i hfloor hnext
    split_ifs at h
    · obtain rfl := Option.some.inj h
      apply hfloor
    · obtain rfl := Option.some.inj h
      apply hnext
    · cases tie with
      | up =>
        obtain rfl := Option.some.inj h
        apply hnext
      | toEven =>
        obtain rfl := Option.some.inj h
        obtain heven | hodd := Nat.mod_two_eq_zero_or_one g.floor
        · rwa [heven]
        · rwa [hodd]

theorem isSome_nearest? {g : Grid} (tie : Tie)
    (h : g.readsBack g.floor ∨ g.readsBack (g.floor + 1)) :
  (g.nearest? tie).isSome
  := by
  unfold nearest?
  dsimp only
  split
  · rename_i hfloor hnext
    rw [hfloor, hnext] at h
    simp at h
  · rfl
  · rfl
  · split_ifs
    · rfl
    · rfl
    · cases tie <;> rfl

end Grid

/-! ### Shortest decimals -/

/-- The first digit of a float stands at the power of ten with which the search begins. -/
theorem first_digit_le {m : Nat} (hm : 0 < m) (q : Int) :
  (10 : ℚ) ^ floorLog10 (4 * m * power 2 (q - 2)) (power 2 (2 - q)) ≤ 4 * m * 2 ^ (q - 2)
  := by
  have hnumerator : 0 < 4 * m * power 2 (q - 2) :=
    Nat.mul_pos (by omega) (power_pos (by decide) _)
  have h := floorLog10_spec hnumerator (power_pos (by decide : 0 < 2) (2 - q))
  have hpower := power_div_power 2 (q - 2)
  rw [neg_sub] at hpower
  push_cast at h hpower
  rwa [mul_div_assoc, hpower] at h

/-- The shortest decimal of a float is near to it. -/
theorem near_shortest {m : Nat} {q : Int} (tie : Tie) (hm : Canonical m q) :
  Near (shortest tie m q).value m q
  := by
  have hfirst := first_digit_le hm.pos q
  unfold shortest
  dsimp only
  generalize floorLog10 (4 * m * power 2 (q - 2)) (power 2 (2 - q)) = first at *
  generalize hfound : (List.range 17).findSome? _ = found
  cases found with
  | some d =>
    obtain ⟨places, -, hd⟩ := List.exists_of_findSome?_eq_some hfound
    obtain ⟨c, hc, rfl⟩ := Option.map_eq_some_iff.mp hd
    have hback := Grid.readsBack_of_nearest? hc
    rw [Grid.readsBack_iff] at hback
    rw [Option.getD_some, value_stripZeros]
    apply hback
  | none =>
    -- seventeen digits are found at the latest
    have hlast := List.findSome?_eq_none_iff.mp hfound 16 (by decide)
    have hpower : (10 : ℚ) ^ (first - (16 : Nat)) * 10 ^ 16 = 10 ^ first := by
      rw [← zpow_natCast, ← zpow_add₀ (by norm_num), sub_add_cancel]
    have hsome := Grid.isSome_nearest? tie (Grid.readsBack_floor hm (hpower.symm ▸ hfirst))
    rw [Option.map_eq_none_iff.mp hlast] at hsome
    cases hsome

end Decimal

/-! ### Positional texts -/

/-- A text that is digits, a point and digits. -/
structure IsPlainDecimal (text whole fraction : List Char) : Prop where
  eq : text = whole ++ '.' :: fraction
  areDigits_whole : AreDigits whole
  whole_ne_nil : whole ≠ []
  areDigits_fraction : AreDigits fraction
  fraction_ne_nil : fraction ≠ []

/-- A float that is not negative is written without a sign. -/
theorem FloatNotation.toList_write {x : Float} {m : Nat} {q : Int} (n : FloatNotation)
    (h : ofFloat x = .finite false m q) :
  (n.write x).toList
    = if m = 0 then n.writePositional ['0'] 0 else n.writeDecimal (Decimal.shortest n.tie m q)
  := by
  rw [write, h]
  apply String.toList_ofList

/-- Digits written positionally are a number with a fraction, and that number. -/
theorem FloatNotation.writePositional_spec {n : FloatNotation} {digits : List Char}
    (hn : n.keepsFraction) (hdigits : AreDigits digits) (hne : digits ≠ []) (e : Int) :
  ∃ whole fraction, IsPlainDecimal (n.writePositional digits e) whole fraction
    ∧ (Decimal.ofDigits whole fraction 0).value = Decimal.value ⟨digitsValue digits, e⟩
  := by
  unfold writePositional
  dsimp only
  split
  · rename_i he
    obtain ⟨k, rfl⟩ := Int.eq_ofNat_of_zero_le he
    refine ⟨digits ++ List.replicate k '0', ['0'], ⟨?_, ?_, ?_, ?_, ?_⟩, ?_⟩
    · simp
    · apply hdigits.append (areDigits_replicate_zero k)
    · simp [hne]
    · apply areDigits_replicate_zero 1
    · simp
    · have hzero : digitsValue ['0'] = 0 := rfl
      simp only [Decimal.ofDigits, Decimal.value, digitsValue_append, digitsValue_replicate_zero,
        hzero, List.length_replicate, List.length_singleton]
      norm_num
      ring
  · rename_i he
    obtain ⟨k, hk⟩ := Int.eq_ofNat_of_zero_le (by omega : 0 ≤ -e)
    obtain rfl : e = -k := by omega
    rw [neg_neg, Int.toNat_natCast]
    split
    · rename_i hshort
      refine ⟨digits.take (digits.length - k), digits.drop (digits.length - k),
        ⟨rfl, ?_, ?_, ?_, ?_⟩, ?_⟩
      · exact fun c hc => hdigits c (List.mem_of_mem_take hc)
      · simp [hne]
        omega
      · exact fun c hc => hdigits c (List.mem_of_mem_drop hc)
      · simp
        omega
      · rw [Decimal.ofDigits, List.take_append_drop, List.length_drop, Int.zero_sub]
        congr 3
        omega
    · rename_i hlong
      refine ⟨['0'], List.replicate (k - digits.length) '0' ++ digits,
        ⟨rfl, ?_, ?_, ?_, ?_⟩, ?_⟩
      · apply areDigits_replicate_zero 1
      · simp
      · exact (areDigits_replicate_zero _).append hdigits
      · simp [hne]
      · have hzero : digitsValue ['0'] = 0 := rfl
        rw [Decimal.ofDigits, List.length_append, List.length_replicate, Int.zero_sub,
          Nat.sub_add_cancel (Nat.le_of_not_lt hlong), digitsValue_append, hzero,
          digitsValue_append, digitsValue_replicate_zero]
        simp

/-- A number with a fraction is rounded to the nearest float. -/
theorem readDecimal_plain {text whole fraction : List Char}
    (h : IsPlainDecimal text whole fraction)
    (hfinite : ((Decimal.ofDigits whole fraction 0).toFloat false).isFinite) :
  Lexeme.readDecimal text = .ok ((Decimal.ofDigits whole fraction 0).toFloat false)
  := by
  have hwhole : (whole ++ '.' :: fraction).takeWhile Char.isDigit = whole :=
    takeWhile_append_of_head h.areDigits_whole (by rintro c ⟨⟩; decide)
  have hrest : (whole ++ '.' :: fraction).drop (whole.length + 1) = fraction := by
    rw [List.drop_length_add_append]
    rfl
  have hfraction : fraction.takeWhile Char.isDigit = fraction := by
    have htaken : (fraction ++ []).takeWhile Char.isDigit = fraction :=
      takeWhile_append_of_head h.areDigits_fraction (by rintro c ⟨⟩)
    rwa [List.append_nil] at htaken
  have hexponent : fraction.drop (fraction.length + 1) = [] := by simp
  rw [h.eq]
  unfold Lexeme.readDecimal
  dsimp only
  rw [hwhole, hrest, hfraction, hexponent]
  apply if_pos hfinite

/-- A float that a decimal is rounded to is infinite or has the bits of a finite one. -/
theorem exists_signed_of_toFloat
    (d : Decimal) :
  ∃ b ≤ infinityBits, d.toFloat false = signed false b
  := by
  unfold Decimal.toFloat
  dsimp only
  split_ifs
  · exact ⟨0, Nat.zero_le _, rfl⟩
  · exact ⟨infinityBits, Nat.le_refl _, rfl⟩
  · unfold ofFraction
    split_ifs
    · exact ⟨0, Nat.zero_le _, rfl⟩
    · exact ⟨_, Nat.min_le_right _ _, rfl⟩

/-- A float that is read from a text is finite and not negative. -/
theorem exists_signed_of_readDecimal {text : List Char} {x : Float}
    (h : Lexeme.readDecimal text = .ok x) :
  x.isFinite ∧ ∃ b < infinityBits, x = signed false b
  := by
  unfold Lexeme.readDecimal at h
  dsimp only at h
  generalize hy : Decimal.toFloat false _ = y at h
  obtain ⟨b, hle, hb⟩ := exists_signed_of_toFloat (Decimal.ofDigits _ _ _)
  rw [hy] at hb
  split_ifs at h with hfinite
  obtain rfl := Except.ok.inj h
  rw [hb] at hfinite ⊢
  refine ⟨hfinite, b, lt_of_le_of_ne hle ?_, rfl⟩
  rintro rfl
  revert hfinite
  decide

/-- A float that is read from a text is also read from the text that is written for it. -/
theorem exists_readDecimal_write {text : List Char} {x : Float}
    (h : Lexeme.readDecimal text = .ok x) :
  ∃ whole fraction, IsPlainDecimal (FloatNotation.fractional.write x).toList whole fraction
    ∧ Lexeme.readDecimal (whole ++ '.' :: fraction) = .ok x
  := by
  obtain ⟨hfinite, b, hb, rfl⟩ := exists_signed_of_readDecimal h
  obtain ⟨m, q, hfloat, hbits, hzero | hm⟩ := ofFloat_signed hb
  · obtain ⟨rfl, rfl⟩ := hzero
    have hwrite := FloatNotation.fractional.toList_write hfloat
    have hplain : IsPlainDecimal ['0', '.', '0'] ['0'] ['0'] :=
      ⟨rfl, areDigits_replicate_zero 1, by decide, areDigits_replicate_zero 1, by decide⟩
    exact ⟨['0'], ['0'], hwrite ▸ hplain, readDecimal_plain hplain hfinite⟩
  · generalize hd : Decimal.shortest .up m q = d
    have hnear := Decimal.near_shortest .up hm
    obtain ⟨whole, fraction, hplain, hvalue⟩ := FloatNotation.fractional.writePositional_spec rfl
      (Decimal.areDigits_digitsOf d.coefficient) (Decimal.digitsOf_ne_nil _) d.exponent
    have hread : (Decimal.ofDigits whole fraction 0).toFloat false = signed false b := by
      rw [hbits]
      apply Decimal.toFloat_eq hm
      rw [hvalue, Decimal.digitsValue_digitsOf]
      apply hd ▸ hnear
    have hwrite := FloatNotation.fractional.toList_write hfloat
    rw [if_neg hm.pos.ne'] at hwrite
    change _ = FloatNotation.fractional.writeDecimal (Decimal.shortest .up m q) at hwrite
    rw [hd] at hwrite
    rw [← hread] at hfinite
    have hok := readDecimal_plain ⟨rfl, hplain.2, hplain.3, hplain.4, hplain.5⟩ hfinite
    rw [hread] at hok
    exact ⟨whole, fraction, hwrite ▸ hplain, hok⟩

end RuleLang
