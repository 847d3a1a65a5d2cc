import Mathlib.Algebra.Group.Nat.Defs

/-!
# Bits of floats

What the bits of a float say is told by the exponent in them.  The least one is that of zeros and
of subnormal floats, and the greatest one that of infinities and NaN; all others are those of
normal floats, whose mantissa has a hidden bit in front.  Finite floats are unpacked from the bits
into which they are packed, and the other way around.
-/

namespace RuleLang

open Float.Model Float.Model.UnpackedFloat

/-! ### Fields -/

theorem unpackSign_packComponents
    {spec : Format} {s : Sign} {exponent : BitVec spec.exponentBits}
    {mantissa : BitVec spec.mantissaBitsWithoutImplicit} :
  Sign.ofBitVec (unpackSign (packComponents spec s exponent mantissa)) = s
  := by
  have hsign : unpackSign (packComponents spec s exponent mantissa) = s.toBitVec := by
    unfold unpackSign packComponents
    ext i hi
    obtain rfl : i = 0 := Nat.lt_one_iff.mp hi
    simp [BitVec.getLsbD_append, BitVec.getElem_append]
  rw [hsign]
  cases s <;> rfl

/-- A bit pattern is put together from its sign, its exponent and its mantissa. -/
theorem packComponents_unpack
    (b : BitVec Format.binary64.numBits) :
  packComponents Format.binary64 (.ofBitVec (unpackSign b)) (unpackExponent b)
    (unpackMantissa b) = b
  := by
  have hsign : ∀ s : BitVec 1, (Sign.ofBitVec s).toBitVec = s := by decide
  rw [packComponents, hsign]
  unfold unpackSign unpackExponent unpackMantissa BitVec.extractLsb
  ext i hi
  simp only [BitVec.getElem_append, BitVec.getElem_cast, BitVec.getElem_extractLsb']
  rw [← BitVec.getLsbD_eq_getElem hi]
  split
  · rw [Nat.zero_add]
  · split
    · rw [Nat.add_sub_cancel' (by omega)]
    · rw [Nat.sub_sub, Nat.add_sub_cancel' (by omega)]

/-- The hidden bit stands in front of the others. -/
theorem toNat_hidden_append
    (mantissa : BitVec 52) :
  (1#1 ++ mantissa).toNat = 2 ^ 52 + mantissa.toNat
  := by
  rw [BitVec.toNat_append, ← Nat.shiftLeft_add_eq_or_of_lt mantissa.isLt]
  rfl

/-! ### Unpacking -/

section

variable {b : BitVec Format.binary64.numBits}

theorem unpack_zero (hexponent : unpackExponent b = 0#_) (hmantissa : unpackMantissa b = 0#_) :
  UnpackedFloat.unpack Format.binary64 b = .zero (.ofBitVec (unpackSign b))
  := by
  have htop : unpackExponent b ≠ -1#_ := by
    rw [hexponent]
    decide
  unfold UnpackedFloat.unpack
  dsimp only
  rw [if_neg htop, if_pos hexponent, dif_pos hmantissa]

theorem unpack_subnormal (hexponent : unpackExponent b = 0#_)
    (h : 0 < (unpackMantissa b).toNat) :
  UnpackedFloat.unpack Format.binary64 b
    = .finite (.ofBitVec (unpackSign b)) (unpackMantissa b).toNat (-1074) h
  := by
  have htop : unpackExponent b ≠ -1#_ := by
    rw [hexponent]
    decide
  have hmantissa : unpackMantissa b ≠ 0#_ := by
    intro hzero
    rw [hzero] at h
    exact Nat.lt_irrefl 0 h
  unfold UnpackedFloat.unpack
  dsimp only
  rw [if_neg htop, if_pos hexponent, dif_neg hmantissa, finite.injEq, hexponent]
  exact ⟨rfl, rfl, rfl⟩

theorem unpack_normal (htop : unpackExponent b ≠ -1#_) (hexponent : unpackExponent b ≠ 0#_)
    (h : 0 < (1#1 ++ unpackMantissa b).toNat) :
  UnpackedFloat.unpack Format.binary64 b
    = .finite (.ofBitVec (unpackSign b)) (1#1 ++ unpackMantissa b).toNat
      ((unpackExponent b).toNat - (Format.binary64.exponentBias + 52)) h
  := by
  unfold UnpackedFloat.unpack
  dsimp only
  rw [if_neg htop, if_neg hexponent]
  rfl

/-- Bits with the greatest exponent are those of no finite float. -/
theorem isFinite_unpack_of_top (htop : unpackExponent b = -1#_) :
  (UnpackedFloat.unpack Format.binary64 b).isFinite = false
  := by
  unfold UnpackedFloat.unpack
  dsimp only
  rw [if_pos htop]
  by_cases hmantissa : unpackMantissa b = 0#_
  · rw [if_pos hmantissa]
    rfl
  · rw [if_neg hmantissa]
    rfl

/-- Bits with another exponent are those of a zero, or of a float whose exponent is in range. -/
theorem unpack_cases (htop : unpackExponent b ≠ -1#_) :
  (∃ s, UnpackedFloat.unpack Format.binary64 b = .zero s)
    ∨ ∃ s m e h, UnpackedFloat.unpack Format.binary64 b = .finite s m e h ∧ e ≤ 971
  := by
  by_cases hexponent : unpackExponent b = 0#_
  · by_cases hmantissa : unpackMantissa b = 0#_
    · exact .inl ⟨_, unpack_zero hexponent hmantissa⟩
    · have h : 0 < (unpackMantissa b).toNat :=
        Nat.pos_of_ne_zero fun hzero => hmantissa (BitVec.eq_of_toNat_eq hzero)
      exact .inr ⟨_, _, _, h, unpack_subnormal hexponent h, by decide⟩
  · have h : 0 < (1#1 ++ unpackMantissa b).toNat := by
      rw [toNat_hidden_append]
      omega
    refine .inr ⟨_, _, _, h, unpack_normal htop hexponent h, ?_⟩
    have hbias : (Format.binary64.exponentBias : Int) = 1023 := rfl
    have hlt : (unpackExponent b).toNat < 2048 := (unpackExponent b).isLt
    have hne : (unpackExponent b).toNat ≠ 2047 := fun h => htop (BitVec.eq_of_toNat_eq h)
    omega

end

/-! ### Packing -/

/-- A subnormal float has no exponent in its bits. -/
theorem pack_subnormal {s : Sign} {mantissa : BitVec 52} (h : 0 < mantissa.toNat) :
  UnpackedFloat.pack Format.binary64 (.finite s mantissa.toNat (-1074) h)
    = packComponents Format.binary64 s 0#11 mantissa
  := by
  have hlog : mantissa.toNat.log2 < 52 := (Nat.log2_lt (Nat.ne_of_gt h)).mpr mantissa.isLt
  have hsubnormal : ¬mantissa.toNat.log2 + 1 = Format.binary64.mantissaBits := by
    change ¬mantissa.toNat.log2 + 1 = 53
    omega
  unfold UnpackedFloat.pack
  dsimp only
  rw [if_neg (by decide), if_neg hsubnormal, BitVec.ofNat_toNat, BitVec.setWidth_eq]

/-- A normal float has its exponent in its bits, and its mantissa without the hidden bit. -/
theorem pack_normal {s : Sign} {m : Nat} {e : Int} {exponent : BitVec 11} {mantissa : BitVec 52}
    (htop : exponent ≠ -1#11) (h : 0 < m) (hm : (1#1 ++ mantissa).toNat = m)
    (he : exponent.toNat - (Format.binary64.exponentBias + 52) = e) :
  UnpackedFloat.pack Format.binary64 (.finite s m e h)
    = packComponents Format.binary64 s exponent mantissa
  := by
  subst hm he
  have hmantissa := mantissa.isLt
  have hlog : (1#1 ++ mantissa).toNat.log2 + 1 = Format.binary64.mantissaBits := by
    rw [toNat_hidden_append]
    change _ = 52 + 1
    rw [Nat.succ_inj, Nat.log2_eq_iff (by omega)]
    omega
  have hbiased : ((exponent.toNat : Int) - (Format.binary64.exponentBias + 52)
      + Format.binary64.exponentBias + (52 : Nat)).toNat = exponent.toNat := by omega
  have hfinite : ¬2 ^ 11 ≤ exponent.toNat + 1 := by
    have hlt := exponent.isLt
    have hne : exponent.toNat ≠ 2047 := fun h => htop (BitVec.eq_of_toNat_eq h)
    omega
  have hfield : BitVec.ofNat 52 (1#1 ++ mantissa).toNat = mantissa := by
    apply BitVec.eq_of_toNat_eq
    rw [BitVec.toNat_ofNat, toNat_hidden_append, Nat.add_mod_left, Nat.mod_eq_of_lt hmantissa]
  unfold UnpackedFloat.pack
  dsimp only
  rw [if_pos hlog, hbiased, if_neg hfinite, hfield, BitVec.ofNat_toNat, BitVec.setWidth_eq]

/-- A pattern that is no NaN is packed again as it was unpacked. -/
theorem pack_unpack {b : BitVec Format.binary64.numBits} (htop : unpackExponent b ≠ -1#_) :
  UnpackedFloat.pack Format.binary64 (UnpackedFloat.unpack Format.binary64 b) = b
  := by
  have hb := packComponents_unpack b
  by_cases hexponent : unpackExponent b = 0#_
  · rw [hexponent] at hb
    by_cases hmantissa : unpackMantissa b = 0#_
    · rw [hmantissa] at hb
      rw [unpack_zero hexponent hmantissa]
      exact hb
    · have h : 0 < (unpackMantissa b).toNat :=
        Nat.pos_of_ne_zero fun hzero => hmantissa (BitVec.eq_of_toNat_eq hzero)
      rw [unpack_subnormal hexponent h]
      exact (pack_subnormal h).trans hb
  · have h : 0 < (1#1 ++ unpackMantissa b).toNat := by
      rw [toNat_hidden_append]
      omega
    rw [unpack_normal htop hexponent h]
    exact (pack_normal htop h rfl rfl).trans hb

/-- A float whose mantissa has fifty-three bits is unpacked as it was packed. -/
theorem unpack_pack
    {s : Sign} {m : Nat} {e : Int} {h : 0 < m} (hlow : 2 ^ 52 ≤ m) (hhigh : m < 2 ^ 53)
    (hleast : -1074 ≤ e) (hgreatest : e ≤ 971) :
  (Float.Model.pack (.finite s m e h)).unpack = .finite s m e h
  := by
  have hbias : (Format.binary64.exponentBias : Int) = 1023 := rfl
  let exponent : BitVec 11 := .ofNat 11 (e + 1075).toNat
  let mantissa : BitVec 52 := .ofNat 52 m
  have hexponent : exponent.toNat = (e + 1075).toNat := by
    rw [BitVec.toNat_ofNat, Nat.mod_eq_of_lt (by omega)]
  have hne (field : BitVec 11) (hfield : field.toNat ≠ (e + 1075).toNat) : exponent ≠ field := by
    rintro rfl
    exact hfield hexponent
  have htop : exponent ≠ -1#11 := hne (-1#11) (by change 2047 ≠ _; omega)
  have hzero : exponent ≠ 0#11 := hne 0#11 (by change 0 ≠ _; omega)
  have hm : (1#1 ++ mantissa).toNat = m := by
    rw [toNat_hidden_append, BitVec.toNat_ofNat]
    omega
  have he : exponent.toNat - (Format.binary64.exponentBias + 52) = e := by omega
  change UnpackedFloat.unpack .binary64 (UnpackedFloat.pack .binary64 (.finite s m e h)) = _
  rw [pack_normal htop h hm he, unpack_normal]
  · rw [finite.injEq, unpackSign_packComponents, unpackExponent_packComponents,
      unpackMantissa_packComponents]
    exact ⟨rfl, hm, he⟩
  · rw [unpackExponent_packComponents]
    exact htop
  · rw [unpackExponent_packComponents]
    exact hzero
  · rw [unpackMantissa_packComponents, hm]
    exact h

end RuleLang
