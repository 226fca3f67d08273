import ExposureControl.Proofs.ClipRange

/-!
# Quotients of words

A word becomes a normal binary64 value, so it is neither zero nor infinite unless it is the word
zero.  The quotient of two words is therefore defined wherever the divisor is not zero, and a
defined value that does not reach a bound lies below it.
-/

namespace ExposureControl.Binary64

open Float.Model Float.Model.UnpackedFloat

/-! ## Rounding to a normal value -/

/-- A mantissa and an exponent that binary64 holds with its implicit bit, and far from the ends of
the range of exponents. -/
structure Normal (mantissa : Nat) (exponent : Int) : Prop where
  le_mantissa : 2 ^ 52 ≤ mantissa
  mantissa_lt : mantissa < 2 ^ 53
  le_exponent : -52 ≤ exponent
  exponent_le : exponent ≤ 12

theorem mantissa_shiftRight (extended : ExtendedMantissa) (amount : Nat) :
    (extended >>> amount).mantissa = extended.mantissa / 2 ^ amount := by
  induction amount with
  | zero => exact (Nat.div_one extended.mantissa).symm
  | succ amount ih =>
    calc (extended >>> (amount + 1)).mantissa
        = (extended >>> amount).mantissa / 2 := rfl
      _ = extended.mantissa / 2 ^ (amount + 1) := by
          rw [ih, Nat.div_div_eq_div_mul, Nat.pow_succ]

theorem roundedMantissa_bounds (extended : ExtendedMantissa) :
    extended.mantissa ≤ extended.roundedMantissa ∧
      extended.roundedMantissa ≤ extended.mantissa + 1 := by
  obtain ⟨mantissa, roundBit, stickyBit⟩ := extended
  simp only [ExtendedMantissa.roundedMantissa, ExtendedMantissa.accuracy,
    Accuracy.roundToNearestEven]
  cases roundBit <;> cases stickyBit <;> dsimp only <;> omega

theorem shiftToTargetExponent_of_le_log2 {mantissa : Nat} {exponent : Int}
    (hbits : 52 ≤ mantissa.log2) (hexponent : -52 ≤ exponent) :
    let shifted := shiftToTargetExponent Format.binary64 mantissa exponent .exact
    2 ^ 52 ≤ shifted.1.mantissa ∧ shifted.1.mantissa < 2 ^ 53 ∧
      shifted.2 = exponent + (mantissa.log2 - 52 : Nat) := by
  have hpositive : mantissa ≠ 0 := by
    rintro rfl
    cases hbits
  have hamount : (Format.binary64.targetExponent (totalExponent mantissa exponent) -
      exponent).toNat = mantissa.log2 - 52 := by
    simp only [Format.targetExponent, totalExponent, Format.mantissaBits, Format.minExponent]
    norm_num
    omega
  have hpow : 2 ^ 52 * 2 ^ (mantissa.log2 - 52) = 2 ^ mantissa.log2 := by
    rw [← Nat.pow_add, Nat.add_sub_cancel' hbits]
  simp only [shiftToTargetExponent, shiftToExponent, hamount, mantissa_shiftRight,
    ExtendedMantissa.ofMantissaAndAccuracy, and_true]
  constructor
  · apply (Nat.le_div_iff_mul_le (Nat.two_pow_pos _)).mpr
    rw [hpow]
    exact Nat.log2_self_le hpositive
  · apply (Nat.div_lt_iff_lt_mul (Nat.two_pow_pos _)).mpr
    calc mantissa < 2 ^ (mantissa.log2 + 1) := Nat.lt_log2_self
      _ = 2 * (2 ^ 52 * 2 ^ (mantissa.log2 - 52)) := by rw [hpow, Nat.pow_succ, Nat.mul_comm]
      _ = 2 ^ 53 * 2 ^ (mantissa.log2 - 52) := by rw [← Nat.mul_assoc]; rfl

/-- Rounding a mantissa of at least 53 bits gives a normal value. -/
theorem roundWithAccuracy_of_le_log2 (sign : Sign) {mantissa : Nat} {exponent : Int}
    (hbits : 52 ≤ mantissa.log2) (hexponent : -52 ≤ exponent)
    (hsize : exponent + mantissa.log2 ≤ 63) :
    ∃ rounded power, ∃ hpos : 0 < rounded, Normal rounded power ∧
      roundWithAccuracy Format.binary64 sign mantissa exponent .exact =
        .finite sign rounded power hpos := by
  obtain ⟨hlow, hhigh, hfirst⟩ := shiftToTargetExponent_of_le_log2 hbits hexponent
  have hbounds := roundedMantissa_bounds
    (shiftToTargetExponent Format.binary64 mantissa exponent .exact).1
  unfold roundWithAccuracy
  dsimp only
  generalize (shiftToTargetExponent Format.binary64 mantissa exponent .exact).1 = extended at *
  generalize (shiftToTargetExponent Format.binary64 mantissa exponent .exact).2 = power at *
  -- rounding up may have made a mantissa of 54 bits, which the second shift takes back
  have hrounded : extended.roundedMantissa ≠ 0 := by omega
  have hatLeast : 52 ≤ extended.roundedMantissa.log2 :=
    (Nat.le_log2 hrounded).mpr (hlow.trans hbounds.1)
  have hatMost : extended.roundedMantissa.log2 < 54 := (Nat.log2_lt hrounded).mpr (by omega)
  have hpower : -52 ≤ power := by omega
  obtain ⟨hlow', hhigh', hsecond⟩ := shiftToTargetExponent_of_le_log2 hatLeast hpower
  generalize shiftToTargetExponent Format.binary64 extended.roundedMantissa power .exact =
    shifted at *
  have hpos : 0 < shifted.1.mantissa := by omega
  refine ⟨shifted.1.mantissa, shifted.2, hpos, ⟨hlow', hhigh', by omega, by omega⟩, ?_⟩
  exact dif_neg (Nat.ne_of_gt hpos)

theorem log2_shiftLeft {count : Nat} (hnonzero : count ≠ 0) (amount : Nat) :
    (count <<< amount).log2 = count.log2 + amount := by
  induction amount with
  | zero => rfl
  | succ amount ih =>
    have hshifted : count <<< amount ≠ 0 :=
      Nat.ne_of_gt (Nat.shiftLeft_pos_iff.mpr (Nat.pos_of_ne_zero hnonzero))
    rw [Nat.shiftLeft_succ, Nat.log2_two_mul hshifted, ih, Nat.add_assoc]

theorem ofNat_normal {count : Nat} (hpos : 0 < count) (hword : count < Word64.size) :
    ∃ rounded power, ∃ hrounded : 0 < rounded, Normal rounded power ∧
      UnpackedFloat.ofNat Format.binary64 count = .finite .positive rounded power hrounded := by
  have hnonzero : count ≠ 0 := Nat.ne_of_gt hpos
  have hbits : count.log2 < 64 := (Nat.log2_lt hnonzero).mpr hword
  have htarget : (0 - Format.binary64.targetExponent (totalExponent count 0)).toNat =
      52 - count.log2 := by
    simp only [Format.targetExponent, totalExponent, Format.mantissaBits, Format.minExponent]
    norm_num
    omega
  have hlog := log2_shiftLeft hnonzero (52 - count.log2)
  have hround : UnpackedFloat.ofNat Format.binary64 count =
      roundWithAccuracy Format.binary64 .positive (count <<< (52 - count.log2))
        (0 - (52 - count.log2 : Nat)) .exact := by
    have hcompare : compare (count : Int) 0 = .gt := compare_gt_iff_gt.mpr (by omega)
    simp only [UnpackedFloat.ofNat, UnpackedFloat.ofInt, UnpackedFloat.normalize, hcompare,
      UnpackedFloat.round, decreaseExponent, Int.toNat_natCast, htarget]
  rw [hround]
  apply roundWithAccuracy_of_le_log2 <;> omega

/-! ## Words -/

/-- A normal value keeps being finite when it is packed. -/
theorem unpack_pack_of_normal (sign : Sign) {mantissa : Nat} {exponent : Int}
    (hpos : 0 < mantissa) (hnormal : Normal mantissa exponent) :
    ∃ found power, ∃ hfound : 0 < found,
      (Float.Model.pack (.finite sign mantissa exponent hpos)).unpack =
        .finite sign found power hfound := by
  have hlog : mantissa.log2 = 52 :=
    (Nat.log2_eq_iff (Nat.ne_of_gt hpos)).mpr ⟨hnormal.le_mantissa, hnormal.mantissa_lt⟩
  have hle := hnormal.le_exponent
  have hge := hnormal.exponent_le
  have hfield : (exponent + Format.binary64.exponentBias +
      Format.binary64.mantissaBitsWithoutImplicit).toNat = (exponent + 1075).toNat := by
    simp only [Format.exponentBias]
    norm_num
    omega
  have hexponent : (BitVec.ofNat 11 (exponent + 1075).toNat).toNat = (exponent + 1075).toNat := by
    rw [BitVec.toNat_ofNat, Nat.mod_eq_of_lt (by omega)]
  have hnotTop : BitVec.ofNat 11 (exponent + 1075).toNat ≠ -1#_ := by
    intro htop
    rw [htop, BitVec.neg_one_eq_allOnes, BitVec.toNat_allOnes] at hexponent
    omega
  have hnotZero : BitVec.ofNat 11 (exponent + 1075).toNat ≠ 0#_ := by
    intro hzero
    rw [hzero, BitVec.toNat_ofNat] at hexponent
    omega
  have hpacked : UnpackedFloat.pack Format.binary64 (.finite sign mantissa exponent hpos) =
      packComponents Format.binary64 sign (BitVec.ofNat 11 (exponent + 1075).toNat)
        (BitVec.ofNat 52 mantissa) := by
    have hbits : 52 + 1 = Format.binary64.mantissaBits := rfl
    simp only [UnpackedFloat.pack, hfield, hlog]
    rw [if_neg (by omega), if_pos hbits]
  change ∃ found power, ∃ hfound, UnpackedFloat.unpack Format.binary64
    (UnpackedFloat.pack Format.binary64 (.finite sign mantissa exponent hpos)) = _
  rw [hpacked]
  simp only [UnpackedFloat.unpack, unpackExponent_packComponents, unpackSign_packComponents,
    if_neg hnotTop, if_neg hnotZero]
  have himplicit (bits : BitVec 52) : 0 < (1#1 ++ bits).toNat := by
    rw [BitVec.toNat_append]
    exact Nat.lt_of_lt_of_le (by decide) Nat.left_le_or
  cases sign <;> exact ⟨_, _, himplicit _, rfl⟩

theorem unpack_ofNat {count : Nat} (hpos : 0 < count) (hword : count < Word64.size) :
    ∃ mantissa exponent, ∃ hmantissa : 0 < mantissa,
      (ofNat count).toModel.unpack = .finite .positive mantissa exponent hmantissa := by
  obtain ⟨rounded, power, hrounded, hnormal, hround⟩ := ofNat_normal hpos hword
  have hcount : count.toUInt64.toNat = count := Nat.mod_eq_of_lt hword
  have hmodel : (ofNat count).toModel =
      Float.Model.pack (UnpackedFloat.ofNat Format.binary64 count.toUInt64.toNat) := by
    rw [ofNat, if_pos hword]
    rfl
  rw [hmodel, hcount, hround]
  exact unpack_pack_of_normal .positive hrounded hnormal

theorem sign?_div_ofNat {count total : Nat} (hcount : count < Word64.size) (hpos : 0 < total)
    (htotal : total < Word64.size) :
    sign? (ofNat count / ofNat total).toModel.unpack = some .positive := by
  obtain ⟨divisor, divisorPower, hdivisor, hunpacked⟩ := unpack_ofNat hpos htotal
  apply sign?_unpack_pack
  rw [hunpacked]
  cases Nat.eq_zero_or_pos count with
  | inl hzero =>
    subst hzero
    rfl
  | inr hsome =>
    obtain ⟨dividend, dividendPower, hdividend, hcounted⟩ := unpack_ofNat hsome hcount
    rw [hcounted]
    simp only [UnpackedFloat.div, roundWithAccuracy]
    split <;> rfl

/-! ## Order -/

theorem compare_comm (left right : UnpackedFloat) :
    right.compare left = (left.compare right).map Ordering.swap := by
  have hpairs (e₁ e₂ : Int) (m₁ m₂ : Nat) :
      (compare e₂ e₁).then (compare m₂ m₁) = ((compare e₁ e₂).then (compare m₁ m₂)).swap := by
    rw [Ordering.swap_then, ← Std.OrientedOrd.eq_swap, ← Std.OrientedOrd.eq_swap]
  cases left with
  | notANumber => cases right <;> rfl
  | infinity leftSign | zero leftSign =>
    cases right with
    | notANumber => cases leftSign <;> rfl
    | infinity rightSign | zero rightSign | finite rightSign =>
      cases leftSign <;> cases rightSign <;> rfl
  | finite leftSign m₁ e₁ =>
    cases right with
    | notANumber => rfl
    | infinity rightSign | zero rightSign => cases leftSign <;> cases rightSign <;> rfl
    | finite rightSign m₂ e₂ =>
      cases leftSign <;> cases rightSign <;>
        simp only [UnpackedFloat.compare, Option.map_some, hpairs e₁ e₂ m₁ m₂, Ordering.swap]

theorem exists_compare {left right : UnpackedFloat} {leftSign rightSign : Sign}
    (hleft : sign? left = some leftSign) (hright : sign? right = some rightSign) :
    ∃ order, left.compare right = some order := by
  cases left with
  | notANumber => cases hleft
  | infinity sign | zero sign | finite sign =>
    cases right with
    | notANumber => cases hright
    | infinity other | zero other | finite other =>
      cases sign <;> cases other <;> exact ⟨_, rfl⟩

theorem lt_of_not_le {x y : Float} {xSign ySign : Sign}
    (hx : sign? x.toModel.unpack = some xSign) (hy : sign? y.toModel.unpack = some ySign)
    (hnot : ¬ x ≤ y) : y < x := by
  obtain ⟨order, hcompare⟩ := exists_compare hx hy
  have hgreater : order = .gt := by
    have hle : ¬ x.toModel.unpack.le y.toModel.unpack = true := fun hle =>
      hnot (decide_eq_true hle)
    rw [UnpackedFloat.le, hcompare] at hle
    cases order with
    | gt => rfl
    | lt | eq => exact absurd rfl hle
  have hlt : y.toModel.unpack.lt x.toModel.unpack = true := by
    rw [UnpackedFloat.lt, compare_comm, hcompare, hgreater]
    rfl
  exact decide_eq_true hlt

end ExposureControl.Binary64
