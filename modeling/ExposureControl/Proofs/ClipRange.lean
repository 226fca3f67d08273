import Mathlib
import ExposureControl.Arms.Outcome
import ExposureControl.Settings.Validity

/-!
# Signs of binary64 values

Negation turns the sign of a value over, also where the value is infinite or too small for a full
mantissa.  So a positive bound lies above its own negation, and a profit can be clipped to it.
-/

namespace ExposureControl

namespace Binary64

open Float.Model Float.Model.UnpackedFloat

/-- The sign of a value, which only an undefined value lacks. -/
def sign? : UnpackedFloat → Option Sign
  | .notANumber => none
  | .infinity sign => some sign
  | .zero sign => some sign
  | .finite sign _ _ _ => some sign

theorem unpackSign_packComponents (sign : Sign) (exponent : BitVec Format.binary64.exponentBits)
    (mantissa : BitVec Format.binary64.mantissaBitsWithoutImplicit) :
    unpackSign (packComponents Format.binary64 sign exponent mantissa) = sign.toBitVec := by
  change (sign.toBitVec ++ exponent ++ mantissa).extractLsb' 63 1 = sign.toBitVec
  rw [BitVec.extractLsb'_append_eq_of_le (by decide),
    BitVec.extractLsb'_append_eq_of_le (by decide)]
  cases sign <;> rfl

/-- Components give back their sign, unless they are those of an undefined value. -/
theorem sign?_unpack_packComponents (sign : Sign)
    {exponent : BitVec Format.binary64.exponentBits}
    {mantissa : BitVec Format.binary64.mantissaBitsWithoutImplicit}
    (hdefined : exponent = -1#_ → mantissa = 0#_) :
    sign? (UnpackedFloat.unpack Format.binary64
      (packComponents Format.binary64 sign exponent mantissa)) = some sign := by
  have hsign : Sign.ofBitVec sign.toBitVec = sign := by cases sign <;> rfl
  simp only [UnpackedFloat.unpack, unpackMantissa_packComponents, unpackExponent_packComponents,
    unpackSign_packComponents, hsign]
  split
  · next htop => rw [if_pos (hdefined htop), sign?]
  · split
    · split <;> rfl
    · rfl

theorem sign?_unpack_pack {value : UnpackedFloat} {sign : Sign} (hsign : sign? value = some sign) :
    sign? (Float.Model.pack value).unpack = some sign := by
  change sign? (UnpackedFloat.unpack Format.binary64 (UnpackedFloat.pack Format.binary64 value)) =
    some sign
  cases value with
  | notANumber => cases hsign
  | infinity =>
    obtain rfl := Option.some.inj hsign
    exact sign?_unpack_packComponents _ fun _ => rfl
  | zero =>
    obtain rfl := Option.some.inj hsign
    exact sign?_unpack_packComponents _ fun _ => rfl
  | finite _ mantissa exponent =>
    obtain rfl := Option.some.inj hsign
    simp only [UnpackedFloat.pack]
    split
    · exact sign?_unpack_packComponents _ fun _ => rfl
    · next hbelow =>
      split
      · refine sign?_unpack_packComponents _ fun htop => ?_
        -- an exponent below the top one is not the top one
        have hvalue := congrArg BitVec.toNat htop
        rw [BitVec.toNat_ofNat, BitVec.neg_one_eq_allOnes, BitVec.toNat_allOnes,
          Nat.mod_eq_of_lt (by omega)] at hvalue
        omega
      · exact sign?_unpack_packComponents _ fun htop => absurd htop (by decide)

theorem sign?_neg {value : UnpackedFloat} {sign : Sign} (hsign : sign? value = some sign) :
    sign? value.neg = some (-sign) := by
  cases value with
  | notANumber => cases hsign
  | _ =>
    obtain rfl := Option.some.inj hsign
    rfl

theorem sign?_of_zero_lt {zeroSign : Sign} {value : UnpackedFloat}
    (hpos : (UnpackedFloat.zero zeroSign).lt value = true) : sign? value = some .positive := by
  cases value with
  | notANumber | zero => cases hpos
  | infinity sign | finite sign =>
    cases sign with
    | positive => rfl
    | negative => cases hpos

theorem le_of_signs {low high : UnpackedFloat} (hlow : sign? low = some .negative)
    (hhigh : sign? high = some .positive) : low.le high = true := by
  cases low with
  | notANumber => cases hlow
  | infinity | zero | finite =>
    obtain rfl := Option.some.inj hlow
    cases high with
    | notANumber => cases hhigh
    | infinity | zero | finite =>
      obtain rfl := Option.some.inj hhigh
      rfl

theorem neg_le_self_of_pos {x : Float} (hpos : 0.0 < x) : -x ≤ x := by
  have hzero : (0.0 : Float).toModel.unpack = .zero .positive := rfl
  have habove : (0.0 : Float).toModel.unpack.lt x.toModel.unpack = true := of_decide_eq_true hpos
  rw [hzero] at habove
  have hsign := sign?_of_zero_lt habove
  have hle : (-x).toModel ≤ x.toModel := le_of_signs (sign?_unpack_pack (sign?_neg hsign)) hsign
  exact decide_eq_true hle

end Binary64

namespace Outcome

/-- Every profit can be clipped to a positive cap. -/
theorem clip_of_pos {cap : Float} (hcap : 0.0 < cap) (profit : Float) :
    clip cap profit = .ok (Binary64.confine (-cap) cap profit) :=
  if_pos (Binary64.neg_le_self_of_pos hcap)

/-- Under valid settings every trade result has an outcome. -/
theorem exists_ofTrade {settings : Settings} (hvalid : settings.Valid)
    (profit slippage fees : Option Float) :
    ∃ outcome, ofTrade settings.selection.reward profit slippage fees = .ok outcome := by
  have hcap : 0.0 < settings.selection.reward.cap := by
    simpa [Settings.Flaw.present] using Settings.valid_iff.mp hvalid .rewardCap
  rw [ofTrade, clip_of_pos hcap]
  exact ⟨_, rfl⟩

end Outcome

end ExposureControl
