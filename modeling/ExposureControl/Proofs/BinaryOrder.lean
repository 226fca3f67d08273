import ExposureControl.Proofs.WordQuotient

/-!
# The order of binary64 values

An undefined value compares with nothing.  All others have a rank, and they compare as their
ranks do, so among them the comparison is a total preorder in which the two zeros are alike.
-/

namespace ExposureControl.Binary64

open Float.Model Float.Model.UnpackedFloat

/-- Ranks compare by the kind of value first, then by exponent, then by mantissa. -/
abbrev Rank := Int ×ₗ Int ×ₗ Int

/-- The rank of a value, which only an undefined value lacks. -/
def rank? : UnpackedFloat → Option Rank
  | .notANumber => none
  | .infinity .negative => some (toLex (-2, toLex (0, 0)))
  | .finite .negative mantissa exponent _ => some (toLex (-1, toLex (-exponent, -mantissa)))
  | .zero _ => some (toLex (0, toLex (0, 0)))
  | .finite .positive mantissa exponent _ => some (toLex (1, toLex (exponent, mantissa)))
  | .infinity .positive => some (toLex (2, toLex (0, 0)))

theorem isLE_then_iff (exponent₁ exponent₂ : Int) (mantissa₁ mantissa₂ : Nat) :
    ((compare exponent₁ exponent₂).then (compare mantissa₁ mantissa₂)).isLE = true ↔
      exponent₁ < exponent₂ ∨ exponent₁ = exponent₂ ∧ mantissa₁ ≤ mantissa₂ := by
  obtain hlt | heq | hgt := lt_trichotomy exponent₁ exponent₂
  · simp [compare_lt_iff_lt.mpr hlt, hlt]
  · simp [heq, Nat.isLE_compare]
  · simp [compare_gt_iff_gt.mpr hgt, hgt.not_gt, hgt.ne']

theorem isGE_then_iff (exponent₁ exponent₂ : Int) (mantissa₁ mantissa₂ : Nat) :
    ((compare exponent₁ exponent₂).then (compare mantissa₁ mantissa₂)).isGE = true ↔
      exponent₂ < exponent₁ ∨ exponent₁ = exponent₂ ∧ mantissa₂ ≤ mantissa₁ := by
  rw [← Ordering.isLE_swap, Ordering.swap_then, ← Std.OrientedOrd.eq_swap,
    ← Std.OrientedOrd.eq_swap, isLE_then_iff, eq_comm (a := exponent₂)]

theorem le_iff_rank (left right : UnpackedFloat) :
    left.le right = true ↔ ∃ low ∈ rank? left, ∃ high ∈ rank? right, low ≤ high := by
  cases left with
  | notANumber => cases right <;> simp [UnpackedFloat.le, UnpackedFloat.compare, rank?]
  | infinity sign | zero sign =>
    cases right with
    | notANumber => simp [UnpackedFloat.le, UnpackedFloat.compare, rank?]
    | infinity other | zero other | finite other =>
      cases sign <;> cases other <;>
        simp [UnpackedFloat.le, UnpackedFloat.compare, rank?, Prod.Lex.toLex_le_toLex] <;> rfl
  | finite sign mantissa₁ exponent₁ =>
    cases right with
    | notANumber => simp [UnpackedFloat.le, UnpackedFloat.compare, rank?]
    | infinity other | zero other =>
      cases sign <;> cases other <;>
        simp [UnpackedFloat.le, UnpackedFloat.compare, rank?, Prod.Lex.toLex_le_toLex]
    | finite other mantissa₂ exponent₂ =>
      cases sign <;> cases other <;>
        simp [UnpackedFloat.le, UnpackedFloat.compare, rank?, Prod.Lex.toLex_le_toLex,
          isLE_then_iff, isGE_then_iff]

/-! ## Defined values -/

def rankOf? (value : Float) : Option Rank :=
  rank? value.toModel.unpack

theorem le_iff {x y : Float} : x ≤ y ↔ ∃ low ∈ rankOf? x, ∃ high ∈ rankOf? y, low ≤ high := by
  rw [rankOf?, rankOf?, ← le_iff_rank]
  exact decide_eq_true_iff

theorem exists_sign? {value : Float} (hdefined : value.isNaN = false) :
    ∃ sign, sign? value.toModel.unpack = some sign := by
  change value.toModel.unpack.isNaN = false at hdefined
  cases hvalue : value.toModel.unpack with
  | notANumber =>
    rw [hvalue] at hdefined
    cases hdefined
  | infinity sign | zero sign | finite sign => exact ⟨sign, rfl⟩

theorem exists_rankOf? {value : Float} (hdefined : value.isNaN = false) :
    ∃ rank, rankOf? value = some rank := by
  obtain ⟨sign, hsign⟩ := exists_sign? hdefined
  rw [rankOf?]
  cases hvalue : value.toModel.unpack with
  | notANumber =>
    rw [hvalue] at hsign
    cases hsign
  | infinity sign | zero sign | finite sign => cases sign <;> exact ⟨_, rfl⟩

theorem le_of_defined {x : Float} (hdefined : x.isNaN = false) : x ≤ x := by
  obtain ⟨rank, hrank⟩ := exists_rankOf? hdefined
  exact le_iff.mpr ⟨rank, hrank, rank, hrank, le_rfl⟩

theorem le_of_le_of_le {x y z : Float} (hxy : x ≤ y) (hyz : y ≤ z) : x ≤ z := by
  obtain ⟨low, hlow, middle, hmiddle, hlower⟩ := le_iff.mp hxy
  obtain ⟨same, hsame, high, hhigh, hupper⟩ := le_iff.mp hyz
  obtain rfl := Option.mem_unique hmiddle hsame
  exact le_iff.mpr ⟨low, hlow, high, hhigh, hlower.trans hupper⟩

theorem le_of_not_ge {x y : Float} (hx : x.isNaN = false) (hy : y.isNaN = false)
    (hnot : ¬ y ≤ x) : x ≤ y := by
  obtain ⟨low, hlow⟩ := exists_rankOf? hx
  obtain ⟨high, hhigh⟩ := exists_rankOf? hy
  refine le_iff.mpr ⟨low, hlow, high, hhigh, ?_⟩
  by_contra hgreater
  exact hnot (le_iff.mpr ⟨high, hhigh, low, hlow, (not_le.mp hgreater).le⟩)

theorem zero_lt_of_not_le {x : Float} (hdefined : x.isNaN = false) (hnot : ¬ x ≤ 0.0) :
    0.0 < x := by
  obtain ⟨sign, hsign⟩ := exists_sign? hdefined
  have hzero : sign? (0.0 : Float).toModel.unpack = some .positive := rfl
  exact lt_of_not_le hsign hzero hnot

/-! ## Infinity -/

theorem rankOf?_infinity : rankOf? infinity = some (toLex (2, toLex (0, 0))) := by
  decide +kernel

theorem rank_le_infinity {value : UnpackedFloat} {rank : Rank} (hrank : rank? value = some rank) :
    rank ≤ toLex (2, toLex (0, 0)) := by
  cases value with
  | notANumber => cases hrank
  | infinity sign | zero sign | finite sign =>
    cases sign <;> obtain rfl := Option.some.inj hrank <;> simp [Prod.Lex.toLex_le_toLex]

theorem le_infinity {x : Float} (hdefined : x.isNaN = false) : x ≤ infinity := by
  obtain ⟨rank, hrank⟩ := exists_rankOf? hdefined
  exact le_iff.mpr ⟨rank, hrank, _, rankOf?_infinity, rank_le_infinity hrank⟩

theorem not_infinity_le {x : Float} (hfinite : x.isFinite = true) : ¬ infinity ≤ x := by
  change x.toModel.unpack.isFinite = true at hfinite
  rw [le_iff, rankOf?_infinity, rankOf?]
  cases hvalue : x.toModel.unpack with
  | notANumber | infinity =>
    rw [hvalue] at hfinite
    cases hfinite
  | zero sign | finite sign =>
    cases sign <;> simp [rank?, Prod.Lex.toLex_le_toLex]

/-! ## Undefined values -/

theorem unpack_of_isNaN {x : Float} (hx : x.isNaN = true) : x.toModel.unpack = .notANumber := by
  change x.toModel.unpack.isNaN = true at hx
  cases hvalue : x.toModel.unpack with
  | notANumber => rfl
  | infinity | zero | finite =>
    rw [hvalue] at hx
    cases hx

theorem isNaN_pack {value : UnpackedFloat} (hvalue : value = .notANumber) :
    (Float.Model.pack value).unpack.isNaN = true := by
  rw [hvalue]
  decide +kernel

theorem isNaN_div_right {y : Float} (hy : y.isNaN = true) (x : Float) : (x / y).isNaN = true := by
  have hdiv : x.toModel.unpack.div Format.binary64 y.toModel.unpack = .notANumber := by
    rw [unpack_of_isNaN hy]
    cases x.toModel.unpack <;> rfl
  exact isNaN_pack hdiv

theorem isNaN_mul_left {x : Float} (hx : x.isNaN = true) (y : Float) : (x * y).isNaN = true := by
  have hmul : x.toModel.unpack.mul Format.binary64 y.toModel.unpack = .notANumber := by
    rw [unpack_of_isNaN hx]
    rfl
  exact isNaN_pack hmul

theorem isNaN_add_right {y : Float} (hy : y.isNaN = true) (x : Float) : (x + y).isNaN = true := by
  have hadd : x.toModel.unpack.add Format.binary64 y.toModel.unpack = .notANumber := by
    rw [unpack_of_isNaN hy]
    cases x.toModel.unpack <;> rfl
  exact isNaN_pack hadd

theorem isNaN_sqrt {x : Float} (hx : x.isNaN = true) : x.sqrt.isNaN = true := by
  have hsqrt : x.toModel.unpack.sqrt Format.binary64 = .notANumber := by
    rw [unpack_of_isNaN hx]
    rfl
  exact isNaN_pack hsqrt

end ExposureControl.Binary64
