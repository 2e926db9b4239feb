import GcodeSender.Proofs.FloatRounding
import GcodeSender.Toolpath.Segment

/-!
# The range of angles

An angle is computed as a fraction of whole numbers and rounded once. The series of the arc tangent
grows with its weight, so the arc tangent of two legs is at most a quarter of the half turn that the
same series gives, and every angle is made of it by taking it from a half turn or a quarter. The
main statement is that an angle that is a number lies within a half turn to either side, up to the
rounding, and that the vector along the first axis has the angle zero.
-/
namespace GcodeSender

namespace Angle

/-! ## The series -/

/-- The series grows with its weight and its first term. -/
theorem seriesFrom_le {weight heavier : Nat} (grows : weight ≤ heavier) (count k : Nat)
    {term greater : Nat} (longer : term ≤ greater) :
    seriesFrom weight count k term ≤ seriesFrom heavier count k greater := by
  induction count generalizing k term greater with
  | zero => exact le_rfl
  | succ count ih =>
    unfold seriesFrom
    by_cases zero : term = 0
    · rw [if_pos zero]
      exact Nat.zero_le _
    · rw [if_neg zero, if_neg (by omega)]
      have next : term * weight * (2 * k) / ((2 * k + 1) * Nat.pow 2 precision) ≤
          greater * heavier * (2 * k) / ((2 * k + 1) * Nat.pow 2 precision) :=
        Nat.div_le_div_right (Nat.mul_le_mul_right _ (Nat.mul_le_mul longer grows))
      exact Nat.add_le_add longer (ih (k + 1) next)

/-- A fraction is at most a part of the half turn. -/
structure Fraction.IsWithin (angle : Fraction) (part : Nat) : Prop where
  /-- It is a fraction. -/
  solid : 0 < angle.den
  /-- As many of it as there are parts are at most a half turn. -/
  bound : angle.num * part * Nat.pow 2 precision ≤ halfTurn * angle.den

/-- A fraction within a part is within every greater one. -/
theorem Fraction.IsWithin.mono {angle : Fraction} {part greater : Nat}
    (within : angle.IsWithin part) (less : greater ≤ part) : angle.IsWithin greater :=
  ⟨within.solid, le_trans (Nat.mul_le_mul_right _ (Nat.mul_le_mul_left _ less)) within.bound⟩

/-- The arc tangent of the shorter leg over the longer is at most a quarter of the half turn. -/
theorem isWithin_arcTangent {p q : Nat} (short : p ≤ q) : (arcTangent p q).IsWithin 4 := by
  unfold arcTangent
  dsimp only
  by_cases empty : p * p + q * q = 0
  · rw [if_pos empty]
    exact ⟨Nat.one_pos, by simp⟩
  · rw [if_neg empty]
    generalize scale : Nat.pow 2 precision = unit
    have solid : 0 < unit := scale ▸ Nat.two_pow_pos precision
    have half : Nat.pow 2 (precision - 1) * 2 = unit := by
      rw [← scale]
      decide
    have squares : 2 * (p * p) ≤ p * p + q * q := by
      have longer := Nat.mul_le_mul short short
      omega
    have weight : p * p * unit / (p * p + q * q) ≤ Nat.pow 2 (precision - 1) := by
      apply Nat.div_le_of_le_mul
      have scaled := Nat.mul_le_mul_right (Nat.pow 2 (precision - 1)) squares
      rw [← half]
      linarith
    have grown : series (p * p * unit / (p * p + q * q)) ≤ series (Nat.pow 2 (precision - 1)) :=
      seriesFrom_le weight _ _ le_rfl
    have legs : 2 * (p * q) ≤ p * p + q * q := by
      have square := Nat.zero_le ((q - p) * (q - p))
      obtain ⟨rest, rfl⟩ := Nat.exists_eq_add_of_le short
      nlinarith
    refine ⟨Nat.mul_pos (Nat.pos_of_ne_zero empty) solid, ?_⟩
    dsimp only
    rw [scale]
    unfold halfTurn
    calc p * q * series (p * p * unit / (p * p + q * q)) * 4 * unit
        = 2 * (2 * (p * q)) * series (p * p * unit / (p * p + q * q)) * unit := by ring
      _ ≤ 2 * (p * p + q * q) * series (Nat.pow 2 (precision - 1)) * unit := by gcongr
      _ = 2 * series (Nat.pow 2 (precision - 1)) * ((p * p + q * q) * unit) := by ring

/-- What is lacking of a part of the half turn is within that part. -/
theorem isWithin_complement {angle : Fraction} {part : Nat} (solid : 0 < angle.den)
    (whole : 0 < part) : (complement part angle).IsWithin part := by
  have unit : 0 < Nat.pow 2 precision := Nat.two_pow_pos precision
  refine ⟨Nat.mul_pos (Nat.mul_pos solid whole) unit, ?_⟩
  unfold complement
  dsimp only
  generalize Nat.pow 2 precision = scale at *
  calc (halfTurn * angle.den - angle.num * part * scale) * part * scale
      ≤ halfTurn * angle.den * part * scale := by
        gcongr
        exact Nat.sub_le _ _
    _ = halfTurn * (angle.den * part * scale) := by ring

/-- The angle of two legs is at most a quarter turn. -/
theorem isWithin_ofLegs (p q : Nat) : (ofLegs p q).IsWithin 2 := by
  unfold ofLegs
  split
  · next short => exact (isWithin_arcTangent short).mono (by decide)
  · next long =>
    exact isWithin_complement (isWithin_arcTangent (by omega)).solid (by decide)

/-! ## Rounding an angle -/

/-- The straight angle in radians: half a turn, as floats have it. -/
def straight : ℚ := 7074237752028440 / 2 ^ 51

/-- A bound on the angles: half a turn, and what rounding may add to it. -/
def reach : ℚ := straight + 1 / 2 ^ 48

theorem three_le_straight : 3 ≤ straight := by
  unfold straight
  norm_num

theorem straight_le : straight ≤ 22 / 7 := by
  unfold straight
  norm_num

/-- Half a turn of the series is the straight angle, up to an eighth of its last place. -/
theorem halfTurn_le : (halfTurn : ℚ) / 2 ^ 192 ≤ straight + 1 / 2 ^ 52 := by
  have exact : halfTurn = 19720096697726538562396133364228268891463450865190089732190 := by
    decide +kernel
  rw [exact, straight]
  norm_num

/-- A fraction within half a turn is one as a rational number. -/
theorem Fraction.IsWithin.div_le {angle : Fraction} (within : angle.IsWithin 1) :
    (angle.num : ℚ) / angle.den ≤ straight + 1 / 2 ^ 52 := by
  have solid : (0 : ℚ) < angle.den := by exact_mod_cast within.solid
  have bound : (angle.num : ℚ) * 2 ^ 192 ≤ halfTurn * angle.den := by
    have cast : ((angle.num * 1 * Nat.pow 2 precision : Nat) : ℚ) ≤
        (halfTurn * angle.den : Nat) := by exact_mod_cast within.bound
    rw [show Nat.pow 2 precision = 2 ^ 192 from rfl] at cast
    push_cast at cast
    linarith
  apply le_trans _ halfTurn_le
  rw [div_le_div_iff₀ solid (by positivity)]
  exact bound

/-- A fraction cut after so many binary places, with a last bit for what was cut off, is off by
that bit at most. -/
theorem cut_near (num : Nat) {den : Nat} (solid : 0 < den) (places : Nat) :
    |((2 * (num * 2 ^ places / den) + if num * 2 ^ places % den = 0 then 0 else 1 : Nat) : ℚ) /
        2 ^ (places + 1) - num / den| ≤ 1 / 2 ^ (places + 1) := by
  have whole : (0 : ℚ) < den := by exact_mod_cast solid
  have power : (0 : ℚ) < 2 ^ places := by positivity
  have split := Nat.div_add_mod (num * 2 ^ places) den
  have small := Nat.mod_lt (num * 2 ^ places) solid
  generalize num * 2 ^ places / den = quotient at *
  generalize num * 2 ^ places % den = rest at *
  have number : (num : ℚ) / den = (quotient + rest / den) / 2 ^ places := by
    have cast : (den : ℚ) * quotient + rest = num * 2 ^ places := by exact_mod_cast split
    field_simp
    linarith
  rw [number, pow_succ]
  by_cases even : rest = 0
  · rw [if_pos even, even]
    have same : ((2 * quotient + 0 : Nat) : ℚ) / (2 ^ places * 2) -
        (quotient + (0 : Nat) / den) / 2 ^ places = 0 := by
      push_cast
      field_simp
      ring
    rw [same, abs_zero]
    positivity
  · have floor : (0 : ℚ) ≤ rest / den := by positivity
    have below : (rest : ℚ) / den ≤ 1 := by
      rw [div_le_one whole]
      exact_mod_cast small.le
    have same : ((2 * quotient + 1 : Nat) : ℚ) / (2 ^ places * 2) -
        (quotient + rest / den) / 2 ^ places = (1 - 2 * (rest / den)) / (2 ^ places * 2) := by
      push_cast
      field_simp
      ring
    rw [if_neg even, same, abs_div, abs_of_pos (show (0 : ℚ) < 2 ^ places * 2 by positivity)]
    apply div_le_div_of_nonneg_right _ (by positivity)
    rw [abs_le]
    constructor <;> linarith

theorem smallest_le : smallest ≤ 1 / 2 ^ 60 := by
  have power : (1 : ℚ) / 2 ^ 60 = 2 ^ (-60 : Int) := by
    rw [zpow_neg]
    norm_num
  rw [power]
  exact zpow_le_zpow_right₀ (by norm_num) (by norm_num)

/-- The nearest float to a fraction within half a turn is a number, off by no more than the
rounding. -/
theorem exists_isExactly_nearest (negative : Bool) {angle : Fraction}
    (within : angle.IsWithin 1) :
    ∃ number, IsExactly (nearest negative angle) number ∧
      |number - signed negative (angle.num / angle.den)| ≤ 1 / 2 ^ 49 := by
  have bound := within.div_le
  have top := straight_le
  have floor : (0 : ℚ) ≤ angle.num / angle.den := by positivity
  have logs : angle.num.log2 ≤ angle.den.log2 + 2 := by
    have solid : (0 : ℚ) < angle.den := by exact_mod_cast within.solid
    have fourfold : angle.num ≤ angle.den * 4 := by
      rw [div_le_iff₀ solid] at bound
      have cast : (angle.num : ℚ) ≤ angle.den * 4 := by nlinarith
      exact_mod_cast cast
    by_cases zero : angle.num = 0
    · rw [zero]
      exact Nat.zero_le _
    · have below : angle.den < 2 ^ (angle.den.log2 + 1) := Nat.lt_log2_self
      have power : 2 ^ (angle.den.log2 + 3) = 2 ^ (angle.den.log2 + 1) * 4 := by ring
      have less := (Nat.log2_lt (k := angle.den.log2 + 3) zero).mpr (by omega)
      omega
  unfold nearest
  dsimp only
  generalize places : min 1200 (66 + angle.den.log2 - angle.num.log2) = guard
  have many : 64 ≤ guard := by omega
  have few : guard ≤ 1200 := by omega
  have near := cut_near angle.num within.solid guard
  have negligible : (1 : ℚ) / 2 ^ (guard + 1) ≤ 1 / 2 ^ 65 :=
    one_div_le_one_div_of_le (by norm_num) (pow_le_pow_right₀ (by norm_num) (by omega))
  generalize bits : (2 * (angle.num * Nat.pow 2 guard / angle.den) +
    if angle.num * Nat.pow 2 guard % angle.den = 0 then 0 else 1) = cut
  have near : |(cut : ℚ) / 2 ^ (guard + 1) - angle.num / angle.den| ≤ 1 / 2 ^ 65 :=
    bits ▸ near.trans negligible
  have value : Dyadic.toRat ⟨negative, cut, -(guard : Int) - 1⟩ =
      signed negative (cut / 2 ^ (guard + 1)) := by
    unfold Dyadic.toRat size
    rw [show -(guard : Int) - 1 = -((guard + 1 : Nat) : Int) by push_cast; ring, zpow_neg,
      zpow_natCast, div_eq_mul_inv]
  have small : |Dyadic.toRat ⟨negative, cut, -(guard : Int) - 1⟩| ≤ 4 := by
    rw [value, abs_signed]
    have triangle := abs_sub_abs_le_abs_sub ((cut : ℚ) / 2 ^ (guard + 1)) (angle.num / angle.den)
    rw [abs_of_nonneg floor] at triangle
    linarith
  obtain ⟨number, exact, close⟩ := Dyadic.exists_isExactly_toFloat
    ⟨negative, cut, -(guard : Int) - 1⟩ (show -(guard : Int) - 1 < -22 by omega)
    (show (-2048 : Int) ≤ -(guard : Int) - 1 by omega) (small.trans (by norm_num))
  refine ⟨number, exact, ?_⟩
  have rounding : roundingError (Dyadic.toRat ⟨negative, cut, -(guard : Int) - 1⟩) ≤
      4 / 2 ^ 52 + 1 / 2 ^ 60 :=
    add_le_add (div_le_div_of_nonneg_right small (by positivity)) smallest_le
  have moved : |Dyadic.toRat ⟨negative, cut, -(guard : Int) - 1⟩ -
      signed negative (angle.num / angle.den)| ≤ 1 / 2 ^ 65 := by
    rw [value, abs_signed_sub]
    exact near
  have triangle := abs_sub_le number (Dyadic.toRat ⟨negative, cut, -(guard : Int) - 1⟩)
    (signed negative (angle.num / angle.den))
  linarith

/-! ## Angles of vectors -/

variable {second first : Float}

/-- The angle of a vector whose coordinates are not NaN is a number, within half a turn to either
side. -/
theorem isBounded_ofVector (known : (second.isNaN || first.isNaN) = false) :
    IsBounded (ofVector second first) reach := by
  have bounded (negative : Bool) {angle : Fraction} (within : angle.IsWithin 1) :
      IsBounded (nearest negative angle) reach := by
    obtain ⟨number, exact, near⟩ := exists_isExactly_nearest negative within
    refine ⟨number, exact, ?_⟩
    have triangle := abs_sub_abs_le_abs_sub number (signed negative (angle.num / angle.den))
    have floor : (0 : ℚ) ≤ angle.num / angle.den := by positivity
    have bound := within.div_le
    rw [abs_signed, abs_of_nonneg floor] at triangle
    unfold reach
    norm_num at near bound triangle ⊢
    linarith
  unfold ofVector
  rw [known, if_neg Bool.false_ne_true]
  dsimp only
  split
  · exact bounded _ (isWithin_complement (isWithin_ofLegs _ _).solid Nat.one_pos)
  · exact bounded _ ((isWithin_ofLegs _ _).mono (by decide))

/-- A leg of a float without a minus sign has none. -/
theorem negative_leg {value : Float} (unsigned : IsUnsigned value.toModel.unpack)
    (other : Float) : (leg value other).negative = false := by
  unfold leg
  split
  · exact decide_eq_false unsigned.not_lt_zero
  · rw [Dyadic.ofFloat?_eq_ofUnpacked?]
    revert unsigned
    cases value.toModel.unpack with
    | notANumber => exact fun _ => rfl
    | infinity sign => exact fun _ => rfl
    | zero sign =>
      rintro ⟨⟩
      cases other.isInf <;> rfl
    | finite sign mantissa exponent solid =>
      rintro ⟨⟩
      cases other.isInf <;> rfl

/-- A leg of zero is zero. -/
theorem significand_leg {value : Float} (zero : IsExactly value 0) (other : Float) :
    (leg value other).significand = 0 := by
  have bounded := zero.isInf_eq_false
  obtain ⟨exact, found, none⟩ := zero
  have empty : exact.significand = 0 := by
    by_contra solid
    have positive := size_pos (Nat.pos_of_ne_zero solid) exact.exponent
    rw [Dyadic.toRat] at none
    have size := abs_signed exact.negative (size exact.significand exact.exponent)
    rw [none, abs_zero, abs_of_pos positive] at size
    exact positive.ne size
  unfold leg
  rw [bounded, if_neg Bool.false_ne_true, found]
  dsimp only
  split
  · rfl
  · exact empty

/-- A vector along the first axis has the angle zero, up to the rounding. -/
theorem isBounded_ofVector_along (zero : IsExactly second 0)
    (known : (second.isNaN || first.isNaN) = false)
    (unsigned : IsUnsigned first.toModel.unpack) :
    IsBounded (ofVector second first) (1 / 2 ^ 49) := by
  unfold ofVector
  rw [known, if_neg Bool.false_ne_true]
  dsimp only
  rw [negative_leg unsigned, if_neg Bool.false_ne_true, significand_leg zero, Nat.zero_mul]
  generalize (leg first second).significand * Nat.pow 2 _ = q
  have empty : (ofLegs 0 q).num = 0 := by
    unfold ofLegs arcTangent
    rw [if_pos (Nat.zero_le q)]
    dsimp only
    split
    · rfl
    · exact Nat.mul_eq_zero.mpr (.inl (Nat.zero_mul q))
  obtain ⟨number, exact, near⟩ := exists_isExactly_nearest (leg second first).negative
    ((isWithin_ofLegs 0 q).mono (show 1 ≤ 2 by decide))
  rw [empty, Nat.cast_zero, zero_div, signed_zero, sub_zero] at near
  exact ⟨number, exact, near⟩

end Angle

end GcodeSender
