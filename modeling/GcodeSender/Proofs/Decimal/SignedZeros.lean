import GcodeSender.Proofs.Decimal.Nearest

/-!
# Zeros with a minus sign

A value below half a unit of the last place is written as zero without a sign. The half unit is
computed as a float, and a value of just that size is not below it. So where the computed half unit
is no more than the exact half, exactly one float is written as a zero with a minus sign: the
negative of the half unit. Without places that is minus one half; with one, three or four places
there is none.
-/
namespace GcodeSender.Decimal

/-- A text has a minus sign and no digit but zeros. -/
def IsSignedZero (text : Bytes) : Prop :=
  Byte.minus ∈ text ∧ ∀ c ∈ text, Byte.isDigit c = true → c = Byte.zero

instance (text : Bytes) : Decidable (IsSignedZero text) :=
  inferInstanceAs (Decidable (_ ∧ _))

variable {numeral : Numeral} {value : Float} {exact : Dyadic}

/-! ## Signed zeros among numerals -/

/-- A printed numeral is a signed zero if it has a minus sign and its number is zero. -/
theorem Numeral.Printed.isSignedZero_iff (printed : numeral.Printed) :
    IsSignedZero numeral.text ↔ numeral.sign = some Byte.minus ∧ numeral.number.toRat = 0 := by
  have digits := printed.toSound.isDigit_digits
  have minus : Byte.minus ∈ numeral.text ↔ numeral.sign = some Byte.minus := by
    rw [Numeral.mem_text_iff]
    refine ⟨fun member => ?_, .inl⟩
    rcases member with sign | digit | point
    · exact sign
    · exact absurd (digits _ digit) (by decide)
    · exact absurd point.1 (by decide)
  have zero : numeral.number.toRat = 0 ↔ numeral.number.coefficient = 0 := by
    rw [Scientific.toRat, ← abs_eq_zero, abs_signed, abs_eq_zero, mul_eq_zero, Nat.cast_eq_zero]
    exact or_iff_left (by positivity)
  have all : (∀ c ∈ numeral.text, Byte.isDigit c = true → c = Byte.zero) ↔
      ∀ c ∈ numeral.whole ++ numeral.fraction.getD [], c = Byte.zero := by
    constructor
    · intro all c member
      exact all c (Numeral.mem_text_iff.mpr (.inr (.inl member))) (digits c member)
    · intro all c member digit
      rcases Numeral.mem_text_iff.mp member with sign | written | ⟨rfl, -⟩
      · rcases printed.sign c sign with rfl | rfl <;> exact absurd digit (by decide)
      · exact all c written
      · exact absurd digit (by decide)
  rw [IsSignedZero, minus, zero, all, ← valueOf_eq_zero_iff digits]
  rfl

/-! ## Signed zeros among floats -/

/-- A value is written as a zero with a minus sign if it stands below zero, or is the negative
zero, and is as great as the half unit where that rounds to zero itself. -/
theorem signedZero_numeralOf_iff (found : Dyadic.ofFloat? value = some exact) (places : Nat) :
    ((numeralOf exact places).sign = some Byte.minus ∧
        (numeralOf exact places).number.toRat = 0) ↔
      (exact.negative = true ∧ |exact.toRat| = (halfUnit places).toRat) ∧
        2 * (halfUnit places).toRat ≤ 1 / 10 ^ places := by
  obtain ⟨-, floor, between⟩ := halfUnit_spec places
  have sign : (numeralOf exact places).sign = some Byte.minus ↔
      exact.negative = true ∧ (halfUnit places).toRat ≤ |exact.toRat| := by
    rw [numeralOf_eq found, ← not_lt, ← abs_of_nonneg floor, ← sizeBelow_iff]
    unfold Numeral.ofUnits
    cases exact.negative <;> cases exact.sizeBelow (halfUnit places) <;> simp
  have unit : (1 : ℚ) / 10 ^ places ≠ 0 := by positivity
  have zero : (numeralOf exact places).number.toRat = 0 ↔ 2 * |exact.toRat| ≤ 1 / 10 ^ places := by
    rw [toRat_numeralOf found, ← abs_eq_zero, abs_signed, abs_eq_zero, mul_eq_zero,
      or_iff_left unit, Nat.cast_eq_zero, units_eq_zero_iff]
  rw [sign, zero]
  constructor
  · rintro ⟨⟨negative, reached⟩, small⟩
    have same : |exact.toRat| = (halfUnit places).toRat := by
      refine le_antisymm (le_of_not_gt fun above => ?_) reached
      exact absurd ((between _ (isFloat_abs found)).2 above) (not_lt.mpr small)
    exact ⟨⟨negative, same⟩, same ▸ small⟩
  · rintro ⟨⟨negative, same⟩, small⟩
    exact ⟨⟨negative, same.ge⟩, same ▸ small⟩

/-- A negative float as great as the half unit is the negative of the half unit. -/
theorem eq_neg_halfFloat_iff (found : Dyadic.ofFloat? value = some exact) (places : Nat) :
    value = -halfFloat places ↔
      exact.negative = true ∧ |exact.toRat| = (halfUnit places).toRat := by
  obtain ⟨half, floor, -⟩ := halfUnit_spec places
  have factor : IsUnsigned (0.5 : Float).toModel.unpack := IsUnsigned.ofScientific 5 true 1
  have unsigned : (halfUnit places).negative = false :=
    Dyadic.negative_of_isUnsigned
      (factor.mul (IsUnsigned.ofScientific 1 true places)).unpack_pack half
  have turned := Dyadic.ofFloat?_neg half
  constructor
  · rintro rfl
    rw [turned] at found
    cases found
    refine ⟨by simp [unsigned], ?_⟩
    rw [← abs_of_nonneg floor, Dyadic.abs_toRat, Dyadic.abs_toRat]
  · rintro ⟨negative, same⟩
    rw [← abs_of_nonneg floor, Dyadic.abs_toRat, Dyadic.abs_toRat] at same
    obtain ⟨bits, power⟩ :=
      (isStored_of_ofFloat? found).eq_of_size_eq (isStored_of_ofFloat? half) same
    have parts : exact = { halfUnit places with negative := !(halfUnit places).negative } := by
      obtain ⟨sign, significand, exponent⟩ := exact
      rw [Dyadic.mk.injEq, unsigned]
      exact ⟨negative, bits, power⟩
    exact Dyadic.eq_of_ofFloat? found (parts ▸ turned)

/-- A finite float is written as a zero with a minus sign, trimmed or not, if it is the negative of
the half unit and that rounds to zero. -/
theorem isSignedZero_fixed_iff (finite : value.isFinite = true) (places : Nat) :
    (IsSignedZero (fixed value places) ↔
        value = -halfFloat places ∧ 2 * (halfUnit places).toRat ≤ 1 / 10 ^ places) ∧
      (IsSignedZero (fixedTrimmed value places) ↔
        value = -halfFloat places ∧ 2 * (halfUnit places).toRat ≤ 1 / 10 ^ places) := by
  obtain ⟨exact, found, text⟩ := exists_fixed finite places
  have printed := printed_numeralOf exact places
  have known := signedZero_numeralOf_iff found places
  rw [← eq_neg_halfFloat_iff found] at known
  constructor
  · rw [text, printed.isSignedZero_iff, known]
  · rw [fixedTrimmed, text, Numeral.trimFraction_text printed.toSound,
      printed.trimmed.isSignedZero_iff, Numeral.toRat_trimmed, ← known]
    rfl

/-- For every number of places, the one finite float that is written as a zero with a minus sign,
trimmed or not, is the negative of the computed half unit, and that only if it is no more than the
exact half. Without places it is minus one half; with one, three or four places there is none. -/
theorem isSignedZero_iff_neg_half (finite : value.isFinite = true) (places : Nat) :
    (IsSignedZero (fixed value places) ↔ value = -halfFloat places ∧
        ∃ half, IsExactly (halfFloat places) half ∧ half ≤ 1 / 2 / 10 ^ places) ∧
      (IsSignedZero (fixedTrimmed value places) ↔ IsSignedZero (fixed value places)) ∧
      (places = 0 → (IsSignedZero (fixed value places) ↔ value = -0.5)) ∧
      (places ∈ [1, 3, 4] → ¬ IsSignedZero (fixed value places)) := by
  obtain ⟨plain, trimmed⟩ := isSignedZero_fixed_iff finite places
  obtain ⟨half, floor, -⟩ := halfUnit_spec places
  have rounds : 2 * (halfUnit places).toRat ≤ 1 / 10 ^ places ↔
      units (halfUnit places) places = 0 := by
    rw [units_eq_zero_iff, abs_of_nonneg floor]
  refine ⟨?_, trimmed.trans plain.symm, ?_, fun used signed => ?_⟩
  · have small : (∃ half, IsExactly (halfFloat places) half ∧ half ≤ 1 / 2 / 10 ^ places) ↔
        2 * (halfUnit places).toRat ≤ 1 / 10 ^ places := by
      have twice : (1 : ℚ) / 10 ^ places = 2 * (1 / 2 / 10 ^ places) := by ring
      rw [twice, mul_le_mul_iff_right₀ (by norm_num)]
      constructor
      · rintro ⟨number, known, small⟩
        rwa [known.unique ⟨_, half, rfl⟩] at small
      · exact fun small => ⟨_, ⟨_, half, rfl⟩, small⟩
    rw [plain, small]
  · rintro rfl
    have same : halfFloat 0 = 0.5 := by decide +kernel
    have zero : units (halfUnit 0) 0 = 0 := by decide +kernel
    rw [plain, rounds, same]
    exact and_iff_left zero
  · have all : ∀ places ∈ [1, 3, 4], units (halfUnit places) places ≠ 0 := by decide +kernel
    exact all places used (rounds.mp (plain.mp signed).2)

/-- Minus one half is written with a minus sign and no digit but a zero. -/
theorem fixed_minus_half : (-0.5 : Float).isFinite = true ∧ Byte.minus ∈ fixed (-0.5) 0 ∧
    ¬ ∃ c ∈ fixed (-0.5) 0, Byte.isDigit c = true ∧ c ≠ Byte.zero := by
  decide +kernel

/-- Of all floats written without places it is minus one half that is a zero with a minus sign. -/
theorem isSignedZero_minus_half :
    (-0.5 : Float).isFinite = true ∧ IsSignedZero (fixed (-0.5) 0) := by
  have finite : (-0.5 : Float).isFinite = true := by decide +kernel
  exact ⟨finite, ((isSignedZero_iff_neg_half finite 0).2.2.1 rfl).mpr rfl⟩

end GcodeSender.Decimal
