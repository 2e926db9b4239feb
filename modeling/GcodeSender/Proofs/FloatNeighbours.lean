import GcodeSender.Proofs.FloatRounding

/-!
# Rounding passes no float

No float stands between what is kept of a number and the next of its grid. So a float that is no
more than an exact result is no more than the rounded one, and a float that is no less is no less
(`RoundsTo`). The main statements say this of products, of quotients and of powers of ten, and
that no other float stands between half of a power of ten and the float computed for it.
-/
namespace GcodeSender

open Float.Model (UnpackedFloat Format)
open Float.Model.UnpackedFloat (Sign Accuracy ExtendedMantissa)

/-- A number is a float, or would be one if powers of two had no end above. -/
def IsFloat (number : ℚ) : Prop :=
  ∃ negative m e, IsStored m e ∧ signed negative (size m e) = number

/-- A number is rounded, and no float is passed. -/
structure RoundsTo (number rounded : ℚ) : Prop where
  /-- A float that is no more than the number is no more than what it is rounded to. -/
  floor : ∀ float, IsFloat float → float ≤ number → float ≤ rounded
  /-- A float that is no less than the number is no less than what it is rounded to. -/
  ceiling : ∀ float, IsFloat float → number ≤ float → rounded ≤ float

variable {m n q : Nat} {e f g : Int} {value other : Float} {number another rounded : ℚ}

/-! ## Floats -/

theorem isFloat_zero : IsFloat 0 :=
  ⟨false, 0, -1074, ⟨by decide, le_rfl, .inr rfl⟩, by simp⟩

theorem isFloat_one : IsFloat 1 :=
  ⟨false, 2 ^ 52, -52, ⟨by decide, by decide, .inl le_rfl⟩, by norm_num [signed, size]⟩

/-- Twice a float is a float. -/
theorem IsFloat.double (float : IsFloat number) : IsFloat (2 * number) := by
  obtain ⟨negative, m, e, stored, rfl⟩ := float
  have below := stored.below
  have floor := stored.floor
  have turned (x : ℚ) : signed negative (2 * x) = 2 * signed negative x := by
    cases negative
    · rfl
    · exact (mul_neg 2 x).symm
  by_cases full : 2 ^ 52 ≤ m
  · refine ⟨negative, m, e + 1, ⟨below, by omega, .inl full⟩, ?_⟩
    rw [← turned, size, size, zpow_add_one₀ (by norm_num)]
    congr 1
    ring
  · have least : e = -1074 := stored.full.resolve_left full
    refine ⟨negative, 2 * m, e, ⟨by omega, floor, .inr least⟩, ?_⟩
    rw [← turned, size, size]
    push_cast
    congr 1
    ring

/-- A float that is not below zero is a size. -/
theorem IsFloat.exists_size (float : IsFloat number) (floor : 0 ≤ number) :
    ∃ m e, IsStored m e ∧ size m e = number := by
  obtain ⟨negative, m, e, stored, rfl⟩ := float
  refine ⟨m, e, stored, ?_⟩
  rw [← abs_of_nonneg floor, abs_signed, abs_of_nonneg (size_nonneg m e)]

/-- No float stands between a size and the next one. -/
theorem IsStored.size_le_of_lt_succ (kept : IsStored q g) (stored : IsStored n f)
    (below : size n f < size (q + 1) g) : size n f ≤ size q g := by
  rcases lt_trichotomy f g with less | rfl | more
  · exact (stored.size_lt_of_exponent_lt kept less).le
  · have unit : (0 : ℚ) < 2 ^ f := by positivity
    have bits : n < q + 1 := by exact_mod_cast lt_of_mul_lt_mul_right below unit.le
    have bits : (n : ℚ) ≤ q := by exact_mod_cast Nat.lt_succ_iff.mp bits
    exact mul_le_mul_of_nonneg_right bits unit.le
  · exact absurd (kept.size_succ_le_of_exponent_lt stored more) (not_le.mpr below)

/-! ## Rounding -/

theorem RoundsTo.refl (number : ℚ) : RoundsTo number number :=
  ⟨fun _ _ below => below, fun _ _ above => above⟩

/-- What is between zero and one is rounded to a float between them, which is stored. -/
theorem RoundsTo.isExactly {result : UnpackedFloat} (rounds : RoundsTo number rounded)
    (means : Means result rounded) (floor : 0 ≤ number) (ceiling : number ≤ 1) :
    IsExactly (.ofModel (Float.Model.pack result)) rounded := by
  have above := rounds.floor 0 isFloat_zero floor
  have below := rounds.ceiling 1 isFloat_one ceiling
  refine means.isExactly ?_
  rw [abs_of_nonneg above]
  exact below.trans_lt (one_lt_pow₀ (by norm_num) (by decide))

/-- Zeros that are shifted out leave the bits before them, and nothing is lost. -/
theorem shiftRight_of_exact (q count : Nat) :
    ExtendedMantissa.ofMantissaAndAccuracy (q * 2 ^ count) .exact >>> count =
      ExtendedMantissa.ofMantissaAndAccuracy q .exact := by
  induction count generalizing q with
  | zero =>
    rw [pow_zero, mul_one]
    rfl
  | succ count ih =>
    have bits : q * 2 ^ (count + 1) = 2 * q * 2 ^ count := by ring
    have last : (2 * q % 2 != 0) = false := by simp
    show (ExtendedMantissa.ofMantissaAndAccuracy (q * 2 ^ (count + 1)) .exact >>>
      count).shiftRightOne = _
    rw [bits, ih]
    show ExtendedMantissa.mk (2 * q / 2) (2 * q % 2 != 0) _ = _
    rw [last, Nat.mul_div_cancel_left q (by decide)]
    rfl

/-- A number that stands on its grid is kept as it is. -/
theorem roundedMantissa_of_size_eq (fits : e ≤ grid m e)
    (same : size (m / 2 ^ (grid m e - e).toNat) (grid m e) = size m e) :
    (cutToGrid m e .exact).roundedMantissa = m / 2 ^ (grid m e - e).toNat := by
  have unit : (2 : ℚ) ^ e ≠ 0 := by positivity
  rw [size, size, zpow_grid fits, ← mul_assoc, mul_left_inj' unit] at same
  have bits : m / 2 ^ (grid m e - e).toNat * 2 ^ (grid m e - e).toNat = m := by
    exact_mod_cast same
  have kept := shiftRight_of_exact (m / 2 ^ (grid m e - e).toNat) (grid m e - e).toNat
  rw [bits] at kept
  rw [cutToGrid, kept]
  rfl

/-- A number is rounded from its bits without passing a float, if nothing is said to be lost of a
number that is its bits. -/
theorem exists_roundsTo_roundWithAccuracy (accuracy : Accuracy) (fits : e ≤ grid m e)
    (lower : size m e ≤ number) (upper : number < size (m + 1) e)
    (exact : number = size m e → accuracy = .exact) :
    ∃ y, Means (UnpackedFloat.roundWithAccuracy .binary64 .positive m e accuracy) y ∧
      RoundsTo number y := by
  have near := roundedMantissa_eq_or (cutToGrid m e accuracy)
  rw [mantissa_cutToGrid] at near
  have kept := isStored_div_grid m fits
  have below := size_kept_le fits
  have above := upper.trans_le (size_succ_le_kept_succ fits)
  have floor : 0 ≤ number := (size_nonneg m e).trans lower
  refine ⟨_, means_roundWithAccuracy .positive accuracy fits, fun float isFloat least => ?_,
    fun float isFloat most => ?_⟩
  · show float ≤ size (cutToGrid m e accuracy).roundedMantissa (grid m e)
    rcases lt_or_ge float 0 with negative | positive
    · exact negative.le.trans (size_nonneg _ _)
    · obtain ⟨n, f, stored, rfl⟩ := isFloat.exists_size positive
      have first := kept.size_le_of_lt_succ stored (least.trans_lt above)
      rcases near with same | more
      · rw [same]
        exact first
      · rw [more]
        exact first.trans (size_lt_size_succ _ _).le
  · show size (cutToGrid m e accuracy).roundedMantissa (grid m e) ≤ float
    obtain ⟨n, f, stored, rfl⟩ := isFloat.exists_size (floor.trans most)
    rcases le_or_gt (size (m / 2 ^ (grid m e - e).toNat + 1) (grid m e)) (size n f)
      with far | close
    · rcases near with same | more
      · rw [same]
        exact (size_lt_size_succ _ _).le.trans far
      · rw [more]
        exact far
    · -- The float is up to the bits that are kept, so it is the number and these are all its bits.
      have last := kept.size_le_of_lt_succ stored close
      have all : number = size m e := by linarith
      have grown : size (m / 2 ^ (grid m e - e).toNat) (grid m e) = size m e := by linarith
      rw [exact all, roundedMantissa_of_size_eq fits grown]
      linarith

/-! ## Results of operations -/

/-- A float above zero is unpacked as bits and a power of two. -/
theorem IsExactly.unpack_of_pos (exact : IsExactly value number) (above : 0 < number) :
    ∃ m e, ∃ solid : 0 < m, IsStored m e ∧ size m e = number ∧
      value.toModel.unpack = .finite .positive m e solid := by
  have means := isExactly_iff_means.mp exact
  generalize value.toModel.unpack = unpacked at means
  cases means with
  | zero sign => exact absurd above (lt_irrefl 0)
  | @finite sign m e solid stored =>
    cases sign with
    | positive => exact ⟨m, e, solid, stored, rfl, rfl⟩
    | negative => exact absurd above (not_lt.mpr (neg_nonpos.mpr (size_nonneg m e)))

/-- A quotient of bits with powers of two is rounded without passing a float. -/
theorem exists_roundsTo_div (filled : 0 < m) (solid : 0 < n) (e f : Int) :
    ∃ rounded, Means (UnpackedFloat.div .binary64 (.finite .positive m e filled)
        (.finite .positive n f solid)) rounded ∧
      RoundsTo (size m e / size n f) rounded := by
  rw [unpacked_div_eq]
  exact exists_roundsTo_roundWithAccuracy _ (quotientPower_le_grid filled solid (e - f))
    (quotientBits_le solid e f) (lt_quotientBits_succ solid e f) (quotientAccuracy_of_eq solid)

/-- A quotient of two floats above zero, up to one, is rounded without passing a float. -/
theorem IsExactly.exists_div (exact : IsExactly value number) (again : IsExactly other another)
    (above : 0 < number) (most : number ≤ another) :
    ∃ rounded, IsExactly (value / other) rounded ∧ RoundsTo (number / another) rounded := by
  have positive := above.trans_le most
  obtain ⟨m, e, filled, -, rfl, left⟩ := exact.unpack_of_pos above
  obtain ⟨n, f, solid, -, rfl, right⟩ := again.unpack_of_pos positive
  obtain ⟨rounded, means, rounds⟩ := exists_roundsTo_div filled solid e f
  rw [← left, ← right] at means
  exact ⟨rounded, rounds.isExactly means (div_nonneg above.le positive.le)
    (div_le_one_of_le₀ most positive.le), rounds⟩

/-- A product of a float above zero and one that is not below it, up to one, is rounded without
passing a float. -/
theorem IsExactly.exists_mul (exact : IsExactly value number) (again : IsExactly other another)
    (above : 0 < number) (floor : 0 ≤ another) (most : number * another ≤ 1) :
    ∃ rounded, IsExactly (value * other) rounded ∧ RoundsTo (number * another) rounded := by
  suffices product : ∃ rounded,
      Means (UnpackedFloat.mul .binary64 value.toModel.unpack other.toModel.unpack) rounded ∧
        RoundsTo (number * another) rounded by
    obtain ⟨rounded, means, rounds⟩ := product
    exact ⟨rounded, rounds.isExactly means (mul_nonneg above.le floor) most, rounds⟩
  obtain ⟨m, e, filled, first, rfl, left⟩ := exact.unpack_of_pos above
  rw [left]
  rcases floor.eq_or_lt with rfl | positive
  · obtain ⟨sign, right⟩ := again.unpack_of_zero
    rw [right, mul_zero]
    exact ⟨0, .zero _, .refl 0⟩
  · obtain ⟨n, f, solid, second, rfl, right⟩ := again.unpack_of_pos positive
    have product : size m e * size n f = size (m * n) (e + f) := by
      unfold size
      push_cast
      rw [zpow_add₀ (by norm_num)]
      ring
    rw [right, product]
    exact exists_roundsTo_roundWithAccuracy .exact (first.add_le_grid second filled solid) le_rfl
      (size_lt_size_succ _ _) fun _ => rfl

/-! ## Powers of ten -/

/-- The powers of ten that are floats are exact. -/
theorem isExactly_powerOfTen {places : Nat}
    (inside : places < Float.exactlyRepresentablePowersOfTen.size) :
    IsExactly Float.exactlyRepresentablePowersOfTen[places] (10 ^ places) := by
  have all : ∀ places (inside : places < Float.exactlyRepresentablePowersOfTen.size),
      (Dyadic.ofFloat? Float.exactlyRepresentablePowersOfTen[places]).any (fun power =>
        !power.negative && power.numerator == 10 ^ places * power.denominator) = true := by
    decide +kernel
  obtain ⟨power, found, known⟩ := Option.any_eq_true _ _ |>.mp (all places inside)
  rw [Bool.and_eq_true, Bool.not_eq_true', beq_iff_eq] at known
  have divisor : (power.denominator : ℚ) ≠ 0 := by exact_mod_cast power.denominator_pos.ne'
  refine ⟨power, found, ?_⟩
  rw [Dyadic.toRat, known.1, Dyadic.size_eq_div, known.2]
  show _ / _ = _
  push_cast
  field_simp

/-- No float but zero is up to a number below the smallest of them. -/
theorem roundsTo_zero (floor : 0 ≤ number) (below : number < smallest) : RoundsTo number 0 where
  floor float isFloat least := by
    by_contra above
    obtain ⟨m, e, stored, rfl⟩ := isFloat.exists_size (not_le.mp above).le
    have solid : m ≠ 0 := by
      rintro rfl
      exact above (size_zero e).le
    exact absurd (least.trans_lt below) (not_lt.mpr (stored.smallest_le solid))
  ceiling _ _ most := floor.trans most

/-- A power of ten that is far below every float is no float but zero. -/
theorem ofScientific_one_of_tiny {places : Nat} (tiny : 2048 < places) :
    IsExactly (Float.ofScientific 1 true places) 0 ∧ RoundsTo (1 / 10 ^ places) 0 := by
  have power : Int.negOfNat places = -(places : Int) := Int.negOfNat_eq
  have bits : (2 : Int) ^ Format.binary64.exponentBits = 2048 := by decide
  have log : Nat.log2 1 = 0 := by decide
  have zero : UnpackedFloat.ofScientific .binary64 1 (Int.negOfNat places) = .zero .positive := by
    unfold UnpackedFloat.ofScientific
    rw [power, bits, dif_neg (by decide), if_neg (by omega), if_pos (by omega)]
  have result : Float.ofScientific 1 true places =
      .ofModel (Float.Model.pack (.zero .positive)) := by
    rw [← zero]
    unfold Float.ofScientific
    rw [dif_neg (by omega)]
    rfl
  have far : (2 : ℚ) ^ 1074 < 10 ^ places :=
    calc (2 : ℚ) ^ 1074 < 2 ^ places := pow_lt_pow_right₀ (by norm_num) (by omega)
      _ ≤ 10 ^ places := pow_le_pow_left₀ (by norm_num) (by norm_num) _
  rw [result]
  refine ⟨(Means.zero .positive).isExactly (by norm_num), roundsTo_zero (by positivity) ?_⟩
  rw [smallest, zpow_neg, one_div]
  exact inv_strictAnti₀ (by positivity) far

/-- One over a power of ten has a float, and no float is passed. -/
theorem exists_isExactly_ofScientific_one (places : Nat) :
    ∃ unit, IsExactly (Float.ofScientific 1 true places) unit ∧
      RoundsTo (1 / 10 ^ places) unit := by
  have below : (1 : ℚ) ≤ 10 ^ places := one_le_pow₀ (by norm_num)
  rcases Nat.lt_or_ge 2048 places with tiny | few
  · exact ⟨0, ofScientific_one_of_tiny tiny⟩
  · rcases Nat.lt_or_ge 22 places with many | short
    · obtain ⟨unit, means, rounds⟩ :=
        exists_roundsTo_div Nat.one_pos (show 0 < 10 ^ places by positivity) 0 0
      rw [size, size, zpow_zero, mul_one, mul_one, Nat.cast_one, Nat.cast_pow] at rounds
      rw [ofScientific_eq_div Nat.one_pos many few]
      exact ⟨unit, rounds.isExactly means (by positivity) (div_le_one_of_le₀ below (by positivity)),
        rounds⟩
    · have one : IsExactly (1 : Nat).toUInt64.toFloat 1 :=
        ⟨⟨false, 2 ^ 52, -52⟩, by decide +kernel, by norm_num [Dyadic.toRat, signed, size]⟩
      have inside : places < Float.exactlyRepresentablePowersOfTen.size := Nat.lt_succ_of_le short
      have quotient : Float.ofScientific 1 true places =
          (1 : Nat).toUInt64.toFloat / Float.exactlyRepresentablePowersOfTen[places] := by
        unfold Float.ofScientific
        rw [dif_pos ⟨by decide, short⟩]
        rfl
      rw [quotient]
      exact one.exists_div (isExactly_powerOfTen inside) one_pos below

/-- Half of one over a power of ten has a float, and no other float stands between the two. -/
theorem exists_isExactly_half (places : Nat) :
    ∃ half, IsExactly (0.5 * Float.ofScientific 1 true places) half ∧ 0 ≤ half ∧
      ∀ float, IsFloat float →
        (float < half → 2 * float < 1 / 10 ^ places) ∧
          (half < float → 1 / 10 ^ places < 2 * float) := by
  have below : (1 : ℚ) / 10 ^ places ≤ 1 :=
    div_le_one_of_le₀ (one_le_pow₀ (by norm_num)) (by positivity)
  obtain ⟨unit, exact, rounds⟩ := exists_isExactly_ofScientific_one places
  have floor : 0 ≤ unit := rounds.floor 0 isFloat_zero (by positivity)
  have most : unit ≤ 1 := rounds.ceiling 1 isFloat_one below
  have factor : IsExactly 0.5 (1 / 2) :=
    ⟨⟨false, 2 ^ 52, -53⟩, by decide +kernel, by norm_num [Dyadic.toRat, signed, size]⟩
  obtain ⟨half, known, halves⟩ := factor.exists_mul exact (by norm_num) floor (by linarith)
  have least : 0 ≤ half := halves.floor 0 isFloat_zero (by linarith)
  refine ⟨half, known, least, fun float isFloat => ⟨fun less => ?_, fun more => ?_⟩⟩
  · by_contra far
    have above := rounds.ceiling _ isFloat.double (not_lt.mp far)
    have reached := halves.ceiling float isFloat (by linarith)
    linarith
  · by_contra far
    have above := rounds.floor _ isFloat.double (not_lt.mp far)
    have reached := halves.floor float isFloat (by linarith)
    linarith

end GcodeSender
