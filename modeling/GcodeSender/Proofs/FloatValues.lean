import GcodeSender.Proofs.FloatOrder

/-!
# Floats as rational numbers

A finite float is a rational number, its exact value (`IsExactly`). It is stored in one form only,
with as many bits before its power of two as there can be, and so floats compare as their numbers
do. A result in that form is stored as it is, unless its power of two is too great, and then an
infinity is stored.
-/
namespace GcodeSender

open Float.Model (UnpackedFloat Format)
open Float.Model.UnpackedFloat (Sign packComponents unpackSign unpackExponent unpackMantissa)

/-! ## Exact values -/

/-- The size of a whole number times a power of two. -/
def size (significand : Nat) (exponent : Int) : ℚ := significand * 2 ^ exponent

/-- A size with a sign. -/
def signed (negative : Bool) (size : ℚ) : ℚ := if negative then -size else size

/-- An exact value as a rational number. -/
def Dyadic.toRat (exact : Dyadic) : ℚ :=
  signed exact.negative (size exact.significand exact.exponent)

/-- A float is finite and is a number. -/
def IsExactly (value : Float) (number : ℚ) : Prop :=
  ∃ exact, Dyadic.ofFloat? value = some exact ∧ exact.toRat = number

/-- The form in which a finite float is stored: at most 53 bits, and fewer only with the smallest
power of two. -/
structure IsStored (significand : Nat) (exponent : Int) : Prop where
  /-- At most 53 bits. -/
  below : significand < 2 ^ 53
  /-- No smaller power of two than the smallest. -/
  floor : -1074 ≤ exponent
  /-- All bits, or the smallest power of two. -/
  full : 2 ^ 52 ≤ significand ∨ exponent = -1074

/-- An unpacked float is finite, in the stored form, and is a number. -/
inductive Means : UnpackedFloat → ℚ → Prop where
  /-- A zero of either sign. -/
  | zero (sign : Sign) : Means (.zero sign) 0
  /-- A float with bits. -/
  | finite (sign : Sign) {significand : Nat} {exponent : Int} (solid : 0 < significand)
      (stored : IsStored significand exponent) :
      Means (.finite sign significand exponent solid)
        (signed (sign == .negative) (size significand exponent))

theorem size_nonneg (significand : Nat) (exponent : Int) : 0 ≤ size significand exponent := by
  unfold size
  positivity

theorem size_pos {significand : Nat} (solid : 0 < significand) (exponent : Int) :
    0 < size significand exponent := by
  unfold size
  positivity

/-- One more is one power of two more. -/
theorem size_succ (significand : Nat) (exponent : Int) :
    size (significand + 1) exponent = size significand exponent + 2 ^ exponent := by
  unfold size
  push_cast
  ring

theorem size_lt_size_succ (significand : Nat) (exponent : Int) :
    size significand exponent < size (significand + 1) exponent := by
  rw [size_succ]
  exact lt_add_of_pos_right _ (by positivity)

@[simp] theorem size_zero (exponent : Int) : size 0 exponent = 0 := by simp [size]

@[simp] theorem abs_signed (negative : Bool) (size : ℚ) : |signed negative size| = |size| := by
  cases negative <;> simp [signed]

@[simp] theorem signed_zero (negative : Bool) : signed negative 0 = 0 := by
  cases negative <;> simp [signed]

variable {value other : Float} {number another : ℚ}

/-- The absolute value of an exact value is its size. -/
theorem Dyadic.abs_toRat (exact : Dyadic) :
    |exact.toRat| = size exact.significand exact.exponent := by
  rw [toRat, abs_signed, abs_of_nonneg (size_nonneg _ _)]

/-- The size of an exact value is its numerator over its denominator. -/
theorem Dyadic.size_eq_div (exact : Dyadic) :
    size exact.significand exact.exponent = exact.numerator / exact.denominator := by
  have powers : (Nat.pow 2 exact.exponent.toNat : ℚ) = 2 ^ (exact.exponent.toNat : Int) ∧
      (Nat.pow 2 (-exact.exponent).toNat : ℚ) = 2 ^ ((-exact.exponent).toNat : Int) := by
    rw [zpow_natCast, zpow_natCast]
    exact ⟨Nat.cast_pow 2 _, Nat.cast_pow 2 _⟩
  have power : exact.exponent =
      (exact.exponent.toNat : Int) - ((-exact.exponent).toNat : Int) := by omega
  rw [size, numerator, denominator, Nat.cast_mul, powers.1, powers.2, mul_div_assoc,
    ← zpow_sub₀ (by norm_num), ← power]

/-- The exact value of a float is in the stored form. -/
theorem isStored_of_ofFloat? {exact : Dyadic} (found : Dyadic.ofFloat? value = some exact) :
    IsStored exact.significand exact.exponent := by
  have below := (Dyadic.bounds_of_ofFloat? found).1
  refine ⟨below, ?_, ?_⟩ <;>
  · unfold Dyadic.ofFloat? at found
    dsimp only at found
    have bits : Nat.pow 2 52 = 2 ^ 52 := rfl
    split at found
    · cases found
    · split at found
      · cases found
        simp
      · cases found
        dsimp only
        omega

/-- A float is the number that its unpacked form is. -/
theorem isExactly_iff_means : IsExactly value number ↔ Means value.toModel.unpack number := by
  constructor
  · rintro ⟨exact, found, rfl⟩
    have stored := isStored_of_ofFloat? found
    rw [Dyadic.ofFloat?_eq_ofUnpacked?] at found
    revert found
    cases value.toModel.unpack with
    | infinity sign => exact fun found => nomatch found
    | notANumber => exact fun found => nomatch found
    | zero sign =>
      rintro ⟨⟩
      simpa [Dyadic.toRat] using Means.zero sign
    | finite sign mantissa exponent solid =>
      rintro ⟨⟩
      exact .finite sign solid stored
  · unfold IsExactly
    rw [Dyadic.ofFloat?_eq_ofUnpacked?]
    generalize value.toModel.unpack = unpacked
    intro means
    cases means with
    | zero sign => exact ⟨_, rfl, by simp [Dyadic.toRat]⟩
    | finite sign solid stored => exact ⟨_, rfl, rfl⟩

/-- A float is one number. -/
theorem IsExactly.unique (exact : IsExactly value number) (again : IsExactly value another) :
    number = another := by
  obtain ⟨_, found, rfl⟩ := exact
  obtain ⟨_, same, rfl⟩ := again
  rw [Option.some.inj (found.symm.trans same)]

/-- The floats that are numbers are the finite ones. -/
theorem exists_isExactly_iff : (∃ number, IsExactly value number) ↔ value.isFinite = true := by
  constructor
  · rintro ⟨_, exact, found, -⟩
    by_contra endless
    rw [Dyadic.ofFloat?_of_not_isFinite endless] at found
    cases found
  · intro finite
    obtain ⟨exact, found⟩ := Dyadic.exists_of_isFinite finite
    exact ⟨exact.toRat, exact, found, rfl⟩

/-- A finite float is not NaN. -/
theorem IsExactly.isNaN_eq_false (exact : IsExactly value number) : value.isNaN = false := by
  have finite : value.toModel.unpack.isFinite = true := exists_isExactly_iff.mp ⟨number, exact⟩
  show value.toModel.unpack.isNaN = false
  revert finite
  cases value.toModel.unpack <;> simp [UnpackedFloat.isFinite, UnpackedFloat.isNaN]

/-- A finite float is no infinity. -/
theorem IsExactly.isInf_eq_false (exact : IsExactly value number) : value.isInf = false := by
  have finite : value.toModel.unpack.isFinite = true := exists_isExactly_iff.mp ⟨number, exact⟩
  show value.toModel.unpack.isInf = false
  revert finite
  cases value.toModel.unpack <;> simp [UnpackedFloat.isFinite, UnpackedFloat.isInf]

/-- Floats with one unpacked form are one float. -/
theorem eq_of_unpack_eq (same : value.toModel.unpack = other.toModel.unpack) : value = other := by
  obtain ⟨⟨word, sound⟩⟩ := value
  obtain ⟨⟨word', sound'⟩⟩ := other
  have bits := (UnpackedFloat.unpack_inj_of_valid sound sound').mp same
  have words : word = word' := UInt64.toBitVec_inj.mp bits
  subst words
  rfl

/-- A finite float is known by its exact value. -/
theorem Dyadic.eq_of_ofFloat? {exact : Dyadic}
    (found : Dyadic.ofFloat? value = some exact) (same : Dyadic.ofFloat? other = some exact) :
    value = other := by
  have signs {sign sign' : Sign} (same : (sign == .negative) = (sign' == .negative)) :
      sign = sign' := by
    cases sign <;> cases sign' <;> first | rfl | cases same
  apply eq_of_unpack_eq
  rw [ofFloat?_eq_ofUnpacked?] at found same
  have parts := found.trans same.symm
  generalize value.toModel.unpack = first at *
  generalize other.toModel.unpack = second at *
  -- Only a zero has no bits, so parts that agree are of one kind.
  cases first <;> cases second <;> simp only [ofUnpacked?, Option.some.injEq, Dyadic.mk.injEq,
    reduceCtorEq] at found same parts
  · rw [signs parts.1]
  · next solid => exact absurd parts.2.1 solid.ne
  · next solid _ => exact absurd parts.2.1 solid.ne'
  · obtain ⟨sign, rfl, rfl⟩ := parts
    rw [signs sign]

/-- A float that is zero is unpacked as a zero. -/
theorem IsExactly.unpack_of_zero (exact : IsExactly value 0) :
    ∃ sign, value.toModel.unpack = .zero sign := by
  have means := isExactly_iff_means.mp exact
  generalize value.toModel.unpack = unpacked at means
  generalize numeral : (0 : ℚ) = number at means
  cases means with
  | zero sign => exact ⟨sign, rfl⟩
  | @finite sign m e solid stored =>
    have size := (abs_signed (sign == .negative) (size m e)).symm
    rw [← numeral, abs_zero] at size
    exact absurd (abs_eq_zero.mp size) (size_pos solid e).ne'

/-- A float that is zero or not finite is unpacked as a zero, an infinity or no number. -/
theorem unpack_of_not_solid (known : IsExactly value 0 ∨ value.isFinite = false) :
    (∃ sign, value.toModel.unpack = .zero sign) ∨ (∃ sign, value.toModel.unpack = .infinity sign) ∨
      value.toModel.unpack = .notANumber := by
  rcases known with zero | endless
  · exact .inl zero.unpack_of_zero
  · have endless : value.toModel.unpack.isFinite = false := endless
    revert endless
    cases value.toModel.unpack with
    | infinity sign => exact fun _ => .inr (.inl ⟨sign, rfl⟩)
    | notANumber => exact fun _ => .inr (.inr rfl)
    | zero sign => exact fun endless => nomatch endless
    | finite sign mantissa exponent solid => exact fun endless => nomatch endless

/-- A finite float stays below the end of the range. -/
theorem IsExactly.abs_lt (exact : IsExactly value number) : |number| < 2 ^ 1024 := by
  obtain ⟨parts, found, rfl⟩ := exact
  obtain ⟨below, ceiling⟩ := Dyadic.bounds_of_ofFloat? found
  have bits : (parts.significand : ℚ) < 2 ^ 53 := by exact_mod_cast below
  have power : (2 : ℚ) ^ parts.exponent ≤ 2 ^ 971 := by
    rw [← zpow_natCast]
    exact zpow_le_zpow_right₀ (by norm_num) ceiling
  rw [Dyadic.abs_toRat]
  calc size parts.significand parts.exponent < 2 ^ 53 * 2 ^ parts.exponent :=
        mul_lt_mul_of_pos_right bits (by positivity)
    _ ≤ 2 ^ 53 * 2 ^ 971 := mul_le_mul_of_nonneg_left power (by positivity)
    _ = 2 ^ 1024 := (pow_add 2 53 971).symm

/-! ## Order -/

/-- In the stored form a size with a greater power of two is no less than the next size. -/
theorem IsStored.size_succ_le_of_exponent_lt {m n : Nat} {e f : Int} (first : IsStored m e)
    (second : IsStored n f) (less : e < f) : size (m + 1) e ≤ size n f := by
  have full : 2 ^ 52 ≤ n := by
    have floor := first.floor
    have full := second.full
    omega
  have wide : ((m + 1 : Nat) : ℚ) ≤ 2 ^ 53 := by exact_mod_cast first.below
  have solid : (2 ^ 52 : ℚ) ≤ n := by exact_mod_cast full
  have step : (2 : ℚ) ^ (e + 1) ≤ 2 ^ f := zpow_le_zpow_right₀ (by norm_num) less
  calc size (m + 1) e ≤ 2 ^ 53 * 2 ^ e := mul_le_mul_of_nonneg_right wide (by positivity)
    _ = 2 ^ 52 * 2 ^ (e + 1) := by rw [zpow_add_one₀ (by norm_num)]; ring
    _ ≤ n * 2 ^ f := mul_le_mul solid step (by positivity) (by positivity)

/-- In the stored form a smaller power of two makes a smaller size. -/
theorem IsStored.size_lt_of_exponent_lt {m n : Nat} {e f : Int} (first : IsStored m e)
    (second : IsStored n f) (less : e < f) : size m e < size n f :=
  (size_lt_size_succ m e).trans_le (first.size_succ_le_of_exponent_lt second less)

/-- In the stored form sizes compare by their powers of two and then by their bits. -/
theorem IsStored.compare_size {m n : Nat} {e f : Int} (first : IsStored m e)
    (second : IsStored n f) :
    (compare e f).then (compare m n) = compare (size m e) (size n f) := by
  rcases lt_trichotomy e f with less | rfl | more
  · rw [compare_lt_iff_lt.mpr less,
      compare_lt_iff_lt.mpr (first.size_lt_of_exponent_lt second less)]
    rfl
  · have unit : (0 : ℚ) < 2 ^ e := by positivity
    rw [compare_eq_iff_eq.mpr rfl]
    show compare m n = _
    rcases lt_trichotomy m n with less | rfl | more
    · have below : (m : ℚ) < n := by exact_mod_cast less
      rw [compare_lt_iff_lt.mpr less]
      exact (compare_lt_iff_lt.mpr (mul_lt_mul_of_pos_right below unit)).symm
    · rw [compare_eq_iff_eq.mpr rfl, compare_eq_iff_eq.mpr rfl]
    · have above : (n : ℚ) < m := by exact_mod_cast more
      rw [compare_gt_iff_gt.mpr more]
      exact (compare_gt_iff_gt.mpr (mul_lt_mul_of_pos_right above unit)).symm
  · rw [compare_gt_iff_gt.mpr more,
      compare_gt_iff_gt.mpr (second.size_lt_of_exponent_lt first more)]
    rfl

/-- A size has one stored form. -/
theorem IsStored.eq_of_size_eq {m n : Nat} {e f : Int} (first : IsStored m e)
    (second : IsStored n f) (same : size m e = size n f) : m = n ∧ e = f := by
  have order := first.compare_size second
  rw [compare_eq_iff_eq.mpr same, Ordering.then_eq_eq, compare_eq_iff_eq, compare_eq_iff_eq]
    at order
  exact order.symm

/-- Numbers with their signs turned compare turned around. -/
theorem compare_neg_neg (x y : ℚ) : compare (-x) (-y) = (compare x y).swap := by
  rw [← Std.OrientedCmp.eq_swap]
  rcases lt_trichotomy x y with less | rfl | more
  · rw [compare_gt_iff_gt.mpr less, compare_gt_iff_gt.mpr (neg_lt_neg less)]
  · rw [compare_eq_iff_eq.mpr rfl, compare_eq_iff_eq.mpr rfl]
  · rw [compare_lt_iff_lt.mpr more, compare_lt_iff_lt.mpr (neg_lt_neg more)]

/-- Unpacked floats compare as their numbers do. -/
theorem Means.compare {first second : UnpackedFloat} (means : Means first number)
    (again : Means second another) : first.compare second = some (compare number another) := by
  cases means with
  | zero sign =>
    cases again with
    | zero sign => rw [compare_eq_iff_eq.mpr rfl]; rfl
    | finite sign solid stored =>
      have above := size_pos solid ‹Int›
      cases sign with
      | positive => exact congrArg some (compare_lt_iff_lt.mpr above).symm
      | negative => exact congrArg some (compare_gt_iff_gt.mpr (neg_neg_of_pos above)).symm
  | finite sign solid stored =>
    have above := size_pos solid ‹Int›
    cases again with
    | zero other =>
      cases sign with
      | positive => exact congrArg some (compare_gt_iff_gt.mpr above).symm
      | negative => exact congrArg some (compare_lt_iff_lt.mpr (neg_neg_of_pos above)).symm
    | finite other filled kept =>
      have higher := size_pos filled ‹Int›
      have order := stored.compare_size kept
      cases sign <;> cases other
      · exact congrArg some ((congrArg Ordering.swap order).trans (compare_neg_neg _ _).symm)
      · exact congrArg some (compare_lt_iff_lt.mpr ((neg_neg_of_pos above).trans higher)).symm
      · exact congrArg some (compare_gt_iff_gt.mpr ((neg_neg_of_pos higher).trans above)).symm
      · exact congrArg some order

/-- A float is up to another exactly when its number is. -/
theorem IsExactly.le_iff (exact : IsExactly value number) (again : IsExactly other another) :
    value ≤ other ↔ number ≤ another := by
  have order := (isExactly_iff_means.mp exact).compare (isExactly_iff_means.mp again)
  have below : value ≤ other ↔
      (value.toModel.unpack.compare other.toModel.unpack).any (·.isLE) = true :=
    ⟨of_decide_eq_true, fun order => decide_eq_true order⟩
  rw [below, order, Option.any_some]
  exact Ordering.ne_gt_iff_isLE.symm.trans compare_le_iff_le

/-! ## Storing a result -/

/-- Parts whose exponent is full and whose bits are clear are an infinity. -/
theorem unpack_packedInfinity (sign : Sign) :
    UnpackedFloat.unpack .binary64 (UnpackedFloat.packedInfinity .binary64 sign) =
      .infinity sign := by
  unfold UnpackedFloat.packedInfinity UnpackedFloat.unpack
  simp [UnpackedFloat.unpackSign_packComponents, UnpackedFloat.unpackExponent_packComponents,
    UnpackedFloat.unpackMantissa_packComponents, Sign.ofBitVec_toBitVec]

/-- Parts whose exponent is neither full nor clear are a float with all its bits. -/
theorem unpack_normal (sign : Sign) {exponent : BitVec 11} (mantissa : BitVec 52)
    (below : exponent ≠ -1#11) (above : exponent ≠ 0#11) :
    ∃ solid, UnpackedFloat.unpack .binary64 (packComponents .binary64 sign exponent mantissa) =
      .finite sign (2 ^ 52 + mantissa.toNat) (exponent.toNat - 1075) solid := by
  have bits : (1#1 ++ mantissa).toNat = 2 ^ 52 + mantissa.toNat := by
    rw [BitVec.toNat_append, ← Nat.shiftLeft_add_eq_or_of_lt mantissa.isLt]
    rfl
  have bias : (Format.binary64.exponentBias : Int) + Format.binary64.mantissaBitsWithoutImplicit =
      1075 := by decide
  refine ⟨by positivity, ?_⟩
  simp only [UnpackedFloat.unpack, UnpackedFloat.unpackSign_packComponents,
    UnpackedFloat.unpackExponent_packComponents, UnpackedFloat.unpackMantissa_packComponents,
    Sign.ofBitVec_toBitVec, if_neg below, if_neg above, bits, bias]

/-- Parts whose exponent is clear and whose bits are not are a float with the smallest power of
two. -/
theorem unpack_subnormal (sign : Sign) {mantissa : BitVec 52} (solid : mantissa ≠ 0#52) :
    ∃ solid, UnpackedFloat.unpack .binary64 (packComponents .binary64 sign 0#11 mantissa) =
      .finite sign mantissa.toNat (-1074) solid := by
  have bias : Format.binary64.exponentBias = 1023 := by decide
  have filled : 0 < mantissa.toNat := by
    have other : mantissa.toNat ≠ 0 := fun zero => solid (BitVec.eq_of_toNat_eq zero)
    omega
  refine ⟨filled, ?_⟩
  simp [UnpackedFloat.unpack, UnpackedFloat.unpackSign_packComponents,
    UnpackedFloat.unpackExponent_packComponents, UnpackedFloat.unpackMantissa_packComponents,
    Sign.ofBitVec_toBitVec, solid, bias]

/-- A result in the stored form is stored as it is, or its number is too great and an infinity is
stored. -/
theorem Means.unpack_pack {result : UnpackedFloat} (means : Means result number) :
    (Float.Model.pack result).unpack = result ∨
      (∃ sign, (Float.Model.pack result).unpack = .infinity sign) ∧ 2 ^ 1024 ≤ |number| := by
  show UnpackedFloat.unpack .binary64 (UnpackedFloat.pack .binary64 result) = result ∨
    (∃ sign, UnpackedFloat.unpack .binary64 (UnpackedFloat.pack .binary64 result) = _) ∧ _
  cases means with
  | zero sign => exact .inl UnpackedFloat.unpack_packedZero
  | @finite sign m e solid stored =>
    have below := stored.below
    have floor := stored.floor
    have full := stored.full
    have biased : e + Format.binary64.exponentBias +
        Format.binary64.mantissaBitsWithoutImplicit = e + 1075 := by
      show e + 1023 + 52 = e + 1075
      omega
    have codes : 2 ^ Format.binary64.exponentBits = 2048 := by decide
    have places : Format.binary64.mantissaBits = 53 := by decide
    simp only [UnpackedFloat.pack, biased, codes, places]
    split
    · next high =>
      have bits : (2 ^ 52 : ℚ) ≤ m := by
        have wide : 2 ^ 52 ≤ m := by omega
        exact_mod_cast wide
      have power : (2 : ℚ) ^ 972 ≤ 2 ^ e := by
        rw [← zpow_natCast]
        exact zpow_le_zpow_right₀ (by norm_num) (by omega)
      refine .inr ⟨⟨sign, unpack_packedInfinity sign⟩, ?_⟩
      rw [abs_signed, abs_of_nonneg (size_nonneg m e)]
      calc (2 : ℚ) ^ 1024 = 2 ^ 52 * 2 ^ 972 := pow_add 2 52 972
        _ ≤ size m e := mul_le_mul bits power (by positivity) (by positivity)
    · next low =>
      have code : (BitVec.ofNat 11 (e + 1075).toNat).toNat = (e + 1075).toNat := by
        rw [BitVec.toNat_ofNat, Nat.mod_eq_of_lt (by omega)]
      split
      · next wide =>
        have bits : 2 ^ 52 ≤ m := by
          have log : m.log2 = 52 := by omega
          exact log ▸ Nat.log2_self_le (by omega)
        have least : BitVec.ofNat 11 (e + 1075).toNat ≠ 0#11 := by
          intro same
          have zero := congrArg BitVec.toNat same
          rw [code] at zero
          have none : (0#11).toNat = 0 := by decide
          omega
        have greatest : BitVec.ofNat 11 (e + 1075).toNat ≠ -1#11 := by
          intro same
          have all := congrArg BitVec.toNat same
          rw [code] at all
          have ones : (-1#11).toNat = 2047 := by decide
          omega
        obtain ⟨_, read⟩ := unpack_normal sign (BitVec.ofNat 52 m) greatest least
        have mantissa : 2 ^ 52 + (BitVec.ofNat 52 m).toNat = m := by
          rw [BitVec.toNat_ofNat]
          omega
        have exponent : ((BitVec.ofNat 11 (e + 1075).toNat).toNat : Int) - 1075 = e := by omega
        left
        simp only [mantissa, exponent] at read
        exact read
      · next narrow =>
        have bits : m < 2 ^ 52 := by
          by_contra wide
          exact narrow (by rw [(Nat.log2_eq_iff (by omega)).mpr ⟨by omega, below⟩])
        have least : e = -1074 := by omega
        have mantissa : (BitVec.ofNat 52 m).toNat = m := by
          rw [BitVec.toNat_ofNat, Nat.mod_eq_of_lt bits]
        have filled : BitVec.ofNat 52 m ≠ 0#52 := by
          intro same
          have zero := congrArg BitVec.toNat same
          rw [mantissa] at zero
          exact absurd zero (by simpa using Nat.ne_of_gt solid)
        obtain ⟨_, read⟩ := unpack_subnormal sign filled
        left
        simp only [mantissa, ← least] at read
        exact read

/-- A result in the stored form that is not too great is the number that is stored. -/
theorem Means.isExactly {result : UnpackedFloat} (means : Means result number)
    (small : |number| < 2 ^ 1024) :
    IsExactly (.ofModel (Float.Model.pack result)) number := by
  rw [isExactly_iff_means]
  rcases means.unpack_pack with kept | ⟨-, great⟩
  · show Means (Float.Model.pack result).unpack number
    rw [kept]
    exact means
  · exact absurd great (not_le.mpr small)

/-- What is stored for a result in the stored form is its number, if it is finite. -/
theorem Means.eq_of_isExactly {result : UnpackedFloat} (means : Means result number)
    (exact : IsExactly (.ofModel (Float.Model.pack result)) another) : another = number := by
  have stored : Means (Float.Model.pack result).unpack another := isExactly_iff_means.mp exact
  rcases means.unpack_pack with kept | ⟨⟨sign, endless⟩, -⟩
  · have again : IsExactly (.ofModel (Float.Model.pack result)) number :=
      isExactly_iff_means.mpr (show Means (Float.Model.pack result).unpack number from
        kept.symm ▸ means)
    exact exact.unique again
  · rw [endless] at stored
    cases stored

end GcodeSender
