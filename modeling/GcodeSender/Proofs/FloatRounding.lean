import GcodeSender.Proofs.FloatValues

/-!
# Rounding of float results

A sum, a difference and a product of floats are rounded once, and so is a quotient of whole
numbers: the exact result is cut to the bits that a float has (`grid` is the power of two where),
and what is cut off adds at most one to the last of them. So the float that is stored is off the
exact result by at most `roundingError`. The main statements bound the error of each operation.
-/
namespace GcodeSender

open Float.Model (UnpackedFloat Format totalExponent)
open Float.Model.UnpackedFloat (Sign Accuracy ExtendedMantissa)

/-! ## Cutting bits off -/

/-- The power of two to which a result is rounded: it leaves 53 bits, or it is the smallest. -/
def grid (m : Nat) (e : Int) : Int := max (m.log2 + 1 + e - 53) (-1074)

/-- The smallest float. -/
def smallest : ℚ := 2 ^ (-1074 : Int)

/-- A bound on the error of rounding a number: two units in the last of 53 bits, or the smallest
float. -/
def roundingError (number : ℚ) : ℚ := |number| / 2 ^ 52 + smallest

/-- The bits that are kept of a number on its grid, with what is known of those that are not. -/
def cutToGrid (m : Nat) (e : Int) (accuracy : Accuracy) : ExtendedMantissa :=
  ExtendedMantissa.ofMantissaAndAccuracy m accuracy >>> (grid m e - e).toNat

/-- The unpacked float of a sign, bits and a power of two. -/
def ofParts (sign : Sign) (m : Nat) (e : Int) : UnpackedFloat :=
  if zero : m = 0 then .zero sign else .finite sign m e (Nat.pos_of_ne_zero zero)

theorem smallest_pos : 0 < smallest := zpow_pos (by norm_num) _

theorem smallest_le_one : smallest ≤ 1 := zpow_le_one_of_nonpos₀ (by norm_num) (by norm_num)

variable {m n : Nat} {e : Int}

/-- Parts in the stored form are their number. -/
theorem means_ofParts (sign : Sign) (stored : IsStored m e) :
    Means (ofParts sign m e) (signed (sign == .negative) (size m e)) := by
  unfold ofParts
  split
  · next zero =>
    rw [zero, size_zero, signed_zero]
    exact .zero sign
  · exact .finite sign _ stored

/-- Shifting right divides by a power of two, whatever bits fall off. -/
theorem mantissa_shiftRight (extended : ExtendedMantissa) (count : Nat) :
    (extended >>> count).mantissa = extended.mantissa / 2 ^ count := by
  induction count with
  | zero => simp; rfl
  | succ count ih =>
    show (ExtendedMantissa.shiftRightOne (extended >>> count)).mantissa = _
    rw [ExtendedMantissa.shiftRightOne, ih, Nat.div_div_eq_div_mul, Nat.pow_succ]

/-- The bits that fell off add at most one. -/
theorem roundedMantissa_eq_or (extended : ExtendedMantissa) :
    extended.roundedMantissa = extended.mantissa ∨
      extended.roundedMantissa = extended.mantissa + 1 := by
  unfold ExtendedMantissa.roundedMantissa
  cases extended.accuracy with
  | exact => exact .inl rfl
  | inexact order =>
    cases order with
    | lt => exact .inl rfl
    | eq =>
      have even : Accuracy.roundToNearestEven extended.mantissa (.inexact .eq) =
          extended.mantissa + extended.mantissa % 2 := rfl
      omega
    | gt => exact .inr rfl

/-- Bits with what is known of those after them are the bits. -/
theorem mantissa_ofMantissaAndAccuracy (m : Nat) (accuracy : Accuracy) :
    (ExtendedMantissa.ofMantissaAndAccuracy m accuracy).mantissa = m := by
  cases accuracy with
  | exact => rfl
  | inexact order => cases order <;> rfl

/-- Cut to its grid, a number has at most 53 bits, and fewer only with the smallest power. -/
theorem isStored_div_grid (m : Nat) (fits : e ≤ grid m e) :
    IsStored (m / 2 ^ (grid m e - e).toNat) (grid m e) := by
  have floor : -1074 ≤ grid m e := le_max_right _ _
  by_cases zero : m = 0
  · subst zero
    have least : grid 0 e = -1074 := by
      have log : Nat.log2 0 = 0 := rfl
      unfold grid at fits ⊢
      omega
    exact ⟨by simp, floor, .inr least⟩
  · have log := (Nat.log2_eq_iff zero).mp rfl
    constructor
    · have wide : m.log2 + 1 ≤ 53 + (grid m e - e).toNat := by
        unfold grid
        omega
      rw [Nat.div_lt_iff_lt_mul (Nat.two_pow_pos _), ← Nat.pow_add]
      exact lt_of_lt_of_le log.2 (Nat.pow_le_pow_right (by decide) wide)
    · exact floor
    · by_cases least : grid m e = -1074
      · exact .inr least
      · have cut : 52 + (grid m e - e).toNat = m.log2 := by
          unfold grid at least fits ⊢
          omega
        rw [Nat.le_div_iff_mul_le (Nat.two_pow_pos _), ← Nat.pow_add, cut]
        exact .inl log.1

/-- Shifting to the grid cuts off what stands below it. -/
theorem shiftToTargetExponent_eq (m : Nat) (e : Int) (accuracy : Accuracy) :
    UnpackedFloat.shiftToTargetExponent .binary64 m e accuracy =
      (ExtendedMantissa.ofMantissaAndAccuracy m accuracy >>> (grid m e - e).toNat,
        e + ((grid m e - e).toNat : Int)) := rfl

/-- Bits in the stored form, or one more than those, are brought into it without an error. -/
theorem isStored_shiftToTargetExponent {kept : Nat} {power : Int} (stored : IsStored kept power)
    (near : n = kept ∨ n = kept + 1) :
    let shifted := UnpackedFloat.shiftToTargetExponent .binary64 n power .exact
    IsStored shifted.1.mantissa shifted.2 ∧ size shifted.1.mantissa shifted.2 = size n power := by
  have below := stored.below
  have floor := stored.floor
  have full := stored.full
  rw [shiftToTargetExponent_eq]
  dsimp only
  rw [mantissa_shiftRight, mantissa_ofMantissaAndAccuracy]
  by_cases carry : n = 2 ^ 53
  · have log : (2 ^ 53 : Nat).log2 = 53 := by decide
    have count : (grid n power - power).toNat = 1 := by
      unfold grid
      rw [carry, log]
      omega
    have half : 2 ^ 53 / 2 ^ 1 = 2 ^ 52 := by decide
    rw [count, carry, half]
    refine ⟨⟨by decide, by omega, .inl le_rfl⟩, ?_⟩
    unfold size
    push_cast
    rw [zpow_add₀ (by norm_num)]
    ring
  · have log : n.log2 ≤ 52 := by
      by_cases zero : n = 0
      · simp [zero]
      · have bits := (Nat.log2_lt zero).mpr (show n < 2 ^ 53 by omega)
        omega
    have count : (grid n power - power).toNat = 0 := by
      unfold grid
      omega
    rw [count, pow_zero, Nat.div_one, Nat.cast_zero, add_zero]
    exact ⟨⟨by omega, floor, by omega⟩, rfl⟩

/-- What is kept on the grid are the first bits. -/
theorem mantissa_cutToGrid (m : Nat) (e : Int) (accuracy : Accuracy) :
    (cutToGrid m e accuracy).mantissa = m / 2 ^ (grid m e - e).toNat := by
  rw [cutToGrid, mantissa_shiftRight, mantissa_ofMantissaAndAccuracy]

/-- Rounding gives what is kept on the grid, with what the other bits add. -/
theorem means_roundWithAccuracy (sign : Sign) (accuracy : Accuracy) (fits : e ≤ grid m e) :
    Means (UnpackedFloat.roundWithAccuracy .binary64 sign m e accuracy)
      (signed (sign == .negative)
        (size (cutToGrid m e accuracy).roundedMantissa (grid m e))) := by
  let cut := cutToGrid m e accuracy
  let shifted := UnpackedFloat.shiftToTargetExponent .binary64 cut.roundedMantissa (grid m e) .exact
  have near := roundedMantissa_eq_or cut
  rw [mantissa_cutToGrid] at near
  have power : e + ((grid m e - e).toNat : Int) = grid m e := by omega
  have result : UnpackedFloat.roundWithAccuracy .binary64 sign m e accuracy =
      ofParts sign shifted.1.mantissa shifted.2 := by
    unfold UnpackedFloat.roundWithAccuracy
    rw [shiftToTargetExponent_eq m e accuracy, power]
    rfl
  have stored := isStored_shiftToTargetExponent (isStored_div_grid m fits) near
  rw [result, ← stored.2]
  exact means_ofParts sign stored.1

/-- The grid is no finer than the power of two by what is cut off. -/
theorem zpow_grid (fits : e ≤ grid m e) :
    (2 : ℚ) ^ grid m e = 2 ^ (grid m e - e).toNat * 2 ^ e := by
  have power : grid m e = ((grid m e - e).toNat : Int) + e := by omega
  conv_lhs => rw [power, zpow_add₀ (by norm_num), zpow_natCast]

/-- The bits that are kept are no more than the number. -/
theorem size_kept_le (fits : e ≤ grid m e) :
    size (m / 2 ^ (grid m e - e).toNat) (grid m e) ≤ size m e := by
  have kept : ((m / 2 ^ (grid m e - e).toNat * 2 ^ (grid m e - e).toNat : Nat) : ℚ) ≤ m := by
    exact_mod_cast Nat.div_mul_le_self m _
  push_cast at kept
  rw [size, zpow_grid fits, ← mul_assoc]
  exact mul_le_mul_of_nonneg_right (by exact_mod_cast kept) (by positivity)

/-- The next of the grid is no less than the next number. -/
theorem size_succ_le_kept_succ (fits : e ≤ grid m e) :
    size (m + 1) e ≤ size (m / 2 ^ (grid m e - e).toNat + 1) (grid m e) := by
  have next : m + 1 ≤ (m / 2 ^ (grid m e - e).toNat + 1) * 2 ^ (grid m e - e).toNat :=
    Nat.lt_mul_of_div_lt (Nat.lt_succ_self _) (Nat.two_pow_pos _)
  have next : ((m + 1 : Nat) : ℚ) ≤
      ((m / 2 ^ (grid m e - e).toNat + 1 : Nat) : ℚ) * 2 ^ (grid m e - e).toNat := by
    exact_mod_cast next
  rw [size, size, zpow_grid fits, ← mul_assoc]
  exact mul_le_mul_of_nonneg_right next (by positivity)

/-- The last bit that is kept of a number is no more than the bound on the error. -/
theorem zpow_grid_le (fits : e ≤ grid m e) {x : ℚ} (lower : size m e ≤ x) :
    (2 : ℚ) ^ grid m e ≤ roundingError x := by
  have floor : 0 ≤ x := (size_nonneg m e).trans lower
  unfold roundingError
  rw [abs_of_nonneg floor]
  by_cases least : grid m e = -1074
  · rw [least]
    exact le_add_of_nonneg_left (by positivity)
  · have power : grid m e = m.log2 + e - 52 := by
      unfold grid at least ⊢
      omega
    have solid : m ≠ 0 := by
      rintro rfl
      have log : Nat.log2 0 = 0 := rfl
      omega
    have bits : (2 : ℚ) ^ (m.log2 : Int) ≤ m := by
      rw [zpow_natCast]
      exact_mod_cast Nat.log2_self_le solid
    calc (2 : ℚ) ^ grid m e = 2 ^ (m.log2 : Int) * 2 ^ e / 2 ^ 52 := by
          rw [power, zpow_sub₀ (by norm_num), zpow_add₀ (by norm_num)]
          rfl
      _ ≤ size m e / 2 ^ 52 := by
          unfold size
          gcongr
      _ ≤ x / 2 ^ 52 := by gcongr
      _ ≤ x / 2 ^ 52 + smallest := le_add_of_nonneg_right smallest_pos.le

/-- What rounding gives is off any number between the bits and the next by at most the bound. -/
theorem roundWithAccuracy_near (sign : Sign) (accuracy : Accuracy) (fits : e ≤ grid m e) {x : ℚ}
    (lower : size m e ≤ x) (upper : x ≤ size (m + 1) e) :
    ∃ y, Means (UnpackedFloat.roundWithAccuracy .binary64 sign m e accuracy)
        (signed (sign == .negative) y) ∧ |y - x| ≤ roundingError x := by
  refine ⟨_, means_roundWithAccuracy sign accuracy fits, le_trans ?_ (zpow_grid_le fits lower)⟩
  have near := roundedMantissa_eq_or (cutToGrid m e accuracy)
  rw [mantissa_cutToGrid] at near
  -- The number stands between the bits that are kept and the next of the grid.
  have below := (size_kept_le fits).trans lower
  have above := upper.trans (size_succ_le_kept_succ fits)
  have gap := size_succ (m / 2 ^ (grid m e - e).toNat) (grid m e)
  rw [abs_le]
  rcases near with same | more
  · rw [same]
    constructor <;> linarith
  · rw [more]
    constructor <;> linarith

/-! ## Rounded results -/

/-- A float is the rounded result of an operation whose exact result is a number. -/
def IsRounded (value : Float) (number : ℚ) : Prop :=
  ∃ result stored, value = .ofModel (Float.Model.pack result) ∧ Means result stored ∧
    |stored - number| ≤ roundingError number

theorem roundingError_nonneg (number : ℚ) : 0 ≤ roundingError number :=
  add_nonneg (by positivity) smallest_pos.le

theorem roundingError_le (number : ℚ) : roundingError number ≤ |number| + 1 :=
  add_le_add (div_le_self (abs_nonneg _) (by norm_num)) smallest_le_one

variable {value other : Float} {number another : ℚ}

/-- A rounded result that is not too great is finite. -/
theorem IsRounded.exists_isExactly (rounded : IsRounded value number) (small : |number| ≤ 2 ^ 100) :
    ∃ stored, IsExactly value stored ∧ |stored - number| ≤ roundingError number := by
  obtain ⟨result, stored, rfl, means, near⟩ := rounded
  have bound := roundingError_le number
  have triangle := abs_sub_abs_le_abs_sub stored number
  have below : |stored| < 2 ^ 102 := by linarith
  exact ⟨stored, means.isExactly (below.trans (pow_lt_pow_right₀ (by norm_num) (by norm_num))),
    near⟩

/-- A rounded result that is finite is off the exact one by at most the bound. -/
theorem IsRounded.near_of_isExactly (rounded : IsRounded value number)
    (exact : IsExactly value another) : |another - number| ≤ roundingError number := by
  obtain ⟨result, stored, rfl, means, near⟩ := rounded
  rw [means.eq_of_isExactly exact]
  exact near

/-- A result in the stored form is rounded to itself. -/
theorem Means.isRounded {result : UnpackedFloat} (means : Means result number) :
    IsRounded (.ofModel (Float.Model.pack result)) number :=
  ⟨result, number, rfl, means, by simpa using roundingError_nonneg number⟩

/-- A size other than zero is no smaller than the smallest float. -/
theorem IsStored.smallest_le (stored : IsStored m e) (solid : m ≠ 0) : smallest ≤ size m e := by
  have one : (1 : ℚ) ≤ m := by exact_mod_cast Nat.one_le_iff_ne_zero.mpr solid
  have power : smallest ≤ 2 ^ e := zpow_le_zpow_right₀ (by norm_num) stored.floor
  exact power.trans (le_mul_of_one_le_left (by positivity) one)

/-- A finite float other than zero is no smaller than the smallest. -/
theorem IsExactly.smallest_le (exact : IsExactly value number) (solid : number ≠ 0) :
    smallest ≤ |number| := by
  obtain ⟨parts, found, rfl⟩ := exact
  rw [Dyadic.abs_toRat]
  refine (isStored_of_ofFloat? found).smallest_le fun empty => solid ?_
  rw [Dyadic.toRat, empty, size_zero, signed_zero]

/-! ## Products -/

/-- The sign of a product. -/
theorem signed_mul (left right : Sign) (x y : ℚ) :
    signed (left * right == .negative) (x * y) =
      signed (left == .negative) x * signed (right == .negative) y := by
  cases left <;> cases right
  · exact (neg_mul_neg x y).symm
  · exact (neg_mul x y).symm
  · exact (mul_neg x y).symm
  · rfl

/-- Numbers with one sign are as far apart as without. -/
theorem abs_signed_sub (negative : Bool) (x y : ℚ) :
    |signed negative x - signed negative y| = |x - y| := by
  cases negative
  · rfl
  · show |-x - -y| = |x - y|
    rw [neg_sub_neg, abs_sub_comm]

theorem roundingError_signed (negative : Bool) (x : ℚ) :
    roundingError (signed negative x) = roundingError x := by
  unfold roundingError
  rw [abs_signed]

/-- The product of stored forms has enough bits for its grid. -/
theorem IsStored.add_le_grid {m n : Nat} {e f : Int} (first : IsStored m e) (second : IsStored n f)
    (filled : 0 < m) (solid : 0 < n) : e + f ≤ grid (m * n) (e + f) := by
  have log (wide : 2 ^ 52 ≤ m * n) : 52 ≤ (m * n).log2 :=
    (Nat.le_log2 (Nat.mul_ne_zero filled.ne' solid.ne')).mpr wide
  unfold grid
  rcases first.full with full | least
  · have wide := log (full.trans (Nat.le_mul_of_pos_right m solid))
    omega
  · rcases second.full with full | low
    · have wide := log (full.trans (Nat.le_mul_of_pos_left n filled))
      omega
    · omega

/-- The product of two floats is rounded once. -/
theorem IsExactly.mul (exact : IsExactly value number) (again : IsExactly other another) :
    IsRounded (value * other) (number * another) := by
  have first := isExactly_iff_means.mp exact
  have second := isExactly_iff_means.mp again
  suffices means : ∃ stored,
      Means (UnpackedFloat.mul .binary64 value.toModel.unpack other.toModel.unpack) stored ∧
        |stored - number * another| ≤ roundingError (number * another) by
    obtain ⟨stored, means, near⟩ := means
    exact ⟨_, stored, rfl, means, near⟩
  have zero (sign : Sign) : ∃ stored, Means (.zero sign) stored ∧
      |stored - 0| ≤ roundingError 0 :=
    ⟨0, .zero sign, by simpa using roundingError_nonneg 0⟩
  generalize value.toModel.unpack = left at first
  generalize other.toModel.unpack = right at second
  cases first with
  | zero sign =>
    rw [zero_mul]
    cases second <;> exact zero _
  | @finite sign m e filled stored =>
    cases second with
    | zero sign =>
      rw [mul_zero]
      exact zero _
    | @finite sign' n f solid kept =>
      have product : size m e * size n f = size (m * n) (e + f) := by
        unfold size
        push_cast
        rw [zpow_add₀ (by norm_num)]
        ring
      obtain ⟨y, means, near⟩ := roundWithAccuracy_near (sign * sign') .exact
        (stored.add_le_grid kept filled solid) le_rfl (size_lt_size_succ _ _).le
      refine ⟨_, means, ?_⟩
      rw [← signed_mul, product, abs_signed_sub, roundingError_signed]
      exact near

/-- The product of two floats does not depend on their order. -/
theorem mul_comm_float (value other : Float) : value * other = other * value := by
  have signs (s t : Sign) : s * t = t * s := by cases s <;> cases t <;> rfl
  have same (left right : UnpackedFloat) :
      UnpackedFloat.mul .binary64 left right = UnpackedFloat.mul .binary64 right left := by
    cases left <;> cases right <;>
      simp only [UnpackedFloat.mul, signs, Nat.mul_comm, Int.add_comm]
  exact congrArg (fun result => Float.ofModel (Float.Model.pack result)) (same _ _)

/-! ## Sums and differences -/

/-- An unpacked float with its sign turned is the number with its sign turned. -/
theorem Means.neg {unpacked : UnpackedFloat} (means : Means unpacked number) :
    Means unpacked.neg (-number) := by
  cases means with
  | zero sign =>
    rw [neg_zero]
    exact .zero _
  | @finite sign m e filled stored =>
    have turned : signed (-sign == .negative) (size m e) =
        -signed (sign == .negative) (size m e) := by
      cases sign
      · exact (neg_neg _).symm
      · rfl
    rw [← turned]
    exact .finite (-sign) filled stored

/-- A float with its sign turned is the number with its sign turned. -/
theorem IsExactly.neg (exact : IsExactly value number) : IsExactly (-value) (-number) :=
  (isExactly_iff_means.mp exact).neg.isExactly (by rw [abs_neg]; exact exact.abs_lt)

/-- Turning the sign of a finite float turns that of its unpacked form. -/
theorem IsExactly.unpack_neg (known : IsExactly value number) :
    (-value).toModel.unpack = value.toModel.unpack.neg := by
  have means := (isExactly_iff_means.mp known).neg
  rcases means.unpack_pack with kept | ⟨-, great⟩
  · exact kept
  · rw [abs_neg] at great
    exact absurd known.abs_lt (not_lt.mpr great)

/-- Turning the sign of a float turns that of its exact value. -/
theorem Dyadic.ofFloat?_neg {exact : Dyadic} (found : Dyadic.ofFloat? value = some exact) :
    Dyadic.ofFloat? (-value) = some { exact with negative := !exact.negative } := by
  have turned (sign : Sign) : (-sign == .negative) = !(sign == .negative) := by
    cases sign <;> rfl
  have unpacked := IsExactly.unpack_neg ⟨exact, found, rfl⟩
  rw [ofFloat?_eq_ofUnpacked?] at found ⊢
  rw [unpacked]
  revert found
  cases value.toModel.unpack with
  | infinity sign => exact fun found => nomatch found
  | notANumber => exact fun found => nomatch found
  | zero sign =>
    rintro ⟨⟩
    simp [UnpackedFloat.neg, ofUnpacked?, turned]
  | finite sign mantissa exponent solid =>
    rintro ⟨⟩
    simp [UnpackedFloat.neg, ofUnpacked?, turned]

/-- A whole number times a power of two is rounded once, after zeros were added to its bits. -/
theorem exists_means_round (sign : Sign) (m : Nat) (e : Int) (solid : 0 < m) :
    ∃ y, Means (UnpackedFloat.round .binary64 sign m e) (signed (sign == .negative) y) ∧
      |y - size m e| ≤ roundingError (size m e) := by
  generalize shift : (e - grid m e).toNat = count
  have log : (m <<< count).log2 = m.log2 + count := by
    have bits := (Nat.log2_eq_iff solid.ne').mp rfl
    have power := Nat.two_pow_pos count
    rw [Nat.shiftLeft_eq, Nat.log2_eq_iff (Nat.mul_ne_zero solid.ne' power.ne'), Nat.pow_add,
      Nat.add_right_comm, Nat.pow_add _ (m.log2 + 1)]
    exact ⟨Nat.mul_le_mul_right _ bits.1, Nat.mul_lt_mul_of_pos_right bits.2 power⟩
  have same : size (m <<< count) (e - count) = size m e := by
    unfold size
    rw [Nat.shiftLeft_eq, zpow_sub₀ (by norm_num), zpow_natCast]
    push_cast
    field_simp
  have fits : e - count ≤ grid (m <<< count) (e - count) := by
    unfold grid at shift ⊢
    rw [log]
    push_cast
    omega
  have result : UnpackedFloat.round .binary64 sign m e =
      UnpackedFloat.roundWithAccuracy .binary64 sign (m <<< count) (e - count) .exact := by
    rw [← shift]
    rfl
  rw [result, ← same]
  exact roundWithAccuracy_near sign .exact fits le_rfl (size_lt_size_succ _ _).le

/-- A whole number of either sign times a power of two is rounded once. -/
theorem exists_means_normalize (whole : Int) (e : Int) :
    ∃ stored, Means (UnpackedFloat.normalize .binary64 whole e .positive) stored ∧
      |stored - whole * 2 ^ e| ≤ roundingError (whole * 2 ^ e) := by
  unfold UnpackedFloat.normalize
  rcases lt_trichotomy whole 0 with less | rfl | more
  · rw [compare_lt_iff_lt.mpr less]
    obtain ⟨y, means, near⟩ := exists_means_round .negative (-whole).toNat e (by omega)
    have bits : (whole : ℚ) * 2 ^ e = signed true (size (-whole).toNat e) := by
      have turned : (((-whole).toNat : Int) : ℚ) = -whole := by
        rw [Int.toNat_of_nonneg (by omega)]
        push_cast
        rfl
      unfold size signed
      rw [← Int.cast_natCast, turned]
      simp
    refine ⟨_, means, ?_⟩
    rw [bits, roundingError_signed]
    exact (abs_signed_sub true _ _).trans_le near
  · rw [compare_eq_iff_eq.mpr rfl]
    exact ⟨0, .zero .positive, by simpa using roundingError_nonneg 0⟩
  · rw [compare_gt_iff_gt.mpr more]
    obtain ⟨y, means, near⟩ := exists_means_round .positive whole.toNat e (by omega)
    have bits : (whole : ℚ) * 2 ^ e = size whole.toNat e := by
      unfold size
      rw [← Int.cast_natCast, Int.toNat_of_nonneg more.le]
    refine ⟨_, means, ?_⟩
    rw [bits]
    exact near

/-- Bits with a smaller power of two are more bits. -/
theorem size_shiftLeft (m : Nat) {e low : Int} (below : low ≤ e) :
    ((m <<< (e - low).toNat : Nat) : ℚ) * 2 ^ low = size m e := by
  have power : e = ((e - low).toNat : Int) + low := by omega
  unfold size
  rw [Nat.shiftLeft_eq]
  push_cast
  conv_rhs => rw [power, zpow_add₀ (by norm_num), zpow_natCast]
  ring

/-- A whole number with a sign is the number with that sign. -/
theorem cast_apply (sign : Sign) (m : Nat) (unit : ℚ) :
    ((sign.apply m : Int) : ℚ) * unit = signed (sign == .negative) (m * unit) := by
  cases sign
  · show ((-(m : Int) : Int) : ℚ) * unit = -(m * unit)
    push_cast
    ring
  · rfl

/-- The sum of two unpacked floats is rounded once. -/
theorem Means.exists_add {left right : UnpackedFloat} (first : Means left number)
    (second : Means right another) :
    ∃ stored, Means (UnpackedFloat.add .binary64 left right) stored ∧
      |stored - (number + another)| ≤ roundingError (number + another) := by
  have kept {unpacked : UnpackedFloat} {x : ℚ} (means : Means unpacked x) :
      ∃ stored, Means unpacked stored ∧ |stored - x| ≤ roundingError x :=
    ⟨x, means, by simpa using roundingError_nonneg x⟩
  cases first with
  | zero sign =>
    rw [zero_add]
    cases second with
    | zero sign' =>
      show ∃ stored, Means (if sign == sign' then .zero sign else .zero .positive) stored ∧ _
      split <;> exact kept (.zero _)
    | finite sign' solid stored => exact kept (.finite sign' solid stored)
  | @finite sign m e filled stored =>
    cases second with
    | zero sign' =>
      rw [add_zero]
      exact kept (.finite sign filled stored)
    | @finite sign' n f solid stored' =>
      have sum := exists_means_normalize (sign.apply (m <<< (e - min e f).toNat : Nat) +
        sign'.apply (n <<< (f - min e f).toNat : Nat)) (min e f)
      rw [Int.cast_add, add_mul, cast_apply, cast_apply, size_shiftLeft m (min_le_left e f),
        size_shiftLeft n (min_le_right e f)] at sum
      exact sum

/-- A turned sign turns the whole number that it stands before. -/
theorem apply_neg (sign : Sign) (whole : Int) : (-sign).apply whole = -sign.apply whole := by
  cases sign
  · exact (neg_neg whole).symm
  · rfl

/-- A difference of unpacked floats is the sum with the sign of the second turned. -/
theorem unpacked_sub_eq_add_neg (left right : UnpackedFloat) :
    UnpackedFloat.sub .binary64 left right = UnpackedFloat.add .binary64 left right.neg := by
  cases left <;> cases right <;> try rfl
  next sign m e filled sign' n f solid =>
    show UnpackedFloat.normalize .binary64 (_ - _) _ _ =
      UnpackedFloat.normalize .binary64 (_ + _) _ _
    rw [apply_neg, ← sub_eq_add_neg]

/-- A float taken from itself leaves zero, or no number. -/
theorem sub_self_float (value : Float) :
    IsExactly (value - value) 0 ∨ (value - value).isNaN = true := by
  have result : value - value = .ofModel (Float.Model.pack
      (UnpackedFloat.add .binary64 value.toModel.unpack value.toModel.unpack.neg)) := by
    rw [← unpacked_sub_eq_add_neg]
    rfl
  rw [result]
  have none : (Float.ofModel (Float.Model.pack .notANumber)).isNaN = true := by decide +kernel
  have zero (sign : Sign) : IsExactly (.ofModel (Float.Model.pack (.zero sign))) 0 :=
    (Means.zero sign).isExactly (by norm_num)
  cases value.toModel.unpack with
  | notANumber => exact .inr none
  | infinity sign => cases sign <;> exact .inr none
  | zero sign => cases sign <;> exact .inl (zero _)
  | finite sign mantissa exponent solid =>
    left
    show IsExactly (.ofModel (Float.Model.pack (UnpackedFloat.normalize .binary64
      (sign.apply (mantissa <<< _ : Nat) + (-sign).apply (mantissa <<< _ : Nat)) _ .positive))) 0
    rw [apply_neg, Int.add_right_neg]
    exact zero _

/-- The sum of two floats is rounded once. -/
theorem IsExactly.add (exact : IsExactly value number) (again : IsExactly other another) :
    IsRounded (value + other) (number + another) := by
  obtain ⟨stored, means, near⟩ :=
    (isExactly_iff_means.mp exact).exists_add (isExactly_iff_means.mp again)
  exact ⟨_, stored, rfl, means, near⟩

/-- The difference of two floats is rounded once. -/
theorem IsExactly.sub (exact : IsExactly value number) (again : IsExactly other another) :
    IsRounded (value - other) (number - another) := by
  obtain ⟨stored, means, near⟩ :=
    (isExactly_iff_means.mp exact).exists_add (isExactly_iff_means.mp again).neg
  rw [← unpacked_sub_eq_add_neg] at means
  rw [← sub_eq_add_neg] at near
  exact ⟨_, stored, rfl, means, near⟩

/-! ## Bounds of results -/

/-- A float is a number, no greater in size than a bound. -/
def IsBounded (value : Float) (bound : ℚ) : Prop :=
  ∃ number, IsExactly value number ∧ |number| ≤ bound

variable {bound top : ℚ}

/-- A bounded float is not NaN. -/
theorem IsBounded.isNaN_eq_false (bounded : IsBounded value bound) : value.isNaN = false := by
  obtain ⟨number, exact, -⟩ := bounded
  exact exact.isNaN_eq_false

/-- A rounded number is bounded where the number is, with room for the rounding. -/
theorem IsRounded.isBounded (rounded : IsRounded value number) (small : |number| ≤ bound)
    (below : bound ≤ 2 ^ 100) : IsBounded value (2 * bound + 1) := by
  obtain ⟨stored, exact, near⟩ := rounded.exists_isExactly (small.trans below)
  have error := roundingError_le number
  have triangle := abs_sub_abs_le_abs_sub stored number
  exact ⟨stored, exact, by linarith⟩

/-- A sum of bounded floats is bounded. -/
theorem IsBounded.add (first : IsBounded value bound) (second : IsBounded other top)
    (below : bound + top ≤ 2 ^ 100) : IsBounded (value + other) (2 * (bound + top) + 1) := by
  obtain ⟨x, exact, small⟩ := first
  obtain ⟨y, again, less⟩ := second
  exact (exact.add again).isBounded ((abs_add_le x y).trans (add_le_add small less)) below

/-- A difference of bounded floats is bounded. -/
theorem IsBounded.sub (first : IsBounded value bound) (second : IsBounded other top)
    (below : bound + top ≤ 2 ^ 100) : IsBounded (value - other) (2 * (bound + top) + 1) := by
  obtain ⟨x, exact, small⟩ := first
  obtain ⟨y, again, less⟩ := second
  exact (exact.sub again).isBounded ((abs_sub x y).trans (add_le_add small less)) below

/-- A product of bounded floats is bounded. -/
theorem IsBounded.mul (first : IsBounded value bound) (second : IsBounded other top)
    (below : bound * top ≤ 2 ^ 100) : IsBounded (value * other) (2 * (bound * top) + 1) := by
  obtain ⟨x, exact, small⟩ := first
  obtain ⟨y, again, less⟩ := second
  have floor := (abs_nonneg x).trans small
  have size : |x * y| ≤ bound * top := by
    rw [abs_mul]
    exact mul_le_mul small less (abs_nonneg y) floor
  exact (exact.mul again).isBounded size below

/-! ## Quotients -/

/-- The power of two of the bits of a quotient, where the powers of two differ by a number. -/
def quotientPower (m n : Nat) (apart : Int) : Int :=
  min apart (max (m.log2 - n.log2 + apart - 53) (-1074))

/-- The bits of a quotient. -/
def quotientBits (m n : Nat) (apart : Int) : Nat :=
  m * 2 ^ (apart - quotientPower m n apart).toNat / n

/-- What is known of the bits of a quotient that are not kept. -/
def quotientAccuracy (m n : Nat) (apart : Int) : Accuracy :=
  UnpackedFloat.accuracyOfFraction (m * 2 ^ (apart - quotientPower m n apart).toNat % n) n

variable {f : Int}

/-- The bits of a quotient are enough for its grid. -/
theorem quotientPower_le_grid (filled : 0 < m) (solid : 0 < n) (apart : Int) :
    quotientPower m n apart ≤ grid (quotientBits m n apart) (quotientPower m n apart) := by
  by_cases least : quotientPower m n apart ≤ -1074
  · exact least.trans (le_max_right _ _)
  · have top := ((Nat.log2_eq_iff solid.ne').mp rfl).2
    have bottom := ((Nat.log2_eq_iff filled.ne').mp rfl).1
    unfold quotientBits
    generalize shift : (apart - quotientPower m n apart).toNat = count
    have enough : 52 + (n.log2 + 1) ≤ m.log2 + count := by
      unfold quotientPower at least shift
      omega
    have bits : 2 ^ 52 * n ≤ m * 2 ^ count :=
      calc 2 ^ 52 * n ≤ 2 ^ 52 * 2 ^ (n.log2 + 1) := Nat.mul_le_mul_left _ top.le
        _ = 2 ^ (52 + (n.log2 + 1)) := (Nat.pow_add _ _ _).symm
        _ ≤ 2 ^ (m.log2 + count) := Nat.pow_le_pow_right (by decide) enough
        _ = 2 ^ m.log2 * 2 ^ count := Nat.pow_add _ _ _
        _ ≤ m * 2 ^ count := Nat.mul_le_mul_right _ bottom
    have wide := (Nat.le_div_iff_mul_le solid).mpr bits
    have log : 52 ≤ (m * 2 ^ count / n).log2 := (Nat.le_log2 (by omega)).mpr wide
    unfold grid
    omega

/-- The quotient of two floats above zero is the rounded quotient of their bits. -/
theorem unpacked_div_eq (filled : 0 < m) (solid : 0 < n) (e f : Int) :
    UnpackedFloat.div .binary64 (.finite .positive m e filled) (.finite .positive n f solid) =
      UnpackedFloat.roundWithAccuracy .binary64 .positive (quotientBits m n (e - f))
        (quotientPower m n (e - f)) (quotientAccuracy m n (e - f)) := by
  have low : min (e - f) (Format.binary64.targetExponent (totalExponent m e - totalExponent n f)) =
      quotientPower m n (e - f) := by
    show min (e - f) (max ((m.log2 + 1 + e : Int) - (n.log2 + 1 + f) - 53) (-1074)) = _
    unfold quotientPower
    omega
  have sign : Sign.positive / Sign.positive = Sign.positive := rfl
  simp only [UnpackedFloat.div, UnpackedFloat.divCore, low, Nat.shiftLeft_eq, sign, quotientBits,
    quotientAccuracy]

/-- A quotient in its power of two: what its bits are a part of. -/
theorem div_size (solid : 0 < n) (e f : Int) :
    size m e / size n f =
      ((m * 2 ^ (e - f - quotientPower m n (e - f)).toNat : Nat) : ℚ) / n *
        2 ^ quotientPower m n (e - f) := by
  generalize low : quotientPower m n (e - f) = power
  have apart : e = ((e - f - power).toNat : Int) + power + f := by
    unfold quotientPower at low
    omega
  have divisor : (n : ℚ) ≠ 0 := by exact_mod_cast solid.ne'
  unfold size
  conv_lhs => rw [apart, zpow_add₀ (by norm_num), zpow_add₀ (by norm_num), zpow_natCast]
  push_cast
  field_simp

/-- A quotient is no less than its bits. -/
theorem quotientBits_le (solid : 0 < n) (e f : Int) :
    size (quotientBits m n (e - f)) (quotientPower m n (e - f)) ≤ size m e / size n f := by
  have divisor : (0 : ℚ) < n := by exact_mod_cast solid
  have kept : (quotientBits m n (e - f) : ℚ) * n ≤
      (m * 2 ^ (e - f - quotientPower m n (e - f)).toNat : Nat) := by
    exact_mod_cast Nat.div_mul_le_self _ n
  rw [div_size solid]
  exact mul_le_mul_of_nonneg_right ((le_div_iff₀ divisor).mpr kept) (by positivity)

/-- A quotient is less than the next of its bits. -/
theorem lt_quotientBits_succ (solid : 0 < n) (e f : Int) :
    size m e / size n f < size (quotientBits m n (e - f) + 1) (quotientPower m n (e - f)) := by
  have divisor : (0 : ℚ) < n := by exact_mod_cast solid
  have next : ((m * 2 ^ (e - f - quotientPower m n (e - f)).toNat : Nat) : ℚ) <
      (quotientBits m n (e - f) + 1 : Nat) * n := by
    exact_mod_cast Nat.lt_mul_of_div_lt (Nat.lt_succ_self _) solid
  rw [div_size solid]
  exact mul_lt_mul_of_pos_right ((div_lt_iff₀ divisor).mpr next) (by positivity)

/-- A quotient that is its bits has no other bits. -/
theorem quotientAccuracy_of_eq (solid : 0 < n)
    (same : size m e / size n f = size (quotientBits m n (e - f)) (quotientPower m n (e - f))) :
    quotientAccuracy m n (e - f) = .exact := by
  have divisor : (n : ℚ) ≠ 0 := by exact_mod_cast solid.ne'
  have unit : (2 : ℚ) ^ quotientPower m n (e - f) ≠ 0 := by positivity
  rw [div_size solid, size, mul_left_inj' unit, div_eq_iff divisor] at same
  have product : m * 2 ^ (e - f - quotientPower m n (e - f)).toNat =
      quotientBits m n (e - f) * n := by
    exact_mod_cast same
  unfold quotientAccuracy UnpackedFloat.accuracyOfFraction
  rw [if_pos]
  rw [product, Nat.mul_mod_left]

/-- The quotient of two floats above zero is rounded once. -/
theorem exists_means_div (filled : 0 < m) (solid : 0 < n) (e f : Int) :
    ∃ stored, Means (UnpackedFloat.div .binary64 (.finite .positive m e filled)
        (.finite .positive n f solid)) stored ∧
      |stored - size m e / size n f| ≤ roundingError (size m e / size n f) := by
  rw [unpacked_div_eq]
  exact roundWithAccuracy_near .positive _ (quotientPower_le_grid filled solid (e - f))
    (quotientBits_le solid e f) (lt_quotientBits_succ solid e f).le

/-- A decimal number with many places is a quotient of whole numbers. -/
theorem ofScientific_eq_div {coefficient places : Nat} (solid : 0 < coefficient)
    (many : 22 < places) (few : places ≤ 2048) :
    Float.ofScientific coefficient true places = .ofModel (Float.Model.pack
      (UnpackedFloat.div .binary64 (.finite .positive coefficient 0 solid)
        (.finite .positive (10 ^ places) 0 (by positivity)))) := by
  have power : Int.negOfNat places = -(places : Int) := Int.negOfNat_eq
  have bits : (2 : Int) ^ Format.binary64.exponentBits = 2048 := by decide
  have quotient : UnpackedFloat.ofScientific .binary64 coefficient (Int.negOfNat places) =
      UnpackedFloat.div .binary64 (.finite .positive coefficient 0 solid)
        (.finite .positive (10 ^ places) 0 (by positivity)) := by
    unfold UnpackedFloat.ofScientific
    rw [power, bits, dif_neg (by omega), if_neg (by omega), if_neg (by omega),
      if_neg (by omega)]
    simp only [neg_neg, Int.toNat_natCast]
  rw [← quotient]
  unfold Float.ofScientific
  rw [dif_neg (by omega)]
  rfl

/-- A whole number over a great power of ten is rounded once. -/
theorem isRounded_ofScientific (coefficient : Nat) {places : Nat} (many : 22 < places)
    (few : places ≤ 2048) :
    IsRounded (Float.ofScientific coefficient true places) (coefficient / 10 ^ places) := by
  rcases Nat.eq_zero_or_pos coefficient with rfl | solid
  · have result : Float.ofScientific 0 true places =
        .ofModel (Float.Model.pack (.zero .positive)) := by
      unfold Float.ofScientific
      rw [dif_neg (by omega)]
      rfl
    rw [Nat.cast_zero, zero_div, result]
    exact (Means.zero .positive).isRounded
  · obtain ⟨stored, means, near⟩ :=
      exists_means_div solid (show 0 < 10 ^ places by positivity) 0 0
    rw [size, size, zpow_zero, mul_one, mul_one] at near
    push_cast at near
    exact ⟨_, stored, ofScientific_eq_div solid many few, means, near⟩

/-- An exact value with many binary places has a float, off by no more than the bound. -/
theorem Dyadic.exists_isExactly_toFloat (exact : Dyadic) (many : exact.exponent < -22)
    (few : -2048 ≤ exact.exponent) (small : |exact.toRat| ≤ 2 ^ 100) :
    ∃ stored, IsExactly exact.toFloat stored ∧
      |stored - exact.toRat| ≤ roundingError exact.toRat := by
  obtain ⟨negative, bits, exponent⟩ := exact
  dsimp only at many few
  generalize shift : (-exponent).toNat = places
  have turned : exponent = -(places : Int) := by omega
  have number : ((bits * Nat.pow 5 places : Nat) : ℚ) / 10 ^ places = size bits exponent := by
    have ten : (10 : ℚ) ^ places = 5 ^ places * 2 ^ places := by
      rw [← mul_pow]
      norm_num
    have five : ((Nat.pow 5 places : Nat) : ℚ) = 5 ^ places := by
      exact_mod_cast (rfl : Nat.pow 5 places = 5 ^ places)
    unfold size
    rw [Nat.cast_mul, five, ten, turned, zpow_neg, zpow_natCast]
    field_simp
  have rounded := isRounded_ofScientific (bits * Nat.pow 5 places) (show 22 < places by omega)
    (by omega)
  rw [number] at rounded
  unfold Dyadic.toRat at small ⊢
  rw [abs_signed] at small
  dsimp only at small ⊢
  obtain ⟨stored, exact, near⟩ := rounded.exists_isExactly small
  refine ⟨signed negative stored, ?_, by rwa [abs_signed_sub, roundingError_signed]⟩
  unfold Dyadic.toFloat
  dsimp only
  rw [if_neg (show ¬ 0 ≤ exponent by omega), shift]
  cases negative
  · exact exact
  · exact exact.neg

end GcodeSender
