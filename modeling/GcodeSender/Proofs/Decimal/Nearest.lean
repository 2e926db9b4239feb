import GcodeSender.Proofs.Decimal.ReadBack
import GcodeSender.Proofs.FloatNeighbours

/-!
# Written numbers are the nearest decimals

A finite float is written as the nearest decimal of so many places, and as the even one of two that
are as near. The value that is compared with half a unit is exact and the half unit is a float, but
no other float stands between it and the exact half, so what is cut off is what rounds to zero, and
only the sign shows the difference. Trimming drops zeros that end the fraction and changes no
number.
-/
namespace GcodeSender.Decimal

/-- A multiple of a step is the nearest one to a number, and even if another one is as near. -/
structure IsNearest (step number : ℚ) (count : Int) : Prop where
  /-- No other multiple is nearer. -/
  nearest : ∀ other : Int, |count * step - number| ≤ |other * step - number|
  /-- Of two that are as near it is the even one. -/
  even : ∀ other : Int, other ≠ count →
    |other * step - number| = |count * step - number| → Even count

/-- The rational number of a sign, a whole number and a power of ten. -/
def Scientific.toRat (number : Scientific) : ℚ :=
  signed number.negative (number.coefficient * 10 ^ number.exponent)

/-- A numeral as numbers are printed: no plus sign, and no point without digits behind it. -/
structure Numeral.Printed (numeral : Numeral) : Prop extends Sound numeral where
  /-- A plus sign is not written. -/
  unsigned : numeral.sign ≠ some Byte.plus
  /-- A point is not written alone. -/
  placed : numeral.fraction ≠ some []

/-- The texts of a float with so many places, as they are and trimmed, are two numerals of one
number, the nearest one of so many places to the number that the float is. -/
structure IsWritten (value : Float) (places : Nat) (number : ℚ) (full short : Numeral) : Prop where
  /-- The float is the number. -/
  exact : IsExactly value number
  /-- The text is a numeral and reads as it. -/
  text : fixed value places = full.text ∧ Numeral.read? (fixed value places) = some (full, [])
  /-- The trimmed text is a numeral and reads as it. -/
  trimmed : fixedTrimmed value places = short.text ∧
    Numeral.read? (fixedTrimmed value places) = some (short, [])
  /-- Both are an optional minus sign, digits, and no point or a point and digits. -/
  printed : full.Printed ∧ short.Printed
  /-- There are just so many places, and no point if there are none. -/
  length : full.fraction.map List.length = if places = 0 then none else some places
  /-- Trimming keeps the sign and the digits before the point. -/
  kept : short.sign = full.sign ∧ short.whole = full.whole
  /-- A trimmed fraction has at most so many places, and the last one is not zero. -/
  fewer : ∀ fraction ∈ short.fraction,
    fraction.length ≤ places ∧ fraction.getLast? ≠ some Byte.zero
  /-- Trimming changes no number. -/
  same : short.number.toRat = full.number.toRat
  /-- What is written is within half a unit of the last place. -/
  near : |full.number.toRat - number| ≤ 1 / 2 / 10 ^ places
  /-- What is written is the nearest multiple of that unit, the even one of two. -/
  nearest : ∃ count : Int, full.number.toRat = count * (1 / 10 ^ places) ∧
    IsNearest (1 / 10 ^ places) number count

variable {numeral : Numeral} {value : Float} {exact other : Dyadic} {places : Nat}
  {step number : ℚ} {count : Int}

/-! ## Nearest multiples -/

/-- A multiple within half a step is the nearest one. -/
theorem isNearest_of_half (positive : 0 < step) (near : |count * step - number| ≤ step / 2)
    (tie : |count * step - number| = step / 2 → Even count) : IsNearest step number count := by
  have far (other : Int) (apart : other ≠ count) : step / 2 ≤ |other * step - number| := by
    have one : (1 : ℚ) ≤ |(other : ℚ) - count| := by
      exact_mod_cast Int.one_le_abs (sub_ne_zero.mpr apart)
    have width : step ≤ |other * step - count * step| := by
      rw [← sub_mul, abs_mul, abs_of_pos positive]
      exact le_mul_of_one_le_left positive.le one
    have triangle := abs_sub_le (other * step) number (count * step)
    rw [abs_sub_comm number] at triangle
    linarith
  constructor
  · intro other
    by_cases same : other = count
    · rw [same]
    · exact near.trans (far other same)
  · intro other apart same
    have reached := far other apart
    rw [same] at reached
    exact tie (near.antisymm reached)

/-- Turning the sign of a number turns that of its nearest multiple. -/
theorem IsNearest.neg (nearest : IsNearest step number count) :
    IsNearest step (-number) (-count) := by
  have turned (other : Int) : |(-other : Int) * step - -number| = |other * step - number| := by
    push_cast
    rw [neg_mul, neg_sub_neg, abs_sub_comm]
  constructor
  · intro other
    rw [turned, ← neg_neg other, turned]
    exact nearest.nearest _
  · intro other apart
    rw [turned, ← neg_neg other, turned]
    intro same
    exact (nearest.even (-other) (fun equal => apart (by rw [← equal, neg_neg])) same).neg

/-! ## Trimmed numerals -/

/-- Only the digit zero stands for zero. -/
theorem digitValue_eq_zero_iff {c : UInt8} (digit : Byte.isDigit c = true) :
    Byte.digitValue c = 0 ↔ c = Byte.zero := by
  have low : Byte.zero ≤ c := of_decide_eq_true (Bool.and_eq_true_iff.mp digit).1
  have large : 48 ≤ c.toNat := UInt8.le_iff_toNat_le.mp low
  rw [← UInt8.toNat_inj]
  show c.toNat - 48 = 0 ↔ c.toNat = 48
  omega

/-- Digits stand for zero if all of them are the digit zero. -/
theorem valueOf_eq_zero_iff {text : Bytes} (digits : ∀ c ∈ text, Byte.isDigit c = true) :
    valueOf text = 0 ↔ ∀ c ∈ text, c = Byte.zero := by
  induction text using List.reverseRecOn with
  | nil => simp [valueOf]
  | append_singleton front c ih =>
    have front := ih fun d member => digits d (by simp [member])
    have last := digitValue_eq_zero_iff (digits c (by simp))
    rw [valueOf_append_singleton, List.forall_mem_append, List.forall_mem_singleton, ← front,
      ← last]
    omega

/-- The fraction of a trimmed numeral is what stands before the zeros that end it. -/
theorem Numeral.exists_trimmed {fraction : Bytes} (known : numeral.fraction = some fraction) :
    ∃ kept zeros, fraction = kept ++ zeros ∧ (∀ c ∈ zeros, c = Byte.zero) ∧
      kept.getLast? ≠ some Byte.zero ∧
      numeral.trimmed.fraction = if kept = [] then none else some kept := by
  obtain ⟨zeros, split, zero, last⟩ := reverse_dropWhile_eq_iff.mp
    (rfl : (fraction.reverse.dropWhile (· == Byte.zero)).reverse = _)
  refine ⟨_, zeros, split, fun c member => eq_of_beq (zero c member), fun ends => ?_, ?_⟩
  · exact absurd (last _ ends) (by decide)
  · rw [trimmed, known, Option.bind_some]
    cases fraction.reverse.dropWhile (· == Byte.zero) <;> simp

/-- A fraction that is left starts the one that was there and does not end with a zero. -/
theorem Numeral.fraction_of_trimmed {kept : Bytes} (left : numeral.trimmed.fraction = some kept) :
    (∃ zeros, numeral.fraction = some (kept ++ zeros)) ∧ kept.getLast? ≠ some Byte.zero := by
  cases known : numeral.fraction with
  | none => simp [Numeral.trimmed, known] at left
  | some fraction =>
    obtain ⟨front, zeros, split, -, last, trimmed⟩ := exists_trimmed known
    rw [trimmed] at left
    split at left
    · cases left
    · cases left
      exact ⟨⟨zeros, congrArg some split⟩, last⟩

/-- Trimming changes no number. -/
theorem Numeral.toRat_trimmed (numeral : Numeral) :
    numeral.trimmed.number.toRat = numeral.number.toRat := by
  cases known : numeral.fraction with
  | none =>
    have same : numeral.trimmed = numeral := by
      rw [trimmed, known]
      obtain ⟨sign, whole, fraction⟩ := numeral
      cases known
      rfl
    rw [same]
  | some fraction =>
    obtain ⟨kept, zeros, split, zero, -, trimmed⟩ := exists_trimmed known
    have plain : ∀ c ∈ zeros, Byte.isDigit c = true := fun c member => by
      rw [zero c member]
      decide
    have fractions : numeral.trimmed.fraction.getD [] = kept := by
      rw [trimmed]
      split
      · next empty => rw [empty, Option.getD_none]
      · rw [Option.getD_some]
    have coefficient : numeral.number.coefficient =
        numeral.trimmed.number.coefficient * 10 ^ zeros.length := by
      show valueOf (numeral.whole ++ numeral.fraction.getD []) =
        valueOf (numeral.whole ++ numeral.trimmed.fraction.getD []) * 10 ^ zeros.length
      rw [fractions, known, Option.getD_some, split, ← List.append_assoc, valueOf_append,
        (valueOf_eq_zero_iff plain).mpr zero, Nat.add_zero]
      rfl
    have exponent : numeral.trimmed.number.exponent =
        numeral.number.exponent + (zeros.length : Int) := by
      show -((numeral.trimmed.fraction.getD []).length : Int) =
        -((numeral.fraction.getD []).length : Int) + _
      rw [fractions, known, Option.getD_some, split, List.length_append]
      push_cast
      ring
    rw [Scientific.toRat, Scientific.toRat, coefficient, exponent, zpow_add₀ (by norm_num),
      zpow_natCast]
    show signed numeral.number.negative _ = _
    congr 1
    push_cast
    ring

/-- A trimmed numeral is printed. -/
theorem Numeral.Printed.trimmed (printed : numeral.Printed) : numeral.trimmed.Printed where
  toSound := printed.toSound.trimmed
  unsigned := printed.unsigned
  placed := by
    cases known : numeral.fraction with
    | none => simp [Numeral.trimmed, known]
    | some fraction =>
      obtain ⟨kept, -, -, -, -, trimmed⟩ := Numeral.exists_trimmed known
      rw [trimmed]
      split
      · simp
      · next solid => simpa using solid

/-! ## Units of the last place -/

/-- Units are read back from the digits they are written with. -/
theorem number_ofUnits (negative : Bool) (places units : Nat) :
    (Numeral.ofUnits negative places units).number = ⟨negative, units, -(places : Int)⟩ := by
  have sign : ((if negative then some Byte.minus else none) == some Byte.minus) = negative := by
    cases negative <;> decide
  have split := Nat.div_add_mod units (Nat.pow 10 places)
  unfold Numeral.ofUnits Numeral.number
  dsimp only
  rw [sign]
  by_cases whole : places = 0
  · subst whole
    simp [valueOf_digits]
  · rw [if_neg whole, Option.getD_some, Numeral.valueOf_append, valueOf_digits, valueOf_lastDigits,
      length_lastDigits, Nat.mul_comm, split]

/-- Units are printed. -/
theorem printed_ofUnits (negative : Bool) (places units : Nat) :
    (Numeral.ofUnits negative places units).Printed where
  toSound := Numeral.sound_ofUnits negative places units
  unsigned := by
    cases negative <;> exact fun plus => nomatch plus
  placed := by
    unfold Numeral.ofUnits
    dsimp only
    split
    · simp
    · next solid =>
      intro empty
      have length := length_lastDigits places units
      rw [Option.some.inj empty] at length
      exact solid length.symm

/-- The number of units is so many of the last place. -/
theorem toRat_ofUnits (negative : Bool) (places units : Nat) :
    (Numeral.ofUnits negative places units).number.toRat =
      signed negative (units * (1 / 10 ^ places)) := by
  rw [number_ofUnits, Scientific.toRat, zpow_neg, zpow_natCast, one_div]

/-! ## What is cut off -/

/-- One value is below another in size. -/
theorem sizeBelow_iff : exact.sizeBelow other = true ↔ |exact.toRat| < |other.toRat| := by
  have first : (0 : ℚ) < exact.denominator := by exact_mod_cast exact.denominator_pos
  have second : (0 : ℚ) < other.denominator := by exact_mod_cast other.denominator_pos
  rw [Dyadic.abs_toRat, Dyadic.abs_toRat, Dyadic.size_eq_div, Dyadic.size_eq_div,
    div_lt_div_iff₀ first second, Dyadic.sizeBelow, decide_eq_true_iff]
  exact_mod_cast Iff.rfl

/-- A value rounds to zero up to half a unit. -/
theorem units_eq_zero_iff (exact : Dyadic) (places : Nat) :
    units exact places = 0 ↔ 2 * |exact.toRat| ≤ 1 / 10 ^ places := by
  have divisor : (0 : ℚ) < exact.denominator := by exact_mod_cast exact.denominator_pos
  rw [units, roundQuotient_eq_zero_iff exact.denominator_pos, Dyadic.abs_toRat, Dyadic.size_eq_div,
    mul_div_assoc', div_le_div_iff₀ divisor (by positivity), one_mul, mul_assoc]
  exact_mod_cast Iff.rfl

/-- Half a unit of the last place, as it is computed. -/
def halfFloat (places : Nat) : Float := 0.5 * Float.ofScientific 1 true places

/-- The half unit is a float with its exact value, which is not below zero, and no other float
stands between it and half of one unit. -/
theorem halfUnit_spec (places : Nat) :
    Dyadic.ofFloat? (halfFloat places) = some (halfUnit places) ∧
      0 ≤ (halfUnit places).toRat ∧
      ∀ float, IsFloat float →
        (float < (halfUnit places).toRat → 2 * float < 1 / 10 ^ places) ∧
          ((halfUnit places).toRat < float → 1 / 10 ^ places < 2 * float) := by
  obtain ⟨half, ⟨exact, found, rfl⟩, floor, between⟩ := exists_isExactly_half places
  have known : halfUnit places = exact := by rw [halfUnit, found, Option.getD_some]
  rw [known, halfFloat]
  exact ⟨found, floor, between⟩

/-- The size of a float is a float. -/
theorem isFloat_abs (found : Dyadic.ofFloat? value = some exact) : IsFloat |exact.toRat| := by
  rw [Dyadic.abs_toRat]
  exact ⟨false, _, _, isStored_of_ofFloat? found, rfl⟩

/-- A value below half a unit rounds to zero. -/
theorem units_of_sizeBelow (found : Dyadic.ofFloat? value = some exact)
    (cut : exact.sizeBelow (halfUnit places) = true) : units exact places = 0 := by
  obtain ⟨-, floor, between⟩ := halfUnit_spec places
  have below := sizeBelow_iff.mp cut
  rw [abs_of_nonneg floor] at below
  exact (units_eq_zero_iff exact places).mpr ((between _ (isFloat_abs found)).1 below).le

/-- Cutting a value off drops its sign only. -/
theorem numeralOf_eq (found : Dyadic.ofFloat? value = some exact) (places : Nat) :
    numeralOf exact places =
      .ofUnits (exact.negative && !exact.sizeBelow (halfUnit places)) places
        (units exact places) := by
  unfold numeralOf
  cases cut : exact.sizeBelow (halfUnit places) with
  | false => simp
  | true => simp [units_of_sizeBelow found cut]

/-- The number that is written are the units with the sign of the value. -/
theorem toRat_numeralOf (found : Dyadic.ofFloat? value = some exact) (places : Nat) :
    (numeralOf exact places).number.toRat =
      signed exact.negative (units exact places * (1 / 10 ^ places)) := by
  rw [numeralOf_eq found, toRat_ofUnits]
  cases cut : exact.sizeBelow (halfUnit places) with
  | false => rw [Bool.not_false, Bool.and_true]
  | true => rw [units_of_sizeBelow found cut, Nat.cast_zero, zero_mul, signed_zero, signed_zero]

/-- The places that are written. -/
theorem places_numeralOf (exact : Dyadic) (places : Nat) :
    (numeralOf exact places).fraction.map List.length =
      if places = 0 then none else some places := by
  unfold numeralOf Numeral.ofUnits
  split <;> dsimp only <;> split <;> simp [length_lastDigits]

/-- A numeral of an exact value is printed. -/
theorem printed_numeralOf (exact : Dyadic) (places : Nat) : (numeralOf exact places).Printed := by
  unfold numeralOf
  split <;> exact printed_ofUnits _ _ _

/-! ## The nearest decimal -/

/-- Units are within half a unit of the size of the value, and even if they are half a unit off. -/
theorem units_near (exact : Dyadic) (places : Nat) :
    |(units exact places : ℚ) * (1 / 10 ^ places) - (|exact.toRat|)| ≤ 1 / 10 ^ places / 2 ∧
      (|(units exact places : ℚ) * (1 / 10 ^ places) - (|exact.toRat|)| = 1 / 10 ^ places / 2 →
        Even (units exact places)) := by
  obtain ⟨low, high⟩ := units_within_half exact places
  have even : 2 * (exact.numerator * Nat.pow 10 places) + exact.denominator =
        2 * units exact places * exact.denominator ∨
      2 * units exact places * exact.denominator + exact.denominator =
        2 * (exact.numerator * Nat.pow 10 places) → Even (units exact places) := fun off =>
    Nat.even_iff.mpr (roundQuotient_even_of_half_off exact.denominator_pos off)
  have divisor : (0 : ℚ) < exact.denominator := by exact_mod_cast exact.denominator_pos
  have power : ((Nat.pow 10 places : Nat) : ℚ) = 10 ^ places := Nat.cast_pow 10 places
  have scale : (0 : ℚ) < 2 * 10 ^ places * exact.denominator := by positivity
  -- Both sides are brought over one denominator, and what is above it are whole numbers.
  have off : |(units exact places : ℚ) * (1 / 10 ^ places) - (|exact.toRat|)| =
      |(2 * units exact places * exact.denominator : ℚ) -
        2 * (exact.numerator * (Nat.pow 10 places : Nat))| /
          (2 * 10 ^ places * exact.denominator) := by
    rw [Dyadic.abs_toRat, Dyadic.size_eq_div, power]
    conv_rhs => rw [← abs_of_pos scale, ← abs_div]
    congr 1
    field_simp
  have half : (1 : ℚ) / 10 ^ places / 2 =
      exact.denominator / (2 * 10 ^ places * exact.denominator) := by
    field_simp
  rw [off, half]
  constructor
  · rw [div_le_div_iff_of_pos_right scale, abs_le]
    have low : (2 * (exact.numerator * (Nat.pow 10 places : Nat)) : ℚ) ≤
        (2 * units exact places + 1) * exact.denominator := by exact_mod_cast low
    have high : (2 * units exact places * exact.denominator : ℚ) ≤
        2 * (exact.numerator * (Nat.pow 10 places : Nat)) + exact.denominator := by
      exact_mod_cast high
    constructor <;> linarith
  · intro same
    rw [div_left_inj' scale.ne'] at same
    apply even
    rcases (abs_eq divisor.le).mp same with more | less
    · have sum : (2 * (exact.numerator * (Nat.pow 10 places : Nat)) + exact.denominator : ℚ) =
          2 * units exact places * exact.denominator := by linarith
      exact .inl (by exact_mod_cast sum)
    · have sum : (2 * units exact places * exact.denominator + exact.denominator : ℚ) =
          2 * (exact.numerator * (Nat.pow 10 places : Nat)) := by linarith
      exact .inr (by exact_mod_cast sum)

/-- The written units with their sign are the nearest decimal. -/
theorem isNearest_units (exact : Dyadic) (places : Nat) :
    |signed exact.negative (units exact places * (1 / 10 ^ places)) - exact.toRat| ≤
        1 / 2 / 10 ^ places ∧
      ∃ count : Int, signed exact.negative (units exact places * (1 / 10 ^ places)) =
          count * (1 / 10 ^ places) ∧
        IsNearest (1 / 10 ^ places) exact.toRat count := by
  obtain ⟨near, tie⟩ := units_near exact places
  have value : exact.toRat = signed exact.negative |exact.toRat| := by
    rw [Dyadic.abs_toRat, Dyadic.toRat]
  have nearest : IsNearest (1 / 10 ^ places) |exact.toRat| (units exact places) :=
    isNearest_of_half (by positivity) near fun off => by exact_mod_cast tie off
  generalize units exact places = count at *
  generalize |exact.toRat| = size at *
  rw [value, abs_signed_sub, div_right_comm]
  refine ⟨near, ?_⟩
  cases exact.negative with
  | false => exact ⟨count, rfl, nearest⟩
  | true => exact ⟨-count, by simp [signed], nearest.neg⟩

/-! ## Written numbers -/

/-- For every number of places a finite float is written as the nearest decimal of so many places,
trimmed or not. -/
theorem fixed_is_nearest_decimal (finite : value.isFinite = true) (places : Nat) :
    ∃ number full short, IsWritten value places number full short := by
  obtain ⟨exact, found, text⟩ := exists_fixed finite places
  have printed := printed_numeralOf exact places
  have length := places_numeralOf exact places
  have trimmed : fixedTrimmed value places = (numeralOf exact places).trimmed.text := by
    rw [fixedTrimmed, text, Numeral.trimFraction_text printed.toSound]
  have nearest := isNearest_units exact places
  rw [← toRat_numeralOf found] at nearest
  refine ⟨exact.toRat, numeralOf exact places, (numeralOf exact places).trimmed, {
    exact := ⟨exact, found, rfl⟩
    text := ⟨text, text ▸ Numeral.read?_text printed.spelled⟩
    trimmed := ⟨trimmed, trimmed ▸ Numeral.read?_text printed.trimmed.spelled⟩
    printed := ⟨printed, printed.trimmed⟩
    length := length
    kept := ⟨rfl, rfl⟩
    fewer := fun fraction left => ?_
    same := Numeral.toRat_trimmed _
    near := nearest.1
    nearest := nearest.2 }⟩
  obtain ⟨⟨zeros, written⟩, last⟩ := Numeral.fraction_of_trimmed left
  rw [written, Option.map_some, List.length_append] at length
  split at length
  · cases length
  · have total := Option.some.inj length
    exact ⟨by omega, last⟩

/-- Half way between two whole numbers the even one is written. -/
theorem fixed_five_halves : (2.5 : Float).isFinite = true ∧ fixed 2.5 0 = ascii "2" ∧
    ∃ number full short, IsWritten 2.5 0 number full short :=
  ⟨by decide +kernel, by decide +kernel, fixed_is_nearest_decimal (by decide +kernel) 0⟩

end GcodeSender.Decimal
