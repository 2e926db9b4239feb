import Mathlib
import GcodeSender.Decimal.Fixed
import GcodeSender.Decimal.Numeral

/-!
# Signs and exact values of floats

Floats are compared and computed on their unpacked form: a sign with a whole number and a power
of two, a signed zero, a signed infinity, or no number. The exact value of a float is read off
the same form, so what a comparison says can be said of exact values: a float from zero on has
no minus sign unless it is a zero, and equal floats have one exact value unless both are zeros.
The other main statement is that the float of a decimal number without a sign does not stand
below zero.
-/
namespace GcodeSender

open Float.Model (UnpackedFloat Format)
open Float.Model.UnpackedFloat (Sign unpackSign unpackExponent unpackMantissa packComponents)

/-! ## Floats without a minus sign -/

/-- No minus sign stands before an unpacked float. -/
def IsUnsigned : UnpackedFloat → Prop
  | .infinity sign | .zero sign | .finite sign .. => sign = .positive
  | .notANumber => True

namespace IsUnsigned

variable {first second : UnpackedFloat}

/-- The sign of packed parts is the one they were packed with. -/
theorem sign_packComponents (sign : Sign) (exponent : BitVec 11) (mantissa : BitVec 52) :
    @unpackSign .binary64 (packComponents .binary64 sign exponent mantissa) =
      sign.toBitVec := by
  have parts : (sign.toBitVec ++ exponent ++ mantissa).toNat =
      (sign.toBitVec.toNat * 2 ^ 11 + exponent.toNat) * 2 ^ 52 + mantissa.toNat := by
    rw [BitVec.toNat_append, BitVec.toNat_append,
      ← Nat.shiftLeft_add_eq_or_of_lt exponent.isLt,
      ← Nat.shiftLeft_add_eq_or_of_lt mantissa.isLt, Nat.shiftLeft_eq, Nat.shiftLeft_eq]
  apply BitVec.eq_of_toNat_eq
  show ((sign.toBitVec ++ exponent ++ mantissa).toNat >>> 63) % 2 = sign.toBitVec.toNat
  rw [parts, Nat.shiftRight_eq_div_pow]
  have high := exponent.isLt
  have low := mantissa.isLt
  have bit := sign.toBitVec.isLt
  omega

/-- Packing sets no sign bit where no minus sign stands. -/
theorem unpackSign_pack (unsigned : IsUnsigned first) :
    unpackSign (UnpackedFloat.pack .binary64 first) = 0#1 := by
  unfold UnpackedFloat.pack
  cases first with
  | infinity sign =>
    cases unsigned
    exact sign_packComponents _ _ _
  | notANumber => exact sign_packComponents _ _ _
  | zero sign =>
    cases unsigned
    exact sign_packComponents _ _ _
  | finite sign mantissa exponent solid =>
    cases unsigned
    dsimp only
    split
    · exact sign_packComponents _ _ _
    · split <;> exact sign_packComponents _ _ _

/-- Where the sign bit is not set, no minus sign is read. -/
theorem unpack {word : UInt64} (clear : @unpackSign .binary64 word.toBitVec = 0#1) :
    IsUnsigned (UnpackedFloat.unpack .binary64 word.toBitVec) := by
  unfold UnpackedFloat.unpack
  rw [clear]
  dsimp only
  split
  · split
    · rfl
    · trivial
  · split
    · split <;> rfl
    · rfl

/-- No minus sign comes with being stored in 64 bits. -/
theorem unpack_pack (unsigned : IsUnsigned first) :
    IsUnsigned (Float.Model.pack first).unpack :=
  unpack (unpackSign_pack unsigned)

/-- Rounding keeps the sign. -/
theorem roundWithAccuracy (mantissa : Nat) (exponent : Int)
    (accuracy : UnpackedFloat.Accuracy) :
    IsUnsigned (UnpackedFloat.roundWithAccuracy .binary64 .positive mantissa exponent
      accuracy) := by
  unfold UnpackedFloat.roundWithAccuracy
  dsimp only
  split <;> rfl

/-- A product without a minus sign in its factors has none. -/
theorem mul (left : IsUnsigned first) (right : IsUnsigned second) :
    IsUnsigned (UnpackedFloat.mul .binary64 first second) := by
  cases first <;> cases second <;> cases left <;> cases right <;>
    first | exact roundWithAccuracy _ _ _ | rfl | trivial

/-- A square has no minus sign. -/
theorem mul_self (unpacked : UnpackedFloat) :
    IsUnsigned (UnpackedFloat.mul .binary64 unpacked unpacked) := by
  have sign (s : Sign) : s * s = .positive := by cases s <;> rfl
  cases unpacked with
  | notANumber => trivial
  | infinity s => exact sign s
  | zero s => exact sign s
  | finite s m e solid =>
    show IsUnsigned (UnpackedFloat.roundWithAccuracy .binary64 (s * s) (m * m) (e + e) .exact)
    rw [sign]
    exact roundWithAccuracy _ _ _

/-- A whole number from zero on, times a power of two, has no minus sign. -/
theorem normalize {whole : Int} (floor : 0 ≤ whole) (exponent : Int) :
    IsUnsigned (UnpackedFloat.normalize .binary64 whole exponent .positive) := by
  unfold UnpackedFloat.normalize
  cases order : compare whole 0 with
  | lt => exact absurd (compare_lt_iff_lt.mp order) (by omega)
  | eq => rfl
  | gt => exact roundWithAccuracy _ _ _

/-- A sum without a minus sign in its parts has none. -/
theorem add (left : IsUnsigned first) (right : IsUnsigned second) :
    IsUnsigned (UnpackedFloat.add .binary64 first second) := by
  cases first <;> cases second <;> cases left <;> cases right <;>
    first
      | rfl
      | trivial
      | exact normalize (Int.add_nonneg (Int.natCast_nonneg _) (Int.natCast_nonneg _)) _

/-- A quotient without a minus sign in its parts has none. -/
theorem div (left : IsUnsigned first) (right : IsUnsigned second) :
    IsUnsigned (UnpackedFloat.div .binary64 first second) := by
  cases first <;> cases second <;> cases left <;> cases right <;>
    first | exact roundWithAccuracy _ _ _ | rfl | trivial

/-- A whole number from zero on has no minus sign. -/
theorem ofNat (number : Nat) : IsUnsigned (UnpackedFloat.ofNat .binary64 number) := by
  unfold UnpackedFloat.ofNat UnpackedFloat.ofInt UnpackedFloat.normalize
  cases number with
  | zero => rfl
  | succ number =>
    show IsUnsigned (UnpackedFloat.round .binary64 .positive _ _)
    exact roundWithAccuracy _ _ _

/-- A whole number from zero on times a power of ten has no minus sign. -/
theorem scientific (coefficient : Nat) (exponent : Int) :
    IsUnsigned (UnpackedFloat.ofScientific .binary64 coefficient exponent) := by
  unfold UnpackedFloat.ofScientific
  split
  · rfl
  · split
    · rfl
    · split
      · rfl
      · split
        · apply mul <;> rfl
        · apply div <;> rfl

/-- The powers of ten that are floats have no minus sign. -/
theorem powerOfTen {place : Nat} (inside : place < Float.exactlyRepresentablePowersOfTen.size) :
    IsUnsigned Float.exactlyRepresentablePowersOfTen[place].toModel.unpack := by
  have clear : ∀ power ∈ Float.exactlyRepresentablePowersOfTen.toList,
      @unpackSign .binary64 power.toModel.toBits.toBitVec = 0#1 := by
    decide +kernel
  exact unpack (clear _ (by simp))

/-- A decimal number without a sign gives a float without a minus sign. -/
theorem ofScientific (coefficient : Nat) (small : Bool) (places : Nat) :
    IsUnsigned (Float.ofScientific coefficient small places).toModel.unpack := by
  unfold Float.ofScientific
  split
  · next short =>
    have size : Float.exactlyRepresentablePowersOfTen.size = 23 := rfl
    have whole : IsUnsigned coefficient.toUInt64.toFloat.toModel.unpack := unpack_pack (ofNat _)
    have power := powerOfTen (show places < Float.exactlyRepresentablePowersOfTen.size by omega)
    dsimp only
    split
    · exact unpack_pack (div whole power)
    · exact unpack_pack (mul whole power)
  · exact unpack_pack (scientific _ _)

/-- A float without a minus sign does not stand below zero. -/
theorem not_lt_zero {value : Float} (unsigned : IsUnsigned value.toModel.unpack) :
    ¬ value < 0.0 := by
  intro below
  have order : UnpackedFloat.lt value.toModel.unpack (.zero .positive) = true :=
    of_decide_eq_true below
  revert unsigned order
  cases value.toModel.unpack <;> intro unsigned order <;> cases unsigned <;>
    exact Bool.false_ne_true order

end IsUnsigned

/-! ## Exact values -/

namespace Dyadic

variable {value : Float} {exact : Dyadic}

/-- The exact value of an unpacked float, if it is finite. -/
def ofUnpacked? : UnpackedFloat → Option Dyadic
  | .zero sign => some ⟨sign == .negative, 0, -1074⟩
  | .finite sign mantissa exponent _ => some ⟨sign == .negative, mantissa, exponent⟩
  | _ => none

/-- The highest bit is the sign. -/
theorem toNat_unpackSign (word : UInt64) :
    (@unpackSign .binary64 word.toBitVec).toNat = word.toNat / Nat.pow 2 63 := by
  have bound := word.toNat_lt
  show (word.toNat >>> 63) % 2 = word.toNat / 2 ^ 63
  rw [Nat.shiftRight_eq_div_pow, Nat.mod_eq_of_lt (by omega)]

/-- The eleven bits after the sign are the exponent. -/
theorem toNat_unpackExponent (word : UInt64) :
    (@unpackExponent .binary64 word.toBitVec).toNat =
      word.toNat / Nat.pow 2 52 % Nat.pow 2 11 := by
  show (word.toNat >>> 52) % 2 ^ 11 = word.toNat / 2 ^ 52 % 2 ^ 11
  rw [Nat.shiftRight_eq_div_pow]

/-- The lowest 52 bits are the mantissa. -/
theorem toNat_unpackMantissa (word : UInt64) :
    (@unpackMantissa .binary64 word.toBitVec).toNat = word.toNat % Nat.pow 2 52 := by
  show (word.toNat >>> 0) % 2 ^ 52 = word.toNat % 2 ^ 52
  rw [Nat.shiftRight_zero]

/-- The exact value of a float is read off its unpacked form. -/
theorem ofFloat?_eq_ofUnpacked? (value : Float) :
    ofFloat? value = ofUnpacked? value.toModel.unpack := by
  let word := value.toModel.toBits
  have sign := toNat_unpackSign word
  have exponent := toNat_unpackExponent word
  have mantissa := toNat_unpackMantissa word
  have full : @unpackExponent .binary64 word.toBitVec = -1#_ ↔
      word.toNat / Nat.pow 2 52 % Nat.pow 2 11 = 2047 := by
    rw [← exponent, ← BitVec.toNat_inj]
    rfl
  have low : @unpackExponent .binary64 word.toBitVec = 0#_ ↔
      word.toNat / Nat.pow 2 52 % Nat.pow 2 11 = 0 := by
    rw [← exponent, ← BitVec.toNat_inj]
    rfl
  have negative : (Sign.ofBitVec (@unpackSign .binary64 word.toBitVec) == .negative) =
      (word.toNat / Nat.pow 2 63 == 1) := by
    rw [← sign]
    generalize @unpackSign .binary64 word.toBitVec = bit
    revert bit
    decide
  have normal : (1#1 ++ @unpackMantissa .binary64 word.toBitVec).toNat =
      Nat.pow 2 52 + word.toNat % Nat.pow 2 52 := by
    rw [BitVec.toNat_append, ← Nat.shiftLeft_add_eq_or_of_lt (BitVec.isLt _), mantissa]
    rfl
  show ofFloat? value = ofUnpacked? (UnpackedFloat.unpack .binary64 word.toBitVec)
  unfold UnpackedFloat.unpack ofFloat?
  dsimp only
  rw [show value.toBits = word from rfl, ← negative]
  by_cases special : word.toNat / Nat.pow 2 52 % Nat.pow 2 11 = 2047
  · rw [if_pos special, if_pos (full.mpr special)]
    split <;> rfl
  · rw [if_neg special, if_neg fun same => special (full.mp same)]
    by_cases small : word.toNat / Nat.pow 2 52 % Nat.pow 2 11 = 0
    · rw [if_pos small, if_pos (low.mpr small), ← mantissa]
      split
      · next empty =>
        rw [empty]
        rfl
      · rw [exponent, small]
        rfl
    · rw [if_neg small, if_neg fun same => small (low.mp same), ofUnpacked?, normal, exponent]
      rfl

/-- A finite float has an exact value. -/
theorem exists_of_isFinite (finite : value.isFinite = true) :
    ∃ exact, ofFloat? value = some exact := by
  rw [ofFloat?_eq_ofUnpacked?]
  have finite : value.toModel.unpack.isFinite = true := finite
  revert finite
  cases value.toModel.unpack with
  | infinity sign => exact fun finite => absurd finite Bool.false_ne_true
  | notANumber => exact fun finite => absurd finite Bool.false_ne_true
  | zero sign => exact fun _ => ⟨_, rfl⟩
  | finite sign mantissa exponent solid => exact fun _ => ⟨_, rfl⟩

/-- A float that is not finite has no exact value. -/
theorem ofFloat?_of_not_isFinite (endless : ¬ value.isFinite = true) : ofFloat? value = none := by
  rw [ofFloat?_eq_ofUnpacked?]
  have endless : value.toModel.unpack.isFinite ≠ true := endless
  revert endless
  cases value.toModel.unpack with
  | infinity sign => exact fun _ => rfl
  | notANumber => exact fun _ => rfl
  | zero sign => exact fun endless => absurd rfl endless
  | finite sign mantissa exponent solid => exact fun endless => absurd rfl endless

/-- No minus sign stands before the exact value of an unsigned float. -/
theorem negative_of_isUnsigned (unsigned : IsUnsigned value.toModel.unpack)
    (found : ofFloat? value = some exact) : exact.negative = false := by
  rw [ofFloat?_eq_ofUnpacked?] at found
  revert unsigned found
  cases value.toModel.unpack with
  | infinity sign => exact fun _ found => nomatch found
  | notANumber => exact fun _ found => nomatch found
  | zero sign =>
    rintro ⟨⟩ ⟨⟩
    rfl
  | finite sign mantissa exponent solid =>
    rintro ⟨⟩ ⟨⟩
    rfl

/-- An exact value has at most 53 bits and no more than the greatest exponent. -/
theorem bounds_of_ofFloat? (found : ofFloat? value = some exact) :
    exact.significand < Nat.pow 2 53 ∧ exact.exponent ≤ 971 := by
  have biased : value.toBits.toNat / Nat.pow 2 52 % Nat.pow 2 11 < Nat.pow 2 11 :=
    Nat.mod_lt _ (by decide)
  have fraction : value.toBits.toNat % Nat.pow 2 52 < Nat.pow 2 52 := Nat.mod_lt _ (by decide)
  have double : Nat.pow 2 53 = Nat.pow 2 52 + Nat.pow 2 52 := by decide
  have codes : Nat.pow 2 11 = 2048 := by decide
  unfold ofFloat? at found
  dsimp only at found
  split at found
  · cases found
  · split at found
    · cases found
      dsimp only
      omega
    · cases found
      dsimp only
      omega

/-- A float from zero on with a minus sign is a zero. -/
theorem significand_of_negative (found : ofFloat? value = some exact) (floor : 0.0 ≤ value)
    (negative : exact.negative = true) : exact.significand = 0 := by
  have order : UnpackedFloat.le (.zero .positive) value.toModel.unpack = true :=
    of_decide_eq_true floor
  rw [ofFloat?_eq_ofUnpacked?] at found
  revert found order
  cases value.toModel.unpack with
  | infinity sign => exact fun found => nomatch found
  | notANumber => exact fun found => nomatch found
  | zero sign =>
    intro found _
    cases found
    rfl
  | finite sign mantissa exponent solid =>
    intro found order
    cases found
    cases sign with
    | positive => exact absurd negative Bool.false_ne_true
    | negative => exact absurd order Bool.false_ne_true

/-- A finite float that does not stand below zero stands from zero on. -/
theorem floor_of_not_lt (finite : value.isFinite = true) (above : ¬ value < 0.0) :
    0.0 ≤ value := by
  have finite : value.toModel.unpack.isFinite = true := finite
  have above : UnpackedFloat.lt value.toModel.unpack (.zero .positive) ≠ true :=
    fun below => above (decide_eq_true below)
  have order : UnpackedFloat.le (.zero .positive) value.toModel.unpack = true := by
    revert finite above
    cases value.toModel.unpack with
    | infinity sign => exact fun finite => absurd finite Bool.false_ne_true
    | notANumber => exact fun finite => absurd finite Bool.false_ne_true
    | zero sign => exact fun _ _ => rfl
    | finite sign mantissa exponent solid =>
      intro _ above
      cases sign with
      | positive => rfl
      | negative => exact absurd rfl above
  exact decide_eq_true order

/-- Equal unpacked floats have one exact value, or are two zeros. -/
theorem ofUnpacked?_of_compare {first second : UnpackedFloat}
    (same : first.compare second = some .eq) :
    ofUnpacked? first = ofUnpacked? second ∨
      ∃ left right, ofUnpacked? first = some ⟨left, 0, -1074⟩ ∧
        ofUnpacked? second = some ⟨right, 0, -1074⟩ := by
  have parts {exponent exponent' : Int} {mantissa mantissa' : Nat}
      (order : (compare exponent exponent').then (compare mantissa mantissa') = .eq) :
      exponent = exponent' ∧ mantissa = mantissa' := by
    rw [Ordering.then_eq_eq] at order
    exact ⟨Std.LawfulEqCmp.eq_of_compare order.1, Std.LawfulEqCmp.eq_of_compare order.2⟩
  unfold UnpackedFloat.compare at same
  -- Only infinities, zeros and floats of one sign can be equal.
  split at same <;> try cases same
  · exact .inl rfl
  · exact .inr ⟨_, _, rfl, rfl⟩
  · obtain ⟨rfl, rfl⟩ := parts (Ordering.swap_eq_eq.mp (Option.some.inj same))
    exact .inl rfl
  · obtain ⟨rfl, rfl⟩ := parts (Option.some.inj same)
    exact .inl rfl

/-- Equal floats have one exact value, or are two zeros. -/
theorem ofFloat?_of_beq {value other : Float} (same : (value == other) = true) :
    ofFloat? value = ofFloat? other ∨
      ∃ left right, ofFloat? value = some ⟨left, 0, -1074⟩ ∧
        ofFloat? other = some ⟨right, 0, -1074⟩ := by
  have order : (value.toModel.unpack.compare other.toModel.unpack == some .eq) = true := same
  rw [ofFloat?_eq_ofUnpacked?, ofFloat?_eq_ofUnpacked?]
  exact ofUnpacked?_of_compare (eq_of_beq order)

/-- A finite float differs from one that is not finite. -/
theorem bne_of_isFinite {other : Float} (endless : ¬ value.isFinite = true)
    (finite : other.isFinite = true) : (value != other) = true := by
  obtain ⟨exact, found⟩ := exists_of_isFinite finite
  by_contra same
  have same : (value == other) = true := by simpa [bne] using same
  rcases ofFloat?_of_beq same with equal | ⟨left, right, first, _⟩
  · rw [ofFloat?_of_not_isFinite endless, found] at equal
    cases equal
  · rw [ofFloat?_of_not_isFinite endless] at first
    cases first

end Dyadic

end GcodeSender
