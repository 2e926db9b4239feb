import GcodeSender.Proofs.Floats

/-!
# Floats that are numbers, and their order

A float is a number or an infinity, or it is no number at all, and then it compares with nothing.
Numbers compare one way as the other, turned around, so of two numbers one stands from the other on
exactly when it does not stand below it. The float of a decimal number is a number, with or without
a sign.
-/
namespace GcodeSender

open Float.Model (UnpackedFloat)
open Float.Model.UnpackedFloat (Sign unpackExponent unpackMantissa packComponents)

/-! ## Floats that are numbers -/

/-- An unpacked float is a number or an infinity. -/
def IsNumeric : UnpackedFloat → Prop
  | .notANumber => False
  | _ => True

/-- An unpacked float is finite and not zero. -/
def IsSolid : UnpackedFloat → Prop
  | .finite .. => True
  | _ => False

namespace IsNumeric

variable {first second : UnpackedFloat}

/-- A word is a number unless its exponent is full and its mantissa is not zero. -/
theorem unpack {word : BitVec 64}
    (numeric : @unpackExponent .binary64 word = -1#_ → @unpackMantissa .binary64 word = 0#_) :
    IsNumeric (UnpackedFloat.unpack .binary64 word) := by
  unfold UnpackedFloat.unpack
  dsimp only
  split
  · next full =>
    rw [if_pos (numeric full)]
    trivial
  · split
    · split <;> trivial
    · trivial

/-- Packed parts are a number unless the exponent is full and the mantissa is not zero. -/
theorem unpack_packComponents {sign : Sign} {exponent : BitVec 11} {mantissa : BitVec 52}
    (numeric : exponent = -1#_ → mantissa = 0#_) :
    IsNumeric (UnpackedFloat.unpack .binary64 (packComponents .binary64 sign exponent mantissa)) :=
  unpack fun full => by
    rw [UnpackedFloat.unpackMantissa_packComponents]
    exact numeric (UnpackedFloat.unpackExponent_packComponents.symm.trans full)

/-- A number stored in 64 bits is a number. -/
theorem unpack_pack (numeric : IsNumeric first) : IsNumeric (Float.Model.pack first).unpack := by
  show IsNumeric (UnpackedFloat.unpack .binary64 (UnpackedFloat.pack .binary64 first))
  unfold UnpackedFloat.pack
  cases first with
  | infinity sign => exact unpack_packComponents fun _ => rfl
  | notANumber => exact numeric.elim
  | zero sign => exact unpack_packComponents fun _ => rfl
  | finite sign mantissa exponent solid =>
    dsimp only
    split
    · exact unpack_packComponents fun _ => rfl
    · next small =>
      split
      · refine unpack_packComponents fun full => ?_
        have biased := congrArg BitVec.toNat full
        rw [BitVec.toNat_ofNat] at biased
        have greatest : (-1#11).toNat = 2047 := by decide
        omega
      · refine unpack_packComponents fun full => ?_
        exact absurd full (by decide)

/-- Rounding gives a number. -/
theorem roundWithAccuracy (sign : Sign) (mantissa : Nat) (exponent : Int)
    (accuracy : UnpackedFloat.Accuracy) :
    IsNumeric (UnpackedFloat.roundWithAccuracy .binary64 sign mantissa exponent accuracy) := by
  unfold UnpackedFloat.roundWithAccuracy
  dsimp only
  split <;> trivial

/-- A number with its sign turned is a number. -/
theorem neg (numeric : IsNumeric first) : IsNumeric first.neg := by
  cases first <;> trivial

/-- A whole number times a power of ten is a number. -/
theorem scientific (coefficient : Nat) (exponent : Int) :
    IsNumeric (UnpackedFloat.ofScientific .binary64 coefficient exponent) := by
  unfold UnpackedFloat.ofScientific
  split
  · trivial
  · split
    · trivial
    · split
      · trivial
      · split <;> exact roundWithAccuracy _ _ _ _

/-- A whole number is a number. -/
theorem ofNat (number : Nat) : IsNumeric (UnpackedFloat.ofNat .binary64 number) := by
  unfold UnpackedFloat.ofNat UnpackedFloat.ofInt UnpackedFloat.normalize
  cases number with
  | zero => trivial
  | succ number =>
    show IsNumeric (UnpackedFloat.round .binary64 .positive _ _)
    exact roundWithAccuracy _ _ _ _

/-- The product of a number with a finite float other than zero is a number. -/
theorem mul (numeric : IsNumeric first) (solid : IsSolid second) :
    IsNumeric (UnpackedFloat.mul .binary64 first second) := by
  cases second <;> cases solid
  cases first <;> first | exact roundWithAccuracy _ _ _ _ | exact numeric

/-- The quotient of a number by a finite float other than zero is a number. -/
theorem div (numeric : IsNumeric first) (solid : IsSolid second) :
    IsNumeric (UnpackedFloat.div .binary64 first second) := by
  cases second <;> cases solid
  cases first <;> first | exact roundWithAccuracy _ _ _ _ | exact numeric

/-- The powers of ten that are floats are finite and not zero. -/
theorem isSolid_powerOfTen {place : Nat}
    (inside : place < Float.exactlyRepresentablePowersOfTen.size) :
    IsSolid Float.exactlyRepresentablePowersOfTen[place].toModel.unpack := by
  have normal : ∀ power ∈ Float.exactlyRepresentablePowersOfTen.toList,
      @unpackExponent .binary64 power.toModel.toBits.toBitVec ≠ -1#_ ∧
        @unpackExponent .binary64 power.toModel.toBits.toBitVec ≠ 0#_ := by
    decide +kernel
  obtain ⟨below, above⟩ := normal Float.exactlyRepresentablePowersOfTen[place] (by simp)
  show IsSolid (UnpackedFloat.unpack .binary64 _)
  unfold UnpackedFloat.unpack
  dsimp only
  rw [if_neg below, if_neg above]
  trivial

/-- A decimal number without a sign gives a number. -/
theorem ofScientific (coefficient : Nat) (small : Bool) (places : Nat) :
    IsNumeric (Float.ofScientific coefficient small places).toModel.unpack := by
  unfold Float.ofScientific
  split
  · next short =>
    have size : Float.exactlyRepresentablePowersOfTen.size = 23 := rfl
    have whole : IsNumeric coefficient.toUInt64.toFloat.toModel.unpack := unpack_pack (ofNat _)
    have power :=
      isSolid_powerOfTen (show places < Float.exactlyRepresentablePowersOfTen.size by omega)
    dsimp only
    split
    · exact unpack_pack (div whole power)
    · exact unpack_pack (mul whole power)
  · exact unpack_pack (scientific _ _)

/-- The float of a numeral is a number. -/
theorem of_value? {numeral : Decimal.Numeral} {value : Float}
    (found : numeral.value? = some value) : IsNumeric value.toModel.unpack := by
  rw [Decimal.Numeral.value?, Decimal.Scientific.toFloat?_eq] at found
  split at found
  · cases found
  · cases found
    have size : IsNumeric numeral.number.size.toModel.unpack := ofScientific _ _ _
    unfold Decimal.Scientific.toFloat
    split
    · exact unpack_pack size.neg
    · exact size

end IsNumeric

/-! ## Order of floats -/

/-- Two unpacked floats compare one way as the other, turned around. -/
theorem compare_swap (first second : UnpackedFloat) :
    second.compare first = (first.compare second).map Ordering.swap := by
  have parts (exponent exponent' : Int) (mantissa mantissa' : Nat) :
      (compare exponent' exponent).then (compare mantissa' mantissa) =
        ((compare exponent exponent').then (compare mantissa mantissa')).swap := by
    rw [Ordering.swap_then, ← Std.OrientedCmp.eq_swap, ← Std.OrientedCmp.eq_swap]
  rcases first with (_ | _) | _ | (_ | _) | ⟨_ | _, _, _, _⟩ <;>
    rcases second with (_ | _) | _ | (_ | _) | ⟨_ | _, _, _, _⟩ <;>
      first
        | rfl
        | exact congrArg some (parts _ _ _ _)
        | exact congrArg (fun order => some order.swap) (parts _ _ _ _)

/-- Two numbers compare. -/
theorem IsNumeric.exists_compare {first second : UnpackedFloat} (numeric : IsNumeric first)
    (known : IsNumeric second) : ∃ order, first.compare second = some order := by
  rcases first with (_ | _) | _ | (_ | _) | ⟨_ | _, _, _, _⟩ <;>
    rcases second with (_ | _) | _ | (_ | _) | ⟨_ | _, _, _, _⟩ <;>
      first
        | exact ⟨_, rfl⟩
        | exact numeric.elim
        | exact known.elim

/-- A number stands from a bound on exactly when it does not stand below it. -/
theorem le_iff_not_lt {value bound : Float} (numeric : IsNumeric value.toModel.unpack)
    (known : IsNumeric bound.toModel.unpack) : bound ≤ value ↔ ¬ value < bound := by
  obtain ⟨order, found⟩ := numeric.exists_compare known
  have turned : bound.toModel.unpack.compare value.toModel.unpack = some order.swap := by
    rw [compare_swap, found, Option.map_some]
  have above : bound ≤ value ↔
      (bound.toModel.unpack.compare value.toModel.unpack).any (·.isLE) = true :=
    ⟨of_decide_eq_true, fun order => decide_eq_true order⟩
  have below : value < bound ↔
      (value.toModel.unpack.compare bound.toModel.unpack == some .lt) = true :=
    ⟨of_decide_eq_true, fun order => decide_eq_true order⟩
  rw [above, below, turned, found, Option.any_some]
  cases order <;> decide

end GcodeSender
