/-!
# Exact values of floats

A finite float is a whole number times a power of two. Texts of numbers are made and read by
exact arithmetic on that value, so each is rounded once. The main statements are that a
quotient rounds to within half a unit, and that a tie goes to the even neighbour.
-/
namespace GcodeSender

/-- A sign, a whole number and a power of two. -/
structure Dyadic where
  /-- Whether the value stands below zero, or is the negative zero. -/
  negative : Bool
  /-- The whole number. -/
  significand : Nat
  /-- The power of two that it is multiplied by. -/
  exponent : Int
deriving DecidableEq, Repr

/-- The nearest whole number to a quotient, a tie going to the even one. -/
def roundQuotient (numerator denominator : Nat) : Nat :=
  let quotient := numerator / denominator
  let double := 2 * (numerator % denominator)
  if double < denominator then quotient
  else if denominator < double then quotient + 1
  else quotient + quotient % 2

/-- A rounded quotient is within half a unit of the exact one. -/
theorem roundQuotient_within_half {numerator denominator : Nat} (positive : 0 < denominator) :
    2 * numerator ≤ (2 * roundQuotient numerator denominator + 1) * denominator ∧
      2 * roundQuotient numerator denominator * denominator ≤ 2 * numerator + denominator := by
  have split := Nat.div_add_mod numerator denominator
  have small := Nat.mod_lt numerator positive
  have parity := Nat.mod_two_eq_zero_or_one (numerator / denominator)
  generalize hq : numerator / denominator = q at *
  generalize hr : numerator % denominator = r at *
  unfold roundQuotient
  rw [hq, hr]
  subst split
  dsimp only
  split
  · constructor <;> grind
  · split
    · constructor <;> grind
    · rcases parity with even | odd
      · rw [even]; constructor <;> grind
      · rw [odd]; constructor <;> grind

/-- A quotient that stands half way rounds to an even number. -/
theorem roundQuotient_even_of_tie {numerator denominator : Nat}
    (tie : 2 * (numerator % denominator) = denominator) :
    roundQuotient numerator denominator % 2 = 0 := by
  unfold roundQuotient
  dsimp only
  rw [tie]
  simp only [Nat.lt_irrefl, if_false]
  omega

/-- A rounded quotient that is half a unit off the exact one is even. -/
theorem roundQuotient_even_of_half_off {numerator denominator : Nat} (positive : 0 < denominator)
    (off : 2 * numerator + denominator = 2 * roundQuotient numerator denominator * denominator ∨
      2 * roundQuotient numerator denominator * denominator + denominator = 2 * numerator) :
    roundQuotient numerator denominator % 2 = 0 := by
  apply roundQuotient_even_of_tie
  have split := Nat.div_add_mod numerator denominator
  have small := Nat.mod_lt numerator positive
  generalize hq : numerator / denominator = q at *
  generalize hr : numerator % denominator = r at *
  unfold roundQuotient at off
  rw [hq, hr] at off
  subst split
  dsimp only at off
  split at off
  · grind
  · split at off
    · grind
    · omega

/-- A quotient rounds to zero up to a half. -/
theorem roundQuotient_eq_zero_iff {numerator denominator : Nat} (positive : 0 < denominator) :
    roundQuotient numerator denominator = 0 ↔ 2 * numerator ≤ denominator := by
  have split := Nat.div_add_mod numerator denominator
  have small := Nat.mod_lt numerator positive
  unfold roundQuotient
  dsimp only
  rcases Nat.eq_zero_or_pos (numerator / denominator) with zero | above
  · rw [zero, Nat.mul_zero, Nat.zero_add] at split
    rw [zero, split]
    split
    · omega
    · split <;> omega
  · have reached := (Nat.div_pos_iff.mp above).2
    split
    · omega
    · split <;> omega

namespace Dyadic

/-- The exact value of a float, if it is finite. -/
def ofFloat? (value : Float) : Option Dyadic :=
  let bits := value.toBits.toNat
  let negative := bits / Nat.pow 2 63 == 1
  let biased : Nat := bits / Nat.pow 2 52 % Nat.pow 2 11
  let fraction := bits % Nat.pow 2 52
  if biased = 2047 then none
  else if biased = 0 then some ⟨negative, fraction, -1074⟩
  else some ⟨negative, Nat.pow 2 52 + fraction, (biased : Int) - 1075⟩

/-- The numerator of the size of the value as a fraction. -/
def numerator (value : Dyadic) : Nat :=
  value.significand * Nat.pow 2 value.exponent.toNat

/-- The denominator of the size of the value as a fraction. -/
def denominator (value : Dyadic) : Nat := Nat.pow 2 (-value.exponent).toNat

/-- The size of one value is below the size of another. -/
def sizeBelow (value other : Dyadic) : Bool :=
  decide (value.numerator * other.denominator < other.numerator * value.denominator)

/-- The nearest float to a value, by way of the decimal that equals it. -/
def toFloat (value : Dyadic) : Float :=
  let size :=
    if 0 ≤ value.exponent then
      Float.ofScientific (value.significand * Nat.pow 2 value.exponent.toNat) false 0
    else
      let places := (-value.exponent).toNat
      Float.ofScientific (value.significand * Nat.pow 5 places) true places
  if value.negative then -size else size

/-- A denominator is positive. -/
theorem denominator_pos (value : Dyadic) : 0 < value.denominator :=
  Nat.pow_pos (by decide)

end Dyadic

/-- The length of the longest side of a right triangle over the other two, to the nearest
float. The squares are added exactly; the root is taken with guard bits, and a last bit stands
for whatever the root leaves over, so the sum is rounded once. -/
def hypotenuse (x y : Float) : Float :=
  match Dyadic.ofFloat? x, Dyadic.ofFloat? y with
  | some a, some b =>
    let low := min a.exponent b.exponent
    let p := a.significand * Nat.pow 2 (a.exponent - low).toNat
    let q := b.significand * Nat.pow 2 (b.exponent - low).toNat
    let square := p * p + q * q
    let scaled := square * Nat.pow 4 64
    let root := Nat.sqrt scaled
    let rest := if root * root = scaled then 0 else 1
    Dyadic.toFloat ⟨false, 2 * root + rest, low - 65⟩
  | _, _ =>
    if x.isInf || y.isInf then Float.abs (if x.isInf then x else y) else x + y

end GcodeSender
