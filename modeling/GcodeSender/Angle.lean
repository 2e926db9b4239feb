import GcodeSender.Dyadic

/-!
# Angles

The angle of a vector, computed in whole numbers and rounded once. For `p ≤ q` the arc tangent
of `p / q` is `p q / (p² + q²)` times the sum of `(2 · 4 ⋯ 2k) / (3 · 5 ⋯ (2k + 1)) wᵏ`, where
`w = p² / (p² + q²)` is at most one half, so every term is positive and less than half of the
one before. The main statements are that no term is left once one is zero and that the vector
with no length has the angle zero.
-/
namespace GcodeSender.Angle

/-- How many binary places the sum of the series has. -/
def precision : Nat := 192

/-- The terms of the series from the one numbered `k` on, in units of the last place, up to so
many of them. -/
def seriesFrom (weight : Nat) : Nat → Nat → Nat → Nat
  | 0, _, _ => 0
  | count + 1, k, term =>
    if term = 0 then 0
    else
      term +
        seriesFrom weight count (k + 1)
          (term * weight * (2 * k) / ((2 * k + 1) * Nat.pow 2 precision))

/-- The sum of the series for a weight in units of the last place. -/
def series (weight : Nat) : Nat := seriesFrom weight (precision + 8) 1 (Nat.pow 2 precision)

/-- Half a turn in units of the last place: it is four times the arc tangent of one. -/
def halfTurn : Nat := 2 * series (Nat.pow 2 (precision - 1))

/-- A positive fraction. -/
structure Fraction where
  /-- The numerator. -/
  num : Nat
  /-- The denominator. -/
  den : Nat
deriving DecidableEq, Repr

/-- The arc tangent of `p / q`, for `p ≤ q`. -/
def arcTangent (p q : Nat) : Fraction :=
  let square := p * p + q * q
  if square = 0 then ⟨0, 1⟩
  else ⟨p * q * series (p * p * Nat.pow 2 precision / square), square * Nat.pow 2 precision⟩

/-- What an angle lacks of half a turn, or of a part of it. -/
def complement (part : Nat) (angle : Fraction) : Fraction :=
  ⟨halfTurn * angle.den - angle.num * part * Nat.pow 2 precision,
    angle.den * part * Nat.pow 2 precision⟩

/-- The angle between an axis and the vector `q` along it and `p` across it. -/
def ofLegs (p q : Nat) : Fraction :=
  if p ≤ q then arcTangent p q else complement 2 (arcTangent q p)

/-- The nearest float to a fraction. Guard bits are kept, and a last bit stands for whatever the
division leaves over. -/
def nearest (negative : Bool) (angle : Fraction) : Float :=
  let guard := min 1200 (66 + angle.den.log2 - angle.num.log2)
  let scaled := angle.num * Nat.pow 2 guard
  let rest := if scaled % angle.den = 0 then 0 else 1
  Dyadic.toFloat ⟨negative, 2 * (scaled / angle.den) + rest, -(guard : Int) - 1⟩

/-- A coordinate as a leg of a triangle: its exact value, or one that outgrows every finite
value. -/
def leg (value other : Float) : Dyadic :=
  if value.isInf then ⟨value < 0.0, 1, 0⟩
  else
    match Dyadic.ofFloat? value with
    | some exact => if other.isInf then ⟨exact.negative, 0, 0⟩ else exact
    | none => ⟨false, 0, 0⟩

/-- The angle from the first axis to the vector with two coordinates, in radians, between minus
and plus half a turn. -/
def ofVector (second first : Float) : Float :=
  if second.isNaN || first.isNaN then second + first
  else
    let p := leg second first
    let q := leg first second
    let low := min p.exponent q.exponent
    let angle := ofLegs (p.significand * Nat.pow 2 (p.exponent - low).toNat)
      (q.significand * Nat.pow 2 (q.exponent - low).toNat)
    nearest p.negative (if q.negative then complement 1 angle else angle)

/-- No term is left once a term is zero. -/
@[simp] theorem seriesFrom_zero (weight count k : Nat) : seriesFrom weight count k 0 = 0 := by
  cases count <;> rfl

/-- The vector with no length has the angle zero. -/
@[simp] theorem ofLegs_zero_zero : ofLegs 0 0 = ⟨0, 1⟩ := rfl

end GcodeSender.Angle
