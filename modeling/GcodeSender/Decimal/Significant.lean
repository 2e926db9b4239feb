import GcodeSender.Decimal.Fixed

/-!
# Numbers with a fixed number of significant digits

The text of a number in a message: so many significant digits, trailing zeros dropped, in
positional form while the decimal exponent is at least -4 and below the number of digits, in
exponent form outside that.
-/
namespace GcodeSender.Decimal

/-- The decimal exponent of a positive fraction: the greatest one whose power of ten
is at most the fraction. -/
def leadingExponent (numerator denominator : Nat) : Int :=
  if denominator ≤ numerator then ((digits (numerator / denominator)).length : Int) - 1
  else
    let inverse := (denominator + numerator - 1) / numerator
    Int.negOfNat (digits (inverse - 1)).length

/-- So many leading digits of a positive fraction as a whole number, and the decimal exponent
of the first of them. A value that rounds up to the next power of ten takes its exponent. -/
def leadingDigits (count numerator denominator : Nat) : Nat × Int :=
  let exponent := leadingExponent numerator denominator
  let shift := (count : Int) - 1 - exponent
  let whole := roundQuotient (numerator * Nat.pow 10 shift.toNat)
    (denominator * Nat.pow 10 (-shift).toNat)
  if whole = Nat.pow 10 count then (Nat.pow 10 (count - 1), exponent + 1) else (whole, exponent)

/-- A decimal exponent with its sign and at least two digits. -/
def exponentText (exponent : Int) : Bytes :=
  let size := digits exponent.natAbs
  let padded := if size.length < 2 then Byte.zero :: size else size
  ascii "e" ++ (if exponent < 0 then Byte.minus else Byte.plus) :: padded

/-- The text of a finite value with so many significant digits. -/
def significantExact (value : Dyadic) (count : Nat) : Bytes :=
  if value.significand = 0 then placed value.negative 0 0
  else
    let (whole, exponent) := leadingDigits count value.numerator value.denominator
    if exponent < -4 ∨ (count : Int) ≤ exponent then
      trimFraction (placed value.negative (count - 1) whole) ++ exponentText exponent
    else
      let places := ((count : Int) - 1 - exponent).toNat
      trimFraction (placed value.negative places whole)

/-- The text of a value with so many significant digits. -/
def significant (value : Float) (count : Nat) : Bytes :=
  match Dyadic.ofFloat? value with
  | some exact => significantExact exact count
  | none => if value.isNaN then ascii "nan" else if value < 0.0 then ascii "-inf" else ascii "inf"

/-- The text of a value in a message, with six significant digits. -/
def brief (value : Float) : Bytes := significant value 6

end GcodeSender.Decimal
