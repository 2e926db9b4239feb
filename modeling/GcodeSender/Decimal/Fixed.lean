import GcodeSender.Decimal.Digits
import GcodeSender.Dyadic

/-!
# Numbers with a fixed number of places

The text of a number in a G-code line. The value is rounded once, from its exact binary value,
and a tie goes to the even neighbour. The main statements are that the written decimal is
within half a unit of its last place, and that trimming keeps a text that has no point.
-/
namespace GcodeSender.Decimal

/-- A sign, whole digits and as many places as asked for, of a value given in units of the last
place. -/
def placed (negative : Bool) (places units : Nat) : Bytes :=
  let sign := if negative then [Byte.minus] else []
  let whole := digits (units / Nat.pow 10 places)
  let fraction := if places = 0 then [] else Byte.dot :: lastDigits places units
  sign ++ whole ++ fraction

/-- The size of a value in units of its last place. -/
def units (value : Dyadic) (places : Nat) : Nat :=
  roundQuotient (value.numerator * Nat.pow 10 places) value.denominator

/-- The text without the zeros that end its fraction, and without a point that nothing follows.
A text without a point is kept. -/
def trimFraction (text : Bytes) : Bytes :=
  if Byte.dot ∈ text then
    let kept := text.reverse.dropWhile (· == Byte.zero)
    match kept with
    | [] => []
    | last :: front => if last = Byte.dot then front.reverse else (last :: front).reverse
  else text

/-- Half a unit of the last place, to the nearest float. -/
def halfUnit (places : Nat) : Dyadic :=
  (Dyadic.ofFloat? (0.5 * Float.ofScientific 1 true places)).getD ⟨false, 0, 0⟩

/-- The text of a finite value with a fixed number of places. A value below half a unit of the
last place is written as zero, without a sign. -/
def fixedExact (value : Dyadic) (places : Nat) : Bytes :=
  if value.sizeBelow (halfUnit places) then placed false places 0
  else placed value.negative places (units value places)

/-- The text of a value with a fixed number of places. -/
def fixed (value : Float) (places : Nat) : Bytes :=
  match Dyadic.ofFloat? value with
  | some exact => fixedExact exact places
  | none => if value.isNaN then ascii "nan" else if value < 0.0 then ascii "-inf" else ascii "inf"

/-- The text of a value with at most so many places, without trailing zeros. -/
def fixedTrimmed (value : Float) (places : Nat) : Bytes := trimFraction (fixed value places)

/-- The value, or zero if it is below half a power of ten. -/
def dropBelow (value : Float) (power : Nat) : Float :=
  if value.abs < 0.5 * Float.pow 10.0 (Float.ofNat power) then 0.0 else value

/-- The text of a value with a number of places. A place before the point decides only what is
written as zero, and six places are written then. -/
def fixedAt (value : Float) : Int → Bytes
  | .ofNat places => fixed value places
  | .negSucc power => fixed (dropBelow value (power + 1)) 6

/-- The units written are within half a unit of the exact size of the value. -/
theorem units_within_half (value : Dyadic) (places : Nat) :
    2 * (value.numerator * Nat.pow 10 places) ≤ (2 * units value places + 1) * value.denominator ∧
      2 * units value places * value.denominator ≤
        2 * (value.numerator * Nat.pow 10 places) + value.denominator :=
  roundQuotient_within_half value.denominator_pos

/-- A place after the point is one of those that are written. -/
@[simp] theorem fixedAt_ofNat (value : Float) (places : Nat) :
    fixedAt value (.ofNat places) = fixed value places := rfl

/-- A text without a point has no fraction to trim. -/
theorem trimFraction_of_not_mem {text : Bytes} (whole : Byte.dot ∉ text) :
    trimFraction text = text := by
  simp [trimFraction, whole]

end GcodeSender.Decimal
