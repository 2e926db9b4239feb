import GcodeSender.Decimal.Digits
import GcodeSender.Dyadic

/-!
# Reading numbers

A numeral is an optional sign and digits with at most one point among them. Its value is the
nearest float, and a numeral whose value leaves the range of floats, or loses digits below the
smallest normal one, has no value. The main statements are that exactly the numbers that
overflow or lose digits have no float, and that reading a numeral takes exactly its text from the
front of the input.
-/
namespace GcodeSender.Decimal

/-- A sign, a whole number and a power of ten. -/
structure Scientific where
  /-- Whether a minus sign stands in front. -/
  negative : Bool
  /-- The digits as a whole number. -/
  coefficient : Nat
  /-- The power of ten that it is multiplied by. -/
  exponent : Int
deriving DecidableEq, Repr

namespace Scientific

/-- The nearest float to the size of the number. -/
def size (number : Scientific) : Float :=
  Float.ofScientific number.coefficient (number.exponent < 0) number.exponent.natAbs

/-- The nearest float to the number. -/
def toFloat (number : Scientific) : Float :=
  if number.negative then -number.size else number.size

/-- The size of the number is below every normal float, even after rounding, and it is no
multiple of the smallest float. -/
def losesDigits (number : Scientific) : Bool :=
  let scale := Nat.pow 10 (-number.exponent).toNat
  let scaled := number.coefficient * Nat.pow 10 number.exponent.toNat
  decide (scaled * Nat.pow 2 1076 < (Nat.pow 2 54 - 1) * scale) &&
    decide (scaled * Nat.pow 2 1074 % scale ≠ 0)

/-- Half a step above the greatest float. From here on a number rounds to no finite float. -/
def rangeEnd : Nat := (Nat.pow 2 54 - 1) * Nat.pow 2 970

/-- The size of the number rounds to no finite float. -/
def overflows (number : Scientific) : Bool :=
  let scaled := number.coefficient * Nat.pow 10 number.exponent.toNat
  decide (rangeEnd * Nat.pow 10 (-number.exponent).toNat ≤ scaled)

/-- A power of two that the size of a number other than zero reaches, as ten lies between eight
and sixteen. -/
def reached (number : Scientific) : Int :=
  number.coefficient.log2 + (if number.exponent < 0 then 4 else 3) * number.exponent

/-- A power of two that the size of a number stays below. -/
def missed (number : Scientific) : Int :=
  number.coefficient.log2 + 1 + (if number.exponent < 0 then 3 else 4) * number.exponent

/-- The nearest float, if the number is in the range of floats. A number far outside the range is
refused before any power of ten is computed. -/
def toFloat? (number : Scientific) : Option Float :=
  if number.coefficient = 0 then some number.toFloat
  else if 1100 < number.reached ∨ number.missed < -1200 then none
  else if number.overflows || number.losesDigits then none
  else some number.toFloat

/-- The decimal number that equals a whole number times a power of two. -/
def ofBinary (negative : Bool) (significand : Nat) (exponent : Int) : Scientific :=
  if 0 ≤ exponent then ⟨negative, significand * Nat.pow 2 exponent.toNat, 0⟩
  else ⟨negative, significand * Nat.pow 5 (-exponent).toNat, exponent⟩

/-- A large power of two is above the range of floats. -/
theorem rangeEnd_le {places : Nat} (far : 54 + 970 ≤ places) : rangeEnd ≤ Nat.pow 2 places := by
  have bound (width height : Nat) (far : width + height ≤ places) :
      (Nat.pow 2 width - 1) * Nat.pow 2 height ≤ Nat.pow 2 places :=
    calc (Nat.pow 2 width - 1) * Nat.pow 2 height
        ≤ Nat.pow 2 width * Nat.pow 2 height := Nat.mul_le_mul_right _ (Nat.sub_le _ _)
      _ = Nat.pow 2 (width + height) := (Nat.pow_add 2 width height).symm
      _ ≤ Nat.pow 2 places := Nat.pow_le_pow_right (by decide) far
  unfold rangeEnd
  generalize 54 = width, 970 = height at far
  exact bound width height far

/-- A power of ten lies between those of eight and sixteen, which are powers of two. -/
theorem pow_ten_bounds (places : Nat) :
    Nat.pow 2 (3 * places) ≤ Nat.pow 10 places ∧ Nat.pow 10 places ≤ Nat.pow 2 (4 * places) :=
  ⟨Nat.le_trans (Nat.le_of_eq (Nat.pow_mul 2 3 places)) (Nat.pow_le_pow_left (by decide) places),
    Nat.le_trans (Nat.pow_le_pow_left (by decide) places)
      (Nat.le_of_eq (Nat.pow_mul 2 4 places).symm)⟩

/-- A number that reaches a power of two above the range overflows. -/
theorem overflows_of_reached {number : Scientific} (solid : number.coefficient ≠ 0)
    (far : 1100 < number.reached) : number.overflows = true := by
  have floor : Nat.pow 2 number.coefficient.log2 ≤ number.coefficient := Nat.log2_self_le solid
  simp only [overflows, decide_eq_true_eq]
  unfold reached at far
  split at far
  · have whole : number.exponent.toNat = 0 := by omega
    generalize scale : (-number.exponent).toNat = places
    obtain ⟨rest, split⟩ : ∃ rest, number.coefficient.log2 = rest + 4 * places :=
      ⟨_, (Nat.sub_add_cancel (by omega)).symm⟩
    rw [whole]
    calc rangeEnd * Nat.pow 10 places
        ≤ Nat.pow 2 rest * Nat.pow 2 (4 * places) :=
          Nat.mul_le_mul (rangeEnd_le (by omega)) (pow_ten_bounds places).2
      _ = Nat.pow 2 number.coefficient.log2 := by
          rw [split]
          exact (Nat.pow_add 2 rest (4 * places)).symm
      _ ≤ number.coefficient := floor
      _ = number.coefficient * Nat.pow 10 0 := (Nat.mul_one _).symm
  · have whole : (-number.exponent).toNat = 0 := by omega
    generalize scale : number.exponent.toNat = places
    have one (value : Nat) : value * Nat.pow 10 0 = value := Nat.mul_one value
    rw [whole, one]
    calc rangeEnd
        ≤ Nat.pow 2 (number.coefficient.log2 + 3 * places) := rangeEnd_le (by omega)
      _ = Nat.pow 2 number.coefficient.log2 * Nat.pow 2 (3 * places) :=
          Nat.pow_add 2 number.coefficient.log2 (3 * places)
      _ ≤ number.coefficient * Nat.pow 10 places :=
          Nat.mul_le_mul floor (pow_ten_bounds places).1

/-- A number that stays below a power of two under the range loses digits. -/
theorem losesDigits_of_missed {number : Scientific} (solid : number.coefficient ≠ 0)
    (far : number.missed < -1200) : number.losesDigits = true := by
  have below : number.coefficient < Nat.pow 2 (number.coefficient.log2 + 1) := Nat.lt_log2_self
  unfold missed at far
  split at far
  · have whole : number.exponent.toNat = 0 := by omega
    generalize scale : (-number.exponent).toNat = places
    have small (shift : Nat) (near : shift ≤ 1076) :
        number.coefficient * Nat.pow 2 shift < Nat.pow 10 places :=
      calc number.coefficient * Nat.pow 2 shift
          < Nat.pow 2 (number.coefficient.log2 + 1) * Nat.pow 2 shift :=
            Nat.mul_lt_mul_of_pos_right below (Nat.pow_pos (by decide))
        _ = Nat.pow 2 (number.coefficient.log2 + 1 + shift) :=
            (Nat.pow_add 2 (number.coefficient.log2 + 1) shift).symm
        _ ≤ Nat.pow 2 (3 * places) := Nat.pow_le_pow_right (by decide) (by omega)
        _ ≤ Nat.pow 10 places := (pow_ten_bounds places).1
    have solid (shift : Nat) : number.coefficient * Nat.pow 2 shift ≠ 0 :=
      Nat.mul_ne_zero solid (Nat.ne_of_gt (Nat.pow_pos (by decide)))
    have scaled : number.coefficient * Nat.pow 10 0 = number.coefficient := Nat.mul_one _
    have wide : 1076 ≤ 1076 ∧ 1074 ≤ 1076 := by decide
    unfold losesDigits
    rw [whole, scale, scaled]
    generalize 1074 = step at wide
    generalize 1076 = normal at small wide
    rw [Bool.and_eq_true, decide_eq_true_eq, decide_eq_true_eq,
      Nat.mod_eq_of_lt (small step wide.2)]
    exact ⟨Nat.lt_of_lt_of_le (small normal wide.1) (Nat.le_mul_of_pos_left _ (by decide)),
      solid step⟩
  · omega

/-- Exactly the numbers that overflow or lose digits have no float. -/
theorem toFloat?_eq (number : Scientific) :
    number.toFloat? =
      if number.coefficient ≠ 0 ∧ (number.overflows || number.losesDigits) = true then none
      else some number.toFloat := by
  unfold toFloat?
  by_cases empty : number.coefficient = 0
  · simp [empty]
  · simp only [empty, if_false, ne_eq, not_false_eq_true, true_and]
    split
    · next far =>
      rcases far with high | low
      · simp [overflows_of_reached empty high]
      · simp [losesDigits_of_missed empty low]
    · rfl

end Scientific

/-- A number as written: an optional sign, whole digits, and the digits after a point if there
is one. -/
structure Numeral where
  /-- The sign, if one is written. -/
  sign : Option UInt8
  /-- The digits before the point. -/
  whole : Bytes
  /-- The digits after the point, if there is a point. -/
  fraction : Option Bytes
deriving DecidableEq, Repr

namespace Numeral

/-- A point with the digits after it, if there is one. -/
def fractionText : Option Bytes → Bytes
  | some places => Byte.dot :: places
  | none => []

/-- The text of a numeral as written. -/
def text (numeral : Numeral) : Bytes :=
  numeral.sign.toList ++ numeral.whole ++ fractionText numeral.fraction

/-- The number that a numeral stands for. -/
def number (numeral : Numeral) : Scientific :=
  let places := numeral.fraction.getD []
  ⟨numeral.sign == some Byte.minus, valueOf (numeral.whole ++ places), -(places.length : Int)⟩

/-- The float nearest to a numeral, if it is in range. -/
def value? (numeral : Numeral) : Option Float := numeral.number.toFloat?

/-- A numeral has a point. -/
def hasPoint (numeral : Numeral) : Bool := numeral.fraction.isSome

/-- The sign at the front of a text, and the rest. -/
def takeSign : Bytes → Option UInt8 × Bytes
  | c :: rest => if c = Byte.plus ∨ c = Byte.minus then (some c, rest) else (none, c :: rest)
  | [] => (none, [])

/-- The point at the front of a text with the digits after it, and the rest. -/
def takeFraction : Bytes → Option Bytes × Bytes
  | c :: rest =>
    if c = Byte.dot then (some (rest.takeWhile Byte.isDigit), rest.dropWhile Byte.isDigit)
    else (none, c :: rest)
  | [] => (none, [])

/-- Read a numeral from the front of a text. It goes on as long as its bytes do, and has at
least one digit. -/
def read? (input : Bytes) : Option (Numeral × Bytes) :=
  let (sign, unsigned) := takeSign input
  let whole := unsigned.takeWhile Byte.isDigit
  let (fraction, rest) := takeFraction (unsigned.dropWhile Byte.isDigit)
  if whole.isEmpty && (fraction.getD []).isEmpty then none
  else some (⟨sign, whole, fraction⟩, rest)

/-- A sign and the rest make up the text they were taken from. -/
theorem takeSign_append (input : Bytes) :
    (takeSign input).1.toList ++ (takeSign input).2 = input := by
  unfold takeSign
  split
  · split <;> simp
  · rfl

/-- A fraction and the rest make up the text they were taken from. -/
theorem takeFraction_append (input : Bytes) :
    fractionText (takeFraction input).1 ++ (takeFraction input).2 = input := by
  cases input with
  | nil => rfl
  | cons c rest =>
    by_cases same : c = Byte.dot
    · simp [takeFraction, fractionText, same, List.takeWhile_append_dropWhile]
    · simp [takeFraction, fractionText, same]

/-- Reading a numeral takes exactly its text from the front of the input. -/
theorem eq_append_of_read? {input rest : Bytes} {numeral : Numeral}
    (found : read? input = some (numeral, rest)) : input = numeral.text ++ rest := by
  unfold read? at found
  dsimp only at found
  split at found
  · simp at found
  · simp only [Option.some.injEq, Prod.mk.injEq] at found
    obtain ⟨rfl, rfl⟩ := found
    have sign := takeSign_append input
    have whole := List.takeWhile_append_dropWhile (p := Byte.isDigit) (l := (takeSign input).2)
    have fraction := takeFraction_append ((takeSign input).2.dropWhile Byte.isDigit)
    simp only [text, List.append_assoc]
    rw [fraction, whole, sign]

/-- Reading a numeral takes at least one byte. -/
theorem length_lt_of_read? {input rest : Bytes} {numeral : Numeral}
    (found : read? input = some (numeral, rest)) : rest.length < input.length := by
  have split := eq_append_of_read? found
  have solid : numeral.text ≠ [] := by
    unfold read? at found
    dsimp only at found
    split at found
    · simp at found
    · next some_digit =>
      simp only [Option.some.injEq, Prod.mk.injEq] at found
      obtain ⟨rfl, -⟩ := found
      intro empty
      simp only [text, List.append_eq_nil_iff] at empty
      obtain ⟨⟨-, whole⟩, fraction⟩ := empty
      apply some_digit
      rw [Bool.and_eq_true]
      refine ⟨by simp [whole], ?_⟩
      cases places : (takeFraction ((takeSign input).2.dropWhile Byte.isDigit)).1 with
      | none => rfl
      | some written => simp [places, fractionText] at fraction
  have positive : 0 < numeral.text.length := List.length_pos_iff.mpr solid
  rw [split, List.length_append]
  omega

end Numeral

end GcodeSender.Decimal
