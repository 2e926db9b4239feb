import GcodeSender.Decimal.Numeral

/-!
# Whole texts as numbers

The values in a controller's reports. A text is a number only if all of it is, apart from
blanks at its ends. Whole numbers have 32 bits. Real numbers may have an exponent, may be
written in base sixteen, and may be infinite or no number at all.
-/
namespace GcodeSender.Decimal

/-- The smallest whole number that is read. -/
def minInteger : Int := -2147483648

/-- The greatest whole number that is read. -/
def maxInteger : Int := 2147483647

/-- A sign and digits, and nothing else. -/
def signedDigits? (text : Bytes) : Option Int :=
  let (sign, size) := Numeral.takeSign text
  if size.isEmpty || !size.all Byte.isDigit then none
  else if sign = some Byte.minus then some (-(valueOf size : Int))
  else some (valueOf size)

/-- The whole number that a text stands for. -/
def readInteger? (text : Bytes) : Option Int := do
  let value ← signedDigits? (trim text)
  if minInteger ≤ value ∧ value ≤ maxInteger then some value else none

/-- A digit in base sixteen. -/
def isHexDigit (c : UInt8) : Bool :=
  let c := Byte.toLower c
  Byte.isDigit c || (0x61 ≤ c && c ≤ 0x66)

/-- The value of a digit in base sixteen. -/
def hexDigitValue (c : UInt8) : Nat :=
  if Byte.isDigit c then Byte.digitValue c else (Byte.toLower c).toNat - 0x61 + 10

/-- The number that digits in base sixteen stand for. -/
def hexValueOf (text : Bytes) : Nat :=
  text.foldl (fun value c => 16 * value + hexDigitValue c) 0

/-- The exponent that ends a number, after its letter. No text at all is exponent zero. -/
def readExponent? (letter : UInt8) : Bytes → Option Int
  | [] => some 0
  | c :: rest => if Byte.toLower c = letter then signedDigits? rest else none

/-- A number in base ten with an optional exponent. -/
def readDecimal? (text : Bytes) : Option Float := do
  let (numeral, rest) ← Numeral.read? text
  let exponent ← readExponent? 0x65 rest
  let number := numeral.number
  ({ number with exponent := number.exponent + exponent } : Scientific).toFloat?

/-- A whole number times a power of two, if it is in the range of floats. A power far outside
the range is refused before it is computed. -/
def binaryValue? (negative : Bool) (significand : Nat) (exponent : Int) : Option Float :=
  let height := (significand.log2 : Int) + exponent
  if significand = 0 then some (if negative then -0.0 else 0.0)
  else if 1100 < height ∨ height < -1200 then none
  else (Scientific.ofBinary negative significand exponent).toFloat?

/-- A number in base sixteen, after its sign and mark, with an optional power of two. -/
def readHex? (negative : Bool) (text : Bytes) : Option Float := do
  let whole := text.takeWhile isHexDigit
  let rest := text.dropWhile isHexDigit
  let (places, rest) :=
    match rest with
    | c :: after =>
      if c = Byte.dot then (after.takeWhile isHexDigit, after.dropWhile isHexDigit)
      else ([], rest)
    | [] => ([], [])
  if whole.isEmpty && places.isEmpty then none
  else
    let exponent ← readExponent? 0x70 rest
    binaryValue? negative (hexValueOf (whole ++ places)) (exponent - 4 * places.length)

/-- The text names no number: `nan`, which letters, digits and low lines in parentheses may
follow. -/
def isNotANumber (text : Bytes) : Bool :=
  match stripStart? (ascii "nan") text with
  | none => false
  | some [] => true
  | some (c :: rest) =>
    c == Byte.openParen && rest.getLast? == some Byte.closeParen &&
      rest.dropLast.all fun d => Byte.isLetter d || Byte.isDigit d || d == 0x5F

/-- The real number that a text without blanks at its ends stands for. -/
def readTrimmed? (text : Bytes) : Option Float :=
  let (sign, size) := Numeral.takeSign text
  let negative := sign == some Byte.minus
  let size := size.map Byte.toLower
  if size = ascii "inf" ∨ size = ascii "infinity" then
    some (if negative then -1.0 / 0.0 else 1.0 / 0.0)
  else if isNotANumber size then some (0.0 / 0.0)
  else
    match stripStart? (ascii "0x") size with
    | some digits => readHex? negative digits
    | none => readDecimal? text

/-- The real number that a text stands for. -/
def readReal? (text : Bytes) : Option Float := readTrimmed? (trim text)

end GcodeSender.Decimal
