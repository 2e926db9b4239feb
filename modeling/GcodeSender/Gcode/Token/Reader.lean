import GcodeSender.Decimal.Numeral
import GcodeSender.Gcode.Token

/-!
# Reading the tokens of a line

Items are read from the front of the line, each up to the first byte that is not its own, and
blanks between them are skipped. Reading stops at the first item that cannot be read and names
its column. The main statement is that an item takes at least one byte, so reading ends.
-/
namespace GcodeSender

namespace Token

/-- The greatest line number. -/
def maxLineNumber : Nat := 9999999

/-- The greatest number of a command word. -/
def maxCode : Nat := 9999

/-- A number after blanks, with its value and the rest of the line. -/
def readNumber? (input : Bytes) : Option (Decimal.Numeral × Float × Bytes) := do
  let (numeral, rest) ← Decimal.Numeral.read? (input.dropWhile Byte.isGap)
  let value ← numeral.value?
  some (numeral, value, rest)

/-- The digits of a fraction without the zeros at its end. -/
def significantFraction (numeral : Decimal.Numeral) : Bytes :=
  ((numeral.fraction.getD []).reverse.dropWhile (· == Byte.zero)).reverse

/-- A command word of a letter and its number. A G word may have one digit after the point
that is not zero, the others none. -/
def command? (letter : CommandLetter) (numeral : Decimal.Numeral) (value : Float) :
    Except TokenFault Token :=
  let code := Decimal.valueOf numeral.whole
  if value < 0.0 then .error (.negativeCode letter)
  else if Float.ofNat maxCode < value then .error (.codeTooLarge letter)
  else
    match letter, significantFraction numeral with
    | _, [] => .ok (.command ⟨letter, code, none⟩ value)
    | .g, [digit] => .ok (.command ⟨.g, code, some (Byte.digitValue digit)⟩ value)
    | _, _ => .error (.badCode letter numeral.text)

/-- A line number. -/
def lineNumber? (numeral : Decimal.Numeral) (value : Float) : Except TokenFault Token :=
  if value < 0.0 || numeral.hasPoint then .error .badLineNumber
  else if Float.ofNat maxLineNumber < value then .error .lineNumberTooLarge
  else .ok (.lineNumber (Decimal.valueOf numeral.whole))

/-- The token of a letter and its number. -/
def ofWord? (letter : UInt8) (numeral : Decimal.Numeral) (value : Float) :
    Except TokenFault Token :=
  if letter = 0x4E then lineNumber? numeral value
  else
    match CommandLetter.ofByte? letter with
    | some kind => command? kind numeral value
    | none => .ok (.parameter letter value)

/-- A byte that opens or closes a comment. -/
def isParen (c : UInt8) : Bool := c == Byte.openParen || c == Byte.closeParen

/-- The comment whose opening parenthesis was just read. -/
def readComment (input : Bytes) : Except TokenFault (Token × Bytes) :=
  match input.dropWhile (!isParen ·) with
  | [] => .error .unterminatedComment
  | c :: rest =>
    if c = Byte.openParen then .error .nestedComment
    else .ok (.comment (trim (input.takeWhile (!isParen ·))), rest)

/-- The checksum whose asterisk was just read. -/
def readChecksum (input : Bytes) : Except TokenFault (Token × Bytes) :=
  match readNumber? input with
  | some (numeral, value, rest) =>
    if value < 0.0 || numeral.hasPoint then .error .badChecksum else .ok (.checksum value, rest)
  | none => .error .badChecksum

/-- The word whose letter was just read. -/
def readWord (letter : UInt8) (input : Bytes) : Except TokenFault (Token × Bytes) :=
  match readNumber? input with
  | some (numeral, value, rest) => (ofWord? letter numeral value).map (·, rest)
  | none => .error (.missingNumber letter)

/-- The item that starts with a byte, given what follows the byte. -/
def readItem (c : UInt8) (input : Bytes) : Except TokenFault (Token × Bytes) :=
  if c = Byte.openParen then readComment input
  else if c = Byte.semicolon then .ok (.comment (trim input), [])
  else if c = Byte.asterisk then readChecksum input
  else if Byte.isLetter c then readWord (Byte.toUpper c) input
  else .error (.unexpectedByte c)

/-- Dropping the first bytes of a kind makes no text longer. -/
theorem length_dropWhile_le (test : UInt8 → Bool) (input : Bytes) :
    (input.dropWhile test).length ≤ input.length :=
  (List.dropWhile_sublist test).length_le

/-- A number takes at least one byte. -/
theorem length_lt_of_readNumber? {input rest : Bytes} {numeral : Decimal.Numeral} {value : Float}
    (found : readNumber? input = some (numeral, value, rest)) : rest.length < input.length := by
  simp only [readNumber?, Option.bind_eq_bind, Option.bind_eq_some_iff, Prod.exists,
    Option.some.injEq, Prod.mk.injEq] at found
  obtain ⟨_, _, read, _, _, rfl, rfl, rfl⟩ := found
  exact Nat.lt_of_lt_of_le (Decimal.Numeral.length_lt_of_read? read)
    (length_dropWhile_le _ _)

/-- What follows an item is no longer than what follows its first byte. -/
theorem length_le_of_readItem {c : UInt8} {input rest : Bytes} {token : Token}
    (found : readItem c input = .ok (token, rest)) : rest.length ≤ input.length := by
  unfold readItem at found
  split at found
  · have shorter := length_dropWhile_le (!isParen ·) input
    unfold readComment at found
    split at found
    · simp at found
    · next after cut =>
      split at found
      · simp at found
      · simp only [Except.ok.injEq, Prod.mk.injEq] at found
        rw [cut, List.length_cons] at shorter
        rw [← found.2]
        omega
  · split at found
    · simp only [Except.ok.injEq, Prod.mk.injEq] at found
      simp [← found.2]
    · split at found
      · unfold readChecksum at found
        split at found
        · next number =>
          split at found
          · simp at found
          · simp only [Except.ok.injEq, Prod.mk.injEq] at found
            exact found.2 ▸ Nat.le_of_lt (length_lt_of_readNumber? number)
        · simp at found
      · split at found
        · unfold readWord at found
          split at found
          · next number =>
            simp only [Except.map] at found
            split at found
            · simp at found
            · simp only [Except.ok.injEq, Prod.mk.injEq] at found
              exact found.2 ▸ Nat.le_of_lt (length_lt_of_readNumber? number)
          · simp at found
        · simp at found

/-- The items of a text that starts at a column, or the column and fault of the first item that
cannot be read. -/
def readItems (column : Nat) (input : Bytes) : Except (Nat × TokenFault) (List PlacedToken) :=
  match input with
  | [] => .ok []
  | c :: rest =>
    if Byte.isBlank c then readItems (column + 1) rest
    else
      match found : readItem c rest with
      | .error fault => .error (column, fault)
      | .ok (token, after) =>
        have := length_le_of_readItem found
        match readItems (column + (input.length - after.length)) after with
        | .error fault => .error fault
        | .ok items => .ok (⟨token, column⟩ :: items)
termination_by input.length
decreasing_by all_goals (simp only [List.length_cons]; omega)

/-- The tokens of a line. A line with nothing but a percent sign, which marks the ends of a
program tape, has none. -/
def ofLine? (line : Bytes) : Except (Nat × TokenFault) (List PlacedToken) :=
  if trim line = [Byte.percent] then .ok [] else readItems 1 line

end Token

end GcodeSender
