import GcodeSender.Gcode.Word

/-!
# Tokens of a line

A line is a row of words, comments and checksums. Words are a letter and a number; the letters
G, M and T make command words, N numbers the line, and every other letter carries a value.
-/
namespace GcodeSender

/-- One item of a line. -/
inductive Token where
  /-- A G, M or T word, with its number as it reads. -/
  | command (word : Word) (value : Float)
  /-- Any other letter, with its value. -/
  | parameter (letter : UInt8) (value : Float)
  /-- An N word. -/
  | lineNumber (number : Nat)
  /-- A comment, without its delimiters and without blanks at its ends. -/
  | comment (text : Bytes)
  /-- A checksum. It is read and then ignored. -/
  | checksum (value : Float)
deriving DecidableEq

/-- A token and the column, counted from one, where it starts. -/
structure PlacedToken where
  /-- The item. -/
  token : Token
  /-- The column of its first byte. -/
  column : Nat
deriving DecidableEq

/-- Why an item of a line cannot be read. -/
inductive TokenFault where
  /-- No closing parenthesis follows. -/
  | unterminatedComment
  /-- Another parenthesis opens before the comment closes. -/
  | nestedComment
  /-- An asterisk is not followed by digits alone. -/
  | badChecksum
  /-- No item starts with this byte. -/
  | unexpectedByte (byte : UInt8)
  /-- No number follows a letter. -/
  | missingNumber (letter : UInt8)
  /-- The line number is negative or has a point. -/
  | badLineNumber
  /-- The line number has more than seven digits' worth. -/
  | lineNumberTooLarge
  /-- The number of a command word is negative. -/
  | negativeCode (letter : CommandLetter)
  /-- The number of a command word is above 9999. -/
  | codeTooLarge (letter : CommandLetter)
  /-- The number of a command word has places that no code has. -/
  | badCode (letter : CommandLetter) (number : Bytes)
deriving DecidableEq

/-- The words of a fault. -/
def TokenFault.message : TokenFault → Bytes
  | unterminatedComment => ascii "Unterminated comment"
  | nestedComment => ascii "Nested comment"
  | badChecksum => ascii "Checksum must be followed by a non-negative integer"
  | unexpectedByte byte => ascii "Unexpected character '" ++ [byte] ++ ascii "'"
  | missingNumber letter => ascii "Letter '" ++ [letter] ++ ascii "' is not followed by a number"
  | badLineNumber => ascii "Line number must be a non-negative integer"
  | lineNumberTooLarge => ascii "Line number out of range"
  | negativeCode letter => ascii "Negative value for command word '" ++ [letter.byte] ++ ascii "'"
  | codeTooLarge letter =>
    ascii "Value out of range for command word '" ++ [letter.byte] ++ ascii "'"
  | badCode letter number =>
    ascii "Invalid command value '" ++ [letter.byte] ++ number ++ ascii "'"

end GcodeSender
