import GcodeSender.Text

/-!
# Decimal digits

Whole numbers as digits and back. The main statements are that every byte written is a digit
and that the digits read back as the number they were written for.
-/
namespace GcodeSender.Decimal

/-- A whole number in decimal, without leading zeros. -/
def digits (value : Nat) : Bytes :=
  if value < 10 then [Byte.ofDigit value]
  else digits (value / 10) ++ [Byte.ofDigit (value % 10)]

/-- The last digits of a whole number, as many as asked for, with leading zeros. -/
def lastDigits : Nat → Nat → Bytes
  | 0, _ => []
  | count + 1, value => lastDigits count (value / 10) ++ [Byte.ofDigit (value % 10)]

/-- A whole number with a minus sign if it stands below zero. -/
def signedDigits (value : Int) : Bytes :=
  if value < 0 then Byte.minus :: digits value.natAbs else digits value.natAbs

/-- The number that digits stand for. -/
def valueOf (text : Bytes) : Nat := text.foldl (fun value c => 10 * value + Byte.digitValue c) 0

/-- The digit of a value below ten is a digit. -/
theorem isDigit_ofDigit {value : Nat} (small : value < 10) :
    Byte.isDigit (Byte.ofDigit value) = true := by
  revert value
  decide

/-- The value of a digit is the one that it was written for. -/
theorem digitValue_ofDigit {value : Nat} (small : value < 10) :
    Byte.digitValue (Byte.ofDigit value) = value := by
  revert value
  decide

/-- The value of digits with one more at the end. -/
theorem valueOf_append_singleton (front : Bytes) (c : UInt8) :
    valueOf (front ++ [c]) = 10 * valueOf front + Byte.digitValue c := by
  simp [valueOf]

/-- The digits of a number read back as that number. -/
theorem valueOf_digits (value : Nat) : valueOf (digits value) = value := by
  fun_induction digits value with
  | case1 value small => simp [valueOf, digitValue_ofDigit small]
  | case2 value _ ih =>
    rw [valueOf_append_singleton, ih, digitValue_ofDigit (Nat.mod_lt _ (by decide))]
    omega

/-- Only digits are written. -/
theorem isDigit_of_mem_digits {value : Nat} {c : UInt8} (written : c ∈ digits value) :
    Byte.isDigit c = true := by
  fun_induction digits value with
  | case1 value small =>
    rw [List.mem_singleton] at written
    exact written ▸ isDigit_ofDigit small
  | case2 value _ ih =>
    rw [List.mem_append, List.mem_singleton] at written
    rcases written with front | rfl
    · exact ih front
    · exact isDigit_ofDigit (Nat.mod_lt _ (by decide))

/-- A whole number is written as digits, with at most a minus sign. -/
theorem eq_minus_or_isDigit_of_mem_signedDigits {value : Int} {c : UInt8}
    (written : c ∈ signedDigits value) : c = Byte.minus ∨ Byte.isDigit c = true := by
  unfold signedDigits at written
  split at written
  · rcases List.mem_cons.mp written with sign | digit
    · exact .inl sign
    · exact .inr (isDigit_of_mem_digits digit)
  · exact .inr (isDigit_of_mem_digits written)

/-- A number has at least one digit. -/
theorem digits_ne_nil (value : Nat) : digits value ≠ [] := by
  unfold digits
  split <;> simp

/-- As many digits are written as asked for. -/
theorem length_lastDigits (count value : Nat) : (lastDigits count value).length = count := by
  induction count generalizing value with
  | zero => rfl
  | succ count ih => simp [lastDigits, ih]

/-- The last digits of a number are digits. -/
theorem isDigit_of_mem_lastDigits {count value : Nat} {c : UInt8}
    (written : c ∈ lastDigits count value) : Byte.isDigit c = true := by
  induction count generalizing value with
  | zero => simp [lastDigits] at written
  | succ count ih =>
    rw [lastDigits, List.mem_append, List.mem_singleton] at written
    rcases written with front | rfl
    · exact ih front
    · exact isDigit_ofDigit (Nat.mod_lt _ (by decide))

/-- The last digits of a number stand for its remainder. -/
theorem valueOf_lastDigits (count value : Nat) :
    valueOf (lastDigits count value) = value % Nat.pow 10 count := by
  induction count generalizing value with
  | zero => simp [lastDigits, valueOf, Nat.mod_one]
  | succ count ih =>
    have power : Nat.pow 10 (count + 1) = 10 * Nat.pow 10 count := Nat.mul_comm _ _
    rw [lastDigits, valueOf_append_singleton, ih, digitValue_ofDigit (Nat.mod_lt _ (by decide)),
      power, Nat.mod_mul]
    omega

end GcodeSender.Decimal
