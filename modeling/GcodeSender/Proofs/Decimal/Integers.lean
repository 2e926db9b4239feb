import GcodeSender.Decimal.Reader

/-!
# Whole numbers read back

A whole number of 32 bits, written in decimal with a minus sign if it stands below zero, reads
back as itself.
-/
namespace GcodeSender

/-- Of a text without any blank and of blanks behind it, trimming leaves the text. -/
theorem trim_append_of_solid {text after : Bytes} (solid : ∀ c ∈ text, Byte.isBlank c = false)
    (blank : ∀ c ∈ after, Byte.isBlank c = true) : trim (text ++ after) = text := by
  cases text with
  | nil =>
    have nothing : trimStart after = [] :=
      dropWhile_eq_iff.mpr ⟨after, (List.append_nil after).symm, blank, nofun⟩
    rw [List.nil_append, trim, nothing, trimEnd_nil]
  | cons c rest =>
    rw [List.cons_append, trim, trimStart_cons_of_not_blank (solid c List.mem_cons_self)]
    exact reverse_dropWhile_eq_iff.mpr
      ⟨after, rfl, blank, fun d last => solid d (List.mem_of_getLast? last)⟩

/-- A text without any blank has none to trim. -/
theorem trim_of_solid {text : Bytes} (solid : ∀ c ∈ text, Byte.isBlank c = false) :
    trim text = text := by
  have kept := trim_append_of_solid solid fun c (member : c ∈ []) => absurd member List.not_mem_nil
  rwa [List.append_nil] at kept

namespace Decimal

/-- No digit is a blank. -/
theorem isBlank_of_isDigit {c : UInt8} (digit : Byte.isDigit c = true) :
    Byte.isBlank c = false := by
  have low : Byte.zero ≤ c := of_decide_eq_true (Bool.and_eq_true_iff.mp digit).1
  have large : 48 ≤ c.toNat := UInt8.le_iff_toNat_le.mp low
  have space : c ≠ Byte.space := by
    rintro rfl
    exact absurd large (by decide)
  have above : ¬ c ≤ Byte.carriageReturn := fun small => by
    have bound : c.toNat ≤ 13 := UInt8.le_iff_toNat_le.mp small
    omega
  simp [Byte.isBlank, space, above]

/-- No digit is a sign. -/
theorem not_sign_of_isDigit {c : UInt8} (digit : Byte.isDigit c = true) :
    ¬ (c = Byte.plus ∨ c = Byte.minus) := by
  rintro (rfl | rfl) <;> exact absurd digit (by decide)

/-- A whole number is written without blanks. -/
theorem solid_signedDigits (value : Int) : ∀ c ∈ signedDigits value, Byte.isBlank c = false := by
  intro c member
  rcases eq_minus_or_isDigit_of_mem_signedDigits member with rfl | digit
  · rfl
  · exact isBlank_of_isDigit digit

/-- Digits have no sign to take. -/
theorem takeSign_digits (value : Nat) : Numeral.takeSign (digits value) = (none, digits value) := by
  obtain ⟨c, rest, written⟩ := List.exists_cons_of_ne_nil (digits_ne_nil value)
  have digit : Byte.isDigit c = true :=
    isDigit_of_mem_digits (show c ∈ digits value by simp [written])
  rw [written, Numeral.takeSign, if_neg (not_sign_of_isDigit digit)]

/-- A whole number reads back from its text. -/
theorem signedDigits?_signedDigits (value : Int) :
    signedDigits? (signedDigits value) = some value := by
  have all : (digits value.natAbs).all Byte.isDigit = true :=
    List.all_eq_true.mpr fun c member => isDigit_of_mem_digits member
  have some_digit : (digits value.natAbs).isEmpty = false :=
    List.isEmpty_eq_false_iff.mpr (digits_ne_nil _)
  have size := valueOf_digits value.natAbs
  unfold signedDigits
  split
  · next below =>
    have taken : Numeral.takeSign (Byte.minus :: digits value.natAbs) =
        (some Byte.minus, digits value.natAbs) := rfl
    have whole : -(value.natAbs : Int) = value := by omega
    rw [signedDigits?, taken]
    dsimp only
    rw [some_digit, all, size, if_neg (by decide), if_pos rfl, whole]
  · next above =>
    have whole : (value.natAbs : Int) = value := by omega
    rw [signedDigits?, takeSign_digits]
    dsimp only
    rw [some_digit, all, size, if_neg (by decide), if_neg (by decide), whole]

/-- A whole number of 32 bits reads back from its text. -/
theorem readInteger?_signedDigits (value : Int32) :
    readInteger? (signedDigits value.toInt) = some value.toInt := by
  have least : minInteger ≤ value.toInt := value.minValue_le_toInt
  have most : value.toInt ≤ maxInteger := value.toInt_le
  rw [readInteger?, trim_of_solid (solid_signedDigits _), signedDigits?_signedDigits]
  exact if_pos ⟨least, most⟩

end Decimal

end GcodeSender
