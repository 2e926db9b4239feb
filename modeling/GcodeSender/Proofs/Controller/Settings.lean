import GcodeSender.Controller.Command
import GcodeSender.Proofs.Decimal.Integers
import GcodeSender.Proofs.Gcode.Refusals
import GcodeSender.Proofs.Queue.Verdicts

/-!
# Settings written and read

The line of a setting is a dollar sign, a number, an equals sign and a value (`settingLine`). A
line is read as a setting exactly if it has this form and a whole number of 32 bits stands before
its first equals sign, whatever the value is. The main statement is that the line that sets a
setting, with its line feed, is read as that setting: the number that it is for, and the text that
its value is written as, for every number of 32 bits and every value.
-/
namespace GcodeSender

/-- The line of a setting with a number and a value. -/
def settingLine (number value : Bytes) : Bytes := ascii "$" ++ number ++ ascii "=" ++ value

/-! ## Lines that are read as settings -/

namespace Response

variable {text value : Bytes} {number : Int}

/-- A text is read as a setting exactly if it is the line of one, and a whole number stands before
its first equals sign. -/
theorem setting?_eq_some_iff :
    setting? text = some (.setting number value) ↔
      ∃ name body, text = settingLine name body ∧ Byte.equals ∉ name ∧
        Decimal.readInteger? name = some number ∧ trim body = value := by
  have same (name body : Bytes) :
      settingLine name body = ascii "$" ++ (name ++ Byte.equals :: body) := by
    rw [settingLine, List.append_assoc, List.append_assoc]
    rfl
  simp only [setting?, Option.bind_eq_bind, Option.bind_eq_some_iff, Option.some.injEq,
    Response.setting.injEq, Prod.exists, stripStart?_eq_some, cut?_eq_some, same]
  constructor
  · rintro ⟨rest, rfl, name, body, ⟨rfl, first⟩, read, found, rfl, trimmed⟩
    exact ⟨name, body, rfl, first, found, trimmed⟩
  · rintro ⟨name, body, rfl, first, found, trimmed⟩
    exact ⟨_, rfl, name, body, ⟨rfl, first⟩, number, found, rfl, trimmed⟩

/-- What is told as a setting is one by its form. -/
theorem setting?_of_ofTrimmed (read : ofTrimmed text = .setting number value) :
    setting? text = some (.setting number value) := by
  unfold ofTrimmed at read
  split at read
  · cases read
  · split at read
    · cases read
    · cases read
    · split at read
      · cases read
      · split at read
        · next response found =>
          subst read
          rcases Option.or_eq_some_iff.mp found with setting | ⟨-, welcome⟩
          · exact setting
          · obtain ⟨_, _, -, other⟩ := exists_of_welcome? welcome
            cases other
        · cases read

/-- What is a setting by its form is told as one, as no other kind of line starts with a dollar
sign. -/
theorem ofTrimmed_of_setting? (found : setting? text = some (.setting number value)) :
    ofTrimmed text = .setting number value := by
  obtain ⟨name, body, rfl, -⟩ := setting?_eq_some_iff.mp found
  obtain ⟨rest, same⟩ : ∃ rest, settingLine name body = ascii "$" ++ rest :=
    ⟨name ++ ascii "=" ++ body, by simp only [settingLine, List.append_assoc]⟩
  rw [same] at found ⊢
  have noError : stripStart? (ascii "error:") (ascii "$" ++ rest) = none := rfl
  have noAlarm : stripStart? (ascii "ALARM:") (ascii "$" ++ rest) = none := rfl
  have noReport : Status.ofLine? (ascii "$" ++ rest) = none :=
    ofLine?_of_ne_less (by decide) (by decide) _
  rw [ofTrimmed, if_neg (append_ne_ok rfl rest), noError, noAlarm]
  dsimp only
  rw [noReport, found, Option.some_or]

/-- A line is read as a setting exactly if it is the line of one between blanks, and a whole
number of 32 bits stands before its first equals sign. -/
theorem ofLine_eq_setting_iff {line : Bytes} :
    ofLine line = .setting number value ↔
      ∃ name body, trim line = settingLine name body ∧ Byte.equals ∉ name ∧
        Decimal.readInteger? name = some number ∧ trim body = value :=
  ⟨fun read => setting?_eq_some_iff.mp (setting?_of_ofTrimmed read),
    fun shape => ofTrimmed_of_setting? (setting?_eq_some_iff.mpr shape)⟩

/-- The value goes on behind further equals signs, and the number may have a plus sign. -/
example : ofLine (ascii "$+05= 2 = 3 ") = .setting 5 (ascii "2 = 3") := by decide +kernel

end Response

/-! ## Written numbers have no blanks -/

namespace Decimal

/-- The text of a numeral has no blanks. -/
theorem Numeral.Sound.solid_text {numeral : Numeral} (sound : numeral.Sound) :
    ∀ c ∈ numeral.text, Byte.isBlank c = false := by
  intro c member
  rcases sound.mem_text member with (rfl | rfl) | digit | rfl
  · rfl
  · rfl
  · exact isBlank_of_isDigit digit
  · rfl

/-- A trimmed value is written without blanks, also if it is written by name. -/
theorem solid_fixedTrimmed (value : Float) (places : Nat) :
    ∀ c ∈ fixedTrimmed value places, Byte.isBlank c = false := by
  by_cases finite : value.isFinite = true
  · obtain ⟨exact, -, same⟩ := exists_fixed finite places
    have sound := sound_numeralOf exact places
    rw [fixedTrimmed, same, Numeral.trimFraction_text sound]
    exact sound.trimmed.solid_text
  · have named : ∀ name ∈ names, ∀ c ∈ name, Byte.isBlank c = false := by decide +kernel
    exact named _ (fixedTrimmed_mem_names finite places)

/-- A whole number is written without an equals sign. -/
theorem equals_not_mem_signedDigits (value : Int) : Byte.equals ∉ signedDigits value := by
  intro member
  rcases eq_minus_or_isDigit_of_mem_signedDigits member with minus | digit
  · exact absurd minus (by decide)
  · exact absurd digit (by decide)

end Decimal

/-! ## The line that sets a setting -/

namespace ControllerCommand

/-- The line that sets a setting has no blanks. -/
theorem solid_line_setting (number : Int) (value : Float) :
    ∀ c ∈ (setting number value).line, Byte.isBlank c = false := by
  simp only [line, List.forall_mem_append]
  exact ⟨⟨⟨by decide +kernel, Decimal.solid_signedDigits number⟩, by decide +kernel⟩,
    Decimal.solid_fixedTrimmed value 3⟩

/-- The line that sets a setting is written as the line of its number and its value, with a line
feed behind it. That is read as the setting: its number, and the text that its value is written as
with at most three places. -/
theorem setting_wire_reads_back (number : Int32) (value : Float) :
    (setting number.toInt value).wire =
        settingLine (Decimal.signedDigits number.toInt) (Decimal.fixedTrimmed value 3) ++
          [Byte.newline] ∧
      Response.ofLine (setting number.toInt value).wire =
        .setting number.toInt (Decimal.fixedTrimmed value 3) := by
  have written : (setting number.toInt value).line =
      settingLine (Decimal.signedDigits number.toInt) (Decimal.fixedTrimmed value 3) := rfl
  -- No byte of the line is a blank, so only the line feed is trimmed.
  have sent : trim (setting number.toInt value).wire = (setting number.toInt value).line :=
    trim_append_of_solid (solid_line_setting number.toInt value) (by decide +kernel)
  have kept : trim (Decimal.fixedTrimmed value 3) = Decimal.fixedTrimmed value 3 :=
    trim_of_solid (Decimal.solid_fixedTrimmed value 3)
  refine ⟨by rw [wire, written], Response.ofLine_eq_setting_iff.mpr ⟨_, _, sent.trans written, ?_⟩⟩
  exact ⟨Decimal.equals_not_mem_signedDigits number.toInt,
    Decimal.readInteger?_signedDigits number, kept⟩

end ControllerCommand

end GcodeSender
