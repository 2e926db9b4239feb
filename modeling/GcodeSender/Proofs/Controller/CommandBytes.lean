import GcodeSender.Controller.Command
import GcodeSender.Controller.Realtime
import GcodeSender.Toolpath.Printer

/-!
# The bytes of command lines

A line that the program writes by itself, a command with its own words or a move of a path, has
only plain bytes: letters, digits, spaces and the signs of numbers and system commands. No plain
byte breaks a line, is above ASCII or is a real-time command. A line of G-code has the bytes that
its text has, line breaks and outer blanks apart. The main statement is that the line of a
command is free of real-time commands and of bytes above ASCII exactly if the text of a line of
G-code is.
-/
namespace GcodeSender

namespace Byte

/-- A letter, a digit, a space, or a sign of a number or of a system command. -/
def isPlain (c : UInt8) : Bool :=
  isLetter c || isDigit c || (ascii " #$*-.=").contains c

/-- A digit is plain. -/
theorem isPlain_of_isDigit {c : UInt8} (digit : isDigit c = true) : isPlain c = true := by
  simp [isPlain, digit]

/-- A real-time command is not plain. -/
theorem isPlain_realtime (command : RealtimeCommand) : isPlain command.byte = false := by
  cases command <;> decide

/-- A plain byte is no real-time command. -/
theorem ofByte?_of_isPlain {c : UInt8} (plain : isPlain c = true) :
    RealtimeCommand.ofByte? c = none := by
  cases found : RealtimeCommand.ofByte? c with
  | none => rfl
  | some command =>
    have other := isPlain_realtime command
    rw [RealtimeCommand.byte_of_ofByte? found, plain] at other
    cases other

/-- A plain byte is below the bytes that ASCII does not have. -/
theorem lt_of_isPlain {c : UInt8} (plain : isPlain c = true) : c < 0x80 := by
  simp only [isPlain, isLetter, isUpper, isLower, isDigit, Bool.or_eq_true, Bool.and_eq_true,
    decide_eq_true_eq, List.contains_iff_mem] at plain
  rcases plain with ((⟨-, upper⟩ | ⟨-, lower⟩) | ⟨-, digit⟩) | sign
  · exact UInt8.lt_of_le_of_lt upper (by decide)
  · exact UInt8.lt_of_le_of_lt lower (by decide)
  · exact UInt8.lt_of_le_of_lt digit (by decide)
  · have signs : (ascii " #$*-.=").all (fun c => decide (c < 0x80)) = true := by decide
    exact of_decide_eq_true (List.all_eq_true.mp signs c sign)

/-- A plain byte breaks no line. -/
theorem not_break_of_isPlain {c : UInt8} (plain : isPlain c = true) :
    c ≠ carriageReturn ∧ c ≠ newline := by
  constructor <;> rintro rfl <;> exact absurd plain (by decide)

end Byte

/-- Every byte of a text is plain. -/
def IsPlain (text : Bytes) : Prop := ∀ c ∈ text, Byte.isPlain c = true

instance (text : Bytes) : Decidable (IsPlain text) := List.decidableBAll _ text

/-- Texts one after the other are plain if each is. -/
@[simp] theorem isPlain_append {front rest : Bytes} :
    IsPlain (front ++ rest) ↔ IsPlain front ∧ IsPlain rest := List.forall_mem_append

/-- A text is plain if its first byte and the others are. -/
@[simp] theorem isPlain_cons {c : UInt8} {rest : Bytes} :
    IsPlain (c :: rest) ↔ Byte.isPlain c = true ∧ IsPlain rest := List.forall_mem_cons

/-- The empty text is plain. -/
@[simp] theorem isPlain_nil : IsPlain [] := fun _ member => absurd member List.not_mem_nil

/-! ## Numbers -/

namespace Decimal

/-- Digits are plain. -/
theorem isPlain_digits (value : Nat) : IsPlain (digits value) := fun _ member =>
  Byte.isPlain_of_isDigit (isDigit_of_mem_digits member)

/-- A whole number is plain. -/
theorem isPlain_signedDigits (value : Int) : IsPlain (signedDigits value) := by
  intro c member
  rcases eq_minus_or_isDigit_of_mem_signedDigits member with rfl | digit
  · decide
  · exact Byte.isPlain_of_isDigit digit

/-- A number with a fixed number of places is plain. -/
theorem isPlain_placed (negative : Bool) (places units : Nat) :
    IsPlain (placed negative places units) := by
  unfold placed
  refine isPlain_append.mpr ⟨isPlain_append.mpr ⟨?_, isPlain_digits _⟩, ?_⟩
  · cases negative <;> decide
  · split
    · exact isPlain_nil
    · exact isPlain_cons.mpr ⟨by decide, fun _ member =>
        Byte.isPlain_of_isDigit (isDigit_of_mem_lastDigits member)⟩

/-- The text of a value is plain, also if it is a name. -/
theorem isPlain_fixed (value : Float) (places : Nat) : IsPlain (fixed value places) := by
  unfold fixed
  split
  · unfold fixedExact
    split <;> exact isPlain_placed _ _ _
  · split
    · decide
    · split <;> decide

/-- Trimming a fraction adds nothing to a text. -/
theorem mem_of_mem_trimFraction {text : Bytes} {c : UInt8} (member : c ∈ trimFraction text) :
    c ∈ text := by
  have inside {rest : Bytes} (kept : text.reverse.dropWhile (· == Byte.zero) = rest)
      (found : c ∈ rest) : c ∈ text :=
    List.mem_reverse.mp ((List.dropWhile_sublist _).subset (kept ▸ found))
  unfold trimFraction at member
  split at member
  · dsimp only at member
    split at member
    · cases member
    · next last front kept =>
      split at member
      · exact inside kept (List.mem_cons_of_mem _ (List.mem_reverse.mp member))
      · exact inside kept (List.mem_reverse.mp member)
  · exact member

/-- The trimmed text of a value is plain. -/
theorem isPlain_fixedTrimmed (value : Float) (places : Nat) :
    IsPlain (fixedTrimmed value places) := fun c member =>
  isPlain_fixed value places c (mem_of_mem_trimFraction member)

end Decimal

/-! ## Moves of a path -/

namespace Segment

/-- A word is plain if its number is. -/
theorem isPlain_wordText (letter : Letter) {number : Bytes} (plain : IsPlain number) :
    IsPlain (wordText letter number) :=
  isPlain_cons.mpr ⟨by decide, isPlain_cons.mpr ⟨by cases letter <;> decide, plain⟩⟩

/-- The line of a move is plain. -/
theorem isPlain_moveText (segment : Segment) (modes : PrintedModes) :
    IsPlain (segment.moveText modes) := by
  have motion : IsPlain segment.motion.name := by
    cases segment.motion <;> decide
  have finish : IsPlain segment.finishText := by
    intro c member
    obtain ⟨axis, -, inside⟩ := List.mem_flatMap.mp member
    exact isPlain_wordText _ (Decimal.isPlain_fixed _ _) c inside
  have center : IsPlain segment.centerText := by
    unfold centerText
    split
    · intro c member
      obtain ⟨axis, -, inside⟩ := List.mem_flatMap.mp member
      exact isPlain_wordText _ (Decimal.isPlain_fixed _ _) c inside
    · exact isPlain_nil
  have feed : IsPlain segment.feedText := isPlain_wordText _ (Decimal.isPlain_fixedTrimmed _ _)
  have speed : IsPlain segment.spindleText :=
    isPlain_wordText _ (Decimal.isPlain_fixedTrimmed _ _)
  unfold moveText
  simp only [isPlain_append]
  refine ⟨⟨⟨⟨motion, finish⟩, center⟩, ?_⟩, ?_⟩
  · split
    · exact feed
    · exact isPlain_nil
  · split
    · exact speed
    · exact isPlain_nil

/-- The lines of a segment are plain. -/
theorem isPlain_of_mem_print {segment : Segment} {modes : PrintedModes} {line : Bytes}
    (member : line ∈ (segment.print modes).1) : IsPlain line := by
  simp only [print, List.mem_append, List.mem_singleton] at member
  rcases member with (unit | plane) | rfl
  · unfold unitLine at unit
    split at unit
    · cases unit
    · rw [List.mem_singleton.mp unit]
      cases segment.unit <;> decide
  · unfold planeLine at plane
    split at plane
    · rw [List.mem_singleton.mp plane]
      cases segment.plane <;> decide
    · cases plane
  · exact isPlain_moveText _ _

end Segment

/-- The lines of a path are plain. -/
theorem isPlain_of_mem_printPath {segments : List Segment} {line : Bytes}
    (member : line ∈ printPath segments) : IsPlain line := by
  have after : ∀ (segments : List Segment) (modes : PrintedModes),
      ∀ line ∈ printFrom modes segments, IsPlain line := by
    intro segments
    induction segments with
    | nil => exact fun _ _ member => absurd member List.not_mem_nil
    | cons segment others ih =>
      intro modes line member
      rcases List.mem_append.mp member with first | later
      · exact Segment.isPlain_of_mem_print first
      · exact ih _ line later
  unfold printPath at member
  split at member
  · cases member
  · rcases List.mem_cons.mp member with rfl | member
    · decide
    · exact after segments {} line member

/-! ## Commands -/

namespace ControllerCommand

/-- The line of a command with its own words is plain. -/
theorem isPlain_line {command : ControllerCommand} (other : ∀ text, command ≠ .gcode text) :
    IsPlain command.line := by
  cases command with
  | gcode text => exact absurd rfl (other text)
  | jog target feed relative =>
    simp only [line, isPlain_append]
    have mode : IsPlain (if relative then ascii "G91" else ascii "G90") := by
      cases relative <;> decide
    have number (value : Float) (places : Nat) := Decimal.isPlain_fixed value places
    exact ⟨⟨⟨⟨⟨⟨⟨⟨⟨by decide, mode⟩, by decide⟩, number _ _⟩, by decide⟩, number _ _⟩, by decide⟩,
      number _ _⟩, by decide⟩, number _ _⟩
  | setting number value =>
    simp only [line, isPlain_append]
    exact ⟨⟨⟨by decide, Decimal.isPlain_signedDigits number⟩, by decide⟩,
      Decimal.isPlain_fixedTrimmed value 3⟩
  | system command => cases command <;> decide

/-- A command is a line of G-code or has its own words. -/
theorem gcode_or_other (command : ControllerCommand) :
    (∃ text, command = .gcode text) ∨ ∀ text, command ≠ .gcode text := by
  cases command with
  | gcode text => exact .inl ⟨text, rfl⟩
  | _ => exact .inr fun _ => nofun

/-- The line of a command holds no line break. -/
theorem not_break_of_mem_line {command : ControllerCommand} {c : UInt8}
    (member : c ∈ command.line) : c ≠ Byte.carriageReturn ∧ c ≠ Byte.newline := by
  rcases command.gcode_or_other with ⟨text, rfl⟩ | other
  · exact not_break_of_mem_flatten (mem_of_mem_trim member)
  · exact Byte.not_break_of_isPlain (isPlain_line other c member)

/-- A byte is harmless to a controller within a line: it is of ASCII and no real-time command. -/
def IsHarmless (c : UInt8) : Prop := c < 0x80 ∧ RealtimeCommand.ofByte? c = none

instance (c : UInt8) : Decidable (IsHarmless c) := inferInstanceAs (Decidable (_ ∧ _))

/-- A blank is harmless. -/
theorem isHarmless_of_isBlank {c : UInt8} (blank : Byte.isBlank c = true) : IsHarmless c := by
  rw [Byte.isBlank, Bool.or_eq_true, beq_iff_eq, Bool.and_eq_true, decide_eq_true_eq,
    decide_eq_true_eq] at blank
  rcases blank with rfl | ⟨-, low⟩
  · decide
  · have controls : ∀ code < 14, IsHarmless (UInt8.ofNat code) := by decide
    have bound : c.toNat ≤ 13 := UInt8.le_iff_toNat_le.mp low
    have harmless := controls c.toNat (by omega)
    rwa [UInt8.ofNat_toNat] at harmless

/-- A plain byte is harmless. -/
theorem isHarmless_of_isPlain {c : UInt8} (plain : Byte.isPlain c = true) : IsHarmless c :=
  ⟨Byte.lt_of_isPlain plain, Byte.ofByte?_of_isPlain plain⟩

/-- A byte of the line of a text is a space or a byte of the text. -/
theorem eq_space_or_mem_of_mem_line {text : Bytes} {c : UInt8}
    (member : c ∈ (gcode text).line) : c = Byte.space ∨ c ∈ text := by
  obtain ⟨source, inside, rfl⟩ := List.mem_map.mp (mem_of_mem_trim member)
  split
  · exact .inl rfl
  · exact .inr inside

/-- A byte of a text that is no blank is in its line. -/
theorem mem_line_of_solid {text : Bytes} {c : UInt8} (member : c ∈ text)
    (solid : Byte.isBlank c = false) : c ∈ (gcode text).line := by
  have kept : (if c = Byte.carriageReturn ∨ c = Byte.newline then Byte.space else c) = c := by
    refine if_neg ?_
    rintro (rfl | rfl) <;> exact absurd solid (by decide)
  exact mem_trim_of_solid (List.mem_map.mpr ⟨c, member, kept⟩) solid

/-- A command has only harmless bytes on the wire exactly if it is no line of G-code, or the
text of its line has only harmless bytes. -/
theorem harmless_wire_iff (command : ControllerCommand) :
    (∀ c ∈ command.wire, IsHarmless c) ↔
      ∀ text, command = .gcode text → ∀ c ∈ text, IsHarmless c := by
  constructor
  · rintro harmless text rfl c member
    cases blank : Byte.isBlank c with
    | true => exact isHarmless_of_isBlank blank
    | false => exact harmless c (List.mem_append_left _ (mem_line_of_solid member blank))
  · intro harmless c member
    rcases List.mem_append.mp member with inside | last
    · rcases command.gcode_or_other with ⟨text, rfl⟩ | other
      · rcases eq_space_or_mem_of_mem_line inside with rfl | found
        · exact isHarmless_of_isBlank (by decide)
        · exact harmless text rfl c found
      · exact isHarmless_of_isPlain (isPlain_line other c inside)
    · rw [List.mem_singleton.mp last]
      exact isHarmless_of_isBlank (by decide)

/-- A remark with a question mark asks for the status, and one with a byte above ASCII may open
the safety door. -/
theorem harmful_remarks :
    (∃ c ∈ (gcode (ascii "G1 X10 (ready?)")).wire,
        RealtimeCommand.ofByte? c = some .statusQuery) ∧
      ∃ c ∈ (gcode (ascii "G1 X10 (" ++ [0xC3, 0x84] ++ ascii ")")).wire,
        0x80 ≤ c ∧ RealtimeCommand.ofByte? c = some .safetyDoor := by
  decide

end ControllerCommand

end GcodeSender
