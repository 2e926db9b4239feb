import GcodeSender.Decimal.Fixed
import GcodeSender.Geometry

/-!
# Commands to the controller

A command is sent as one line. Besides lines of G-code the controller knows jogging moves,
numbered settings and a few system commands that start with a dollar sign. The main statement
is that a command line holds no line break, so one command is one line on the wire.
-/
namespace GcodeSender

/-- The system commands without arguments. -/
inductive SystemCommand where
  /-- List the system commands. -/
  | help
  /-- List the settings. -/
  | viewSettings
  /-- List the stored offsets. -/
  | viewParameters
  /-- Show the modal state. -/
  | viewParserState
  /-- Show the build. -/
  | viewBuildInfo
  /-- Show the blocks that run at startup. -/
  | viewStartupBlocks
  /-- Enter or leave check mode. -/
  | checkMode
  /-- Unlock after an alarm. -/
  | killAlarm
  /-- Run the homing cycle. -/
  | home
  /-- Restore the settings. -/
  | resetSettings
  /-- Erase the stored offsets. -/
  | resetParameters
  /-- Restore everything. -/
  | resetAll
  /-- Go to sleep. -/
  | sleep
deriving DecidableEq, Repr

namespace SystemCommand

/-- The line of a system command. -/
def line : SystemCommand → Bytes
  | help => ascii "$"
  | viewSettings => ascii "$$"
  | viewParameters => ascii "$#"
  | viewParserState => ascii "$G"
  | viewBuildInfo => ascii "$I"
  | viewStartupBlocks => ascii "$N"
  | checkMode => ascii "$C"
  | killAlarm => ascii "$X"
  | home => ascii "$H"
  | resetSettings => ascii "$RST=$"
  | resetParameters => ascii "$RST=#"
  | resetAll => ascii "$RST=*"
  | sleep => ascii "$SLP"

end SystemCommand

/-- A command to the controller. -/
inductive ControllerCommand where
  /-- A line of G-code, or any other line, as it is. -/
  | gcode (text : Bytes)
  /-- A jogging move by a distance or to a point. -/
  | jog (target : Point) (feed : Float) (relative : Bool)
  /-- A new value of a numbered setting. -/
  | setting (number : Int) (value : Float)
  /-- A system command. -/
  | system (command : SystemCommand)
deriving DecidableEq

namespace ControllerCommand

/-- A text with a space in place of each line break. -/
def flatten (text : Bytes) : Bytes :=
  text.map fun c =>
    if c = Byte.carriageReturn ∨ c = Byte.newline then Byte.space else c

/-- The line of a command, without the line feed that ends it. -/
def line : ControllerCommand → Bytes
  | gcode text => trim (flatten text)
  | jog target feed relative =>
    ascii "$J=" ++ (if relative then ascii "G91" else ascii "G90") ++
      ascii " X" ++ Decimal.fixed target.x 3 ++
      ascii " Y" ++ Decimal.fixed target.y 3 ++
      ascii " Z" ++ Decimal.fixed target.z 3 ++
      ascii " F" ++ Decimal.fixed feed 0
  | setting number value =>
    ascii "$" ++ Decimal.signedDigits number ++ ascii "=" ++ Decimal.fixedTrimmed value 3
  | system command => command.line

/-- The bytes of a command on the wire. -/
def wire (command : ControllerCommand) : Bytes := command.line ++ [Byte.newline]

/-- A flattened text has no line break. -/
theorem not_break_of_mem_flatten {text : Bytes} {c : UInt8} (member : c ∈ flatten text) :
    c ≠ Byte.carriageReturn ∧ c ≠ Byte.newline := by
  simp only [flatten, List.mem_map] at member
  obtain ⟨d, -, rfl⟩ := member
  split
  · decide
  · next other => exact ⟨fun h => other (.inl h), fun h => other (.inr h)⟩

end ControllerCommand

end GcodeSender
