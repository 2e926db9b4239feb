import GcodeSender.Text

/-!
# Real-time commands and overrides

A real-time command is a single byte that the controller acts on at once, between the lines.
Some of them change the override percentages: feed and spindle in steps between 10 and 200,
rapid moves to one of three values. The main statements are that a command is found by its byte
and that a step keeps a percentage between its bounds.
-/
namespace GcodeSender

/-- A command of one byte. -/
inductive RealtimeCommand where
  | statusQuery
  | cycleStart
  | feedHold
  | softReset
  | safetyDoor
  | jogCancel
  | feedReset
  | feedCoarsePlus
  | feedCoarseMinus
  | feedFinePlus
  | feedFineMinus
  | rapidReset
  | rapidMedium
  | rapidLow
  | spindleReset
  | spindleCoarsePlus
  | spindleCoarseMinus
  | spindleFinePlus
  | spindleFineMinus
  | spindleStop
  | floodToggle
  | mistToggle
deriving DecidableEq, Repr

namespace RealtimeCommand

/-- All real-time commands. -/
def all : List RealtimeCommand :=
  [statusQuery, cycleStart, feedHold, softReset, safetyDoor, jogCancel, feedReset,
    feedCoarsePlus, feedCoarseMinus, feedFinePlus, feedFineMinus, rapidReset, rapidMedium,
    rapidLow, spindleReset, spindleCoarsePlus, spindleCoarseMinus, spindleFinePlus,
    spindleFineMinus, spindleStop, floodToggle, mistToggle]

/-- The byte of a command on the wire. -/
def byte : RealtimeCommand → UInt8
  | statusQuery => 0x3F
  | cycleStart => 0x7E
  | feedHold => 0x21
  | softReset => 0x18
  | safetyDoor => 0x84
  | jogCancel => 0x85
  | feedReset => 0x90
  | feedCoarsePlus => 0x91
  | feedCoarseMinus => 0x92
  | feedFinePlus => 0x93
  | feedFineMinus => 0x94
  | rapidReset => 0x95
  | rapidMedium => 0x96
  | rapidLow => 0x97
  | spindleReset => 0x99
  | spindleCoarsePlus => 0x9A
  | spindleCoarseMinus => 0x9B
  | spindleFinePlus => 0x9C
  | spindleFineMinus => 0x9D
  | spindleStop => 0x9E
  | floodToggle => 0xA0
  | mistToggle => 0xA1

/-- The command of a byte. -/
def ofByte? (c : UInt8) : Option RealtimeCommand := all.find? (·.byte = c)

/-- A command is found by its byte. -/
theorem ofByte?_byte (command : RealtimeCommand) : ofByte? command.byte = some command := by
  cases command <;> decide

/-- The byte of a command that is found is the byte it was found by. -/
theorem byte_of_ofByte? {c : UInt8} {command : RealtimeCommand}
    (found : ofByte? c = some command) : command.byte = c := by
  simpa using List.find?_some found

/-- The command concerns an override. Stopping the spindle is one, though no percentage
changes. -/
def isOverride : RealtimeCommand → Bool
  | statusQuery | cycleStart | feedHold | softReset | safetyDoor | jogCancel => false
  | floodToggle | mistToggle => false
  | _ => true

end RealtimeCommand

/-- The percentages that scale the feed, the rapid moves and the spindle speed. -/
structure Overrides where
  /-- Percentage of the feed. -/
  feed : Int := 100
  /-- Percentage of rapid moves. -/
  rapid : Int := 100
  /-- Percentage of the spindle speed. -/
  spindle : Int := 100
deriving DecidableEq, Repr

namespace Overrides

/-- The smallest percentage of feed and spindle. -/
def least : Int := 10

/-- The greatest percentage of feed and spindle. -/
def greatest : Int := 200

/-- A percentage after a step. -/
def step (percent change : Int) : Int := max least (min greatest (percent + change))

/-- The percentages after a real-time command. -/
def apply (overrides : Overrides) : RealtimeCommand → Overrides
  | .feedReset => { overrides with feed := 100 }
  | .feedCoarsePlus => { overrides with feed := step overrides.feed 10 }
  | .feedCoarseMinus => { overrides with feed := step overrides.feed (-10) }
  | .feedFinePlus => { overrides with feed := step overrides.feed 1 }
  | .feedFineMinus => { overrides with feed := step overrides.feed (-1) }
  | .rapidReset => { overrides with rapid := 100 }
  | .rapidMedium => { overrides with rapid := 50 }
  | .rapidLow => { overrides with rapid := 25 }
  | .spindleReset => { overrides with spindle := 100 }
  | .spindleCoarsePlus => { overrides with spindle := step overrides.spindle 10 }
  | .spindleCoarseMinus => { overrides with spindle := step overrides.spindle (-10) }
  | .spindleFinePlus => { overrides with spindle := step overrides.spindle 1 }
  | .spindleFineMinus => { overrides with spindle := step overrides.spindle (-1) }
  | _ => overrides

/-- A step ends between the bounds, wherever it starts. -/
theorem step_bounds (percent change : Int) :
    least ≤ step percent change ∧ step percent change ≤ greatest := by
  unfold step least greatest
  omega

/-- A command that concerns no override changes no percentage. -/
theorem apply_of_not_isOverride {overrides : Overrides} {command : RealtimeCommand}
    (other : command.isOverride = false) : overrides.apply command = overrides := by
  cases command <;> first | rfl | simp [RealtimeCommand.isOverride] at other

end Overrides

end GcodeSender
