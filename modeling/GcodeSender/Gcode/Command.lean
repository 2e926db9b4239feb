import GcodeSender.Gcode.Block
import GcodeSender.Gcode.Token.Reader

/-!
# Commands

A line that says anything besides comments becomes one command: its block, the motion it makes,
and what kind of command it is. A line that is refused leaves the modal state as it was.
-/
namespace GcodeSender

/-- What kind of thing a line does. -/
inductive CommandKind where
  /-- It moves the tool. -/
  | motion
  /-- It changes modes and nothing else. -/
  | modeChange
  /-- It uses or sets stored positions. -/
  | nonModal
  /-- It waits. -/
  | dwell
  /-- It works the spindle, the coolant or the program flow. -/
  | machine
  /-- It selects or changes the tool. -/
  | toolChange
  /-- It sets values and has no command word. -/
  | parametersOnly
deriving DecidableEq, Repr

/-- The command of one line. -/
structure Command where
  /-- The number of the line, counted from one. -/
  sourceLine : Nat
  /-- The line itself. -/
  text : Bytes
  /-- What its words say. -/
  block : Block
  /-- The motion it makes. -/
  motion : Option Motion
  /-- What kind of command it is. -/
  kind : CommandKind
  /-- The modal group that it counts for. -/
  group : Option ModalGroup

namespace Command

/-- The line number word. -/
def lineNumber (command : Command) : Option Nat := command.block.lineNumber

/-- The command words in order. -/
def words (command : Command) : List Word := command.block.words

/-- The values of the letters. -/
def parameters (command : Command) : Parameters := command.block.parameters

/-- The motion stands on the line itself. -/
def namesMotion (command : Command) : Bool := command.block.namedMotion.isSome

/-- Coordinates are those of the machine. -/
def inMachineCoordinates (command : Command) : Bool := command.block.hasWord (.g 53)

/-- The kind and modal group of a block that makes a motion or none. The first that fits
counts: a motion, a dwell, stored positions, a tool change, machine words, modes, values. -/
def classify (block : Block) (motion : Option Motion) : CommandKind × Option ModalGroup :=
  let firstGroup (letter : CommandLetter) : Option ModalGroup :=
    (block.words.find? (·.letter == letter)).bind Word.group?
  if motion.isSome then (.motion, some .motion)
  else if block.hasWord (.g 4) then (.dwell, some .nonModal)
  else if block.claimsAxes || block.words.any Word.isReference then (.nonModal, firstGroup .g)
  else if block.words.any Word.changesTool then (.toolChange, some .toolChange)
  else if (firstGroup .m).isSome then (.machine, firstGroup .m)
  else if (firstGroup .g).isSome then (.modeChange, firstGroup .g)
  else (.parametersOnly, none)

/-- The command of a block under a modal state, and the state after it. -/
def ofBlock? (sourceLine : Nat) (text : Bytes) (block : Block) (state : ModalState) :
    Except BlockFault (Command × ModalState) :=
  match block.fault? state.motion with
  | some fault => .error fault
  | none =>
    let motion := block.motion? state.motion
    let (kind, group) := classify block motion
    .ok (⟨sourceLine, text, block, motion, kind, group⟩, block.nextState state)

end Command

end GcodeSender
