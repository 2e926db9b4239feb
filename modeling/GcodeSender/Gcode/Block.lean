import GcodeSender.Gcode.Token

/-!
# Blocks

A block is what the words of one line say together: command words in the order they stand in,
at most one value for each letter, at most one line number. Collecting a block refuses a word
that is not supported, a letter or number given twice, and a second word of a modal group; the
coolant words alone may share a block.
-/
namespace GcodeSender

/-- Why the words of a line make no valid block. -/
inductive BlockFault where
  /-- Two line numbers. -/
  | repeatedLineNumber
  /-- A letter that carries no value here. -/
  | unsupportedLetter (letter : UInt8)
  /-- Two values for one letter. -/
  | repeatedLetter (letter : Letter)
  /-- Two tool words. -/
  | repeatedTool
  /-- A command word outside the supported ones. -/
  | unsupportedCommand (word : Word)
  /-- A second word of a modal group. -/
  | groupConflict (word : Word)
  /-- A feed rate below zero. -/
  | negativeFeed
  /-- A spindle speed below zero. -/
  | negativeSpindleSpeed
  /-- A motion and another command both want the axis words. -/
  | axesClaimedTwice
  /-- A command stands without the axis words that it needs. -/
  | missingAxes
  /-- G10 stands without L or without P. -/
  | missingOffsetWords
  /-- G4 stands without P. -/
  | missingDwellTime
  /-- Axis words stand where no motion is active. -/
  | noActiveMotion
  /-- G2 or G3 stands without an axis word. -/
  | missingArcEnd
  /-- I, J, K or R stands where no arc is made. -/
  | strayArcWords
  /-- G53 stands without a straight move. -/
  | strayMachineCoordinates
deriving DecidableEq

/-- The words of a fault. -/
def BlockFault.message : BlockFault → Bytes
  | repeatedLineNumber => ascii "Repeated line number"
  | unsupportedLetter letter => ascii "Unsupported word '" ++ [letter] ++ ascii "'"
  | repeatedLetter letter => ascii "Repeated word '" ++ [letter.byte] ++ ascii "'"
  | repeatedTool => ascii "Repeated tool word"
  | unsupportedCommand word => ascii "Unsupported command '" ++ word.text ++ ascii "'"
  | groupConflict word => ascii "Modal group conflict at '" ++ word.text ++ ascii "'"
  | negativeFeed => ascii "Negative feed rate"
  | negativeSpindleSpeed => ascii "Negative spindle speed"
  | axesClaimedTwice => ascii "Two commands in the block both use axis words"
  | missingAxes => ascii "Command requires axis words"
  | missingOffsetWords => ascii "G10 requires L and P words"
  | missingDwellTime => ascii "G4 requires a P word"
  | noActiveMotion => ascii "Axis words with no active motion mode"
  | missingArcEnd => ascii "Arc requires an end point"
  | strayArcWords => ascii "Arc words without an arc motion"
  | strayMachineCoordinates => ascii "G53 requires a G0 or G1 move"

/-- What the words of a line say. -/
structure Block where
  /-- The number of the line, if it has one. -/
  lineNumber : Option Nat := none
  /-- The command words in order. -/
  words : List Word := []
  /-- The values of the letters. -/
  parameters : Parameters := .empty
  /-- The comments of the line, joined by spaces. -/
  comment : Option Bytes := none

namespace Block

/-- A block with no word, no value and no number. It may have a comment. -/
def isEmpty (block : Block) : Bool :=
  block.lineNumber.isNone && block.words.isEmpty && block.parameters.toList.isEmpty

/-- Some word of a block is of a modal group. -/
def hasGroup (block : Block) (group : ModalGroup) : Bool :=
  block.words.any (·.group? == some group)

/-- The block with one more command word. -/
def addWord (block : Block) (word : Word) : Except BlockFault Block :=
  match word.letter with
  | .t =>
    if block.words.any (·.letter == .t) then .error .repeatedTool
    else .ok { block with words := block.words ++ [word] }
  | _ =>
    match word.group? with
    | none => .error (.unsupportedCommand word)
    | some group =>
      if group ≠ .coolant ∧ block.hasGroup group then .error (.groupConflict word)
      else .ok { block with words := block.words ++ [word] }

/-- The block with one more value. -/
def addParameter (block : Block) (byte : UInt8) (value : Float) : Except BlockFault Block :=
  match Letter.ofByte? byte with
  | none => .error (.unsupportedLetter byte)
  | some letter =>
    if block.parameters.has letter then .error (.repeatedLetter letter)
    else .ok { block with parameters := block.parameters.insert letter value }

/-- The block with one more comment. -/
def addComment (block : Block) (text : Bytes) : Block :=
  match block.comment with
  | none => { block with comment := some text }
  | some before => { block with comment := some (before ++ ascii " " ++ text) }

/-- The block with one more token. -/
def add (block : Block) : Token → Except BlockFault Block
  | .command word _ => block.addWord word
  | .parameter letter value => block.addParameter letter value
  | .lineNumber number =>
    if block.lineNumber.isSome then .error .repeatedLineNumber
    else .ok { block with lineNumber := some number }
  | .comment text => .ok (block.addComment text)
  | .checksum _ => .ok block

/-- The block that tokens make on top of another, or the column and fault of the first token
that it cannot take. -/
def addAll (block : Block) : List PlacedToken → Except (Nat × BlockFault) Block
  | [] => .ok block
  | placed :: others =>
    match block.add placed.token with
    | .error fault => .error (placed.column, fault)
    | .ok block => block.addAll others

/-- The block of a line. -/
def ofTokens? (tokens : List PlacedToken) : Except (Nat × BlockFault) Block :=
  addAll {} tokens

/-! ## What a block asks for -/

/-- The value that the first word to say so gives, or a default. -/
def select {α : Type} (block : Block) (read : Word → Option α) (kept : α) : α :=
  (block.words.findSome? read).getD kept

/-- The motion that the block names. -/
def namedMotion (block : Block) : Option Motion := block.words.findSome? Word.motion?

/-- The block cancels the active motion. -/
def cancelsMotion (block : Block) : Bool := block.words.any Word.cancelsMotion

/-- Some command of the block takes the axis words for itself. -/
def claimsAxes (block : Block) : Bool := block.words.any Word.claimsAxes

/-- Some command of the block means nothing without axis words. -/
def needsAxes (block : Block) : Bool := block.words.any Word.needsAxes

/-- The block has a word. -/
def hasWord (block : Block) (word : Word) : Bool := block.words.contains word

/-- The block has some coordinate. -/
def hasAxes (block : Block) : Bool := block.parameters.hasAxes

/-- The block has a word that describes an arc. -/
def hasArcWords (block : Block) : Bool :=
  block.parameters.hasCenter || block.parameters.has .r

/-- The block ends the program. -/
def endsProgram (block : Block) : Bool := block.words.any Word.endsProgram

/-- The motion in force at the end of a block, program end apart. -/
def activeMotion (block : Block) (active : Option Motion) : Option Motion :=
  if block.cancelsMotion then none else block.namedMotion.or active

/-- The motion that a block makes: the one in force, if the block has coordinates and no other
command takes them. -/
def motion? (block : Block) (active : Option Motion) : Option Motion :=
  if block.hasAxes && !block.claimsAxes then block.activeMotion active else none

/-- The first rule that a block breaks under the active motion. -/
def fault? (block : Block) (active : Option Motion) : Option BlockFault :=
  let negative (letter : Letter) : Bool := (block.parameters letter).any (· < 0.0)
  let motion := block.motion? active
  let rules : List (Bool × BlockFault) :=
    [(negative .f, .negativeFeed),
      (negative .s, .negativeSpindleSpeed),
      (block.claimsAxes && block.namedMotion.isSome && block.hasAxes, .axesClaimedTwice),
      (block.needsAxes && !block.hasAxes, .missingAxes),
      (block.hasWord (.g 10) && !(block.parameters.has .l && block.parameters.has .p),
        .missingOffsetWords),
      (block.hasWord (.g 4) && !block.parameters.has .p, .missingDwellTime),
      (block.hasAxes && !block.claimsAxes && (block.activeMotion active).isNone,
        .noActiveMotion),
      (block.namedMotion.any Motion.isArc && !block.hasAxes, .missingArcEnd),
      (block.hasArcWords && !motion.any Motion.isArc, .strayArcWords),
      (block.hasWord (.g 53) && !motion.any (!·.isArc), .strayMachineCoordinates)]
  rules.findSome? fun (broken, fault) => if broken then some fault else none

/-- The modal state that a block leaves, program end apart. -/
def update (block : Block) (state : ModalState) : ModalState :=
  { state with
    distance := block.select Word.distance? state.distance
    unit := block.select Word.unit? state.unit
    plane := block.select Word.plane? state.plane
    feedMode := block.select Word.feedMode? state.feedMode
    coordinateSystem := block.select Word.coordinateSystem? state.coordinateSystem
    motion := block.activeMotion state.motion
    feed := (block.parameters .f).getD state.feed
    spindleSpeed := (block.parameters .s).getD state.spindleSpeed
    spindle := block.select Word.spindle? state.spindle
    coolant := block.words.foldl Word.applyCoolant state.coolant
    tool := (block.words.findSome? Word.tool?).elim state.tool Int.ofNat }

/-- The modal state that a block leaves. -/
def nextState (block : Block) (state : ModalState) : ModalState :=
  let state := block.update state
  if block.endsProgram then state.afterProgramEnd else state

end Block

end GcodeSender
