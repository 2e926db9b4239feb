import GcodeSender.Toolpath.Move

/-!
# Programs

A program is read line by line under one modal state. A line that cannot be read is reported
and leaves the state as it was, so the rest of the program still loads, unless loading is to
stop at the first such line. The main statements are that a loaded program counts the lines it
read and that loading no line changes nothing.
-/
namespace GcodeSender

/-- Why a line is refused. -/
inductive LineFault where
  /-- An item of the line cannot be read. -/
  | token (fault : TokenFault)
  /-- Its words make no valid block. -/
  | block (fault : BlockFault)
  /-- Its arc cannot be made. -/
  | arc (fault : ArcFault)
deriving DecidableEq

/-- The three kinds of faults. -/
inductive FaultKind where
  /-- An item is malformed. -/
  | lexical
  /-- Items stand in the wrong place. -/
  | structural
  /-- The machine cannot do it. -/
  | domain
deriving DecidableEq, Repr

namespace FaultKind

/-- The name of a kind of fault. -/
def name : FaultKind → Bytes
  | lexical => ascii "Lexical"
  | structural => ascii "Syntax"
  | domain => ascii "Domain"

end FaultKind

namespace LineFault

/-- The kind of a fault. -/
def kind : LineFault → FaultKind
  | token _ => .lexical
  | block .repeatedLineNumber => .structural
  | block _ => .domain
  | arc _ => .domain

/-- The words of a fault. -/
def message : LineFault → Bytes
  | token fault => fault.message
  | block fault => fault.message
  | arc fault => fault.message

end LineFault

/-- A refused line. -/
structure LineError where
  /-- The number of the line, counted from one. -/
  line : Nat
  /-- The column of the item at fault, counted from one, or zero if it is no single item. -/
  column : Nat
  /-- The reason. -/
  fault : LineFault
deriving DecidableEq

/-- The text of a refused line: the kind of fault, the place and the reason. -/
def LineError.text (error : LineError) : Bytes :=
  let place := if error.column = 0 then [] else ascii ", column " ++ Decimal.digits error.column
  error.fault.kind.name ++ ascii " error at line " ++ Decimal.digits error.line ++ place ++
    ascii ": " ++ error.fault.message

namespace Command

/-- The command of a line, if it says anything besides comments, and the state after it. -/
def ofLine? (number : Nat) (line : Bytes) (state : ModalState) :
    Except LineError (Option Command × ModalState) :=
  match Token.ofLine? line with
  | .error (column, fault) => .error ⟨number, column, .token fault⟩
  | .ok tokens =>
    match Block.ofTokens? tokens with
    | .error (column, fault) => .error ⟨number, column, .block fault⟩
    | .ok block =>
      if block.isEmpty then .ok (none, state)
      else
        match ofBlock? number line block state with
        | .error fault => .error ⟨number, 0, .block fault⟩
        | .ok (command, state) => .ok (some command, state)

end Command

/-- What one line gives a program. -/
inductive LineOutcome where
  /-- Nothing but comments. -/
  | nothing
  /-- A command, with its segment if it moves the tool. -/
  | command (command : Command) (segment : Option Segment)
  /-- The line is refused. -/
  | refused (error : LineError)

namespace LineOutcome

/-- Read a line under a modal state. A refused line leaves the state as it was. -/
def ofLine (number : Nat) (line : Bytes) (state : ModalState) : LineOutcome × ModalState :=
  match Command.ofLine? number line state with
  | .error error => (.refused error, state)
  | .ok (none, _) => (.nothing, state)
  | .ok (some made, next) =>
    match made.perform next with
    | .error fault => (.refused ⟨number, 0, .arc fault⟩, state)
    | .ok (segment, next) => (.command made segment, next)

/-- The line is refused. -/
def isRefused : LineOutcome → Bool
  | refused _ => true
  | _ => false

end LineOutcome

/-- A loaded program. -/
structure Program where
  /-- Its commands in order. -/
  commands : List Command := []
  /-- The moves of its commands in order. -/
  segments : List Segment := []
  /-- Its refused lines in order. -/
  errors : List LineError := []
  /-- The modal state after it. -/
  state : ModalState := {}
  /-- How many lines were read. -/
  lineCount : Nat := 0
  /-- Loading stopped at a refused line. -/
  aborted : Bool := false

namespace Program

/-- The program with the outcome of one more line in front. -/
def cons (outcome : LineOutcome) (program : Program) : Program :=
  let program := { program with lineCount := program.lineCount + 1 }
  match outcome with
  | .nothing => program
  | .command made segment =>
    { program with
      commands := made :: program.commands
      segments := segment.toList ++ program.segments }
  | .refused error => { program with errors := error :: program.errors }

/-- Load lines under a modal state, the first of them with a number. -/
def loadFrom (stopAtError : Bool) (number : Nat) (state : ModalState) : List Bytes → Program
  | [] => { state := state }
  | line :: others =>
    let (outcome, next) := LineOutcome.ofLine number (stripReturn line) state
    if stopAtError && outcome.isRefused then
      cons outcome { state := next, aborted := true }
    else cons outcome (loadFrom stopAtError (number + 1) next others)

/-- Load the lines of a program under an initial modal state. -/
def ofLines (lines : List Bytes) (state : ModalState) (stopAtError : Bool) : Program :=
  loadFrom stopAtError 1 state lines

/-- Load a program from its text. -/
def ofText (text : Bytes) (state : ModalState) (stopAtError : Bool) : Program :=
  ofLines (lines text) state stopAtError

/-- The length of the whole path, each segment in its own unit. -/
def pathLength (program : Program) : Float :=
  program.segments.foldl (fun sum segment => sum + segment.length) 0.0

/-- The line that reports a loaded program. -/
def summary (program : Program) : Bytes :=
  ascii "GCodeProgram: " ++ Decimal.digits program.lineCount ++ ascii " lines, " ++
    Decimal.digits program.segments.length ++ ascii " segments, " ++
    Decimal.digits program.errors.length ++ ascii " errors, path length " ++
    Decimal.brief program.pathLength

/-- The lines that report the refused lines of a program. -/
def complaints (program : Program) : List Bytes :=
  program.errors.map fun error => ascii "GCodeProgram: " ++ error.text

/-- Loading no line leaves the state as it was. -/
@[simp] theorem ofLines_nil (state : ModalState) (stopAtError : Bool) :
    ofLines [] state stopAtError = { state := state } := rfl

/-- One more outcome in front counts one more line. -/
@[simp] theorem lineCount_cons (outcome : LineOutcome) (program : Program) :
    (cons outcome program).lineCount = program.lineCount + 1 := by
  cases outcome <;> rfl

/-- Without stopping at errors, every line is read. -/
theorem lineCount_loadFrom (number : Nat) (state : ModalState) (lines : List Bytes) :
    (loadFrom false number state lines).lineCount = lines.length := by
  induction lines generalizing number state with
  | nil => rfl
  | cons line others ih => simp [loadFrom, ih]

end Program

/-- What reading a program file from the disk gave. -/
inductive FileContent where
  /-- There is no such file. -/
  | missing
  /-- Whether there is such a file cannot be told. -/
  | inaccessible (reason : Bytes)
  /-- The file cannot be opened. -/
  | closed
  /-- The file opens but cannot be read. -/
  | unreadable
  /-- The bytes of the file. -/
  | text (text : Bytes)
deriving DecidableEq

namespace Program

/-- Load a program file, or say why it cannot be loaded. -/
def ofFile? (path : Bytes) (content : FileContent) (stopAtError : Bool) :
    Except Bytes Program :=
  match content with
  | .missing => .error (ascii "File not found: " ++ path)
  | .inaccessible reason => .error (ascii "Cannot access " ++ path ++ ascii ": " ++ reason)
  | .closed => .error (ascii "Error opening file: " ++ path)
  | .unreadable => .error (ascii "Error reading file: " ++ path)
  | .text text => .ok (ofText text {} stopAtError)

end Program

end GcodeSender
