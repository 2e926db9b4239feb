import Mathlib.Data.List.Induction
import GcodeSender.Proofs.Program.Continuity

/-!
# Programs loaded in parts

Nothing but the modal state passes from one line of a program to the next, and the number of a
line reaches only what is reported of it: the command of the line, its segment or its error. So
lines that start at a later number load as they do from the first one, with all these numbers
moved down (`Program.later`). The main statement says that lines loaded in two parts, the second
part from the state that the first one leaves, give the two programs one after the other
(`Program.append`); loaded one at a time, they give the program that they give together.
-/
namespace GcodeSender

/-! ## Lines further down -/

/-- The segment of the same line further down. -/
def Segment.later (count : Nat) (segment : Segment) : Segment :=
  { segment with sourceLine := segment.sourceLine + count }

/-- The command of the same line further down. -/
def Command.later (count : Nat) (command : Command) : Command :=
  { command with sourceLine := command.sourceLine + count }

/-- The error of the same line further down. -/
def LineError.later (count : Nat) (error : LineError) : LineError :=
  { error with line := error.line + count }

/-- What the same line gives further down. -/
def LineOutcome.later (count : Nat) : LineOutcome → LineOutcome
  | nothing => nothing
  | command made segment => command (made.later count) (segment.map (.later count))
  | refused error => refused (error.later count)

namespace Command

variable {command : Command} {state : ModalState}

/-- A command further down makes the same segment further down. -/
theorem segment?_later (count : Nat) (motion : Motion) :
    (command.later count).segment? state motion =
      (command.segment? state motion).map (Segment.later count) := by
  have target : (command.later count).target state = command.target state := rfl
  have parameters : (command.later count).parameters = command.parameters := rfl
  unfold segment?
  dsimp only
  rw [target, parameters]
  split
  · split <;> rfl
  · rfl

/-- A command further down does the same. -/
theorem perform_later (count : Nat) :
    (command.later count).perform state =
      (command.perform state).map fun done => (done.1.map (Segment.later count), done.2) := by
  have kind : (command.later count).kind = command.kind := rfl
  have motion : (command.later count).motion = command.motion := rfl
  have target : (command.later count).target state = command.target state := rfl
  have offset : (command.later count).newOffset state = command.newOffset state := rfl
  unfold perform
  rw [kind, motion, target, offset]
  split
  · next motion _ _ =>
    rw [segment?_later]
    cases command.segment? state motion <;> rfl
  · rfl
  · rfl

/-- A block gives the same command further down. -/
theorem ofBlock?_later (count number : Nat) (line : Bytes) (block : Block) :
    ofBlock? (number + count) line block state =
      (ofBlock? number line block state).map fun done => (done.1.later count, done.2) := by
  unfold ofBlock?
  split <;> rfl

end Command

namespace LineOutcome

/-- A line gives the same further down, and leaves the same state. -/
theorem ofLine_later (count number : Nat) (line : Bytes) (state : ModalState) :
    ofLine (number + count) line state =
      ((ofLine number line state).1.later count, (ofLine number line state).2) := by
  unfold ofLine Command.ofLine?
  cases Token.ofLine? line with
  | error fault => rfl
  | ok tokens =>
    dsimp only
    cases Block.ofTokens? tokens with
    | error fault => rfl
    | ok block =>
      dsimp only
      cases empty : block.isEmpty with
      | true => rfl
      | false =>
        rw [Command.ofBlock?_later]
        cases Command.ofBlock? number line block state with
        | error fault => rfl
        | ok done =>
          obtain ⟨made, next⟩ := done
          simp only [Except.map, Bool.false_eq_true, if_false, Command.perform_later]
          cases made.perform next <;> rfl

end LineOutcome

namespace Program

/-! ## Programs further down, and one after the other -/

/-- The program of the same lines further down. -/
def later (count : Nat) (program : Program) : Program :=
  { program with
    commands := program.commands.map (.later count)
    segments := program.segments.map (.later count)
    errors := program.errors.map (.later count) }

/-- One program after another: what they hold in order, and the state after the second. -/
def append (first second : Program) : Program where
  commands := first.commands ++ second.commands
  segments := first.segments ++ second.segments
  errors := first.errors ++ second.errors
  state := second.state
  lineCount := first.lineCount + second.lineCount
  aborted := first.aborted || second.aborted

/-- Lines loaded one at a time, each under the state that those before it leave. -/
def loadEach (state : ModalState) (lines : List Bytes) : Program :=
  lines.foldl
    (fun program line =>
      program.append ((ofLines [line] program.state false).later program.lineCount))
    { state := state }

/-- An outcome in front of a program moves down with it. -/
theorem later_cons (count : Nat) (outcome : LineOutcome) (program : Program) :
    (cons outcome program).later count = cons (outcome.later count) (program.later count) := by
  cases outcome with
  | nothing => rfl
  | refused error => rfl
  | command made segment => cases segment <;> rfl

/-- An outcome in front of the first of two programs is in front of both. -/
theorem append_cons (outcome : LineOutcome) (first second : Program) :
    (cons outcome first).append second = cons outcome (first.append second) := by
  have lines : first.lineCount + 1 + second.lineCount =
      first.lineCount + second.lineCount + 1 := by omega
  cases outcome with
  | nothing => simp only [append, cons, lines]
  | refused error => simp only [append, cons, lines, List.cons_append]
  | command made segment =>
    simp only [append, cons, lines, List.cons_append, List.append_assoc]

/-- No line in front of a program changes nothing of it. -/
theorem append_of_no_lines (state : ModalState) (program : Program) :
    append { state := state } program = program := by
  simp [append]

/-- Lines load the same further down. -/
theorem loadFrom_later (count number : Nat) (state : ModalState) (lines : List Bytes) :
    loadFrom false (number + count) state lines =
      (loadFrom false number state lines).later count := by
  induction lines generalizing number state with
  | nil => rfl
  | cons line others ih =>
    have place : number + count + 1 = number + 1 + count := by omega
    rw [loadFrom_cons, loadFrom_cons, later_cons, LineOutcome.ofLine_later, place, ih]

/-- Lines in two parts load as the first part and, from the state that it leaves, the second. -/
theorem loadFrom_append (number : Nat) (state : ModalState) (front back : List Bytes) :
    loadFrom false number state (front ++ back) =
      (loadFrom false number state front).append
        (loadFrom false (number + front.length) (loadFrom false number state front).state
          back) := by
  induction front generalizing number state with
  | nil => exact (append_of_no_lines _ _).symm
  | cons line others ih =>
    have place : number + (line :: others).length = number + 1 + others.length := by
      rw [List.length_cons]
      omega
    rw [List.cons_append, loadFrom_cons, loadFrom_cons, append_cons, state_cons, place, ih]

/-- Lines in two parts load as the parts do one after the other: the second part is loaded under
the state that the first one leaves, and its lines are numbered on from the first. -/
theorem ofLines_append (state : ModalState) (front back : List Bytes) :
    ofLines (front ++ back) state false =
      (ofLines front state false).append
        ((ofLines back (ofLines front state false).state false).later front.length) := by
  unfold ofLines
  rw [loadFrom_append, loadFrom_later]

/-- Lines loaded one at a time give the program that they give together. -/
theorem loadEach_eq_ofLines (state : ModalState) (lines : List Bytes) :
    loadEach state lines = ofLines lines state false := by
  induction lines using List.reverseRecOn with
  | nil => rfl
  | append_singleton front line ih =>
    have count : (ofLines front state false).lineCount = front.length :=
      lineCount_loadFrom 1 state front
    rw [loadEach, List.foldl_append, ← loadEach, ih, ofLines_append, ← count]
    rfl

/-- Whatever lines are loaded under whatever state, they load in two parts as they do whole: the
second part is loaded under the state that the first one leaves, what it gives comes after what
the first one gives, and the numbers of its lines go on from those of the first. Loaded one at a
time, each under the state that those before it leave, the lines give the same program too. -/
theorem whole_loads_as_parts (state : ModalState) (front back : List Bytes) :
    ofLines (front ++ back) state false =
        (ofLines front state false).append
          ((ofLines back (ofLines front state false).state false).later front.length) ∧
      loadEach state (front ++ back) = ofLines (front ++ back) state false :=
  ⟨ofLines_append state front back, loadEach_eq_ofLines state (front ++ back)⟩

/-- The second line is refused at its place in the whole program. -/
example :
    (ofLines ([ascii "G91"] ++ [ascii "G2 X1"]) {} false).errors =
      [⟨2, 0, .arc .noCenter⟩] := by
  decide +kernel

end Program

end GcodeSender
