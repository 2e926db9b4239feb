import GcodeSender.Queue

/-!
# The run of a program

The lines of a program are queued under successive numbers. A run counts the results of those
numbers until each line has one, or until the program is stopped; then its counts are frozen.
The main statements are that results of other numbers change nothing and that a run that has
ended counts no result.
-/
namespace GcodeSender

/-- How far a program has come. -/
inductive RunState where
  | notLoaded
  | running
  | paused
  | stopped
  | completed
  | error
deriving DecidableEq, Repr

/-- The name of how far a program has come. -/
def RunState.name : RunState → Bytes
  | notLoaded => ascii "NotLoaded"
  | running => ascii "Running"
  | paused => ascii "Paused"
  | stopped => ascii "Stopped"
  | completed => ascii "Completed"
  | error => ascii "Error"

/-- The run of the program that was queued last. -/
structure ProgramRun where
  /-- The number of its first line. -/
  firstId : Nat := 0
  /-- The number of its last line. -/
  lastId : Nat := 0
  /-- How many lines it has. -/
  total : Nat := 0
  /-- How many of them were sent. -/
  sent : Nat := 0
  /-- How many of them were carried out. -/
  completed : Nat := 0
  /-- How many of them failed. -/
  failed : Nat := 0
  /-- The number of the first result that failed. -/
  firstFailed : Option Nat := none
  /-- The program was stopped. -/
  stopped : Bool := false
  /-- When it was queued. -/
  startedAt : Int := 0
  /-- When it ended. -/
  finishedAt : Int := 0
deriving DecidableEq, Repr

namespace ProgramRun

/-- A number belongs to the program. -/
def contains (run : ProgramRun) (id : Nat) : Bool :=
  decide (0 < run.total) && decide (run.firstId ≤ id) && decide (id ≤ run.lastId)

/-- Every line has a result. -/
def allAnswered (run : ProgramRun) : Bool :=
  decide (0 < run.total) && decide (run.total ≤ run.completed + run.failed)

/-- The counts do not change any more. -/
def isFrozen (run : ProgramRun) : Bool := run.stopped || run.allAnswered

/-- The run of a program whose lines were queued under some numbers. -/
def start (ids : List Nat) (now : Int) : ProgramRun :=
  match ids.head?, ids.getLast? with
  | some first, some last =>
    { firstId := first, lastId := last, total := ids.length, startedAt := now, finishedAt := now }
  | _, _ => { startedAt := now, finishedAt := now }

/-- Count a command that was sent. -/
def recordSent (run : ProgramRun) (id : Nat) : ProgramRun :=
  if run.contains id then { run with sent := run.sent + 1 } else run

/-- The counts with the outcome of one more line. -/
def countOutcome (run : ProgramRun) (id : Nat) (outcome : Outcome) : ProgramRun :=
  match outcome with
  | .acked => { run with completed := run.completed + 1 }
  | _ =>
    { run with failed := run.failed + 1, firstFailed := run.firstFailed.or (some id) }

/-- Count the result of a command, and say whether it ended the program. -/
def recordResult (run : ProgramRun) (id : Nat) (outcome : Outcome) (now : Int) :
    Bool × ProgramRun :=
  if !run.contains id || run.isFrozen then (false, run)
  else
    let run := run.countOutcome id outcome
    if run.allAnswered then (true, { run with finishedAt := now }) else (false, run)

/-- Stop the program, unless it has ended. -/
def stop (run : ProgramRun) (now : Int) : ProgramRun :=
  if run.total = 0 || run.isFrozen then run
  else { run with stopped := true, finishedAt := now }

/-- Forget the program. -/
def reset (run : ProgramRun) : ProgramRun :=
  { startedAt := run.startedAt, finishedAt := run.finishedAt }

/-- How far the program has come, with the queue paused or not. -/
def state (run : ProgramRun) (paused : Bool) : RunState :=
  if run.total = 0 then .notLoaded
  else if run.stopped then .stopped
  else if run.allAnswered then
    if run.failed = 0 then .completed else .error
  else if paused then .paused
  else .running

/-- How long the program runs or ran, in milliseconds. -/
def elapsed (run : ProgramRun) (now : Int) : Int :=
  if run.total = 0 then 0
  else (if run.isFrozen then run.finishedAt else now) - run.startedAt

/-- The part of the lines that have a result. -/
def fraction (run : ProgramRun) : Float :=
  if run.total = 0 then 0.0
  else Float.ofNat (run.completed + run.failed) / Float.ofNat run.total

/-- The program has ended. -/
def isFinished (run : ProgramRun) (paused : Bool) : Bool :=
  match run.state paused with
  | .completed | .error | .stopped => true
  | .notLoaded | .running | .paused => false

/-- Results of other commands change nothing. -/
theorem recordResult_of_not_contains {run : ProgramRun} {id : Nat} {outcome : Outcome}
    {now : Int} (other : run.contains id = false) :
    run.recordResult id outcome now = (false, run) := by
  simp [recordResult, other]

/-- A run that has ended counts no result. -/
theorem recordResult_of_isFrozen {run : ProgramRun} {id : Nat} {outcome : Outcome} {now : Int}
    (ended : run.isFrozen = true) : run.recordResult id outcome now = (false, run) := by
  simp [recordResult, ended]

/-- A run that was just reset has no program. -/
@[simp] theorem state_reset (run : ProgramRun) (paused : Bool) :
    run.reset.state paused = .notLoaded := rfl

end ProgramRun

end GcodeSender
