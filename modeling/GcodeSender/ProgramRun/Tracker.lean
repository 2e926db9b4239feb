import GcodeSender.ProgramRun

/-!
# Tracking a program

A tracker follows the program that was queued last. It keeps a note of how far the program has
come, and changes it only when a program is queued, stopped, ended or forgotten. While a program
runs the note is passed over, as only the queue knows whether it is paused.
-/
namespace GcodeSender

/-- What is known of the program that was queued last. -/
structure Tracker where
  /-- Its counts and times. -/
  run : ProgramRun := {}
  /-- How far it has come, as last noted. -/
  noted : RunState := .notLoaded
deriving DecidableEq, Repr

namespace Tracker

/-- Follow the program whose lines were queued under some numbers. -/
def start (ids : List Nat) (now : Int) : Tracker :=
  ⟨.start ids now, if ids.isEmpty then .notLoaded else .running⟩

/-- Count a command that was sent. -/
def recordSent (tracker : Tracker) (id : Nat) : Tracker :=
  { tracker with run := tracker.run.recordSent id }

/-- Count the result of a command, and say whether it ended the program. -/
def recordResult (tracker : Tracker) (id : Nat) (outcome : Outcome) (now : Int) :
    Bool × Tracker :=
  let (ended, run) := tracker.run.recordResult id outcome now
  let noted :=
    if ended then if run.failed = 0 then .completed else .error
    else tracker.noted
  (ended, ⟨run, noted⟩)

/-- Stop the program, unless it has ended. -/
def stop (tracker : Tracker) (now : Int) : Tracker :=
  if tracker.run.total = 0 || tracker.run.isFrozen then tracker
  else ⟨tracker.run.stop now, .stopped⟩

/-- Forget the program. -/
def reset (tracker : Tracker) : Tracker := ⟨tracker.run.reset, .notLoaded⟩

/-- How far the program has come, with the queue paused or not. -/
def state (tracker : Tracker) (paused : Bool) : RunState :=
  if tracker.run.total = 0 || tracker.run.isFrozen then tracker.noted
  else if paused then .paused
  else .running

end Tracker

end GcodeSender
