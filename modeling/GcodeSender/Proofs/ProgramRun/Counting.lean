import Mathlib.Data.List.Count
import GcodeSender.ProgramRun

/-!
# Counting the results of a program

A run knows the first and the last number of its program and how many lines it has; sending,
results and a stop leave these alone (`SameProgram`). While the run is open, each result of one
of its lines is counted once, so that the counts are those of the results so far (`Counts`).
What a run counts is thus said of a list of results, whatever order they come in and whatever
comes between them.
-/
namespace GcodeSender

/-- A result is no failure. -/
def CommandResult.succeeded (result : CommandResult) : Bool := result.outcome == .acked

namespace ProgramRun

variable {run next last : ProgramRun} {id : Nat} {outcome : Outcome} {now : Int}
  {answers : List CommandResult} {result : CommandResult}

/-- How many lines have a result. -/
def answered (run : ProgramRun) : Nat := run.completed + run.failed

/-! ## The program of a run -/

/-- Two runs are about the same program. -/
structure SameProgram (run next : ProgramRun) : Prop where
  /-- The first number is the same. -/
  firstId : next.firstId = run.firstId
  /-- The last number is the same. -/
  lastId : next.lastId = run.lastId
  /-- There are as many lines. -/
  total : next.total = run.total

theorem SameProgram.refl (run : ProgramRun) : run.SameProgram run := ⟨rfl, rfl, rfl⟩

theorem SameProgram.trans (first : run.SameProgram next) (second : next.SameProgram last) :
    run.SameProgram last :=
  ⟨second.firstId.trans first.firstId, second.lastId.trans first.lastId,
    second.total.trans first.total⟩

/-- The same numbers belong to the same program. -/
theorem SameProgram.contains (same : run.SameProgram next) (id : Nat) :
    next.contains id = run.contains id := by
  simp only [ProgramRun.contains, same.firstId, same.lastId, same.total]

/-- A program has lines if a number belongs to it. -/
theorem total_ne_zero_of_contains (own : run.contains id = true) : run.total ≠ 0 := by
  intro none
  simp [contains, none] at own

/-- Counting a command that was sent changes only how many were. -/
theorem recordSent_eq (run : ProgramRun) (id : Nat) :
    run.recordSent id = { run with sent := run.sent + if run.contains id then 1 else 0 } := by
  unfold recordSent
  split <;> rfl

/-- Counting a command that was sent keeps the program. -/
theorem sameProgram_recordSent (run : ProgramRun) (id : Nat) :
    run.SameProgram (run.recordSent id) := by
  rw [recordSent_eq]
  exact ⟨rfl, rfl, rfl⟩

/-- Counting an outcome keeps the program. -/
theorem sameProgram_countOutcome (run : ProgramRun) (id : Nat) (outcome : Outcome) :
    run.SameProgram (run.countOutcome id outcome) := by
  cases outcome <;> exact ⟨rfl, rfl, rfl⟩

/-- A stop keeps the program. -/
theorem sameProgram_stop (run : ProgramRun) (now : Int) : run.SameProgram (run.stop now) := by
  unfold stop
  split <;> exact ⟨rfl, rfl, rfl⟩

/-! ## A program that was just queued -/

/-- There is a line for each number, and nothing happened to any. -/
theorem start_unbegun (ids : List Nat) (now : Int) :
    (start ids now).total = ids.length ∧ (start ids now).sent = 0 ∧
      (start ids now).completed = 0 ∧ (start ids now).stopped = false ∧
      (start ids now).allAnswered = false := by
  cases ids with
  | nil => exact ⟨rfl, rfl, rfl, rfl, rfl⟩
  | cons id others => simp [start, List.getLast?_cons, allAnswered]

/-- Successive numbers go from the first to the last. -/
theorem start_range {count : Nat} (first : Nat) (lines : count ≠ 0) (now : Int) :
    start ((List.range count).map (first + ·)) now =
      { firstId := first, lastId := first + (count - 1), total := count, startedAt := now,
        finishedAt := now } := by
  have head : ((List.range count).map (first + ·)).head? = some first := by
    rw [List.head?_map, List.head?_range, if_neg lines]
    rfl
  have last : ((List.range count).map (first + ·)).getLast? = some (first + (count - 1)) := by
    rw [List.getLast?_map, List.getLast?_range, if_neg lines]
    rfl
  unfold start
  rw [head, last, List.length_map, List.length_range]

/-- Successive numbers belong to their program. -/
theorem contains_start (first count : Nat) (now : Int) (id : Nat) :
    (start ((List.range count).map (first + ·)) now).contains id =
      decide (id ∈ (List.range count).map (first + ·)) := by
  by_cases empty : count = 0
  · subst empty
    rfl
  · have between : id ∈ (List.range count).map (first + ·) ↔ first ≤ id ∧ id < first + count := by
      rw [List.mem_map]
      constructor
      · rintro ⟨place, inside, rfl⟩
        have bound := List.mem_range.mp inside
        omega
      · intro bounds
        exact ⟨id - first, List.mem_range.mpr (by omega), by omega⟩
    rw [Bool.eq_iff_iff, decide_eq_true_iff, between, start_range first empty]
    simp only [contains, Bool.and_eq_true, decide_eq_true_eq]
    omega

/-! ## One result -/

@[simp] theorem stopped_countOutcome (run : ProgramRun) (id : Nat) (outcome : Outcome) :
    (run.countOutcome id outcome).stopped = run.stopped := by
  cases outcome <;> rfl

@[simp] theorem sent_countOutcome (run : ProgramRun) (id : Nat) (outcome : Outcome) :
    (run.countOutcome id outcome).sent = run.sent := by
  cases outcome <;> rfl

@[simp] theorem answered_countOutcome (run : ProgramRun) (id : Nat) (outcome : Outcome) :
    (run.countOutcome id outcome).answered = run.answered + 1 := by
  cases outcome <;> simp [countOutcome, answered] <;> omega

/-- A result of the program of an open run is counted, and ends the run if it is the last. -/
theorem recordResult_of_open (own : run.contains id = true) (open_ : run.isFrozen = false) :
    ∃ ended, run.recordResult id outcome now =
      ((run.countOutcome id outcome).allAnswered,
        { run.countOutcome id outcome with finishedAt := ended }) := by
  unfold recordResult
  rw [own, open_, if_neg (by decide)]
  dsimp only
  cases answered : (run.countOutcome id outcome).allAnswered with
  | true => exact ⟨now, rfl⟩
  | false => exact ⟨_, rfl⟩

/-- A result is passed over, or it is counted for the program of an open run. -/
theorem recordResult_cases (run : ProgramRun) (id : Nat) (outcome : Outcome) (now : Int) :
    ((run.contains id = false ∨ run.isFrozen = true) ∧
        run.recordResult id outcome now = (false, run)) ∨
      (run.contains id = true ∧ run.isFrozen = false ∧
        ∃ ended, run.recordResult id outcome now =
          ((run.countOutcome id outcome).allAnswered,
            { run.countOutcome id outcome with finishedAt := ended })) := by
  by_cases own : run.contains id = true
  · by_cases frozen : run.isFrozen = true
    · exact .inl ⟨.inr frozen, recordResult_of_isFrozen frozen⟩
    · have open_ : run.isFrozen = false := Bool.eq_false_iff.mpr frozen
      exact .inr ⟨own, open_, recordResult_of_open own open_⟩
  · have other : run.contains id = false := Bool.eq_false_iff.mpr own
    exact .inl ⟨.inl other, recordResult_of_not_contains other⟩

/-- A result keeps the program. -/
theorem sameProgram_recordResult (run : ProgramRun) (id : Nat) (outcome : Outcome) (now : Int) :
    run.SameProgram (run.recordResult id outcome now).2 := by
  rcases recordResult_cases run id outcome now with ⟨_, same⟩ | ⟨_, _, ended, counted⟩
  · rw [same]
    exact .refl run
  · rw [counted]
    exact (sameProgram_countOutcome run id outcome).trans ⟨rfl, rfl, rfl⟩

/-- A result stops no program. -/
@[simp] theorem stopped_recordResult (run : ProgramRun) (id : Nat) (outcome : Outcome)
    (now : Int) : (run.recordResult id outcome now).2.stopped = run.stopped := by
  rcases recordResult_cases run id outcome now with ⟨_, same⟩ | ⟨_, _, ended, counted⟩
  · rw [same]
  · rw [counted]
    exact stopped_countOutcome run id outcome

/-- A result sends nothing. -/
@[simp] theorem sent_recordResult (run : ProgramRun) (id : Nat) (outcome : Outcome)
    (now : Int) : (run.recordResult id outcome now).2.sent = run.sent := by
  rcases recordResult_cases run id outcome now with ⟨_, same⟩ | ⟨_, _, ended, counted⟩
  · rw [same]
  · rw [counted]
    exact sent_countOutcome run id outcome

/-- A result carries out at most one more line, and only one of the program. -/
theorem completed_recordResult_le (run : ProgramRun) (id : Nat) (outcome : Outcome)
    (now : Int) : (run.recordResult id outcome now).2.completed ≤
      run.completed + (if run.contains id = true ∧ outcome = .acked then 1 else 0) := by
  rcases recordResult_cases run id outcome now with ⟨_, same⟩ | ⟨own, _, ended, counted⟩
  · rw [same]
    exact Nat.le_add_right _ _
  · rw [counted, own]
    cases outcome <;> simp [countOutcome]

/-- A stop carries out nothing and sends nothing. -/
theorem counts_stop (run : ProgramRun) (now : Int) :
    (run.stop now).completed = run.completed ∧ (run.stop now).sent = run.sent := by
  unfold stop
  split <;> exact ⟨rfl, rfl⟩

/-- A stop stops a program that has not ended, and nothing else. -/
theorem stopped_stop (run : ProgramRun) (now : Int) :
    (run.stop now).stopped = (run.stopped || decide (run.total ≠ 0 ∧ run.isFrozen = false)) := by
  unfold stop
  by_cases empty : run.total = 0 <;> by_cases frozen : run.isFrozen = true <;>
    simp [empty, frozen]

/-- A run is reported as stopped if it has a program that was stopped. -/
theorem state_eq_stopped_iff (run : ProgramRun) (paused : Bool) :
    run.state paused = .stopped ↔ run.total ≠ 0 ∧ run.stopped = true := by
  unfold state
  split
  · simp_all
  · split
    · simp_all
    · split
      · split <;> simp_all
      · split <;> simp_all

/-- After a stop the counts of a program with lines do not change any more. -/
theorem isFrozen_stop (lines : run.total ≠ 0) (now : Int) : (run.stop now).isFrozen = true := by
  by_cases frozen : run.isFrozen = true
  · rw [show run.stop now = run from if_pos (by simp [frozen])]
    exact frozen
  · have stopped : (run.stop now).stopped = true := by
      rw [stopped_stop]
      simp [lines, frozen]
    rw [isFrozen, stopped, Bool.true_or]

/-- While the counts change, some line has no result. -/
theorem answered_lt_total (lines : run.total ≠ 0) (open_ : run.isFrozen = false) :
    run.answered < run.total := by
  have unanswered := (Bool.or_eq_false_iff.mp open_).2
  rw [allAnswered, Bool.and_eq_false_iff, decide_eq_false_iff_not,
    decide_eq_false_iff_not] at unanswered
  unfold answered
  omega

/-! ## All results -/

/-- The counts of a run are those of some results. -/
structure Counts (run : ProgramRun) (answers : List CommandResult) : Prop where
  /-- The lines carried out. -/
  completed : run.completed = answers.countP CommandResult.succeeded
  /-- The lines that failed. -/
  failed : run.failed = answers.countP (!·.succeeded)
  /-- The first of those that failed. -/
  firstFailed : run.firstFailed = ((answers.filter (!·.succeeded)).map CommandResult.id).head?

/-- What a run counts is all the results. -/
theorem Counts.length (counts : run.Counts answers) : run.answered = answers.length := by
  rw [answered, counts.completed, counts.failed,
    List.length_eq_countP_add_countP CommandResult.succeeded]
  simp

/-- Every line has a result when there are as many results as lines. -/
theorem Counts.allAnswered_iff (counts : run.Counts answers) (lines : 0 < run.total) :
    run.allAnswered = true ↔ run.total ≤ answers.length := by
  have length := counts.length
  rw [answered] at length
  simp [allAnswered, lines, length]

/-- Nothing failed when all results are successes. -/
theorem Counts.failed_eq_zero_iff (counts : run.Counts answers) :
    run.failed = 0 ↔ answers.all CommandResult.succeeded = true := by
  simp [counts.failed, List.countP_eq_zero]

/-- A run that was just started has counted nothing. -/
theorem counts_start (ids : List Nat) (now : Int) : (start ids now).Counts [] := by
  unfold start
  split <;> exact ⟨rfl, rfl, rfl⟩

/-- One more result is counted. -/
theorem Counts.countOutcome (counts : run.Counts answers) (result : CommandResult) :
    (run.countOutcome result.id result.outcome).Counts (answers ++ [result]) := by
  by_cases success : result.succeeded = true
  · have acked : result.outcome = .acked := by simpa [CommandResult.succeeded] using success
    rw [acked]
    exact ⟨by simp [ProgramRun.countOutcome, counts.completed, success],
      by simp [ProgramRun.countOutcome, counts.failed, success],
      by simp [ProgramRun.countOutcome, counts.firstFailed, success]⟩
  · have counted : run.countOutcome result.id result.outcome =
        { run with
          failed := run.failed + 1
          firstFailed := run.firstFailed.or (some result.id) } := by
      cases found : result.outcome with
      | acked => simp [CommandResult.succeeded, found] at success
      | _ => rfl
    rw [counted]
    exact ⟨by simp [counts.completed, success], by simp [counts.failed, success],
      by simp [counts.firstFailed, success, List.head?_append]⟩

/-- What a stop or a sending does is not counted. -/
theorem Counts.congr (counts : run.Counts answers) (completed : next.completed = run.completed)
    (failed : next.failed = run.failed) (firstFailed : next.firstFailed = run.firstFailed) :
    next.Counts answers :=
  ⟨completed.trans counts.completed, failed.trans counts.failed,
    firstFailed.trans counts.firstFailed⟩

end ProgramRun

end GcodeSender
