import Mathlib.Data.Nat.Find
import GcodeSender.Proofs.Program.Continuity

/-!
# Refused lines

A line is refused where it stands, under the state that the lines before it leave
(`Program.refusal?`). It contributes an error and nothing else. So a program loads, its errors
apart, as it does with nothing in place of each refused line, and loading that stops at errors
gives what the lines before the first refused one give. The main statement says both.
-/
namespace GcodeSender

namespace LineOutcome

/-- Exactly the refused lines have an error. -/
theorem isRefused_eq (outcome : LineOutcome) : outcome.isRefused = outcome.error?.isSome := by
  cases outcome <;> rfl

/-- A line with an error gives that error and leaves the state as it was. -/
theorem ofLine_of_error? {number : Nat} {line : Bytes} {state : ModalState} {error : LineError}
    (bad : (ofLine number line state).1.error? = some error) :
    ofLine number line state = (.refused error, state) := by
  unfold ofLine at bad ⊢
  split at bad
  · cases bad
    rfl
  · cases bad
  · split at bad
    · cases bad
      rfl
    · cases bad

/-- An error names the line that it is about. -/
theorem line_of_error? {number : Nat} {line : Bytes} {state : ModalState} {error : LineError}
    (bad : (ofLine number line state).1.error? = some error) : error.line = number := by
  unfold ofLine at bad
  split at bad
  · next refused =>
    cases bad
    unfold Command.ofLine? at refused
    split at refused
    · cases refused
      rfl
    · split at refused
      · cases refused
        rfl
      · split at refused
        · cases refused
        · split at refused
          · cases refused
            rfl
          · cases refused
  · cases bad
  · split at bad
    · cases bad
      rfl
    · cases bad

/-- A line with nothing on it gives nothing. -/
theorem ofLine_nil (number : Nat) (state : ModalState) :
    ofLine number (stripReturn []) state = (.nothing, state) := by
  have read : Token.ofLine? (stripReturn []) = .ok [] := by
    show Token.ofLine? [] = .ok []
    rw [Token.ofLine?, if_neg (by decide), Token.readItems]
  unfold ofLine Command.ofLine?
  rw [read]
  rfl

end LineOutcome

namespace Program

variable {number : Nat} {state : ModalState} {line : Bytes} {lines others : List Bytes}

/-- The error of the line at an index, counted from zero, under the state that the lines before it
leave. The first of the lines has a number. -/
def refusal? (number : Nat) (state : ModalState) (lines : List Bytes) (index : Nat) :
    Option LineError :=
  lines[index]?.bind fun line =>
    (LineOutcome.ofLine (number + index) (stripReturn line)
      (loadFrom false number state (lines.take index)).state).1.error?

/-- The lines with nothing in place of each refused one. -/
def withoutRefused (number : Nat) (state : ModalState) (lines : List Bytes) : List Bytes :=
  lines.mapIdx fun index line => (refusal? number state lines index).elim line fun _ => []

/-- The error of a line names it by its number. -/
theorem line_of_refusal? {index : Nat} {error : LineError}
    (bad : refusal? number state lines index = some error) : error.line = index + number := by
  obtain ⟨line, _, refused⟩ := Option.bind_eq_some_iff.mp bad
  rw [LineOutcome.line_of_error? refused, Nat.add_comm]

/-- The first line is read under the initial state. -/
theorem refusal?_cons_zero :
    refusal? number state (line :: others) 0 =
      (LineOutcome.ofLine number (stripReturn line) state).1.error? := rfl

/-- The lines after the first are read under the state that it leaves. -/
theorem refusal?_cons_succ (index : Nat) :
    refusal? number state (line :: others) (index + 1) =
      refusal? (number + 1) (LineOutcome.ofLine number (stripReturn line) state).2 others
        index := by
  have place : number + (index + 1) = number + 1 + index := by omega
  unfold refusal?
  rw [List.getElem?_cons_succ, List.take_succ_cons, loadFrom_cons, state_cons, place]

/-- The first line is left out if it is refused, and the others as if they stood alone. -/
theorem withoutRefused_cons :
    withoutRefused number state (line :: others) =
      ((LineOutcome.ofLine number (stripReturn line) state).1.error?.elim line fun _ => []) ::
        withoutRefused (number + 1) (LineOutcome.ofLine number (stripReturn line) state).2
          others := by
  unfold withoutRefused
  simp only [List.mapIdx_cons, refusal?_cons_zero, refusal?_cons_succ]

/-! ## Loading on after a refused line -/

/-- Errors apart, a refused line counts as a line that gives nothing. -/
theorem cons_without_errors (outcome : LineOutcome) (program : Program) :
    { cons outcome program with errors := [] } =
      cons (outcome.error?.elim outcome fun _ => .nothing) { program with errors := [] } := by
  cases outcome <;> rfl

/-- The errors of loaded lines are those of the refused ones, in order. -/
theorem errors_loadFrom (number : Nat) (state : ModalState) (lines : List Bytes) :
    (loadFrom false number state lines).errors =
      (List.range lines.length).filterMap (refusal? number state lines) := by
  induction lines generalizing number state with
  | nil => rfl
  | cons line others ih =>
    have later : refusal? number state (line :: others) ∘ Nat.succ =
        refusal? (number + 1) (LineOutcome.ofLine number (stripReturn line) state).2 others :=
      funext refusal?_cons_succ
    rw [loadFrom_cons, errors_cons, ih, List.length_cons, List.range_succ_eq_map,
      List.filterMap_cons, List.filterMap_map, later, refusal?_cons_zero]
    cases (LineOutcome.ofLine number (stripReturn line) state).1.error? <;> rfl

/-- Without its refused lines a program loads as with them, errors apart. -/
theorem loadFrom_withoutRefused (number : Nat) (state : ModalState) (lines : List Bytes) :
    loadFrom false number state (withoutRefused number state lines) =
      { loadFrom false number state lines with errors := [] } := by
  induction lines generalizing number state with
  | nil => rfl
  | cons line others ih =>
    rw [withoutRefused_cons, loadFrom_cons, loadFrom_cons, cons_without_errors, ← ih]
    cases bad : (LineOutcome.ofLine number (stripReturn line) state).1.error? with
    | none => rfl
    | some error =>
      have kept := LineOutcome.ofLine_of_error? bad
      simp only [Option.elim_some, LineOutcome.ofLine_nil, kept]

/-- Loading that goes on after errors is never aborted. -/
theorem aborted_loadFrom (number : Nat) (state : ModalState) (lines : List Bytes) :
    (loadFrom false number state lines).aborted = false := by
  induction lines generalizing number state with
  | nil => rfl
  | cons line others ih =>
    have kept (outcome : LineOutcome) (program : Program) :
        (cons outcome program).aborted = program.aborted := by
      cases outcome <;> rfl
    rw [loadFrom_cons, kept, ih]

/-! ## Stopping at a refused line -/

/-- Loading that stops at errors ends with a refused line. -/
theorem loadFrom_true_of_error? {error : LineError}
    (bad : (LineOutcome.ofLine number (stripReturn line) state).1.error? = some error) :
    loadFrom true number state (line :: others) =
      { state := state, errors := [error], lineCount := 1, aborted := true } := by
  rw [loadFrom, LineOutcome.ofLine_of_error? bad]
  rfl

/-- Loading that stops at errors goes on after every other line. -/
theorem loadFrom_true_of_read
    (read : (LineOutcome.ofLine number (stripReturn line) state).1.error? = none) :
    loadFrom true number state (line :: others) =
      cons (LineOutcome.ofLine number (stripReturn line) state).1
        (loadFrom true (number + 1) (LineOutcome.ofLine number (stripReturn line) state).2
          others) := by
  have goesOn : (LineOutcome.ofLine number (stripReturn line) state).1.isRefused = false := by
    rw [LineOutcome.isRefused_eq, read]
    rfl
  rw [loadFrom]
  dsimp only
  rw [goesOn]
  rfl

/-- Where no line is refused, loading that stops at errors loads all lines. -/
theorem loadFrom_true_of_none (sound : ∀ index, refusal? number state lines index = none) :
    loadFrom true number state lines = loadFrom false number state lines := by
  induction lines generalizing number state with
  | nil => rfl
  | cons line others ih =>
    have read := sound 0
    rw [refusal?_cons_zero] at read
    rw [loadFrom_true_of_read read, loadFrom_cons, ih fun index => ?_]
    rw [← refusal?_cons_succ]
    exact sound (index + 1)

/-- Loading that stops at errors gives what the lines before the first refused one give, and the
error of that line. -/
theorem loadFrom_true_of_refusal {index : Nat} {error : LineError}
    (bad : refusal? number state lines index = some error)
    (first : ∀ earlier < index, refusal? number state lines earlier = none) :
    loadFrom true number state lines =
      { loadFrom true number state (lines.take index) with
        errors := [error], lineCount := index + 1, aborted := true } := by
  induction lines generalizing number state index with
  | nil => cases bad
  | cons line others ih =>
    cases index with
    | zero =>
      rw [refusal?_cons_zero] at bad
      rw [loadFrom_true_of_error? bad]
      rfl
    | succ index =>
      have read := first 0 (Nat.succ_pos index)
      rw [refusal?_cons_zero] at read
      rw [refusal?_cons_succ] at bad
      have later := ih bad fun earlier before => by
        rw [← refusal?_cons_succ]
        exact first (earlier + 1) (Nat.succ_lt_succ before)
      rw [loadFrom_true_of_read read, List.take_succ_cons, loadFrom_true_of_read read, later]
      cases outcome : (LineOutcome.ofLine number (stripReturn line) state).1 with
      | nothing => rfl
      | command made segment => rfl
      | refused other =>
        rw [outcome] at read
        cases read

/-! ## Both ways of loading -/

/-- No line is refused, or there is a first one that is. -/
theorem exists_first_refusal (number : Nat) (state : ModalState) (lines : List Bytes) :
    (∀ index, refusal? number state lines index = none) ∨
      ∃ index error, refusal? number state lines index = some error ∧
        ∀ earlier < index, refusal? number state lines earlier = none := by
  by_cases sound : ∀ index, refusal? number state lines index = none
  · exact .inl sound
  · right
    have some_refused : ∃ index, refusal? number state lines index ≠ none := not_forall.mp sound
    obtain ⟨error, bad⟩ := Option.ne_none_iff_exists'.mp (Nat.find_spec some_refused)
    exact ⟨_, error, bad, fun earlier before => not_not.mp (Nat.find_min some_refused before)⟩

/-- Whatever lines are loaded under whatever state, the refused ones leave no trace but their
errors. Loading that goes on after them gives one error for each, in order, and otherwise the
program of the lines with nothing in their places, which has no errors. Loading that stops at
errors loads all lines if none is refused. Else it is aborted: it gives what the lines before
the first refused one give, the error of that line alone, and its number as the count of lines. -/
theorem refused_lines_leave_only_errors (state : ModalState) (lines : List Bytes) :
    let whole := ofLines lines state false
    let stopped := ofLines lines state true
    (whole.errors = (List.range lines.length).filterMap (refusal? 1 state lines) ∧
      ofLines (withoutRefused 1 state lines) state false = { whole with errors := [] }) ∧
    ((∀ index, refusal? 1 state lines index = none) ∧ stopped = whole ∧ stopped.aborted = false ∨
      ∃ index error, refusal? 1 state lines index = some error ∧
        (∀ earlier < index, refusal? 1 state lines earlier = none) ∧
        error.line = index + 1 ∧
        stopped = { ofLines (lines.take index) state true with
          errors := [error], lineCount := index + 1, aborted := true }) := by
  intro whole stopped
  refine ⟨⟨errors_loadFrom 1 state lines, loadFrom_withoutRefused 1 state lines⟩, ?_⟩
  rcases exists_first_refusal 1 state lines with sound | ⟨index, error, bad, first⟩
  · have all : stopped = whole := loadFrom_true_of_none sound
    exact .inl ⟨sound, all, all ▸ aborted_loadFrom 1 state lines⟩
  · exact .inr ⟨index, error, bad, first, line_of_refusal? bad,
      loadFrom_true_of_refusal bad first⟩

end Program

end GcodeSender
