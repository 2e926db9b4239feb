import GcodeSender.Proofs.Gcode.Reading

/-!
# Continuity of a program's path

The segments of a program join points in millimetres: the first point is where the tool was
before the program, each segment leads from one point to the next, and the last point is where
the tool is afterwards (`Segment.Joins`). One line contributes at most one segment and moves
the position only by it; everything else, a refused line included, leaves the position alone.
The main statement adds what a reader of two neighbouring segments sees: where their units
agree, the later one starts at the very floats at which the earlier one ends.
-/
namespace GcodeSender

/-- Segments lead from a point in millimetres to another one, each shown in its own unit. -/
inductive Segment.Joins : Point → List Segment → Point → Prop where
  /-- No segment leads nowhere else. -/
  | nil (point : Point) : Joins point [] point
  /-- A segment leads to the point where the others go on. -/
  | cons {start middle finish : Point} {segment : Segment} {others : List Segment}
    (starts : segment.start = segment.unit.pointOfMillimetres start)
    (ends : segment.finish = segment.unit.pointOfMillimetres middle)
    (rest : Joins middle others finish) : Joins start (segment :: others) finish

namespace Segment

/-- Paths that meet in a point make one path. -/
theorem Joins.append {start middle finish : Point} {front back : List Segment}
    (first : Joins start front middle) (second : Joins middle back finish) :
    Joins start (front ++ back) finish := by
  induction first with
  | nil point => exact second
  | cons starts ends rest ih => exact .cons starts ends (ih second)

/-- A path of segments has one point more than it has segments. -/
theorem Joins.exists_points {start finish : Point} {segments : List Segment}
    (path : Joins start segments finish) :
    ∃ point : Nat → Point, point 0 = start ∧ point segments.length = finish ∧
      ∀ (place : Nat) (inside : place < segments.length),
        segments[place].start = segments[place].unit.pointOfMillimetres (point place) ∧
          segments[place].finish =
            segments[place].unit.pointOfMillimetres (point (place + 1)) := by
  induction path with
  | nil only => exact ⟨fun _ => only, rfl, rfl, fun place inside => absurd inside (by simp)⟩
  | @cons start middle finish segment others starts ends rest ih =>
    obtain ⟨point, first, last, between⟩ := ih
    refine ⟨fun place => place.casesOn start point, rfl, last, ?_⟩
    intro place inside
    cases place with
    | zero =>
      refine ⟨starts, ?_⟩
      show segment.finish = segment.unit.pointOfMillimetres (point 0)
      rw [first]
      exact ends
    | succ place => exact between place (Nat.lt_of_succ_lt_succ inside)

end Segment

/-! ## What one line contributes -/

/-- A block does not move the tool. -/
theorem Block.position_nextState (block : Block) (state : ModalState) :
    (block.nextState state).position = state.position := by
  unfold nextState
  dsimp only
  split <;> rfl

/-- Reading a command does not move the tool. -/
theorem Command.position_of_ofLine? {number : Nat} {line : Bytes} {state next : ModalState}
    {command : Command} (read : ofLine? number line state = .ok (some command, next)) :
    next.position = state.position := by
  obtain ⟨_, block, _, _, _, _, _, rfl⟩ := ofLine?_eq_ok_some_iff.mp read
  exact block.position_nextState state

namespace LineOutcome

/-- The segments that a line contributes: one or none. -/
def segments : LineOutcome → List Segment
  | command _ segment => segment.toList
  | _ => []

/-- The error of a refused line. -/
def error? : LineOutcome → Option LineError
  | refused error => some error
  | _ => none

/-- A line moves the tool along the segment that it contributes, and not at all without one. -/
theorem joins_ofLine (number : Nat) (line : Bytes) (state : ModalState) :
    Segment.Joins state.position (ofLine number line state).1.segments
      (ofLine number line state).2.position := by
  unfold ofLine
  split
  · exact .nil _
  · exact .nil _
  · next made after read =>
    have still := Command.position_of_ofLine? read
    split
    · exact .nil _
    · next segment next done =>
      cases segment with
      | none =>
        have kept := Command.position_of_perform done
        show Segment.Joins state.position [] next.position
        rw [kept, still]
        exact .nil _
      | some segment =>
        obtain ⟨unit, starts, ends⟩ := Command.ends_of_perform done
        rw [← unit, still] at starts
        rw [← unit] at ends
        exact .cons starts ends (.nil _)

end LineOutcome

namespace Program

/-- A line puts the segments that it contributes in front. -/
theorem segments_cons (outcome : LineOutcome) (program : Program) :
    (cons outcome program).segments = outcome.segments ++ program.segments := by
  cases outcome <;> rfl

/-- A line puts its error, if it has one, in front. -/
theorem errors_cons (outcome : LineOutcome) (program : Program) :
    (cons outcome program).errors = outcome.error?.toList ++ program.errors := by
  cases outcome <;> rfl

/-- A line leaves the final state to the lines after it. -/
theorem state_cons (outcome : LineOutcome) (program : Program) :
    (cons outcome program).state = program.state := by
  cases outcome <;> rfl

/-- Without stopping at errors, loading goes on after every line. -/
theorem loadFrom_cons (number : Nat) (state : ModalState) (line : Bytes) (others : List Bytes) :
    loadFrom false number state (line :: others) =
      cons (LineOutcome.ofLine number (stripReturn line) state).1
        (loadFrom false (number + 1) (LineOutcome.ofLine number (stripReturn line) state).2
          others) := rfl

/-- The segments of loaded lines lead from the position before them to the one after them. -/
theorem joins_loadFrom (number : Nat) (state : ModalState) (lines : List Bytes) :
    Segment.Joins state.position (loadFrom false number state lines).segments
      (loadFrom false number state lines).state.position := by
  induction lines generalizing number state with
  | nil => exact .nil _
  | cons line others ih =>
    rw [loadFrom_cons, segments_cons, state_cons]
    exact (LineOutcome.joins_ofLine number (stripReturn line) state).append (ih _ _)

/-- Whatever lines are loaded under whatever state, the segments join points in millimetres,
from the initial position to the final one. Each segment starts and ends at its two points,
shown in its unit, so neighbouring segments in one unit meet in the same floats. -/
theorem segments_join_positions (lines : List Bytes) (state : ModalState) :
    ∃ point : Nat → Point, point 0 = state.position ∧
      point (ofLines lines state false).segments.length =
        (ofLines lines state false).state.position ∧
      (∀ (place : Nat) (inside : place < (ofLines lines state false).segments.length),
        let segment := (ofLines lines state false).segments[place]
        segment.start = segment.unit.pointOfMillimetres (point place) ∧
          segment.finish = segment.unit.pointOfMillimetres (point (place + 1))) ∧
      ∀ (place : Nat) (inside : place + 1 < (ofLines lines state false).segments.length),
        let segment := (ofLines lines state false).segments[place]
        let next := (ofLines lines state false).segments[place + 1]
        next.unit = segment.unit → next.start = segment.finish := by
  obtain ⟨point, first, last, between⟩ := (joins_loadFrom 1 state lines).exists_points
  refine ⟨point, first, last, between, ?_⟩
  intro place inside segment next same
  have ends : segment.finish = segment.unit.pointOfMillimetres (point (place + 1)) :=
    (between place (Nat.lt_of_succ_lt inside)).2
  have starts : next.start = next.unit.pointOfMillimetres (point (place + 1)) :=
    (between (place + 1) inside).1
  rw [starts, ends, same]

end Program

end GcodeSender
