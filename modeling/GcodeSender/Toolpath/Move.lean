import GcodeSender.Gcode.Command
import GcodeSender.Toolpath.Arc
import GcodeSender.Toolpath.Segment

/-!
# Moves of commands

A command is carried out under the modal state that its block left. A motion becomes a segment
and moves the position; G92 and G92.1 change the offset; everything else leaves both alone. The
main statements are that a segment leads from the position before to the position after it, and
that without a segment the position stays.
-/
namespace GcodeSender

namespace Command

/-- The coordinate along an axis, in millimetres, that a command moves to. Coordinates of the
machine are absolute and know no offset. -/
def targetAlong (command : Command) (state : ModalState) (axis : Axis) : Float :=
  match command.parameters (.ofAxis axis) with
  | none => state.position.along axis
  | some value =>
    let length := state.unit.toMillimetres value
    if command.inMachineCoordinates then length
    else
      match state.distance with
      | .incremental => state.position.along axis + length
      | .absolute => length + state.offset.along axis

/-- The point, in millimetres, that a command moves to. -/
def target (command : Command) (state : ModalState) : Point :=
  .ofAxes (command.targetAlong state)

/-- The part of a segment that any motion has. -/
def straightSegment (command : Command) (state : ModalState) (motion : Motion) : Segment :=
  { motion := motion
    start := state.unit.pointOfMillimetres state.position
    finish := state.unit.pointOfMillimetres (command.target state)
    feed := state.feed
    spindleSpeed := state.spindleSpeed
    unit := state.unit
    plane := state.plane
    sourceLine := command.sourceLine
    lineNumber := command.lineNumber.map Int.ofNat }

/-- The segment of a motion. -/
def segment? (command : Command) (state : ModalState) (motion : Motion) :
    Except ArcFault Segment :=
  let straight := command.straightSegment state motion
  if motion.isArc then
    let ends : ArcEnds :=
      ⟨state.position, command.target state, state.plane, motion == .counterclockwise⟩
    match ends.circle command.parameters state.unit with
    | .error fault => .error fault
    | .ok circle =>
      .ok { straight with
        center := state.unit.pointOfMillimetres circle.center
        centerOffset := state.unit.pointOfMillimetres (circle.center.minus state.position)
        radius := state.unit.ofMillimetres circle.radius }
  else .ok straight

/-- The offset that makes the present position read as the given coordinates. -/
def shiftedOffset (command : Command) (state : ModalState) : Point :=
  .ofAxes fun axis =>
    match command.parameters (.ofAxis axis) with
    | some value => state.position.along axis - state.unit.toMillimetres value
    | none => state.offset.along axis

/-- The offset after a command about stored positions. -/
def newOffset (command : Command) (state : ModalState) : Point :=
  if command.block.hasWord (.gSub 92 1) then .origin
  else if command.block.hasWord (.g 92) then command.shiftedOffset state
  else state.offset

/-- Carry out a command: the segment it makes, if it is a motion, and the state after it. -/
def perform (command : Command) (state : ModalState) :
    Except ArcFault (Option Segment × ModalState) :=
  match command.kind, command.motion with
  | .motion, some motion =>
    match command.segment? state motion with
    | .error fault => .error fault
    | .ok segment => .ok (some segment, { state with position := command.target state })
  | .nonModal, _ => .ok (none, { state with offset := command.newOffset state })
  | _, _ => .ok (none, state)

/-- A segment starts and ends where its command says, in its unit. -/
theorem ends_of_segment? {command : Command} {state : ModalState} {motion : Motion}
    {segment : Segment} (made : command.segment? state motion = .ok segment) :
    segment.unit = state.unit ∧
      segment.start = state.unit.pointOfMillimetres state.position ∧
        segment.finish = state.unit.pointOfMillimetres (command.target state) := by
  unfold segment? at made
  dsimp only at made
  split at made
  · split at made
    · cases made
    · cases made
      exact ⟨rfl, rfl, rfl⟩
  · cases made
    exact ⟨rfl, rfl, rfl⟩

/-- A segment leads from the position before a command to the position after it. -/
theorem ends_of_perform {command : Command} {state next : ModalState} {segment : Segment}
    (done : command.perform state = .ok (some segment, next)) :
    segment.unit = state.unit ∧
      segment.start = state.unit.pointOfMillimetres state.position ∧
        segment.finish = state.unit.pointOfMillimetres next.position := by
  unfold perform at done
  split at done
  · split at done
    · cases done
    · next made =>
      cases done
      exact ends_of_segment? made
  · cases done
  · cases done

/-- Without a segment the position stays. -/
theorem position_of_perform {command : Command} {state next : ModalState}
    (done : command.perform state = .ok (none, next)) : next.position = state.position := by
  unfold perform at done
  split at done
  · split at done <;> cases done
  · cases done
    rfl
  · cases done
    rfl

end Command

end GcodeSender
