import GcodeSender.Toolpath.Chords
import GcodeSender.Toolpath.Move

/-!
# Turning the axes

The three axes are alike: what is said of X, Y and Z may be said of Y, Z and X. Turning the axes
once around carries every coordinate to the next axis, the words X, Y, Z and I, J, K to the next
letter, and the plane of X and Y to that of Y and Z, this one to that of Z and X and that one to
that of X and Y. The main statement is that a turned command under a turned state makes exactly the
turned segment and leaves exactly the turned state, or is refused exactly if the command itself is;
and that a turned arc sweeps the same angle and has exactly the turned chords.

Everything rests on one law (`Point.along_turned`): a turned point has along the next axis what the
point has along an axis. The axes of a turned plane are the next ones, so whatever reads points
along the axes of a plane reads the same numbers.
-/
namespace GcodeSender

/-! ## What turning does -/

/-- The point whose coordinates are those of a point, each along the next axis. -/
def Point.turned (point : Point) : Point := ⟨point.z, point.x, point.y⟩

/-- The plane whose axes follow those of a plane. -/
def Plane.turned : Plane → Plane
  | xy => yz
  | yz => zx
  | zx => xy

/-- The letter whose turned form a letter is: coordinates and distances to a center go on to the
next axis, and every other letter stays. -/
def Letter.unturned : Letter → Letter
  | x => z
  | y => x
  | z => y
  | i => k
  | j => i
  | k => j
  | other => other

/-- The values of letters, each carried to the letter of the next axis. -/
def Parameters.turned (parameters : Parameters) : Parameters :=
  fun letter => parameters letter.unturned

/-- The word that selects the turned plane; every other word stays. -/
def Word.turned (word : Word) : Word :=
  if word = g 17 then g 19 else if word = g 19 then g 18 else if word = g 18 then g 17 else word

/-- The block with its planes and its values turned. -/
def Block.turned (block : Block) : Block :=
  { block with words := block.words.map Word.turned, parameters := block.parameters.turned }

/-- The command with its planes and its values turned. -/
def Command.turned (command : Command) : Command := { command with block := command.block.turned }

/-- The state with its points and its plane turned. -/
def ModalState.turned (state : ModalState) : ModalState :=
  { state with
    plane := state.plane.turned
    position := state.position.turned
    offset := state.offset.turned }

/-- The segment with its points and its plane turned. -/
def Segment.turned (segment : Segment) : Segment :=
  { segment with
    start := segment.start.turned
    finish := segment.finish.turned
    plane := segment.plane.turned
    center := segment.center.turned
    centerOffset := segment.centerOffset.turned }

/-- The circle with its center turned. -/
def Circle.turned (circle : Circle) : Circle := { circle with center := circle.center.turned }

/-- The ends of an arc turned with its plane. -/
def ArcEnds.turned (ends : ArcEnds) : ArcEnds :=
  { ends with
    start := ends.start.turned
    finish := ends.finish.turned
    plane := ends.plane.turned }

/-- The fault of a turned arc: the same one, in the turned plane where it names a plane. -/
def ArcFault.turned : ArcFault → ArcFault
  | missingCenter plane => missingCenter plane.turned
  | other => other

/-! ## Points, planes and words -/

namespace Point

variable (point other : Point) (axis : Axis)

/-- A turned point has along the next axis what the point has along an axis. -/
@[simp] theorem along_turned : point.turned.along axis.next = point.along axis := by
  cases axis <;> rfl

/-- Coordinates that are carried to the next axis make the turned point. -/
theorem ofAxes_eq_turned {coordinate carried : Axis → Float}
    (same : ∀ axis, carried axis.next = coordinate axis) :
    ofAxes carried = (ofAxes coordinate).turned := by
  have x := same .x
  have y := same .y
  have z := same .z
  simp only [Axis.next] at x y z
  simp only [ofAxes, turned, x, y, z]

/-- Two axes have the same next axis only if they are one. -/
theorem next_eq_next_iff {axis other : Axis} : other.next = axis.next ↔ other = axis := by
  cases axis <;> cases other <;> decide

/-- Changing the next coordinate of the turned point turns the changed point. -/
theorem modify_turned (change : Float → Float) :
    point.turned.modify axis.next change = (point.modify axis change).turned := by
  apply ofAxes_eq_turned
  intro other
  simp only [along_turned, next_eq_next_iff]

/-- The displacement between turned points is the turned displacement. -/
theorem minus_turned : point.turned.minus other.turned = (point.minus other).turned := rfl

end Point

namespace Plane

variable (plane : Plane)

/-- The first axis of a turned plane is the next one. -/
@[simp] theorem first_turned : plane.turned.first = plane.first.next := by
  cases plane <;> rfl

/-- The second axis of a turned plane is the next one. -/
@[simp] theorem second_turned : plane.turned.second = plane.second.next := by
  cases plane <;> rfl

/-- The normal of a turned plane is the next axis. -/
@[simp] theorem normal_turned : plane.turned.normal = plane.normal.next := by
  cases plane <;> rfl

end Plane

namespace Parameters

variable (parameters : Parameters) (axis : Axis)

/-- The coordinate along the next axis is the one that stood along an axis. -/
@[simp] theorem turned_ofAxis :
    parameters.turned (.ofAxis axis.next) = parameters (.ofAxis axis) := by
  cases axis <;> rfl

/-- The distance to the center along the next axis is the one that stood along an axis. -/
@[simp] theorem turned_ofCenter :
    parameters.turned (.ofCenter axis.next) = parameters (.ofCenter axis) := by
  cases axis <;> rfl

/-- Turned values have a distance to a center if the values have one. -/
@[simp] theorem hasCenter_turned : parameters.turned.hasCenter = parameters.hasCenter := by
  have carried : parameters.turned.hasCenter =
      (parameters.has .k || parameters.has .i || parameters.has .j) := rfl
  rw [carried, hasCenter]
  cases parameters.has .i <;> cases parameters.has .j <;> cases parameters.has .k <;> rfl

end Parameters

/-- A word that selects no plane is the turned form of itself alone. -/
theorem Word.turned_eq_iff {word other : Word} (apart : word.plane? = none) :
    other.turned = word ↔ other = word := by
  have noXY : word ≠ g 17 := by
    rintro rfl
    cases apart
  have noZX : word ≠ g 18 := by
    rintro rfl
    cases apart
  have noYZ : word ≠ g 19 := by
    rintro rfl
    cases apart
  unfold turned
  by_cases xy : other = g 17
  · rw [if_pos xy, xy]
    exact iff_of_false noYZ.symm noXY.symm
  · rw [if_neg xy]
    by_cases yz : other = g 19
    · rw [if_pos yz, yz]
      exact iff_of_false noZX.symm noYZ.symm
    · rw [if_neg yz]
      by_cases zx : other = g 18
      · rw [if_pos zx, zx]
        exact iff_of_false noXY.symm noZX.symm
      · rw [if_neg zx]

/-- A turned block has a word that selects no plane if the block has it. -/
theorem Block.hasWord_turned (block : Block) {word : Word} (apart : word.plane? = none) :
    block.turned.hasWord word = block.hasWord word := by
  unfold hasWord
  have words : block.turned.words = block.words.map Word.turned := rfl
  rw [words, Bool.eq_iff_iff, List.contains_iff_mem, List.contains_iff_mem, List.mem_map]
  constructor
  · rintro ⟨other, member, same⟩
    rwa [← (Word.turned_eq_iff apart).mp same]
  · intro member
    exact ⟨word, member, (Word.turned_eq_iff apart).mpr rfl⟩

/-! ## Circles of arcs -/

namespace ArcEnds

variable (ends : ArcEnds)

/-- Moving a turned point along the axes of the turned plane turns the moved point. -/
theorem shift_turned (point : Point) (plane : Plane) (first second : Float) :
    shift point.turned plane.turned first second = (shift point plane first second).turned := by
  unfold shift
  rw [Plane.first_turned, Plane.second_turned, Point.modify_turned, Point.modify_turned]

/-- The circle of a radius turns with the arc. -/
theorem circleOfRadius_turned (radius : Float) :
    ends.turned.circleOfRadius radius =
      ((ends.circleOfRadius radius).map Circle.turned).mapError ArcFault.turned := by
  unfold circleOfRadius turned
  simp only [Plane.first_turned, Plane.second_turned, Point.along_turned]
  split
  · rfl
  · split
    · rfl
    · simp only [shift_turned]
      rfl

/-- The circle of a center turns with the arc. -/
theorem circleOfCenter_turned (first second : Option Float) :
    ends.turned.circleOfCenter first second =
      ((ends.circleOfCenter first second).map Circle.turned).mapError ArcFault.turned := by
  unfold circleOfCenter turned
  simp only [Plane.first_turned, Plane.second_turned, Point.along_turned, shift_turned]
  split
  · rfl
  · split
    · rfl
    · split <;> rfl

/-- The circle that the words of a line give an arc turns with the arc. -/
theorem circle_turned (parameters : Parameters) (unit : LengthUnit) :
    ends.turned.circle parameters.turned unit =
      ((ends.circle parameters unit).map Circle.turned).mapError ArcFault.turned := by
  have radius : parameters.turned .r = parameters .r := rfl
  have plane : ends.turned.plane = ends.plane.turned := rfl
  unfold circle
  rw [radius, Parameters.hasCenter_turned]
  cases parameters .r with
  | some value =>
    dsimp only
    split
    · rfl
    · exact ends.circleOfRadius_turned _
  | none =>
    dsimp only
    split
    · rw [plane, Plane.first_turned, Plane.second_turned, Parameters.turned_ofCenter,
        Parameters.turned_ofCenter]
      exact ends.circleOfCenter_turned _ _
    · rfl

end ArcEnds

/-! ## Commands -/

namespace LengthUnit

/-- A turned point is shown in a unit as the point is. -/
theorem pointOfMillimetres_turned (unit : LengthUnit) (point : Point) :
    unit.pointOfMillimetres point.turned = (unit.pointOfMillimetres point).turned := by
  cases unit <;> rfl

end LengthUnit

namespace Command

variable (command : Command) (state : ModalState)

/-- Along the next axis a turned command moves to where the command moves along an axis. -/
theorem targetAlong_turned (axis : Axis) :
    command.turned.targetAlong state.turned axis.next = command.targetAlong state axis := by
  have machine : command.turned.inMachineCoordinates = command.inMachineCoordinates :=
    command.block.hasWord_turned (by decide)
  have value : command.turned.parameters (.ofAxis axis.next) =
      command.parameters (.ofAxis axis) := command.block.parameters.turned_ofAxis axis
  have position : state.turned.position.along axis.next = state.position.along axis :=
    state.position.along_turned axis
  have offset : state.turned.offset.along axis.next = state.offset.along axis :=
    state.offset.along_turned axis
  unfold targetAlong
  rw [machine, value, position, offset]
  rfl

/-- A turned command moves to the turned point. -/
theorem target_turned : command.turned.target state.turned = (command.target state).turned :=
  Point.ofAxes_eq_turned fun axis => command.targetAlong_turned state axis

/-- A turned command makes the turned segment of a motion. -/
theorem segment?_turned (motion : Motion) :
    command.turned.segment? state.turned motion =
      ((command.segment? state motion).map Segment.turned).mapError ArcFault.turned := by
  have straight : command.turned.straightSegment state.turned motion =
      (command.straightSegment state motion).turned := by
    unfold straightSegment
    rw [target_turned, show state.turned.unit = state.unit from rfl,
      show state.turned.position = state.position.turned from rfl,
      LengthUnit.pointOfMillimetres_turned, LengthUnit.pointOfMillimetres_turned]
    rfl
  have ends : (⟨state.turned.position, command.turned.target state.turned, state.turned.plane,
      motion == .counterclockwise⟩ : ArcEnds) =
        ArcEnds.turned ⟨state.position, command.target state, state.plane,
          motion == .counterclockwise⟩ := by
    rw [target_turned]
    rfl
  have parameters : command.turned.parameters = command.parameters.turned := rfl
  have unit : state.turned.unit = state.unit := rfl
  have position : state.turned.position = state.position.turned := rfl
  unfold segment?
  dsimp only
  rw [straight, ends, parameters, unit, position, ArcEnds.circle_turned]
  split
  · cases ArcEnds.circle ⟨state.position, command.target state, state.plane,
        motion == .counterclockwise⟩ command.parameters state.unit with
    | error fault => rfl
    | ok circle =>
      have center : circle.turned.center = circle.center.turned := rfl
      have found : ((Except.ok circle).map Circle.turned).mapError ArcFault.turned =
          .ok circle.turned := rfl
      rw [found]
      dsimp only
      rw [center, Point.minus_turned, LengthUnit.pointOfMillimetres_turned,
        LengthUnit.pointOfMillimetres_turned]
      rfl
  · rfl

/-- A turned command about stored positions leaves the turned offset. -/
theorem newOffset_turned :
    command.turned.newOffset state.turned = (command.newOffset state).turned := by
  have shifted : command.turned.shiftedOffset state.turned =
      (command.shiftedOffset state).turned := by
    apply Point.ofAxes_eq_turned
    intro axis
    have value : command.turned.parameters (.ofAxis axis.next) =
        command.parameters (.ofAxis axis) := command.block.parameters.turned_ofAxis axis
    have position : state.turned.position.along axis.next = state.position.along axis :=
      state.position.along_turned axis
    have offset : state.turned.offset.along axis.next = state.offset.along axis :=
      state.offset.along_turned axis
    rw [value, position, offset]
    rfl
  have clear : command.turned.block.hasWord (.gSub 92 1) = command.block.hasWord (.gSub 92 1) :=
    command.block.hasWord_turned (by decide)
  have set : command.turned.block.hasWord (.g 92) = command.block.hasWord (.g 92) :=
    command.block.hasWord_turned (by decide)
  unfold newOffset
  rw [clear, set, shifted]
  split
  · rfl
  · split <;> rfl

/-- A turned command under a turned state makes the turned segment and leaves the turned state. -/
theorem perform_turned :
    command.turned.perform state.turned =
      ((command.perform state).map fun (segment, next) =>
        (segment.map Segment.turned, next.turned)).mapError ArcFault.turned := by
  have kind : command.turned.kind = command.kind := rfl
  have motion : command.turned.motion = command.motion := rfl
  unfold perform
  rw [kind, motion, newOffset_turned]
  split
  · rw [segment?_turned, target_turned]
    cases command.segment? state _ <;> rfl
  · rfl
  · rfl

end Command

/-! ## Arcs and chords -/

namespace Segment

variable (arc : Segment)

/-- A turned arc sweeps the same angle. -/
theorem sweep_turned : arc.turned.sweep = arc.sweep := by
  unfold sweep turned
  simp only [Plane.first_turned, Plane.second_turned, Point.along_turned]

/-- A turned arc has the same radius and the same start, seen from its center. -/
theorem circle_turned :
    arc.turned.chordRadius = arc.chordRadius ∧ arc.turned.startAngle = arc.startAngle := by
  unfold chordRadius startAngle turned
  simp only [Plane.first_turned, Plane.second_turned, Point.along_turned]
  trivial

/-- The points of a turned arc are the turned points of the arc. -/
theorem pointAt_turned (radius angle part : Float) :
    arc.turned.pointAt radius angle part = (arc.pointAt radius angle part).turned := by
  unfold pointAt turned
  simp only [Plane.first_turned, Plane.second_turned, Plane.normal_turned, Point.along_turned]
  apply Point.ofAxes_eq_turned
  intro axis
  simp only [Point.next_eq_next_iff]

/-- The chords of a turned arc end at the turned ends of the chords. -/
theorem chordEnds_turned (count : Nat) :
    arc.turned.chordEnds count = (arc.chordEnds count).map Point.turned := by
  unfold chordEnds
  simp only [circle_turned, sweep_turned, pointAt_turned, List.map_append, List.map_map,
    List.map_cons, List.map_nil]
  rfl

/-- A turned arc has the turned chords, or too many as the arc has. -/
theorem chords?_turned (tolerance : Float) :
    arc.turned.chords? tolerance = (arc.chords? tolerance).map (List.map turned) := by
  unfold chords?
  rw [arc.circle_turned.1, arc.sweep_turned]
  cases chordCount? arc.chordRadius arc.sweep tolerance with
  | none => rfl
  | some count =>
    have start : arc.turned.start = arc.start.turned := rfl
    have chord (start finish : Point) :
        arc.turned.chord start.turned finish.turned = (arc.chord start finish).turned := rfl
    simp only [chordEnds_turned, start, Except.map, ← List.map_cons, List.zipWith_map, chord,
      List.map_zipWith]

end Segment

/-- A turned path has the turned path without arcs. -/
theorem expandEach_turned (tolerance : Float) (segments : List Segment) :
    expandEach tolerance (segments.map Segment.turned) =
      (expandEach tolerance segments).map (List.map Segment.turned) := by
  induction segments with
  | nil => rfl
  | cons segment others ih =>
    have arc : segment.turned.isArc = segment.isArc := rfl
    rw [List.map_cons, expandEach, expandEach, arc, ih, Segment.chords?_turned]
    cases segment.isArc with
    | true =>
      cases segment.chords? tolerance with
      | error fault => rfl
      | ok chords =>
        cases expandEach tolerance others with
        | error fault => rfl
        | ok rest => simp [Except.map]
    | false =>
      cases expandEach tolerance others with
      | error fault => rfl
      | ok rest => rfl

/-- Turn the axes once around. Every command, turned, under any state, turned, makes exactly the
turned segment and leaves exactly the turned state, and where the command is refused the turned one
is refused for the same reason. Every turned arc sweeps the same angle and gives way to exactly the
turned chords, and so does every arc of a turned path. -/
theorem turned_axes_are_alike :
    (∀ (command : Command) (state : ModalState),
        command.turned.perform state.turned =
          ((command.perform state).map fun (segment, next) =>
            (segment.map Segment.turned, next.turned)).mapError ArcFault.turned) ∧
      (∀ (arc : Segment) (tolerance : Float),
        arc.turned.sweep = arc.sweep ∧
          arc.turned.chords? tolerance =
            (arc.chords? tolerance).map (List.map Segment.turned)) ∧
        ∀ (segments : List Segment) (tolerance : Float),
          expandArcs tolerance (segments.map Segment.turned) =
            (expandArcs tolerance segments).map (List.map Segment.turned) := by
  refine ⟨Command.perform_turned, fun arc tolerance => ?_, fun segments tolerance => ?_⟩
  · exact ⟨arc.sweep_turned, arc.chords?_turned tolerance⟩
  · unfold expandArcs
    split
    · rfl
    · exact expandEach_turned tolerance segments

end GcodeSender
