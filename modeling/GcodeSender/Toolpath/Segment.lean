import GcodeSender.Angle
import GcodeSender.Gcode.Modal

/-!
# Segments

A segment is one move between two points, in the unit it was written in. An arc also has a
center; the angle it turns through follows from its ends and its direction, and an arc whose
ends coincide is a full circle.
-/
namespace GcodeSender

/-- One move. -/
structure Segment where
  /-- The kind of motion. -/
  motion : Motion := .linear
  /-- Where it starts. -/
  start : Point := .origin
  /-- Where it ends. -/
  finish : Point := .origin
  /-- The feed rate in its unit. -/
  feed : Float := 0
  /-- The spindle speed. -/
  spindleSpeed : Float := 0
  /-- The unit of its coordinates, its feed and its radius. -/
  unit : LengthUnit := .mm
  /-- The plane of an arc. -/
  plane : Plane := .xy
  /-- The center of an arc. -/
  center : Point := .origin
  /-- The way from the start of an arc to its center. -/
  centerOffset : Point := .origin
  /-- The radius of an arc. -/
  radius : Float := 0
  /-- The number of the line it stands on. -/
  sourceLine : Nat := 0
  /-- The line number word of that line. -/
  lineNumber : Option Int := none
deriving DecidableEq

namespace Segment

/-- A segment is an arc. -/
def isArc (segment : Segment) : Bool := segment.motion.isArc

/-- Half a turn, in radians. -/
def halfTurn : Float := 3.14159265358979323846

/-- Ends of an arc closer than this angle coincide. -/
def coincidenceAngle : Float := 5e-7

/-- The angle that an arc turns through, in radians, negative with the clock. -/
def sweep (arc : Segment) : Float :=
  let first := arc.plane.first
  let second := arc.plane.second
  let startFirst := arc.start.along first - arc.center.along first
  let startSecond := arc.start.along second - arc.center.along second
  let finishFirst := arc.finish.along first - arc.center.along first
  let finishSecond := arc.finish.along second - arc.center.along second
  let angle := Angle.ofVector (startFirst * finishSecond - startSecond * finishFirst)
    (startFirst * finishFirst + startSecond * finishSecond)
  match arc.motion with
  | .clockwise => if -coincidenceAngle ≤ angle then angle - 2.0 * halfTurn else angle
  | _ => if angle ≤ coincidenceAngle then angle + 2.0 * halfTurn else angle

/-- The length of the path, with the rise of an arc along its normal. -/
def length (segment : Segment) : Float :=
  if segment.isArc then
    let turned := segment.sweep.abs * segment.radius
    let rise :=
      segment.finish.along segment.plane.normal - segment.start.along segment.plane.normal
    hypotenuse turned rise
  else (segment.finish.minus segment.start).norm

end Segment

end GcodeSender
