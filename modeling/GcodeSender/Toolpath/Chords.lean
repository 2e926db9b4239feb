import GcodeSender.Decimal.Significant
import GcodeSender.Toolpath.Segment

/-!
# Chords of arcs

An arc is replaced by straight chords whose distance from it stays within a tolerance. The
last chord ends exactly where the arc ends, so the path stays continuous. The main statements
are that no chord is an arc and that an arc gives exactly as many chords as were counted.
-/
namespace GcodeSender

/-- Why a path cannot be prepared. -/
inductive PathFault where
  /-- The settings ask for chords without a positive tolerance. -/
  | invalidSettings
  /-- The tolerance is zero or negative. -/
  | toleranceNotPositive
  /-- The arc of a line needs more chords than are allowed. -/
  | tooManyChords (line : Nat) (tolerance : Float)
deriving DecidableEq

/-- The most chords that one arc may have. -/
def maxChords : Nat := 1000000

/-- The words of a fault. -/
def PathFault.message : PathFault → Bytes
  | invalidSettings => ascii "Invalid preprocessor configuration"
  | toleranceNotPositive => ascii "Arc tolerance must be positive"
  | tooManyChords line tolerance =>
    ascii "Arc on line " ++ Decimal.digits line ++ ascii " needs more than " ++
      Decimal.digits maxChords ++ ascii " chords at tolerance " ++ Decimal.brief tolerance

/-- The number of chords for an arc of a radius and an angle, or nothing if it is above the
allowed one. A chord over the angle `a` stays `r (1 - cos (a / 2))` from the arc at most, so
the widest angle of a chord is twice the arc cosine of `1 - tolerance / r`. -/
def chordCount? (radius sweep tolerance : Float) : Option Nat :=
  if radius ≤ 0.0 || tolerance ≤ 0.0 then some 1
  else
    let cosine := 1.0 - tolerance / radius
    let cosine := if cosine < 1.0 then cosine else 1.0
    let cosine := if -1.0 < cosine then cosine else -1.0
    let widest := 2.0 * cosine.acos
    if widest ≤ 0.0 then none
    else
      let count := (sweep.abs / widest).ceil
      if count ≤ Float.ofNat maxChords then some (max 1 count.toUInt64.toNat) else none

namespace Segment

/-- The radius of an arc, measured from its start if it is not given. -/
def chordRadius (arc : Segment) : Float :=
  if arc.radius ≤ 0.0 then
    hypotenuse (arc.start.along arc.plane.first - arc.center.along arc.plane.first)
      (arc.start.along arc.plane.second - arc.center.along arc.plane.second)
  else arc.radius

/-- The angle at which an arc starts, seen from its center. -/
def startAngle (arc : Segment) : Float :=
  Angle.ofVector (arc.start.along arc.plane.second - arc.center.along arc.plane.second)
    (arc.start.along arc.plane.first - arc.center.along arc.plane.first)

/-- The point of an arc at an angle seen from its center, after a part of its rise. -/
def pointAt (arc : Segment) (radius angle part : Float) : Point :=
  let plane := arc.plane
  let rise := arc.finish.along plane.normal - arc.start.along plane.normal
  .ofAxes fun axis =>
    if axis = plane.first then arc.center.along plane.first + radius * angle.cos
    else if axis = plane.second then arc.center.along plane.second + radius * angle.sin
    else arc.start.along plane.normal + rise * part

/-- The ends of so many chords of an arc, in order. The last is the end of the arc itself. -/
def chordEnds (arc : Segment) (count : Nat) : List Point :=
  let radius := arc.chordRadius
  let sweep := arc.sweep
  let startAngle := arc.startAngle
  (List.range (count - 1)).map (fun i =>
      let part := Float.ofNat (i + 1) / Float.ofNat count
      arc.pointAt radius (startAngle + sweep * part) part) ++ [arc.finish]

/-- A straight piece of an arc between two points. It keeps the arc's feed, speed, unit, plane
and place in the program. -/
def chord (arc : Segment) (start finish : Point) : Segment :=
  { arc with
    motion := .linear
    start := start
    finish := finish
    center := .origin
    centerOffset := .origin
    radius := 0 }

/-- The chords of an arc. -/
def chords? (arc : Segment) (tolerance : Float) : Except PathFault (List Segment) :=
  match chordCount? arc.chordRadius arc.sweep tolerance with
  | none => .error (.tooManyChords arc.sourceLine tolerance)
  | some count =>
    let ends := arc.chordEnds count
    .ok (List.zipWith arc.chord (arc.start :: ends) ends)

/-- A chord is straight. -/
@[simp] theorem isArc_chord (arc : Segment) (start finish : Point) :
    (arc.chord start finish).isArc = false := rfl

/-- At least one chord is counted. -/
theorem chordCount?_pos {radius sweep tolerance : Float} {count : Nat}
    (counted : chordCount? radius sweep tolerance = some count) : 0 < count := by
  unfold chordCount? at counted
  dsimp only at counted
  repeat' split at counted
  all_goals first
    | (simp at counted; done)
    | (simp only [Option.some.injEq] at counted; omega)

/-- There are as many ends of chords as chords were counted. -/
theorem length_chordEnds (arc : Segment) {count : Nat} (positive : 0 < count) :
    (arc.chordEnds count).length = count := by
  simp [chordEnds]
  omega

end Segment

/-- A path in which every arc is replaced by its chords. -/
def expandEach (tolerance : Float) : List Segment → Except PathFault (List Segment)
  | [] => .ok []
  | segment :: others =>
    if segment.isArc then
      match segment.chords? tolerance with
      | .error fault => .error fault
      | .ok chords =>
        match expandEach tolerance others with
        | .error fault => .error fault
        | .ok rest => .ok (chords ++ rest)
    else
      match expandEach tolerance others with
      | .error fault => .error fault
      | .ok rest => .ok (segment :: rest)

/-- A path without arcs, within a tolerance that must be positive. -/
def expandArcs (tolerance : Float) (segments : List Segment) : Except PathFault (List Segment) :=
  if tolerance ≤ 0.0 then .error .toleranceNotPositive else expandEach tolerance segments

end GcodeSender
