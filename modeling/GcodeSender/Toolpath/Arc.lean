import GcodeSender.Decimal.Significant
import GcodeSender.Gcode.Word

/-!
# Centers of arcs

An arc names its center by its distance from the start along the axes of its plane, or by a
radius. A radius leaves two centers; its sign and the direction of the arc choose one. A center
named by distances must lie as far from the end as from the start, within a tolerance.
-/
namespace GcodeSender

/-- Why an arc cannot be made. -/
inductive ArcFault where
  /-- A radius and distances to the center. -/
  | radiusAndCenter
  /-- Neither a radius nor a distance to the center. -/
  | noCenter
  /-- A radius where the ends coincide. -/
  | coincidentEnds
  /-- The ends are farther apart than twice the radius. -/
  | radiusTooSmall (radius halfChord : Float)
  /-- No distance to the center along an axis of the plane. -/
  | missingCenter (plane : Plane)
  /-- The center is the start. -/
  | zeroRadius
  /-- The end is not as far from the center as the start. -/
  | radiiDiffer (startRadius endRadius : Float)
deriving DecidableEq

/-- The G word of a plane. -/
def Plane.name : Plane → Bytes
  | xy => ascii "G17"
  | zx => ascii "G18"
  | yz => ascii "G19"

/-- The words of a fault. -/
def ArcFault.message : ArcFault → Bytes
  | radiusAndCenter => ascii "Arc specifies both R and IJK"
  | noCenter => ascii "Arc requires either R or IJK center words"
  | coincidentEnds => ascii "Radius format arc requires distinct start and end points"
  | radiusTooSmall radius halfChord =>
    ascii "Arc radius " ++ Decimal.brief radius ++
      ascii " mm is smaller than half the chord length " ++ Decimal.brief halfChord ++ ascii " mm"
  | missingCenter plane =>
    ascii "Arc is missing " ++ [(Letter.ofCenter plane.first).byte] ++ ascii "/" ++
      [(Letter.ofCenter plane.second).byte] ++ ascii " offsets for plane " ++ plane.name
  | zeroRadius => ascii "Arc radius is zero"
  | radiiDiffer startRadius endRadius =>
    ascii "Arc end point is not on the arc: start radius " ++ Decimal.brief startRadius ++
      ascii " mm, end radius " ++ Decimal.brief endRadius ++ ascii " mm"

/-- The circle that an arc lies on. -/
structure Circle where
  /-- Its center. -/
  center : Point
  /-- Its radius. -/
  radius : Float
deriving DecidableEq

/-- The ends of an arc in millimetres, its plane and its direction. -/
structure ArcEnds where
  /-- Where it starts. -/
  start : Point
  /-- Where it ends. -/
  finish : Point
  /-- The plane it lies in. -/
  plane : Plane
  /-- The arc turns against the clock. -/
  counterclockwise : Bool
deriving DecidableEq

namespace ArcEnds

/-- A point moved along the two axes of a plane. -/
def shift (point : Point) (plane : Plane) (first second : Float) : Point :=
  (point.modify plane.first (· + first)).modify plane.second (· + second)

/-- Radii that differ by no more than this agree, in millimetres. -/
def radiusSlack : Float := 0.005

/-- Radii that differ by more than this never agree, in millimetres. -/
def radiusLimit : Float := 0.5

/-- Radii that differ by more than this part of the radius do not agree. -/
def radiusRelativeLimit : Float := 0.001

/-- The circle of a signed radius in millimetres. A negative radius asks for the longer of the
two arcs. -/
def circleOfRadius (ends : ArcEnds) (radius : Float) : Except ArcFault Circle :=
  let plane := ends.plane
  let x := ends.finish.along plane.first - ends.start.along plane.first
  let y := ends.finish.along plane.second - ends.start.along plane.second
  let chord := hypotenuse x y
  if chord < coincidenceDistance then .error .coincidentEnds
  else
    -- Four times the squared distance from the middle of the chord to the center.
    let square := 4.0 * radius * radius - x * x - y * y
    if square < 0.0 && !(-1e-9 * 4.0 * radius * radius < square) then
      .error (.radiusTooSmall radius.abs (chord / 2.0))
    else
      -- An exact half circle may land a rounding error below zero.
      let square := if square < 0.0 then 0.0 else square
      let height := -square.sqrt / chord
      let height := if ends.counterclockwise then -height else height
      let height := if radius < 0.0 then -height else height
      let radius := if radius < 0.0 then -radius else radius
      .ok ⟨shift ends.start plane (0.5 * (x - y * height)) (0.5 * (y + x * height)), radius⟩

/-- The circle whose center lies at distances in millimetres from the start. An absent distance
is zero, but one of the two must be given. -/
def circleOfCenter (ends : ArcEnds) (first second : Option Float) : Except ArcFault Circle :=
  let plane := ends.plane
  if first.isNone && second.isNone then .error (.missingCenter plane)
  else
    let toFirst := first.getD 0.0
    let toSecond := second.getD 0.0
    let center := shift ends.start plane toFirst toSecond
    let startRadius := hypotenuse toFirst toSecond
    if startRadius < coincidenceDistance then .error .zeroRadius
    else
      let endRadius := hypotenuse (ends.finish.along plane.first - center.along plane.first)
        (ends.finish.along plane.second - center.along plane.second)
      let difference := (endRadius - startRadius).abs
      if radiusSlack < difference &&
          (radiusLimit < difference || radiusRelativeLimit * startRadius < difference) then
        .error (.radiiDiffer startRadius endRadius)
      else .ok ⟨center, startRadius⟩

/-- The circle that the words of a line, in a unit, give an arc. -/
def circle (ends : ArcEnds) (parameters : Parameters) (unit : LengthUnit) :
    Except ArcFault Circle :=
  match parameters .r with
  | some radius =>
    if parameters.hasCenter then .error .radiusAndCenter
    else ends.circleOfRadius (unit.toMillimetres radius)
  | none =>
    if parameters.hasCenter then
      let distance (axis : Axis) : Option Float :=
        (parameters (.ofCenter axis)).map unit.toMillimetres
      ends.circleOfCenter (distance ends.plane.first) (distance ends.plane.second)
    else .error .noCenter

end ArcEnds

end GcodeSender
