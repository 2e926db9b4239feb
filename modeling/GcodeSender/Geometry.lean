import GcodeSender.Dyadic

/-!
# Points, planes and units

A point has three coordinates. An arc lies in one of three planes, each with a first and a
second axis and a normal that completes a right-handed frame; turning the axes once around
(X to Y, Y to Z, Z to X) turns the planes with them. Lengths are held in millimetres and shown
in the active unit.
-/
namespace GcodeSender

/-- One of the three machine axes. -/
inductive Axis where
  | x
  | y
  | z
deriving DecidableEq, Repr

namespace Axis

/-- The three axes in order. -/
def all : List Axis := [x, y, z]

/-- The place of an axis among the three. -/
def index : Axis → Nat
  | x => 0
  | y => 1
  | z => 2

/-- The axis that follows in the cycle X, Y, Z. -/
def next : Axis → Axis
  | x => y
  | y => z
  | z => x

end Axis

/-- A point or a displacement. -/
structure Point where
  /-- Coordinate along X. -/
  x : Float
  /-- Coordinate along Y. -/
  y : Float
  /-- Coordinate along Z. -/
  z : Float
deriving DecidableEq

namespace Point

/-- The origin. -/
def origin : Point := ⟨0, 0, 0⟩

/-- The coordinate along an axis. -/
def along (point : Point) : Axis → Float
  | .x => point.x
  | .y => point.y
  | .z => point.z

/-- The point whose coordinates a function gives. -/
def ofAxes (coordinate : Axis → Float) : Point :=
  ⟨coordinate .x, coordinate .y, coordinate .z⟩

/-- The point with one coordinate changed. -/
def modify (point : Point) (axis : Axis) (change : Float → Float) : Point :=
  ofAxes fun other => if other = axis then change (point.along other) else point.along other

/-- The displacement from one point to another. -/
def minus (point other : Point) : Point :=
  ofAxes fun axis => point.along axis - other.along axis

/-- Every coordinate multiplied by a factor. -/
def scale (point : Point) (factor : Float) : Point :=
  ofAxes fun axis => point.along axis * factor

/-- Every coordinate divided by a divisor. -/
def divide (point : Point) (divisor : Float) : Point :=
  ofAxes fun axis => point.along axis / divisor

/-- The length of a displacement; its squares are added in the order of the axes. -/
def norm (point : Point) : Float :=
  Float.sqrt (point.x * point.x + point.y * point.y + point.z * point.z)

@[simp] theorem along_ofAxes (coordinate : Axis → Float) (axis : Axis) :
    (ofAxes coordinate).along axis = coordinate axis := by
  cases axis <;> rfl

@[simp] theorem ofAxes_along (point : Point) : ofAxes point.along = point := rfl

/-- Points that agree along every axis are equal. -/
theorem ext_along {point other : Point} (same : ∀ axis, point.along axis = other.along axis) :
    point = other := by
  rw [← ofAxes_along point, ← ofAxes_along other, funext same]

end Point

/-- The plane that arcs lie in. -/
inductive Plane where
  /-- The plane of X and Y, with normal Z. -/
  | xy
  /-- The plane of Z and X, with normal Y. -/
  | zx
  /-- The plane of Y and Z, with normal X. -/
  | yz
deriving DecidableEq, Repr

namespace Plane

/-- The first axis of a plane. -/
def first : Plane → Axis
  | xy => .x
  | zx => .z
  | yz => .y

/-- The second axis of a plane. -/
def second : Plane → Axis
  | xy => .y
  | zx => .x
  | yz => .z

/-- The axis that stands on a plane. -/
def normal : Plane → Axis
  | xy => .z
  | zx => .y
  | yz => .x

end Plane

/-- The unit of length that a line is written in. -/
inductive LengthUnit where
  /-- Millimetres. -/
  | mm
  /-- Inches. -/
  | inch
deriving DecidableEq, Repr

namespace LengthUnit

/-- Millimetres in one inch. -/
def mmPerInch : Float := 25.4

/-- A length in this unit as millimetres. -/
def toMillimetres (unit : LengthUnit) (length : Float) : Float :=
  match unit with
  | mm => length
  | inch => length * mmPerInch

/-- A length in millimetres in this unit. -/
def ofMillimetres (unit : LengthUnit) (length : Float) : Float :=
  match unit with
  | mm => length
  | inch => length / mmPerInch

/-- A point in millimetres in this unit. -/
def pointOfMillimetres (unit : LengthUnit) (point : Point) : Point :=
  match unit with
  | mm => point
  | inch => point.divide mmPerInch

end LengthUnit

/-- Points closer than this coincide, in millimetres. -/
def coincidenceDistance : Float := 1e-4

end GcodeSender
