import GcodeSender.Geometry

/-!
# The modal state

What a line leaves in force for the lines after it. Positions are in millimetres whatever the
active unit is; feed and spindle speed are kept as they were written.
-/
namespace GcodeSender

/-- A kind of motion. -/
inductive Motion where
  /-- As fast as the machine goes (G0). -/
  | rapid
  /-- A straight line at the feed rate (G1). -/
  | linear
  /-- An arc with the clock, seen against the normal of its plane (G2). -/
  | clockwise
  /-- An arc against the clock (G3). -/
  | counterclockwise
deriving DecidableEq, Repr

/-- A motion is an arc. -/
def Motion.isArc : Motion → Bool
  | .clockwise | .counterclockwise => true
  | .rapid | .linear => false

/-- How coordinates are meant. -/
inductive DistanceMode where
  /-- From the origin (G90). -/
  | absolute
  /-- From the present position (G91). -/
  | incremental
deriving DecidableEq, Repr

/-- How a feed word is meant. -/
inductive FeedMode where
  /-- Length units in a minute (G94). -/
  | perMinute
  /-- Moves in a minute (G93). -/
  | inverseTime
deriving DecidableEq, Repr

/-- The work coordinate systems. -/
inductive CoordinateSystem where
  | g54
  | g55
  | g56
  | g57
  | g58
  | g59
deriving DecidableEq, Repr

/-- What the spindle does. -/
inductive Spindle where
  | off
  | clockwise
  | counterclockwise
deriving DecidableEq, Repr

/-- Which coolants run. -/
structure Coolant where
  /-- Mist coolant (M7). -/
  mist : Bool := false
  /-- Flood coolant (M8). -/
  flood : Bool := false
deriving DecidableEq, Repr

namespace Coolant

/-- No coolant runs. -/
def off : Coolant := ⟨false, false⟩

/-- No coolant runs in a state. -/
def isOff (coolant : Coolant) : Bool := !coolant.mist && !coolant.flood

end Coolant

/-- The modal state between two lines of a program. -/
structure ModalState where
  /-- How coordinates are meant. -/
  distance : DistanceMode := .absolute
  /-- The active unit. -/
  unit : LengthUnit := .mm
  /-- The plane of arcs. -/
  plane : Plane := .xy
  /-- How a feed word is meant. -/
  feedMode : FeedMode := .perMinute
  /-- The active work coordinate system. -/
  coordinateSystem : CoordinateSystem := .g54
  /-- The motion that axis words alone ask for, until it is changed or cancelled. -/
  motion : Option Motion := none
  /-- Where the tool is, in millimetres. -/
  position : Point := .origin
  /-- What G92 added to the coordinates, in millimetres. -/
  offset : Point := .origin
  /-- The feed rate as written. -/
  feed : Float := 0
  /-- The spindle speed as written. -/
  spindleSpeed : Float := 0
  /-- What the spindle does. -/
  spindle : Spindle := .off
  /-- Which coolants run. -/
  coolant : Coolant := .off
  /-- The selected tool. -/
  tool : Int := 0
deriving DecidableEq

/-- The state after the end of a program: defaults are in force again, but the unit, the
offset, the feed, the speed, the tool and the position are kept. -/
def ModalState.afterProgramEnd (state : ModalState) : ModalState :=
  { state with
    distance := .absolute
    plane := .xy
    feedMode := .perMinute
    coordinateSystem := .g54
    motion := some .linear
    spindle := .off
    coolant := .off }

end GcodeSender
