import GcodeSender.Toolpath.Chords

/-!
# Preparing a path

A path may be given without arcs, in another unit and without rapid moves that go nowhere. The
main statements are that a conversion to the unit a path is already in changes nothing, and
that only rapid moves are dropped.
-/
namespace GcodeSender

namespace Segment

/-- The factor from one unit to another. -/
def unitFactor : LengthUnit → Float
  | .mm => LengthUnit.mmPerInch
  | .inch => 1.0 / LengthUnit.mmPerInch

/-- The segment in a unit. The spindle speed is no length and stays. -/
def convert (unit : LengthUnit) (segment : Segment) : Segment :=
  if segment.unit = unit then segment
  else
    let factor := unitFactor unit
    { segment with
      start := segment.start.scale factor
      finish := segment.finish.scale factor
      center := segment.center.scale factor
      centerOffset := segment.centerOffset.scale factor
      radius := segment.radius * factor
      feed := segment.feed * factor
      unit := unit }

/-- A rapid move that goes nowhere. -/
def isIdleRapid (segment : Segment) : Bool :=
  segment.motion == .rapid && (segment.finish.minus segment.start).norm < coincidenceDistance

/-- A converted segment is in the unit asked for. -/
@[simp] theorem unit_convert (unit : LengthUnit) (segment : Segment) :
    (segment.convert unit).unit = unit := by
  unfold convert
  split
  · assumption
  · rfl

/-- A segment that is in the unit asked for stays as it is. -/
theorem convert_of_unit_eq {unit : LengthUnit} {segment : Segment} (same : segment.unit = unit) :
    segment.convert unit = segment := by
  simp [convert, same]

end Segment

/-- A path in a unit. -/
def convertUnits (unit : LengthUnit) (segments : List Segment) : List Segment :=
  segments.map (·.convert unit)

/-- A path without the rapid moves that go nowhere. -/
def dropIdleRapids (segments : List Segment) : List Segment :=
  segments.filter fun segment => !segment.isIdleRapid

/-- Converting twice to a unit is converting once. -/
theorem convertUnits_idem (unit : LengthUnit) (segments : List Segment) :
    convertUnits unit (convertUnits unit segments) = convertUnits unit segments := by
  simp [convertUnits, Segment.convert_of_unit_eq]

/-- What is dropped is a rapid move. -/
theorem mem_dropIdleRapids_of_not_rapid {segments : List Segment} {segment : Segment}
    (member : segment ∈ segments) (moves : segment.motion ≠ .rapid) :
    segment ∈ dropIdleRapids segments := by
  simp [dropIdleRapids, Segment.isIdleRapid, member, moves]

/-- How a path is to be prepared. -/
structure Preparation where
  /-- Replace arcs by chords. -/
  expandsArcs : Bool := true
  /-- How far a chord may be from its arc, in the unit of the segment. -/
  tolerance : Float := 0.1
  /-- Convert to the target unit. -/
  convertsUnits : Bool := false
  /-- The target unit. -/
  unit : LengthUnit := .mm
  /-- Drop rapid moves that go nowhere. -/
  dropsIdleRapids : Bool := true

namespace Preparation

/-- A preparation with chords needs a positive tolerance. -/
def isValid (preparation : Preparation) : Bool :=
  !preparation.expandsArcs || decide (0.0 < preparation.tolerance)

/-- The path before idle rapid moves are dropped. -/
def reshape (preparation : Preparation) (segments : List Segment) :
    Except PathFault (List Segment) :=
  if !preparation.isValid then .error .invalidSettings
  else
    let expanded :=
      if preparation.expandsArcs then expandArcs preparation.tolerance segments else .ok segments
    expanded.map fun path =>
      if preparation.convertsUnits then convertUnits preparation.unit path else path

/-- The prepared path. -/
def apply (preparation : Preparation) (segments : List Segment) :
    Except PathFault (List Segment) :=
  (preparation.reshape segments).map fun path =>
    if preparation.dropsIdleRapids then dropIdleRapids path else path

end Preparation

/-- The line that reports how many rapid moves were dropped, if any were. -/
def droppedReport (before after : List Segment) : List Bytes :=
  let count := before.length - after.length
  if count = 0 then []
  else
    [ascii "Preprocessor: removed " ++ Decimal.digits count ++ ascii " redundant rapid moves"]

/-- The line that reports why a path cannot be prepared. -/
def PathFault.complaint (fault : PathFault) : Bytes :=
  ascii "Preprocessor Error: " ++ fault.message

end GcodeSender
