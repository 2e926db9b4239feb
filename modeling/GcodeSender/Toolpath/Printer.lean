import GcodeSender.Decimal.Fixed
import GcodeSender.Gcode.Word
import GcodeSender.Toolpath.Arc
import GcodeSender.Toolpath.Segment

/-!
# Paths as G-code

A path is written as lines in absolute coordinates, one line a move. The unit, the plane, the
feed and the spindle speed are written only where they change. The main statement is that a
path without moves has no lines.
-/
namespace GcodeSender

namespace Motion

/-- The G word of a motion. -/
def name : Motion → Bytes
  | rapid => ascii "G0"
  | linear => ascii "G1"
  | clockwise => ascii "G2"
  | counterclockwise => ascii "G3"

end Motion

namespace LengthUnit

/-- The G word of a unit. -/
def name : LengthUnit → Bytes
  | mm => ascii "G21"
  | inch => ascii "G20"

end LengthUnit

/-- What the lines written so far left in force. -/
structure PrintedModes where
  /-- The unit, if one is written. -/
  unit : Option LengthUnit := none
  /-- The plane, if one is written. -/
  plane : Option Plane := none
  /-- The feed in the present unit, if one is written. -/
  feed : Option Float := none
  /-- The spindle speed. -/
  spindleSpeed : Float := 0
deriving DecidableEq

namespace Segment

/-- A blank, a letter and a number. -/
def wordText (letter : Letter) (number : Bytes) : Bytes :=
  Byte.space :: letter.byte :: number

/-- The words of the end of a segment, with three places. -/
def finishText (segment : Segment) : Bytes :=
  Axis.all.flatMap fun axis =>
    wordText (.ofAxis axis) (Decimal.fixed (segment.finish.along axis) 3)

/-- The words of the center of an arc, with four places. -/
def centerText (segment : Segment) : Bytes :=
  if segment.isArc then
    [segment.plane.first, segment.plane.second].flatMap fun axis =>
      wordText (.ofCenter axis) (Decimal.fixed (segment.centerOffset.along axis) 4)
  else []

/-- The feed of a segment has to be written: it is no rapid move, its feed is positive and
another one is in force. -/
def writesFeed (segment : Segment) (modes : PrintedModes) : Bool :=
  segment.motion != .rapid && decide (0.0 < segment.feed) &&
    modes.feed.all (segment.feed != ·)

/-- The spindle speed of a segment has to be written: another one is in force. -/
def writesSpindleSpeed (segment : Segment) (modes : PrintedModes) : Bool :=
  segment.spindleSpeed != modes.spindleSpeed

/-- The feed word of a segment. -/
def feedText (segment : Segment) : Bytes :=
  wordText .f (Decimal.fixedTrimmed segment.feed 3)

/-- The spindle word of a segment. -/
def spindleText (segment : Segment) : Bytes :=
  wordText .s (Decimal.fixedTrimmed segment.spindleSpeed 1)

/-- The line of a move under the modes in force. -/
def moveText (segment : Segment) (modes : PrintedModes) : Bytes :=
  segment.motion.name ++ segment.finishText ++ segment.centerText ++
    (if segment.writesFeed modes then segment.feedText else []) ++
    (if segment.writesSpindleSpeed modes then segment.spindleText else [])

/-- The unit line that a segment needs, and the modes after it. A new unit makes the feed
unknown. -/
def unitLine (segment : Segment) (modes : PrintedModes) : List Bytes × PrintedModes :=
  if modes.unit = some segment.unit then ([], modes)
  else ([segment.unit.name], { modes with unit := some segment.unit, feed := none })

/-- The plane line that a segment needs, and the modes after it. -/
def planeLine (segment : Segment) (modes : PrintedModes) : List Bytes × PrintedModes :=
  if segment.isArc && modes.plane != some segment.plane then
    ([segment.plane.name], { modes with plane := some segment.plane })
  else ([], modes)

/-- The lines of a segment, and the modes after them. -/
def print (segment : Segment) (modes : PrintedModes) : List Bytes × PrintedModes :=
  let (units, modes) := segment.unitLine modes
  let (planes, modes) := segment.planeLine modes
  let next :=
    { modes with
      feed := if segment.writesFeed modes then some segment.feed else modes.feed
      spindleSpeed :=
        if segment.writesSpindleSpeed modes then segment.spindleSpeed else modes.spindleSpeed }
  (units ++ planes ++ [segment.moveText modes], next)

end Segment

/-- The lines of a path under the modes in force. -/
def printFrom (modes : PrintedModes) : List Segment → List Bytes
  | [] => []
  | segment :: others =>
    let (lines, modes) := segment.print modes
    lines ++ printFrom modes others

/-- The lines of a path. -/
def printPath (segments : List Segment) : List Bytes :=
  if segments.isEmpty then [] else ascii "G90" :: printFrom {} segments

/-- A path without moves has no lines. -/
@[simp] theorem printPath_nil : printPath [] = [] := rfl

end GcodeSender
