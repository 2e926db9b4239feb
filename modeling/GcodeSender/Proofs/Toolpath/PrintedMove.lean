import GcodeSender.Program
import GcodeSender.Proofs.Gcode.Words

/-!
# Printed moves as blocks

A printed move is the G word of its motion with entries: three coordinates, the center of an
arc, and the feed and the spindle speed if they are to be written. When its numbers are finite
and neither feed nor spindle speed stands below zero (`Segment.Printable`), every entry reads
back, the block of the line breaks no rule whatever motion is active, and it changes no mode but
the motion, the feed and the spindle speed. A unit or a plane stands alone on its line and
breaks no rule either.
-/
namespace GcodeSender

open Decimal (readBack?)

/-! ## Words and entries of a printed move -/

/-- The code of the G word of a motion. -/
def Motion.code : Motion → Nat
  | rapid => 0
  | linear => 1
  | clockwise => 2
  | counterclockwise => 3

/-- The code of the G word of a unit. -/
def LengthUnit.code : LengthUnit → Nat
  | mm => 21
  | inch => 20

/-- The code of the G word of a plane. -/
def Plane.code : Plane → Nat
  | xy => 17
  | zx => 18
  | yz => 19

theorem Motion.name_eq_text (motion : Motion) : motion.name = (Word.g motion.code).text := by
  cases motion <;> decide +kernel

theorem LengthUnit.name_eq_text (unit : LengthUnit) : unit.name = (Word.g unit.code).text := by
  cases unit <;> decide +kernel

theorem Plane.name_eq_text (plane : Plane) : plane.name = (Word.g plane.code).text := by
  cases plane <;> decide +kernel

namespace Segment

variable {segment : Segment} {modes : PrintedModes}

/-- The entries of the center of an arc. -/
def centerEntries (segment : Segment) : List Entry :=
  if segment.isArc then
    [segment.plane.first, segment.plane.second].map fun axis =>
      (.ofCenter axis, Decimal.fixed (segment.centerOffset.along axis) 4)
  else []

/-- The entries of a move under the modes in force. -/
def entries (segment : Segment) (modes : PrintedModes) : List Entry :=
  Axis.all.map (fun axis => (.ofAxis axis, Decimal.fixed (segment.finish.along axis) 3)) ++
    segment.centerEntries ++
    (if segment.writesFeed modes then [(.f, Decimal.fixedTrimmed segment.feed 3)] else []) ++
    (if segment.writesSpindleSpeed modes then
      [(.s, Decimal.fixedTrimmed segment.spindleSpeed 1)] else [])

/-- A move is written as its G word with its entries. -/
theorem moveText_eq (segment : Segment) (modes : PrintedModes) :
    segment.moveText modes =
      (Word.g segment.motion.code).text ++ Entry.texts (segment.entries modes) := by
  have center : segment.centerText = Entry.texts segment.centerEntries := by
    unfold centerText centerEntries
    split <;> rfl
  unfold moveText entries
  rw [Motion.name_eq_text, center]
  unfold Entry.texts
  rw [List.flatMap_append, List.flatMap_append, List.flatMap_append]
  split <;> split <;> simp [finishText, feedText, spindleText, Axis.all]

/-- The entries of a move have different letters. -/
theorem nodup_entries (segment : Segment) (modes : PrintedModes) :
    ((segment.entries modes).map Prod.fst).Nodup := by
  unfold entries centerEntries
  cases segment.isArc <;> cases segment.writesFeed modes <;>
    cases segment.writesSpindleSpeed modes <;> cases segment.plane <;>
    simp [Axis.all, Letter.ofAxis, Letter.ofCenter, Plane.first, Plane.second]

/-- Every axis has its entry. -/
theorem lookup_axis (segment : Segment) (modes : PrintedModes) (axis : Axis) :
    (segment.entries modes).lookup (.ofAxis axis) =
      some (Decimal.fixed (segment.finish.along axis) 3) := by
  cases axis <;> rfl

theorem lookup_feed (segment : Segment) (modes : PrintedModes) :
    (segment.entries modes).lookup .f =
      if segment.writesFeed modes then some (Decimal.fixedTrimmed segment.feed 3) else none := by
  unfold entries centerEntries
  cases segment.isArc <;> cases segment.writesFeed modes <;>
    cases segment.writesSpindleSpeed modes <;> cases segment.plane <;> rfl

theorem lookup_speed (segment : Segment) (modes : PrintedModes) :
    (segment.entries modes).lookup .s =
      if segment.writesSpindleSpeed modes then
        some (Decimal.fixedTrimmed segment.spindleSpeed 1) else none := by
  unfold entries centerEntries
  cases segment.isArc <;> cases segment.writesFeed modes <;>
    cases segment.writesSpindleSpeed modes <;> cases segment.plane <;> rfl

/-- Only arcs have entries for a center, and no move has one for a radius. -/
theorem isArc_of_hasArcWords {code : Nat}
    (words : (Block.written (.g code) (segment.entries modes)).hasArcWords = true) :
    segment.isArc = true := by
  cases arc : segment.isArc with
  | true => rfl
  | false =>
    have none (letter : Letter) (other : letter ∈ [Letter.i, .j, .k, .r]) :
        (segment.entries modes).lookup letter = none := by
      unfold entries centerEntries
      rw [arc]
      simp only [List.mem_cons, List.not_mem_nil, or_false] at other
      cases segment.writesFeed modes <;> cases segment.writesSpindleSpeed modes <;>
        rcases other with rfl | rfl | rfl | rfl <;> rfl
    have absent (letter : Letter) (other : letter ∈ [Letter.i, .j, .k, .r]) :
        (Block.written (.g code) (segment.entries modes)).parameters letter = Option.none := by
      show ((segment.entries modes).lookup letter).bind readBack? = Option.none
      rw [none letter other]
      rfl
    simp [Block.hasArcWords, Parameters.hasCenter, Parameters.has, absent] at words

/-- A segment whose printed numbers are finite, with no feed and no spindle speed below zero. -/
structure Printable (segment : Segment) : Prop where
  /-- It ends at finite coordinates. -/
  finish : ∀ axis, (segment.finish.along axis).isFinite = true
  /-- The center of an arc is at a finite distance. -/
  center : segment.isArc = true → ∀ axis, (segment.centerOffset.along axis).isFinite = true
  /-- The feed is finite. -/
  feed : segment.feed.isFinite = true
  /-- The feed is not below zero. -/
  feed_floor : 0.0 ≤ segment.feed
  /-- The spindle speed is finite. -/
  speed : segment.spindleSpeed.isFinite = true
  /-- The spindle speed is not below zero. -/
  speed_floor : 0.0 ≤ segment.spindleSpeed

/-- The feed of a printable move reads back, and not below zero. -/
theorem Printable.exists_feed (printable : segment.Printable) :
    ∃ value, Decimal.IsNumber (Decimal.fixedTrimmed segment.feed 3) value ∧ ¬ value < 0.0 := by
  obtain ⟨value, number, floor⟩ :=
    Decimal.exists_isNumber_fixedTrimmed printable.feed (show 3 ≤ 4 by decide)
  exact ⟨value, number, floor printable.feed_floor⟩

/-- The spindle speed of a printable move reads back, and not below zero. -/
theorem Printable.exists_speed (printable : segment.Printable) :
    ∃ value, Decimal.IsNumber (Decimal.fixedTrimmed segment.spindleSpeed 1) value ∧
      ¬ value < 0.0 := by
  obtain ⟨value, number, floor⟩ :=
    Decimal.exists_isNumber_fixedTrimmed printable.speed (show 1 ≤ 4 by decide)
  exact ⟨value, number, floor printable.speed_floor⟩

/-- The entries of a printable move have numbers. -/
theorem Printable.numbers (printable : segment.Printable) (modes : PrintedModes) :
    Entry.Numbers (segment.entries modes) := by
  intro entry member
  unfold entries centerEntries at member
  rw [List.mem_append, List.mem_append, List.mem_append] at member
  rcases member with ((finish | center) | feed) | speed
  · obtain ⟨axis, _, rfl⟩ := List.mem_map.mp finish
    exact Decimal.exists_isNumber_fixed (printable.finish axis) (by decide)
  · split at center
    · next arc =>
      obtain ⟨axis, _, rfl⟩ := List.mem_map.mp center
      exact Decimal.exists_isNumber_fixed (printable.center arc axis) (by decide)
    · cases center
  · split at feed
    · cases List.mem_singleton.mp feed
      obtain ⟨value, number, _⟩ := printable.exists_feed
      exact ⟨value, number⟩
    · cases feed
  · split at speed
    · cases List.mem_singleton.mp speed
      obtain ⟨value, number, _⟩ := printable.exists_speed
      exact ⟨value, number⟩
    · cases speed

end Segment

/-! ## The block of a printed move -/

namespace Block

variable {motion : Motion} {active : Option Motion} {entries : List Entry}

/-- The block of a G word of a motion names that motion. -/
theorem namedMotion_written (motion : Motion) (entries : List Entry) :
    (written (.g motion.code) entries).namedMotion = some motion := by
  cases motion <;> rfl

/-- No motion takes the axis words for itself. -/
theorem claimsAxes_written (motion : Motion) (entries : List Entry) :
    (written (.g motion.code) entries).claimsAxes = false := by
  cases motion <;> rfl

/-- The block of a G word of a motion makes that motion its own. -/
theorem activeMotion_written (motion : Motion) (entries : List Entry) (active : Option Motion) :
    (written (.g motion.code) entries).activeMotion active = some motion := by
  cases motion <;> rfl

/-- With entries for an axis the block makes that motion. -/
theorem motion?_written (axes : (Entry.parameters entries).hasAxes = true) :
    (written (.g motion.code) entries).motion? active = some motion := by
  have axes : (written (.g motion.code) entries).hasAxes = true := axes
  rw [motion?, axes, claimsAxes_written, activeMotion_written]
  rfl

/-- A G word of a motion with entries for an axis, and with a center only for an arc, breaks no
rule. -/
theorem fault?_written_motion (axes : (Entry.parameters entries).hasAxes = true)
    (arcs : (written (.g motion.code) entries).hasArcWords = true → motion.isArc = true)
    (feed : ∀ value ∈ Entry.parameters entries .f, ¬ value < 0.0)
    (speed : ∀ value ∈ Entry.parameters entries .s, ¬ value < 0.0) :
    (written (.g motion.code) entries).fault? active = none := by
  have floor (letter : Letter) (least : ∀ value ∈ Entry.parameters entries letter, ¬ value < 0.0) :
      ((written (.g motion.code) entries).parameters letter).any (· < 0.0) = false := by
    show (Entry.parameters entries letter).any (· < 0.0) = false
    cases found : Entry.parameters entries letter with
    | none => rfl
    | some value => exact decide_eq_false (least value found)
  have axes' : (written (.g motion.code) entries).hasAxes = true := axes
  have needs : (written (.g motion.code) entries).needsAxes = false := by
    cases motion <;> rfl
  have offsets : (written (.g motion.code) entries).hasWord (.g 10) = false := by
    cases motion <;> rfl
  have dwell : (written (.g motion.code) entries).hasWord (.g 4) = false := by
    cases motion <;> rfl
  have machine : (written (.g motion.code) entries).hasWord (.g 53) = false := by
    cases motion <;> rfl
  have stray : ((written (.g motion.code) entries).hasArcWords && !motion.isArc) = false := by
    cases words : (written (.g motion.code) entries).hasArcWords with
    | false => rfl
    | true => rw [arcs words]; rfl
  simp [fault?, motion?_written axes, floor .f feed, floor .s speed, axes', claimsAxes_written,
    activeMotion_written, namedMotion_written, needs, offsets, dwell, machine, stray]

/-- A printed move leaves its motion, feed and spindle speed in force and every other mode as it
was. -/
theorem nextState_written_motion (motion : Motion) (entries : List Entry) (state : ModalState) :
    (written (.g motion.code) entries).nextState state =
      { state with
        motion := some motion
        feed := (Entry.parameters entries .f).getD state.feed
        spindleSpeed := (Entry.parameters entries .s).getD state.spindleSpeed } := by
  cases motion <;> rfl

/-- The codes of the G words that stand alone on a printed line. -/
def modeCodes : List Nat := [17, 18, 19, 20, 21, 90]

/-- A mode word alone breaks no rule. -/
theorem fault?_written_mode {code : Nat} (mode : code ∈ modeCodes) (active : Option Motion) :
    (written (.g code) []).fault? active = none := by
  simp only [modeCodes, List.mem_cons, List.not_mem_nil, or_false] at mode
  rcases mode with rfl | rfl | rfl | rfl | rfl | rfl <;> rfl

end Block

/-! ## The values of a printed move -/

namespace Segment

variable {segment : Segment}

/-- The feed entry of a move has the feed as it reads back. -/
theorem parameters_feed (segment : Segment) (modes : PrintedModes) :
    Entry.parameters (segment.entries modes) .f =
      if segment.writesFeed modes then readBack? (Decimal.fixedTrimmed segment.feed 3)
      else none := by
  unfold Entry.parameters
  rw [lookup_feed]
  split <;> rfl

/-- The spindle entry of a move has the spindle speed as it reads back. -/
theorem parameters_speed (segment : Segment) (modes : PrintedModes) :
    Entry.parameters (segment.entries modes) .s =
      if segment.writesSpindleSpeed modes then
        readBack? (Decimal.fixedTrimmed segment.spindleSpeed 1)
      else none := by
  unfold Entry.parameters
  rw [lookup_speed]
  split <;> rfl

/-- The axis entries of a printable move have the coordinates of its end as they read back. -/
theorem Printable.exists_axis (printable : segment.Printable) (modes : PrintedModes)
    (axis : Axis) :
    ∃ value, readBack? (Decimal.fixed (segment.finish.along axis) 3) = some value ∧
      Entry.parameters (segment.entries modes) (.ofAxis axis) = some value := by
  obtain ⟨value, number⟩ :=
    Decimal.exists_isNumber_fixed (printable.finish axis) (show 3 ≤ 4 by decide)
  have read := number.readBack?
  refine ⟨value, read, ?_⟩
  unfold Entry.parameters
  rw [lookup_axis]
  exact read

/-- The entries of the center of a printable arc have its distances as they read back. -/
theorem Printable.exists_center (printable : segment.Printable) (modes : PrintedModes)
    (arc : segment.isArc = true) {axis : Axis}
    (inPlane : axis ∈ [segment.plane.first, segment.plane.second]) :
    ∃ value, readBack? (Decimal.fixed (segment.centerOffset.along axis) 4) = some value ∧
      Entry.parameters (segment.entries modes) (.ofCenter axis) = some value := by
  obtain ⟨value, number⟩ :=
    Decimal.exists_isNumber_fixed (printable.center arc axis) (show 4 ≤ 4 by decide)
  have read := number.readBack?
  have found : (segment.entries modes).lookup (.ofCenter axis) =
      some (Decimal.fixed (segment.centerOffset.along axis) 4) := by
    unfold entries centerEntries
    rw [arc]
    rw [List.mem_cons, List.mem_singleton] at inPlane
    cases plane : segment.plane <;> rw [plane] at inPlane <;> rcases inPlane with rfl | rfl <;> rfl
  refine ⟨value, read, ?_⟩
  unfold Entry.parameters
  rw [found]
  exact read

/-- A printable move has entries for the axes. -/
theorem Printable.hasAxes (printable : segment.Printable) (modes : PrintedModes) :
    (Entry.parameters (segment.entries modes)).hasAxes = true := by
  obtain ⟨value, _, known⟩ := printable.exists_axis modes .x
  unfold Parameters.hasAxes Parameters.has
  rw [show Letter.x = .ofAxis .x from rfl, known]
  rfl

/-- A printable move is a line that breaks no rule. -/
theorem Printable.fault? (printable : segment.Printable) (modes : PrintedModes)
    (active : Option Motion) :
    (Block.written (.g segment.motion.code) (segment.entries modes)).fault? active = none := by
  refine Block.fault?_written_motion (printable.hasAxes modes) isArc_of_hasArcWords ?_ ?_
  · obtain ⟨value, number, floor⟩ := printable.exists_feed
    intro written known
    rw [parameters_feed, number.readBack?] at known
    split at known
    · cases known
      exact floor
    · cases known
  · obtain ⟨value, number, floor⟩ := printable.exists_speed
    intro written known
    rw [parameters_speed, number.readBack?] at known
    split at known
    · cases known
      exact floor
    · cases known

/-! ## The command of a printed move -/

/-- The block of the line of a move. -/
def moveBlock (segment : Segment) (modes : PrintedModes) : Block :=
  .written (.g segment.motion.code) (segment.entries modes)

/-- The command of the line of a move. -/
def moveCommand (segment : Segment) (modes : PrintedModes) (number : Nat)
    (active : Option Motion) : Command :=
  .ofSound number (segment.moveText modes) (segment.moveBlock modes) active

/-- The line of a printable move reads as its command. -/
theorem Printable.ofLine?_moveText (printable : segment.Printable) (modes : PrintedModes)
    (number : Nat) (state : ModalState) :
    Command.ofLine? number (segment.moveText modes) state =
      .ok (some (segment.moveCommand modes number state.motion),
        (segment.moveBlock modes).nextState state) := by
  have small : segment.motion.code < 100 := by
    cases segment.motion <;> decide
  have known : (Word.g segment.motion.code).group? = some .motion := by
    cases segment.motion <;> rfl
  have parsed := Command.ofLine?_written small known (printable.numbers modes)
    (nodup_entries segment modes) number (printable.fault? modes state.motion)
  rwa [← moveText_eq] at parsed

/-- The command of a printable move makes its motion. -/
theorem Printable.motion_moveCommand (printable : segment.Printable) (modes : PrintedModes)
    (number : Nat) (active : Option Motion) :
    (segment.moveCommand modes number active).motion = some segment.motion ∧
      (segment.moveCommand modes number active).kind = .motion := by
  have motion : (segment.moveBlock modes).motion? active = some segment.motion :=
    Block.motion?_written (printable.hasAxes modes)
  refine ⟨motion, ?_⟩
  show (Command.classify _ ((segment.moveBlock modes).motion? active)).1 = _
  rw [motion]
  rfl

end Segment

end GcodeSender
