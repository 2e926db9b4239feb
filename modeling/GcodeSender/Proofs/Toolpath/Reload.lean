import GcodeSender.Proofs.Controller.CommandBytes
import GcodeSender.Proofs.Program.ProgramEnd
import GcodeSender.Proofs.Toolpath.PrintedNumbers

/-!
# Loading a printed path again

The printed lines of a path load again line by line, and two things only can go wrong. A
coordinate may have left the range of floats, so that no number is printed. And the ends and the
center of an arc are rounded apart from each other, so the arc that is read is not quite the arc
that was printed, and its ends may lie too far from one circle. The tool stands at the end of the
last segment as it reads back (`Segment.landing`), and from there each arc must still fit
(`Segment.Refits`). The main statement is that the path of any program loads again without
errors exactly if its printed numbers are finite and its arcs fit.
-/
namespace GcodeSender

open Decimal (readBack?)

namespace Segment

/-! ## What is read of a segment -/

/-- The end of a segment in millimetres, as its coordinates read back. -/
def landing (segment : Segment) : Point :=
  .ofAxes fun axis =>
    segment.unit.toMillimetres
        ((readBack? (Decimal.fixed (segment.finish.along axis) 3)).getD 0) +
      Point.origin.along axis

/-- The way in millimetres along an axis from the start of an arc to its center, as it reads
back. -/
def rereadOffset (segment : Segment) (axis : Axis) : Float :=
  segment.unit.toMillimetres
    ((readBack? (Decimal.fixed (segment.centerOffset.along axis) 4)).getD 0)

/-- The circle of an arc that is read while the tool stands at a point. -/
def rereadCircle (segment : Segment) (start : Point) : Except ArcFault Circle :=
  ArcEnds.circleOfCenter
    ⟨start, segment.landing, segment.plane, segment.motion == .counterclockwise⟩
    (some (segment.rereadOffset segment.plane.first))
    (some (segment.rereadOffset segment.plane.second))

/-- A segment that is read while the tool stands at a point has a circle if it is an arc. -/
def Fits (segment : Segment) (start : Point) : Prop :=
  segment.isArc = true → ∃ circle, segment.rereadCircle start = .ok circle

/-- Each segment of a path fits when it is read, the first one from a point and every other one
from where the one before it lands. -/
def Refits (start : Point) : List Segment → Prop
  | [] => True
  | segment :: others => segment.Fits start ∧ Refits segment.landing others

/-- What is read of a segment while the tool stands at a point: the same kind of motion, from that
point to where the segment lands, and for an arc the same plane and the circle that is read. -/
structure RereadAs (segment : Segment) (position : Point) (made : Segment) : Prop where
  /-- The kind of motion is kept. -/
  motion : made.motion = segment.motion
  /-- The unit is kept. -/
  unit : made.unit = segment.unit
  /-- It starts where the tool stands. -/
  start : made.start = segment.unit.pointOfMillimetres position
  /-- It ends where the segment lands. -/
  finish : made.finish = segment.unit.pointOfMillimetres segment.landing
  /-- An arc lies in the same plane, on the circle that is read. -/
  arc : segment.isArc = true → made.plane = segment.plane ∧
    ∃ circle, segment.rereadCircle position = .ok circle ∧
      made.center = segment.unit.pointOfMillimetres circle.center ∧
      made.centerOffset = segment.unit.pointOfMillimetres (circle.center.minus position) ∧
      made.radius = segment.unit.ofMillimetres circle.radius

variable {segment made : Segment} {modes : PrintedModes} {state : ModalState}

/-- A path without arcs always fits. -/
theorem refits_of_straight {segments : List Segment}
    (straight : ∀ segment ∈ segments, segment.isArc = false) (start : Point) :
    Refits start segments := by
  induction segments generalizing start with
  | nil => trivial
  | cons segment others ih =>
    have first := straight segment List.mem_cons_self
    exact ⟨fun arc => absurd (first.symm.trans arc) Bool.false_ne_true,
      ih (fun other member => straight other (List.mem_cons_of_mem _ member)) _⟩

/-- An arc is read with the same circle without the numbers that are not printed. -/
theorem rereadCircle_stripped (segment : Segment) (start : Point) :
    segment.stripped.rereadCircle start = segment.rereadCircle start := by
  have landing : segment.stripped.landing = segment.landing := rfl
  have plane : segment.stripped.plane = segment.plane := rfl
  have offset : ∀ axis ∈ [segment.plane.first, segment.plane.second],
      segment.stripped.rereadOffset axis = segment.rereadOffset axis := by
    intro axis inPlane
    unfold rereadOffset
    rw [along_centerOffset_stripped inPlane]
    rfl
  unfold rereadCircle
  rw [plane, offset _ List.mem_cons_self, offset _ (List.mem_cons_of_mem _ List.mem_cons_self),
    landing]
  rfl

/-- A segment lands where it does without the numbers that are not printed, and fits alike. -/
theorem fits_stripped (segment : Segment) (start : Point) :
    segment.stripped.landing = segment.landing ∧
      (segment.stripped.Fits start ↔ segment.Fits start) := by
  have landing : segment.stripped.landing = segment.landing := rfl
  refine ⟨landing, ?_⟩
  unfold Fits
  rw [rereadCircle_stripped]
  rfl

/-- A segment is read as it is without the numbers that are not printed. -/
theorem RereadAs.of_stripped {start : Point} (reread : segment.stripped.RereadAs start made) :
    segment.RereadAs start made := by
  have arc := reread.arc
  rw [rereadCircle_stripped] at arc
  exact ⟨reread.motion, reread.unit, reread.start, reread.finish, arc⟩

/-! ## The command of a printed move -/

/-- No move has an entry for a radius. -/
theorem parameters_radius (segment : Segment) (modes : PrintedModes) :
    Entry.parameters (segment.entries modes) .r = none := by
  have absent : (segment.entries modes).lookup .r = none := by
    unfold entries centerEntries
    cases segment.isArc <;> cases segment.writesFeed modes <;>
      cases segment.writesSpindleSpeed modes <;> cases segment.plane <;> rfl
  rw [Entry.parameters, absent]
  rfl

/-- An arc has an entry for its center. -/
theorem Printable.hasCenter (printable : segment.Printable) (modes : PrintedModes)
    (arc : segment.isArc = true) :
    (Entry.parameters (segment.entries modes)).hasCenter = true := by
  obtain ⟨value, _, known⟩ := printable.exists_center modes arc List.mem_cons_self
  unfold Parameters.hasCenter Parameters.has
  cases plane : segment.plane <;> rw [plane] at known <;>
    simp only [Plane.first, Letter.ofCenter] at known <;> simp [known]

/-- The command of a printable move leads to where the move lands. -/
theorem Printable.target_moveCommand (printable : segment.Printable) (number : Nat)
    (active : Option Motion) (absolute : state.distance = .absolute)
    (unit : state.unit = segment.unit) (origin : state.offset = .origin) :
    (segment.moveCommand modes number active).target state = segment.landing := by
  have inside : (segment.moveCommand modes number active).inMachineCoordinates = false := by
    show (segment.moveBlock modes).hasWord (.g 53) = false
    unfold moveBlock
    cases segment.motion <;> rfl
  refine Point.ext_along fun axis => ?_
  obtain ⟨value, read, known⟩ := printable.exists_axis modes axis
  have known : (segment.moveCommand modes number active).parameters (.ofAxis axis) =
      some value := known
  unfold Command.target landing
  rw [Point.along_ofAxes, Point.along_ofAxes, Command.targetAlong, known, inside, absolute, unit,
    origin, read]
  rfl

/-- The command of a printable arc has the circle that is read of it. -/
theorem Printable.circle_moveCommand (printable : segment.Printable) (number : Nat)
    (active : Option Motion) (arc : segment.isArc = true) (start : Point) :
    ArcEnds.circle ⟨start, segment.landing, segment.plane, segment.motion == .counterclockwise⟩
        (segment.moveCommand modes number active).parameters segment.unit =
      segment.rereadCircle start := by
  have parameters : (segment.moveCommand modes number active).parameters =
      Entry.parameters (segment.entries modes) := rfl
  obtain ⟨first, readFirst, knownFirst⟩ :=
    printable.exists_center modes arc List.mem_cons_self
  obtain ⟨second, readSecond, knownSecond⟩ :=
    printable.exists_center modes arc (List.mem_cons_of_mem _ List.mem_cons_self)
  unfold ArcEnds.circle rereadCircle rereadOffset
  rw [parameters, parameters_radius, if_pos (printable.hasCenter modes arc)]
  dsimp only
  rw [knownFirst, knownSecond, readFirst, readSecond]
  rfl

/-! ## The line of a printed move -/

/-- What the line of a move finds in force: what the printer takes to be in force, the unit of
the segment, the plane of an arc, and no offset. -/
structure Awaits (segment : Segment) (modes : PrintedModes) (state : ModalState) : Prop where
  /-- What the printer takes to be in force is in force. -/
  agrees : modes.Agrees state
  /-- The unit of the segment is active. -/
  unit : state.unit = segment.unit
  /-- The plane of an arc is active. -/
  plane : segment.isArc = true → state.plane = segment.plane
  /-- Coordinates are meant without an offset. -/
  origin : state.offset = .origin

/-- The block of a move leaves what its own command needs as it was. -/
theorem nextState_moveBlock (segment : Segment) (modes : PrintedModes) (state : ModalState) :
    ((segment.moveBlock modes).nextState state).position = state.position ∧
      ((segment.moveBlock modes).nextState state).offset = state.offset ∧
      ((segment.moveBlock modes).nextState state).distance = state.distance ∧
      ((segment.moveBlock modes).nextState state).unit = state.unit ∧
      ((segment.moveBlock modes).nextState state).plane = state.plane := by
  rw [moveBlock, Block.nextState_written_motion]
  exact ⟨rfl, rfl, rfl, rfl, rfl⟩

/-- The command of a printable move leads to where the move lands. -/
theorem Awaits.target (awaits : segment.Awaits modes state) (printable : segment.Printable)
    (number : Nat) :
    (segment.moveCommand modes number state.motion).target
      ((segment.moveBlock modes).nextState state) = segment.landing := by
  obtain ⟨_, offset, distance, unit, _⟩ := nextState_moveBlock segment modes state
  exact printable.target_moveCommand number state.motion
    (distance.trans awaits.agrees.absolute) (unit.trans awaits.unit) (offset.trans awaits.origin)

/-- The command of a printable arc has the circle that is read of it. -/
theorem Awaits.circle (awaits : segment.Awaits modes state) (printable : segment.Printable)
    (number : Nat) (arc : segment.isArc = true) :
    let command := segment.moveCommand modes number state.motion
    let next := (segment.moveBlock modes).nextState state
    ArcEnds.circle
        ⟨next.position, command.target next, next.plane, segment.motion == .counterclockwise⟩
        command.parameters next.unit = segment.rereadCircle state.position := by
  obtain ⟨position, _, _, unit, plane⟩ := nextState_moveBlock segment modes state
  dsimp only
  rw [awaits.target printable, position, plane.trans (awaits.plane arc),
    unit.trans awaits.unit, printable.circle_moveCommand number state.motion arc]

/-- The command of a printable move makes a segment exactly if the move fits. -/
theorem Awaits.exists_segment?_iff (awaits : segment.Awaits modes state)
    (printable : segment.Printable) (number : Nat) :
    (∃ made, (segment.moveCommand modes number state.motion).segment?
        ((segment.moveBlock modes).nextState state) segment.motion = .ok made) ↔
      segment.Fits state.position := by
  unfold Command.segment?
  dsimp only
  cases arc : segment.motion.isArc with
  | false =>
    have straight : segment.isArc = false := arc
    refine ⟨fun _ curved => ?_, fun _ => ⟨_, if_neg Bool.false_ne_true⟩⟩
    rw [straight] at curved
    cases curved
  | true =>
    rw [if_pos rfl, awaits.circle printable number arc]
    unfold Fits
    cases segment.rereadCircle state.position with
    | ok circle => exact ⟨fun _ _ => ⟨circle, rfl⟩, fun _ => ⟨_, rfl⟩⟩
    | error fault =>
      refine ⟨fun ⟨made, same⟩ => (nomatch same), fun fits => ?_⟩
      obtain ⟨circle, same⟩ := fits arc
      cases same

/-- The segment of a printable move is what is read of it. -/
theorem Awaits.rereadAs (awaits : segment.Awaits modes state) (printable : segment.Printable)
    (number : Nat)
    (found : (segment.moveCommand modes number state.motion).segment?
      ((segment.moveBlock modes).nextState state) segment.motion = .ok made) :
    segment.RereadAs state.position made := by
  obtain ⟨position, _, _, unit, plane⟩ := nextState_moveBlock segment modes state
  obtain ⟨kept, starts, ends⟩ := Command.ends_of_segment? found
  rw [unit, awaits.unit] at kept starts ends
  rw [position] at starts
  rw [awaits.target printable] at ends
  unfold Command.segment? at found
  dsimp only at found
  cases arc : segment.motion.isArc with
  | false =>
    have straight : ¬ segment.isArc = true :=
      fun curved => absurd (arc.symm.trans curved) (by decide)
    rw [arc, if_neg Bool.false_ne_true] at found
    cases found
    exact ⟨rfl, kept, starts, ends, fun curved => absurd curved straight⟩
  | true =>
    rw [arc, if_pos rfl, awaits.circle printable number arc] at found
    cases read : segment.rereadCircle state.position with
    | error fault =>
      rw [read] at found
      cases found
    | ok circle =>
      rw [read] at found
      cases found
      refine ⟨rfl, kept, starts, ends, fun curved => ⟨plane.trans (awaits.plane curved), circle,
        read, ?_⟩⟩
      dsimp only
      rw [unit, awaits.unit, position]
      exact ⟨rfl, rfl, rfl⟩

/-- The line of a printable move that fits loads as what is read of the move, and leaves the tool
where it lands. -/
theorem Awaits.exists_ofLine (awaits : segment.Awaits modes state)
    (printable : segment.Printable) (fits : segment.Fits state.position) (number : Nat) :
    ∃ command made next,
      LineOutcome.ofLine number (segment.moveText modes) state =
          (.command command (some made), next) ∧
        segment.RereadAs state.position made ∧ (segment.modesAfter modes).Agrees next ∧
          next.offset = .origin ∧ next.position = segment.landing := by
  obtain ⟨made, found⟩ := (awaits.exists_segment?_iff printable number).mpr fits
  obtain ⟨motion, kind⟩ := printable.motion_moveCommand modes number state.motion
  have done := Command.perform_eq_ok_some_iff.mpr
    ⟨Command.segmentUnder_eq_ok_some_iff.mpr ⟨_, kind, motion, found⟩, rfl⟩
  refine ⟨_, made, _, LineOutcome.ofLine_eq_command_iff.mpr
    ⟨_, printable.ofLine?_moveText modes number state, done⟩,
    awaits.rereadAs printable number found, ?_, ?_, awaits.target printable number⟩
  · have after := printable.agrees_modesAfter awaits.agrees
    exact ⟨after.absolute, after.unit, after.plane, after.feed, after.speed⟩
  · exact (nextState_moveBlock segment modes state).2.1.trans awaits.origin

/-- The line of a printable move that does not fit is refused. -/
theorem Awaits.exists_refused (awaits : segment.Awaits modes state)
    (printable : segment.Printable) (apart : ¬ segment.Fits state.position) (number : Nat) :
    ∃ error, LineOutcome.ofLine number (segment.moveText modes) state =
      (.refused error, state) := by
  obtain ⟨motion, kind⟩ := printable.motion_moveCommand modes number state.motion
  cases found : (segment.moveCommand modes number state.motion).segment?
      ((segment.moveBlock modes).nextState state) segment.motion with
  | ok made => exact absurd ((awaits.exists_segment?_iff printable number).mp ⟨made, found⟩) apart
  | error fault =>
    refine ⟨⟨number, 0, .arc fault⟩, ?_⟩
    unfold LineOutcome.ofLine
    rw [printable.ofLine?_moveText]
    dsimp only
    unfold Command.perform
    rw [kind, motion]
    dsimp only
    rw [found]

end Segment

/-! ## Loading lines -/

namespace Program

variable {number : Nat} {state middle next : ModalState} {front back : List Bytes} {line : Bytes}

/-- Lines load without errors, and the lines after them load under a later state. -/
def Loads (number : Nat) (state : ModalState) (lines : List Bytes) (next : ModalState) : Prop :=
  ∀ others, (loadFrom false number state (lines ++ others)).errors =
    (loadFrom false (number + lines.length) next others).errors

/-- No line loads without errors. -/
theorem loads_nil (number : Nat) (state : ModalState) : Loads number state [] state :=
  fun _ => rfl

/-- Lines after lines. -/
theorem Loads.append (first : Loads number state front middle)
    (second : Loads (number + front.length) middle back next) :
    Loads number state (front ++ back) next := by
  intro others
  rw [List.append_assoc, first, second, List.length_append, Nat.add_assoc]

/-- A line that gives a command loads without errors. -/
theorem loads_line {command : Command} {made : Option Segment} (whole : stripReturn line = line)
    (taken : LineOutcome.ofLine number line state = (.command command made, next)) :
    Loads number state [line] next := by
  intro others
  show (loadFrom false number state (line :: others)).errors = _
  rw [loadFrom_cons, whole, taken]
  exact errors_cons _ _

/-- Lines load without errors and add segments, and the lines after them load under a later
state. -/
structure Draws (number : Nat) (state : ModalState) (lines : List Bytes) (made : List Segment)
    (next : ModalState) : Prop where
  /-- The lines load without errors. -/
  loads : Loads number state lines next
  /-- The segments of the lines stand before those of the lines after them. -/
  segments : ∀ others, (loadFrom false number state (lines ++ others)).segments =
    made ++ (loadFrom false (number + lines.length) next others).segments

/-- No line adds no segment. -/
theorem draws_nil (number : Nat) (state : ModalState) : Draws number state [] [] state :=
  ⟨loads_nil number state, fun _ => rfl⟩

/-- Lines after lines add segments after segments. -/
theorem Draws.append {made more : List Segment} (first : Draws number state front made middle)
    (second : Draws (number + front.length) middle back more next) :
    Draws number state (front ++ back) (made ++ more) next := by
  refine ⟨first.loads.append second.loads, fun others => ?_⟩
  rw [List.append_assoc, first.segments, second.segments, List.length_append, Nat.add_assoc,
    List.append_assoc]

/-- A line that gives a command adds its segment. -/
theorem draws_line {command : Command} {made : Option Segment} (whole : stripReturn line = line)
    (taken : LineOutcome.ofLine number line state = (.command command made, next)) :
    Draws number state [line] made.toList next := by
  refine ⟨loads_line whole taken, fun others => ?_⟩
  show (loadFrom false number state (line :: others)).segments = _
  rw [loadFrom_cons, whole, taken]
  exact segments_cons _ _

/-- A line that is refused adds an error. -/
theorem errors_of_refused {error : LineError} (whole : stripReturn line = line)
    (refused : LineOutcome.ofLine number line state = (.refused error, next))
    (others : List Bytes) : (loadFrom false number state (line :: others)).errors ≠ [] := by
  rw [loadFrom_cons, whole, refused, errors_cons]
  exact List.cons_ne_nil _ _

end Program

/-! ## Printed lines -/

/-- A line without a carriage return has none to strip. -/
theorem stripReturn_of_not_mem {line : Bytes} (clean : Byte.carriageReturn ∉ line) :
    stripReturn line = line := by
  unfold stripReturn
  split
  · next last => exact absurd (List.mem_of_getLast? last) clean
  · rfl

namespace Segment

variable {segment : Segment} {modes : PrintedModes} {state : ModalState}

/-- The line of a move has no carriage return. -/
theorem stripReturn_moveText (segment : Segment) (modes : PrintedModes) :
    stripReturn (segment.moveText modes) = segment.moveText modes :=
  stripReturn_of_not_mem fun member =>
    (Byte.not_break_of_isPlain (isPlain_moveText segment modes _ member)).1 rfl

/-- A mode word alone on a line loads and adds no segment. -/
theorem draws_mode {code : Nat} (mode : code ∈ Block.modeCodes) (number : Nat)
    (state : ModalState) :
    Program.Draws number state [(Word.g code).text] []
      ((Block.written (.g code) []).nextState state) := by
  have whole : stripReturn (Word.g code).text = (Word.g code).text := by
    simp only [Block.modeCodes, List.mem_cons, List.not_mem_nil, or_false] at mode
    rcases mode with rfl | rfl | rfl | rfl | rfl | rfl <;> decide +kernel
  have done : (Command.modeCommand code number state.motion).perform
      ((Block.written (.g code) []).nextState state) =
        .ok (none, (Block.written (.g code) []).nextState state) := by
    unfold Command.perform
    rw [Command.kind_modeCommand mode]
  exact Program.draws_line whole (LineOutcome.ofLine_eq_command_iff.mpr
    ⟨_, Command.ofLine?_mode mode number state, done⟩)

/-- The unit line of a segment loads. -/
theorem draws_unitLine (segment : Segment) (modes : PrintedModes) (number : Nat)
    (state : ModalState) :
    Program.Draws number state (segment.unitLine modes).1 []
      (segment.unitState modes state) := by
  unfold unitLine unitState
  split
  · exact Program.draws_nil number state
  · have loaded := draws_mode (unit_mem_modeCodes segment.unit) number state
    rwa [nextState_unit, ← LengthUnit.name_eq_text] at loaded

/-- The plane line of a segment loads. -/
theorem draws_planeLine (segment : Segment) (modes : PrintedModes) (number : Nat)
    (state : ModalState) :
    Program.Draws number state (segment.planeLine modes).1 []
      (segment.planeState modes state) := by
  unfold planeLine planeState
  split
  · have loaded := draws_mode (plane_mem_modeCodes segment.plane) number state
    rwa [nextState_plane, ← Plane.name_eq_text] at loaded
  · exact Program.draws_nil number state

/-- A unit line and a plane line move nothing. -/
theorem still_planeState (segment : Segment) (modes others : PrintedModes) (state : ModalState) :
    (segment.planeState others (segment.unitState modes state)).position = state.position ∧
      (segment.planeState others (segment.unitState modes state)).offset = state.offset := by
  unfold planeState unitState
  split <;> split <;> exact ⟨rfl, rfl⟩

/-- The modes in force before the line of a move: those after its unit line and its plane
line. -/
def modesBefore (segment : Segment) (modes : PrintedModes) : PrintedModes :=
  (segment.planeLine (segment.unitLine modes).2).2

/-- The lines of a segment up to the line of its move load, and leave in force what that line
awaits. -/
theorem exists_draws_awaits (segment : Segment) (agrees : modes.Agrees state)
    (origin : state.offset = .origin) (number : Nat) :
    ∃ next, Program.Draws number state
        ((segment.unitLine modes).1 ++ (segment.planeLine (segment.unitLine modes).2).1) [] next ∧
      segment.Awaits (segment.modesBefore modes) next ∧ next.position = state.position := by
  obtain ⟨agreesUnit, unit⟩ := segment.agrees_unitState agrees
  obtain ⟨agreesPlane, kept, plane⟩ := segment.agrees_planeState agreesUnit
  obtain ⟨position, offset⟩ :=
    segment.still_planeState modes (segment.unitLine modes).2 state
  have loaded := (segment.draws_unitLine modes number state).append
    (segment.draws_planeLine (segment.unitLine modes).2 _ _)
  exact ⟨_, loaded, ⟨agreesPlane, agreesPlane.unit _ (kept.trans unit),
    fun arc => agreesPlane.plane _ (plane arc), offset.trans origin⟩, position⟩

/-- The lines of a printable segment that fits load as what is read of it, and leave the tool
where it lands. -/
theorem Printable.exists_draws_print (printable : segment.Printable)
    (agrees : modes.Agrees state) (origin : state.offset = .origin)
    (fits : segment.Fits state.position) (number : Nat) :
    ∃ made next, Program.Draws number state (segment.print modes).1 [made] next ∧
      segment.RereadAs state.position made ∧ (segment.print modes).2.Agrees next ∧
        next.offset = .origin ∧ next.position = segment.landing := by
  obtain ⟨middle, loaded, awaits, position⟩ := segment.exists_draws_awaits agrees origin number
  rw [← position] at fits ⊢
  obtain ⟨command, made, next, taken, reread, after, offset, landing⟩ :=
    awaits.exists_ofLine printable fits _
  have moved := Program.draws_line (segment.stripReturn_moveText _) taken
  exact ⟨made, next, loaded.append moved, reread, after, offset, landing⟩

/-- The lines of a segment do not all load if the line of its move is refused. -/
theorem errors_print (agrees : modes.Agrees state) (origin : state.offset = .origin)
    (refused : ∀ next, segment.Awaits (segment.modesBefore modes) next →
      next.position = state.position → ∀ number, ∃ error,
        LineOutcome.ofLine number (segment.moveText (segment.modesBefore modes)) next =
          (.refused error, next))
    (number : Nat) (others : List Bytes) :
    (Program.loadFrom false number state ((segment.print modes).1 ++ others)).errors ≠ [] := by
  obtain ⟨middle, loaded, awaits, position⟩ := segment.exists_draws_awaits agrees origin number
  obtain ⟨error, refused⟩ := refused middle awaits position (number +
    ((segment.unitLine modes).1 ++ (segment.planeLine (segment.unitLine modes).2).1).length)
  have split : (segment.print modes).1 ++ others =
      ((segment.unitLine modes).1 ++ (segment.planeLine (segment.unitLine modes).2).1) ++
        (segment.moveText (segment.modesBefore modes) :: others) :=
    List.append_assoc _ [segment.moveText (segment.modesBefore modes)] others
  rw [split, loaded.loads]
  exact Program.errors_of_refused (segment.stripReturn_moveText _) refused others

/-- The lines of a segment with finite numbers that fits load as what is read of it, and leave
the tool where it lands. -/
theorem IsFinite.exists_draws_print (finite : segment.IsFinite) (rated : segment.Rated)
    (agrees : modes.Agrees state) (origin : state.offset = .origin)
    (fits : segment.Fits state.position) (number : Nat) :
    ∃ made next, Program.Draws number state (segment.print modes).1 [made] next ∧
      segment.RereadAs state.position made ∧ (segment.print modes).2.Agrees next ∧
        next.offset = .origin ∧ next.position = segment.landing := by
  obtain ⟨landing, alike⟩ := segment.fits_stripped state.position
  obtain ⟨made, next, draws, reread, onward⟩ :=
    (finite.printable rated).exists_draws_print agrees origin (alike.mpr fits) number
  rw [print_stripped] at draws onward
  rw [landing] at onward
  exact ⟨made, next, draws, reread.of_stripped, onward⟩

/-- The lines of a segment with finite numbers that does not fit do not all load. -/
theorem IsFinite.errors_print (finite : segment.IsFinite) (rated : segment.Rated)
    (agrees : modes.Agrees state) (origin : state.offset = .origin)
    (apart : ¬ segment.Fits state.position) (number : Nat) (others : List Bytes) :
    (Program.loadFrom false number state ((segment.print modes).1 ++ others)).errors ≠ [] := by
  rw [← (segment.fits_stripped state.position).2] at apart
  rw [← print_stripped]
  refine Segment.errors_print agrees origin (fun next awaits position number => ?_) number others
  rw [← position] at apart
  exact awaits.exists_refused (finite.printable rated) apart number

/-- The lines of a segment whose printed numbers are not all finite do not all load. -/
theorem errors_print_of_not_isFinite (endless : ¬ segment.IsFinite)
    (agrees : modes.Agrees state) (origin : state.offset = .origin) (number : Nat)
    (others : List Bytes) :
    (Program.loadFrom false number state ((segment.print modes).1 ++ others)).errors ≠ [] :=
  errors_print agrees origin
    (fun _ awaits _ number => exists_refused_of_not_isFinite awaits.agrees endless number)
    number others

end Segment

/-- The lines of segments without a feed or a spindle speed below zero load without errors
exactly if the printed numbers are finite and the segments fit. -/
theorem errors_printFrom_eq_nil_iff {segments : List Segment}
    (rated : ∀ segment ∈ segments, segment.Rated) {modes : PrintedModes}
    {state : ModalState} (agrees : modes.Agrees state) (origin : state.offset = .origin)
    (number : Nat) :
    (Program.loadFrom false number state (printFrom modes segments)).errors = [] ↔
      (∀ segment ∈ segments, segment.IsFinite) ∧ Segment.Refits state.position segments := by
  induction segments generalizing modes state number with
  | nil => exact ⟨fun _ => ⟨List.forall_mem_nil _, trivial⟩, fun _ => rfl⟩
  | cons segment others ih =>
    have first := rated segment List.mem_cons_self
    have rest := fun other member => rated other (List.mem_cons_of_mem segment member)
    show (Program.loadFrom false number state ((segment.print modes).1 ++
      printFrom (segment.print modes).2 others)).errors = [] ↔ _
    rw [List.forall_mem_cons]
    by_cases finite : segment.IsFinite
    · by_cases fits : segment.Fits state.position
      · obtain ⟨_, next, loaded, _, after, offset, landing⟩ :=
          finite.exists_draws_print first agrees origin fits number
        have onward := ih rest after offset (number + (segment.print modes).1.length)
        rw [landing] at onward
        rw [loaded.loads, onward]
        exact ⟨fun ⟨all, refits⟩ => ⟨⟨finite, all⟩, fits, refits⟩,
          fun ⟨all, refits⟩ => ⟨all.2, refits.2⟩⟩
      · have errors := finite.errors_print first agrees origin fits number
          (printFrom (segment.print modes).2 others)
        exact ⟨fun none => absurd none errors, fun ⟨_, refits⟩ => absurd refits.1 fits⟩
    · have errors := segment.errors_print_of_not_isFinite finite agrees origin number
        (printFrom (segment.print modes).2 others)
      exact ⟨fun none => absurd none errors, fun ⟨all, _⟩ => absurd all.1 finite⟩

/-- The first printed line puts absolute coordinates in force, and nothing else. -/
theorem exists_draws_printPath (segment : Segment) (others : List Segment) :
    ∃ line state, printPath (segment :: others) = [line] ++ printFrom {} (segment :: others) ∧
      Program.Draws 1 {} [line] [] state ∧ PrintedModes.Agrees {} state ∧
        state.offset = .origin ∧ state.position = .origin := by
  have mode : 90 ∈ Block.modeCodes := by decide
  have name : ascii "G90" = (Word.g 90).text := by decide +kernel
  refine ⟨ascii "G90", (Block.written (.g 90) []).nextState {}, rfl, ?_, ?_, rfl, rfl⟩
  · rw [name]
    exact Segment.draws_mode mode 1 {}
  · exact ⟨rfl, fun unit known => (nomatch known), fun plane known => (nomatch known),
      fun feed known => (nomatch known), by decide +kernel⟩

/-- The printed lines of segments without a feed or a spindle speed below zero load without
errors exactly if the printed numbers are finite and the segments fit. -/
theorem errors_printPath_eq_nil_iff {segments : List Segment}
    (rated : ∀ segment ∈ segments, segment.Rated) :
    (Program.ofLines (printPath segments) {} false).errors = [] ↔
      (∀ segment ∈ segments, segment.IsFinite) ∧ Segment.Refits .origin segments := by
  cases segments with
  | nil => exact ⟨fun _ => ⟨List.forall_mem_nil _, trivial⟩, fun _ => rfl⟩
  | cons segment others =>
    obtain ⟨line, state, whole, draws, agrees, offset, position⟩ :=
      exists_draws_printPath segment others
    rw [whole, Program.ofLines, draws.loads, ← position]
    exact errors_printFrom_eq_nil_iff rated agrees offset _

/-- The segments of a program are printed as lines that load again without errors exactly if
every number that is printed is finite and every arc is read with a circle from where the segment
before it lands. A program without arcs loads again exactly if its printed numbers are finite. -/
theorem reload_errors_eq_nil_iff (text : Bytes) :
    ((Program.ofLines (printPath (Program.ofText text {} false).segments) {} false).errors = [] ↔
        (∀ segment ∈ (Program.ofText text {} false).segments, segment.IsFinite) ∧
          Segment.Refits .origin (Program.ofText text {} false).segments) ∧
      ((∀ segment ∈ (Program.ofText text {} false).segments, segment.isArc = false) →
        ((Program.ofLines (printPath (Program.ofText text {} false).segments) {} false).errors =
            [] ↔
          ∀ segment ∈ (Program.ofText text {} false).segments, segment.IsFinite)) := by
  have same := errors_printPath_eq_nil_iff (Program.rated_ofText text false)
  refine ⟨same, fun straight => ?_⟩
  rw [same]
  exact and_iff_left (Segment.refits_of_straight straight _)

/-- A straight move and an arc that fits are loaded again. -/
example : (Program.ofLines (printPath (Program.ofText
    (ascii "G1 X1 F100" ++ [Byte.newline] ++ ascii "G2 X3 I1") {} false).segments)
    {} false).errors = [] := by
  decide +kernel

/-- Half a circle in inches loads without errors, and its printed lines do not: its end is
rounded by four ten-thousandths of an inch, and the slack is five thousandths of a millimetre. -/
theorem reload_refuses_arc_in_inches :
    (Program.ofText (ascii "G20 G2 X0.1004 I0.0502 F10") {} false).errors = [] ∧
      printPath (Program.ofText (ascii "G20 G2 X0.1004 I0.0502 F10") {} false).segments =
        [ascii "G90", ascii "G20", ascii "G17",
          ascii "G2 X0.100 Y0.000 Z0.000 I0.0502 J0.0000 F10"] ∧
      (Program.ofLines (printPath
          (Program.ofText (ascii "G20 G2 X0.1004 I0.0502 F10") {} false).segments)
        {} false).errors.map LineError.text =
        [ascii "Domain error at line 4: Arc end point is not on the arc: " ++
          ascii "start radius 1.27508 mm, end radius 1.26492 mm"] := by
  decide +kernel

end GcodeSender
