import GcodeSender.Proofs.Toolpath.PrintedMove

/-!
# Reading a printed path back

The printer writes a unit, a plane, a feed or a spindle speed only where it changes, and the
reader keeps what was written in force. The two memories agree (`PrintedModes.Agrees`): whatever
the printer takes to be in force is in force for the reader, a number as it reads back from its
text. The lines of each segment keep the agreement, and among the commands they read as one moves
the tool, under the modes of the segment (`Segment.Renders`). The main statement follows by
induction over the path.
-/
namespace GcodeSender

open Decimal (readBack?)

/-! ## Reading line by line -/

namespace Command

/-- Read lines one by one under a modal state, the first of them with a number: the command of
each line that has one, with the state after it, or the first error. -/
def readLines (number : Nat) (state : ModalState) :
    List Bytes → Except LineError (List (Command × ModalState))
  | [] => .ok []
  | line :: others =>
    match ofLine? number line state with
    | .error error => .error error
    | .ok (none, next) => readLines (number + 1) next others
    | .ok (some command, next) =>
      (readLines (number + 1) next others).map ((command, next) :: ·)

/-- A command with the state after it moves the tool. -/
def moves (read : Command × ModalState) : Bool := read.1.kind == .motion

/-- Lines read as commands, and the lines after them are read under a later state. -/
def Takes (number : Nat) (state : ModalState) (lines : List Bytes)
    (read : List (Command × ModalState)) (next : ModalState) : Prop :=
  ∀ others, readLines number state (lines ++ others) =
    (readLines (number + lines.length) next others).map (read ++ ·)

variable {number : Nat} {state middle next : ModalState} {front back : List Bytes}
  {read more : List (Command × ModalState)}

/-- No line reads as no command. -/
theorem takes_nil (number : Nat) (state : ModalState) : Takes number state [] [] state := by
  intro others
  show readLines number state others = (readLines number state others).map id
  cases readLines number state others <;> rfl

/-- One line reads as its command. -/
theorem takes_line {line : Bytes} {command : Command}
    (parsed : ofLine? number line state = .ok (some command, next)) :
    Takes number state [line] [(command, next)] next := by
  intro others
  show readLines number state (line :: others) = _
  rw [readLines, parsed]
  rfl

/-- Lines after lines read as commands after commands. -/
theorem Takes.append (first : Takes number state front read middle)
    (second : Takes (number + front.length) middle back more next) :
    Takes number state (front ++ back) (read ++ more) next := by
  intro others
  rw [List.append_assoc, first, second, List.length_append, Nat.add_assoc]
  cases readLines (number + (front.length + back.length)) next others with
  | error error => rfl
  | ok last => exact congrArg Except.ok (List.append_assoc read more last).symm

/-- Lines that read as commands are all accepted. -/
theorem Takes.readLines (takes : Takes number state front read next) :
    readLines number state front = .ok read := by
  have whole := takes []
  rw [List.append_nil] at whole
  rw [whole]
  exact congrArg Except.ok (List.append_nil read)

/-- The command of a mode word alone on a line. -/
def modeCommand (code number : Nat) (active : Option Motion) : Command :=
  .ofSound number (Word.g code).text (.written (.g code) []) active

/-- A mode word belongs to a group. -/
theorem exists_group_of_mode {code : Nat} (mode : code ∈ Block.modeCodes) :
    ∃ group, (Word.g code).group? = some group := by
  simp only [Block.modeCodes, List.mem_cons, List.not_mem_nil, or_false] at mode
  rcases mode with rfl | rfl | rfl | rfl | rfl | rfl <;> exact ⟨_, rfl⟩

/-- A mode word alone on a line reads as its command. -/
theorem ofLine?_mode {code : Nat} (mode : code ∈ Block.modeCodes) (number : Nat)
    (state : ModalState) :
    ofLine? number (Word.g code).text state =
      .ok (some (modeCommand code number state.motion),
        (Block.written (.g code) []).nextState state) := by
  have small : code < 100 := by
    simp only [Block.modeCodes, List.mem_cons, List.not_mem_nil, or_false] at mode
    omega
  have numbers : Entry.Numbers [] := List.forall_mem_nil _
  obtain ⟨_, known⟩ := exists_group_of_mode mode
  have parsed := ofLine?_written small known numbers List.nodup_nil number
    (Block.fault?_written_mode mode state.motion)
  rwa [show Entry.texts [] = [] from rfl, List.append_nil] at parsed

/-- A mode word alone on a line changes modes and nothing else. -/
theorem kind_modeCommand {code : Nat} (mode : code ∈ Block.modeCodes) (number : Nat)
    (active : Option Motion) : (modeCommand code number active).kind = .modeChange := by
  simp only [Block.modeCodes, List.mem_cons, List.not_mem_nil, or_false] at mode
  rcases mode with rfl | rfl | rfl | rfl | rfl | rfl <;> rfl

/-- A mode word alone on a line reads as a command that moves nothing. -/
theorem exists_takes_mode {code : Nat} (mode : code ∈ Block.modeCodes) (number : Nat)
    (state : ModalState) :
    ∃ read, Takes number state [(Word.g code).text] read
        ((Block.written (.g code) []).nextState state) ∧ read.filter moves = [] := by
  refine ⟨_, takes_line (ofLine?_mode mode number state), ?_⟩
  rw [List.filter_cons_of_neg, List.filter_nil]
  rw [moves, kind_modeCommand mode]
  decide

end Command

/-! ## Modes written and modes in force -/

/-- What the printer takes to be in force is in force, numbers as they read back. -/
structure PrintedModes.Agrees (modes : PrintedModes) (state : ModalState) : Prop where
  /-- Coordinates are meant from the origin. -/
  absolute : state.distance = .absolute
  /-- The unit written last is active. -/
  unit : ∀ unit ∈ modes.unit, state.unit = unit
  /-- The plane written last is active. -/
  plane : ∀ plane ∈ modes.plane, state.plane = plane
  /-- The feed written last is in force. -/
  feed : ∀ feed ∈ modes.feed, readBack? (Decimal.fixedTrimmed feed 3) = some state.feed
  /-- The spindle speed written last is in force. -/
  speed : readBack? (Decimal.fixedTrimmed modes.spindleSpeed 1) = some state.spindleSpeed

/-- A command that was read, with the state after it, does what a segment says. -/
structure Segment.Renders (segment : Segment) (read : Command × ModalState) : Prop where
  /-- The motion stands on the line. -/
  named : read.1.block.namedMotion = some segment.motion
  /-- The command makes that motion. -/
  motion : read.1.motion = some segment.motion
  /-- The coordinates are those of the end, as they read back. -/
  finish : ∀ axis, ∃ value,
    readBack? (Decimal.fixed (segment.finish.along axis) 3) = some value ∧
      read.1.parameters (.ofAxis axis) = some value
  /-- The distances to the center of an arc are the ones of the segment, as they read back. -/
  center : segment.isArc = true → ∀ axis ∈ [segment.plane.first, segment.plane.second],
    ∃ value, readBack? (Decimal.fixed (segment.centerOffset.along axis) 4) = some value ∧
      read.1.parameters (.ofCenter axis) = some value
  /-- Coordinates are meant from the origin. -/
  absolute : read.2.distance = .absolute
  /-- The unit of the segment is active. -/
  unit : read.2.unit = segment.unit
  /-- The plane of an arc is active. -/
  plane : segment.isArc = true → read.2.plane = segment.plane
  /-- The spindle speed is in force, as it reads back. -/
  speed : readBack? (Decimal.fixedTrimmed segment.spindleSpeed 1) = some read.2.spindleSpeed
  /-- A positive feed is in force for every motion but a rapid one, as it reads back. -/
  feed : segment.motion ≠ .rapid → 0.0 < segment.feed →
    readBack? (Decimal.fixedTrimmed segment.feed 3) = some read.2.feed

namespace Segment

variable {segment : Segment} {modes : PrintedModes} {state : ModalState}

/-- The state after the unit line of a segment. -/
def unitState (segment : Segment) (modes : PrintedModes) (state : ModalState) : ModalState :=
  if modes.unit = some segment.unit then state else { state with unit := segment.unit }

/-- The state after the plane line of a segment. -/
def planeState (segment : Segment) (modes : PrintedModes) (state : ModalState) : ModalState :=
  if segment.isArc && modes.plane != some segment.plane then { state with plane := segment.plane }
  else state

/-- The word of a unit puts the unit in force. -/
theorem nextState_unit (unit : LengthUnit) (state : ModalState) :
    (Block.written (.g unit.code) []).nextState state = { state with unit := unit } := by
  cases unit <;> rfl

/-- The word of a plane puts the plane in force. -/
theorem nextState_plane (plane : Plane) (state : ModalState) :
    (Block.written (.g plane.code) []).nextState state = { state with plane := plane } := by
  cases plane <;> rfl

theorem unit_mem_modeCodes (unit : LengthUnit) : unit.code ∈ Block.modeCodes := by
  cases unit <;> decide

theorem plane_mem_modeCodes (plane : Plane) : plane.code ∈ Block.modeCodes := by
  cases plane <;> decide

/-- After the unit line of a segment its unit is in force. -/
theorem agrees_unitState (segment : Segment) (agrees : modes.Agrees state) :
    (segment.unitLine modes).2.Agrees (segment.unitState modes state) ∧
      (segment.unitLine modes).2.unit = some segment.unit := by
  unfold unitLine unitState
  by_cases same : modes.unit = some segment.unit
  · rw [if_pos same, if_pos same]
    exact ⟨agrees, same⟩
  · rw [if_neg same, if_neg same]
    exact ⟨⟨agrees.absolute, fun unit known => Option.some.inj known, agrees.plane,
      fun feed known => (nomatch known), agrees.speed⟩, rfl⟩

/-- After the plane line of an arc its plane is in force, and the unit as it was. -/
theorem agrees_planeState (segment : Segment) (agrees : modes.Agrees state) :
    (segment.planeLine modes).2.Agrees (segment.planeState modes state) ∧
      (segment.planeLine modes).2.unit = modes.unit ∧
        (segment.isArc = true → (segment.planeLine modes).2.plane = some segment.plane) := by
  unfold planeLine planeState
  by_cases new : (segment.isArc && modes.plane != some segment.plane) = true
  · rw [if_pos new, if_pos new]
    exact ⟨⟨agrees.absolute, agrees.unit, fun plane known => Option.some.inj known, agrees.feed,
      agrees.speed⟩, rfl, fun _ => rfl⟩
  · rw [if_neg new, if_neg new]
    refine ⟨agrees, rfl, fun arc => ?_⟩
    rw [arc, Bool.true_and, bne_iff_ne, not_not] at new
    exact new

/-- The unit line of a segment leaves its unit in force. -/
theorem exists_takes_unitLine (segment : Segment) (modes : PrintedModes) (number : Nat)
    (state : ModalState) :
    ∃ read, Command.Takes number state (segment.unitLine modes).1 read
      (segment.unitState modes state) ∧ read.filter Command.moves = [] := by
  unfold unitLine unitState
  split
  · exact ⟨[], Command.takes_nil number state, rfl⟩
  · have taken := Command.exists_takes_mode (unit_mem_modeCodes segment.unit) number state
    rwa [nextState_unit, ← LengthUnit.name_eq_text] at taken

/-- The plane line of an arc leaves its plane in force. -/
theorem exists_takes_planeLine (segment : Segment) (modes : PrintedModes) (number : Nat)
    (state : ModalState) :
    ∃ read, Command.Takes number state (segment.planeLine modes).1 read
      (segment.planeState modes state) ∧ read.filter Command.moves = [] := by
  unfold planeLine planeState
  split
  · have taken := Command.exists_takes_mode (plane_mem_modeCodes segment.plane) number state
    rwa [nextState_plane, ← Plane.name_eq_text] at taken
  · exact ⟨[], Command.takes_nil number state, rfl⟩

/-- The modes after a move that was printed under others. -/
def modesAfter (segment : Segment) (modes : PrintedModes) : PrintedModes :=
  { modes with
    feed := if segment.writesFeed modes then some segment.feed else modes.feed
    spindleSpeed :=
      if segment.writesSpindleSpeed modes then segment.spindleSpeed else modes.spindleSpeed }

/-- The spindle speed of a printable move is in force after its line, as it reads back. -/
theorem Printable.speed_in_force (printable : segment.Printable) (agrees : modes.Agrees state) :
    readBack? (Decimal.fixedTrimmed segment.spindleSpeed 1) =
      some ((Entry.parameters (segment.entries modes) .s).getD state.spindleSpeed) := by
  obtain ⟨value, number, _⟩ := printable.exists_speed
  rw [parameters_speed]
  cases written : segment.writesSpindleSpeed modes with
  | true =>
    rw [if_pos rfl, number.readBack?]
    rfl
  | false =>
    have same : (segment.spindleSpeed == modes.spindleSpeed) = true := by
      simpa [writesSpindleSpeed, bne] using written
    rw [Decimal.fixedTrimmed, Decimal.fixed_of_beq same printable.speed (by decide)]
    exact agrees.speed

/-- The feed of a printable move is in force after its line, as it reads back, if the motion
needs one. -/
theorem Printable.feed_in_force (printable : segment.Printable) (agrees : modes.Agrees state)
    (guided : segment.motion ≠ .rapid) (positive : 0.0 < segment.feed) :
    readBack? (Decimal.fixedTrimmed segment.feed 3) =
      some ((Entry.parameters (segment.entries modes) .f).getD state.feed) := by
  obtain ⟨value, number, _⟩ := printable.exists_feed
  rw [parameters_feed]
  cases written : segment.writesFeed modes with
  | true =>
    rw [if_pos rfl, number.readBack?]
    rfl
  | false =>
    have kept : ∃ feed, modes.feed = some feed ∧ (segment.feed == feed) = true := by
      rw [writesFeed, bne_iff_ne.mpr guided, decide_eq_true positive, Bool.true_and,
        Bool.true_and] at written
      cases known : modes.feed with
      | none =>
        rw [known] at written
        cases written
      | some feed =>
        rw [known] at written
        exact ⟨feed, rfl, by simpa [bne] using written⟩
    obtain ⟨feed, known, same⟩ := kept
    rw [Decimal.fixedTrimmed, Decimal.fixed_of_beq same printable.feed (by decide)]
    exact agrees.feed feed known

/-- What the printer takes to be in force after a printable move is in force after its line. -/
theorem Printable.agrees_modesAfter (printable : segment.Printable)
    (agrees : modes.Agrees state) :
    (segment.modesAfter modes).Agrees
      ((Block.written (.g segment.motion.code) (segment.entries modes)).nextState state) := by
  rw [Block.nextState_written_motion]
  refine ⟨agrees.absolute, agrees.unit, agrees.plane, ?_, ?_⟩
  · intro feed known
    show readBack? _ = some ((Entry.parameters (segment.entries modes) .f).getD state.feed)
    have known : (if segment.writesFeed modes then some segment.feed else modes.feed) =
        some feed := known
    obtain ⟨value, number, _⟩ := printable.exists_feed
    rw [parameters_feed]
    cases written : segment.writesFeed modes with
    | true =>
      rw [written] at known
      cases known
      rw [if_pos rfl, number.readBack?]
      rfl
    | false =>
      rw [written] at known
      exact agrees.feed feed known
  · have force := printable.speed_in_force agrees
    show readBack? (Decimal.fixedTrimmed (if segment.writesSpindleSpeed modes then
      segment.spindleSpeed else modes.spindleSpeed) 1) = _
    cases written : segment.writesSpindleSpeed modes with
    | true => exact force
    | false =>
      rw [if_neg Bool.false_ne_true, parameters_speed, written]
      exact agrees.speed

/-- The line of a printable move reads as one command that does what the segment says. -/
theorem Printable.exists_takes_moveText (printable : segment.Printable)
    (agrees : modes.Agrees state) (unit : modes.unit = some segment.unit)
    (plane : segment.isArc = true → modes.plane = some segment.plane) (number : Nat) :
    ∃ read next, Command.Takes number state [segment.moveText modes] [read] next ∧
      Command.moves read = true ∧ segment.Renders read ∧
        (segment.modesAfter modes).Agrees next := by
  have parsed := printable.ofLine?_moveText modes number state
  obtain ⟨motion, kind⟩ := printable.motion_moveCommand modes number state.motion
  refine ⟨_, _, Command.takes_line parsed, ?_, ?_, printable.agrees_modesAfter agrees⟩
  · rw [Command.moves, kind]
    decide
  · rw [moveBlock, Block.nextState_written_motion]
    exact {
      named := Block.namedMotion_written _ _
      motion := motion
      finish := printable.exists_axis modes
      center := fun arc _ inPlane => printable.exists_center modes arc inPlane
      absolute := agrees.absolute
      unit := agrees.unit _ unit
      plane := fun arc => agrees.plane _ (plane arc)
      speed := printable.speed_in_force agrees
      feed := printable.feed_in_force agrees }

/-- The lines of a printable segment read as commands of which one moves, as the segment says. -/
theorem Printable.exists_takes_print (printable : segment.Printable)
    (agrees : modes.Agrees state) (number : Nat) :
    ∃ read moved next, Command.Takes number state (segment.print modes).1 read next ∧
      read.filter Command.moves = [moved] ∧ segment.Renders moved ∧
        (segment.print modes).2.Agrees next := by
  obtain ⟨agreesUnit, unit⟩ := segment.agrees_unitState agrees
  obtain ⟨agreesPlane, kept, plane⟩ := segment.agrees_planeState agreesUnit
  obtain ⟨units, takesUnit, stillUnit⟩ := segment.exists_takes_unitLine modes number state
  obtain ⟨planes, takesPlane, stillPlane⟩ :=
    segment.exists_takes_planeLine (segment.unitLine modes).2
      (number + (segment.unitLine modes).1.length) (segment.unitState modes state)
  obtain ⟨moved, next, takesMove, moves, renders, agreesMove⟩ :=
    printable.exists_takes_moveText agreesPlane (kept.trans unit) plane
      (number + ((segment.unitLine modes).1 ++
        (segment.planeLine (segment.unitLine modes).2).1).length)
  rw [List.length_append, ← Nat.add_assoc] at takesMove
  have takes := (takesUnit.append takesPlane).append
    (by rw [List.length_append, ← Nat.add_assoc]; exact takesMove)
  refine ⟨_, moved, next, takes, ?_, renders, agreesMove⟩
  rw [List.filter_append, List.filter_append, stillUnit, stillPlane, List.filter_cons_of_pos moves]
  rfl

end Segment

/-- The lines of printable segments are all accepted, and the commands that move do what the
segments say, one for each. -/
theorem exists_takes_printFrom {segments : List Segment}
    (printable : ∀ segment ∈ segments, segment.Printable) {modes : PrintedModes}
    {state : ModalState} (agrees : modes.Agrees state) (number : Nat) :
    ∃ read next, Command.Takes number state (printFrom modes segments) read next ∧
      List.Forall₂ Segment.Renders segments (read.filter Command.moves) := by
  induction segments generalizing modes state number with
  | nil => exact ⟨[], state, Command.takes_nil number state, .nil⟩
  | cons segment others ih =>
    obtain ⟨first, moved, middle, takesFirst, only, renders, agreesFirst⟩ :=
      (printable segment List.mem_cons_self).exists_takes_print agrees number
    obtain ⟨rest, next, takesRest, follow⟩ :=
      ih (fun other member => printable other (List.mem_cons_of_mem _ member)) agreesFirst
        (number + (segment.print modes).1.length)
    refine ⟨first ++ rest, next, takesFirst.append takesRest, ?_⟩
    rw [List.filter_append, only]
    exact .cons renders follow

/-- The printed lines of segments with finite numbers, and with no feed and no spindle speed
below zero, are all accepted from the default modes. They read as one command that moves for each
segment, in order, and under it the motion, the end, the unit, an arc's plane, the spindle speed
and a feed that is needed are the segment's, as they read back. -/
theorem printPath_reads_back (segments : List Segment)
    (printable : ∀ segment ∈ segments, segment.Printable) :
    ∃ read, Command.readLines 1 {} (printPath segments) = .ok read ∧
      List.Forall₂ Segment.Renders segments (read.filter Command.moves) := by
  cases segments with
  | nil => exact ⟨[], rfl, .nil⟩
  | cons segment others =>
    have mode : 90 ∈ Block.modeCodes := by decide
    obtain ⟨first, takesFirst, still⟩ := Command.exists_takes_mode mode 1 {}
    have agrees : PrintedModes.Agrees {} ((Block.written (.g 90) []).nextState {}) :=
      ⟨rfl, fun unit known => (nomatch known), fun plane known => (nomatch known),
        fun feed known => (nomatch known), by decide +kernel⟩
    obtain ⟨rest, next, takesRest, renders⟩ := exists_takes_printFrom printable agrees 2
    have whole : printPath (segment :: others) =
        [(Word.g 90).text] ++ printFrom {} (segment :: others) := by
      have name : ascii "G90" = (Word.g 90).text := by decide +kernel
      rw [← name]
      rfl
    have takes := takesFirst.append takesRest
    rw [← whole] at takes
    refine ⟨first ++ rest, takes.readLines, ?_⟩
    rw [List.filter_append, still]
    exact renders

/-- A straight move and an arc in another plane are read back. -/
theorem printPath_reads_back_of_arc :
    ∃ segments : List Segment,
      segments = [{ finish := ⟨1, 2, 3⟩, feed := 100 },
        { motion := .clockwise, plane := .zx, centerOffset := ⟨0, 0, 5⟩, feed := 100,
          spindleSpeed := 1000 }] ∧
      (∀ segment ∈ segments, segment.Printable) ∧
      ∃ read, Command.readLines 1 {} (printPath segments) = .ok read ∧
        List.Forall₂ Segment.Renders segments (read.filter Command.moves) := by
  have straight : Segment.Printable { finish := ⟨1, 2, 3⟩, feed := 100 } :=
    ⟨fun axis => by cases axis <;> decide +kernel, fun arc => (nomatch arc), by decide +kernel,
      by decide +kernel, by decide +kernel, by decide +kernel⟩
  have arc : Segment.Printable
      { motion := .clockwise, plane := .zx, centerOffset := ⟨0, 0, 5⟩, feed := 100,
        spindleSpeed := 1000 } :=
    ⟨fun axis => by cases axis <;> decide +kernel, fun _ axis => by cases axis <;> decide +kernel,
      by decide +kernel, by decide +kernel, by decide +kernel, by decide +kernel⟩
  refine ⟨_, rfl, ?_, printPath_reads_back _ ?_⟩ <;>
    exact List.forall_mem_cons.mpr ⟨straight, List.forall_mem_singleton.mpr arc⟩

end GcodeSender
