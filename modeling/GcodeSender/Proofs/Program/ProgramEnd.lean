import Mathlib.Logic.Basic
import GcodeSender.Proofs.Gcode.FewerWords
import GcodeSender.Proofs.Program.Continuity

/-!
# Moves on a line that ends the program

M2 and M30 put the default modes back in force, and they do so before the move of their own
line is made: the move is then read in absolute distances and in plane XY, whatever the line
says. Taken off the line, the word leaves every other reading of the line as it was, so a line
is compared with the same line without the word. The main statement says exactly when both
make the same segment: when the line leaves plane XY in force and its segment is the same in
absolute distances. Both also move the tool to the same point exactly when the line leaves plane
XY in force, and absolute distances or machine coordinates, or coordinates that happen to mean
the same in either distance mode.
-/
namespace GcodeSender

/-- An item is a word that ends the program. -/
def Token.endsProgram : Token → Bool
  | .command word _ => word.endsProgram
  | _ => false

/-- The block without the words that end the program. -/
def Block.withoutProgramEnd (block : Block) : Block :=
  { block with words := block.words.filter fun word => !word.endsProgram }

/-- The segment that a command makes under the modes of a state, if it makes one. -/
def Command.segmentUnder (command : Command) (state : ModalState) :
    Except ArcFault (Option Segment) :=
  (command.perform state).map Prod.fst

/-- Only M2 and M30 end a program. -/
theorem Word.eq_of_endsProgram {word : Word} (ends : word.endsProgram = true) :
    word = m 2 ∨ word = m 30 := by
  simpa [endsProgram] using ends

namespace Block

variable {block made : Block}

/-! ## Readings that do not see the end of the program -/

/-- What neither M2 nor M30 says is read the same without them. -/
theorem findSome?_withoutProgramEnd {α : Type} (block : Block) (read : Word → Option α)
    (two : read (Word.m 2) = none) (thirty : read (Word.m 30) = none) :
    block.withoutProgramEnd.words.findSome? read = block.words.findSome? read := by
  have silent (word : Word) (ends : word.endsProgram = true) : read word = none := by
    rcases Word.eq_of_endsProgram ends with rfl | rfl
    · exact two
    · exact thirty
  exact findSome?_without silent

/-- No G word ends a program. -/
theorem letter_of_endsProgram (word : Word) (ends : word.endsProgram = true) :
    word.letter ≠ .g := by
  rcases Word.eq_of_endsProgram ends with rfl | rfl <;> decide

/-- The coolants are the same without the end of the program. -/
theorem coolant_withoutProgramEnd (block : Block) (coolant : Coolant) :
    block.withoutProgramEnd.words.foldl Word.applyCoolant coolant =
      block.words.foldl Word.applyCoolant coolant := by
  unfold withoutProgramEnd
  dsimp only
  induction block.words generalizing coolant with
  | nil => rfl
  | cons word others ih =>
    cases ends : word.endsProgram with
    | false => simp only [ends, Bool.not_false, List.filter_cons_of_pos, List.foldl_cons, ih]
    | true =>
      have silent : Word.applyCoolant coolant word = coolant := by
        rcases Word.eq_of_endsProgram ends with rfl | rfl <;> rfl
      rw [List.filter_cons_of_neg (by simp [ends]), List.foldl_cons, silent, ih]

/-- The motion that the line makes is the same without the end of the program. -/
theorem motion?_withoutProgramEnd (block : Block) (active : Option Motion) :
    block.withoutProgramEnd.motion? active = block.motion? active :=
  motion?_without letter_of_endsProgram active

/-- A block that makes a motion has coordinates. -/
theorem hasAxes_of_motion? {active : Option Motion} {motion : Motion}
    (moves : block.motion? active = some motion) : block.hasAxes = true := by
  unfold motion? at moves
  split at moves
  · next moving => exact (Bool.and_eq_true_iff.mp moving).1
  · cases moves

/-- A block that makes a motion says something. -/
theorem isEmpty_of_motion? {active : Option Motion} {motion : Motion}
    (moves : block.motion? active = some motion) : block.isEmpty = false := by
  have axes := hasAxes_of_motion? moves
  have given {letter : Letter} (value : block.parameters.has letter = true)
      (member : letter ∈ Letter.all) : block.isEmpty = false := by
    obtain ⟨number, same⟩ := Option.isSome_iff_exists.mp value
    have listed : (letter, number) ∈ block.parameters.toList :=
      List.mem_filterMap.mpr ⟨letter, member, by rw [same]; rfl⟩
    have solid : block.parameters.toList.isEmpty = false :=
      List.isEmpty_eq_false_iff.mpr (List.ne_nil_of_mem listed)
    rw [isEmpty, solid, Bool.and_false]
  simp only [hasAxes, Parameters.hasAxes, Bool.or_eq_true] at axes
  rcases axes with (x | y) | z
  · exact given x (by decide)
  · exact given y (by decide)
  · exact given z (by decide)

/-- The rules are broken or kept as without the end of the program. -/
theorem fault?_withoutProgramEnd (block : Block) (active : Option Motion) :
    block.withoutProgramEnd.fault? active = block.fault? active :=
  fault?_without letter_of_endsProgram active

/-- The block leaves the same modes without the end of the program, program end apart. -/
theorem update_withoutProgramEnd (block : Block) (state : ModalState) :
    block.withoutProgramEnd.update state = block.update state := by
  have read {α : Type} (ask : Word → Option α) (kept : α) (two : ask (Word.m 2) = none)
      (thirty : ask (Word.m 30) = none) :
      block.withoutProgramEnd.select ask kept = block.select ask kept := by
    simp only [select, block.findSome?_withoutProgramEnd ask two thirty]
  have tool := block.findSome?_withoutProgramEnd Word.tool? rfl rfl
  have values : block.withoutProgramEnd.parameters = block.parameters := rfl
  have motion :
      block.withoutProgramEnd.activeMotion state.motion = block.activeMotion state.motion :=
    activeMotion_without letter_of_endsProgram state.motion
  simp only [update, tool, values, motion, block.coolant_withoutProgramEnd,
    read Word.distance? _ rfl rfl, read Word.unit? _ rfl rfl, read Word.plane? _ rfl rfl,
    read Word.feedMode? _ rfl rfl, read Word.coordinateSystem? _ rfl rfl,
    read Word.spindle? _ rfl rfl]

/-- Without its words, a block does not end the program. -/
theorem endsProgram_withoutProgramEnd (block : Block) :
    block.withoutProgramEnd.endsProgram = false := by
  simp [endsProgram, withoutProgramEnd]

/-- Without the end of the program a block leaves its modes in force. -/
theorem nextState_withoutProgramEnd (block : Block) (state : ModalState) :
    block.withoutProgramEnd.nextState state = block.update state := by
  rw [nextState, block.endsProgram_withoutProgramEnd, block.update_withoutProgramEnd]
  rfl

/-! ## Collecting the items without the end of the program -/

/-- The items of a block without the end of the program make the block without it. -/
theorem collect?_withoutProgramEnd {tokens : List Token}
    (collected : block.collect? tokens = .ok made) :
    block.withoutProgramEnd.collect? (tokens.filter fun token => !token.endsProgram) =
      .ok made.withoutProgramEnd := by
  have same : Token.endsProgram = Token.isDropped Word.endsProgram := by
    funext token
    cases token <;> rfl
  rw [same]
  exact collect?_without _ collected

/-- A block ends the program as its items do. -/
theorem endsProgram_of_collect? {tokens : List Token}
    (collected : block.collect? tokens = .ok made) :
    made.endsProgram = (block.endsProgram || tokens.any Token.endsProgram) := by
  induction tokens generalizing block with
  | nil =>
    cases collected
    simp
  | cons token others ih =>
    rw [collect?] at collected
    split at collected
    · cases collected
    · next next added =>
      have step : next.endsProgram = (block.endsProgram || token.endsProgram) := by
        cases token with
        | command word value =>
          rw [(addWord_eq_ok_iff.mp added).2.2]
          simp [endsProgram, Token.endsProgram]
        | parameter letter value =>
          obtain ⟨known, -, -, rfl⟩ := addParameter_eq_ok_iff.mp added
          simp [endsProgram, Token.endsProgram]
        | lineNumber number =>
          simp only [add] at added
          split at added
          · cases added
          · cases added
            simp [endsProgram, Token.endsProgram]
        | comment text =>
          cases added
          simp only [addComment]
          split <;> simp [endsProgram, Token.endsProgram]
        | checksum value =>
          cases added
          simp [Token.endsProgram]
      rw [ih collected, step, List.any_cons, Bool.or_assoc]

end Block

/-! ## Segments under other modes -/

namespace Command

variable {command : Command} {state other : ModalState} {motion : Motion} {segment : Segment}

/-- A command makes a segment exactly when it is a motion whose segment can be made. -/
theorem segmentUnder_eq_ok_some_iff :
    command.segmentUnder state = .ok (some segment) ↔
      ∃ motion, command.kind = .motion ∧ command.motion = some motion ∧
        command.segment? state motion = .ok segment := by
  unfold segmentUnder perform
  constructor
  · intro made
    split at made
    · next motion kind moves =>
      split at made
      · cases made
      · next found =>
        cases made
        exact ⟨motion, kind, moves, found⟩
    · cases made
    · cases made
  · rintro ⟨motion, kind, moves, found⟩
    rw [kind, moves]
    simp only [found]
    rfl

/-- Carrying a command out makes its segment and moves the tool to the point it leads to. -/
theorem perform_eq_ok_some_iff {next : ModalState} :
    command.perform state = .ok (some segment, next) ↔
      command.segmentUnder state = .ok (some segment) ∧
        next = { state with position := command.target state } := by
  rw [segmentUnder_eq_ok_some_iff]
  constructor
  · intro done
    unfold perform at done
    split at done
    · next motion kind moves =>
      split at done
      · cases done
      · next found =>
        cases done
        exact ⟨⟨motion, kind, moves, found⟩, rfl⟩
    · cases done
    · cases done
  · rintro ⟨⟨motion, kind, moves, found⟩, rfl⟩
    unfold perform
    rw [kind, moves]
    simp only [found]

/-- A segment lies in the plane of the state that it is made under. -/
theorem plane_of_segment? (made : command.segment? state motion = .ok segment) :
    segment.plane = state.plane := by
  unfold segment? at made
  dsimp only at made
  split at made
  · split at made
    · cases made
    · cases made
      rfl
  · cases made
    rfl

/-- Of a state, a segment sees the position, the unit, the plane, the feed, the spindle speed
and, through the point it leads to, the offset and the distance mode. -/
theorem segment?_congr (target : command.target other = command.target state)
    (position : other.position = state.position) (unit : other.unit = state.unit)
    (plane : other.plane = state.plane) (feed : other.feed = state.feed)
    (speed : other.spindleSpeed = state.spindleSpeed) :
    command.segment? other motion = command.segment? state motion := by
  unfold segment? straightSegment
  rw [target, position, unit, plane, feed, speed]

/-- A coordinate is the same as in absolute distances exactly when these are in force, or it is
one of the machine, or it means the same from the position as from the offset. -/
theorem targetAlong_absolute_iff (axis : Axis) :
    command.targetAlong { state with distance := .absolute } axis =
        command.targetAlong state axis ↔
      state.distance = .absolute ∨ command.inMachineCoordinates = true ∨
        ∀ value, command.parameters (.ofAxis axis) = some value →
          state.position.along axis + state.unit.toMillimetres value =
            state.unit.toMillimetres value + state.offset.along axis := by
  unfold targetAlong
  cases given : command.parameters (.ofAxis axis) with
  | none => simp
  | some value =>
    cases machine : command.inMachineCoordinates with
    | true => simp
    | false =>
      cases distance : state.distance with
      | absolute => simp
      | incremental => simp [eq_comm]

/-- A command leads to the same point as in absolute distances exactly when each coordinate is
the same. -/
theorem target_absolute_iff :
    command.target { state with distance := .absolute } = command.target state ↔
      state.distance = .absolute ∨ command.inMachineCoordinates = true ∨
        ∀ axis value, command.parameters (.ofAxis axis) = some value →
          state.position.along axis + state.unit.toMillimetres value =
            state.unit.toMillimetres value + state.offset.along axis := by
  have along : command.target { state with distance := .absolute } = command.target state ↔
      ∀ axis, command.targetAlong { state with distance := .absolute } axis =
        command.targetAlong state axis := by
    constructor
    · intro same axis
      have shown := congrArg (Point.along · axis) same
      simpa only [target, Point.along_ofAxes] using shown
    · intro same
      exact congrArg Point.ofAxes (funext same)
  simp only [along, targetAlong_absolute_iff, forall_or_left]

/-- A command that leads to the same point in absolute distances makes the same segment. -/
theorem segmentUnder_absolute_iff
    (same : command.target { state with distance := .absolute } = command.target state) :
    command.segmentUnder { state with distance := .absolute } = .ok (some segment) ↔
      command.segmentUnder state = .ok (some segment) := by
  have made (motion : Motion) : command.segment? { state with distance := .absolute } motion =
      command.segment? state motion := segment?_congr same rfl rfl rfl rfl rfl
  simp only [segmentUnder_eq_ok_some_iff, made]

/-- In plane XY, the end of a program changes a segment as absolute distances do. -/
theorem segmentUnder_afterProgramEnd_iff (flat : state.plane = .xy) :
    command.segmentUnder state.afterProgramEnd = .ok (some segment) ↔
      command.segmentUnder { state with distance := .absolute } = .ok (some segment) := by
  have target : command.target state.afterProgramEnd =
      command.target { state with distance := .absolute } := rfl
  have same (motion : Motion) : command.segment? state.afterProgramEnd motion =
      command.segment? { state with distance := .absolute } motion :=
    segment?_congr target rfl rfl flat.symm rfl rfl
  simp only [segmentUnder_eq_ok_some_iff, same]

/-- A segment made at the end of a program is made without it exactly when plane XY was in force
and the segment is the same in absolute distances. -/
theorem segmentUnder_iff_of_programEnd
    (made : command.segmentUnder state.afterProgramEnd = .ok (some segment)) :
    command.segmentUnder state = .ok (some segment) ↔
      state.plane = .xy ∧
        command.segmentUnder { state with distance := .absolute } =
          command.segmentUnder state := by
  constructor
  · intro same
    obtain ⟨_, _, _, found⟩ := segmentUnder_eq_ok_some_iff.mp made
    obtain ⟨_, _, _, refound⟩ := segmentUnder_eq_ok_some_iff.mp same
    have flat : state.plane = .xy :=
      (plane_of_segment? refound).symm.trans (plane_of_segment? found)
    refine ⟨flat, ?_⟩
    rw [same]
    exact (segmentUnder_afterProgramEnd_iff flat).mp made
  · rintro ⟨flat, same⟩
    rw [← same]
    exact (segmentUnder_afterProgramEnd_iff flat).mp made

/-- A segment made at the end of a program is made without it, up to the same point, exactly when
plane XY was in force and the command leads to the same point in absolute distances. -/
theorem target_iff_of_programEnd
    (made : command.segmentUnder state.afterProgramEnd = .ok (some segment)) :
    command.segmentUnder state = .ok (some segment) ∧
        command.target state = command.target state.afterProgramEnd ↔
      state.plane = .xy ∧
        command.target { state with distance := .absolute } = command.target state := by
  have target : command.target state.afterProgramEnd =
      command.target { state with distance := .absolute } := rfl
  rw [target]
  constructor
  · rintro ⟨same, point⟩
    exact ⟨((segmentUnder_iff_of_programEnd made).mp same).1, point.symm⟩
  · rintro ⟨flat, point⟩
    have absolute := (segmentUnder_afterProgramEnd_iff flat).mp made
    exact ⟨(segmentUnder_absolute_iff point).mp absolute, point.symm⟩

variable {number : Nat} {short : Bytes} {block : Block} {active : Option Motion}

/-- Without the end of the program a line leads to the same point under the same modes. -/
theorem target_withoutProgramEnd (line : Bytes) :
    (ofSound number short block.withoutProgramEnd active).target state =
      (ofSound number line block active).target state := by
  have machine : (ofSound number short block.withoutProgramEnd active).inMachineCoordinates =
      (ofSound number line block active).inMachineCoordinates :=
    Block.hasWord_without_g Block.letter_of_endsProgram 53
  refine congrArg Point.ofAxes (funext fun axis => ?_)
  rw [targetAlong, targetAlong, machine]
  rfl

/-- Without the end of the program a line makes the same segment under the same modes. -/
theorem segmentUnder_withoutProgramEnd (line : Bytes) :
    (ofSound number short block.withoutProgramEnd active).segmentUnder state =
        .ok (some segment) ↔
      (ofSound number line block active).segmentUnder state = .ok (some segment) := by
  have moves : (ofSound number short block.withoutProgramEnd active).motion =
      (ofSound number line block active).motion := block.motion?_withoutProgramEnd active
  have kinds {motion : Motion}
      (found : (ofSound number line block active).motion = some motion) :
      (ofSound number short block.withoutProgramEnd active).kind = .motion ∧
        (ofSound number line block active).kind = .motion := by
    have moving : block.motion? active = some motion := found
    have short : block.withoutProgramEnd.motion? active = some motion :=
      (block.motion?_withoutProgramEnd active).trans moving
    simp only [ofSound, classify, short, moving, Option.isSome_some, if_true, and_self]
  have same (motion : Motion) :
      (ofSound number short block.withoutProgramEnd active).segment? state motion =
        (ofSound number line block active).segment? state motion := by
    unfold segment? straightSegment
    rw [target_withoutProgramEnd line]
    rfl
  rw [segmentUnder_eq_ok_some_iff, segmentUnder_eq_ok_some_iff]
  constructor
  · rintro ⟨motion, _, found, made⟩
    rw [moves] at found
    exact ⟨motion, (kinds found).2, found, same motion ▸ made⟩
  · rintro ⟨motion, _, found, made⟩
    exact ⟨motion, (kinds found).1, moves.trans found, (same motion).trans made⟩

end Command

/-! ## Lines with and without the end of the program -/

/-- A line reads as one row of items only. -/
theorem Token.Reads.unique {line : Bytes} {tokens others : List Token}
    (first : Reads line tokens) (second : Reads line others) : tokens = others := by
  obtain ⟨placed, read, rfl⟩ := first
  obtain ⟨again, reread, rfl⟩ := second
  rw [read] at reread
  cases reread
  rfl

namespace LineOutcome

variable {number : Nat} {line other : Bytes} {state next : ModalState} {made : Command}
  {segment : Segment}

/-- A line gives a command and a segment exactly when it reads as the command and carrying the
command out makes the segment. -/
theorem ofLine_eq_command_iff {found : Option Segment} :
    ofLine number line state = (.command made found, next) ↔
      ∃ middle, Command.ofLine? number line state = .ok (some made, middle) ∧
        made.perform middle = .ok (found, next) := by
  unfold ofLine
  constructor
  · intro read
    split at read
    · cases read
    · cases read
    · next command middle parsed =>
      split at read
      · cases read
      · next other after done =>
        cases read
        exact ⟨middle, parsed, done⟩
  · rintro ⟨middle, parsed, done⟩
    simp only [parsed, done]

/-- A line that makes segments gives a command with one. -/
theorem exists_command_of_segments (solid : (ofLine number line state).1.segments ≠ []) :
    ∃ made segment next, ofLine number line state = (.command made (some segment), next) := by
  cases read : ofLine number line state with
  | mk outcome next =>
    rw [read] at solid
    cases outcome with
    | nothing => exact absurd rfl solid
    | refused error => exact absurd rfl solid
    | command made found =>
      cases found with
      | none => exact absurd rfl solid
      | some segment => exact ⟨made, segment, next, rfl⟩

/-- A line whose block breaks no rule makes the segment that its command makes under the modes
that the block leaves, and moves the tool to the point that this leads to. -/
theorem ofLine_eq_some_iff {tokens : List Token} {block : Block}
    (reads : Token.Reads line tokens) (collected : Block.collect? {} tokens = .ok block)
    (solid : block.isEmpty = false) (sound : block.fault? state.motion = none) :
    ofLine number line state = (.command made (some segment), next) ↔
      made = .ofSound number line block state.motion ∧
        made.segmentUnder (block.nextState state) = .ok (some segment) ∧
          next = { block.nextState state with
            position := made.target (block.nextState state) } := by
  have parsed : Command.ofLine? number line state =
      .ok (some (.ofSound number line block state.motion), block.nextState state) :=
    Command.ofLine?_eq_ok_some_iff.mpr
      ⟨tokens, block, reads, collected, solid, sound, rfl, rfl⟩
  rw [ofLine_eq_command_iff]
  constructor
  · rintro ⟨middle, again, done⟩
    rw [parsed] at again
    cases again
    exact ⟨rfl, Command.perform_eq_ok_some_iff.mp done⟩
  · rintro ⟨rfl, done⟩
    exact ⟨_, parsed, Command.perform_eq_ok_some_iff.mpr done⟩

/-- A line that ends the program and makes a segment makes it under the default modes. -/
theorem exists_block_of_programEnd {tokens : List Token} (reads : Token.Reads line tokens)
    (ends : tokens.any Token.endsProgram = true)
    (done : ofLine number line state = (.command made (some segment), next)) :
    ∃ block, Block.collect? {} tokens = .ok block ∧ block.fault? state.motion = none ∧
      (block.motion? state.motion).isSome = true ∧
        made = .ofSound number line block state.motion ∧
          made.segmentUnder (block.update state).afterProgramEnd = .ok (some segment) ∧
            next.position = made.target (block.update state).afterProgramEnd := by
  obtain ⟨middle, parsed, _⟩ := ofLine_eq_command_iff.mp done
  obtain ⟨_, block, again, collected, solid, sound, _, _⟩ :=
    Command.ofLine?_eq_ok_some_iff.mp parsed
  cases reads.unique again
  obtain ⟨rfl, under, rfl⟩ := (ofLine_eq_some_iff reads collected solid sound).mp done
  obtain ⟨motion, _, moves, _⟩ := Command.segmentUnder_eq_ok_some_iff.mp under
  have defaults : block.nextState state = (block.update state).afterProgramEnd := by
    rw [Block.nextState, Block.endsProgram_of_collect? collected, ends, Bool.or_true]
    rfl
  rw [defaults] at under
  refine ⟨block, collected, sound, ?_, rfl, under, ?_⟩
  · rw [show block.motion? state.motion = some motion from moves]
    rfl
  · show Command.target _ (block.nextState state) = _
    rw [defaults]

/-- Without its M2 or M30 a line that moves the tool does so under the modes that it leaves. -/
theorem ofLine_withoutProgramEnd_iff {tokens : List Token} {block : Block}
    (shorter : Token.Reads other (tokens.filter fun token => !token.endsProgram))
    (collected : Block.collect? {} tokens = .ok block)
    (sound : block.fault? state.motion = none)
    (moves : (block.motion? state.motion).isSome = true) :
    ofLine number other state = (.command made (some segment), next) ↔
      made = .ofSound number other block.withoutProgramEnd state.motion ∧
        made.segmentUnder (block.update state) = .ok (some segment) ∧
          next = { block.update state with position := made.target (block.update state) } := by
  obtain ⟨motion, moving⟩ := Option.isSome_iff_exists.mp moves
  have solid : block.withoutProgramEnd.isEmpty = false :=
    Block.isEmpty_of_motion? ((block.motion?_withoutProgramEnd state.motion).trans moving)
  have sound : block.withoutProgramEnd.fault? state.motion = none :=
    (block.fault?_withoutProgramEnd state.motion).trans sound
  rw [ofLine_eq_some_iff shorter (Block.collect?_withoutProgramEnd collected) solid sound,
    Block.nextState_withoutProgramEnd]

/-- Take a line that ends the program and makes a segment, and the same line without its M2 or
M30. The shorter line makes the same segment exactly when the line leaves plane XY in force and
its segment is the same in absolute distances. It also moves the tool to the same point exactly
when the line leaves plane XY in force, and absolute distances, or coordinates of the machine,
or coordinates that mean the same from the position as from the offset. -/
theorem same_segment_without_programEnd_iff {tokens : List Token}
    (reads : Token.Reads line tokens)
    (shorter : Token.Reads other (tokens.filter fun token => !token.endsProgram))
    (ends : tokens.any Token.endsProgram = true)
    (done : ofLine number line state = (.command made (some segment), next)) :
    let left := made.block.update state
    ((∃ made final, ofLine number other state = (.command made (some segment), final)) ↔
      left.plane = .xy ∧
        made.segmentUnder { left with distance := .absolute } = made.segmentUnder left) ∧
    ((∃ made final, ofLine number other state = (.command made (some segment), final) ∧
        final.position = next.position) ↔
      left.plane = .xy ∧
        (left.distance = .absolute ∨ made.inMachineCoordinates = true ∨
          ∀ axis value, made.parameters (.ofAxis axis) = some value →
            left.position.along axis + left.unit.toMillimetres value =
              left.unit.toMillimetres value + left.offset.along axis)) := by
  obtain ⟨block, collected, sound, moves, rfl, under, point⟩ :=
    exists_block_of_programEnd reads ends done
  have short (made : Command) (final : ModalState) :=
    @ofLine_withoutProgramEnd_iff number other state final made segment _ _ shorter collected
      sound moves
  have remade := @Command.segmentUnder_withoutProgramEnd (block.update state) segment number other
    block state.motion line
  have place := @Command.target_withoutProgramEnd (block.update state) number other block
    state.motion line
  constructor
  · rw [show (Command.ofSound number line block state.motion).block = block from rfl,
      ← Command.segmentUnder_iff_of_programEnd under, ← remade]
    constructor
    · rintro ⟨made, final, read⟩
      obtain ⟨rfl, same, _⟩ := (short made final).mp read
      exact same
    · intro same
      exact ⟨_, _, (short _ _).mpr ⟨rfl, same, rfl⟩⟩
  · rw [show (Command.ofSound number line block state.motion).block = block from rfl,
      ← Command.target_absolute_iff, ← Command.target_iff_of_programEnd under, ← remade, point]
    constructor
    · rintro ⟨made, final, read, same⟩
      obtain ⟨rfl, segment, rfl⟩ := (short made final).mp read
      exact ⟨segment, place.symm.trans same⟩
    · rintro ⟨segment, same⟩
      exact ⟨_, _, (short _ _).mpr ⟨rfl, segment, rfl⟩, place.trans same⟩

/-- The conditions are read off a line that moves by a distance and ends the program. -/
theorem same_segment_without_programEnd_of_incremental :
    ∃ made segment next,
      ofLine 1 (ascii "G91 G1 X5 M2") { position := ⟨10, 0, 0⟩ } =
          (.command made (some segment), next) ∧
        let left := made.block.update { position := ⟨10, 0, 0⟩ }
        ((∃ made final, ofLine 1 (ascii "G91 G1 X5") { position := ⟨10, 0, 0⟩ } =
            (.command made (some segment), final)) ↔
          left.plane = .xy ∧
            made.segmentUnder { left with distance := .absolute } = made.segmentUnder left) ∧
        ((∃ made final, ofLine 1 (ascii "G91 G1 X5") { position := ⟨10, 0, 0⟩ } =
            (.command made (some segment), final) ∧ final.position = next.position) ↔
          left.plane = .xy ∧
            (left.distance = .absolute ∨ made.inMachineCoordinates = true ∨
              ∀ axis value, made.parameters (.ofAxis axis) = some value →
                left.position.along axis + left.unit.toMillimetres value =
                  left.unit.toMillimetres value + left.offset.along axis)) := by
  obtain ⟨made, segment, next, done⟩ := exists_command_of_segments
    (show (ofLine 1 (ascii "G91 G1 X5 M2") { position := ⟨10, 0, 0⟩ }).1.segments ≠ [] by
      decide +kernel)
  have reads : Token.Reads (ascii "G91 G1 X5 M2")
      [.command (.g 91) 91, .command (.g 1) 1, .parameter 0x58 5, .command (.m 2) 2] :=
    Token.reads_of_toOption [⟨.command (.g 91) 91, 1⟩, ⟨.command (.g 1) 1, 5⟩,
      ⟨.parameter 0x58 5, 8⟩, ⟨.command (.m 2) 2, 11⟩] (by decide +kernel)
  have shorter : Token.Reads (ascii "G91 G1 X5")
      [.command (.g 91) 91, .command (.g 1) 1, .parameter 0x58 5] :=
    Token.reads_of_toOption [⟨.command (.g 91) 91, 1⟩, ⟨.command (.g 1) 1, 5⟩,
      ⟨.parameter 0x58 5, 8⟩] (by decide +kernel)
  exact ⟨made, segment, next, done,
    same_segment_without_programEnd_iff reads shorter (by decide) done⟩

/-- From X10, a move by five on a line that ends the program goes to X5, and without the word
to X15. -/
theorem finish_changes_at_program_end :
    (ofLine 1 (ascii "G91 G1 X5 M2") { position := ⟨10, 0, 0⟩ }).1.segments.map
        (fun segment => segment.finish.x) = [5] ∧
      (ofLine 1 (ascii "G91 G1 X5") { position := ⟨10, 0, 0⟩ }).1.segments.map
        (fun segment => segment.finish.x) = [15] := by
  decide +kernel

end LineOutcome

end GcodeSender
