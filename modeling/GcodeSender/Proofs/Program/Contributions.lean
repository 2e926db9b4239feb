import Mathlib.Data.List.Forall2
import GcodeSender.Proofs.Gcode.BlockItems
import GcodeSender.Proofs.Program.ProgramEnd
import GcodeSender.Proofs.Program.RefusedLines

/-!
# What the lines of a program contribute

A line gives an error, a command, or nothing if it has nothing but remarks
(`LineOutcome.Fits`). A motion gives a segment besides, and a command with coordinates is a motion
unless one of its words takes them for itself. A program collects what its lines give by their
index (`Program.loadFrom_part`), so each of its lists is in the order of the lines, and everything
about it follows from what one line gives.
-/
namespace GcodeSender

/-! ## What one line gives -/

namespace Token

/-- An item that gives no part of a command: a comment or a checksum. -/
def IsRemark : Token → Prop
  | comment _ | checksum _ => True
  | _ => False

/-- An item gives a coordinate. -/
def IsCoordinate (token : Token) : Prop :=
  ∃ axis value, token = parameter (Letter.ofAxis axis).byte value

/-- A line has no items besides remarks. -/
def IsSilent (line : Bytes) : Prop :=
  ∃ tokens, Reads line tokens ∧ ∀ token ∈ tokens, token.IsRemark

/-- Remarks go together. -/
theorem compatible_of_isRemark {tokens : List Token} (remarks : ∀ token ∈ tokens, token.IsRemark) :
    Compatible tokens where
  known token member := by
    have remark := remarks token member
    cases token <;> trivial
  apart := by
    refine List.pairwise_of_forall_mem_list fun token member other _ excludes => ?_
    have remark := remarks token member
    cases token <;> first | exact remark.elim | exact excludes.elim

end Token

namespace Block

variable {block : Block} {tokens : List Token}

/-- A block says nothing exactly if it has no line number, no word and no value. -/
theorem isEmpty_iff :
    block.isEmpty = true ↔
      block.lineNumber = none ∧ block.words = [] ∧ ∀ letter, block.parameters letter = none := by
  have values : block.parameters.toList = [] ↔ ∀ letter, block.parameters letter = none := by
    rw [Parameters.toList, List.filterMap_eq_nil_iff]
    constructor
    · intro none letter
      exact Option.map_eq_none_iff.mp (none letter (by cases letter <;> decide))
    · intro none letter _
      exact Option.map_eq_none_iff.mpr (none letter)
  simp only [isEmpty, Bool.and_eq_true, Option.isNone_iff_eq_none, List.isEmpty_iff, values,
    and_assoc]

/-- A block says nothing exactly if its items are remarks. -/
theorem Holds.isEmpty_iff (holds : block.Holds tokens) (compatible : Token.Compatible tokens) :
    block.isEmpty = true ↔ ∀ token ∈ tokens, token.IsRemark := by
  rw [Block.isEmpty_iff]
  constructor
  · rintro ⟨number, words, values⟩ token member
    cases token with
    | command word value =>
      have listed : word ∈ block.words :=
        holds.words ▸ List.mem_filterMap.mpr ⟨_, member, rfl⟩
      rw [words] at listed
      cases listed
    | parameter byte value =>
      obtain ⟨letter, found⟩ := compatible.known _ member
      rw [Letter.ofByte?_eq_some_iff] at found
      have given := (holds.values letter value).mpr (found ▸ member)
      rw [values letter] at given
      cases given
    | lineNumber given =>
      have numbered := (holds.number given).mpr member
      rw [number] at numbered
      cases numbered
    | comment text => trivial
    | checksum value => trivial
  · intro remarks
    refine ⟨?_, ?_, fun letter => ?_⟩
    · rw [Option.eq_none_iff_forall_ne_some]
      exact fun number found => remarks _ ((holds.number number).mp found)
    · rw [holds.words, List.filterMap_eq_nil_iff]
      intro token member
      have remark := remarks token member
      cases token <;> first | rfl | exact remark.elim
    · rw [Option.eq_none_iff_forall_ne_some]
      exact fun value found => remarks _ ((holds.values letter value).mp found)

/-- A block has coordinates exactly if its items have. -/
theorem Holds.hasAxes_iff (holds : block.Holds tokens) :
    block.hasAxes = true ↔ ∃ token ∈ tokens, token.IsCoordinate := by
  have along (axis : Axis) : block.parameters.has (.ofAxis axis) = true ↔
      ∃ value, .parameter (Letter.ofAxis axis).byte value ∈ tokens := by
    rw [Parameters.has, Option.isSome_iff_exists]
    exact exists_congr (holds.values _)
  have some : block.hasAxes = true ↔ ∃ axis, block.parameters.has (.ofAxis axis) = true := by
    simp only [hasAxes, Parameters.hasAxes, Bool.or_eq_true]
    constructor
    · rintro ((x | y) | z)
      · exact ⟨.x, x⟩
      · exact ⟨.y, y⟩
      · exact ⟨.z, z⟩
    · rintro ⟨axis, given⟩
      cases axis with
      | x => exact .inl (.inl given)
      | y => exact .inl (.inr given)
      | z => exact .inr given
  rw [some]
  constructor
  · rintro ⟨axis, given⟩
    obtain ⟨value, member⟩ := (along axis).mp given
    exact ⟨_, member, axis, value, rfl⟩
  · rintro ⟨_, member, axis, value, rfl⟩
    exact ⟨axis, (along axis).mpr ⟨value, member⟩⟩

/-- A block that breaks no rule has coordinates only if they are taken or a motion is active. -/
theorem isSome_activeMotion_of_fault? {active : Option Motion}
    (sound : block.fault? active = none) (axes : block.hasAxes = true)
    (free : block.claimsAxes = false) : (block.activeMotion active).isSome = true := by
  have unbroken := List.findSome?_eq_none_iff.mp sound
  have rule := unbroken (block.hasAxes && !block.claimsAxes &&
    (block.activeMotion active).isNone, .noActiveMotion) (by simp)
  simpa [axes, free, Option.isSome_iff_ne_none] using rule

/-- The words that take the coordinates of their block for themselves. -/
def axisWords : List Word := [.g 10, .g 28, .g 30, .g 92, .gSub 43 1]

/-- A block whose coordinates are taken has a word that takes them. -/
theorem exists_axisWord (claims : block.claimsAxes = true) :
    ∃ word ∈ axisWords, word ∈ block.words := by
  obtain ⟨word, member, takes⟩ := List.any_eq_true.mp claims
  refine ⟨word, ?_, member⟩
  simpa [Word.claimsAxes, axisWords, or_assoc] using takes

end Block

namespace Command

variable {command : Command} {state next : ModalState}

/-- A line gives no command, and no error, exactly if it has nothing but remarks. -/
theorem ofLine?_eq_ok_none_iff (number : Nat) (line : Bytes) (state : ModalState) :
    (∃ next, ofLine? number line state = .ok (none, next)) ↔ Token.IsSilent line := by
  constructor
  · rintro ⟨next, parsed⟩
    unfold ofLine? at parsed
    split at parsed
    · cases parsed
    · next placed found =>
      split at parsed
      · cases parsed
      · next block collected =>
        have compatible := Block.exists_ofTokens?_iff.mp ⟨block, collected⟩
        have holds := Block.holds_of_ofTokens? collected
        split at parsed
        · next empty =>
          exact ⟨_, ⟨placed, found, rfl⟩, (holds.isEmpty_iff compatible).mp empty⟩
        · split at parsed <;> cases parsed
  · rintro ⟨_, ⟨placed, found, rfl⟩, remarks⟩
    have compatible := Token.compatible_of_isRemark remarks
    obtain ⟨block, collected⟩ := Block.exists_ofTokens?_iff.mpr compatible
    have empty := ((Block.holds_of_ofTokens? collected).isEmpty_iff compatible).mpr remarks
    refine ⟨state, ?_⟩
    simp only [ofLine?, found, collected, empty, if_true]

/-- A segment is the move of a command: of its line, with its line number and its motion. -/
structure IsMove (segment : Segment) (command : Command) : Prop where
  /-- It stands on the line of the command. -/
  line : segment.sourceLine = command.sourceLine
  /-- It has the line number of the command. -/
  number : segment.lineNumber = command.lineNumber.map Int.ofNat
  /-- It has the motion of the command. -/
  motion : command.motion = some segment.motion

/-- The segment of a motion has its line and its line number. -/
theorem origin_of_segment? {motion : Motion} {segment : Segment}
    (made : command.segment? state motion = .ok segment) :
    segment.sourceLine = command.sourceLine ∧
      segment.lineNumber = command.lineNumber.map Int.ofNat ∧ segment.motion = motion := by
  unfold segment? at made
  dsimp only at made
  split at made
  · split at made
    · cases made
    · cases made
      exact ⟨rfl, rfl, rfl⟩
  · cases made
    exact ⟨rfl, rfl, rfl⟩

/-- A command of a block is a motion exactly if the block makes one. -/
theorem kind_ofSound_iff (number : Nat) (line : Bytes) (block : Block) (active : Option Motion) :
    (ofSound number line block active).kind = .motion ↔
      (block.motion? active).isSome = true := by
  show (classify block (block.motion? active)).1 = .motion ↔ _
  by_cases moves : (block.motion? active).isSome = true
  · simp [classify, moves]
  · simp only [classify, moves, Bool.false_eq_true, if_false, iff_false]
    split_ifs <;> exact not_false

/-- Carrying a command out makes its move if it is a motion, and no segment otherwise. -/
theorem rel_of_perform {number : Nat} {line : Bytes} {block : Block} {active : Option Motion}
    {found : Option Segment} (made : command = ofSound number line block active)
    (done : command.perform state = .ok (found, next)) :
    Option.Rel IsMove found ((some command).filter (·.kind = .motion)) := by
  cases found with
  | some segment =>
    obtain ⟨under, -⟩ := perform_eq_ok_some_iff.mp done
    obtain ⟨motion, kind, moves, drawn⟩ := segmentUnder_eq_ok_some_iff.mp under
    obtain ⟨line, number, same⟩ := origin_of_segment? drawn
    rw [Option.filter_some, if_pos (decide_eq_true kind)]
    exact .some ⟨line, number, same ▸ moves⟩
  | none =>
    have still : command.kind ≠ .motion := by
      intro kind
      subst made
      obtain ⟨motion, moves⟩ :=
        Option.isSome_iff_exists.mp ((kind_ofSound_iff number line block active).mp kind)
      have named : (ofSound number line block active).motion = some motion := moves
      rw [perform, kind, named] at done
      dsimp only at done
      split at done <;> cases done
    rw [Option.filter_some, if_neg (by simpa using still)]
    exact .none

/-- A motion has coordinates. -/
theorem hasAxes_of_kind {number : Nat} {line : Bytes} {block : Block} {active : Option Motion}
    (kind : (ofSound number line block active).kind = .motion) : block.hasAxes = true := by
  obtain ⟨motion, moves⟩ :=
    Option.isSome_iff_exists.mp ((kind_ofSound_iff number line block active).mp kind)
  exact Block.hasAxes_of_motion? moves

/-- A sound command with coordinates that no word takes is a motion. -/
theorem kind_of_coordinates (number : Nat) (line : Bytes) {block : Block}
    {active : Option Motion} (sound : block.fault? active = none)
    (axes : block.hasAxes = true) (free : block.claimsAxes = false) :
    (ofSound number line block active).kind = .motion := by
  refine (kind_ofSound_iff number line block active).mpr ?_
  have moving := Block.isSome_activeMotion_of_fault? sound axes free
  rwa [Block.motion?, axes, free]

/-- A sound command with coordinates is a motion, or a word of its block takes them. -/
theorem kind_or_exists_axisWord (number : Nat) (line : Bytes) {block : Block}
    {active : Option Motion} (sound : block.fault? active = none)
    (axes : block.hasAxes = true) :
    (ofSound number line block active).kind = .motion ∨
      ∃ word ∈ Block.axisWords, word ∈ block.words := by
  cases free : block.claimsAxes with
  | true => exact .inr (Block.exists_axisWord free)
  | false => exact .inl (kind_of_coordinates number line sound axes free)

end Command

namespace LineOutcome

variable {number : Nat} {line : Bytes} {state : ModalState}

/-- The command that a line gives. -/
def command? : LineOutcome → Option Command
  | command made _ => some made
  | _ => none

/-- The segment that a line gives. -/
def segment? : LineOutcome → Option Segment
  | command _ segment => segment
  | _ => none

/-- A command and a segment are those of a line that has a number and reads as items. -/
structure Renders (number : Nat) (tokens : List Token) (made : Command) (found : Option Segment) :
    Prop where
  /-- The command has the number of the line. -/
  numbered : made.sourceLine = number
  /-- It holds what the items say. -/
  holds : made.block.Holds tokens
  /-- The segment is its move, if it is a motion. -/
  moves : Option.Rel Command.IsMove found ((some made).filter (·.kind = .motion))
  /-- A motion has coordinates. -/
  moving : made.kind = .motion → made.block.hasAxes = true
  /-- With coordinates it is a motion, or a word takes them. -/
  spent : made.block.hasAxes = true →
    made.kind = .motion ∨ ∃ word ∈ Block.axisWords, word ∈ made.block.words

/-- What a line may give. -/
inductive Fits (number : Nat) (line : Bytes) : LineOutcome → Prop where
  /-- A line with nothing but remarks gives nothing. -/
  | nothing (silent : Token.IsSilent line) : Fits number line nothing
  /-- Another line gives a command, with its move if it is a motion. -/
  | command {tokens : List Token} {made : Command} {found : Option Segment}
    (reads : Token.Reads line tokens) (solid : ¬ Token.IsSilent line)
    (renders : Renders number tokens made found) : Fits number line (command made found)
  /-- Or it gives an error. -/
  | refused {error : LineError} (solid : ¬ Token.IsSilent line) : Fits number line (refused error)

/-- A line gives nothing exactly if it has nothing but remarks. -/
theorem eq_nothing_iff : (ofLine number line state).1 = .nothing ↔ Token.IsSilent line := by
  rw [← Command.ofLine?_eq_ok_none_iff number line state]
  unfold ofLine
  constructor
  · intro nothing
    split at nothing
    · cases nothing
    · next parsed => exact ⟨_, parsed⟩
    · split at nothing <;> cases nothing
  · rintro ⟨next, parsed⟩
    rw [parsed]

/-- A line gives what it may give. -/
theorem fits_ofLine (number : Nat) (line : Bytes) (state : ModalState) :
    (ofLine number line state).1.Fits number line := by
  by_cases silent : Token.IsSilent line
  · rw [eq_nothing_iff.mpr silent]
    exact .nothing silent
  · cases read : ofLine number line state with
    | mk outcome next =>
      cases outcome with
      | nothing => exact absurd (eq_nothing_iff.mp (congrArg Prod.fst read)) silent
      | refused error => exact .refused silent
      | command made found =>
        obtain ⟨middle, parsed, done⟩ := ofLine_eq_command_iff.mp read
        obtain ⟨tokens, block, reads, collected, _, sound, rfl, rfl⟩ :=
          Command.ofLine?_eq_ok_some_iff.mp parsed
        exact .command reads silent
          { numbered := rfl
            holds := Block.holds_nil.collect? collected
            moves := Command.rel_of_perform rfl done
            moving := Command.hasAxes_of_kind
            spent := Command.kind_or_exists_axisWord number line sound }

end LineOutcome

/-! ## Entries by their index -/

section Indexed

variable {α : Type} {item? : Nat → Option α} {label : α → Nat} {number count : Nat}

/-- Entries that are labelled by their index are in the order of their labels. -/
theorem pairwise_label
    (labelled : ∀ index entry, item? index = some entry → label entry = number + index) :
    (((List.range count).filterMap item?).map label).Pairwise (· < ·) := by
  rw [List.pairwise_map, List.pairwise_filterMap]
  refine List.pairwise_lt_range.imp fun {index other} before entry found later after => ?_
  rw [labelled index entry found, labelled other later after]
  omega

/-- What is found among the labels is the label of an index. -/
theorem exists_index_of_mem_map_label
    (labelled : ∀ index entry, item? index = some entry → label entry = number + index)
    {found : Nat} (member : found ∈ ((List.range count).filterMap item?).map label) :
    ∃ index < count, found = number + index := by
  obtain ⟨entry, listed, rfl⟩ := List.mem_map.mp member
  obtain ⟨index, inside, given⟩ := List.mem_filterMap.mp listed
  exact ⟨index, List.mem_range.mp inside, labelled index entry given⟩

/-- A label is found exactly if there is an entry at its index. -/
theorem mem_map_label_iff
    (labelled : ∀ index entry, item? index = some entry → label entry = number + index)
    (index : Nat) :
    number + index ∈ ((List.range count).filterMap item?).map label ↔
      index < count ∧ (item? index).isSome = true := by
  rw [List.mem_map]
  constructor
  · rintro ⟨entry, member, same⟩
    obtain ⟨other, inside, found⟩ := List.mem_filterMap.mp member
    have place := labelled other entry found
    obtain rfl : other = index := by omega
    exact ⟨List.mem_range.mp inside, Option.isSome_of_eq_some found⟩
  · rintro ⟨inside, some⟩
    obtain ⟨entry, found⟩ := Option.isSome_iff_exists.mp some
    exact ⟨entry, List.mem_filterMap.mpr ⟨index, List.mem_range.mpr inside, found⟩,
      labelled index entry found⟩

end Indexed

namespace Program

variable {number : Nat} {state : ModalState} {lines : List Bytes}

/-- What the line at an index, counted from zero, gives under the state that the lines before it
leave. The first of the lines has a number. -/
def outcome? (number : Nat) (state : ModalState) (lines : List Bytes) (index : Nat) :
    Option LineOutcome :=
  lines[index]?.map fun line =>
    (LineOutcome.ofLine (number + index) (stripReturn line)
      (loadFrom false number state (lines.take index)).state).1

/-- A list of a program, to which each line adds a part of what it gives, has these parts in the
order of the lines. -/
theorem loadFrom_part {α : Type} {list : Program → List α} {part : LineOutcome → Option α}
    (empty : ∀ state, list { state := state } = [])
    (added : ∀ outcome program, list (cons outcome program) = (part outcome).toList ++ list program)
    (number : Nat) (state : ModalState) (lines : List Bytes) :
    list (loadFrom false number state lines) =
      (List.range lines.length).filterMap fun index =>
        (outcome? number state lines index).bind part := by
  induction lines generalizing number state with
  | nil => exact empty state
  | cons line others ih =>
    have later : (fun index => (outcome? number state (line :: others) index).bind part) ∘
        Nat.succ = fun index => (outcome? (number + 1)
          (LineOutcome.ofLine number (stripReturn line) state).2 others index).bind part := by
      funext index
      have place : number + (index + 1) = number + 1 + index := by omega
      show ((outcome? number state (line :: others) (index + 1)).bind part) = _
      unfold outcome?
      rw [List.getElem?_cons_succ, List.take_succ_cons, loadFrom_cons, state_cons, place]
    rw [loadFrom_cons, added, ih, List.length_cons, List.range_succ_eq_map, List.filterMap_cons,
      List.filterMap_map, later]
    show _ = match part (LineOutcome.ofLine number (stripReturn line) state).1 with
      | none => _
      | some entry => entry :: _
    cases part (LineOutcome.ofLine number (stripReturn line) state).1 <;> rfl

/-- The line at an index gives what it may give. -/
theorem fits_of_outcome? {index : Nat} {outcome : LineOutcome}
    (found : outcome? number state lines index = some outcome) :
    ∃ line, lines[index]? = some line ∧ outcome.Fits (number + index) (stripReturn line) := by
  obtain ⟨line, inside, rfl⟩ := Option.map_eq_some_iff.mp found
  exact ⟨line, inside, LineOutcome.fits_ofLine _ _ _⟩

/-- A part of what the line at an index gives is told from the line. -/
theorem part_of_outcome? {α : Type} {part : LineOutcome → Option α} {index : Nat} {entry : α}
    (found : (outcome? number state lines index).bind part = some entry) :
    ∃ outcome, outcome? number state lines index = some outcome ∧ part outcome = some entry ∧
      ∃ line, lines[index]? = some line ∧ outcome.Fits (number + index) (stripReturn line) := by
  obtain ⟨outcome, given, entry⟩ := Option.bind_eq_some_iff.mp found
  exact ⟨outcome, given, entry, fits_of_outcome? given⟩

/-! ### Errors -/

/-- A line is refused if its outcome is an error. -/
theorem refusal?_eq (number : Nat) (state : ModalState) (lines : List Bytes) (index : Nat) :
    refusal? number state lines index =
      (outcome? number state lines index).bind LineOutcome.error? := by
  rw [refusal?, outcome?, Option.bind_map]
  rfl

/-- The errors are those of the lines, in order. -/
theorem errors_eq (number : Nat) (state : ModalState) (lines : List Bytes) :
    (loadFrom false number state lines).errors =
      (List.range lines.length).filterMap fun index =>
        (outcome? number state lines index).bind LineOutcome.error? :=
  (errors_loadFrom number state lines).trans
    (congrArg (List.filterMap · _) (funext (refusal?_eq number state lines)))

/-- An error names its line. -/
theorem line_of_outcome? (index : Nat) (error : LineError)
    (found : (outcome? number state lines index).bind LineOutcome.error? = some error) :
    error.line = number + index := by
  rw [← refusal?_eq] at found
  rw [line_of_refusal? found, Nat.add_comm]

/-- The errors are in the order of their lines. -/
theorem pairwise_errors (number : Nat) (state : ModalState) (lines : List Bytes) :
    ((loadFrom false number state lines).errors.map LineError.line).Pairwise (· < ·) := by
  rw [errors_eq]
  exact pairwise_label line_of_outcome?

/-- An error is of one of the lines. -/
theorem exists_index_of_mem_errors {found : Nat}
    (member : found ∈ (loadFrom false number state lines).errors.map LineError.line) :
    ∃ index < lines.length, found = number + index := by
  rw [errors_eq] at member
  exact exists_index_of_mem_map_label line_of_outcome? member

/-! ### Commands -/

/-- The commands are those of the lines, in order. -/
theorem commands_eq (number : Nat) (state : ModalState) (lines : List Bytes) :
    (loadFrom false number state lines).commands =
      (List.range lines.length).filterMap fun index =>
        (outcome? number state lines index).bind LineOutcome.command? :=
  loadFrom_part (fun _ => rfl) (fun outcome _ => by cases outcome <;> rfl) number state lines

/-- A command names its line. -/
theorem sourceLine_of_outcome? (index : Nat) (command : Command)
    (found : (outcome? number state lines index).bind LineOutcome.command? = some command) :
    command.sourceLine = number + index := by
  obtain ⟨outcome, -, given, line, -, fits⟩ := part_of_outcome? found
  cases fits with
  | command reads solid renders =>
    cases given
    exact renders.numbered
  | _ => cases given

/-- The commands are in the order of their lines. -/
theorem pairwise_commands (number : Nat) (state : ModalState) (lines : List Bytes) :
    ((loadFrom false number state lines).commands.map Command.sourceLine).Pairwise (· < ·) := by
  rw [commands_eq]
  exact pairwise_label sourceLine_of_outcome?

/-- A command is of one of the lines. -/
theorem exists_index_of_mem_commands {found : Nat}
    (member : found ∈ (loadFrom false number state lines).commands.map Command.sourceLine) :
    ∃ index < lines.length, found = number + index := by
  rw [commands_eq] at member
  exact exists_index_of_mem_map_label sourceLine_of_outcome? member

/-! ### Segments -/

/-- The segments are the moves of the motions, in order. -/
theorem moves_loadFrom (number : Nat) (state : ModalState) (lines : List Bytes) :
    List.Forall₂ Command.IsMove (loadFrom false number state lines).segments
      ((loadFrom false number state lines).commands.filter (·.kind = .motion)) := by
  have segments : (loadFrom false number state lines).segments =
      (List.range lines.length).filterMap fun index =>
        (outcome? number state lines index).bind LineOutcome.segment? :=
    loadFrom_part (fun _ => rfl) (fun outcome _ => by cases outcome <;> rfl) number state lines
  rw [segments, commands_eq, List.filter_filterMap]
  refine List.rel_filterMap (R := (· = ·)) ?_ (List.forall₂_refl _)
  rintro index _ rfl
  dsimp only
  cases given : outcome? number state lines index with
  | none => exact .none
  | some outcome =>
    obtain ⟨line, -, fits⟩ := fits_of_outcome? given
    cases fits with
    | command reads solid renders => exact renders.moves
    | nothing silent => exact .none
    | refused solid => exact .none

/-- The lines of the segments are those of the motions. -/
theorem map_sourceLine_segments (number : Nat) (state : ModalState) (lines : List Bytes) :
    (loadFrom false number state lines).segments.map Segment.sourceLine =
      ((loadFrom false number state lines).commands.filter (·.kind = .motion)).map
        Command.sourceLine := by
  have moves := moves_loadFrom number state lines
  generalize (loadFrom false number state lines).segments = segments at moves
  generalize (loadFrom false number state lines).commands.filter (·.kind = .motion) = commands
    at moves
  induction moves with
  | nil => rfl
  | cons move _ ih => rw [List.map_cons, List.map_cons, move.line, ih]

/-- A command is a motion exactly if a segment stands on its line. -/
theorem kind_iff_of_mem_commands {command : Command}
    (member : command ∈ (loadFrom false number state lines).commands) :
    command.kind = .motion ↔
      command.sourceLine ∈
        (loadFrom false number state lines).segments.map Segment.sourceLine := by
  rw [map_sourceLine_segments, List.mem_map]
  constructor
  · intro kind
    exact ⟨command, List.mem_filter.mpr ⟨member, decide_eq_true kind⟩, rfl⟩
  · rintro ⟨other, moving, same⟩
    obtain ⟨present, kind⟩ := List.mem_filter.mp moving
    rw [commands_eq] at member present
    obtain ⟨index, -, found⟩ := List.mem_filterMap.mp member
    obtain ⟨again, -, given⟩ := List.mem_filterMap.mp present
    rw [sourceLine_of_outcome? index command found, sourceLine_of_outcome? again other given]
      at same
    obtain rfl : again = index := by omega
    rw [found] at given
    cases given
    exact of_decide_eq_true kind

/-! ### Lines -/

/-- The outcome of a line is found at its index. -/
theorem exists_outcome? {index : Nat} {line : Bytes} (number : Nat) (state : ModalState)
    (inside : lines[index]? = some line) :
    ∃ outcome, outcome? number state lines index = some outcome ∧
      outcome.Fits (number + index) (stripReturn line) := by
  cases given : outcome? number state lines index with
  | none => simp [outcome?, inside] at given
  | some outcome =>
    obtain ⟨same, again, fits⟩ := fits_of_outcome? given
    rw [inside] at again
    cases again
    exact ⟨outcome, rfl, fits⟩

/-- A line is refused exactly if its outcome is an error. -/
theorem mem_errors_iff {index : Nat} {line : Bytes} (number : Nat) (state : ModalState)
    (inside : lines[index]? = some line) :
    number + index ∈ (loadFrom false number state lines).errors.map LineError.line ↔
      ((outcome? number state lines index).bind LineOutcome.error?).isSome = true := by
  rw [errors_eq, mem_map_label_iff line_of_outcome? index,
    and_iff_right (List.getElem?_eq_some_iff.mp inside).1]

/-- A line has a command exactly if its outcome is one. -/
theorem mem_commands_iff {index : Nat} {line : Bytes} (number : Nat) (state : ModalState)
    (inside : lines[index]? = some line) :
    number + index ∈ (loadFrom false number state lines).commands.map Command.sourceLine ↔
      ((outcome? number state lines index).bind LineOutcome.command?).isSome = true := by
  rw [commands_eq, mem_map_label_iff sourceLine_of_outcome? index,
    and_iff_right (List.getElem?_eq_some_iff.mp inside).1]

/-- A line gives one error, one command, or nothing if it has nothing but remarks. -/
theorem line_gives_one {index : Nat} {line : Bytes} (number : Nat) (state : ModalState)
    (inside : lines[index]? = some line) :
    let program := loadFrom false number state lines
    let errors := program.errors.map LineError.line
    let commands := program.commands.map Command.sourceLine
    (number + index ∈ errors ∧ number + index ∉ commands ∧
        ¬ Token.IsSilent (stripReturn line)) ∨
      (number + index ∉ errors ∧ number + index ∈ commands ∧
        ¬ Token.IsSilent (stripReturn line)) ∨
      (number + index ∉ errors ∧ number + index ∉ commands ∧
        Token.IsSilent (stripReturn line)) := by
  dsimp only
  rw [mem_errors_iff number state inside, mem_commands_iff number state inside]
  obtain ⟨outcome, given, fits⟩ := exists_outcome? number state inside
  rw [given]
  cases fits with
  | nothing silent => exact .inr (.inr ⟨nofun, nofun, silent⟩)
  | command reads solid renders => exact .inr (.inl ⟨nofun, rfl, solid⟩)
  | refused solid => exact .inl ⟨rfl, nofun, solid⟩

/-- A line with coordinates that is not refused gives a motion, or a word of it takes them. -/
theorem exists_command_of_coordinate {index : Nat} {line : Bytes} {tokens : List Token}
    (number : Nat) (state : ModalState) (inside : lines[index]? = some line)
    (reads : Token.Reads (stripReturn line) tokens)
    (accepted : number + index ∉ (loadFrom false number state lines).errors.map LineError.line)
    (coordinates : ∃ token ∈ tokens, token.IsCoordinate) :
    ∃ command ∈ (loadFrom false number state lines).commands,
      command.sourceLine = number + index ∧
        (command.kind = .motion ∨
          ∃ word ∈ Block.axisWords, word ∈ tokens.filterMap Token.word?) := by
  obtain ⟨outcome, given, fits⟩ := exists_outcome? number state inside
  rw [mem_errors_iff number state inside, given] at accepted
  cases fits with
  | nothing silent =>
    obtain ⟨others, again, remarks⟩ := silent
    obtain rfl := reads.unique again
    obtain ⟨_, member, axis, value, rfl⟩ := coordinates
    exact (remarks _ member).elim
  | refused solid => exact absurd rfl accepted
  | @command others made found again solid renders =>
    obtain rfl := reads.unique again
    have listed : made ∈ (loadFrom false number state lines).commands := by
      rw [commands_eq]
      refine List.mem_filterMap.mpr ⟨index, ?_, ?_⟩
      · exact List.mem_range.mpr (List.getElem?_eq_some_iff.mp inside).1
      · rw [given]
        rfl
    have spent := renders.spent (renders.holds.hasAxes_iff.mpr coordinates)
    rw [renders.holds.words] at spent
    exact ⟨made, listed, renders.numbered, spent⟩

/-- A motion of a program has coordinates. -/
theorem hasAxes_of_mem_commands {command : Command}
    (member : command ∈ (loadFrom false number state lines).commands)
    (kind : command.kind = .motion) : command.block.hasAxes = true := by
  rw [commands_eq] at member
  obtain ⟨index, -, found⟩ := List.mem_filterMap.mp member
  obtain ⟨outcome, -, given, line, -, fits⟩ := part_of_outcome? found
  cases fits with
  | command reads solid renders =>
    cases given
    exact renders.moving kind
  | _ => cases given

/-- Each line of a program, loaded on after errors, gives one error, one command, or nothing if it
has nothing but comments and checksums. Errors and commands are in the order of their lines, and
none are of one line. The segments are, one for one, the moves of the motions: each has the line,
the line number and the motion of its command, and a command has one exactly if it is a motion.
A motion has coordinates, and a line that has coordinates and is not refused is a motion, or one
of its words takes them for itself. -/
theorem each_line_contributes_once (lines : List Bytes) (state : ModalState) :
    let program := ofLines lines state false
    let errors := program.errors.map LineError.line
    let commands := program.commands.map Command.sourceLine
    (∀ index line, lines[index]? = some line →
        (1 + index ∈ errors ∧ 1 + index ∉ commands ∧ ¬ Token.IsSilent (stripReturn line)) ∨
        (1 + index ∉ errors ∧ 1 + index ∈ commands ∧ ¬ Token.IsSilent (stripReturn line)) ∨
        (1 + index ∉ errors ∧ 1 + index ∉ commands ∧ Token.IsSilent (stripReturn line))) ∧
      (errors.Pairwise (· < ·) ∧ commands.Pairwise (· < ·) ∧ errors.Disjoint commands ∧
        ∀ number, number ∈ errors ∨ number ∈ commands → 0 < number ∧ number ≤ lines.length) ∧
      (List.Forall₂ Command.IsMove program.segments
          (program.commands.filter (·.kind = .motion)) ∧
        ∀ command ∈ program.commands, command.kind = .motion ↔
          command.sourceLine ∈ program.segments.map Segment.sourceLine) ∧
      (∀ command ∈ program.commands, command.kind = .motion → command.block.hasAxes = true) ∧
      ∀ index line tokens, lines[index]? = some line →
        Token.Reads (stripReturn line) tokens → 1 + index ∉ errors →
        (∃ token ∈ tokens, token.IsCoordinate) →
        ∃ command ∈ program.commands, command.sourceLine = 1 + index ∧
          (command.kind = .motion ∨
            ∃ word ∈ [Word.g 10, .g 28, .g 30, .g 92, .gSub 43 1],
              word ∈ tokens.filterMap Token.word?) := by
  intro program errors commands
  refine ⟨fun index line inside => line_gives_one 1 state inside,
    ⟨pairwise_errors 1 state lines, pairwise_commands 1 state lines, ?_, ?_⟩,
    ⟨moves_loadFrom 1 state lines, fun command => kind_iff_of_mem_commands⟩,
    fun command => hasAxes_of_mem_commands,
    fun index line tokens inside => exists_command_of_coordinate 1 state inside⟩
  · intro number refused commanded
    obtain ⟨index, bound, rfl⟩ := exists_index_of_mem_errors refused
    rcases line_gives_one 1 state (List.getElem?_eq_getElem bound) with one | one | one
    · exact one.2.1 commanded
    · exact one.1 refused
    · exact one.1 refused
  · intro number member
    have place : ∃ index < lines.length, number = 1 + index :=
      member.elim exists_index_of_mem_errors exists_index_of_mem_commands
    obtain ⟨index, bound, rfl⟩ := place
    omega

end Program

end GcodeSender
