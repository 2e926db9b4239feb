import GcodeSender.Proofs.Gcode.WordOrder
import GcodeSender.Proofs.Program.Contributions

/-!
# The coordinate offset

G92 and G92.1 change the offset when a command about stored positions is carried out. A block has
one of them at most. G92 takes the coordinates of its block, so its command is no motion and
always changes the offset. G92.1 takes none: beside coordinates that no other word takes it stands
on a motion, and then the offset stays as it was. The main statement says both for every line.
-/
namespace GcodeSender

namespace Block

variable {block : Block} {word other : Word}

/-- A block does not change the offset. -/
theorem offset_nextState (block : Block) (state : ModalState) :
    (block.nextState state).offset = state.offset := by
  unfold nextState
  dsimp only
  split <;> rfl

/-- A block has a word exactly if it is among its words. -/
theorem hasWord_iff : block.hasWord word = true ↔ word ∈ block.words := by
  simp [hasWord]

/-- Of the words about stored positions a block has one at most. -/
theorem Coherent.eq_of_nonModal (coherent : block.Coherent) (first : word ∈ block.words)
    (second : other ∈ block.words) (grouped : word.group? = some .nonModal)
    (again : other.group? = some .nonModal) : word = other :=
  coherent.eq_of_excludes first second (.inr ⟨.nonModal, by decide, grouped, again⟩)

/-- A block with a word about stored positions has no other one. -/
theorem Coherent.hasWord_eq_false (coherent : block.Coherent) (first : word ∈ block.words)
    (grouped : word.group? = some .nonModal) (again : other.group? = some .nonModal)
    (different : other ≠ word) : block.hasWord other = false := by
  rw [Bool.eq_false_iff]
  exact fun has => different (coherent.eq_of_nonModal (hasWord_iff.mp has) first again grouped)

/-- A block whose coordinates are taken, or that has none, makes no motion. -/
theorem motion?_eq_none (active : Option Motion)
    (still : block.claimsAxes = true ∨ block.hasAxes = false) :
    block.motion? active = none := by
  rcases still with claims | none
  · simp [motion?, claims]
  · simp [motion?, none]

/-- Beside G92.1 only G43.1 takes coordinates. -/
theorem Coherent.claimsAxes_iff (coherent : block.Coherent)
    (clears : Word.gSub 92 1 ∈ block.words) :
    block.claimsAxes = true ↔ Word.gSub 43 1 ∈ block.words := by
  constructor
  · intro claims
    obtain ⟨word, claiming, member⟩ := exists_axisWord claims
    have alone (grouped : word.group? = some .nonModal) : word = .gSub 92 1 :=
      coherent.eq_of_nonModal member clears grouped rfl
    simp only [axisWords, List.mem_cons, List.not_mem_nil, or_false] at claiming
    rcases claiming with rfl | rfl | rfl | rfl | rfl
    · cases alone rfl
    · cases alone rfl
    · cases alone rfl
    · cases alone rfl
    · exact member
  · exact fun member => List.any_eq_true.mpr ⟨_, member, rfl⟩

end Block

namespace Command

variable {command : Command} {state next : ModalState} {found : Option Segment}

/-- A command that makes no motion and does not wait, with a word about stored positions, is about
stored positions. -/
theorem kind_ofSound_of_reference (number : Nat) (line : Bytes) {block : Block}
    {active : Option Motion} (still : block.motion? active = none)
    (wait : block.hasWord (.g 4) = false) {word : Word} (member : word ∈ block.words)
    (refers : word.isReference = true) :
    (ofSound number line block active).kind = .nonModal := by
  have any : block.words.any Word.isReference = true := List.any_eq_true.mpr ⟨word, member, refers⟩
  show (classify block (block.motion? active)).1 = .nonModal
  simp [classify, still, wait, any]

/-- A command about stored positions makes no segment and puts its offset in force. -/
theorem perform_of_nonModal (kind : command.kind = .nonModal) :
    command.perform state = .ok (none, { state with offset := command.newOffset state }) := by
  unfold perform
  rw [kind]

/-- A motion leaves the offset as it was. -/
theorem offset_of_perform (kind : command.kind = .motion)
    (done : command.perform state = .ok (found, next)) : next.offset = state.offset := by
  unfold perform at done
  split at done
  · split at done
    · cases done
    · cases done
      rfl
  · next about => cases kind.symm.trans about
  · cases done
    rfl

/-- G92.1 clears the offset. -/
theorem newOffset_of_clear (clears : command.block.hasWord (.gSub 92 1) = true) :
    command.newOffset state = .origin := if_pos clears

/-- G92 makes the position read as the coordinates that are given. -/
theorem newOffset_of_set (command : Command) (state : ModalState)
    (keeps : command.block.hasWord (.gSub 92 1) = false)
    (sets : command.block.hasWord (.g 92) = true) (axis : Axis) :
    (command.newOffset state).along axis =
      (command.parameters (.ofAxis axis)).elim (state.offset.along axis) fun value =>
        state.position.along axis - state.unit.toMillimetres value := by
  rw [newOffset, if_neg (Bool.eq_false_iff.mp keeps), if_pos sets, shiftedOffset,
    Point.along_ofAxes]
  cases command.parameters (.ofAxis axis) <;> rfl

end Command

namespace LineOutcome

variable {number : Nat} {line : Bytes} {tokens : List Token} {state next : ModalState}
  {made : Command} {found : Option Segment}

/-- A line that gives a command carries the command of its block out. -/
theorem exists_block_of_command (reads : Token.Reads line tokens)
    (done : ofLine number line state = (.command made found, next)) :
    ∃ block : Block, block.Holds tokens ∧ block.Coherent ∧ block.fault? state.motion = none ∧
      made = .ofSound number line block state.motion ∧
        made.perform (block.nextState state) = .ok (found, next) := by
  obtain ⟨middle, parsed, done⟩ := ofLine_eq_command_iff.mp done
  obtain ⟨others, block, again, collected, _, sound, rfl, rfl⟩ :=
    Command.ofLine?_eq_ok_some_iff.mp parsed
  obtain rfl := reads.unique again
  have compatible : Token.Compatible tokens :=
    (Block.exists_collect?_iff Block.holds_nil ⟨nofun, List.Pairwise.nil⟩ tokens).mp
      ⟨block, collected⟩
  have holds : block.Holds tokens := Block.holds_nil.collect? collected
  exact ⟨block, holds, holds.coherent compatible, sound, rfl, done⟩

/-- A line with G92 makes no segment, leaves the position as it was and makes it read as the
coordinates that are given. -/
theorem offset_of_set (reads : Token.Reads line tokens)
    (done : ofLine number line state = (.command made found, next))
    (sets : Word.g 92 ∈ tokens.filterMap Token.word?) :
    found = none ∧ next.position = state.position ∧
      ∀ axis,
        (∀ value, .parameter (Letter.ofAxis axis).byte value ∈ tokens →
          next.offset.along axis =
            state.position.along axis - next.unit.toMillimetres value) ∧
        ((∀ value, .parameter (Letter.ofAxis axis).byte value ∉ tokens) →
          next.offset.along axis = state.offset.along axis) := by
  obtain ⟨block, holds, coherent, -, rfl, done⟩ := exists_block_of_command reads done
  rw [← holds.words] at sets
  have claims : block.claimsAxes = true := List.any_eq_true.mpr ⟨_, sets, rfl⟩
  have wait : block.hasWord (.g 4) = false :=
    coherent.hasWord_eq_false sets rfl rfl (by decide)
  have keeps : block.hasWord (.gSub 92 1) = false :=
    coherent.hasWord_eq_false sets rfl rfl (by decide)
  have kind := Command.kind_ofSound_of_reference number line
    (Block.motion?_eq_none state.motion (.inl claims)) wait sets rfl
  rw [Command.perform_of_nonModal kind] at done
  cases done
  have along := Command.newOffset_of_set (.ofSound number line block state.motion)
    (block.nextState state) keeps (Block.hasWord_iff.mpr sets)
  refine ⟨rfl, block.position_nextState state, fun axis => ⟨fun value given => ?_,
    fun absent => ?_⟩⟩
  · have known : block.parameters (.ofAxis axis) = some value :=
      (holds.values _ value).mpr given
    refine (along axis).trans ?_
    show (block.parameters (.ofAxis axis)).elim _ _ = _
    rw [known, block.position_nextState]
    rfl
  · have none : block.parameters (.ofAxis axis) = none :=
      Option.eq_none_iff_forall_ne_some.mpr fun value known =>
        absent value ((holds.values _ value).mp known)
    refine (along axis).trans ?_
    show (block.parameters (.ofAxis axis)).elim _ _ = _
    rw [none, block.offset_nextState]
    rfl

/-- A line with G92.1 clears the offset, if it has no coordinates or G43.1 takes them. -/
theorem offset_of_clear (reads : Token.Reads line tokens)
    (done : ofLine number line state = (.command made found, next))
    (clears : Word.gSub 92 1 ∈ tokens.filterMap Token.word?)
    (still : (∀ token ∈ tokens, ¬ token.IsCoordinate) ∨
      Word.gSub 43 1 ∈ tokens.filterMap Token.word?) : next.offset = .origin := by
  obtain ⟨block, holds, coherent, -, rfl, done⟩ := exists_block_of_command reads done
  rw [← holds.words] at clears still
  have wait : block.hasWord (.g 4) = false :=
    coherent.hasWord_eq_false clears rfl rfl (by decide)
  have spent : block.claimsAxes = true ∨ block.hasAxes = false := by
    rcases still with none | taken
    · refine .inr (Bool.eq_false_iff.mpr fun axes => ?_)
      obtain ⟨token, member, coordinate⟩ := holds.hasAxes_iff.mp axes
      exact none token member coordinate
    · exact .inl ((coherent.claimsAxes_iff clears).mpr taken)
  have kind := Command.kind_ofSound_of_reference number line
    (Block.motion?_eq_none state.motion spent) wait clears rfl
  rw [Command.perform_of_nonModal kind] at done
  cases done
  exact Command.newOffset_of_clear (Block.hasWord_iff.mpr clears)

/-- A line with G92.1 and coordinates is a motion, unless G43.1 takes them, and leaves the offset
as it was. -/
theorem offset_of_clear_and_move (reads : Token.Reads line tokens)
    (done : ofLine number line state = (.command made found, next))
    (clears : Word.gSub 92 1 ∈ tokens.filterMap Token.word?)
    (free : Word.gSub 43 1 ∉ tokens.filterMap Token.word?)
    (coordinates : ∃ token ∈ tokens, token.IsCoordinate) :
    made.kind = .motion ∧ next.offset = state.offset := by
  obtain ⟨block, holds, coherent, sound, rfl, done⟩ := exists_block_of_command reads done
  rw [← holds.words] at clears free
  have axes : block.hasAxes = true := holds.hasAxes_iff.mpr coordinates
  have unclaimed : block.claimsAxes = false :=
    Bool.eq_false_iff.mpr (mt (coherent.claimsAxes_iff clears).mp free)
  have kind := Command.kind_of_coordinates number line sound axes unclaimed
  exact ⟨kind, (Command.offset_of_perform kind done).trans (block.offset_nextState state)⟩

/-- Take a line that gives a command. With G92.1 on it the offset is cleared or stays as it was.
It is cleared exactly if it was clear before, or the line has no coordinates, or G43.1 takes them.
With G92 on it the line makes no segment and leaves the position as it was, along each axis that
it gives a coordinate the offset becomes the position less the coordinate in millimetres, and
along the others it stays. -/
theorem offset_words_of_line (reads : Token.Reads line tokens)
    (done : ofLine number line state = (.command made found, next)) :
    (Word.gSub 92 1 ∈ tokens.filterMap Token.word? →
      (next.offset = .origin ∨ next.offset = state.offset) ∧
        (next.offset = .origin ↔ state.offset = .origin ∨
          (∀ token ∈ tokens, ¬ token.IsCoordinate) ∨
            Word.gSub 43 1 ∈ tokens.filterMap Token.word?)) ∧
      (Word.g 92 ∈ tokens.filterMap Token.word? →
        found = none ∧ next.position = state.position ∧
          ∀ axis,
            (∀ value, .parameter (Letter.ofAxis axis).byte value ∈ tokens →
              next.offset.along axis =
                state.position.along axis - next.unit.toMillimetres value) ∧
            ((∀ value, .parameter (Letter.ofAxis axis).byte value ∉ tokens) →
              next.offset.along axis = state.offset.along axis)) := by
  refine ⟨fun clears => ?_, offset_of_set reads done⟩
  by_cases still : (∀ token ∈ tokens, ¬ token.IsCoordinate) ∨
      Word.gSub 43 1 ∈ tokens.filterMap Token.word?
  · have cleared := offset_of_clear reads done clears still
    exact ⟨.inl cleared, fun _ => .inr still, fun _ => cleared⟩
  · obtain ⟨moving, free⟩ := not_or.mp still
    simp only [not_forall, not_not] at moving
    obtain ⟨token, member, coordinate⟩ := moving
    obtain ⟨-, kept⟩ :=
      offset_of_clear_and_move reads done clears free ⟨token, member, coordinate⟩
    refine ⟨.inr kept, fun cleared => .inl (kept.symm.trans cleared), fun before => ?_⟩
    exact kept.trans (before.resolve_right still)

/-- A line that is seen to give a command gives one. -/
theorem exists_command_of_isSome (given : (ofLine number line state).1.command?.isSome = true) :
    ∃ made found next, ofLine number line state = (.command made found, next) := by
  cases read : ofLine number line state with
  | mk outcome next =>
    rw [read] at given
    cases outcome with
    | command made found => exact ⟨made, found, next, rfl⟩
    | nothing => cases given
    | refused error => cases given

/-- At X10 the line G92 X4 takes the coordinate along X into the offset, and the line G92.1 clears
the offset. -/
theorem offset_words_of_set_and_clear :
    (∃ made found next,
      ofLine 1 (ascii "G92 X4") { position := ⟨10, 2, 0⟩, offset := ⟨1, 3, 0⟩ } =
          (.command made found, next) ∧
        found = none ∧ next.position = ⟨10, 2, 0⟩ ∧
          next.offset.x = 10 - next.unit.toMillimetres 4 ∧ next.offset.y = 3) ∧
      ∃ made found next,
        ofLine 2 (ascii "G92.1") { offset := ⟨1, 3, 0⟩ } = (.command made found, next) ∧
          next.offset = .origin := by
  constructor
  · obtain ⟨made, found, next, done⟩ := exists_command_of_isSome
      (show (ofLine 1 (ascii "G92 X4")
        { position := ⟨10, 2, 0⟩, offset := ⟨1, 3, 0⟩ }).1.command?.isSome = true by
          decide +kernel)
    have reads : Token.Reads (ascii "G92 X4") [.command (.g 92) 92, .parameter 0x58 4] :=
      Token.reads_of_toOption [⟨.command (.g 92) 92, 1⟩, ⟨.parameter 0x58 4, 5⟩]
        (by decide +kernel)
    obtain ⟨still, position, offset⟩ := (offset_words_of_line reads done).2 (by decide)
    exact ⟨made, found, next, done, still, position, (offset .x).1 4 (by decide +kernel),
      (offset .y).2 fun value => by simp [Letter.ofAxis, Letter.byte]⟩
  · obtain ⟨made, found, next, done⟩ := exists_command_of_isSome
      (show (ofLine 2 (ascii "G92.1") { offset := ⟨1, 3, 0⟩ }).1.command?.isSome = true by
        decide +kernel)
    have reads : Token.Reads (ascii "G92.1") [.command (.gSub 92 1) 92.1] :=
      Token.reads_of_toOption [⟨.command (.gSub 92 1) 92.1, 1⟩] (by decide +kernel)
    have cleared := ((offset_words_of_line reads done).1 (by decide)).2.mpr
      (.inr (.inl fun token member => by
        obtain rfl := List.mem_singleton.mp member
        rintro ⟨axis, value, ⟨⟩⟩))
    exact ⟨made, found, next, done, cleared⟩

end LineOutcome

/-- A line that clears the offset and moves is read, and the offset stays. -/
theorem Program.offset_stays_beside_move :
    let program := ofLines [ascii "G92 X5", ascii "G1 G92.1 Z10 F100"] {} false
    program.errors = [] ∧
      program.commands.map Command.words = [[.g 92], [.g 1, .gSub 92 1]] ∧
        program.state.offset = ⟨-5, 0, 0⟩ := by
  decide +kernel

end GcodeSender
