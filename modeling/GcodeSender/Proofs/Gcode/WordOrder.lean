import Mathlib.Data.List.Pairwise
import GcodeSender.Proofs.Gcode.BlockItems

/-!
# The order of the items of a line

What the items of a line say does not depend on their order. Items in another order make a block
that differs in the order of its words only (`Block.Reordered`). Of words that exclude each other
a block has one at most, so every reading of it finds the same word wherever it stands. M9 is the
exception: it shares a block with M7 and M8, and what comes last counts. The main statement is
that, this pair apart, items in any order are refused or give commands that do the same.
-/
namespace GcodeSender

/-! ## What a word selects -/

namespace Word

/-- Of two words that a reading sees, each excludes the other. -/
def ReadsOne {α : Type} (read : Word → Option α) : Prop :=
  ∀ ⦃word other : Word⦄ ⦃value later : α⦄, read word = some value → read other = some later →
    word.Excludes other

/-- A reading that sees the words of one modal group only sees words that exclude each other. -/
theorem readsOne_of_group {α : Type} {read : Word → Option α} (group : ModalGroup)
    (solid : group ≠ .coolant)
    (grouped : ∀ word value, read word = some value → word.group? = some group) :
    ReadsOne read := fun _ _ _ _ first second =>
  .inr ⟨group, solid, grouped _ _ first, grouped _ _ second⟩

/-- Words that select a motion exclude each other. -/
theorem readsOne_motion : ReadsOne motion? := by
  refine readsOne_of_group .motion (by decide) fun word value selects => ?_
  unfold motion? at selects
  grind [group?]

/-- Words that select a plane exclude each other. -/
theorem readsOne_plane : ReadsOne plane? := by
  refine readsOne_of_group .plane (by decide) fun word value selects => ?_
  unfold plane? at selects
  grind [group?]

/-- Words that select a unit exclude each other. -/
theorem readsOne_unit : ReadsOne unit? := by
  refine readsOne_of_group .units (by decide) fun word value selects => ?_
  unfold unit? at selects
  grind [group?]

/-- Words that select a distance mode exclude each other. -/
theorem readsOne_distance : ReadsOne distance? := by
  refine readsOne_of_group .distance (by decide) fun word value selects => ?_
  unfold distance? at selects
  grind [group?]

/-- Words that select a feed mode exclude each other. -/
theorem readsOne_feedMode : ReadsOne feedMode? := by
  refine readsOne_of_group .feedMode (by decide) fun word value selects => ?_
  unfold feedMode? at selects
  grind [group?]

/-- Words that select a coordinate system exclude each other. -/
theorem readsOne_coordinateSystem : ReadsOne coordinateSystem? := by
  refine readsOne_of_group .coordinateSystem (by decide) fun word value selects => ?_
  unfold coordinateSystem? at selects
  grind [group?]

/-- Words that work the spindle exclude each other. -/
theorem readsOne_spindle : ReadsOne spindle? := by
  refine readsOne_of_group .spindle (by decide) fun word value selects => ?_
  unfold spindle? at selects
  grind [group?]

/-- Tool words exclude each other. -/
theorem readsOne_tool : ReadsOne tool? := by
  have tool {word : Word} {number : Nat} (selects : word.tool? = some number) :
      word.letter = .t := by
    unfold tool? at selects
    split at selects
    · assumption
    · cases selects
  exact fun _ _ _ _ first second => .inl ⟨tool first, tool second⟩

/-- No word ends the coolants while another starts one. -/
def CoolantsCommute (words : List Word) : Prop :=
  m 9 ∈ words → m 7 ∉ words ∧ m 8 ∉ words

/-- Whether words commute can be seen from them. -/
instance (words : List Word) : Decidable (CoolantsCommute words) :=
  inferInstanceAs (Decidable (_ → _))

/-- Such words act on the coolants in any order. -/
theorem CoolantsCommute.applyCoolant_comm {words : List Word} (coolants : CoolantsCommute words)
    {word other : Word} (first : word ∈ words) (second : other ∈ words) (coolant : Coolant) :
    applyCoolant (applyCoolant coolant word) other =
      applyCoolant (applyCoolant coolant other) word := by
  unfold applyCoolant
  grind [CoolantsCommute]

end Word

/-! ## Readings of a block in any order -/

namespace Block

variable {block other : Block}

/-- The words of a block are known to it, and no two exclude each other. -/
structure Coherent (block : Block) : Prop where
  /-- Each word is known. -/
  known : ∀ word ∈ block.words, word.IsKnown
  /-- No two words exclude each other. -/
  apart : block.words.Pairwise fun word other => ¬ word.Excludes other

/-- Words of a coherent block that exclude each other are one word. -/
theorem Coherent.eq_of_excludes (coherent : block.Coherent) {word other : Word}
    (first : word ∈ block.words) (second : other ∈ block.words)
    (excludes : word.Excludes other) : word = other := by
  by_contra different
  have symmetric : Std.Symm fun word other : Word => ¬ word.Excludes other :=
    ⟨fun _ _ apart excludes => apart excludes.symm⟩
  exact coherent.apart.forall first second different excludes

/-- A reading that sees only words that exclude each other finds what any word of the block
says. -/
theorem Coherent.findSome?_eq_some_iff {α : Type} (coherent : block.Coherent)
    {read : Word → Option α} (single : Word.ReadsOne read) {value : α} :
    block.words.findSome? read = some value ↔ ∃ word ∈ block.words, read word = some value := by
  constructor
  · exact List.exists_of_findSome?_eq_some
  · rintro ⟨word, member, told⟩
    cases found : block.words.findSome? read with
    | none =>
      rw [List.findSome?_eq_none_iff.mp found word member] at told
      cases told
    | some first =>
      obtain ⟨other, before, same⟩ := List.exists_of_findSome?_eq_some found
      rw [coherent.eq_of_excludes member before (single told same), same] at told
      exact told

/-- The first word of a letter has a modal group, if there is such a word and the letter is not
that of tools. -/
theorem Coherent.isSome_firstGroup (coherent : block.Coherent) {letter : CommandLetter}
    (noTool : letter ≠ .t) :
    ((block.words.find? (·.letter == letter)).bind Word.group?).isSome =
      block.words.any (·.letter == letter) := by
  rw [← List.isSome_find?]
  cases found : block.words.find? (·.letter == letter) with
  | none => rfl
  | some word =>
    have same : word.letter = letter := by simpa using List.find?_some found
    rcases coherent.known word (List.mem_of_find?_eq_some found) with tool | ⟨group, grouped⟩
    · exact absurd (same.symm.trans tool) noTool
    · simp [grouped]

/-- A block that holds items that go together is coherent. -/
theorem Holds.coherent {tokens : List Token} (holds : block.Holds tokens)
    (compatible : Token.Compatible tokens) : block.Coherent where
  known word member := by
    rw [holds.words, List.mem_filterMap] at member
    obtain ⟨token, member, same⟩ := member
    have known := compatible.known token member
    cases token <;> cases same
    exact known
  apart := by
    rw [holds.words, List.pairwise_filterMap]
    refine compatible.apart.imp ?_
    rintro (_ | _ | _ | _ | _) (_ | _ | _ | _ | _) apart word ⟨⟩ other ⟨⟩
    exact apart

/-- A block says what another says, with its words in any order. -/
structure Reordered (block other : Block) : Prop where
  /-- They have the same words. -/
  words : block.words.Perm other.words
  /-- They give every letter the same value. -/
  parameters : block.parameters = other.parameters
  /-- They have the same line number. -/
  lineNumber : block.lineNumber = other.lineNumber

/-- Blocks that hold the same items say the same. -/
theorem Holds.reordered {tokens others : List Token} (holds : block.Holds tokens)
    (again : other.Holds others) (reordered : tokens.Perm others) : block.Reordered other where
  words := by
    rw [holds.words, again.words]
    exact reordered.filterMap Token.word?
  parameters := by
    funext letter
    refine Option.ext fun value => ?_
    rw [holds.values, again.values, reordered.mem_iff]
  lineNumber := by
    refine Option.ext fun number => ?_
    rw [holds.number, again.number, reordered.mem_iff]

namespace Reordered

variable (reordered : block.Reordered other)
include reordered

/-- What is asked of any word is answered the same. -/
theorem any (test : Word → Bool) : block.words.any test = other.words.any test :=
  reordered.words.any_eq

/-- They have the same words. -/
theorem hasWord (word : Word) : block.hasWord word = other.hasWord word :=
  reordered.words.contains_eq

/-- They have coordinates alike. -/
theorem hasAxes : block.hasAxes = other.hasAxes := by
  rw [Block.hasAxes, Block.hasAxes, reordered.parameters]

/-- One is empty when the other is. -/
theorem isEmpty : block.isEmpty = other.isEmpty := by
  rw [Block.isEmpty, Block.isEmpty, reordered.parameters, reordered.lineNumber,
    reordered.words.isEmpty_eq]

/-- Both are coherent or neither is. -/
theorem coherent (coherent : block.Coherent) : other.Coherent where
  known word member := coherent.known word (reordered.words.mem_iff.mpr member)
  apart := (reordered.words.pairwise_iff fun apart excludes => apart excludes.symm).mp
    coherent.apart

/-- A reading that sees only words that exclude each other finds the same. -/
theorem findSome? {α : Type} (coherent : block.Coherent) {read : Word → Option α}
    (single : Word.ReadsOne read) :
    block.words.findSome? read = other.words.findSome? read := by
  refine Option.ext fun value => ?_
  rw [coherent.findSome?_eq_some_iff single,
    (reordered.coherent coherent).findSome?_eq_some_iff single]
  simp only [reordered.words.mem_iff]

/-- They name the same motion. -/
theorem namedMotion (coherent : block.Coherent) : block.namedMotion = other.namedMotion :=
  reordered.findSome? coherent Word.readsOne_motion

/-- They leave the same motion in force. -/
theorem activeMotion (coherent : block.Coherent) (active : Option Motion) :
    block.activeMotion active = other.activeMotion active := by
  have cancels : block.cancelsMotion = other.cancelsMotion := reordered.any _
  rw [Block.activeMotion, Block.activeMotion, cancels, reordered.namedMotion coherent]

/-- They make the same motion. -/
theorem motion? (coherent : block.Coherent) (active : Option Motion) :
    block.motion? active = other.motion? active := by
  have claims : block.claimsAxes = other.claimsAxes := reordered.any _
  rw [Block.motion?, Block.motion?, reordered.hasAxes, claims,
    reordered.activeMotion coherent]

/-- They break the same rule first. -/
theorem fault? (coherent : block.Coherent) (active : Option Motion) :
    block.fault? active = other.fault? active := by
  have claims : block.claimsAxes = other.claimsAxes := reordered.any _
  have needs : block.needsAxes = other.needsAxes := reordered.any _
  have arcs : block.hasArcWords = other.hasArcWords := by
    rw [Block.hasArcWords, Block.hasArcWords, reordered.parameters]
  simp only [Block.fault?, reordered.parameters, reordered.hasAxes, reordered.hasWord, claims,
    needs, arcs, reordered.namedMotion coherent, reordered.activeMotion coherent,
    reordered.motion? coherent]

/-- They leave the same modes, if no word ends the coolants while another starts one. -/
theorem update (coherent : block.Coherent) (coolants : Word.CoolantsCommute block.words)
    (state : ModalState) : block.update state = other.update state := by
  have read {α : Type} {ask : Word → Option α} (single : Word.ReadsOne ask) (kept : α) :
      block.select ask kept = other.select ask kept := by
    rw [select, select, reordered.findSome? coherent single]
  have coolant : block.words.foldl Word.applyCoolant state.coolant =
      other.words.foldl Word.applyCoolant state.coolant :=
    reordered.words.foldl_eq'
      (fun _ first _ second => coolants.applyCoolant_comm first second) _
  simp only [Block.update, reordered.parameters, reordered.activeMotion coherent, coolant,
    reordered.findSome? coherent Word.readsOne_tool, read Word.readsOne_distance,
    read Word.readsOne_unit, read Word.readsOne_plane, read Word.readsOne_feedMode,
    read Word.readsOne_coordinateSystem, read Word.readsOne_spindle]

/-- They leave the same state under the same condition. -/
theorem nextState (coherent : block.Coherent) (coolants : Word.CoolantsCommute block.words)
    (state : ModalState) : block.nextState state = other.nextState state := by
  have ends : block.endsProgram = other.endsProgram := reordered.any _
  rw [Block.nextState, Block.nextState, ends, reordered.update coherent coolants]

/-- They make commands of one kind. -/
theorem kind (coherent : block.Coherent) (motion : Option Motion) :
    (Command.classify block motion).1 = (Command.classify other motion).1 := by
  have claims : block.claimsAxes = other.claimsAxes := reordered.any _
  have grouped {letter : CommandLetter} (noTool : letter ≠ .t) :
      ((block.words.find? (·.letter == letter)).bind Word.group?).isSome =
        ((other.words.find? (·.letter == letter)).bind Word.group?).isSome := by
    rw [coherent.isSome_firstGroup noTool,
      (reordered.coherent coherent).isSome_firstGroup noTool, reordered.any]
  simp only [Command.classify, claims, reordered.hasWord, reordered.any, grouped,
    apply_ite Prod.fst, ne_eq, reduceCtorEq, not_false_eq_true]

end Reordered

end Block

/-! ## Commands of items in any order -/

namespace Command

variable {command other : Command}

/-- A command says what another says, with its words in any order. The modal group that it counts
for may differ, for that is read off its first word. -/
structure Alike (command other : Command) : Prop where
  /-- They are of one line. -/
  sourceLine : command.sourceLine = other.sourceLine
  /-- They are of one kind. -/
  kind : command.kind = other.kind
  /-- They make the same motion. -/
  motion : command.motion = other.motion
  /-- Both name their motion or neither does. -/
  namesMotion : command.namesMotion = other.namesMotion
  /-- Both mean coordinates of the machine or neither does. -/
  inMachineCoordinates : command.inMachineCoordinates = other.inMachineCoordinates
  /-- They have the same line number. -/
  lineNumber : command.lineNumber = other.lineNumber
  /-- They give every letter the same value. -/
  parameters : command.parameters = other.parameters
  /-- They have the same words. -/
  words : command.words.Perm other.words

/-- Commands of blocks that say the same are alike. -/
theorem alike_of_reordered {block again : Block} (reordered : block.Reordered again)
    (coherent : block.Coherent) (number : Nat) (line : Bytes) (active : Option Motion) :
    (ofSound number line block active).Alike (ofSound number line again active) where
  sourceLine := rfl
  kind := by
    show (classify block _).1 = (classify again _).1
    rw [← reordered.motion? coherent, reordered.kind coherent]
  motion := reordered.motion? coherent active
  namesMotion := congrArg Option.isSome (reordered.namedMotion coherent)
  inMachineCoordinates := reordered.hasWord _
  lineNumber := reordered.lineNumber
  parameters := reordered.parameters
  words := reordered.words

/-- Blocks that say the same break one rule, or their commands are alike and leave one state. -/
theorem ofBlock?_reordered {block again : Block} (reordered : block.Reordered again)
    (coherent : block.Coherent) (coolants : Word.CoolantsCommute block.words) (number : Nat)
    (line : Bytes) (state : ModalState) :
    (∃ fault, ofBlock? number line block state = .error fault ∧
        ofBlock? number line again state = .error fault) ∨
      ∃ command other next, ofBlock? number line block state = .ok (command, next) ∧
        ofBlock? number line again state = .ok (other, next) ∧ command.Alike other := by
  have sound : block.fault? state.motion = again.fault? state.motion :=
    reordered.fault? coherent _
  cases broken : block.fault? state.motion with
  | some fault =>
    rw [broken] at sound
    exact .inl ⟨fault, by simp only [ofBlock?, broken], by simp only [ofBlock?, ← sound]⟩
  | none =>
    rw [broken] at sound
    exact .inr ⟨_, _, _, ofBlock?_eq_ok_iff.mpr ⟨broken, rfl, rfl⟩,
      ofBlock?_eq_ok_iff.mpr ⟨sound.symm, rfl, reordered.nextState coherent coolants state⟩,
      alike_of_reordered reordered coherent number line state.motion⟩

/-- Commands that are alike do the same under every state. -/
theorem Alike.perform (alike : command.Alike other) (state : ModalState) :
    command.perform state = other.perform state := by
  have target : command.target state = other.target state := by
    have along : command.targetAlong state = other.targetAlong state := by
      funext axis
      rw [targetAlong, targetAlong, alike.parameters, alike.inMachineCoordinates]
    rw [Command.target, Command.target, along]
  have segment (motion : Motion) :
      command.segment? state motion = other.segment? state motion := by
    simp only [segment?, straightSegment, target, alike.sourceLine, alike.lineNumber,
      alike.parameters]
  have offset : command.newOffset state = other.newOffset state := by
    have words (word : Word) : command.block.hasWord word = other.block.hasWord word :=
      alike.words.contains_eq
    have shifted : command.shiftedOffset state = other.shiftedOffset state := by
      simp only [shiftedOffset, alike.parameters]
    rw [newOffset, newOffset, words, words, shifted]
  simp only [Command.perform, alike.kind, alike.motion, segment, target, offset]

/-- The command of items, if they say anything besides comments, and the state after it. -/
def ofTokens? (number : Nat) (line : Bytes) (tokens : List PlacedToken) (state : ModalState) :
    Except LineError (Option Command × ModalState) :=
  match Block.ofTokens? tokens with
  | .error (column, fault) => .error ⟨number, column, .block fault⟩
  | .ok block =>
    if block.isEmpty then .ok (none, state)
    else
      match ofBlock? number line block state with
      | .error fault => .error ⟨number, 0, .block fault⟩
      | .ok (command, state) => .ok (some command, state)

/-- The command of a line is that of its items. -/
theorem ofLine?_eq_ofTokens? (number : Nat) (line : Bytes) (state : ModalState) :
    ofLine? number line state =
      match Token.ofLine? line with
      | .error (column, fault) => .error ⟨number, column, .token fault⟩
      | .ok tokens => ofTokens? number line tokens state := rfl

/-- Items read under a state give the same in two orders. -/
inductive ReadAlike (state : ModalState) :
    Except LineError (Option Command × ModalState) →
      Except LineError (Option Command × ModalState) → Prop where
  /-- Both orders are refused. -/
  | refused (error again : LineError) : ReadAlike state (.error error) (.error again)
  /-- Both orders say nothing and leave the state as it was. -/
  | nothing : ReadAlike state (.ok (none, state)) (.ok (none, state))
  /-- Both orders leave the same state and give commands that are alike and do the same. -/
  | command {command again : Command} (next : ModalState) (alike : command.Alike again)
      (perform : ∀ later, command.perform later = again.perform later) :
      ReadAlike state (.ok (some command, next)) (.ok (some again, next))

/-- Items in any order are refused, or say nothing, or give commands that do the same and leave
the same state, unless one of them ends the coolants while another starts one. -/
theorem ofTokens?_readAlike {tokens others : List PlacedToken}
    (reordered : (tokens.map PlacedToken.token).Perm (others.map PlacedToken.token))
    (coolants : Word.CoolantsCommute (tokens.filterMap (·.token.word?))) (number : Nat)
    (line : Bytes) (state : ModalState) :
    ReadAlike state (ofTokens? number line tokens state) (ofTokens? number line others state) := by
  have together : Token.Compatible (tokens.map PlacedToken.token) ↔
      Token.Compatible (others.map PlacedToken.token) :=
    ⟨fun compatible => compatible.perm reordered, fun compatible => compatible.perm reordered.symm⟩
  unfold ofTokens?
  cases made : Block.ofTokens? tokens with
  | error refusal =>
    cases again : Block.ofTokens? others with
    | error other => exact .refused _ _
    | ok block =>
      obtain ⟨first, taken⟩ := Block.exists_ofTokens?_iff.mpr
        (together.mpr (Block.exists_ofTokens?_iff.mp ⟨block, again⟩))
      exact nomatch made.symm.trans taken
  | ok block =>
    have compatible := Block.exists_ofTokens?_iff.mp ⟨block, made⟩
    obtain ⟨other, again⟩ := Block.exists_ofTokens?_iff.mpr (together.mp compatible)
    have holds : block.Holds (tokens.map PlacedToken.token) := Block.holds_of_ofTokens? made
    have coherent : block.Coherent := holds.coherent compatible
    have same : block.Reordered other :=
      holds.reordered (Block.holds_of_ofTokens? again) reordered
    have commute : Word.CoolantsCommute block.words := by
      rw [holds.words, List.filterMap_map]
      exact coolants
    rw [again]
    dsimp only
    rw [← same.isEmpty]
    cases block.isEmpty with
    | true => exact .nothing
    | false =>
      rcases ofBlock?_reordered same coherent commute number line state with
        ⟨fault, first, second⟩ | ⟨command, another, next, first, second, alike⟩
      · rw [first, second]
        exact .refused _ _
      · rw [first, second]
        exact .command next alike alike.perform

/-- Items and the same in reverse give commands that do the same. -/
theorem ofTokens?_readAlike_of_reverse :
    ∃ tokens : List PlacedToken,
      (tokens.map PlacedToken.token).Perm (tokens.reverse.map PlacedToken.token) ∧
        Word.CoolantsCommute (tokens.filterMap (·.token.word?)) ∧
          ReadAlike {} (ofTokens? 1 [] tokens {}) (ofTokens? 1 [] tokens.reverse {}) ∧
            ∃ command next, ofTokens? 1 [] tokens {} = .ok (some command, next) := by
  let tokens : List PlacedToken :=
    [⟨.lineNumber 3, 1⟩, ⟨.command (.m 8) 8, 4⟩, ⟨.command (.g 91) 91, 7⟩,
      ⟨.command (.g 1) 1, 11⟩, ⟨.parameter Letter.x.byte 5, 14⟩, ⟨.command (.m 7) 7, 17⟩]
  have reordered : (tokens.map PlacedToken.token).Perm (tokens.reverse.map PlacedToken.token) :=
    tokens.reverse_perm.symm.map _
  have coolants : Word.CoolantsCommute (tokens.filterMap (·.token.word?)) := by decide +kernel
  exact ⟨tokens, reordered, coolants, ofTokens?_readAlike reordered coolants 1 [] {}, _, _, rfl⟩

/-- A word that ends the coolants counts where it stands. -/
example : (LineOutcome.ofLine 1 (ascii "M7 M9") {}).2.coolant ≠
    (LineOutcome.ofLine 1 (ascii "M9 M7") {}).2.coolant := by
  decide +kernel

end Command

end GcodeSender
