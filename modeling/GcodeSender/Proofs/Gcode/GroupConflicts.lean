import GcodeSender.Proofs.Gcode.FewerWords
import GcodeSender.Proofs.Gcode.WordOrder
import GcodeSender.Proofs.Program.Contributions

/-!
# Words of one modal group

Collecting a block stops at the first item that the items before it do not go with
(`Block.addAll_eq_error_iff`), and a block that is collected may still break a rule. A conflict is
found while collecting, at a word whose modal group a word before it has. The coolants are left out
of this test, all of them: the main statement says where a line is refused for a conflict, and that
the coolant words of a line, however many there are and whichever they are, never matter to whether
it is refused.
-/
namespace GcodeSender

/-- The word works the coolants. -/
def Word.isCoolant (word : Word) : Bool := word.group? == some .coolant

/-- A word works the coolants exactly if it is M7, M8 or M9. -/
theorem Word.isCoolant_iff {word : Word} :
    word.isCoolant = true ↔ word = m 7 ∨ word = m 8 ∨ word = m 9 := by
  obtain ⟨letter, code, sub⟩ := word
  constructor
  · intro coolant
    have grouped := beq_iff_eq.mp coolant
    unfold group? at grouped
    grind
  · rintro (same | same | same) <;> cases same <;> rfl

namespace Block

variable {block made : Block} {placed : List PlacedToken} {column : Nat} {fault : BlockFault}
  {word : Word}

/-- The block of items has their words. -/
theorem words_of_ofTokens? (made : ofTokens? placed = .ok block) :
    block.words = placed.filterMap (·.token.word?) := by
  rw [(holds_of_ofTokens? made).words, List.filterMap_map]
  rfl

/-- The words of the block of items do not exclude each other. -/
theorem coherent_of_ofTokens? (made : ofTokens? placed = .ok block) : block.Coherent :=
  (holds_of_ofTokens? made).coherent (exists_ofTokens?_iff.mp ⟨block, made⟩)

/-! ## Where collecting a block stops -/

/-- Collecting stops at the first item that the block of the items before it does not take. -/
theorem addAll_eq_error_iff :
    block.addAll placed = .error (column, fault) ↔
      ∃ front item back made, placed = front ++ item :: back ∧ block.addAll front = .ok made ∧
        made.add item.token = .error fault ∧ item.column = column := by
  induction placed generalizing block with
  | nil => simp [addAll]
  | cons first others ih =>
    rw [addAll]
    cases added : block.add first.token with
    | error other =>
      constructor
      · intro stopped
        cases stopped
        exact ⟨[], first, others, block, rfl, rfl, added, rfl⟩
      · rintro ⟨front, item, back, made, split, collected, refused, rfl⟩
        cases front with
        | nil =>
          cases split
          cases collected
          rw [added] at refused
          cases refused
          rfl
        | cons front rest =>
          cases split
          rw [addAll, added] at collected
          cases collected
    | ok next =>
      dsimp only
      rw [ih]
      constructor
      · rintro ⟨front, item, back, made, rfl, collected, refused, place⟩
        refine ⟨first :: front, item, back, made, rfl, ?_, refused, place⟩
        rw [addAll, added]
        exact collected
      · rintro ⟨front, item, back, made, split, collected, refused, place⟩
        cases front with
        | nil =>
          cases split
          cases collected
          rw [added] at refused
          cases refused
        | cons front rest =>
          cases split
          rw [addAll, added] at collected
          exact ⟨rest, item, back, made, rfl, collected, refused, place⟩

/-- A word shares its modal group with some words, and is no coolant word. -/
def Conflicts (word : Word) (words : List Word) : Prop :=
  ∃ group, group ≠ .coolant ∧ word.group? = some group ∧
    ∃ other ∈ words, other.group? = some group

/-- A conflict is found exactly at a word that shares its modal group with a word of the block. -/
theorem add_eq_groupConflict_iff {token : Token} :
    block.add token = .error (.groupConflict word) ↔
      (∃ value, token = .command word value) ∧ Conflicts word block.words := by
  cases token with
  | command other value =>
    simp only [add, Token.command.injEq, exists_and_left, exists_eq', and_true]
    unfold addWord
    split
    · next tool =>
      refine iff_of_false (by split <;> simp) ?_
      rintro ⟨rfl, group, -, grouped, -⟩
      rw [Word.group?_of_tool tool] at grouped
      cases grouped
    · next noTool =>
      cases grouped : other.group? with
      | none =>
        refine iff_of_false (by simp) ?_
        rintro ⟨rfl, group, -, again, -⟩
        rw [grouped] at again
        cases again
      | some group =>
        dsimp only
        split
        · next conflict =>
          obtain ⟨before, member, same⟩ := List.any_eq_true.mp conflict.2
          constructor
          · intro stopped
            cases stopped
            exact ⟨rfl, group, conflict.1, grouped, before, member, beq_iff_eq.mp same⟩
          · rintro ⟨rfl, -⟩
            rfl
        · next clear =>
          refine iff_of_false (by simp) ?_
          rintro ⟨rfl, shared, solid, again, before, member, same⟩
          rw [grouped] at again
          cases again
          exact clear ⟨solid, List.any_eq_true.mpr ⟨before, member, beq_iff_eq.mpr same⟩⟩
  | parameter byte value =>
    refine iff_of_false ?_ (by simp)
    simp only [add, addParameter]
    split <;> (try split) <;> simp
  | lineNumber number =>
    refine iff_of_false ?_ (by simp)
    simp only [add]
    split <;> simp
  | comment text => simp [add]
  | checksum value => simp [add]

/-- Items are refused for a conflict exactly at a word that shares its modal group with a word
before it, where the items before it go together. -/
theorem ofTokens?_eq_groupConflict_iff :
    ofTokens? placed = .error (column, .groupConflict word) ↔
      ∃ front value back, placed = front ++ ⟨.command word value, column⟩ :: back ∧
        Token.Compatible (front.map PlacedToken.token) ∧
          Conflicts word (front.filterMap (·.token.word?)) := by
  rw [ofTokens?, addAll_eq_error_iff]
  constructor
  · rintro ⟨front, ⟨token, place⟩, back, made, rfl, collected, refused, rfl⟩
    obtain ⟨⟨value, rfl⟩, conflicts⟩ := add_eq_groupConflict_iff.mp refused
    rw [words_of_ofTokens? collected] at conflicts
    exact ⟨front, value, back, rfl, exists_ofTokens?_iff.mp ⟨made, collected⟩, conflicts⟩
  · rintro ⟨front, value, back, rfl, compatible, conflicts⟩
    obtain ⟨made, collected⟩ := exists_ofTokens?_iff.mpr compatible
    rw [← words_of_ofTokens? collected] at conflicts
    exact ⟨front, _, back, made, rfl, collected,
      add_eq_groupConflict_iff.mpr ⟨⟨value, rfl⟩, conflicts⟩, rfl⟩

/-! ## Coolant words -/

/-- A coolant word is no G word. -/
theorem letter_of_isCoolant (word : Word) (coolant : word.isCoolant = true) :
    word.letter ≠ .g := by
  rcases Word.isCoolant_iff.mp coolant with rfl | rfl | rfl <;> decide

/-- A block takes every coolant word. -/
theorem addWord_of_isCoolant (block : Block) (coolant : word.isCoolant = true) :
    block.addWord word = .ok { block with words := block.words ++ [word] } := by
  have grouped : word.group? = some .coolant := beq_iff_eq.mp coolant
  have free : ∀ other ∈ block.words, ¬ other.Excludes word := fun other _ excludes =>
    ((Word.excludes_of_group grouped).mp excludes).1 rfl
  exact addWord_eq_ok_iff.mpr ⟨.inr ⟨_, grouped⟩, free, rfl⟩

/-- Another word is taken or refused as without the coolant words. -/
theorem addWord_withoutCoolants (block : Block) (other : word.isCoolant = false) :
    (block.without Word.isCoolant).addWord word =
      (block.addWord word).map (·.without Word.isCoolant) := by
  have kept (words : List Word) : ((words ++ [word]).filter fun word => !word.isCoolant) =
      (words.filter fun word => !word.isCoolant) ++ [word] := by
    simp [other]
  have tools : (block.without Word.isCoolant).words.any (·.letter == .t) =
      block.words.any (·.letter == .t) :=
    any_without fun word coolant => by
      rcases Word.isCoolant_iff.mp coolant with rfl | rfl | rfl <;> rfl
  have groups {group : ModalGroup} (solid : group ≠ .coolant) :
      (block.without Word.isCoolant).hasGroup group = block.hasGroup group :=
    any_without fun word coolant => by
      rw [beq_iff_eq.mp coolant]
      exact beq_eq_false_iff_ne.mpr fun same => solid (Option.some.inj same).symm
  unfold addWord
  split
  · rw [tools]
    split
    · rfl
    · simp [Except.map, without, kept]
  · cases grouped : word.group? with
    | none => rfl
    | some group =>
      have solid : group ≠ .coolant := by
        rintro rfl
        exact Bool.false_ne_true (other.symm.trans (beq_iff_eq.mpr grouped))
      dsimp only
      rw [groups solid]
      split
      · rfl
      · simp [Except.map, without, kept]

/-- An item that is no coolant word is taken or refused as without the coolant words. -/
theorem add_withoutCoolants (block : Block) {token : Token}
    (other : token.isDropped Word.isCoolant = false) :
    (block.without Word.isCoolant).add token =
      (block.add token).map (·.without Word.isCoolant) := by
  cases found : token.word? with
  | none => exact add_without_of_word?_eq_none found
  | some word =>
    cases token <;> cases found
    exact block.addWord_withoutCoolants other

/-- A coolant word makes no difference to a block without the coolant words. -/
theorem exists_add_of_isCoolant (block : Block) {token : Token}
    (coolant : token.isDropped Word.isCoolant = true) :
    ∃ made, block.add token = .ok made ∧
      made.without Word.isCoolant = block.without Word.isCoolant := by
  cases token with
  | command word value =>
    rw [Token.isDropped_command] at coolant
    exact ⟨_, block.addWord_of_isCoolant coolant, by simp [without, coolant]⟩
  | _ => cases coolant

/-- Collecting without the coolant words stops where it stops with them, or makes the block without
them. -/
theorem addAll_withoutCoolants (block : Block) (placed : List PlacedToken) :
    (block.without Word.isCoolant).addAll
        (placed.filter fun item => !item.token.isDropped Word.isCoolant) =
      (block.addAll placed).map (·.without Word.isCoolant) := by
  induction placed generalizing block with
  | nil => rfl
  | cons item others ih =>
    cases coolant : item.token.isDropped Word.isCoolant with
    | true =>
      obtain ⟨made, added, same⟩ := block.exists_add_of_isCoolant coolant
      rw [List.filter_cons_of_neg (by simp [coolant]), addAll, added]
      dsimp only
      rw [← ih, same]
    | false =>
      rw [List.filter_cons_of_pos (by simp [coolant]), addAll, addAll,
        block.add_withoutCoolants coolant]
      cases block.add item.token with
      | error fault => rfl
      | ok next => exact ih next

/-! ## Rules that a collected block may break -/

/-- What a collected block may be refused for. -/
def ruleFaults : List BlockFault :=
  [.negativeFeed, .negativeSpindleSpeed, .axesClaimedTwice, .missingAxes, .missingOffsetWords,
    .missingDwellTime, .noActiveMotion, .missingArcEnd, .strayArcWords, .strayMachineCoordinates]

/-- A collected block is refused for the rules of blocks only. -/
theorem mem_ruleFaults {active : Option Motion} (broken : block.fault? active = some fault) :
    fault ∈ ruleFaults := by
  obtain ⟨rule, member, same⟩ := List.exists_of_findSome?_eq_some broken
  have fits : rule.2 = fault := by
    dsimp only at same
    split at same
    · exact Option.some.inj same
    · cases same
  rw [← fits]
  simp only [List.mem_cons, List.not_mem_nil, or_false] at member
  rcases member with rfl | rfl | rfl | rfl | rfl | rfl | rfl | rfl | rfl | rfl <;>
    simp [ruleFaults]

/-- A block that says nothing breaks no rule. -/
theorem fault?_of_isEmpty (empty : block.isEmpty = true) (active : Option Motion) :
    block.fault? active = none := by
  obtain ⟨-, words, values⟩ := isEmpty_iff.mp empty
  have axes : block.hasAxes = false := by simp [hasAxes, Parameters.hasAxes, Parameters.has, values]
  have arcs : block.hasArcWords = false := by
    simp [hasArcWords, Parameters.hasCenter, Parameters.has, values]
  have named : block.namedMotion = none := by simp [namedMotion, words]
  have absent (word : Word) : block.hasWord word = false := by simp [hasWord, words]
  have needs : block.needsAxes = false := by simp [needsAxes, words]
  simp [fault?, axes, arcs, named, absent, needs, values]

end Block

namespace Command

variable {number : Nat} {line : Bytes} {placed : List PlacedToken} {state : ModalState}

/-- Items are refused at the item that collecting stops at, or for the rule that their block
breaks. -/
theorem ofTokens?_eq_error_iff {error : LineError} :
    ofTokens? number line placed state = .error error ↔
      (∃ column fault, Block.ofTokens? placed = .error (column, fault) ∧
        error = ⟨number, column, .block fault⟩) ∨
      ∃ block fault, Block.ofTokens? placed = .ok block ∧
        block.fault? state.motion = some fault ∧ error = ⟨number, 0, .block fault⟩ := by
  unfold ofTokens?
  cases made : Block.ofTokens? placed with
  | error refusal =>
    obtain ⟨column, fault⟩ := refusal
    simp [eq_comm]
  | ok block =>
    simp only [reduceCtorEq, false_and, exists_false, Except.ok.injEq, exists_eq_left',
      exists_and_left, false_or]
    cases empty : block.isEmpty with
    | true => simp [Block.fault?_of_isEmpty empty]
    | false =>
      unfold ofBlock?
      cases block.fault? state.motion with
      | none => simp
      | some fault => simp [eq_comm]

/-- Items are accepted exactly if they make a block that breaks no rule. -/
theorem exists_ofTokens?_eq_ok_iff :
    (∃ found next, ofTokens? number line placed state = .ok (found, next)) ↔
      ∃ block, Block.ofTokens? placed = .ok block ∧ block.fault? state.motion = none := by
  unfold ofTokens?
  cases Block.ofTokens? placed with
  | error refusal => simp
  | ok block =>
    simp only [Except.ok.injEq, exists_eq_left']
    cases empty : block.isEmpty with
    | true => simp [Block.fault?_of_isEmpty empty]
    | false =>
      unfold ofBlock?
      cases block.fault? state.motion <;> simp

/-- Items are refused exactly as without the coolant words. -/
theorem ofTokens?_withoutCoolants {error : LineError} :
    ofTokens? number line placed state = .error error ↔
      ofTokens? number line
        (placed.filter fun item => !item.token.isDropped Word.isCoolant) state = .error error := by
  have fewer := Block.addAll_withoutCoolants {} placed
  have fewer : Block.ofTokens?
        (placed.filter fun item => !item.token.isDropped Word.isCoolant) =
      (Block.ofTokens? placed).map (·.without Word.isCoolant) := fewer
  rw [ofTokens?_eq_error_iff, ofTokens?_eq_error_iff, fewer]
  cases Block.ofTokens? placed with
  | error refusal => simp [Except.map]
  | ok block => simp [Except.map, Block.fault?_without Block.letter_of_isCoolant]

/-- Take a line that reads as items, under any state. If it is accepted, words at two places of it
are of one modal group only if they work the coolants. It is refused for a conflict exactly at a
word that shares its modal group, other than that of the coolants, with a word before it, where the
items before it go together. And its coolant words do not matter: it is refused exactly as without
them. -/
theorem group_conflicts_of_line (read : Token.ofLine? line = .ok placed) :
    ((∃ found next, ofLine? number line state = .ok (found, next)) →
      (placed.filterMap (·.token.word?)).Pairwise fun word other =>
        ∀ group, word.group? = some group → other.group? = some group → group = .coolant) ∧
      (∀ word column,
        ofLine? number line state = .error ⟨number, column, .block (.groupConflict word)⟩ ↔
          ∃ front value back, placed = front ++ ⟨.command word value, column⟩ :: back ∧
            Token.Compatible (front.map PlacedToken.token) ∧
              Block.Conflicts word (front.filterMap (·.token.word?))) ∧
        ∀ error, ofLine? number line state = .error error ↔
          ofTokens? number line
            (placed.filter fun item => !item.token.isDropped Word.isCoolant) state =
              .error error := by
  have parsed : ofLine? number line state = ofTokens? number line placed state := by
    rw [ofLine?_eq_ofTokens?, read]
  rw [parsed]
  refine ⟨fun accepted => ?_, fun word column => ?_, fun error => ofTokens?_withoutCoolants⟩
  · obtain ⟨block, made, -⟩ := exists_ofTokens?_eq_ok_iff.mp accepted
    rw [← Block.words_of_ofTokens? made]
    refine (Block.coherent_of_ofTokens? made).apart.imp
      fun {word other} apart group first second => ?_
    by_contra solid
    exact apart (.inr ⟨group, solid, first, second⟩)
  · rw [← Block.ofTokens?_eq_groupConflict_iff, ofTokens?_eq_error_iff]
    constructor
    · rintro (⟨place, fault, refused, same⟩ | ⟨block, fault, -, broken, same⟩)
      · cases same
        exact refused
      · cases same
        have rule := Block.mem_ruleFaults broken
        simp [Block.ruleFaults] at rule
    · intro refused
      exact .inl ⟨column, _, refused, rfl⟩

/-- A line that names two motions between coolant words is refused for the second motion, with the
coolant words and without them. -/
theorem group_conflicts_of_motions_between_coolants :
    ∃ placed, Token.ofLine? (ascii "M8 G1 M9 M8 G2") = .ok placed ∧
      ofLine? 1 (ascii "M8 G1 M9 M8 G2") {} = .error ⟨1, 13, .block (.groupConflict (.g 2))⟩ ∧
        ofTokens? 1 (ascii "M8 G1 M9 M8 G2")
            (placed.filter fun item => !item.token.isDropped Word.isCoolant) {} =
          .error ⟨1, 13, .block (.groupConflict (.g 2))⟩ := by
  let front : List PlacedToken :=
    [⟨.command (.m 8) 8, 1⟩, ⟨.command (.g 1) 1, 4⟩, ⟨.command (.m 9) 9, 7⟩,
      ⟨.command (.m 8) 8, 10⟩]
  have read : Token.ofLine? (ascii "M8 G1 M9 M8 G2") =
      .ok (front ++ [⟨.command (.g 2) 2, 13⟩]) := by decide +kernel
  have compatible : Token.Compatible (front.map PlacedToken.token) :=
    Block.exists_ofTokens?_iff.mp ⟨_, rfl⟩
  obtain ⟨-, conflict, coolants⟩ := @group_conflicts_of_line 1 _ _ {} read
  have refused := (conflict (.g 2) 13).mpr
    ⟨front, 2, [], rfl, compatible, .motion, by decide, rfl, .g 1, by decide, rfl⟩
  exact ⟨_, read, refused, (coolants _).mp refused⟩

/-- A line that starts a coolant and ends it is accepted, and so is one that starts it twice. -/
theorem coolants_share_a_line :
    ((ofLine? 1 (ascii "M7 M9") {}).toOption.bind Prod.fst).map words = some [.m 7, .m 9] ∧
      ((ofLine? 1 (ascii "M8 M8") {}).toOption.bind Prod.fst).map words = some [.m 8, .m 8] := by
  decide +kernel

end Command

end GcodeSender
