import Mathlib.Data.List.Pairwise
import Mathlib.Data.List.Perm.Basic
import GcodeSender.Proofs.Gcode.Reading

/-!
# The items that make a block

Two items exclude each other if no block takes both: words of one modal group, coolants apart,
two tool words, two values of one letter, two line numbers. A block takes items exactly when it
knows each of them and no two exclude each other (`Token.Compatible`), and then it holds what
they say (`Block.Holds`). Neither depends on the order of the items.
-/
namespace GcodeSender

/-! ## Items that exclude each other -/

/-- Two words may not stand in one block: both select a tool, or both are of one modal group other
than that of the coolants. -/
def Word.Excludes (word other : Word) : Prop :=
  (word.letter = .t ∧ other.letter = .t) ∨
    ∃ group, group ≠ .coolant ∧ word.group? = some group ∧ other.group? = some group

/-- Of two words each excludes the other. -/
theorem Word.Excludes.symm {word other : Word} (excludes : word.Excludes other) :
    other.Excludes word := by
  rcases excludes with ⟨first, second⟩ | ⟨group, solid, first, second⟩
  · exact .inl ⟨second, first⟩
  · exact .inr ⟨group, solid, second, first⟩

/-- A block knows a word: it selects a tool or has a modal group. -/
def Word.IsKnown (word : Word) : Prop := word.letter = .t ∨ ∃ group, word.group? = some group

namespace Token

/-- The command word of an item. -/
def word? : Token → Option Word
  | command word _ => some word
  | _ => none

/-- A block knows an item: it knows its command word, or its letter carries a value. -/
def IsKnown : Token → Prop
  | command word _ => word.IsKnown
  | parameter byte _ => ∃ letter, Letter.ofByte? byte = some letter
  | _ => True

/-- Two items may not stand in one block: words that exclude each other, values of one letter, or
two line numbers. -/
def Excludes : Token → Token → Prop
  | command word _, command other _ => word.Excludes other
  | parameter byte _, parameter other _ => byte = other
  | lineNumber _, lineNumber _ => True
  | _, _ => False

/-- Of two items each excludes the other. -/
theorem Excludes.symm {token other : Token} (excludes : token.Excludes other) :
    other.Excludes token := by
  cases token <;> cases other <;> first
    | exact Word.Excludes.symm excludes
    | exact Eq.symm excludes
    | exact excludes

/-- Items that a block can take together. -/
structure Compatible (tokens : List Token) : Prop where
  /-- Each of them is known. -/
  known : ∀ token ∈ tokens, token.IsKnown
  /-- No two of them exclude each other. -/
  apart : tokens.Pairwise fun token other => ¬ token.Excludes other

/-- The order of items does not matter to whether they go together. -/
theorem Compatible.perm {tokens others : List Token} (compatible : Compatible tokens)
    (reordered : tokens.Perm others) : Compatible others where
  known token member := compatible.known token (reordered.mem_iff.mpr member)
  apart := (reordered.pairwise_iff fun apart excludes => apart excludes.symm).mp compatible.apart

/-- The first of some items that go together go together. -/
theorem Compatible.left {front tokens : List Token} (compatible : Compatible (front ++ tokens)) :
    Compatible front where
  known token member := compatible.known token (List.mem_append_left tokens member)
  apart := (List.pairwise_append.mp compatible.apart).1

/-- Items go together with one more exactly when that one is known and none of them excludes
it. -/
theorem compatible_append_singleton {tokens : List Token} {token : Token} :
    Compatible (tokens ++ [token]) ↔
      Compatible tokens ∧ token.IsKnown ∧ ∀ other ∈ tokens, ¬ other.Excludes token := by
  constructor
  · rintro ⟨known, apart⟩
    exact ⟨Compatible.left ⟨known, apart⟩, known token (by simp), fun other member =>
      (List.pairwise_append.mp apart).2.2 other member token List.mem_cons_self⟩
  · rintro ⟨⟨known, apart⟩, last, between⟩
    refine ⟨fun other member => ?_, List.pairwise_append.mpr ⟨apart, List.pairwise_singleton _ _,
      fun other member token' only => ?_⟩⟩
    · rcases List.mem_append.mp member with front | only
      · exact known other front
      · exact List.mem_singleton.mp only ▸ last
    · exact List.mem_singleton.mp only ▸ between other member

end Token

/-! ## What a block holds -/

/-- A letter is found by its own byte only. -/
theorem Letter.ofByte?_eq_some_iff {byte : UInt8} {letter : Letter} :
    ofByte? byte = some letter ↔ byte = letter.byte := by
  constructor
  · intro found
    have same := List.find?_some found
    exact (of_decide_eq_true same).symm
  · rintro rfl
    exact ofByte?_byte letter

/-- Letters of one byte are one letter. -/
theorem Letter.byte_injective : Function.Injective byte := fun letter other same =>
  Option.some.inj (letter.ofByte?_byte.symm.trans (same ▸ other.ofByte?_byte))

/-- A tool word has no modal group. -/
theorem Word.group?_of_tool {word : Word} (tool : word.letter = .t) : word.group? = none := by
  unfold group?
  rw [tool]

/-- Only tool words exclude a tool word. -/
theorem Word.excludes_tool {word other : Word} (tool : word.letter = .t) :
    other.Excludes word ↔ other.letter = .t := by
  simp [Excludes, tool, group?_of_tool tool]

/-- The words of its group exclude a word, unless they are coolants. -/
theorem Word.excludes_of_group {word other : Word} {group : ModalGroup}
    (found : word.group? = some group) :
    other.Excludes word ↔ group ≠ .coolant ∧ other.group? = some group := by
  have noTool : word.letter ≠ .t := fun tool => by
    rw [group?_of_tool tool] at found
    cases found
  simp [Excludes, noTool, found, and_comm]

namespace Block

variable {block made : Block} {tokens : List Token} {token : Token}

/-- A block holds what items say. -/
structure Holds (block : Block) (tokens : List Token) : Prop where
  /-- Its words are theirs, in order. -/
  words : block.words = tokens.filterMap Token.word?
  /-- A letter has the value that one of them gives it. -/
  values : ∀ letter value,
    block.parameters letter = some value ↔ .parameter letter.byte value ∈ tokens
  /-- Its line number is that of one of them. -/
  number : ∀ number, block.lineNumber = some number ↔ .lineNumber number ∈ tokens

/-- The empty block holds no item. -/
theorem holds_nil : Holds {} [] where
  words := rfl
  values letter value := by simp [Parameters.empty]
  number number := by simp

/-- A word is added exactly when it is known and no word of the block excludes it. -/
theorem addWord_eq_ok_iff {word : Word} :
    block.addWord word = .ok made ↔
      word.IsKnown ∧ (∀ other ∈ block.words, ¬ other.Excludes word) ∧
        made = { block with words := block.words ++ [word] } := by
  unfold addWord
  split
  · next tool =>
    have known : word.IsKnown := .inl tool
    simp only [known, Word.excludes_tool tool, true_and]
    split
    · next second =>
      obtain ⟨other, member, same⟩ := List.any_eq_true.mp second
      exact iff_of_false nofun fun ⟨free, _⟩ => free other member (beq_iff_eq.mp same)
    · next single =>
      have free : ∀ other ∈ block.words, ¬ other.letter = .t := fun other member same =>
        single (List.any_eq_true.mpr ⟨other, member, beq_iff_eq.mpr same⟩)
      exact ⟨fun same => ⟨free, (Except.ok.inj same).symm⟩, fun ⟨_, same⟩ => same ▸ rfl⟩
  · next noTool =>
    cases found : word.group? with
    | none =>
      exact iff_of_false nofun fun ⟨known, _⟩ =>
        known.elim noTool fun ⟨group, grouped⟩ => nomatch found.symm.trans grouped
    | some group =>
      have known : word.IsKnown := .inr ⟨group, found⟩
      simp only [known, Word.excludes_of_group found, true_and]
      split
      · next conflict =>
        obtain ⟨other, member, same⟩ := List.any_eq_true.mp conflict.2
        exact iff_of_false nofun fun ⟨free, _⟩ =>
          free other member ⟨conflict.1, beq_iff_eq.mp same⟩
      · next clear =>
        have free : ∀ other ∈ block.words, ¬ (group ≠ .coolant ∧ other.group? = some group) :=
          fun other member same =>
            clear ⟨same.1, List.any_eq_true.mpr ⟨other, member, beq_iff_eq.mpr same.2⟩⟩
        exact ⟨fun same => ⟨free, (Except.ok.inj same).symm⟩, fun ⟨_, same⟩ => same ▸ rfl⟩

/-- A value is added exactly when its letter is known and has none. -/
theorem addParameter_eq_ok_iff {byte : UInt8} {value : Float} :
    block.addParameter byte value = .ok made ↔
      ∃ letter : Letter, byte = letter.byte ∧ block.parameters letter = none ∧
        made = { block with parameters := block.parameters.insert letter value } := by
  unfold addParameter
  cases found : Letter.ofByte? byte with
  | none =>
    refine iff_of_false nofun ?_
    rintro ⟨letter, rfl, _⟩
    exact nomatch found.symm.trans letter.ofByte?_byte
  | some letter =>
    have same : byte = letter.byte := Letter.ofByte?_eq_some_iff.mp found
    have one {other : Letter} (again : byte = other.byte) : other = letter :=
      Option.some.inj (other.ofByte?_byte.symm.trans (again ▸ found))
    dsimp only
    split
    · next given =>
      refine iff_of_false nofun ?_
      rintro ⟨other, again, absent, _⟩
      rw [Parameters.has, ← one again, absent] at given
      cases given
    · next absent =>
      have absent : block.parameters letter = none := by simpa [Parameters.has] using absent
      constructor
      · rintro ⟨⟩
        exact ⟨letter, same, absent, rfl⟩
      · rintro ⟨other, again, _, rfl⟩
        rw [one again]

/-- With one item more a block holds that item as well. -/
theorem Holds.add (holds : block.Holds tokens) (added : block.add token = .ok made) :
    made.Holds (tokens ++ [token]) := by
  cases token with
  | command word value =>
    obtain ⟨-, -, rfl⟩ := addWord_eq_ok_iff.mp added
    exact ⟨by simp [holds.words, Token.word?], by simp [holds.values], by simp [holds.number]⟩
  | parameter byte value =>
    obtain ⟨letter, rfl, absent, rfl⟩ := addParameter_eq_ok_iff.mp added
    refine ⟨by simp [holds.words, Token.word?], fun other given => ?_, by simp [holds.number]⟩
    simp only [Parameters.insert, List.mem_append, List.mem_singleton, Token.parameter.injEq,
      ← holds.values]
    split
    · next same =>
      subst same
      simp [absent, eq_comm]
    · next apart =>
      simp [mt Letter.byte_injective.eq_iff.mp apart]
  | lineNumber number =>
    simp only [Block.add] at added
    split at added
    · cases added
    · next absent =>
      cases added
      have absent : block.lineNumber = none := by simpa using absent
      refine ⟨by simp [holds.words, Token.word?], by simp [holds.values], fun other => ?_⟩
      simp [← holds.number, absent, eq_comm]
  | comment text =>
    cases added
    have same : (block.addComment text).words = block.words ∧
        (block.addComment text).parameters = block.parameters ∧
          (block.addComment text).lineNumber = block.lineNumber := by
      unfold addComment
      split <;> exact ⟨rfl, rfl, rfl⟩
    exact ⟨by simp [same, holds.words, Token.word?], by simp [same, holds.values],
      by simp [same, holds.number]⟩
  | checksum value =>
    cases added
    exact ⟨by simp [holds.words, Token.word?], by simp [holds.values], by simp [holds.number]⟩

/-- A block that holds items takes one more exactly when that one is known and none of them
excludes it. -/
theorem Holds.exists_add_iff (holds : block.Holds tokens) :
    (∃ made, block.add token = .ok made) ↔
      token.IsKnown ∧ ∀ other ∈ tokens, ¬ other.Excludes token := by
  cases token with
  | command word value =>
    have others : (∀ other ∈ block.words, ¬ other.Excludes word) ↔
        ∀ other ∈ tokens, ¬ other.Excludes (.command word value) := by
      simp only [holds.words, List.mem_filterMap, forall_exists_index, and_imp]
      constructor
      · rintro free (⟨other, number⟩ | _ | _ | _ | _) member excludes
        · exact free other _ member rfl excludes
        all_goals exact excludes
      · rintro free other (⟨word, number⟩ | _ | _ | _ | _) member ⟨⟩
        exact free _ member
    simp only [Block.add, addWord_eq_ok_iff, Token.IsKnown, others, exists_and_left, exists_eq,
      and_true]
  | parameter byte value =>
    simp only [Block.add, addParameter_eq_ok_iff, Token.IsKnown, Letter.ofByte?_eq_some_iff]
    constructor
    · rintro ⟨made, letter, rfl, absent, -⟩
      refine ⟨⟨letter, rfl⟩, ?_⟩
      rintro (_ | ⟨byte, given⟩ | _ | _ | _) member excludes
      · exact excludes
      · cases (excludes : byte = letter.byte)
        exact nomatch absent.symm.trans ((holds.values letter given).mpr member)
      all_goals exact excludes
    · rintro ⟨⟨letter, rfl⟩, free⟩
      refine ⟨_, letter, rfl, Option.eq_none_iff_forall_ne_some.mpr fun given taken => ?_, rfl⟩
      exact free _ ((holds.values letter given).mp taken) rfl
  | lineNumber number =>
    have absent : block.lineNumber = none ↔
        ∀ other ∈ tokens, ¬ other.Excludes (.lineNumber number) := by
      simp only [Option.eq_none_iff_forall_ne_some, ne_eq, holds.number]
      constructor
      · rintro free (_ | _ | other | _ | _) member excludes
        · exact excludes
        · exact excludes
        · exact free other member
        all_goals exact excludes
      · exact fun free other member => free _ member trivial
    simp only [Block.add, Token.IsKnown, ← absent, true_and]
    cases block.lineNumber <;> simp
  | comment text =>
    refine iff_of_true ⟨_, rfl⟩ ⟨trivial, ?_⟩
    rintro (_ | _ | _ | _ | _) member excludes <;> exact excludes
  | checksum value =>
    refine iff_of_true ⟨_, rfl⟩ ⟨trivial, ?_⟩
    rintro (_ | _ | _ | _ | _) member excludes <;> exact excludes

/-- Items make a block on top of another exactly when they go together with the items that this
one holds. -/
theorem exists_collect?_iff {front : List Token} (holds : block.Holds front)
    (compatible : Token.Compatible front) (tokens : List Token) :
    (∃ made, block.collect? tokens = .ok made) ↔ Token.Compatible (front ++ tokens) := by
  induction tokens generalizing block front with
  | nil => simpa [collect?] using compatible
  | cons token others ih =>
    have step : Token.Compatible (front ++ [token]) ↔ ∃ made, block.add token = .ok made := by
      rw [Token.compatible_append_singleton, holds.exists_add_iff]
      exact and_iff_right compatible
    rw [collect?, List.append_cons]
    cases added : block.add token with
    | error fault =>
      constructor
      · rintro ⟨made, collected⟩
        cases collected
      · intro whole
        obtain ⟨made, taken⟩ := step.mp whole.left
        rw [added] at taken
        cases taken
    | ok next =>
      exact ih (holds.add added) (step.mpr ⟨next, added⟩)

/-- A block holds the items that make it. -/
theorem Holds.collect? {front : List Token} (holds : block.Holds front) {tokens : List Token}
    (collected : block.collect? tokens = .ok made) : made.Holds (front ++ tokens) := by
  induction tokens generalizing block front with
  | nil =>
    cases collected
    simpa using holds
  | cons token others ih =>
    rw [Block.collect?] at collected
    split at collected
    · cases collected
    · next next added => exact List.append_cons .. ▸ ih (holds.add added) collected

/-- Items make a block exactly when they go together. -/
theorem exists_ofTokens?_iff {placed : List PlacedToken} :
    (∃ block, ofTokens? placed = .ok block) ↔
      Token.Compatible (placed.map PlacedToken.token) := by
  simp only [ofTokens?, addAll_eq_ok_iff]
  exact exists_collect?_iff holds_nil ⟨nofun, List.Pairwise.nil⟩ _

/-- The block of items holds them. -/
theorem holds_of_ofTokens? {placed : List PlacedToken} (collected : ofTokens? placed = .ok block) :
    block.Holds (placed.map PlacedToken.token) :=
  holds_nil.collect? (addAll_eq_ok_iff.mp collected)

end Block

end GcodeSender
