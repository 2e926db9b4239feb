import GcodeSender.Proofs.Gcode.BlockItems

/-!
# Blocks with fewer words

Some words of a block may be left out. What they do not say is read as before, and the rules of a
block ask about its G words only, so without words of other letters it breaks the same rule first
(`Block.fault?_without`). Items that make a block make it without some of its words as well, when
the items of these words are left out (`Block.collect?_without`).
-/
namespace GcodeSender

/-- An item is a word that is left out. -/
def Token.isDropped (drop : Word → Bool) (token : Token) : Bool := token.word?.any drop

/-- A word is left out as its item is. -/
@[simp] theorem Token.isDropped_command (drop : Word → Bool) (word : Word) (value : Float) :
    (command word value).isDropped drop = drop word := rfl

/-- A word of another letter than G selects no motion. -/
theorem Word.motion?_of_letter {word : Word} (other : word.letter ≠ .g) : word.motion? = none := by
  have apart (code : Nat) : word ≠ g code := by
    rintro rfl
    exact other rfl
  simp [motion?, apart]

namespace Block

/-- The block without some words. -/
def without (block : Block) (drop : Word → Bool) : Block :=
  { block with words := block.words.filter fun word => !drop word }

variable {block made : Block} {drop : Word → Bool}

/-! ## What is read as before -/

/-- A reading that none of the words answers finds the same without them. -/
theorem findSome?_without {α : Type} {read : Word → Option α}
    (silent : ∀ word, drop word = true → read word = none) :
    (block.without drop).words.findSome? read = block.words.findSome? read := by
  unfold without
  dsimp only
  induction block.words with
  | nil => rfl
  | cons word others ih =>
    cases dropped : drop word with
    | false => simp [dropped, List.findSome?_cons, ih]
    | true => simp [dropped, silent word dropped, ih]

/-- A test that none of the words passes is passed as before without them. -/
theorem any_without {test : Word → Bool} (silent : ∀ word, drop word = true → test word = false) :
    (block.without drop).words.any test = block.words.any test := by
  have kept (word : Word) : (!drop word && test word) = test word := by
    cases dropped : drop word with
    | false => rfl
    | true => simp [silent word dropped]
  simp only [without, List.any_filter, kept]

/-- A word that is not left out is there as before. -/
theorem hasWord_without {word : Word} (kept : drop word = false) :
    (block.without drop).hasWord word = block.hasWord word := by
  simp only [hasWord, List.contains_eq_any_beq]
  refine any_without fun other dropped => beq_eq_false_iff_ne.mpr ?_
  rintro rfl
  exact Bool.false_ne_true (kept.symm.trans dropped)

/-! ## Words of other letters than G -/

section OtherLetters

variable (others : ∀ word, drop word = true → word.letter ≠ .g)
include others

/-- Only G words are equal to a G word, so none of them is left out. -/
theorem hasWord_without_g (code : Nat) :
    (block.without drop).hasWord (.g code) = block.hasWord (.g code) :=
  hasWord_without (Bool.eq_false_iff.mpr fun dropped => others _ dropped rfl)

/-- The same motion is named. -/
theorem namedMotion_without : (block.without drop).namedMotion = block.namedMotion :=
  findSome?_without fun word dropped => Word.motion?_of_letter (others word dropped)

/-- The same motion is in force afterwards. -/
theorem activeMotion_without (active : Option Motion) :
    (block.without drop).activeMotion active = block.activeMotion active := by
  have cancels : (block.without drop).cancelsMotion = block.cancelsMotion :=
    any_without fun word dropped => by
      have other := others word dropped
      cases word
      simp_all [Word.cancelsMotion]
  rw [activeMotion, activeMotion, cancels, namedMotion_without others]

/-- The axis words are claimed as before. -/
theorem claimsAxes_without : (block.without drop).claimsAxes = block.claimsAxes :=
  any_without fun word dropped => by
    have other := others word dropped
    cases word
    simp_all [Word.claimsAxes]

/-- The same motion is made. -/
theorem motion?_without (active : Option Motion) :
    (block.without drop).motion? active = block.motion? active := by
  have axes : (block.without drop).hasAxes = block.hasAxes := rfl
  rw [motion?, motion?, axes, claimsAxes_without others, activeMotion_without others]

/-- The same rule is broken first. -/
theorem fault?_without (active : Option Motion) :
    (block.without drop).fault? active = block.fault? active := by
  have needs : (block.without drop).needsAxes = block.needsAxes :=
    any_without fun word dropped => by
      have other := others word dropped
      cases word
      simp_all [Word.needsAxes]
  have axes : (block.without drop).hasAxes = block.hasAxes := rfl
  have arcs : (block.without drop).hasArcWords = block.hasArcWords := rfl
  have values : (block.without drop).parameters = block.parameters := rfl
  simp only [fault?, needs, axes, arcs, values, hasWord_without_g others,
    claimsAxes_without others, activeMotion_without others, namedMotion_without others,
    motion?_without others]

end OtherLetters

/-! ## Items of a block with fewer words -/

/-- A word that could be added can be added to fewer words. -/
theorem addWord_without {word : Word} (added : block.addWord word = .ok made) :
    (block.without drop).addWord word =
      .ok { block.without drop with words := (block.without drop).words ++ [word] } := by
  obtain ⟨known, free, -⟩ := addWord_eq_ok_iff.mp added
  -- Fewer words leave fewer of them to be in conflict with.
  have fewer : ∀ other ∈ (block.without drop).words, ¬ other.Excludes word :=
    fun other member => free other (List.mem_filter.mp member).1
  exact addWord_eq_ok_iff.mpr ⟨known, fewer, rfl⟩

/-- An item that says no word is taken by fewer words as by all of them. -/
theorem add_without_of_word?_eq_none {token : Token} (silent : token.word? = none) :
    (block.without drop).add token = (block.add token).map (·.without drop) := by
  cases token with
  | command word value => cases silent
  | parameter byte value =>
    simp only [add, addParameter, without]
    cases Letter.ofByte? byte with
    | none => rfl
    | some letter => cases given : block.parameters.has letter <;> simp [given, Except.map]
  | lineNumber number =>
    by_cases given : block.lineNumber.isSome = true
    · simp [add, without, given, Except.map]
    · simp [add, without, given, Except.map]
  | comment text =>
    simp only [add, addComment, without]
    cases block.comment <;> rfl
  | checksum value => rfl

/-- One item more makes the same block without the words, and no difference to it if the item is
one of them. -/
theorem add_without (drop : Word → Bool) {token : Token} (added : block.add token = .ok made) :
    if token.isDropped drop then made.without drop = block.without drop
    else (block.without drop).add token = .ok (made.without drop) := by
  cases found : token.word? with
  | none =>
    rw [if_neg (by simp [Token.isDropped, found]), add_without_of_word?_eq_none found, added]
    rfl
  | some word =>
    cases token <;> cases found
    have words := (addWord_eq_ok_iff.mp added).2.2
    rw [Token.isDropped_command, words]
    cases dropped : drop word with
    | true => simp [without, dropped]
    | false =>
      rw [if_neg Bool.false_ne_true]
      show (block.without drop).addWord word = _
      rw [addWord_without added]
      simp [without, dropped]

/-- The items of a block make it without some words when these are left out. -/
theorem collect?_without (drop : Word → Bool) {tokens : List Token}
    (collected : block.collect? tokens = .ok made) :
    (block.without drop).collect? (tokens.filter fun token => !token.isDropped drop) =
      .ok (made.without drop) := by
  induction tokens generalizing block with
  | nil =>
    cases collected
    rfl
  | cons token others ih =>
    rw [collect?] at collected
    split at collected
    · cases collected
    · next next added =>
      have step := add_without drop added
      have rest := ih collected
      cases dropped : token.isDropped drop with
      | true =>
        rw [if_pos dropped] at step
        rw [List.filter_cons_of_neg (by simp [dropped]), ← step]
        exact rest
      | false =>
        rw [if_neg (by simp [dropped])] at step
        rw [List.filter_cons_of_pos (by simp [dropped]), collect?, step]
        exact rest

/-- The placed items of a block make it without some words when these are left out. -/
theorem ofTokens?_without (drop : Word → Bool) {placed : List PlacedToken}
    (made : ofTokens? placed = .ok block) :
    ofTokens? (placed.filter fun item => !item.token.isDropped drop) =
      .ok (block.without drop) := by
  have collected : collect? {} (placed.map PlacedToken.token) = .ok block :=
    addAll_eq_ok_iff.mp made
  have shorter := collect?_without drop collected
  rw [List.filter_map] at shorter
  exact addAll_eq_ok_iff.mpr shorter

end Block

end GcodeSender
