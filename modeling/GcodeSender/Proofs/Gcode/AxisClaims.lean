import GcodeSender.Proofs.Gcode.GroupConflicts
import GcodeSender.Proofs.Program.Offsets

/-!
# Words that want the axis words

The axis words of a line serve one word: a motion, a word about stored positions, or G43.1, which
takes the tool's length. Motions exclude each other, and so do words about stored positions; a rule
of blocks keeps a motion apart from the others (`Block.fault?`). Nothing keeps G43.1 apart from the
words about stored positions. The main statement says that such a pair alone is accepted, and that
G43.1 then makes no difference to whether the line is.
-/
namespace GcodeSender

/-- The words about stored positions that take the axis words. -/
def Word.positionWords : List Word := [.g 10, .g 28, .g 30, .g 92]

/-- The word wants the axis words of its line: it names a motion, or it takes them for itself. -/
def Word.wantsAxes (word : Word) : Bool := word.motion?.isSome || word.claimsAxes

/-- The word is G43.1. -/
def Word.isToolOffset (word : Word) : Bool := word == gSub 43 1

/-- An item is a line number. -/
def Token.isLineNumber : Token → Bool
  | lineNumber _ => true
  | _ => false

/-- The words of items that want the axis words. -/
def claimants (placed : List PlacedToken) : List Word :=
  (placed.filterMap (·.token.word?)).filter Word.wantsAxes

namespace Word

variable {word other : Word}

/-- A word that names a motion is of the group of motions. -/
theorem group?_of_motion? {motion : Motion} (selects : word.motion? = some motion) :
    word.group? = some .motion := by
  unfold motion? at selects
  grind [group?]

/-- A word about stored positions is of their group. -/
theorem group?_of_mem_positionWords (position : word ∈ positionWords) :
    word.group? = some .nonModal := by
  simp only [positionWords, List.mem_cons, List.not_mem_nil, or_false] at position
  rcases position with rfl | rfl | rfl | rfl <;> rfl

/-- The words that take the axis words for themselves are about stored positions, or G43.1. -/
theorem claimsAxes_iff :
    word.claimsAxes = true ↔ word ∈ positionWords ∨ word = gSub 43 1 := by
  simp [claimsAxes, positionWords, or_assoc]

/-- G43.1 and G49 exclude G43.1, and no other word does. -/
theorem excludes_toolOffset_iff :
    other.Excludes (gSub 43 1) ↔ other = gSub 43 1 ∨ other = g 49 := by
  have grouped : (gSub 43 1).group? = some .toolLength := rfl
  rw [excludes_of_group grouped]
  obtain ⟨letter, code, sub⟩ := other
  constructor
  · rintro ⟨-, grouped⟩
    unfold group? at grouped
    grind
  · rintro (same | same) <;> cases same <;> exact ⟨by decide, rfl⟩

/-- Among words of which any two exclude each other, and of which none does, there is one at
most. -/
theorem length_le_one_of_excludes {words : List Word}
    (apart : words.Pairwise fun word other => ¬ word.Excludes other)
    (alike : ∀ word ∈ words, ∀ other ∈ words, word.Excludes other) : words.length ≤ 1 := by
  rcases words with - | ⟨first, - | ⟨second, others⟩⟩
  · simp
  · simp
  · have excluded := alike first (by simp) second (by simp)
    exact absurd excluded ((List.pairwise_cons.mp apart).1 second (by simp))

/-- Among words of two kinds, of which two of one kind exclude each other and none does, there is
one at most or one of each kind. -/
theorem length_le_one_or_perm {words : List Word} {kind : Word → Prop} {last : Word}
    (apart : words.Pairwise fun word other => ¬ word.Excludes other)
    (kinds : ∀ word ∈ words, kind word ∨ word = last)
    (alike : ∀ word other, kind word → kind other → word.Excludes other)
    (again : last.Excludes last) :
    words.length ≤ 1 ∨ ∃ word, kind word ∧ words.Perm [last, word] := by
  rcases words with - | ⟨first, - | ⟨second, others⟩⟩
  · simp
  · simp
  · obtain ⟨free, apart⟩ := List.pairwise_cons.mp apart
    have between := free second (by simp)
    have two : others = [] := by
      rcases others with - | ⟨third, rest⟩
      · rfl
      · -- Two of three words are of one kind.
        have early := free third (by simp)
        have late := (List.pairwise_cons.mp apart).1 third (by simp)
        exfalso
        rcases kinds first (by simp) with one | rfl <;>
          rcases kinds second (by simp) with two | rfl <;>
            rcases kinds third (by simp) with three | rfl <;>
              grind
    subst two
    right
    rcases kinds first (by simp) with one | rfl
    · rcases kinds second (by simp) with two | rfl
      · exact absurd (alike first second one two) between
      · exact ⟨first, one, .swap ..⟩
    · rcases kinds second (by simp) with two | rfl
      · exact ⟨second, two, .refl _⟩
      · exact absurd again between

end Word

namespace Block

variable {block : Block} {active : Option Motion}

/-- The block of items has coordinates if one of them is a coordinate. -/
theorem hasAxes_of_ofTokens? {placed : List PlacedToken} (made : ofTokens? placed = .ok block)
    (coordinate : ∃ item ∈ placed, item.token.IsCoordinate) : block.hasAxes = true := by
  obtain ⟨item, listed, along⟩ := coordinate
  have member : item.token ∈ placed.map PlacedToken.token := List.mem_map_of_mem listed
  exact (holds_of_ofTokens? made).hasAxes_iff.mpr ⟨item.token, member, along⟩

/-- A sound block with coordinates names a motion or has a word that takes them, but not both. -/
theorem namedMotion_of_claimsAxes (sound : block.fault? active = none)
    (axes : block.hasAxes = true) (claims : block.claimsAxes = true) :
    block.namedMotion = none := by
  have unbroken := List.findSome?_eq_none_iff.mp sound
  have rule := unbroken (block.claimsAxes && block.namedMotion.isSome && block.hasAxes,
    .axesClaimedTwice) (by simp)
  simpa [axes, claims] using rule

/-- Of the words of a sound block with coordinates one at most wants them, or G43.1 and a word about
stored positions do. -/
theorem Coherent.claimants (coherent : block.Coherent) (sound : block.fault? active = none)
    (axes : block.hasAxes = true) :
    (block.words.filter Word.wantsAxes).length ≤ 1 ∨
      ∃ word ∈ Word.positionWords,
        (block.words.filter Word.wantsAxes).Perm [.gSub 43 1, word] := by
  have apart := coherent.apart.filter Word.wantsAxes
  cases claims : block.claimsAxes with
  | false =>
    have motions : ∀ word ∈ block.words.filter Word.wantsAxes, word.group? = some .motion := by
      intro word member
      obtain ⟨member, wants⟩ := List.mem_filter.mp member
      have unclaimed : word.claimsAxes = false :=
        Bool.eq_false_iff.mpr fun claiming =>
          Bool.false_ne_true (claims.symm.trans (List.any_eq_true.mpr ⟨word, member, claiming⟩))
      rw [Word.wantsAxes, unclaimed, Bool.or_false] at wants
      obtain ⟨motion, selects⟩ := Option.isSome_iff_exists.mp wants
      exact Word.group?_of_motion? selects
    exact .inl (Word.length_le_one_of_excludes apart fun word first other second =>
      .inr ⟨.motion, by decide, motions word first, motions other second⟩)
  | true =>
    have named := List.findSome?_eq_none_iff.mp (namedMotion_of_claimsAxes sound axes claims)
    have kinds : ∀ word ∈ block.words.filter Word.wantsAxes,
        word ∈ Word.positionWords ∨ word = .gSub 43 1 := by
      intro word member
      obtain ⟨member, wants⟩ := List.mem_filter.mp member
      rw [Word.wantsAxes, named word member] at wants
      exact Word.claimsAxes_iff.mp wants
    exact Word.length_le_one_or_perm apart kinds
      (fun word other first second => .inr ⟨.nonModal, by decide,
        Word.group?_of_mem_positionWords first, Word.group?_of_mem_positionWords second⟩)
      (Word.excludes_toolOffset_iff.mpr (.inl rfl))

/-- Where another word takes the coordinates, a block breaks the same rule first without G43.1. -/
theorem fault?_withoutToolOffset (axes : block.hasAxes = true) {word : Word}
    (position : word ∈ Word.positionWords) (member : word ∈ block.words) :
    (block.without Word.isToolOffset).fault? active = block.fault? active := by
  have claiming : word.claimsAxes = true := Word.claimsAxes_iff.mpr (.inl position)
  have claims : block.claimsAxes = true := List.any_eq_true.mpr ⟨word, member, claiming⟩
  have kept : word.isToolOffset = false := by
    rw [Word.isToolOffset, beq_eq_false_iff_ne]
    rintro rfl
    exact absurd position (by decide)
  have still : (block.without Word.isToolOffset).claimsAxes = true :=
    List.any_eq_true.mpr ⟨word, List.mem_filter.mpr ⟨member, by rw [kept]; rfl⟩, claiming⟩
  have only {other : Word} (dropped : other.isToolOffset = true) : other = .gSub 43 1 :=
    beq_iff_eq.mp dropped
  have named : (block.without Word.isToolOffset).namedMotion = block.namedMotion :=
    findSome?_without fun other dropped => by rw [only dropped]; rfl
  have present (code : Nat) :
      (block.without Word.isToolOffset).hasWord (.g code) = block.hasWord (.g code) :=
    hasWord_without (by simp [Word.isToolOffset, Word.g, Word.gSub])
  have coordinates : (block.without Word.isToolOffset).hasAxes = true := axes
  have arcs : (block.without Word.isToolOffset).hasArcWords = block.hasArcWords := rfl
  have values : (block.without Word.isToolOffset).parameters = block.parameters := rfl
  have moving := motion?_eq_none active (.inl claims)
  have unmoving := motion?_eq_none active (.inl still)
  simp only [fault?, moving, unmoving, axes, coordinates, arcs, values, claims, still, named,
    present, Bool.not_true, Bool.and_false, Bool.and_true, Bool.false_and]

/-- Among items that hold G43.1 once, one is left out with it. -/
theorem exists_filter_isToolOffset {tokens : List Token}
    (once : (tokens.filterMap Token.word?).count (.gSub 43 1) = 1) :
    ∃ value, tokens.filter (Token.isDropped Word.isToolOffset) =
      [.command (.gSub 43 1) value] := by
  have single : (tokens.filter (Token.isDropped Word.isToolOffset)).length = 1 := by
    rw [← List.countP_eq_length_filter, ← once, List.count, List.countP_filterMap]
    refine List.countP_congr fun token _ => ?_
    cases found : token.word? <;> simp [Token.isDropped, found, Word.isToolOffset]
  obtain ⟨offset, only⟩ := List.length_eq_one_iff.mp single
  have picked : offset.isDropped Word.isToolOffset = true :=
    (List.mem_filter.mp (only ▸ List.mem_singleton_self offset)).2
  cases offset with
  | command word value =>
    rw [Token.isDropped_command, Word.isToolOffset, beq_iff_eq] at picked
    exact ⟨value, picked ▸ only⟩
  | _ => cases picked

/-- Items that hold G43.1 once go together exactly if G49 is not among them and the others do. -/
theorem compatible_iff_withoutToolOffset {tokens : List Token}
    (once : (tokens.filterMap Token.word?).count (.gSub 43 1) = 1) :
    Token.Compatible tokens ↔
      Word.g 49 ∉ tokens.filterMap Token.word? ∧
        Token.Compatible (tokens.filter fun token => !token.isDropped Word.isToolOffset) := by
  have listed {token : Token} {word : Word} (member : token ∈ tokens)
      (found : token.word? = some word) : word ∈ tokens.filterMap Token.word? :=
    List.mem_filterMap.mpr ⟨token, member, found⟩
  obtain ⟨value, single⟩ := exists_filter_isToolOffset once
  have reordered := List.filter_append_perm (Token.isDropped Word.isToolOffset) tokens
  rw [single] at reordered
  have last := List.perm_append_comm.trans reordered
  have parted : Token.Compatible tokens ↔ Token.Compatible
      ((tokens.filter fun token => !token.isDropped Word.isToolOffset) ++
        [.command (.gSub 43 1) value]) :=
    ⟨fun compatible => compatible.perm last.symm, fun compatible => compatible.perm last⟩
  have known : Token.IsKnown (.command (.gSub 43 1) value) := .inr ⟨.toolLength, rfl⟩
  rw [parted, Token.compatible_append_singleton, and_comm, and_iff_right known]
  refine and_congr_left fun _ => ⟨fun free taken => ?_, fun absent other member excludes => ?_⟩
  · obtain ⟨token, member, found⟩ := List.mem_filterMap.mp taken
    cases token <;> cases found
    exact free _ (List.mem_filter.mpr ⟨member, rfl⟩) (Word.excludes_toolOffset_iff.mpr (.inr rfl))
  · obtain ⟨member, kept⟩ := List.mem_filter.mp member
    cases other with
    | command word value =>
      rcases Word.excludes_toolOffset_iff.mp excludes with rfl | rfl
      · cases kept
      · exact absent (listed member rfl)
    | _ => exact excludes

end Block

/-- A refusal of a block is of the domain kind, unless a second line number is its reason. -/
theorem LineFault.kind_block_iff {fault : BlockFault} :
    (LineFault.block fault).kind = .domain ↔ fault ≠ .repeatedLineNumber := by
  cases fault <;> simp [kind]

/-- A block refuses a second line number for being one, and nothing else for that reason. -/
theorem Block.lineNumber_of_repeated {block : Block} {token : Token}
    (stopped : block.add token = .error .repeatedLineNumber) :
    token.isLineNumber = true ∧ block.lineNumber.isSome = true := by
  cases token with
  | command word value =>
    simp only [add, addWord] at stopped
    split at stopped
    · split at stopped <;> cases stopped
    · split at stopped
      · cases stopped
      · split at stopped <;> cases stopped
  | parameter byte value =>
    simp only [add, addParameter] at stopped
    split at stopped
    · cases stopped
    · split at stopped <;> cases stopped
  | lineNumber number =>
    simp only [add] at stopped
    split at stopped
    · next given => exact ⟨rfl, given⟩
    · cases stopped
  | comment text => cases stopped
  | checksum value => cases stopped

/-- Items are refused for a second line number only if two of them are line numbers. -/
theorem Block.two_lineNumbers {placed : List PlacedToken} {column : Nat}
    (refused : ofTokens? placed = .error (column, .repeatedLineNumber)) :
    1 < placed.countP (·.token.isLineNumber) := by
  obtain ⟨front, item, back, made, rfl, collected, stopped, -⟩ := addAll_eq_error_iff.mp refused
  have holds := holds_of_ofTokens? (show ofTokens? front = .ok made from collected)
  obtain ⟨second, given⟩ := lineNumber_of_repeated stopped
  obtain ⟨number, given⟩ := Option.isSome_iff_exists.mp given
  have first : 0 < front.countP (·.token.isLineNumber) := by
    obtain ⟨item, member, same⟩ := List.mem_map.mp ((holds.number number).mp given)
    exact List.countP_pos_iff.mpr ⟨item, member, by rw [same]; rfl⟩
  have here : 0 < (item :: back).countP (·.token.isLineNumber) :=
    List.countP_pos_iff.mpr ⟨item, List.mem_cons_self, second⟩
  rw [List.countP_append]
  omega

namespace Command

variable {number : Nat} {line : Bytes} {placed : List PlacedToken} {state : ModalState}

/-- A refusal of items is of the domain kind, unless two of them are line numbers. -/
theorem kind_of_ofTokens? {error : LineError}
    (refused : ofTokens? number line placed state = .error error) :
    error.fault.kind = .domain ∨ 1 < placed.countP (·.token.isLineNumber) := by
  rcases ofTokens?_eq_error_iff.mp refused with
    ⟨column, fault, stopped, rfl⟩ | ⟨block, fault, -, broken, rfl⟩
  · by_cases repeated : fault = .repeatedLineNumber
    · subst repeated
      exact .inr (Block.two_lineNumbers stopped)
    · exact .inl (LineFault.kind_block_iff.mpr repeated)
  · left
    rw [LineFault.kind_block_iff]
    rintro rfl
    have rule := Block.mem_ruleFaults broken
    simp [Block.ruleFaults] at rule

/-- Items with coordinates of which G43.1 and a word about stored positions want the coordinates
are accepted exactly if G49 is not among them and they are accepted without G43.1. -/
theorem exists_ofTokens?_withoutToolOffset_iff
    (coordinate : ∃ item ∈ placed, item.token.IsCoordinate) {word : Word}
    (position : word ∈ Word.positionWords) (pair : (claimants placed).Perm [.gSub 43 1, word]) :
    (∃ found next, ofTokens? number line placed state = .ok (found, next)) ↔
      Word.g 49 ∉ placed.filterMap (·.token.word?) ∧
        ∃ found next, ofTokens? number line
          (placed.filter fun item => !item.token.isDropped Word.isToolOffset) state =
            .ok (found, next) := by
  have words : (placed.map PlacedToken.token).filterMap Token.word? =
      placed.filterMap (·.token.word?) := List.filterMap_map
  have tokens :
      (placed.map PlacedToken.token).filter (fun token => !token.isDropped Word.isToolOffset) =
        (placed.filter fun item => !item.token.isDropped Word.isToolOffset).map
          PlacedToken.token := List.filter_map
  have member : word ∈ placed.filterMap (·.token.word?) :=
    (List.mem_filter.mp (pair.mem_iff.mpr (by simp : word ∈ [Word.gSub 43 1, word]))).1
  have once : (placed.filterMap (·.token.word?)).count (.gSub 43 1) = 1 := by
    have counted := pair.count_eq (.gSub 43 1)
    rw [claimants, List.count_filter (by decide)] at counted
    have apart : word ≠ .gSub 43 1 := by
      rintro rfl
      exact absurd position (by decide)
    rw [counted, List.count_cons_self, List.count_singleton, if_neg (by simpa using apart)]
  have sound {block : Block} (made : Block.ofTokens? placed = .ok block) :
      (block.without Word.isToolOffset).fault? state.motion = block.fault? state.motion := by
    have listed : word ∈ block.words := by
      rw [Block.words_of_ofTokens? made]
      exact member
    have axes := Block.hasAxes_of_ofTokens? made coordinate
    exact Block.fault?_withoutToolOffset axes position listed
  have together := Block.compatible_iff_withoutToolOffset (words ▸ once)
  rw [words, tokens] at together
  rw [exists_ofTokens?_eq_ok_iff, exists_ofTokens?_eq_ok_iff]
  constructor
  · rintro ⟨block, made, unbroken⟩
    have compatible := Block.exists_ofTokens?_iff.mp ⟨block, made⟩
    exact ⟨(together.mp compatible).1, _, Block.ofTokens?_without _ made,
      (sound made).trans unbroken⟩
  · rintro ⟨free, shorter, remade, unbroken⟩
    obtain ⟨block, made⟩ := Block.exists_ofTokens?_iff.mpr
      (together.mpr ⟨free, Block.exists_ofTokens?_iff.mp ⟨shorter, remade⟩⟩)
    have same := Block.ofTokens?_without Word.isToolOffset made
    rw [remade] at same
    cases same
    exact ⟨block, made, (sound made).symm.trans unbroken⟩

/-- Take a line that reads as items with coordinates, and suppose that two or more of its words want
the coordinates. It is accepted exactly if these words are G43.1 and one of G10, G28, G30 and G92,
G49 is not on the line, and the line is accepted without G43.1. Otherwise it is refused, and the
reason is of the domain kind, unless the line has two line numbers. -/
theorem two_claimants_accepted_iff (read : Token.ofLine? line = .ok placed)
    (coordinate : ∃ item ∈ placed, item.token.IsCoordinate)
    (several : 1 < (claimants placed).length) :
    ((∃ found next, ofLine? number line state = .ok (found, next)) ↔
      (∃ word ∈ Word.positionWords, (claimants placed).Perm [.gSub 43 1, word]) ∧
        Word.g 49 ∉ placed.filterMap (·.token.word?) ∧
          ∃ found next, ofTokens? number line
            (placed.filter fun item => !item.token.isDropped Word.isToolOffset) state =
              .ok (found, next)) ∧
      ∀ error, ofLine? number line state = .error error →
        error.fault.kind = .domain ∨ 1 < placed.countP (·.token.isLineNumber) := by
  have parsed : ofLine? number line state = ofTokens? number line placed state := by
    rw [ofLine?_eq_ofTokens?, read]
  rw [parsed]
  refine ⟨⟨fun accepted => ?_, ?_⟩, fun error refused => kind_of_ofTokens? refused⟩
  · obtain ⟨block, made, sound⟩ := exists_ofTokens?_eq_ok_iff.mp accepted
    have axes := Block.hasAxes_of_ofTokens? made coordinate
    have few := (Block.coherent_of_ofTokens? made).claimants sound axes
    rw [Block.words_of_ofTokens? made] at few
    have one : ¬ (claimants placed).length ≤ 1 := by omega
    obtain ⟨word, position, pair⟩ := few.resolve_left one
    exact ⟨⟨word, position, pair⟩,
      (exists_ofTokens?_withoutToolOffset_iff coordinate position pair).mp accepted⟩
  · rintro ⟨⟨word, position, pair⟩, rest⟩
    exact (exists_ofTokens?_withoutToolOffset_iff coordinate position pair).mpr rest

/-- G43.1 beside G92 is accepted with a coordinate, as G92 alone is, and G1 beside G92 is not. -/
theorem two_claimants_beside_offset :
    (∃ found next, ofLine? 1 (ascii "G43.1 G92 X1") {} = .ok (found, next)) ∧
      ¬ ∃ found next, ofLine? 1 (ascii "G1 G92 X1") {} = .ok (found, next) := by
  constructor
  · let placed : List PlacedToken :=
      [⟨.command (.gSub 43 1) 43.1, 1⟩, ⟨.command (.g 92) 92, 7⟩, ⟨.parameter 0x58 1, 11⟩]
    have read : Token.ofLine? (ascii "G43.1 G92 X1") = .ok placed := by decide +kernel
    have coordinate : ∃ item ∈ placed, item.token.IsCoordinate :=
      ⟨⟨.parameter 0x58 1, 11⟩, by simp [placed], .x, 1, rfl⟩
    have pair : (claimants placed).Perm [.gSub 43 1, .g 92] := .refl _
    have alone : ∃ found next, ofTokens? 1 (ascii "G43.1 G92 X1")
        (placed.filter fun item => !item.token.isDropped Word.isToolOffset) {} =
          .ok (found, next) :=
      exists_ofTokens?_eq_ok_iff.mpr ⟨_, rfl, by decide +kernel⟩
    exact (two_claimants_accepted_iff read coordinate (by decide)).1.mpr
      ⟨⟨.g 92, by decide, pair⟩, by decide, alone⟩
  · let placed : List PlacedToken :=
      [⟨.command (.g 1) 1, 1⟩, ⟨.command (.g 92) 92, 4⟩, ⟨.parameter 0x58 1, 8⟩]
    have read : Token.ofLine? (ascii "G1 G92 X1") = .ok placed := by decide +kernel
    have coordinate : ∃ item ∈ placed, item.token.IsCoordinate :=
      ⟨⟨.parameter 0x58 1, 8⟩, by simp [placed], .x, 1, rfl⟩
    intro accepted
    obtain ⟨⟨word, -, pair⟩, -⟩ :=
      (two_claimants_accepted_iff read coordinate (by decide)).1.mp accepted
    have offset : Word.gSub 43 1 ∈ claimants placed := pair.mem_iff.mpr List.mem_cons_self
    exact absurd offset (by decide)

/-- G43.1 and G92 stand on an accepted line with a coordinate, and so do G43.1 and G10. -/
theorem toolOffset_shares_coordinates :
    ((ofLine? 1 (ascii "G43.1 G92 X1") {}).toOption.bind Prod.fst).map
        (fun command => (command.words, command.block.hasAxes)) =
      some ([.gSub 43 1, .g 92], true) ∧
      ((ofLine? 1 (ascii "G10 L2 P1 X1 G43.1") {}).toOption.bind Prod.fst).map
          (fun command => (command.words, command.block.hasAxes)) =
        some ([.g 10, .gSub 43 1], true) := by
  decide +kernel

end Command

end GcodeSender
