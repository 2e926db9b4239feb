import GcodeSender.Proofs.Gcode.Grammar
import GcodeSender.Proofs.Gcode.WordOrder

/-!
# Lines spelled another way

The same items can be spelled in many ways: with blanks before them and at the end of the line,
with spaces or tabs between a letter and its number, with letters of either case, and with blanks
where a comment stood. `Respelled` is any number of these changes to a line at once, said without
a reader. The main statement is that a line that is read is still read then, with the same items
apart from comments, and that what is made of it differs in columns, comment and text only.
-/
namespace GcodeSender

open Decimal (Numeral)

/-! ## Blocks without their comments -/

/-- An item is a comment. -/
def Token.isComment : Token → Bool
  | .comment _ => true
  | _ => false

/-- What items say, comments apart. -/
def Token.spoken (tokens : List Token) : List Token := tokens.filter (!·.isComment)

namespace Block

/-- The block without its comment. -/
def bare (block : Block) : Block := { block with comment := none }

/-- A comment changes nothing of a block without its comment. -/
theorem bare_addComment (block : Block) (text : Bytes) :
    (block.addComment text).bare = block.bare := by
  unfold addComment
  split <;> rfl

/-- A block without its comment takes an item that is no comment as the block does. -/
theorem add_bare (block : Block) {token : Token} (solid : token.isComment = false) :
    block.bare.add token = (block.add token).map bare := by
  cases token with
  | command word value =>
    show block.bare.addWord word = (block.addWord word).map bare
    unfold addWord hasGroup bare
    cases word.letter <;> (dsimp only; repeat' split) <;> simp_all [Except.map]
  | parameter letter value =>
    show block.bare.addParameter letter value = (block.addParameter letter value).map bare
    unfold addParameter bare
    cases Letter.ofByte? letter with
    | none => rfl
    | some letter => by_cases taken : block.parameters.has letter <;> simp [taken, Except.map]
  | lineNumber number =>
    by_cases taken : block.lineNumber.isSome <;> simp [add, taken, Except.map, bare]
  | comment text => cases solid
  | checksum value => rfl

/-- Items make the block, or meet the fault, that what they say makes or meets. -/
theorem collect?_bare (block : Block) (tokens : List Token) :
    (block.collect? tokens).map bare = block.bare.collect? (Token.spoken tokens) := by
  induction tokens generalizing block with
  | nil => rfl
  | cons token others ih =>
    by_cases remark : token.isComment
    · have kept : Token.spoken (token :: others) = Token.spoken others := by
        simp [Token.spoken, remark]
      cases token <;> cases remark
      rw [kept, collect?, ← bare_addComment]
      exact ih _
    · have kept : Token.spoken (token :: others) = token :: Token.spoken others := by
        simp [Token.spoken, remark]
      rw [kept, collect?, collect?, add_bare block (by simpa using remark)]
      cases block.add token with
      | error fault => rfl
      | ok next => exact ih next

/-- Columns do not decide which block items make, or which fault they meet. -/
theorem mapError_addAll (block : Block) (items : List PlacedToken) :
    (block.addAll items).mapError Prod.snd = block.collect? (items.map PlacedToken.token) := by
  induction items generalizing block with
  | nil => rfl
  | cons placed others ih =>
    rw [addAll, List.map_cons, collect?]
    cases block.add placed.token with
    | error fault => rfl
    | ok next => exact ih next

end Block

/-! ## Commands without columns, comment and text -/

/-- The refusal of a line without its column. -/
def LineError.bare (error : LineError) : LineError := { error with column := 0 }

namespace Command

/-- The command without its comment and text. -/
def bare (command : Command) : Command := { command with text := [], block := command.block.bare }

/-- What is made of a line, apart from columns, comment and text. -/
def outcome (made : Except LineError (Option Command × ModalState)) :
    Except LineError (Option Command × ModalState) :=
  (made.mapError LineError.bare).map fun (command, state) => (command.map bare, state)

/-- A block makes the command that it makes without its comment, apart from comment and text. -/
theorem ofBlock?_bare (number : Nat) (line : Bytes) (block : Block) (state : ModalState) :
    (ofBlock? number line block state).map (fun (command, next) => (command.bare, next)) =
      ofBlock? number [] block.bare state := by
  have fault : block.bare.fault? state.motion = block.fault? state.motion := rfl
  unfold ofBlock?
  rw [fault]
  cases block.fault? state.motion <;> rfl

/-- The same is made of items that say the same, whatever their lines are. -/
theorem outcome_ofTokens?_of_spoken {items others : List PlacedToken}
    (same : Token.spoken (items.map PlacedToken.token) =
      Token.spoken (others.map PlacedToken.token))
    (number : Nat) (line other : Bytes) (state : ModalState) :
    outcome (ofTokens? number line items state) =
      outcome (ofTokens? number other others state) := by
  have blocks : ((Block.ofTokens? items).mapError Prod.snd).map Block.bare =
      ((Block.ofTokens? others).mapError Prod.snd).map Block.bare := by
    rw [Block.ofTokens?, Block.ofTokens?, Block.mapError_addAll, Block.mapError_addAll,
      Block.collect?_bare, Block.collect?_bare, same]
  unfold ofTokens?
  cases first : Block.ofTokens? items with
  | error refusal =>
    cases second : Block.ofTokens? others with
    | error again =>
      rw [first, second] at blocks
      have fault : refusal.2 = again.2 := Except.error.inj blocks
      have bare : LineError.bare ⟨number, refusal.1, .block refusal.2⟩ =
          LineError.bare ⟨number, again.1, .block again.2⟩ := by
        unfold LineError.bare
        rw [fault]
      exact congrArg Except.error bare
    | ok again =>
      rw [first, second] at blocks
      cases blocks
  | ok block =>
    cases second : Block.ofTokens? others with
    | error again =>
      rw [first, second] at blocks
      cases blocks
    | ok again =>
      rw [first, second] at blocks
      have bare : block.bare = again.bare := Except.ok.inj blocks
      have empty : block.isEmpty = again.isEmpty := (congrArg Block.isEmpty bare :)
      have made := (ofBlock?_bare number line block state).trans
        (bare ▸ (ofBlock?_bare number other again state).symm)
      dsimp only
      rw [empty]
      cases again.isEmpty with
      | true => rfl
      | false =>
        cases left : ofBlock? number line block state <;>
          cases right : ofBlock? number other again state <;> rw [left, right] at made
        case error.error fault refusal =>
          have same : fault = refusal := Except.error.inj made
          rw [same]
        case error.ok => cases made
        case ok.error => cases made
        case ok.ok done next =>
          have same : (done.1.bare, done.2) = (next.1.bare, next.2) := Except.ok.inj made
          exact congrArg (fun pair : Command × ModalState => Except.ok (some pair.1, pair.2)) same

end Command

/-! ## Spelling a line another way -/

/-- A line is spelled another way, as the same items apart from comments. -/
inductive Respelled : Bytes → Bytes → Prop where
  /-- The empty text is left as it is. -/
  | nil : Respelled [] []
  /-- A blank is added before an item or at the end. -/
  | added {line other : Bytes} {c : UInt8} (blank : Byte.isBlank c = true)
      (same : Respelled line other) : Respelled line (c :: other)
  /-- A blank stays. -/
  | blank {line other : Bytes} {c : UInt8} (blank : Byte.isBlank c = true)
      (same : Respelled line other) : Respelled (c :: line) (c :: other)
  /-- A percent sign stays. -/
  | percent {line other : Bytes} (same : Respelled line other) :
      Respelled (Byte.percent :: line) (Byte.percent :: other)
  /-- A letter changes its case or stays, an asterisk stays, and spaces and tabs are added before
  the number that follows. -/
  | word {line other gap wider : Bytes} {c d : UInt8} {numeral : Numeral}
      (name : Byte.isLetter c = true ∨ c = Byte.asterisk)
      (letter : Byte.toUpper d = Byte.toUpper c) (kept : gap.Sublist wider)
      (gaps : ∀ c ∈ wider, Byte.isGap c = true) (spelled : numeral.Spelled)
      (same : Respelled line other) :
      Respelled (c :: (gap ++ (numeral.text ++ line))) (d :: (wider ++ (numeral.text ++ other)))
  /-- A comment in parentheses stays. -/
  | comment {line other body : Bytes} (plain : ∀ c ∈ body, Token.isParen c = false)
      (same : Respelled line other) :
      Respelled (Byte.openParen :: (body ++ Byte.closeParen :: line))
        (Byte.openParen :: (body ++ Byte.closeParen :: other))
  /-- As many blanks stand where a comment in parentheses stood. -/
  | cleared {line other body blanks : Bytes} (plain : ∀ c ∈ body, Token.isParen c = false)
      (length : blanks.length = body.length + 2) (blank : ∀ c ∈ blanks, Byte.isBlank c = true)
      (same : Respelled line other) :
      Respelled (Byte.openParen :: (body ++ Byte.closeParen :: line)) (blanks ++ other)
  /-- A comment behind a semicolon stays, and blanks are added at its end. -/
  | remark (text : Bytes) {added : Bytes} (blank : ∀ c ∈ added, Byte.isBlank c = true) :
      Respelled (Byte.semicolon :: text) (Byte.semicolon :: (text ++ added))
  /-- As many blanks stand where a comment behind a semicolon stood, and others at their end. -/
  | clearedRemark {text blanks added : Bytes} (length : blanks.length = text.length + 1)
      (blank : ∀ c ∈ blanks ++ added, Byte.isBlank c = true) :
      Respelled (Byte.semicolon :: text) (blanks ++ added)

/-! ## Reading what is spelled another way -/

namespace Token

variable {c d : UInt8} {line other rest after gap : Bytes} {numeral : Numeral} {token : Token}
variable {column : Nat} {items : List PlacedToken}

/-- A letter keeps being one, and an asterisk stays what it is, where only case changes. -/
theorem name_of_toUpper (name : Byte.isLetter c = true ∨ c = Byte.asterisk)
    (letter : Byte.toUpper d = Byte.toUpper c) :
    Byte.isLetter d = true ∧ Byte.isLetter c = true ∨ d = Byte.asterisk ∧ c = Byte.asterisk := by
  have capital : ∀ c, Byte.isLetter c = Byte.isUpper (Byte.toUpper c) := by decide +kernel
  have star : ∀ d, Byte.toUpper d = Byte.asterisk → d = Byte.asterisk := by decide +kernel
  rcases name with name | rfl
  · exact .inl ⟨by rw [capital, letter, ← capital, name], name⟩
  · exact .inr ⟨star d letter, rfl⟩

/-- No name of a word is a blank, and none is what a number goes on with. -/
theorem solid_of_name (name : Byte.isLetter c = true ∨ c = Byte.asterisk) :
    Byte.isBlank c = false ∧ Byte.isDigit c = false ∧ c ≠ Byte.dot := by
  rcases name with name | rfl
  · exact ⟨(class_of_isLetter name).1, (class_of_isLetter name).2.1,
      (class_of_isLetter name).2.2.1⟩
  · decide

/-- A number is read behind spaces and tabs, if it has a float. -/
theorem readNumber?_spelled (spelled : numeral.Spelled) (ends : Numeral.Ends rest)
    (gaps : ∀ c ∈ gap, Byte.isGap c = true) :
    readNumber? (gap ++ (numeral.text ++ rest)) =
      numeral.value?.map fun value => (numeral, value, rest) := by
  rw [readNumber?, List.dropWhile_append_of_pos gaps, dropWhile_isGap_text spelled,
    Numeral.read?_text_append spelled ends]
  cases found : numeral.value? <;> simp [found]

/-- What a name with a number says, whatever follows it. -/
def named (letter : UInt8) (numeral : Numeral) (value : Float) : Except TokenFault Token :=
  if letter = Byte.asterisk then
    if value < 0.0 || numeral.hasPoint then .error .badChecksum else .ok (.checksum value)
  else ofWord? letter numeral value

/-- A name with a number is read as what they say, whatever stands between and behind them. -/
theorem readItem_named (name : Byte.isLetter c = true ∨ c = Byte.asterisk)
    (spelled : numeral.Spelled) (ends : Numeral.Ends rest)
    (gaps : ∀ c ∈ gap, Byte.isGap c = true) :
    readItem c (gap ++ (numeral.text ++ rest)) =
      match numeral.value? with
      | some value => (named (Byte.toUpper c) numeral value).map (·, rest)
      | none => .error (if c = Byte.asterisk then .badChecksum
          else .missingNumber (Byte.toUpper c)) := by
  have number := readNumber?_spelled spelled ends gaps
  rcases name with name | rfl
  · obtain ⟨-, -, -, opens, semicolon, asterisk⟩ := class_of_isLetter name
    have capital : Byte.toUpper c ≠ Byte.asterisk := by
      revert c
      decide +kernel
    rw [readItem, if_neg opens, if_neg semicolon, if_neg asterisk, if_pos name, readWord, number]
    cases numeral.value? with
    | none => rw [if_neg asterisk]; rfl
    | some value =>
      dsimp only [Option.map]
      rw [named, if_neg capital]
  · show readChecksum _ = _
    rw [readChecksum, number]
    cases numeral.value? with
    | none => rfl
    | some value =>
      have upper : Byte.toUpper Byte.asterisk = Byte.asterisk := by decide
      dsimp only [Option.map]
      rw [upper, named, if_pos rfl]
      split <;> rfl

/-- A name that is read with its number is read in either case, with any spaces and tabs before
the number and whatever follows it. -/
theorem readItem_respelled {wider : Bytes} (name : Byte.isLetter c = true ∨ c = Byte.asterisk)
    (letter : Byte.toUpper d = Byte.toUpper c) (gaps : ∀ c ∈ gap, Byte.isGap c = true)
    (wide : ∀ c ∈ wider, Byte.isGap c = true) (spelled : numeral.Spelled)
    (ends : Numeral.Ends line) (stops : Numeral.Ends other)
    (found : readItem c (gap ++ (numeral.text ++ line)) = .ok (token, after)) :
    after = line ∧ readItem d (wider ++ (numeral.text ++ other)) = .ok (token, other) := by
  have again : Byte.isLetter d = true ∨ d = Byte.asterisk :=
    (name_of_toUpper name letter).imp And.left And.left
  rw [readItem_named name spelled ends gaps] at found
  rw [readItem_named again spelled stops wide, letter]
  cases number : numeral.value? with
  | none =>
    rw [number] at found
    cases found
  | some value =>
    rw [number] at found
    dsimp only at found ⊢
    cases said : named (Byte.toUpper c) numeral value with
    | error fault =>
      rw [said] at found
      cases found
    | ok word =>
      rw [said] at found
      cases found
      exact ⟨rfl, rfl⟩

/-- A text whose first byte is no blank is read as an item and the items behind it. -/
theorem exists_of_readItems_cons (solid : Byte.isBlank c = false)
    (found : readItems column (c :: rest) = .ok items) :
    ∃ token after later others, readItem c rest = .ok (token, after) ∧
      readItems later after = .ok others ∧ items = ⟨token, column⟩ :: others := by
  cases read : readItem c rest with
  | error fault =>
    rw [readItems_of_error solid read] at found
    cases found
  | ok item =>
    obtain ⟨token, after⟩ := item
    rw [readItems_item solid read] at found
    cases behind : readItems (column + ((c :: rest).length - after.length)) after with
    | error fault =>
      rw [behind] at found
      cases found
    | ok others =>
      rw [behind] at found
      cases found
      exact ⟨token, after, _, others, rfl, behind, rfl⟩

/-- Blanks are no items. -/
theorem ItemsOf.blanks {blanks : Bytes} {tokens : List Token}
    (blank : ∀ c ∈ blanks, Byte.isBlank c = true) (read : ItemsOf rest tokens) :
    ItemsOf (blanks ++ rest) tokens := by
  induction blanks with
  | nil => exact read
  | cons c others ih =>
    have behind := ih fun c member => blank c (List.mem_cons_of_mem _ member)
    exact behind.blank (blank c List.mem_cons_self)

/-- A comment in parentheses is read up to its end. -/
theorem readItem_comment {body : Bytes} (plain : ∀ c ∈ body, isParen c = false) :
    readItem Byte.openParen (body ++ Byte.closeParen :: rest) =
      .ok (.comment (trim body), rest) :=
  readComment_eq_ok_iff.mpr ⟨body, rfl, plain, rfl⟩

/-- A line is a tape mark exactly when a percent sign is all it has besides blanks. -/
theorem isTapeMark_iff_filter :
    IsTapeMark line ↔ line.filter (!Byte.isBlank ·) = [Byte.percent] := by
  rw [List.filter_eq_cons_iff]
  constructor
  · rintro ⟨before, after, rfl, front, back⟩
    refine ⟨before, after, rfl, by simpa using front, by decide, ?_⟩
    simpa using back
  · rintro ⟨before, after, rfl, front, -, back⟩
    exact ⟨before, after, rfl, by simpa using front, by simpa using back⟩

end Token

namespace Respelled

variable {line other : Bytes}

/-- A number ends before either spelling. -/
theorem ends (same : Respelled line other) : Numeral.Ends line ∧ Numeral.Ends other := by
  have first {c : UInt8} (rest : Bytes) (digit : Byte.isDigit c = false) (dot : c ≠ Byte.dot) :
      Numeral.Ends (c :: rest) := by
    rintro _ ⟨⟩
    exact ⟨digit, dot⟩
  have gap {c : UInt8} (rest : Bytes) (blank : Byte.isBlank c = true) :
      Numeral.Ends (c :: rest) := by
    have other : ∀ c, Byte.isBlank c = true → Byte.isDigit c = false ∧ c ≠ Byte.dot := by
      decide +kernel
    exact first rest (other c blank).1 (other c blank).2
  have blanks {text : Bytes} (rest : Bytes) {size : Nat} (length : text.length = size + 1)
      (blank : ∀ c ∈ text, Byte.isBlank c = true) : Numeral.Ends (text ++ rest) := by
    cases text with
    | nil => simp at length
    | cons c others => exact gap _ (blank c List.mem_cons_self)
  induction same with
  | nil => exact ⟨Numeral.ends_nil, Numeral.ends_nil⟩
  | added blank same ih => exact ⟨ih.1, gap _ blank⟩
  | blank blank same ih => exact ⟨gap _ blank, gap _ blank⟩
  | percent same ih => exact ⟨first _ (by decide) (by decide), first _ (by decide) (by decide)⟩
  | word name letter kept gaps spelled same ih =>
    have again := (Token.name_of_toUpper name letter).imp And.left And.left
    exact ⟨first _ (Token.solid_of_name name).2.1 (Token.solid_of_name name).2.2,
      first _ (Token.solid_of_name again).2.1 (Token.solid_of_name again).2.2⟩
  | comment plain same ih =>
    exact ⟨first _ (by decide) (by decide), first _ (by decide) (by decide)⟩
  | cleared plain length blank same ih =>
    exact ⟨first _ (by decide) (by decide), blanks _ length blank⟩
  | remark text blank => exact ⟨first _ (by decide) (by decide), first _ (by decide) (by decide)⟩
  | clearedRemark length blank =>
    exact ⟨first _ (by decide) (by decide), blanks _ length fun c member =>
      blank c (List.mem_append_left _ member)⟩

/-- A tape mark stays one. -/
theorem isTapeMark (same : Respelled line other) (mark : Token.IsTapeMark line) :
    Token.IsTapeMark other := by
  have only : ∀ c ∈ line, Byte.isBlank c = true ∨ c = Byte.percent := by
    obtain ⟨before, after, rfl, front, back⟩ := mark
    intro c member
    rcases List.mem_append.mp member with member | member
    · exact .inl (front c member)
    · exact (List.mem_cons.mp member).elim .inr fun member => .inl (back c member)
  rw [Token.isTapeMark_iff_filter] at mark ⊢
  rw [← mark]
  clear mark
  induction same with
  | nil => rfl
  | added blank same ih => rw [List.filter_cons_of_neg (by simp [blank]), ih only]
  | blank blank same ih =>
    rw [List.filter_cons, List.filter_cons,
      ih fun c member => only c (List.mem_cons_of_mem _ member)]
  | percent same ih =>
    rw [List.filter_cons, List.filter_cons,
      ih fun c member => only c (List.mem_cons_of_mem _ member)]
  | word name =>
    rcases only _ List.mem_cons_self with blank | rfl
    · exact absurd blank (by simp [(Token.solid_of_name name).1])
    · exact absurd name (by decide)
  | comment => exact absurd (only _ List.mem_cons_self) (by decide)
  | cleared => exact absurd (only _ List.mem_cons_self) (by decide)
  | remark => exact absurd (only _ List.mem_cons_self) (by decide)
  | clearedRemark => exact absurd (only _ List.mem_cons_self) (by decide)

/-- Where a line has items, its other spelling has items that say the same. -/
theorem exists_itemsOf (same : Respelled line other) {column : Nat} {items : List PlacedToken}
    (found : Token.readItems column line = .ok items) :
    ∃ tokens, Token.ItemsOf other tokens ∧
      Token.spoken tokens = Token.spoken (items.map PlacedToken.token) := by
  induction same generalizing column items with
  | nil =>
    rw [Token.readItems] at found
    cases found
    exact ⟨[], Token.itemsOf_nil, rfl⟩
  | added blank same ih =>
    obtain ⟨tokens, read, alike⟩ := ih found
    exact ⟨tokens, read.blank blank, alike⟩
  | blank blank same ih =>
    rw [Token.readItems, if_pos blank] at found
    obtain ⟨tokens, read, alike⟩ := ih found
    exact ⟨tokens, read.blank blank, alike⟩
  | @percent line other same ih =>
    have bad : Token.readItem Byte.percent line = .error (.unexpectedByte Byte.percent) := rfl
    rw [Token.readItems_of_error (by decide) bad] at found
    cases found
  | @word line other gap wider c d numeral name letter kept gaps spelled same ih =>
    obtain ⟨token, after, later, others, read, behind, rfl⟩ :=
      Token.exists_of_readItems_cons (Token.solid_of_name name).1 found
    obtain ⟨rfl, again⟩ := Token.readItem_respelled name letter
      (fun c member => gaps c (kept.mem member)) gaps spelled same.ends.1 same.ends.2 read
    obtain ⟨tokens, rest, alike⟩ := ih behind
    have solid := Token.solid_of_name ((Token.name_of_toUpper name letter).imp And.left And.left)
    refine ⟨token :: tokens, rest.item solid.1 again, ?_⟩
    unfold Token.spoken at alike ⊢
    rw [List.map_cons, List.filter_cons, List.filter_cons, alike]
  | comment plain same ih =>
    obtain ⟨token, after, later, others, read, behind, rfl⟩ :=
      Token.exists_of_readItems_cons (by decide) found
    rw [Token.readItem_comment plain] at read
    cases read
    obtain ⟨tokens, rest, alike⟩ := ih behind
    exact ⟨_, rest.item (by decide) (Token.readItem_comment plain), alike⟩
  | cleared plain length blank same ih =>
    obtain ⟨token, after, later, others, read, behind, rfl⟩ :=
      Token.exists_of_readItems_cons (by decide) found
    rw [Token.readItem_comment plain] at read
    cases read
    obtain ⟨tokens, rest, alike⟩ := ih behind
    exact ⟨tokens, rest.blanks blank, alike⟩
  | remark text blank =>
    have remark (text : Bytes) :
        Token.readItem Byte.semicolon text = .ok (.comment (trim text), []) := rfl
    rw [Token.readItems_item (by decide) (remark text), Token.readItems] at found
    cases found
    exact ⟨_, Token.itemsOf_nil.item (by decide) (remark _), rfl⟩
  | @clearedRemark text blanks added length blank =>
    have remark : Token.readItem Byte.semicolon text = .ok (.comment (trim text), []) := rfl
    rw [Token.readItems_item (by decide) remark, Token.readItems] at found
    cases found
    exact ⟨[], List.append_nil (blanks ++ added) ▸ Token.itemsOf_nil.blanks blank, rfl⟩

/-- Every line that is read is spelled as it stands. -/
theorem refl_of_ofLine? {items : List PlacedToken} (found : Token.ofLine? line = .ok items) :
    Respelled line line := by
  have blanks {before rest : Bytes} (blank : ∀ c ∈ before, Byte.isBlank c = true)
      (same : Respelled rest rest) : Respelled (before ++ rest) (before ++ rest) := by
    induction before with
    | nil => exact same
    | cons c others ih =>
      exact .blank (blank c List.mem_cons_self)
        (ih fun c member => blank c (List.mem_cons_of_mem _ member))
  have rows {column : Nat} {items : List PlacedToken} {line : Bytes}
      (row : Token.Row column line items) : Respelled line line := by
    induction row with
    | nil => exact .nil
    | blank blank row ih => exact .blank blank ih
    | item spelling row ih =>
      cases spelling with
      | comment plain => simpa using ih.comment plain
      | checksum number =>
        obtain ⟨gap, gaps, rfl⟩ := number.text
        simpa using ih.word (.inr rfl) rfl (List.Sublist.refl gap) gaps number.spelled
      | word name number =>
        obtain ⟨gap, gaps, rfl⟩ := number.text
        simpa using ih.word (.inl name) rfl (List.Sublist.refl gap) gaps number.spelled
    | remark column text =>
      simpa using @remark text [] nofun
  by_cases mark : Token.IsTapeMark line
  · obtain ⟨before, after, rfl, front, back⟩ := mark
    have tail := blanks back nil
    rw [List.append_nil] at tail
    exact blanks front tail.percent
  · rw [Token.ofLine?, if_neg (mt Token.isTapeMark_iff.mpr mark)] at found
    exact rows (Token.row_of_readItems found)

end Respelled

/-- A line that is read is read when it is spelled another way, with the same items apart from
comments, and the same is made of it under every state, apart from columns, comment and text. -/
theorem respelled_line_reads_alike {line other : Bytes} {items : List PlacedToken}
    (found : Token.ofLine? line = .ok items) (same : Respelled line other) :
    ∃ others, Token.ofLine? other = .ok others ∧
      Token.spoken (others.map PlacedToken.token) = Token.spoken (items.map PlacedToken.token) ∧
      ∀ number state, Command.outcome (Command.ofLine? number other state) =
        Command.outcome (Command.ofLine? number line state) := by
  have read : ∃ others, Token.ofLine? other = .ok others ∧
      Token.spoken (others.map PlacedToken.token) =
        Token.spoken (items.map PlacedToken.token) := by
    by_cases mark : Token.IsTapeMark line
    · have again := Token.isTapeMark_iff.mp (same.isTapeMark mark)
      rw [Token.ofLine?, if_pos (Token.isTapeMark_iff.mp mark)] at found
      cases found
      exact ⟨[], by rw [Token.ofLine?, if_pos again], rfl⟩
    · rw [Token.ofLine?, if_neg (mt Token.isTapeMark_iff.mpr mark)] at found
      obtain ⟨tokens, behind, alike⟩ := same.exists_itemsOf found
      obtain ⟨others, again, rfl⟩ := behind 1
      -- No tape mark has items, so the other spelling is none either.
      have noMark : ¬ Token.IsTapeMark other := by
        intro mark
        obtain ⟨fault, stopped⟩ := mark.stops 1
        rw [stopped] at again
        cases again
      exact ⟨others, by rw [Token.ofLine?, if_neg (mt Token.isTapeMark_iff.mpr noMark), again],
        alike⟩
  obtain ⟨others, again, alike⟩ := read
  refine ⟨others, again, alike, fun number state => ?_⟩
  rw [Command.ofLine?_eq_ofTokens?, Command.ofLine?_eq_ofTokens?, found, again]
  exact Command.outcome_ofTokens?_of_spoken alike number other line state

/-- A line in small letters with comments is read alike in capitals without them. -/
theorem respelled_line_reads_alike_of_capitals :
    ∃ line other items others, line = ascii "g1(up)x-5;go" ∧ other = ascii "G\t1     X -5    " ∧
      Token.ofLine? line = .ok items ∧ Respelled line other ∧ Token.ofLine? other = .ok others ∧
        Token.spoken (others.map PlacedToken.token) =
          Token.spoken (items.map PlacedToken.token) := by
  have remark : Respelled (ascii ";go") (ascii "    ") :=
    @Respelled.clearedRemark (ascii "go") (ascii "   ") (ascii " ") rfl (by decide +kernel)
  have axis : Respelled (ascii "x-5;go") (ascii "X -5    ") :=
    @Respelled.word _ _ [] [Byte.space] 0x78 0x58 ⟨some Byte.minus, [0x35], none⟩ (.inl rfl) rfl
      (List.nil_sublist _) (by decide +kernel)
      ⟨by decide +kernel, by decide +kernel, nofun, .inl nofun⟩ remark
  have comment : Respelled (ascii "(up)x-5;go") (ascii "     X -5    ") :=
    @Respelled.cleared _ _ (ascii "up") (ascii "    ") (by decide +kernel) rfl (by decide +kernel)
      (.added (by decide +kernel) axis)
  have whole : Respelled (ascii "g1(up)x-5;go") (ascii "G\t1     X -5    ") :=
    @Respelled.word _ _ [] [Byte.tab] 0x67 0x47 ⟨none, [0x31], none⟩ (.inl rfl) rfl
      (List.nil_sublist _) (by decide +kernel) ⟨nofun, by decide +kernel, nofun, .inl nofun⟩ comment
  have read : Token.ofLine? (ascii "g1(up)x-5;go") =
      .ok [⟨.command (.g 1) 1, 1⟩, ⟨.comment (ascii "up"), 3⟩, ⟨.parameter 0x58 (-5), 7⟩,
        ⟨.comment (ascii "go"), 10⟩] := by
    decide +kernel
  obtain ⟨others, again, alike, -⟩ := respelled_line_reads_alike read whole
  exact ⟨_, _, _, others, rfl, rfl, read, whole, again, alike⟩

end GcodeSender
