import GcodeSender.Proofs.FloatOrder
import GcodeSender.Proofs.Gcode.Refusals

/-!
# The language of lines

Which lines can be read is said without a reader: a line is a tape mark or a row of blanks,
comments, checksums and words (`Token.Row`), where every item is spelled in a way of its own
(`Token.Spelling`). What follows an item in a row is never something a number goes on with, so
numbers end where the reader ends them. The main statement is that exactly the tape marks and the
rows are read, and that the tokens are the items of the row where they stand.
-/
namespace GcodeSender

open Decimal (Numeral)

/-- A number has no point exactly when it has no fraction. -/
theorem Decimal.Numeral.hasPoint_eq_false_iff {numeral : Numeral} :
    numeral.hasPoint = false ↔ numeral.fraction = none := by
  rw [hasPoint, Option.isSome_eq_false_iff, Option.isNone_iff_eq_none]

/-- The letter of a command word is found by its byte only. -/
theorem CommandLetter.ofByte?_eq_some_iff {c : UInt8} {kind : CommandLetter} :
    ofByte? c = some kind ↔ c = kind.byte := by
  unfold ofByte?
  cases kind <;> grind [byte]

namespace Token

/-! ## Spelling of items -/

/-- A text spells a number: blanks that may stand inside a word, and a numeral that has a
float. -/
structure SpellsNumber (text : Bytes) (numeral : Numeral) (value : Float) : Prop where
  /-- The numeral has a sign, digits and a point where it may. -/
  spelled : numeral.Spelled
  /-- The float is that of the numeral. -/
  value : numeral.value? = some value
  /-- The text is the numeral behind blanks. -/
  text : ∃ gap, (∀ c ∈ gap, Byte.isGap c = true) ∧ text = gap ++ numeral.text

/-- The digit of a code that the places of its number give: none if all places are zeros, and
for a G word the first of them if only zeros follow it. -/
def SubCode (letter : CommandLetter) (places : Bytes) : Option Nat → Prop
  | none => ∀ c ∈ places, c = Byte.zero
  | some digit => letter = .g ∧ ∃ c zeros, places = c :: zeros ∧ c ≠ Byte.zero ∧
      (∀ c ∈ zeros, c = Byte.zero) ∧ digit = Byte.digitValue c

/-- What a capital letter with a number says. -/
inductive WordSays (letter : UInt8) (numeral : Numeral) (value : Float) : Token → Prop where
  /-- N has a number without a point from 0 to 9999999. -/
  | lineNumber (name : letter = 0x4E) (whole : numeral.fraction = none) (floor : 0.0 ≤ value)
      (limit : value ≤ 9999999) :
      WordSays letter numeral value (.lineNumber (Decimal.valueOf numeral.whole))
  /-- G, M and T have a number from 0 to 9999 whose places are those of a code. -/
  | command (kind : CommandLetter) (sub : Option Nat) (name : letter = kind.byte)
      (floor : 0.0 ≤ value) (limit : value ≤ 9999)
      (places : SubCode kind (numeral.fraction.getD []) sub) :
      WordSays letter numeral value (.command ⟨kind, Decimal.valueOf numeral.whole, sub⟩ value)
  /-- Any other letter has any number. -/
  | parameter (other : letter ≠ 0x4E) (plain : ∀ kind : CommandLetter, letter ≠ kind.byte) :
      WordSays letter numeral value (.parameter letter value)

/-- A text spells an item. -/
inductive Spelling : Bytes → Token → Prop where
  /-- A comment stands in parentheses and holds none. -/
  | comment {body : Bytes} (plain : ∀ c ∈ body, isParen c = false) :
      Spelling (Byte.openParen :: (body ++ [Byte.closeParen])) (.comment (trim body))
  /-- A checksum is an asterisk with a number without a point that is not below zero. -/
  | checksum {text : Bytes} {numeral : Numeral} {value : Float}
      (number : SpellsNumber text numeral value) (whole : numeral.fraction = none)
      (floor : 0.0 ≤ value) : Spelling (Byte.asterisk :: text) (.checksum value)
  /-- A word is a letter of either case with a number. -/
  | word {letter : UInt8} {text : Bytes} {numeral : Numeral} {value : Float} {token : Token}
      (name : Byte.isLetter letter = true) (number : SpellsNumber text numeral value)
      (word : WordSays (Byte.toUpper letter) numeral value token) :
      Spelling (letter :: text) token

/-- A text from a column on is a row of items, each at the column of its first byte. -/
inductive Row : Nat → Bytes → List PlacedToken → Prop where
  /-- The empty text has no item. -/
  | nil (column : Nat) : Row column [] []
  /-- Blanks stand anywhere. -/
  | blank {column : Nat} {c : UInt8} {rest : Bytes} {items : List PlacedToken}
      (blank : Byte.isBlank c = true) (row : Row (column + 1) rest items) :
      Row column (c :: rest) items
  /-- An item stands before the others. -/
  | item {column : Nat} {text rest : Bytes} {token : Token} {items : List PlacedToken}
      (spelling : Spelling text token) (row : Row (column + text.length) rest items) :
      Row column (text ++ rest) (⟨token, column⟩ :: items)
  /-- Everything behind a semicolon is one comment. -/
  | remark (column : Nat) (text : Bytes) :
      Row column (Byte.semicolon :: text) [⟨.comment (trim text), column⟩]

/-- A line marks an end of a program tape: a percent sign among blanks. -/
def IsTapeMark (line : Bytes) : Prop :=
  ∃ before after, line = before ++ Byte.percent :: after ∧
    (∀ c ∈ before, Byte.isBlank c = true) ∧ ∀ c ∈ after, Byte.isBlank c = true

/-! ## Numbers -/

variable {input text rest : Bytes} {numeral : Numeral} {value : Float} {token : Token}

/-- A number that is read is spelled by what was taken from the text. -/
theorem exists_spellsNumber_of_readNumber?
    (found : readNumber? input = some (numeral, value, rest)) :
    ∃ text, input = text ++ rest ∧ SpellsNumber text numeral value := by
  simp only [readNumber?, Option.bind_eq_bind, Option.bind_eq_some_iff, Prod.exists,
    Option.some.injEq, Prod.mk.injEq] at found
  obtain ⟨_, _, read, _, known, rfl, rfl, rfl⟩ := found
  refine ⟨input.takeWhile Byte.isGap ++ _, ?_,
    Numeral.spelled_of_read? read, known, _, fun c => List.mem_takeWhile_imp, rfl⟩
  rw [List.append_assoc, ← Numeral.eq_append_of_read? read, List.takeWhile_append_dropWhile]

/-- A number that is spelled is read up to where it ends. -/
theorem SpellsNumber.readNumber? (number : SpellsNumber text numeral value)
    (ends : Numeral.Ends rest) :
    Token.readNumber? (text ++ rest) = some (numeral, value, rest) := by
  obtain ⟨gap, blank, rfl⟩ := number.text
  have bare := readNumber?_text number.spelled number.value ends
  rw [Token.readNumber?, List.append_assoc, List.dropWhile_append_of_pos blank]
  exact bare

/-- The float of a numeral stands from zero on exactly when it does not stand below zero. -/
theorem SpellsNumber.floor_iff (number : SpellsNumber text numeral value) :
    0.0 ≤ value ↔ ¬ value < 0.0 :=
  le_iff_not_lt (IsNumeric.of_value? number.value) (IsNumeric.ofScientific 0 true 1)

/-- The float of a numeral stands up to a whole number exactly when that does not stand below
it. -/
theorem SpellsNumber.limit_iff (number : SpellsNumber text numeral value) (limit : Nat) :
    value ≤ Float.ofNat limit ↔ ¬ Float.ofNat limit < value :=
  le_iff_not_lt (IsNumeric.ofScientific limit false 0) (IsNumeric.of_value? number.value)

/-! ## Words -/

/-- The significant places of a number are those before the zeros that end its fraction. -/
theorem significantFraction_eq_iff {kept : Bytes} :
    significantFraction numeral = kept ↔
      ∃ zeros, numeral.fraction.getD [] = kept ++ zeros ∧ (∀ c ∈ zeros, c = Byte.zero) ∧
        ∀ c ∈ kept.getLast?, c ≠ Byte.zero := by
  simp only [significantFraction, reverse_dropWhile_eq_iff, beq_iff_eq, beq_eq_false_iff_ne]

/-- A number gives its code no digit exactly when it has no significant place. -/
theorem subCode_none_iff {letter : CommandLetter} :
    SubCode letter (numeral.fraction.getD []) none ↔ significantFraction numeral = [] := by
  rw [significantFraction_eq_iff]
  constructor
  · exact fun zeros => ⟨_, rfl, zeros, nofun⟩
  · rintro ⟨zeros, same, blank, -⟩
    rw [same]
    exact blank

/-- A number gives its code a digit exactly when it is a G word's and the digit is its only
significant place. -/
theorem subCode_some_iff {letter : CommandLetter} {digit : Nat} :
    SubCode letter (numeral.fraction.getD []) (some digit) ↔
      letter = .g ∧ ∃ c, significantFraction numeral = [c] ∧ digit = Byte.digitValue c := by
  simp only [SubCode, significantFraction_eq_iff]
  refine and_congr_right fun _ => ⟨?_, ?_⟩
  · rintro ⟨c, zeros, places, solid, blank, same⟩
    exact ⟨c, ⟨zeros, places, blank, by simpa using solid⟩, same⟩
  · rintro ⟨c, ⟨zeros, places, blank, solid⟩, same⟩
    exact ⟨c, zeros, places, solid c rfl, blank, same⟩

/-- A command word is made exactly when its number is a code. -/
theorem command?_eq_ok_iff (number : SpellsNumber text numeral value) {letter : CommandLetter} :
    command? letter numeral value = .ok token ↔
      0.0 ≤ value ∧ value ≤ 9999 ∧ ∃ sub, SubCode letter (numeral.fraction.getD []) sub ∧
        token = .command ⟨letter, Decimal.valueOf numeral.whole, sub⟩ value := by
  have limit : value ≤ 9999 ↔ ¬ Float.ofNat maxCode < value := number.limit_iff maxCode
  rw [number.floor_iff, limit]
  unfold command?
  dsimp only
  split
  · next below => exact iff_of_false nofun fun range => range.1 below
  · next floor =>
    split
    · next above => exact iff_of_false nofun fun range => range.2.1 above
    · next limit =>
      constructor
      · intro made
        refine ⟨floor, limit, ?_⟩
        split at made
        · next kept =>
          cases made
          exact ⟨none, subCode_none_iff.mpr kept, rfl⟩
        · next digit kept =>
          cases made
          exact ⟨some _, subCode_some_iff.mpr ⟨rfl, digit, kept, rfl⟩, rfl⟩
        · cases made
      · rintro ⟨-, -, sub, places, rfl⟩
        cases sub with
        | none => rw [subCode_none_iff.mp places]
        | some digit =>
          obtain ⟨rfl, c, kept, rfl⟩ := subCode_some_iff.mp places
          rw [kept]

/-- A line number is made exactly when its number is whole and in range. -/
theorem lineNumber?_eq_ok_iff (number : SpellsNumber text numeral value) :
    lineNumber? numeral value = .ok token ↔
      numeral.fraction = none ∧ 0.0 ≤ value ∧ value ≤ 9999999 ∧
        token = .lineNumber (Decimal.valueOf numeral.whole) := by
  have limit : value ≤ 9999999 ↔ ¬ Float.ofNat maxLineNumber < value :=
    number.limit_iff maxLineNumber
  rw [number.floor_iff, limit, ← Numeral.hasPoint_eq_false_iff]
  unfold lineNumber?
  cases numeral.hasPoint <;> by_cases below : value < 0.0 <;>
    by_cases above : Float.ofNat maxLineNumber < value <;> simp [below, above, @eq_comm _ token]

/-- A letter with a number is read as what it says. -/
theorem ofWord?_eq_ok_iff (number : SpellsNumber text numeral value) {letter : UInt8} :
    ofWord? letter numeral value = .ok token ↔ WordSays letter numeral value token := by
  have apart (kind : CommandLetter) : kind.byte ≠ 0x4E := by cases kind <;> decide
  unfold ofWord?
  split
  · next name =>
    rw [lineNumber?_eq_ok_iff number]
    constructor
    · rintro ⟨whole, floor, limit, rfl⟩
      exact .lineNumber name whole floor limit
    · intro word
      cases word with
      | lineNumber _ whole floor limit => exact ⟨whole, floor, limit, rfl⟩
      | command kind sub clash => exact absurd (clash.symm.trans name) (apart kind)
      | parameter other => exact absurd name other
  · next other =>
    split
    · next kind found =>
      have name : letter = kind.byte := CommandLetter.ofByte?_eq_some_iff.mp found
      rw [command?_eq_ok_iff number]
      constructor
      · rintro ⟨floor, limit, sub, places, rfl⟩
        exact .command kind sub name floor limit places
      · intro word
        cases word with
        | lineNumber clash => exact absurd clash other
        | command again sub same floor limit places =>
          have one : again = kind :=
            Option.some.inj ((CommandLetter.ofByte?_eq_some_iff.mpr same).symm.trans found)
          exact one ▸ ⟨floor, limit, sub, places, rfl⟩
        | parameter _ plain => exact absurd name (plain kind)
    · next missing =>
      have plain (kind : CommandLetter) : letter ≠ kind.byte := fun same =>
        nomatch missing.symm.trans (CommandLetter.ofByte?_eq_some_iff.mpr same)
      constructor
      · rintro ⟨⟩
        exact .parameter other plain
      · intro word
        cases word with
        | lineNumber clash => exact absurd clash other
        | command kind sub same => exact absurd same (plain kind)
        | parameter => rfl

/-! ## Items -/

/-- What is read as a comment stands before a closing parenthesis and holds none. -/
theorem readComment_eq_ok_iff :
    readComment input = .ok (token, rest) ↔
      ∃ body, input = body ++ Byte.closeParen :: rest ∧ (∀ c ∈ body, isParen c = false) ∧
        token = .comment (trim body) := by
  have taken {body rest : Bytes} {c : UInt8} (plain : ∀ c ∈ body, (!isParen c) = true)
      (paren : (!isParen c) = false) : (body ++ c :: rest).takeWhile (!isParen ·) = body := by
    rw [List.takeWhile_append_of_pos plain, List.takeWhile_cons_of_neg (by simp [paren]),
      List.append_nil]
  unfold readComment
  constructor
  · intro found
    split at found
    · cases found
    · next c after cut =>
      obtain ⟨body, rfl, plain, stop⟩ := dropWhile_eq_iff.mp cut
      have paren : (!isParen c) = false := stop c rfl
      rw [taken plain paren] at found
      split at found
      · cases found
      · next closes =>
        cases found
        have close : c = Byte.closeParen := by simpa [isParen, closes] using paren
        exact ⟨body, by rw [close], by simpa using plain, rfl⟩
  · rintro ⟨body, rfl, plain, rfl⟩
    have plain : ∀ c ∈ body, (!isParen c) = true := by simpa using plain
    have other : Byte.closeParen ≠ Byte.openParen := by decide
    have cut : (body ++ Byte.closeParen :: rest).dropWhile (!isParen ·) =
        Byte.closeParen :: rest :=
      dropWhile_eq_iff.mpr ⟨body, rfl, plain, by rintro c ⟨⟩; rfl⟩
    rw [cut, taken plain rfl]
    exact if_neg other

/-- A letter is no blank and no digit, and it is none of the other bytes that start an item. -/
theorem class_of_isLetter {c : UInt8} (letter : Byte.isLetter c = true) :
    Byte.isBlank c = false ∧ Byte.isDigit c = false ∧ c ≠ Byte.dot ∧ c ≠ Byte.openParen ∧
      c ≠ Byte.semicolon ∧ c ≠ Byte.asterisk := by
  revert c
  decide +kernel

/-- A checksum that is read is spelled by its asterisk and what was taken from the text. -/
theorem exists_spelling_of_readChecksum (found : readChecksum input = .ok (token, rest)) :
    ∃ text, input = text ++ rest ∧ Spelling (Byte.asterisk :: text) token := by
  unfold readChecksum at found
  split at found
  · next numeral value after read =>
    split at found
    · cases found
    · next sound =>
      cases found
      obtain ⟨text, whole, number⟩ := exists_spellsNumber_of_readNumber? read
      rw [Bool.or_eq_true, not_or, decide_eq_true_eq, Bool.not_eq_true] at sound
      exact ⟨text, whole, .checksum number (Numeral.hasPoint_eq_false_iff.mp sound.2)
        (number.floor_iff.mpr sound.1)⟩
  · cases found

/-- A word that is read is spelled by its letter and what was taken from the text. -/
theorem exists_spelling_of_readWord {c : UInt8} (letter : Byte.isLetter c = true)
    (found : readWord (Byte.toUpper c) input = .ok (token, rest)) :
    ∃ text, input = text ++ rest ∧ Spelling (c :: text) token := by
  unfold readWord at found
  split at found
  · next numeral value after read =>
    obtain ⟨text, whole, number⟩ := exists_spellsNumber_of_readNumber? read
    cases made : ofWord? (Byte.toUpper c) numeral value with
    | error fault =>
      rw [made] at found
      cases found
    | ok word =>
      rw [made] at found
      cases found
      exact ⟨text, whole, .word letter number ((ofWord?_eq_ok_iff number).mp made)⟩
  · cases found

/-- An item that is read is spelled by what was taken from the text, or it is a remark. -/
theorem spelling_of_readItem {c : UInt8} (found : readItem c input = .ok (token, rest)) :
    (∃ text, c :: input = text ++ rest ∧ Spelling text token) ∨
      c = Byte.semicolon ∧ token = .comment (trim input) ∧ rest = [] := by
  unfold readItem at found
  split at found
  · next opens =>
    obtain ⟨body, rfl, plain, rfl⟩ := readComment_eq_ok_iff.mp found
    exact .inl ⟨_, by simp [opens], .comment plain⟩
  · split at found
    · next semicolon =>
      cases found
      exact .inr ⟨semicolon, rfl, rfl⟩
    · split at found
      · next asterisk =>
        obtain ⟨text, rfl, spelling⟩ := exists_spelling_of_readChecksum found
        exact .inl ⟨c :: text, rfl, asterisk ▸ spelling⟩
      · split at found
        · next letter =>
          obtain ⟨text, rfl, spelling⟩ := exists_spelling_of_readWord letter found
          exact .inl ⟨c :: text, rfl, spelling⟩
        · cases found

/-- An item that is spelled is read up to its end. -/
theorem Spelling.readItem (spelling : Spelling text token) (ends : Numeral.Ends rest) :
    ∃ c others, text = c :: others ∧ Byte.isBlank c = false ∧
      Token.readItem c (others ++ rest) = .ok (token, rest) := by
  cases spelling with
  | comment plain =>
    refine ⟨_, _, rfl, by decide, ?_⟩
    show readComment _ = _
    exact readComment_eq_ok_iff.mpr ⟨_, by simp, plain, rfl⟩
  | checksum number whole floor =>
    refine ⟨_, _, rfl, by decide, ?_⟩
    show readChecksum _ = _
    rw [readChecksum, number.readNumber? ends]
    simp [number.floor_iff.mp floor, Numeral.hasPoint_eq_false_iff.mpr whole]
  | word name number word =>
    obtain ⟨solid, -, -, opens, semicolon, asterisk⟩ := class_of_isLetter name
    refine ⟨_, _, rfl, solid, ?_⟩
    rw [Token.readItem, if_neg opens, if_neg semicolon, if_neg asterisk, if_pos name, readWord,
      number.readNumber? ends]
    dsimp only
    rw [(ofWord?_eq_ok_iff number).mpr word]
    rfl

/-- An item starts with nothing that a number goes on with. -/
theorem Spelling.ends (spelling : Spelling text token) (rest : Bytes) :
    Numeral.Ends (text ++ rest) := by
  rintro c first
  cases spelling with
  | comment plain =>
    cases first
    decide
  | checksum number whole floor =>
    cases first
    decide
  | word name number word =>
    cases first
    exact ⟨(class_of_isLetter name).2.1, (class_of_isLetter name).2.2.1⟩

/-! ## Rows -/

/-- What is read is a row. -/
theorem row_of_readItems {column : Nat} {items : List PlacedToken}
    (found : readItems column input = .ok items) : Row column input items := by
  fun_induction readItems column input generalizing items with
  | case1 =>
    cases found
    exact .nil _
  | case2 column c rest blank ih => exact .blank blank (ih found)
  | case3 => cases found
  | case4 column c rest solid token after read shorter fault stopped =>
    rw [stopped] at found
    cases found
  | case5 column c rest solid token after read shorter others readOthers ih =>
    rw [readOthers] at found
    cases found
    rcases spelling_of_readItem read with ⟨text, whole, spelling⟩ | ⟨rfl, rfl, rfl⟩
    · have length : (c :: rest).length - after.length = text.length := by
        rw [whole, List.length_append, Nat.add_sub_cancel]
      rw [whole]
      exact .item spelling (length ▸ ih readOthers)
    · rw [readItems] at readOthers
      cases readOthers
      exact .remark _ _

/-- A row starts with nothing that a number goes on with. -/
theorem Row.ends {column : Nat} {items : List PlacedToken} (row : Row column input items) :
    Numeral.Ends input := by
  cases row with
  | nil => exact Numeral.ends_nil
  | blank blank row =>
    have other : ∀ c, Byte.isBlank c = true → Byte.isDigit c = false ∧ c ≠ Byte.dot := by
      decide +kernel
    intro c first
    cases first
    exact other _ blank
  | item spelling row => exact spelling.ends _
  | remark =>
    intro c first
    cases first
    decide

/-- A row is read as its items. -/
theorem Row.readItems {column : Nat} {items : List PlacedToken} (row : Row column input items) :
    readItems column input = .ok items := by
  induction row with
  | nil => rw [Token.readItems]
  | blank blank row ih => rw [Token.readItems, if_pos blank, ih]
  | @item column text rest token items spelling row ih =>
    obtain ⟨c, others, rfl, solid, read⟩ := spelling.readItem row.ends
    have length : (c :: (others ++ rest)).length - rest.length = (c :: others).length := by
      rw [← List.cons_append, List.length_append, Nat.add_sub_cancel]
    rw [List.cons_append, readItems_item solid read, length, ih]
  | remark column text =>
    have read : readItem Byte.semicolon text = .ok (.comment (trim text), []) := rfl
    rw [readItems_item (by decide) read, Token.readItems]

/-! ## Lines -/

variable {line : Bytes}

/-- A line is a tape mark exactly when only a percent sign is left without its outer blanks. -/
theorem isTapeMark_iff : IsTapeMark line ↔ trim line = [Byte.percent] := by
  unfold trim trimEnd trimStart
  constructor
  · rintro ⟨before, after, rfl, front, back⟩
    have start : (before ++ Byte.percent :: after).dropWhile Byte.isBlank =
        [Byte.percent] ++ after :=
      dropWhile_eq_iff.mpr ⟨before, rfl, front, by rintro c ⟨⟩; rfl⟩
    exact reverse_dropWhile_eq_iff.mpr ⟨after, start, back, by rintro c ⟨⟩; rfl⟩
  · intro mark
    obtain ⟨after, start, back, -⟩ := reverse_dropWhile_eq_iff.mp mark
    obtain ⟨before, whole, front, -⟩ := dropWhile_eq_iff.mp start
    exact ⟨before, after, whole, front, back⟩

/-- A tape mark is not read as items. -/
theorem IsTapeMark.stops (mark : IsTapeMark line) : Stops line := by
  obtain ⟨before, after, rfl, front, -⟩ := mark
  induction before with
  | nil =>
    have bad : readItem Byte.percent after = .error (.unexpectedByte Byte.percent) := rfl
    exact stops_item (by decide) bad
  | cons c before ih =>
    exact (ih fun c member => front c (List.mem_cons_of_mem _ member)).blank
      (front c List.mem_cons_self)

/-- A tape mark is no row. -/
theorem IsTapeMark.not_row (mark : IsTapeMark line) (column : Nat) (items : List PlacedToken) :
    ¬ Row column line items := by
  intro row
  obtain ⟨fault, stopped⟩ := mark.stops column
  exact nomatch stopped.symm.trans row.readItems

/-- Exactly the tape marks and the rows are read. A tape mark has no item, and a row has its
items where they stand. -/
theorem ofLine?_eq_ok_iff {tokens : List PlacedToken} :
    ofLine? line = .ok tokens ↔ IsTapeMark line ∧ tokens = [] ∨ Row 1 line tokens := by
  unfold ofLine?
  split
  · next found =>
    have mark : IsTapeMark line := isTapeMark_iff.mpr found
    constructor
    · rintro ⟨⟩
      exact .inl ⟨mark, rfl⟩
    · rintro (⟨-, rfl⟩ | row)
      · rfl
      · exact absurd row (mark.not_row 1 tokens)
  · next other =>
    have noMark : ¬ IsTapeMark line := mt isTapeMark_iff.mp other
    constructor
    · exact fun found => .inr (row_of_readItems found)
    · rintro (⟨mark, -⟩ | row)
      · exact absurd mark noMark
      · exact row.readItems

/-- The items of a line stand at the columns of their first bytes, counted from one. -/
example : (ofLine? (ascii "n3 g38.20X-.5(a);b")).toOption =
    some [⟨.lineNumber 3, 1⟩, ⟨.command (.gSub 38 2) 38.2, 4⟩, ⟨.parameter 0x58 (-0.5), 10⟩,
      ⟨.comment (ascii "a"), 14⟩, ⟨.comment (ascii "b"), 17⟩] := by
  decide +kernel

end Token

end GcodeSender
