import GcodeSender.Proofs.Gcode.Grammar

/-!
# The first item that cannot be read

Reading passes over the items of a line one after the other, each with all that stands behind it
in view, so that no item ends before its time (`Token.Passes`). It stops at the first item that
cannot be read. What was passed is a row of its own, because a row ends where an item ends. The
main statement says exactly with which column and fault a line is refused: the column is that of
an item which cannot be read, the fault is about this item, and the bytes before it are read on
their own as the items that were passed.
-/
namespace GcodeSender

open Decimal (Numeral)

/-- The byte that starts the item which a fault is about, in capitals if it is a letter. -/
def TokenFault.opening : TokenFault → UInt8
  | unterminatedComment | nestedComment => Byte.openParen
  | badChecksum => Byte.asterisk
  | unexpectedByte byte => byte
  | missingNumber letter => letter
  | badLineNumber | lineNumberTooLarge => 0x4E
  | negativeCode letter | codeTooLarge letter | badCode letter _ => letter.byte

namespace Token

variable {column stop : Nat} {input rest : Bytes} {items : List PlacedToken} {fault : TokenFault}

/-- Reading a text from a column passes over items and comes to a rest at a later column. -/
inductive Passes : Nat → Bytes → List PlacedToken → Nat → Bytes → Prop where
  /-- At first nothing is passed. -/
  | start (column : Nat) (input : Bytes) : Passes column input [] column input
  /-- A blank is passed and is no item. -/
  | blank {column stop : Nat} {c : UInt8} {input rest : Bytes} {items : List PlacedToken}
      (blank : Byte.isBlank c = true) (onward : Passes (column + 1) input items stop rest) :
      Passes column (c :: input) items stop rest
  /-- An item is passed if it can be read in front of all that follows it. -/
  | item {column stop : Nat} {c : UInt8} {input after rest : Bytes} {token : Token}
      {items : List PlacedToken} (solid : Byte.isBlank c = false)
      (found : readItem c input = .ok (token, after))
      (onward : Passes (column + ((c :: input).length - after.length)) after items stop rest) :
      Passes column (c :: input) (⟨token, column⟩ :: items) stop rest

/-- No item stands at the start of a text: none is spelled there up to a place where no number
goes on, and no semicolon opens a remark. -/
def StartsNoItem (input : Bytes) : Prop :=
  input.head? ≠ some Byte.semicolon ∧
    ∀ text rest token, input = text ++ rest → Numeral.Ends rest → ¬ Spelling text token

/-! ## The item at the column -/

/-- A bad line number makes a fault about the letter N. -/
theorem opening_of_lineNumber? {numeral : Numeral} {value : Float}
    (bad : lineNumber? numeral value = .error fault) : fault.opening = 0x4E := by
  unfold lineNumber? at bad
  split at bad
  · cases bad
    rfl
  · split at bad
    · cases bad
      rfl
    · cases bad

/-- A bad code makes a fault about its letter. -/
theorem opening_of_command? {kind : CommandLetter} {numeral : Numeral} {value : Float}
    (bad : command? kind numeral value = .error fault) : fault.opening = kind.byte := by
  unfold command? at bad
  dsimp only at bad
  split at bad
  · cases bad
    rfl
  · split at bad
    · cases bad
      rfl
    · split at bad
      · cases bad
      · cases bad
      · cases bad
        rfl

/-- A number that a letter cannot have makes a fault about the letter. -/
theorem opening_of_ofWord? {letter : UInt8} {numeral : Numeral} {value : Float}
    (bad : ofWord? letter numeral value = .error fault) : fault.opening = letter := by
  unfold ofWord? at bad
  split at bad
  · next name => exact (opening_of_lineNumber? bad).trans name.symm
  · split at bad
    · next kind found =>
      have name : letter = kind.byte := CommandLetter.ofByte?_eq_some_iff.mp found
      exact (opening_of_command? bad).trans name.symm
    · cases bad

/-- A comment that does not close makes a fault about its parenthesis. -/
theorem opening_of_readComment (bad : readComment rest = .error fault) :
    fault.opening = Byte.openParen := by
  unfold readComment at bad
  split at bad
  · cases bad
    rfl
  · split at bad
    · cases bad
      rfl
    · cases bad

/-- A bad checksum makes a fault about its asterisk. -/
theorem opening_of_readChecksum (bad : readChecksum rest = .error fault) :
    fault.opening = Byte.asterisk := by
  unfold readChecksum at bad
  split at bad
  · split at bad
    · cases bad
      rfl
    · cases bad
  · cases bad
    rfl

/-- A bad word makes a fault about its letter. -/
theorem opening_of_readWord {letter : UInt8} (bad : readWord letter rest = .error fault) :
    fault.opening = letter := by
  unfold readWord at bad
  split at bad
  · next numeral value after number =>
    cases made : ofWord? letter numeral value with
    | ok token =>
      rw [made] at bad
      cases bad
    | error other =>
      rw [made] at bad
      cases bad
      exact opening_of_ofWord? made
  · cases bad
    rfl

/-- A fault is about the item that starts with the byte where it is found. -/
theorem opening_of_readItem {c : UInt8} (bad : readItem c rest = .error fault) :
    fault.opening = Byte.toUpper c := by
  unfold readItem at bad
  split at bad
  · next opens =>
    rw [opens]
    exact opening_of_readComment bad
  · split at bad
    · cases bad
    · split at bad
      · next asterisk =>
        rw [asterisk]
        exact opening_of_readChecksum bad
      · split at bad
        · exact opening_of_readWord bad
        · next other =>
          -- A byte that is no letter has no other capital form.
          have small : Byte.isLower c = false := by
            rw [Byte.isLetter, Bool.not_eq_true, Bool.or_eq_false_iff] at other
            exact other.2
          cases bad
          rw [Byte.toUpper, small]
          rfl

/-- Where an item cannot be read, none is spelled. -/
theorem startsNoItem_of_readItem {c : UInt8} (bad : readItem c rest = .error fault) :
    StartsNoItem (c :: rest) := by
  constructor
  · rintro ⟨⟩
    cases bad
  · intro text after token whole ends spelling
    obtain ⟨d, others, rfl, -, read⟩ := spelling.readItem ends
    obtain ⟨rfl, same⟩ := List.cons.inj whole
    rw [same] at bad
    exact nomatch bad.symm.trans read

/-! ## What is passed -/

/-- Reading goes wrong where it goes wrong behind what is passed. -/
theorem Passes.readItems_eq_error {wrong : Nat × TokenFault}
    (passes : Passes column input items stop rest) (stopped : readItems stop rest = .error wrong) :
    readItems column input = .error wrong := by
  induction passes with
  | start => exact stopped
  | blank blank onward ih => rw [readItems, if_pos blank, ih stopped]
  | item solid found onward ih => rw [readItems_item solid found, ih stopped]

/-- Reading that goes wrong passes over items to the first that cannot be read. -/
theorem exists_passes_of_readItems (stopped : readItems column input = .error (stop, fault)) :
    ∃ items c after, Passes column input items stop (c :: after) ∧ Byte.isBlank c = false ∧
      readItem c after = .error fault := by
  fun_induction readItems column input with
  | case1 => cases stopped
  | case2 column c rest blank ih =>
    obtain ⟨items, first, after, onward, others⟩ := ih stopped
    exact ⟨items, first, after, .blank blank onward, others⟩
  | case3 column c rest solid wrong bad =>
    cases stopped
    exact ⟨[], c, rest, .start _ _, by simpa using solid, bad⟩
  | case4 column c rest solid token after read shorter wrong behind ih =>
    rw [behind] at stopped
    cases stopped
    obtain ⟨items, first, others, onward, unread⟩ := ih behind
    exact ⟨_, first, others, .item (by simpa using solid) read onward, unread⟩
  | case5 column c rest solid token after read shorter others behind =>
    rw [behind] at stopped
    cases stopped

/-- What is passed before something that is left is a row of its own, and every byte of it counts
for one column. -/
theorem Passes.exists_row (passes : Passes column input items stop rest) (left : rest ≠ []) :
    ∃ before, input = before ++ rest ∧ stop = column + before.length ∧
      Row column before items := by
  induction passes with
  | start column input => exact ⟨[], rfl, rfl, .nil column⟩
  | @blank column stop c input rest items blank onward ih =>
    obtain ⟨before, whole, place, row⟩ := ih left
    refine ⟨c :: before, by rw [whole, List.cons_append], ?_, .blank blank row⟩
    rw [place, List.length_cons]
    omega
  | @item column stop c input after rest token items solid found onward ih =>
    obtain ⟨before, whole, place, row⟩ := ih left
    rcases spelling_of_readItem found with ⟨text, split, spelling⟩ | ⟨-, -, nothing⟩
    · have length : (c :: input).length - after.length = text.length := by
        rw [split, List.length_append, Nat.add_sub_cancel]
      rw [length] at place row
      refine ⟨text ++ before, ?_, ?_, .item spelling row⟩
      · rw [split, whole, List.append_assoc]
      · rw [place, List.length_append]
        omega
    · -- Behind a remark nothing is left.
      rw [nothing] at whole
      exact absurd (List.append_eq_nil_iff.mp whole.symm).2 left

/-! ## Lines -/

variable {line : Bytes}

/-- A line is refused exactly at the first of its items that cannot be read. The column is that
of a byte of the line which is no blank, the item that starts there is spelled in no way, and the
fault is about it; the bytes before it are accepted on their own, and their items are exactly
those that reading the line passes over. -/
theorem ofLine?_eq_error_iff :
    ofLine? line = .error (column, fault) ↔
      ¬ IsTapeMark line ∧ 1 ≤ column ∧ column ≤ line.length ∧
        ∃ c after items, line.drop (column - 1) = c :: after ∧ Byte.isBlank c = false ∧
          readItem c after = .error fault ∧ StartsNoItem (c :: after) ∧
          fault.opening = Byte.toUpper c ∧ Passes 1 line items column (c :: after) ∧
          ofLine? (line.take (column - 1)) = .ok items := by
  constructor
  · intro refused
    unfold ofLine? at refused
    split at refused
    · cases refused
    · next other =>
      obtain ⟨items, c, after, passes, solid, bad⟩ := exists_passes_of_readItems refused
      obtain ⟨before, rfl, rfl, row⟩ := passes.exists_row (List.cons_ne_nil c after)
      have place : 1 + before.length - 1 = before.length := by omega
      have length : (before ++ c :: after).length = before.length + (after.length + 1) := by
        rw [List.length_append, List.length_cons]
      refine ⟨mt isTapeMark_iff.mp other, by omega, by omega, c, after, items, ?_, solid, bad,
        startsNoItem_of_readItem bad, opening_of_readItem bad, passes, ?_⟩
      · rw [place, List.drop_left]
      · rw [place, List.take_left]
        exact ofLine?_eq_ok_iff.mpr (.inr row)
  · rintro ⟨other, -, -, c, after, items, -, solid, bad, -, -, passes, -⟩
    rw [ofLine?, if_neg (mt isTapeMark_iff.mpr other)]
    exact passes.readItems_eq_error (readItems_of_error solid bad)

/-- A bad number is reported where its letter stands. -/
example : ofLine? (ascii "G1 (a) x 2 g1.25 Y") = .error (12, .badCode .g (ascii "1.25")) := by
  decide +kernel

end Token

end GcodeSender
