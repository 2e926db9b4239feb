import GcodeSender.Program

/-!
# What a line reads as

A line reads as a row of items (`Token.Reads`); where they stand matters only to the place of
an error. The items make a block, added one by one (`Block.collect?`), and the block of a line
with at least one word makes its command, unless it breaks a rule under the active motion. The
main statement says exactly when a line gives a command, and which one.
-/
namespace GcodeSender

/-! ## Items of a line -/

/-- A text reads as items, whatever column it starts at. -/
def Token.ItemsOf (input : Bytes) (tokens : List Token) : Prop :=
  ∀ column, ∃ placed, readItems column input = .ok placed ∧
    placed.map PlacedToken.token = tokens

/-- A line reads as items. -/
def Token.Reads (line : Bytes) (tokens : List Token) : Prop :=
  ∃ placed, ofLine? line = .ok placed ∧ placed.map PlacedToken.token = tokens

namespace Token

variable {c : UInt8} {rest after : Bytes} {token : Token} {column : Nat}

/-- Behind an item that is read, reading goes on where the item ends. -/
theorem readItems_item (solid : Byte.isBlank c = false)
    (found : readItem c rest = .ok (token, after)) :
    readItems column (c :: rest) =
      match readItems (column + ((c :: rest).length - after.length)) after with
      | .error fault => .error fault
      | .ok items => .ok (⟨token, column⟩ :: items) := by
  rw [readItems, if_neg (by simp [solid])]
  split
  · next fault other =>
    rw [found] at other
    cases other
  · next other rest' again =>
    rw [found] at again
    cases again
    rfl

/-- Reading stops at an item that cannot be read. -/
theorem readItems_of_error {fault : TokenFault} (solid : Byte.isBlank c = false)
    (bad : readItem c rest = .error fault) :
    readItems column (c :: rest) = .error (column, fault) := by
  rw [readItems, if_neg (by simp [solid])]
  split
  · next other found =>
    rw [bad] at found
    cases found
    rfl
  · next found =>
    rw [bad] at found
    cases found

/-- Nothing reads as no item. -/
theorem itemsOf_nil : ItemsOf [] [] := by
  intro column
  exact ⟨[], by rw [readItems], rfl⟩

/-- A blank is no item. -/
theorem ItemsOf.blank {tokens : List Token}
    (blank : Byte.isBlank c = true) (items : ItemsOf rest tokens) : ItemsOf (c :: rest) tokens := by
  intro column
  obtain ⟨placed, read, same⟩ := items (column + 1)
  refine ⟨placed, ?_, same⟩
  rw [readItems, if_pos blank, read]

/-- An item stands before the items of what follows it. -/
theorem ItemsOf.item {tokens : List Token}
    (solid : Byte.isBlank c = false) (found : readItem c rest = .ok (token, after))
    (items : ItemsOf after tokens) : ItemsOf (c :: rest) (token :: tokens) := by
  intro column
  obtain ⟨placed, read, same⟩ :=
    items (column + ((c :: rest).length - after.length))
  refine ⟨⟨token, column⟩ :: placed, ?_, by rw [List.map_cons, same]⟩
  rw [readItems_item solid found, read]

/-- A line with more than a percent sign reads as its items. -/
theorem ItemsOf.reads {line : Bytes} {tokens : List Token} (items : ItemsOf line tokens)
    (program : trim line ≠ [Byte.percent]) : Reads line tokens := by
  obtain ⟨placed, read, same⟩ := items 1
  exact ⟨placed, by rw [ofLine?, if_neg program, read], same⟩

/-- A line that is seen to be read reads as what is seen. -/
theorem reads_of_toOption {line : Bytes} (placed : List PlacedToken)
    (read : (ofLine? line).toOption = some placed) :
    Reads line (placed.map PlacedToken.token) := by
  refine ⟨placed, ?_, rfl⟩
  cases found : ofLine? line with
  | error fault =>
    rw [found] at read
    cases read
  | ok items =>
    rw [found] at read
    cases read
    rfl

end Token

/-! ## Blocks of items -/

namespace Block

/-- The block that items make on top of another, or the fault of the first item that it cannot
take. -/
def collect? (block : Block) : List Token → Except BlockFault Block
  | [] => .ok block
  | token :: others =>
    match block.add token with
    | .error fault => .error fault
    | .ok block => block.collect? others

/-- Columns do not decide which block items make. -/
theorem addAll_eq_ok_iff {block made : Block} {placed : List PlacedToken} :
    block.addAll placed = .ok made ↔ block.collect? (placed.map PlacedToken.token) = .ok made := by
  induction placed generalizing block with
  | nil => simp [addAll, collect?]
  | cons first others ih =>
    rw [addAll, List.map_cons, collect?]
    cases block.add first.token with
    | error fault => simp
    | ok next => exact ih

end Block

/-! ## Commands of blocks -/

namespace Command

/-- The command of a block that breaks no rule under the active motion. -/
def ofSound (number : Nat) (line : Bytes) (block : Block) (active : Option Motion) : Command :=
  ⟨number, line, block, block.motion? active, (classify block (block.motion? active)).1,
    (classify block (block.motion? active)).2⟩

/-- A block gives its command exactly when it breaks no rule. -/
theorem ofBlock?_eq_ok_iff {number : Nat} {line : Bytes} {block : Block}
    {state next : ModalState} {command : Command} :
    ofBlock? number line block state = .ok (command, next) ↔
      block.fault? state.motion = none ∧ command = ofSound number line block state.motion ∧
        next = block.nextState state := by
  unfold ofBlock?
  cases block.fault? state.motion with
  | some fault => simp
  | none =>
    simp only [Except.ok.injEq, Prod.mk.injEq, true_and]
    exact ⟨fun ⟨made, after⟩ => ⟨made.symm, after.symm⟩,
      fun ⟨made, after⟩ => ⟨made.symm, after.symm⟩⟩

/-- A line gives a command exactly when it reads as items that make a block with a word, and the
block breaks no rule. -/
theorem ofLine?_eq_ok_some_iff {number : Nat} {line : Bytes} {state next : ModalState}
    {command : Command} :
    ofLine? number line state = .ok (some command, next) ↔
      ∃ tokens block, Token.Reads line tokens ∧ Block.collect? {} tokens = .ok block ∧
        block.isEmpty = false ∧ block.fault? state.motion = none ∧
          command = ofSound number line block state.motion ∧ next = block.nextState state := by
  constructor
  · intro read
    unfold ofLine? at read
    split at read
    · cases read
    · next placed found =>
      split at read
      · cases read
      · next block collected =>
        split at read
        · cases read
        · next solid =>
          split at read
          · cases read
          · next made after built =>
            cases read
            obtain ⟨sound, command, state⟩ := ofBlock?_eq_ok_iff.mp built
            exact ⟨_, block, ⟨placed, found, rfl⟩, Block.addAll_eq_ok_iff.mp collected,
              by simpa using solid, sound, command, state⟩
  · rintro ⟨tokens, block, ⟨placed, found, rfl⟩, collected, solid, sound, rfl, rfl⟩
    have made : Block.ofTokens? placed = .ok block := Block.addAll_eq_ok_iff.mpr collected
    have built : ofBlock? number line block state =
        .ok (ofSound number line block state.motion, block.nextState state) :=
      ofBlock?_eq_ok_iff.mpr ⟨sound, rfl, rfl⟩
    unfold ofLine?
    simp only [found, made, solid, built]
    rfl

end Command

end GcodeSender
