import GcodeSender.Proofs.Gcode.Words

/-!
# Lines with a number that is not finite

A float that is infinite or no number at all is written by name, and no number is read from a
name. So reading stops at the letter before it (`Token.Stops`), and a written line with such an
entry is refused, whatever its other entries are.
-/
namespace GcodeSender

/-! ## Floats written by name -/

namespace Decimal

variable {text : Bytes} {value : Float}

/-- The names of the floats that are not finite. -/
def names : List Bytes := [ascii "nan", ascii "-inf", ascii "inf"]

/-- A float that is not finite is written by name. -/
theorem fixed_mem_names (endless : ¬ value.isFinite = true) (places : Nat) :
    fixed value places ∈ names := by
  unfold fixed
  rw [Dyadic.ofFloat?_of_not_isFinite endless]
  dsimp only
  split
  · simp [names]
  · split <;> simp [names]

/-- A float that is not finite is written by name, trimmed or not. -/
theorem fixedTrimmed_mem_names (endless : ¬ value.isFinite = true) (places : Nat) :
    fixedTrimmed value places ∈ names := by
  have name := fixed_mem_names endless places
  have whole : Byte.dot ∉ fixed value places := by
    simp only [names, List.mem_cons, List.not_mem_nil, or_false] at name
    rcases name with same | same | same <;> rw [same] <;> decide
  rw [fixedTrimmed, trimFraction_of_not_mem whole]
  exact name

/-- No number is read from a name, whatever follows it. -/
theorem readNumber?_of_mem_names (name : text ∈ names) (rest : Bytes) :
    Token.readNumber? (text ++ rest) = none := by
  simp only [names, List.mem_cons, List.not_mem_nil, or_false] at name
  rcases name with rfl | rfl | rfl <;> rfl

/-- A name does not read back. -/
theorem readBack?_of_mem_names (name : text ∈ names) : readBack? text = none := by
  simp only [names, List.mem_cons, List.not_mem_nil, or_false] at name
  rcases name with rfl | rfl | rfl <;> rfl

/-- A float whose text reads back is finite. -/
theorem isFinite_of_readBack?_fixedTrimmed {read : Float} {places : Nat}
    (back : readBack? (fixedTrimmed value places) = some read) : value.isFinite = true := by
  by_contra endless
  rw [readBack?_of_mem_names (fixedTrimmed_mem_names endless places)] at back
  cases back

end Decimal

/-! ## Where reading stops -/

namespace Token

variable {input rest : Bytes} {token : Token}

/-- A text cannot be read to its end, whatever column it starts at. -/
def Stops (input : Bytes) : Prop := ∀ column, ∃ fault, readItems column input = .error fault

/-- Reading stops at an item that cannot be read. -/
theorem stops_item {c : UInt8} {fault : TokenFault} (solid : Byte.isBlank c = false)
    (bad : readItem c rest = .error fault) : Stops (c :: rest) := fun column =>
  ⟨(column, fault), readItems_of_error solid bad⟩

/-- Reading stops after a blank if it stops in what follows. -/
theorem Stops.blank {c : UInt8} (stops : Stops rest) (blank : Byte.isBlank c = true) :
    Stops (c :: rest) := by
  intro column
  rw [readItems, if_pos blank]
  exact stops (column + 1)

/-- Reading stops after an item if it stops in what follows. -/
theorem Stops.item {c : UInt8} {after : Bytes} (stops : Stops after)
    (solid : Byte.isBlank c = false) (found : readItem c rest = .ok (token, after)) :
    Stops (c :: rest) := by
  intro column
  obtain ⟨fault, stopped⟩ := stops (column + ((c :: rest).length - after.length))
  exact ⟨fault, by rw [readItems_item solid found, stopped]⟩

/-- Reading stops at the letter of an entry that has a name. -/
theorem stops_entry (letter : Letter) {text : Bytes} (name : text ∈ Decimal.names) (rest : Bytes) :
    Stops (Segment.wordText letter text ++ rest) := by
  have solid : Byte.isBlank letter.byte = false := by
    cases letter <;> rfl
  have bad : readItem letter.byte (text ++ rest) = .error (.missingNumber letter.byte) := by
    rw [readItem_byte, readWord, Decimal.readNumber?_of_mem_names name]
  exact (stops_item solid bad).blank (by decide)

/-- Where one of the entries has a name and every other has a number, reading stops. -/
theorem stops_texts {entries : List Entry}
    (known : ∀ entry ∈ entries, (∃ value, Decimal.IsNumber entry.2 value) ∨
      entry.2 ∈ Decimal.names)
    (bad : ∃ entry ∈ entries, entry.2 ∈ Decimal.names) : Stops (Entry.texts entries) := by
  induction entries with
  | nil =>
    obtain ⟨entry, member, _⟩ := bad
    cases member
  | cons entry others ih =>
    obtain ⟨letter, text⟩ := entry
    show Stops (Segment.wordText letter text ++ Entry.texts others)
    rcases known (letter, text) List.mem_cons_self with ⟨value, number⟩ | name
    · -- The name is in one of the later entries, as no name is a number.
      have later : Stops (Entry.texts others) := by
        refine ih (fun entry member => known entry (List.mem_cons_of_mem _ member)) ?_
        obtain ⟨entry, member, name⟩ := bad
        rcases List.mem_cons.mp member with rfl | member
        · have none := Decimal.readBack?_of_mem_names name
          rw [number.readBack?] at none
          cases none
        · exact ⟨entry, member, name⟩
      obtain ⟨solid, found⟩ := readItem_entry letter number (Entry.ends_texts others)
      exact (later.item solid found).blank (by decide)
    · exact stops_entry letter name _

/-- Reading stops after a G word if it stops in what follows. -/
theorem Stops.gWord {code : Nat} (small : code < 100) (ends : Decimal.Numeral.Ends rest)
    (stops : Stops rest) : Stops ((Word.g code).text ++ rest) := by
  obtain ⟨digits, text, found⟩ := exists_readItem_gWord small ends
  rw [text]
  exact stops.item (by decide) found

end Token

/-- A written line is refused if one of its entries has a name and every other has a number. -/
theorem LineOutcome.exists_refused_of_name {code : Nat} (small : code < 100)
    {entries : List Entry}
    (known : ∀ entry ∈ entries, (∃ value, Decimal.IsNumber entry.2 value) ∨
      entry.2 ∈ Decimal.names)
    (bad : ∃ entry ∈ entries, entry.2 ∈ Decimal.names) (number : Nat) (state : ModalState) :
    ∃ error, ofLine number ((Word.g code).text ++ Entry.texts entries) state =
      (.refused error, state) := by
  obtain ⟨fault, stopped⟩ :=
    (Token.stops_texts known bad).gWord small (Entry.ends_texts entries) 1
  refine ⟨⟨number, fault.1, .token fault.2⟩, ?_⟩
  have unread : Token.ofLine? ((Word.g code).text ++ Entry.texts entries) = .error fault := by
    rw [Token.ofLine?, if_neg (Token.trim_gWord code _), stopped]
  rw [ofLine, Command.ofLine?, unread]

end GcodeSender
