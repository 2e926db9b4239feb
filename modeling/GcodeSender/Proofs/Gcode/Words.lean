import GcodeSender.Proofs.Decimal.ReadBack
import GcodeSender.Proofs.Gcode.Reading
import GcodeSender.Toolpath.Printer

/-!
# Lines of written words

A written line is a G word followed by entries, each a blank, a letter and a number. It reads
as that word and, for each entry, its letter with the float that the number reads back as
(`Block.collect?_written`): a letter of the block has the value of its entry, and no other
letter has one.
-/
namespace GcodeSender

open Decimal (IsNumber Numeral)

/-- A letter with the text of its number. -/
abbrev Entry := Letter × Bytes

namespace Entry

/-- The text of entries. -/
def texts (entries : List Entry) : Bytes :=
  entries.flatMap fun entry => Segment.wordText entry.1 entry.2

/-- Every entry has a number. -/
def Numbers (entries : List Entry) : Prop := ∀ entry ∈ entries, ∃ value, IsNumber entry.2 value

/-- The values that entries give to their letters. -/
def parameters (entries : List Entry) : Parameters :=
  fun letter => (entries.lookup letter).bind Decimal.readBack?

/-- A number ends before entries. -/
theorem ends_texts (entries : List Entry) : Numeral.Ends (texts entries) := by
  cases entries with
  | nil => exact Numeral.ends_nil
  | cons entry others =>
    intro c first
    cases first
    decide

end Entry

namespace Token

variable {numeral : Numeral} {text rest : Bytes} {value : Float} {tokens : List Token}

/-- No blank that may stand inside a word stands before a numeral. -/
theorem dropWhile_isGap_text (spelled : numeral.Spelled) (rest : Bytes) :
    (numeral.text ++ rest).dropWhile Byte.isGap = numeral.text ++ rest := by
  obtain ⟨c, others, start, known⟩ := Numeral.head_text spelled
  have solid : Byte.isGap c = false := by
    rcases known with (digit | rfl) | rfl | rfl
    · cases gap : Byte.isGap c with
      | false => rfl
      | true =>
        rw [Byte.isGap, Bool.or_eq_true, beq_iff_eq, beq_iff_eq] at gap
        rcases gap with rfl | rfl <;> exact absurd digit (by decide)
    · decide
    · decide
    · decide
  rw [start, List.cons_append]
  exact List.dropWhile_cons_of_neg (by rw [solid]; decide)

/-- A number is read up to where it ends. -/
theorem readNumber?_text (spelled : numeral.Spelled) (found : numeral.value? = some value)
    (ends : Numeral.Ends rest) :
    readNumber? (numeral.text ++ rest) = some (numeral, value, rest) := by
  rw [readNumber?, dropWhile_isGap_text spelled, Numeral.read?_text_append spelled ends]
  simp [found]

/-- A letter that carries values starts a word. -/
theorem readItem_byte (letter : Letter) (input : Bytes) :
    readItem letter.byte input = readWord letter.byte input := by
  cases letter <;> rfl

/-- A letter that carries values starts no command word and no line number. -/
theorem ofWord?_byte (letter : Letter) (numeral : Numeral) (value : Float) :
    ofWord? letter.byte numeral value = .ok (.parameter letter.byte value) := by
  cases letter <;> rfl

/-- The letter of an entry with its number is an item. -/
theorem readItem_entry (letter : Letter) (number : IsNumber text value)
    (ends : Numeral.Ends rest) : Byte.isBlank letter.byte = false ∧
      readItem letter.byte (text ++ rest) = .ok (.parameter letter.byte value, rest) := by
  obtain ⟨numeral, sound, rfl, known⟩ := number
  constructor
  · cases letter <;> rfl
  · rw [readItem_byte, readWord, readNumber?_text sound.spelled known ends]
    show (ofWord? letter.byte numeral value).map _ = _
    rw [ofWord?_byte]
    rfl

/-- An entry reads as its letter and its value. -/
theorem ItemsOf.entry (letter : Letter) (number : IsNumber text value)
    (ends : Numeral.Ends rest) (items : ItemsOf rest tokens) :
    ItemsOf (Segment.wordText letter text ++ rest) (.parameter letter.byte value :: tokens) := by
  obtain ⟨solid, found⟩ := readItem_entry letter number ends
  exact (ItemsOf.item solid found items).blank (by decide)

/-- Entries read as their letters with their values. -/
theorem exists_itemsOf_texts {entries : List Entry} (numbers : Entry.Numbers entries) :
    ∃ values : List (Letter × Float),
      ItemsOf (Entry.texts entries)
          (values.map fun (letter, value) => .parameter letter.byte value) ∧
        values.map Prod.fst = entries.map Prod.fst ∧
        ∀ letter, values.lookup letter = Entry.parameters entries letter := by
  induction entries with
  | nil => exact ⟨[], itemsOf_nil, rfl, fun _ => rfl⟩
  | cons entry others ih =>
    obtain ⟨letter, text⟩ := entry
    obtain ⟨value, number⟩ := numbers (letter, text) List.mem_cons_self
    obtain ⟨values, items, letters, same⟩ :=
      ih fun entry member => numbers entry (List.mem_cons_of_mem _ member)
    refine ⟨(letter, value) :: values, ?_, by simp [letters], fun other => ?_⟩
    · exact ItemsOf.entry letter number (Entry.ends_texts others) items
    · unfold Entry.parameters
      rw [List.lookup_cons, List.lookup_cons]
      cases other == letter with
      | true => exact number.readBack?.symm
      | false => exact same other

/-- The code of a G word reads as its float. -/
theorem value?_code {code : Nat} (small : code < 100) :
    (Numeral.ofUnits false 0 code).value? = some (Float.ofNat code) := by
  have range : 100 ≤ Decimal.Scientific.rangeEnd := by decide +kernel
  have number : (Numeral.ofUnits false 0 code).number = ⟨false, code, 0⟩ := by
    show Decimal.Scientific.mk false (Decimal.valueOf (Decimal.digits (code / 1) ++ [])) 0 = _
    rw [List.append_nil, Nat.div_one, Decimal.valueOf_digits]
  have below : code / Nat.pow 10 0 < Decimal.Scientific.rangeEnd :=
    Nat.lt_of_le_of_lt (Nat.div_le_self _ _) (Nat.lt_of_lt_of_le small range)
  have inRange := Numeral.inRange_ofUnits false (Nat.zero_le 4) below
  rw [Numeral.value?_of_inRange (Numeral.sound_ofUnits false 0 code) inRange, number]
  rfl

/-- The code of a G word is in the range of codes. -/
theorem code_in_range {code : Nat} (small : code < 100) :
    ¬ Float.ofNat code < 0.0 ∧ ¬ Float.ofNat maxCode < Float.ofNat code := by
  have all : ∀ code < 100, ¬ Float.ofNat maxCode < Float.ofNat code := by decide +kernel
  exact ⟨IsUnsigned.not_lt_zero (IsUnsigned.ofScientific code false 0), all code small⟩

/-- The number of a G word gives the word. -/
theorem command?_code {code : Nat} (small : code < 100) :
    command? .g (Numeral.ofUnits false 0 code) (Float.ofNat code) =
      .ok (.command (.g code) (Float.ofNat code)) := by
  obtain ⟨floor, limit⟩ := code_in_range small
  have whole : Decimal.valueOf (Numeral.ofUnits false 0 code).whole = code := by
    show Decimal.valueOf (Decimal.digits (code / 1)) = code
    rw [Nat.div_one, Decimal.valueOf_digits]
  have places : significantFraction (Numeral.ofUnits false 0 code) = [] := rfl
  unfold command?
  rw [if_neg floor, if_neg limit, whole, places]

/-- The letter of a G word with its code is an item. -/
theorem exists_readItem_gWord {code : Nat} (small : code < 100) (ends : Numeral.Ends rest) :
    ∃ digits, (Word.g code).text ++ rest = 0x47 :: digits ∧
      readItem 0x47 digits = .ok (.command (.g code) (Float.ofNat code), rest) := by
  have text : (Word.g code).text = 0x47 :: (Numeral.ofUnits false 0 code).text := by
    rw [Numeral.text_ofUnits]
    simp [Word.text, CommandLetter.byte, Decimal.placed]
  have read :=
    readNumber?_text (Numeral.sound_ofUnits false 0 code).spelled (value?_code small) ends
  have word : ofWord? 0x47 (Numeral.ofUnits false 0 code) (Float.ofNat code) =
      command? .g (Numeral.ofUnits false 0 code) (Float.ofNat code) := rfl
  refine ⟨(Numeral.ofUnits false 0 code).text ++ rest, by rw [text]; rfl, ?_⟩
  show readWord 0x47 ((Numeral.ofUnits false 0 code).text ++ rest) = _
  rw [readWord, read]
  show (ofWord? 0x47 _ _).map _ = _
  rw [word, command?_code small]
  rfl

/-- A G word reads as itself. -/
theorem ItemsOf.gWord {code : Nat} (small : code < 100) (ends : Numeral.Ends rest)
    (items : ItemsOf rest tokens) :
    ItemsOf ((Word.g code).text ++ rest) (.command (.g code) (Float.ofNat code) :: tokens) := by
  obtain ⟨digits, text, found⟩ := exists_readItem_gWord small ends
  rw [text]
  exact .item (by decide) found items

/-- A line that starts with a G word is no tape mark. -/
theorem trim_gWord (code : Nat) (rest : Bytes) :
    trim ((Word.g code).text ++ rest) ≠ [Byte.percent] := by
  intro mark
  have start : (Word.g code).text ++ rest = 0x47 :: ((Word.g code).text.tail ++ rest) := rfl
  have front : trim ((Word.g code).text ++ rest) <+: (Word.g code).text ++ rest := by
    rw [trim, start, trimStart_cons_of_not_blank (by decide), trimEnd]
    have kept := List.reverse_prefix.mpr (List.dropWhile_suffix (l := (0x47 ::
      ((Word.g code).text.tail ++ rest)).reverse) Byte.isBlank)
    rwa [List.reverse_reverse] at kept
  rw [mark, start, List.cons_prefix_cons] at front
  exact absurd front.1 (by decide)

/-- A G word with entries reads as the word, and as the letters of the entries with their
values. -/
theorem exists_reads_written {code : Nat} (small : code < 100) {entries : List Entry}
    (numbers : Entry.Numbers entries) :
    ∃ values : List (Letter × Float),
      Reads ((Word.g code).text ++ Entry.texts entries)
          (.command (.g code) (Float.ofNat code) ::
            values.map fun (letter, value) => .parameter letter.byte value) ∧
        values.map Prod.fst = entries.map Prod.fst ∧
        ∀ letter, values.lookup letter = Entry.parameters entries letter := by
  obtain ⟨values, items, letters, same⟩ := exists_itemsOf_texts numbers
  have written := ItemsOf.gWord small (Entry.ends_texts entries) items
  exact ⟨values, written.reads (trim_gWord code _), letters, same⟩

end Token

namespace Block

/-- Values for letters that have none yet are added to a block. -/
theorem collect?_parameters {values : List (Letter × Float)} {block : Block}
    (fresh : ∀ letter ∈ values.map Prod.fst, block.parameters letter = none)
    (distinct : (values.map Prod.fst).Nodup) :
    block.collect? (values.map fun (letter, value) => .parameter letter.byte value) =
      .ok { block with
        parameters := fun letter => (values.lookup letter).or (block.parameters letter) } := by
  induction values generalizing block with
  | nil => rfl
  | cons entry others ih =>
    obtain ⟨letter, value⟩ := entry
    obtain ⟨absent, distinct⟩ := List.nodup_cons.mp distinct
    have unused : block.parameters letter = none := fresh letter List.mem_cons_self
    have added : block.add (.parameter letter.byte value) =
        .ok { block with parameters := block.parameters.insert letter value } := by
      show block.addParameter letter.byte value = _
      rw [addParameter, Letter.ofByte?_byte]
      dsimp only
      rw [Parameters.has, unused]
      rfl
    have later : ∀ other ∈ others.map Prod.fst,
        block.parameters.insert letter value other = none := by
      intro other member
      have different : other ≠ letter := by
        rintro rfl
        exact absent member
      rw [Parameters.insert, if_neg different]
      exact fresh other (List.mem_cons_of_mem _ member)
    rw [List.map_cons, collect?, added]
    dsimp only
    rw [ih later distinct]
    congr 2
    funext other
    show (others.lookup other).or (block.parameters.insert letter value other) = _
    rw [List.lookup_cons]
    by_cases same : other = letter
    · have missing : others.lookup letter = none := by
        rw [List.lookup_eq_none_iff]
        intro entry member
        rw [bne_iff_ne]
        rintro rfl
        exact absent (List.mem_map.mpr ⟨entry, member, rfl⟩)
      rw [same, missing, Parameters.insert, if_pos rfl, beq_self_eq_true]
      rfl
    · rw [Parameters.insert, if_neg same, beq_eq_false_iff_ne.mpr same]

/-- The block of a G word with entries. -/
def written (word : Word) (entries : List Entry) : Block :=
  { words := [word], parameters := Entry.parameters entries }

/-- A G word of a modal group and entries with different letters make their block. -/
theorem collect?_written {code : Nat} {group : ModalGroup} {entries : List Entry}
    {values : List (Letter × Float)} (known : (Word.g code).group? = some group)
    (letters : values.map Prod.fst = entries.map Prod.fst)
    (same : ∀ letter, values.lookup letter = Entry.parameters entries letter)
    (distinct : (entries.map Prod.fst).Nodup) :
    Block.collect? {} (.command (.g code) (Float.ofNat code) ::
        values.map fun (letter, value) => .parameter letter.byte value) =
      .ok (written (.g code) entries) := by
  have added : Block.add {} (.command (.g code) (Float.ofNat code)) =
      .ok { words := [.g code] } := by
    show Block.addWord {} (.g code) = _
    unfold addWord
    dsimp only
    rw [known]
    exact if_neg fun conflict => Bool.false_ne_true conflict.2
  rw [collect?, added]
  dsimp only
  rw [collect?_parameters (fun _ _ => rfl) (letters ▸ distinct), written]
  congr 2
  funext letter
  show (values.lookup letter).or none = _
  rw [Option.or_none, same]

end Block

/-- A written line is read as the command of its block, if the block breaks no rule. -/
theorem Command.ofLine?_written {code : Nat} {group : ModalGroup} {entries : List Entry}
    (small : code < 100) (known : (Word.g code).group? = some group)
    (numbers : Entry.Numbers entries) (distinct : (entries.map Prod.fst).Nodup) (number : Nat)
    {state : ModalState} (sound : (Block.written (.g code) entries).fault? state.motion = none) :
    ofLine? number ((Word.g code).text ++ Entry.texts entries) state =
      .ok (some (ofSound number ((Word.g code).text ++ Entry.texts entries)
          (.written (.g code) entries) state.motion),
        (Block.written (.g code) entries).nextState state) := by
  obtain ⟨values, reads, letters, same⟩ := Token.exists_reads_written small numbers
  have collected := Block.collect?_written known letters same distinct
  exact ofLine?_eq_ok_some_iff.mpr
    ⟨_, _, reads, collected, rfl, sound, rfl, rfl⟩

end GcodeSender
