/-!
# Byte text

Everything the program reads and writes is a string of bytes: lines of a program file, lines
from the controller, messages. Character classes are those of plain ASCII, so a byte at or
above 128 is never a letter, a digit or a blank. The main statements are that trimming takes
exactly the blanks at both ends away, and that the pieces of a text joined by their separator
give the text back.
-/
namespace GcodeSender

/-- A text as its bytes in order. -/
abbrev Bytes := List UInt8

/-- The bytes of a text written in this program, one byte for each of its ASCII characters. -/
def ascii (text : String) : Bytes := text.toList.map fun c => UInt8.ofNat c.toNat

namespace Byte

/-- Space. -/
abbrev space : UInt8 := 0x20
/-- Horizontal tab. -/
abbrev tab : UInt8 := 0x09
/-- Line feed, which ends every line on the wire and in a file. -/
abbrev newline : UInt8 := 0x0A
/-- Carriage return. -/
abbrev carriageReturn : UInt8 := 0x0D
/-- The percent sign, which marks the ends of a program tape. -/
abbrev percent : UInt8 := 0x25
/-- Opening parenthesis. -/
abbrev openParen : UInt8 := 0x28
/-- Closing parenthesis. -/
abbrev closeParen : UInt8 := 0x29
/-- Asterisk. -/
abbrev asterisk : UInt8 := 0x2A
/-- Plus sign. -/
abbrev plus : UInt8 := 0x2B
/-- Comma. -/
abbrev comma : UInt8 := 0x2C
/-- Minus sign. -/
abbrev minus : UInt8 := 0x2D
/-- Decimal point. -/
abbrev dot : UInt8 := 0x2E
/-- The digit zero. -/
abbrev zero : UInt8 := 0x30
/-- Colon. -/
abbrev colon : UInt8 := 0x3A
/-- Semicolon. -/
abbrev semicolon : UInt8 := 0x3B
/-- Less-than sign. -/
abbrev less : UInt8 := 0x3C
/-- Equals sign. -/
abbrev equals : UInt8 := 0x3D
/-- Greater-than sign. -/
abbrev greater : UInt8 := 0x3E
/-- Vertical bar. -/
abbrev bar : UInt8 := 0x7C

/-- The six blanks: space, tab, line feed, vertical tab, form feed and carriage return. -/
def isBlank (c : UInt8) : Bool := c == space || (tab ≤ c && c ≤ carriageReturn)

/-- The two blanks that may stand inside a word, between its letter and its number. -/
def isGap (c : UInt8) : Bool := c == space || c == tab

/-- One of the digits 0 to 9. -/
def isDigit (c : UInt8) : Bool := zero ≤ c && c ≤ 0x39

/-- A capital letter A to Z. -/
def isUpper (c : UInt8) : Bool := 0x41 ≤ c && c ≤ 0x5A

/-- A small letter a to z. -/
def isLower (c : UInt8) : Bool := 0x61 ≤ c && c ≤ 0x7A

/-- A letter of either case. -/
def isLetter (c : UInt8) : Bool := isUpper c || isLower c

/-- The capital form of a small letter; every other byte is itself. -/
def toUpper (c : UInt8) : UInt8 := if isLower c then c - 0x20 else c

/-- The small form of a capital letter; every other byte is itself. -/
def toLower (c : UInt8) : UInt8 := if isUpper c then c + 0x20 else c

/-- The value of a digit. -/
def digitValue (c : UInt8) : Nat := c.toNat - zero.toNat

/-- The digit of a value below ten. -/
def ofDigit (value : Nat) : UInt8 := UInt8.ofNat (zero.toNat + value)

end Byte

/-- The text without the blanks before its first other byte. -/
def trimStart (text : Bytes) : Bytes := text.dropWhile Byte.isBlank

/-- The text without the blanks after its last other byte. -/
def trimEnd (text : Bytes) : Bytes := (text.reverse.dropWhile Byte.isBlank).reverse

/-- The text without blanks at either end. -/
def trim (text : Bytes) : Bytes := trimEnd (trimStart text)

@[simp] theorem trimStart_nil : trimStart [] = [] := rfl

@[simp] theorem trimEnd_nil : trimEnd [] = [] := rfl

/-- A text that starts with no blank keeps its start. -/
theorem trimStart_cons_of_not_blank {c : UInt8} {rest : Bytes} (solid : Byte.isBlank c = false) :
    trimStart (c :: rest) = c :: rest := by
  simp [trimStart, solid]

/-- A text that ends with no blank keeps its end. -/
theorem trimEnd_append_of_not_blank {c : UInt8} {front : Bytes}
    (solid : Byte.isBlank c = false) : trimEnd (front ++ [c]) = front ++ [c] := by
  simp [trimEnd, solid]

/-- Without its first bytes of a kind a text is what stands after such bytes and starts with no
other of them. -/
theorem dropWhile_eq_iff {test : UInt8 → Bool} {text rest : Bytes} :
    text.dropWhile test = rest ↔
      ∃ front, text = front ++ rest ∧ (∀ c ∈ front, test c = true) ∧
        ∀ c ∈ rest.head?, test c = false := by
  constructor
  · rintro rfl
    refine ⟨text.takeWhile test, List.takeWhile_append_dropWhile.symm,
      List.all_eq_true.mp List.all_takeWhile, fun c first => ?_⟩
    have stop := List.head?_dropWhile_not test text
    rw [Option.mem_def.mp first] at stop
    exact stop
  · rintro ⟨front, rfl, dropped, stop⟩
    rw [List.dropWhile_append_of_pos dropped]
    cases rest with
    | nil => rfl
    | cons c others => exact List.dropWhile_cons_of_neg (by simp [stop c rfl])

/-- Without its last bytes of a kind a text is what stands before such bytes and ends with no
other of them. -/
theorem reverse_dropWhile_eq_iff {test : UInt8 → Bool} {text kept : Bytes} :
    (text.reverse.dropWhile test).reverse = kept ↔
      ∃ tail, text = kept ++ tail ∧ (∀ c ∈ tail, test c = true) ∧
        ∀ c ∈ kept.getLast?, test c = false := by
  rw [List.reverse_eq_iff, dropWhile_eq_iff, List.head?_reverse]
  constructor
  · rintro ⟨front, turned, dropped, stop⟩
    refine ⟨front.reverse, ?_, fun c member => dropped c (List.mem_reverse.mp member), stop⟩
    rw [List.reverse_eq_iff.mp turned, List.reverse_append, List.reverse_reverse]
  · rintro ⟨tail, rfl, dropped, stop⟩
    exact ⟨tail.reverse, List.reverse_append, fun c member =>
      dropped c (List.mem_reverse.mp member), stop⟩

/-- A text is its trimmed text between blanks, and that starts and ends with none. -/
theorem exists_trim (text : Bytes) :
    ∃ before after, text = before ++ trim text ++ after ∧
      (∀ c ∈ before, Byte.isBlank c = true) ∧ (∀ c ∈ after, Byte.isBlank c = true) ∧
      (∀ c ∈ (trim text).head?, Byte.isBlank c = false) ∧
      ∀ c ∈ (trim text).getLast?, Byte.isBlank c = false := by
  obtain ⟨before, whole, front, solid⟩ := dropWhile_eq_iff.mp (rfl : trimStart text = _)
  obtain ⟨after, start, back, last⟩ := reverse_dropWhile_eq_iff.mp (rfl : trim text = _)
  refine ⟨before, after, ?_, front, back, fun c first => ?_, last⟩
  · rw [List.append_assoc, ← start, ← whole]
  · refine solid c ?_
    rw [start, List.head?_append, Option.mem_def.mp first]
    rfl

/-- A text that starts with no blank starts so when it is trimmed. -/
theorem exists_trim_cons {c : UInt8} (solid : Byte.isBlank c = false) (rest : Bytes) :
    ∃ others, trim (c :: rest) = c :: others := by
  rw [trim, trimStart_cons_of_not_blank solid, trimEnd, List.reverse_cons,
    List.dropWhile_append]
  split
  · exact ⟨[], by simp [solid]⟩
  · exact ⟨(rest.reverse.dropWhile Byte.isBlank).reverse, by simp⟩

/-- Trimming takes only blanks away. -/
theorem mem_trim_of_solid {text : Bytes} {c : UInt8} (member : c ∈ text)
    (solid : Byte.isBlank c = false) : c ∈ trim text := by
  obtain ⟨before, after, whole, front, back, -, -⟩ := exists_trim text
  rw [whole, List.mem_append, List.mem_append] at member
  rcases member with (early | inside) | late
  · rw [front c early] at solid
    cases solid
  · exact inside
  · rw [back c late] at solid
    cases solid

/-- Trimming adds nothing. -/
theorem mem_of_mem_trim {text : Bytes} {c : UInt8} (member : c ∈ trim text) : c ∈ text := by
  obtain ⟨before, after, whole, -⟩ := exists_trim text
  rw [whole]
  exact List.mem_append_left _ (List.mem_append_right _ member)

/-- The pieces of a text between separators. A separator at the very end closes the piece
before it and opens none, and the empty text has no piece. -/
def pieces (separator : UInt8) : Bytes → List Bytes
  | [] => []
  | c :: rest =>
    if c = separator then [] :: pieces separator rest
    else
      match pieces separator rest with
      | [] => [[c]]
      | piece :: others => (c :: piece) :: others

/-- The lines of a text, without their line feeds. -/
def lines (text : Bytes) : List Bytes := pieces Byte.newline text

/-- A line without the carriage return that may end it. -/
def stripReturn (line : Bytes) : Bytes :=
  if line.getLast? = some Byte.carriageReturn then line.dropLast else line

/-- No piece holds the separator. -/
theorem not_mem_of_mem_pieces {separator : UInt8} {text piece : Bytes}
    (found : piece ∈ pieces separator text) : separator ∉ piece := by
  induction text generalizing piece with
  | nil => simp [pieces] at found
  | cons c rest ih =>
    by_cases same : c = separator
    · simp only [pieces, if_pos same, List.mem_cons] at found
      rcases found with rfl | found
      · simp
      · exact ih found
    · simp only [pieces, if_neg same] at found
      split at found
      · simp only [List.mem_singleton] at found
        subst found
        simpa using Ne.symm same
      · next first others cut =>
        simp only [List.mem_cons] at found
        rcases found with rfl | found
        · have : separator ∉ first := ih (by simp [cut])
          simp [Ne.symm same, this]
        · exact ih (by simp [cut, found])

/-- A text that closes its first piece is cut behind it. -/
theorem pieces_append {separator : UInt8} {part : Bytes} (clean : separator ∉ part)
    (rest : Bytes) :
    pieces separator (part ++ separator :: rest) = part :: pieces separator rest := by
  induction part with
  | nil => rw [List.nil_append, pieces, if_pos rfl]
  | cons c others ih =>
    have other : c ≠ separator := fun same => clean (same ▸ List.mem_cons_self)
    have inner := ih fun member => clean (List.mem_cons_of_mem c member)
    rw [List.cons_append, pieces, if_neg other, inner]

/-- A text without a separator is one piece. -/
theorem pieces_of_not_mem {separator : UInt8} {part : Bytes} (clean : separator ∉ part)
    (filled : part ≠ []) : pieces separator part = [part] := by
  induction part with
  | nil => exact absurd rfl filled
  | cons c others ih =>
    have other : c ≠ separator := fun same => clean (same ▸ List.mem_cons_self)
    rw [pieces, if_neg other]
    by_cases last : others = []
    · rw [last, pieces]
    · rw [ih (fun member => clean (List.mem_cons_of_mem c member)) last]

/-- Cutting a text that closes each of its pieces gives those pieces. -/
theorem pieces_flatMap_append {separator : UInt8} (parts : List Bytes)
    (clean : ∀ part ∈ parts, separator ∉ part) :
    pieces separator (parts.flatMap (· ++ [separator])) = parts := by
  induction parts with
  | nil => rfl
  | cons part others ih =>
    have tail := ih fun p member => clean p (List.mem_cons_of_mem part member)
    rw [List.flatMap_cons, List.append_assoc, List.singleton_append,
      pieces_append (clean part List.mem_cons_self), tail]

/-- The text split at its first separator: what stands before it and what stands after it, if
it has one. -/
def cut? (separator : UInt8) : Bytes → Option (Bytes × Bytes)
  | [] => none
  | c :: rest =>
    if c = separator then some ([], rest)
    else (cut? separator rest).map fun (before, after) => (c :: before, after)

/-- A cut loses only its separator, and nothing before it holds one. -/
theorem cut?_eq_some {separator : UInt8} {text before after : Bytes} :
    cut? separator text = some (before, after) ↔
      text = before ++ separator :: after ∧ separator ∉ before := by
  induction text generalizing before with
  | nil => simp [cut?]
  | cons c rest ih =>
    by_cases same : c = separator
    · subst same
      cases before with
      | nil => simp [cut?]
      | cons d front => simp +contextual [cut?, eq_comm]
    · cases before with
      | nil => simp [cut?, same]
      | cons d front =>
        simp only [cut?, if_neg same, Option.map_eq_some_iff, Prod.exists, Prod.mk.injEq,
          List.cons.injEq, List.cons_append, List.mem_cons, not_or]
        constructor
        · rintro ⟨first, second, found, ⟨rfl, rfl⟩, rfl⟩
          obtain ⟨rfl, clean⟩ := ih.mp found
          exact ⟨⟨rfl, rfl⟩, fun h => same h.symm, clean⟩
        · rintro ⟨⟨rfl, rfl⟩, _, clean⟩
          exact ⟨front, after, ih.mpr ⟨rfl, clean⟩, ⟨rfl, rfl⟩, rfl⟩

/-- What remains of a text after an opening that it starts with. -/
def stripStart? : Bytes → Bytes → Option Bytes
  | [], text => some text
  | _ :: _, [] => none
  | c :: opening, d :: text => if c = d then stripStart? opening text else none

/-- An opening is stripped exactly when the text is the opening and then the rest. -/
theorem stripStart?_eq_some {opening text rest : Bytes} :
    stripStart? opening text = some rest ↔ text = opening ++ rest := by
  induction opening generalizing text with
  | nil => simp [stripStart?, eq_comm]
  | cons c opening ih =>
    cases text with
    | nil => simp [stripStart?]
    | cons d text =>
      by_cases same : c = d
      · simp [stripStart?, same, ih]
      · simp [stripStart?, same, Ne.symm same]

/-- Texts joined with a separator between each two. -/
def joinWith (separator : Bytes) : List Bytes → Bytes
  | [] => []
  | [part] => part
  | part :: others => part ++ separator ++ joinWith separator others

/-- Texts that are not empty are the pieces of what joins them. -/
theorem pieces_joinWith {separator : UInt8} {parts : List Bytes}
    (clean : ∀ part ∈ parts, separator ∉ part) (filled : ∀ part ∈ parts, part ≠ []) :
    pieces separator (joinWith [separator] parts) = parts := by
  induction parts with
  | nil => rfl
  | cons part others ih =>
    have behind := ih (fun part member => clean part (List.mem_cons_of_mem _ member))
      fun part member => filled part (List.mem_cons_of_mem _ member)
    have first : separator ∉ part := clean part List.mem_cons_self
    cases others with
    | nil => exact pieces_of_not_mem first (filled part List.mem_cons_self)
    | cons next later =>
      rw [joinWith, List.append_assoc, List.singleton_append, pieces_append first, behind]
      exact List.cons_ne_nil next later

end GcodeSender
