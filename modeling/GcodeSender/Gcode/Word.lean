import GcodeSender.Decimal.Digits
import GcodeSender.Gcode.Modal

/-!
# Words of a block

A command word is one of the letters G, M and T with a code. Each supported G or M word
belongs to a modal group, and two words of one group may not stand in a block. What a word
asks for is read off the word itself, so the order of words on a line does not matter.
-/
namespace GcodeSender

/-- The letters of command words. -/
inductive CommandLetter where
  | g
  | m
  | t
deriving DecidableEq, Repr

namespace CommandLetter

/-- The byte of a letter. -/
def byte : CommandLetter → UInt8
  | g => 0x47
  | m => 0x4D
  | t => 0x54

/-- The letter of a byte. -/
def ofByte? (c : UInt8) : Option CommandLetter :=
  if c = byte g then some g else if c = byte m then some m else if c = byte t then some t else none

end CommandLetter

/-- A command word such as `G38.2`. -/
structure Word where
  /-- Its letter. -/
  letter : CommandLetter
  /-- The whole part of its number. -/
  code : Nat
  /-- The digit after its point, unless that is absent or zero. -/
  sub : Option Nat
deriving DecidableEq, Repr

/-- The modal groups. Words of one group exclude each other. -/
inductive ModalGroup where
  | motion
  | plane
  | distance
  | arcDistance
  | feedMode
  | units
  | coordinateSystem
  | pathControl
  | toolLength
  | nonModal
  | programFlow
  | spindle
  | coolant
  | toolChange
deriving DecidableEq, Repr

namespace Word

/-- The word as it is written. -/
def text (word : Word) : Bytes :=
  word.letter.byte :: Decimal.digits word.code ++
    match word.sub with
    | some digit => Byte.dot :: Decimal.digits digit
    | none => []

/-- The modal group of a supported G or M word. Tool words belong to none. -/
def group? (word : Word) : Option ModalGroup :=
  match word.letter, word.sub with
  | .g, none =>
    match word.code with
    | 0 | 1 | 2 | 3 | 80 => some .motion
    | 17 | 18 | 19 => some .plane
    | 20 | 21 => some .units
    | 90 | 91 => some .distance
    | 93 | 94 => some .feedMode
    | 54 | 55 | 56 | 57 | 58 | 59 => some .coordinateSystem
    | 61 => some .pathControl
    | 49 => some .toolLength
    | 4 | 10 | 28 | 30 | 53 | 92 => some .nonModal
    | _ => none
  | .g, some 1 =>
    match word.code with
    | 28 | 30 | 92 => some .nonModal
    | 91 => some .arcDistance
    | 43 => some .toolLength
    | _ => none
  | .m, none =>
    match word.code with
    | 0 | 1 | 2 | 30 => some .programFlow
    | 3 | 4 | 5 => some .spindle
    | 6 => some .toolChange
    | 7 | 8 | 9 => some .coolant
    | _ => none
  | _, _ => none

/-- The G word of a code. -/
abbrev g (code : Nat) : Word := ⟨.g, code, none⟩

/-- The G word of a code with a digit after the point. -/
abbrev gSub (code digit : Nat) : Word := ⟨.g, code, some digit⟩

/-- The M word of a code. -/
abbrev m (code : Nat) : Word := ⟨.m, code, none⟩

/-- The motion that a word selects. -/
def motion? (word : Word) : Option Motion :=
  if word = g 0 then some .rapid
  else if word = g 1 then some .linear
  else if word = g 2 then some .clockwise
  else if word = g 3 then some .counterclockwise
  else none

/-- The plane that a word selects. -/
def plane? (word : Word) : Option Plane :=
  if word = g 17 then some .xy
  else if word = g 18 then some .zx
  else if word = g 19 then some .yz
  else none

/-- The unit that a word selects. -/
def unit? (word : Word) : Option LengthUnit :=
  if word = g 20 then some .inch else if word = g 21 then some .mm else none

/-- The distance mode that a word selects. -/
def distance? (word : Word) : Option DistanceMode :=
  if word = g 90 then some .absolute else if word = g 91 then some .incremental else none

/-- The feed mode that a word selects. -/
def feedMode? (word : Word) : Option FeedMode :=
  if word = g 93 then some .inverseTime else if word = g 94 then some .perMinute else none

/-- The coordinate system that a word selects. -/
def coordinateSystem? (word : Word) : Option CoordinateSystem :=
  if word = g 54 then some .g54
  else if word = g 55 then some .g55
  else if word = g 56 then some .g56
  else if word = g 57 then some .g57
  else if word = g 58 then some .g58
  else if word = g 59 then some .g59
  else none

/-- The state of the spindle that a word asks for. -/
def spindle? (word : Word) : Option Spindle :=
  if word = m 3 then some .clockwise
  else if word = m 4 then some .counterclockwise
  else if word = m 5 then some .off
  else none

/-- The tool that a word selects. -/
def tool? (word : Word) : Option Nat :=
  match word.letter with
  | .t => some word.code
  | _ => none

/-- The coolant after a word: M7 and M8 add a kind, M9 ends both. -/
def applyCoolant (coolant : Coolant) (word : Word) : Coolant :=
  if word = m 7 then { coolant with mist := true }
  else if word = m 8 then { coolant with flood := true }
  else if word = m 9 then .off
  else coolant

/-- The word is G80, which ends the active motion. -/
def cancelsMotion (word : Word) : Bool := word == g 80

/-- The word takes the axis words of its block for itself. -/
def claimsAxes (word : Word) : Bool :=
  word == g 10 || word == g 28 || word == g 30 || word == g 92 || word == gSub 43 1

/-- The word means nothing without an axis word. -/
def needsAxes (word : Word) : Bool := word == g 92 || word == gSub 43 1

/-- The word goes to or stores a reference point, or sets or clears the offset. -/
def isReference (word : Word) : Bool :=
  word == g 28 || word == g 30 || word == g 92 ||
    word == gSub 28 1 || word == gSub 30 1 || word == gSub 92 1

/-- The word belongs to a change of tool. -/
def changesTool (word : Word) : Bool := word.letter == .t || word == m 6

/-- The word ends the program. -/
def endsProgram (word : Word) : Bool := word == m 2 || word == m 30

end Word

/-- The letters of the words that carry a value. -/
inductive Letter where
  | x
  | y
  | z
  | i
  | j
  | k
  | r
  | f
  | s
  | p
  | l
deriving DecidableEq, Repr

namespace Letter

/-- All letters. -/
def all : List Letter := [x, y, z, i, j, k, r, f, s, p, l]

/-- The byte of a letter. -/
def byte : Letter → UInt8
  | x => 0x58
  | y => 0x59
  | z => 0x5A
  | i => 0x49
  | j => 0x4A
  | k => 0x4B
  | r => 0x52
  | f => 0x46
  | s => 0x53
  | p => 0x50
  | l => 0x4C

/-- The letter of a byte. -/
def ofByte? (c : UInt8) : Option Letter := all.find? (·.byte = c)

/-- The letter of a coordinate along an axis. -/
def ofAxis : Axis → Letter
  | .x => x
  | .y => y
  | .z => z

/-- The letter of the distance from the start of an arc to its center, along an axis. -/
def ofCenter : Axis → Letter
  | .x => i
  | .y => j
  | .z => k

/-- A letter is found by its byte. -/
theorem ofByte?_byte (letter : Letter) : ofByte? letter.byte = some letter := by
  cases letter <;> decide

end Letter

/-- The values that the letters of a block carry. -/
abbrev Parameters := Letter → Option Float

namespace Parameters

/-- No value. -/
def empty : Parameters := fun _ => none

/-- A block gives a value to a letter. -/
def has (parameters : Parameters) (letter : Letter) : Bool := (parameters letter).isSome

/-- The values with one more. -/
def insert (parameters : Parameters) (letter : Letter) (value : Float) : Parameters :=
  fun other => if other = letter then some value else parameters other

/-- Some axis has a coordinate. -/
def hasAxes (parameters : Parameters) : Bool :=
  parameters.has .x || parameters.has .y || parameters.has .z

/-- Some axis has a distance to the center of an arc. -/
def hasCenter (parameters : Parameters) : Bool :=
  parameters.has .i || parameters.has .j || parameters.has .k

/-- The letters that have a value, with their values. -/
def toList (parameters : Parameters) : List (Letter × Float) :=
  Letter.all.filterMap fun letter => (parameters letter).map (letter, ·)

end Parameters

end GcodeSender
