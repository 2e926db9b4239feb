import GcodeSender.Controller.Realtime
import GcodeSender.Decimal.Reader
import GcodeSender.Geometry

/-!
# Status reports

A status report stands between angle brackets: the state of the machine, then fields with a
key and a value, all with bars between them. A field that is unknown or malformed is passed
over; a report is refused only for its frame. The main statements are that states and keys are
found by their names and that a field with an unknown key changes nothing.
-/
namespace GcodeSender

/-- What the machine does. -/
inductive MachineState where
  | idle
  | run
  | hold
  | jog
  | alarm
  | door
  | check
  | home
  | sleep
  | unknown
deriving DecidableEq, Repr

namespace MachineState

/-- The states that a report can name. -/
def named : List MachineState := [idle, run, hold, jog, alarm, door, check, home, sleep]

/-- The name of a state. -/
def name : MachineState → Bytes
  | idle => ascii "Idle"
  | run => ascii "Run"
  | hold => ascii "Hold"
  | jog => ascii "Jog"
  | alarm => ascii "Alarm"
  | door => ascii "Door"
  | check => ascii "Check"
  | home => ascii "Home"
  | sleep => ascii "Sleep"
  | unknown => ascii "Unknown"

/-- The state of a name. -/
def ofName (text : Bytes) : MachineState := (named.find? (·.name = text)).getD unknown

/-- Every state is found by its name. -/
theorem ofName_name (state : MachineState) : ofName state.name = state := by
  cases state <;> decide

end MachineState

/-- The input pins. -/
inductive Pin where
  | limitX
  | limitY
  | limitZ
  | probe
  | door
  | hold
  | softReset
  | cycleStart
deriving DecidableEq, Repr

namespace Pin

/-- All pins. -/
def all : List Pin := [limitX, limitY, limitZ, probe, door, hold, softReset, cycleStart]

/-- The letter of a pin. -/
def letter : Pin → UInt8
  | limitX => 0x58
  | limitY => 0x59
  | limitZ => 0x5A
  | probe => 0x50
  | door => 0x44
  | hold => 0x48
  | softReset => 0x52
  | cycleStart => 0x53

end Pin

/-- What the accessory field reports. -/
inductive Accessory where
  | spindleClockwise
  | spindleCounterclockwise
  | flood
  | mist
deriving DecidableEq, Repr

namespace Accessory

/-- All accessories. -/
def all : List Accessory := [spindleClockwise, spindleCounterclockwise, flood, mist]

/-- The letter of an accessory. -/
def letter : Accessory → UInt8
  | spindleClockwise => 0x53
  | spindleCounterclockwise => 0x43
  | flood => 0x46
  | mist => 0x4D

end Accessory

/-- One status report. -/
structure Status where
  /-- What the machine does. -/
  state : MachineState := .unknown
  /-- The number after the state, if there is one. -/
  subState : Option Int := none
  /-- The position of the machine. -/
  machinePosition : Option Point := none
  /-- The position in the work coordinate system. -/
  workPosition : Option Point := none
  /-- What the work coordinate system adds. -/
  workOffset : Option Point := none
  /-- Free blocks of the planner. -/
  freeBlocks : Option Int := none
  /-- Free bytes of the receive buffer. -/
  freeBytes : Option Int := none
  /-- The feed rate. -/
  feed : Option Float := none
  /-- The spindle speed. -/
  spindleSpeed : Option Float := none
  /-- The override percentages. -/
  overrides : Option Overrides := none
  /-- The pins that are triggered, in a fixed order. -/
  pins : List Pin := []
  /-- The accessories that run, in a fixed order. -/
  accessories : List Accessory := []
  /-- The line number in work. -/
  lineNumber : Option Int := none
deriving DecidableEq

namespace Status

/-- The position in the work coordinate system, as reported or from the position of the machine
and what the system adds to it. -/
def resolvedWorkPosition (status : Status) : Option Point :=
  match status.workPosition, status.machinePosition, status.workOffset with
  | some position, _, _ => some position
  | none, some position, some offset => some (position.minus offset)
  | none, _, _ => none

/-- Three numbers with commas between them. More may follow and are not looked at. -/
def readPoint? (text : Bytes) : Option Point :=
  match pieces Byte.comma text with
  | x :: y :: z :: _ => do
    let x ← Decimal.readReal? x
    let y ← Decimal.readReal? y
    let z ← Decimal.readReal? z
    some ⟨x, y, z⟩
  | _ => none

/-- The keys of the fields. -/
inductive Key where
  | machinePosition
  | workPosition
  | workOffset
  | buffers
  | feedAndSpeed
  | feed
  | overrides
  | pins
  | accessories
  | lineNumber
deriving DecidableEq, Repr

namespace Key

/-- All keys. -/
def all : List Key :=
  [machinePosition, workPosition, workOffset, buffers, feedAndSpeed, feed, overrides, pins,
    accessories, lineNumber]

/-- The text of a key. -/
def name : Key → Bytes
  | machinePosition => ascii "MPos"
  | workPosition => ascii "WPos"
  | workOffset => ascii "WCO"
  | buffers => ascii "Bf"
  | feedAndSpeed => ascii "FS"
  | feed => ascii "F"
  | overrides => ascii "Ov"
  | pins => ascii "Pn"
  | accessories => ascii "A"
  | lineNumber => ascii "Ln"

/-- The key of a text. -/
def ofName? (text : Bytes) : Option Key := all.find? (·.name = text)

/-- A key is found by its text. -/
theorem ofName?_name (key : Key) : ofName? key.name = some key := by
  cases key <;> decide

end Key

/-- The free blocks and the free bytes. -/
def readBuffers? (text : Bytes) : Option (Int × Int) :=
  match pieces Byte.comma text with
  | [blocks, bytes] => do
    let blocks ← Decimal.readInteger? blocks
    let bytes ← Decimal.readInteger? bytes
    some (blocks, bytes)
  | _ => none

/-- The feed rate and the spindle speed. -/
def readFeedAndSpeed? (text : Bytes) : Option (Float × Float) :=
  match pieces Byte.comma text with
  | [feed, speed] => do
    let feed ← Decimal.readReal? feed
    let speed ← Decimal.readReal? speed
    some (feed, speed)
  | _ => none

/-- The override percentages. -/
def readOverrides? (text : Bytes) : Option Overrides :=
  match pieces Byte.comma text with
  | [feed, rapid, spindle] => do
    let feed ← Decimal.readInteger? feed
    let rapid ← Decimal.readInteger? rapid
    let spindle ← Decimal.readInteger? spindle
    some ⟨feed, rapid, spindle⟩
  | _ => none

/-- The pins that are in a list or have their letter in a text, in the fixed order. -/
def addPins (pins : List Pin) (text : Bytes) : List Pin :=
  Pin.all.filter fun pin => pins.contains pin || text.contains pin.letter

/-- The accessories that are in a list or have their letter in a text, in the fixed order. -/
def addAccessories (accessories : List Accessory) (text : Bytes) : List Accessory :=
  Accessory.all.filter fun accessory =>
    accessories.contains accessory || text.contains accessory.letter

/-- The status with the value of a key. A value that cannot be read changes nothing. -/
def put (status : Status) (key : Key) (value : Bytes) : Status :=
  match key with
  | .machinePosition =>
    (readPoint? value).elim status fun point => { status with machinePosition := some point }
  | .workPosition =>
    (readPoint? value).elim status fun point => { status with workPosition := some point }
  | .workOffset =>
    (readPoint? value).elim status fun point => { status with workOffset := some point }
  | .buffers =>
    (readBuffers? value).elim status fun (blocks, bytes) =>
      { status with freeBlocks := some blocks, freeBytes := some bytes }
  | .feedAndSpeed =>
    (readFeedAndSpeed? value).elim status fun (feed, speed) =>
      { status with feed := some feed, spindleSpeed := some speed }
  | .feed =>
    (Decimal.readReal? value).elim status fun feed => { status with feed := some feed }
  | .overrides =>
    (readOverrides? value).elim status fun overrides =>
      { status with overrides := some overrides }
  | .pins => { status with pins := addPins status.pins value }
  | .accessories => { status with accessories := addAccessories status.accessories value }
  | .lineNumber =>
    (Decimal.readInteger? value).elim status fun number =>
      { status with lineNumber := some number }

/-- The status with one more field. A field without a colon or with an unknown key changes
nothing. -/
def addField (status : Status) (field : Bytes) : Status :=
  match cut? Byte.colon field with
  | none => status
  | some (key, value) =>
    match Key.ofName? key with
    | none => status
    | some key => status.put key value

/-- The status of a state token such as `Hold:0`. -/
def ofStateToken (token : Bytes) : Status :=
  match cut? Byte.colon token with
  | none => { state := .ofName token }
  | some (name, sub) => { state := .ofName name, subState := Decimal.readInteger? sub }

/-- The text between the angle brackets of a report. -/
def unframe? (text : Bytes) : Option Bytes :=
  match text with
  | c :: rest =>
    if c = Byte.less ∧ rest.getLast? = some Byte.greater then some rest.dropLast else none
  | [] => none

/-- The status that a line reports, if it is a report. -/
def ofLine? (line : Bytes) : Option Status := do
  let inner ← unframe? (trim line)
  match pieces Byte.bar inner with
  | [] => none
  | token :: fields => some (fields.foldl addField (ofStateToken token))

/-- A field with an unknown key changes nothing. -/
theorem addField_of_unknown_key {status : Status} {field key value : Bytes}
    (split : cut? Byte.colon field = some (key, value)) (unknown : Key.ofName? key = none) :
    status.addField field = status := by
  simp [addField, split, unknown]

/-- A field without a colon changes nothing. -/
theorem addField_of_no_colon {status : Status} {field : Bytes}
    (whole : cut? Byte.colon field = none) : status.addField field = status := by
  simp [addField, whole]

end Status

end GcodeSender
