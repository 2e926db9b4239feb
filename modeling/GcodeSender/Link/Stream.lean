import GcodeSender.Decimal.Digits
import GcodeSender.Link.LineBuffer

/-!
# Links to a controller

A link carries bytes both ways while it is open. It keeps what was read beyond the last line,
also when it closes, until it is opened again. A serial port and a network address each have
settings that may be unusable before anything is opened. The main statement is that nothing is
written on a closed link.
-/
namespace GcodeSender

/-- Why a link fails. -/
inductive LinkFault where
  /-- Nothing can be written on a closed link. -/
  | writeOnClosed
  /-- The system refuses the bytes. -/
  | writeFailed (reason : Bytes)
  /-- A line is too long. -/
  | lineTooLong
  /-- The settings name no serial port. -/
  | invalidSerialSettings
  /-- The serial port cannot be opened. -/
  | cannotOpenPort (port reason : Bytes)
  /-- The speed is none that ports have. -/
  | unsupportedSpeed (speed : Int)
  /-- The port is no terminal. -/
  | noTerminal (reason : Bytes)
  /-- The settings name no network address. -/
  | invalidTelnetSettings
  /-- The network gives no connection. -/
  | cannotDial (reason : Bytes)
deriving DecidableEq, Repr

/-- The words of a fault. -/
def LinkFault.message : LinkFault → Bytes
  | writeOnClosed => ascii "Write on closed connection"
  | writeFailed reason => ascii "Write failed: " ++ reason
  | lineTooLong =>
    ascii "Received line exceeds " ++ Decimal.digits LineBuffer.limit ++
      ascii " bytes without a terminator"
  | invalidSerialSettings => ascii "Invalid serial configuration"
  | cannotOpenPort port reason =>
    ascii "Failed to open serial port: " ++ port ++ ascii " Error: " ++ reason
  | unsupportedSpeed speed => ascii "Unsupported baud rate: " ++ Decimal.signedDigits speed
  | noTerminal reason => ascii "Failed to get serial attributes: " ++ reason
  | invalidTelnetSettings => ascii "Invalid telnet configuration"
  | cannotDial reason => reason

/-- A link, as far as its own state goes. -/
structure StreamLink where
  /-- The link is open. -/
  isOpen : Bool := false
  /-- Bytes read beyond the last line. -/
  buffer : Bytes := []
  /-- The last failure. -/
  lastFault : Option LinkFault := none
deriving DecidableEq, Repr

namespace StreamLink

/-- Open the link on a new stream. -/
def attach (link : StreamLink) : StreamLink := { link with isOpen := true, buffer := [] }

/-- Close the link. -/
def detach (link : StreamLink) : StreamLink := { link with isOpen := false }

/-- Note a failure. -/
def fail (link : StreamLink) (fault : LinkFault) : StreamLink :=
  { link with lastFault := some fault }

/-- Write bytes, given the reason for which the system refuses them, if it does. No bytes are
never refused on an open link. -/
def write (link : StreamLink) (data : Bytes) (refusal : Option Bytes) : Bool × StreamLink :=
  if !link.isOpen then (false, link.fail .writeOnClosed)
  else
    match data, refusal with
    | _ :: _, some reason => (false, link.fail (.writeFailed reason))
    | _, _ => (true, link)

/-- Read a line. A closed link gives the lines that it has and then its end. -/
def readLine (link : StreamLink) (arrivals : List Arrival) :
    ReadOutcome × StreamLink × List Arrival :=
  let (outcome, buffer, later) :=
    if link.isOpen then LineBuffer.read link.buffer arrivals
    else
      match LineBuffer.takeLine? link.buffer with
      | some (line, rest) => (.line line, rest, arrivals)
      | none => (.closed, link.buffer, arrivals)
  let link := { link with buffer := buffer }
  (outcome, if outcome = .lineTooLong then link.fail .lineTooLong else link, later)

/-- Nothing is written on a closed link. -/
theorem write_of_not_isOpen {link : StreamLink} {data : Bytes} {refusal : Option Bytes}
    (shut : link.isOpen = false) :
    link.write data refusal = (false, link.fail .writeOnClosed) := by
  simp [write, shut]

end StreamLink

/-- What the system says when a serial port is opened. -/
inductive SerialDevice where
  /-- The port cannot be opened. -/
  | closed (reason : Bytes)
  /-- What opens is no terminal. -/
  | noTerminal (reason : Bytes)
  /-- The port opens. -/
  | terminal
deriving DecidableEq, Repr

/-- How a serial port is set up. -/
structure SerialSettings where
  /-- The path of the port. -/
  port : Bytes
  /-- Its speed in bits per second. -/
  speed : Int := 115200
deriving DecidableEq, Repr

namespace SerialSettings

/-- A port has a name and a positive speed. -/
def isValid (settings : SerialSettings) : Bool :=
  !settings.port.isEmpty && decide (0 < settings.speed)

/-- The speeds that ports have. -/
def speeds : List Int := [9600, 19200, 38400, 57600, 115200, 230400]

/-- The name of the link. -/
def description (settings : SerialSettings) : Bytes :=
  ascii "Serial " ++ settings.port ++ ascii " @ " ++ Decimal.signedDigits settings.speed

/-- Why the port cannot be used, if it cannot. -/
def fault? (settings : SerialSettings) (device : SerialDevice) : Option LinkFault :=
  if !settings.isValid then some .invalidSerialSettings
  else
    match device with
    | .closed reason => some (.cannotOpenPort settings.port reason)
    | .noTerminal reason =>
      if settings.speed ∈ speeds then some (.noTerminal reason)
      else some (.unsupportedSpeed settings.speed)
    | .terminal =>
      if settings.speed ∈ speeds then none else some (.unsupportedSpeed settings.speed)

/-- Open a link on the port, given what the system says. -/
def connect (settings : SerialSettings) (device : SerialDevice) (link : StreamLink) :
    Bool × StreamLink :=
  if link.isOpen then (true, link)
  else
    match settings.fault? device with
    | some fault => (false, link.fail fault)
    | none => (true, link.attach)

end SerialSettings

/-- A network address. -/
structure TelnetSettings where
  /-- The name or number of the host. -/
  host : Bytes
  /-- The port. -/
  port : Nat := 23
deriving DecidableEq, Repr

namespace TelnetSettings

/-- An address has a host and a positive port. -/
def isValid (settings : TelnetSettings) : Bool :=
  !settings.host.isEmpty && decide (0 < settings.port)

/-- The name of the link. -/
def description (settings : TelnetSettings) : Bytes :=
  ascii "Telnet " ++ settings.host ++ ascii ":" ++ Decimal.digits settings.port

/-- Open a link to the address, given the reason for which the network refuses it, if it
does. -/
def connect (settings : TelnetSettings) (refusal : Option Bytes) (link : StreamLink) :
    Bool × StreamLink :=
  if link.isOpen then (true, link)
  else if !settings.isValid then (false, link.fail .invalidTelnetSettings)
  else
    match refusal with
    | some reason => (false, link.fail (.cannotDial reason))
    | none => (true, link.attach)

end TelnetSettings

end GcodeSender
