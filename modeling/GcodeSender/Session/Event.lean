import GcodeSender.Queue

/-!
# What a session publishes

A session tells its subscribers of four things: events, results of commands, responses as they
came, and status reports. Together with the bytes that are written to the controller they make
up the record of a session.
-/
namespace GcodeSender

/-- How a session stands with its link. -/
inductive LinkState where
  /-- The link is closed. -/
  | disconnected
  /-- The link is being opened. -/
  | connecting
  /-- The link is open. -/
  | connected
  /-- The link has failed. -/
  | error
deriving DecidableEq, Repr

namespace LinkState

/-- All states. -/
def all : List LinkState := [disconnected, connecting, connected, error]

/-- The name of a state. -/
def name : LinkState → Bytes
  | disconnected => ascii "DISCONNECTED"
  | connecting => ascii "CONNECTING"
  | connected => ascii "CONNECTED"
  | error => ascii "ERROR"

end LinkState

/-- Why a session refuses something or fails. -/
inductive SessionFault where
  /-- There is no transport to connect. -/
  | noTransport
  /-- The settings allow no session. -/
  | invalidSettings
  /-- The session is not connected. -/
  | notConnected
  /-- The link cannot be opened. -/
  | connectFailed (reason : Bytes)
  /-- The link does not take bytes. -/
  | writeFailed (reason : Bytes)
  /-- The link does not take a status query. -/
  | pollFailed (reason : Bytes)
  /-- The controller closed the link. -/
  | closedByController
  /-- Reading from the link failed. -/
  | readFailed (reason : Bytes)
  /-- The queue refuses a command. -/
  | queue (fault : QueueFault)
deriving DecidableEq, Repr

/-- The words of a fault. -/
def SessionFault.message : SessionFault → Bytes
  | noTransport => ascii "No transport configured"
  | invalidSettings => ascii "Invalid connection manager configuration"
  | notConnected => ascii "Not connected to CNC"
  | connectFailed reason => ascii "Connect failed: " ++ reason
  | writeFailed reason => ascii "Write failed: " ++ reason
  | pollFailed reason => ascii "Status poll failed: " ++ reason
  | closedByController => ascii "Connection closed by controller"
  | readFailed reason => ascii "Read failed: " ++ reason
  | queue fault => fault.message

/-- The kinds of events. -/
inductive EventKind where
  | connected
  | disconnected
  | error
  | controllerReset
  | machineStateChanged
  | programFinished
deriving DecidableEq, Repr

namespace EventKind

/-- All kinds. -/
def all : List EventKind :=
  [connected, disconnected, error, controllerReset, machineStateChanged, programFinished]

/-- The name of a kind. -/
def name : EventKind → Bytes
  | connected => ascii "CONNECTED"
  | disconnected => ascii "DISCONNECTED"
  | error => ascii "ERROR"
  | controllerReset => ascii "CONTROLLER_RESET"
  | machineStateChanged => ascii "MACHINE_STATE_CHANGED"
  | programFinished => ascii "PROGRAM_FINISHED"

end EventKind

/-- What happened. -/
inductive Happening where
  /-- The link was opened. -/
  | connected (description : Bytes)
  /-- The link was closed on request. -/
  | disconnected
  /-- The link could not be opened, or failed. -/
  | failed (fault : SessionFault)
  /-- The controller started anew. -/
  | controllerReset (version : Bytes)
  /-- A status report has another machine state than the one before. -/
  | machineStateChanged (previous current : MachineState)
  /-- Every line of the program is answered; none failed, or some did. -/
  | programFinished (succeeded : Bool)
deriving DecidableEq, Repr

namespace Happening

/-- The kind of a happening. -/
def kind : Happening → EventKind
  | connected _ => .connected
  | disconnected => .disconnected
  | failed _ => .error
  | controllerReset _ => .controllerReset
  | machineStateChanged _ _ => .machineStateChanged
  | programFinished _ => .programFinished

/-- The words of a happening. -/
def message : Happening → Bytes
  | connected description => description
  | disconnected => ascii "Disconnected"
  | failed fault => fault.message
  | controllerReset version => ascii "Grbl " ++ version
  | machineStateChanged previous current => previous.name ++ ascii " -> " ++ current.name
  | programFinished succeeded => if succeeded then ascii "Completed" else ascii "Error"

/-- The machine states before and after a change of them. -/
def machineStates : Happening → MachineState × MachineState
  | machineStateChanged previous current => (previous, current)
  | _ => (.unknown, .unknown)

end Happening

/-- An event: what happened, and how the session then stood with its link. -/
structure Event where
  /-- What happened. -/
  happening : Happening
  /-- How the session stood with its link. -/
  linkState : LinkState
deriving DecidableEq, Repr

/-- One entry of the record of a session. -/
inductive Notice where
  /-- An event was published. -/
  | event (event : Event)
  /-- The result of a command was published. -/
  | result (result : CommandResult)
  /-- A response was published, with its line. -/
  | response (line : Bytes) (response : Response)
  /-- A status report was published. -/
  | status (report : Status)
  /-- Bytes were written to the controller. -/
  | wrote (bytes : Bytes)
deriving DecidableEq

end GcodeSender
