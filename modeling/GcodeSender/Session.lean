import GcodeSender.Controller.Command
import GcodeSender.ProgramRun
import GcodeSender.Session.Event
import GcodeSender.Toolpath.Printer

/-!
# Sessions with a controller

A session owns a link and a command queue. While it is connected it handles the lines that
arrive, sends the queued commands one at a time, and asks for the status now and then. Each of
these, and each request of its user, is one step on the state of the session; what the link does
is told to the step. A link that fails ends the session: the command on its way fails, the
commands that wait are held, and the failure is published once. The main statement is that a
session that does not run receives nothing, sends nothing and has no failure of its link.
-/
namespace GcodeSender

/-- How a session is set up. Times are in milliseconds. -/
structure SessionSettings where
  /-- How long opening the link may take. -/
  connectTime : Int := 5000
  /-- The time between two status queries. -/
  pollTime : Int := 250
  /-- How long one read waits. -/
  receiveTime : Int := 100
  /-- How long sending waits for a command. -/
  sendTime : Int := 50
  /-- Ask for the status now and then. -/
  polls : Bool := true
  /-- How many items the mailbox of a subscriber holds. -/
  mailboxCapacity : Nat := 100
  /-- How the queue is set up. -/
  queue : QueueSettings := {}
deriving DecidableEq, Repr

/-- A session needs patience everywhere, mailboxes and a queue. -/
def SessionSettings.isValid (settings : SessionSettings) : Bool :=
  decide (0 < settings.connectTime) && decide (0 < settings.pollTime) &&
    decide (0 < settings.receiveTime) && decide (0 < settings.sendTime) &&
    decide (0 < settings.mailboxCapacity) && settings.queue.isValid

/-- What a read from the link gives a session. -/
inductive Received where
  /-- A line. -/
  | line (text : Bytes)
  /-- The end of the stream. -/
  | closed
  /-- A failure. -/
  | failed (reason : Bytes)
deriving DecidableEq, Repr

/-- A session with a controller. -/
structure Session where
  /-- How it is set up. -/
  settings : SessionSettings := {}
  /-- The name of its transport, if it has one. -/
  transport : Option Bytes := none
  /-- Its command queue. -/
  queue : Queue := {}
  /-- How it stands with its link. -/
  linkState : LinkState := .disconnected
  /-- Its loops run. -/
  running : Bool := false
  /-- The last status report since the link was opened. -/
  latestStatus : Option Status := none
  /-- The machine state of that report. -/
  machineState : MachineState := .unknown
  /-- The run of the program that was queued last. -/
  run : ProgramRun := {}
  /-- The override percentages, as far as they are known. -/
  overrides : Overrides := {}
  /-- The settings that the controller has listed, each with its last value. -/
  listedSettings : List (Int × Bytes) := []
  /-- The last thing that was refused or failed. -/
  lastFault : Option SessionFault := none
  /-- What was published and written, the latest first. -/
  record : List Notice := []
deriving DecidableEq

namespace Session

/-- A new session on a transport. -/
def create (settings : SessionSettings) (transport : Option Bytes) : Session :=
  { settings := settings, transport := transport, queue := .create settings.queue }

/-- The name of the transport. -/
def description (session : Session) : Bytes := session.transport.getD (ascii "No transport")

/-- The link is open. -/
def isConnected (session : Session) : Bool := session.linkState == .connected

/-! ## Publishing -/

/-- Enter something into the record. -/
def note (session : Session) (notice : Notice) : Session :=
  { session with record := notice :: session.record }

/-- Publish an event, stamped with how the session stands with its link. -/
def announce (session : Session) (happening : Happening) : Session :=
  session.note (.event ⟨happening, session.linkState⟩)

/-- Refuse something. -/
def refuse (session : Session) (fault : SessionFault) : Session :=
  { session with lastFault := some fault }

/-- Publish the result of a command and count it for the program. -/
def publishResult (session : Session) (now : Int) (result : CommandResult) : Session :=
  let session := session.note (.result result)
  let (finished, run) := session.run.recordResult result.id result.outcome now
  let session := { session with run := run }
  if finished then session.announce (.programFinished (run.failed == 0)) else session

/-- Put in the queue after a step of its own, and publish the result that the step gave. -/
def settleQueue (session : Session) (now : Int) (step : Option CommandResult × Queue) :
    Session :=
  let session := { session with queue := step.2 }
  match step.1 with
  | some result => session.publishResult now result
  | none => session

/-- Hold the commands that wait, so that none is sent in a later session unasked. -/
def holdPending (session : Session) : Session :=
  { session with queue := session.queue.pauseIfPending.2 }

/-! ## The life of a link -/

/-- End the session because its link fails. Only the first failure counts. -/
def failLink (session : Session) (now : Int) (fault : SessionFault) : Session :=
  if session.running then
    let session :=
      { session with running := false, lastFault := some fault, linkState := .error }
    let session := session.settleQueue now (session.queue.failSend now fault.message)
    session.holdPending.announce (.failed fault)
  else session

/-- Open the link, given the reason for which the transport refuses it, if it does. A session
that is connected stays as it is. -/
def connect (session : Session) (refusal : Option Bytes) : Bool × Session :=
  if session.isConnected then (true, session)
  else
    match session.transport with
    | none => (false, session.refuse .noTransport)
    | some description =>
      if !session.settings.isValid then (false, session.refuse .invalidSettings)
      else
        match refusal with
        | some reason =>
          let fault := SessionFault.connectFailed reason
          let session :=
            { session with running := false, linkState := .error, lastFault := some fault }
          (false, session.announce (.failed fault))
        | none =>
          let session :=
            { session with
              running := true
              linkState := .connected
              overrides := {}
              latestStatus := none
              machineState := .unknown }
          (true, session.announce (.connected description))

/-- Close the link. A command on its way fails and the commands that wait are held. -/
def disconnect (session : Session) (now : Int) : Session :=
  let previous := session.linkState
  let session := { session with running := false }
  let session := session.settleQueue now
    (session.queue.failSend now (ascii "Disconnected"))
  let session := session.holdPending
  if previous = .disconnected then session
  else { session with linkState := .disconnected }.announce .disconnected

/-! ## Requests -/

/-- Write a real-time command at once, given the reason for which the link refuses it, if it
does. -/
def sendRealtime (session : Session) (now : Int) (command : RealtimeCommand)
    (refusal : Option Bytes) : Bool × Session :=
  if !session.isConnected then (false, session.refuse .notConnected)
  else
    match refusal with
    | some reason => (false, session.failLink now (.writeFailed reason))
    | none =>
      let session := session.note (.wrote [command.byte])
      (true, { session with overrides := session.overrides.apply command })

/-- Put in the queue after it took or refused something. -/
def takeQueue {α : Type} (session : Session) (step : Option α × Queue) :
    Option α × Session :=
  let session := { session with queue := step.2 }
  match step.1, step.2.lastFault with
  | none, some fault => (none, session.refuse (.queue fault))
  | answer, _ => (answer, session)

/-- Queue a command. Gives its number, if it is taken. -/
def sendCommand (session : Session) (command : ControllerCommand) : Option Nat × Session :=
  if !session.isConnected then (none, session.refuse .notConnected)
  else session.takeQueue (session.queue.enqueue command.line)

/-- Queue a line. Gives its number, if it is taken. -/
def sendLine (session : Session) (line : Bytes) : Option Nat × Session :=
  session.sendCommand (.gcode line)

/-- Queue the lines of a path, all of them or none, as the program to follow. Gives their
numbers, if they are taken. -/
def sendProgram (session : Session) (now : Int) (segments : List Segment) :
    Option (List Nat) × Session :=
  if !session.isConnected then (none, session.refuse .notConnected)
  else
    let (ids, session) := session.takeQueue (session.queue.enqueueBatch (printPath segments))
    match ids with
    | none => (none, session)
    | some ids => (some ids, { session with run := .start ids now })

/-- Send nothing until the session is resumed. -/
def pause (session : Session) : Session := { session with queue := session.queue.pause }

/-- Go on sending. -/
def resume (session : Session) : Session := { session with queue := session.queue.resume }

/-- Drop the commands that wait. If there are any, the program is stopped. Gives how many are
dropped. -/
def clear (session : Session) (now : Int) : Nat × Session :=
  let (dropped, queue) := session.queue.clear
  let run := if 0 < dropped then session.run.stop now else session.run
  (dropped, { session with queue := queue, run := run })

/-! ## Loops -/

/-- Note the value of a setting. -/
def listSetting (session : Session) (number : Int) (value : Bytes) : Session :=
  let others := session.listedSettings.filter (·.1 != number)
  { session with listedSettings := others ++ [(number, value)] }

/-- Note a status report and publish it, with the change of the machine state if there is
one. -/
def observeStatus (session : Session) (status : Status) : Session :=
  let previous := session.machineState
  let session :=
    { session with
      latestStatus := some status
      machineState := status.state
      overrides := status.overrides.getD session.overrides }
  let session := session.note (.status status)
  if previous = status.state then session
  else session.announce (.machineStateChanged previous status.state)

/-- Note what a response says about the controller. -/
def observe (session : Session) : Response → Session
  | .status status => session.observeStatus status
  | .setting number value => session.listSetting number value
  | .welcome version _ =>
    { session with overrides := {} }.announce (.controllerReset version)
  | .ok | .error _ | .alarm _ | .feedback _ => session

/-- Handle a line from the controller. An empty line is passed over. -/
def handleLine (session : Session) (now : Int) (line : Bytes) : Session :=
  if line.isEmpty then session
  else
    let response := Response.ofLine line
    let session := session.observe response
    let session := session.settleQueue now (session.queue.respond now response)
    session.note (.response (trim line) response)

/-- One step of receiving. -/
def receive (session : Session) (now : Int) (received : Received) : Session :=
  if !session.running then session
  else
    match received with
    | .line text => session.handleLine now text
    | .closed => session.failLink now .closedByController
    | .failed reason => session.failLink now (.readFailed reason)

/-- End the command that was sent if it was not answered in time when the clock was checked. -/
def expire (session : Session) (checked now : Int) : Session :=
  if session.running then session.settleQueue now (session.queue.expire checked now) else session

/-- Take out the next command to write it, if one can be sent. -/
def takeCommand (session : Session) (now : Int) : Option SentCommand × Session :=
  if session.running then
    let (command, queue) := session.queue.dequeue now
    (command, { session with queue := queue })
  else (none, session)

/-- Write a command that was taken out, given the reason for which the link refuses it, if it
does. -/
def writeCommand (session : Session) (now : Int) (command : SentCommand)
    (refusal : Option Bytes) : Session :=
  match refusal with
  | some reason =>
    let fault := SessionFault.writeFailed reason
    let session := session.settleQueue now (session.queue.failSend now fault.message)
    session.failLink now fault
  | none =>
    let session := session.note (.wrote (command.text ++ [Byte.newline]))
    { session with run := session.run.recordSent command.id }

/-- One step of sending: take out the next command and write it. -/
def sendNext (session : Session) (now : Int) (refusal : Option Bytes) : Session :=
  match session.takeCommand now with
  | (some command, session) => session.writeCommand now command refusal
  | (none, session) => session

/-- Ask for the status, given the reason for which the link refuses it, if it does. -/
def poll (session : Session) (now : Int) (refusal : Option Bytes) : Session :=
  if !session.running then session
  else
    match refusal with
    | some reason => session.failLink now (.pollFailed reason)
    | none => session.note (.wrote [RealtimeCommand.statusQuery.byte])

/-! ## Small facts -/

/-- Only the first failure of a link counts. -/
theorem failLink_of_not_running {session : Session} {now : Int} {fault : SessionFault}
    (ended : session.running = false) : session.failLink now fault = session := by
  simp [failLink, ended]

/-- A session that does not run receives nothing. -/
theorem receive_of_not_running {session : Session} {now : Int} {received : Received}
    (ended : session.running = false) : session.receive now received = session := by
  simp [receive, ended]

/-- A session that does not run sends nothing. -/
theorem sendNext_of_not_running {session : Session} {now : Int} {refusal : Option Bytes}
    (ended : session.running = false) : session.sendNext now refusal = session := by
  simp [sendNext, takeCommand, ended]

/-- A session that is connected is not connected anew. -/
theorem connect_of_isConnected {session : Session} {refusal : Option Bytes}
    (open_ : session.isConnected = true) : session.connect refusal = (true, session) := by
  simp [connect, open_]

end Session

end GcodeSender
