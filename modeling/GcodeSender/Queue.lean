import GcodeSender.Controller.Response

/-!
# The command queue

The controller takes one command at a time. The queue holds the commands that wait, up to a
capacity, and the one that was sent and is not answered. A response to it makes its result; a
command that is not answered in time is reported and never sent again; an alarm pauses the
queue until it is resumed. The main statements are that a refused command changes nothing but
the last fault and the reports, and that nothing leaves a queue that is paused or waits for an
answer.
-/
namespace GcodeSender

/-- How a queue is set up. -/
structure QueueSettings where
  /-- How many commands may wait. -/
  capacity : Nat := 128
  /-- How long a command may stay unanswered, in milliseconds. -/
  timeLimit : Int := 5000
  /-- Report every command. -/
  verbose : Bool := false
deriving DecidableEq, Repr

/-- A queue needs room and patience. -/
def QueueSettings.isValid (settings : QueueSettings) : Bool :=
  decide (0 < settings.capacity) && decide (0 < settings.timeLimit)

/-- A command that waits. -/
structure PendingCommand where
  /-- Its number in the order of arrival. -/
  id : Nat
  /-- Its line. -/
  text : Bytes
deriving DecidableEq, Repr

/-- A command that was sent and is not answered. -/
structure SentCommand where
  /-- Its number in the order of arrival. -/
  id : Nat
  /-- Its line. -/
  text : Bytes
  /-- When it was sent. -/
  sentAt : Int
deriving DecidableEq, Repr

/-- How a command ended. -/
inductive Outcome where
  /-- The controller carried it out. -/
  | acked
  /-- The controller refused it. -/
  | refused (complaint : Complaint)
  /-- An alarm ended it. -/
  | alarmed (complaint : Complaint)
  /-- The controller started anew. -/
  | reset
  /-- It could not be sent. -/
  | notSent (reason : Bytes)
  /-- No answer came in so many milliseconds. -/
  | timedOut (timeLimit : Int)
deriving DecidableEq

namespace Outcome

/-- The name of the state that an outcome leaves a command in. -/
def stateName : Outcome → Bytes
  | acked => ascii "Acked"
  | timedOut _ => ascii "TimedOut"
  | _ => ascii "Failed"

/-- The code of an error. -/
def errorCode? : Outcome → Option Int
  | refused complaint => some complaint.number
  | _ => none

/-- The code of an alarm. -/
def alarmCode? : Outcome → Option Int
  | alarmed complaint => some complaint.number
  | _ => none

/-- The words of an outcome. -/
def message : Outcome → Bytes
  | acked => ascii "ok"
  | refused complaint => (Response.error complaint).message
  | alarmed complaint => (Response.alarm complaint).message
  | reset => ascii "Controller reset"
  | notSent reason => reason
  | timedOut timeLimit =>
    ascii "No response within " ++ Decimal.signedDigits timeLimit ++ ascii " ms"

end Outcome

/-- The outcome of one command. -/
structure CommandResult where
  /-- The number of the command. -/
  id : Nat
  /-- Its line. -/
  text : Bytes
  /-- How it ended. -/
  outcome : Outcome
  /-- The time from sending it to its end, in milliseconds. -/
  latency : Int
deriving DecidableEq

/-- What a queue does, pauses apart. -/
inductive QueueActivity where
  /-- Nothing waits and nothing is sent. -/
  | idle
  /-- Commands wait and none is sent. -/
  | active
  /-- A command is sent and not answered. -/
  | waitingForAck
deriving DecidableEq, Repr

/-- What a queue has done so far. -/
structure QueueStats where
  /-- Commands taken in. -/
  queued : Nat := 0
  /-- Commands sent. -/
  sent : Nat := 0
  /-- Commands carried out. -/
  completed : Nat := 0
  /-- Commands that failed. -/
  failed : Nat := 0
  /-- Commands that were not answered in time. -/
  timedOut : Nat := 0
  /-- Commands dropped before they were sent. -/
  cleared : Nat := 0
  /-- The mean time to an answer of the commands carried out, in milliseconds. -/
  meanLatency : Float := 0
deriving DecidableEq

/-- Why a queue refuses something. -/
inductive QueueFault where
  /-- The settings allow no queue. -/
  | invalidSettings
  /-- A command has no text. -/
  | emptyCommand
  /-- The queue has no room left. -/
  | full (capacity : Nat)
  /-- A batch is larger than the room left. -/
  | batchTooLarge (size free : Nat)
deriving DecidableEq, Repr

/-- The words of a fault. -/
def QueueFault.message : QueueFault → Bytes
  | invalidSettings => ascii "Invalid queue configuration, using defaults"
  | emptyCommand => ascii "Refusing to enqueue an empty command"
  | full capacity =>
    ascii "Command queue full (" ++ Decimal.digits capacity ++ ascii " entries)"
  | batchTooLarge size free =>
    ascii "Batch of " ++ Decimal.digits size ++ ascii " commands exceeds free queue capacity (" ++
      Decimal.digits free ++ ascii ")"

/-- A line that a part of the program reports. -/
inductive Report where
  /-- A line about ordinary work. -/
  | notice (text : Bytes)
  /-- A line about trouble. -/
  | warning (text : Bytes)
deriving DecidableEq

/-- A command queue. -/
structure Queue where
  /-- How it is set up. -/
  settings : QueueSettings := {}
  /-- The commands that wait, the next one first. -/
  pending : List PendingCommand := []
  /-- The command that was sent and is not answered. -/
  inFlight : Option SentCommand := none
  /-- What it does, as last noted. Pausing notes nothing. -/
  activity : QueueActivity := .idle
  /-- No command is sent until it is resumed. -/
  paused : Bool := false
  /-- The number of the next command. -/
  nextId : Nat := 1
  /-- What it has done so far. -/
  stats : QueueStats := {}
  /-- The last thing it refused. -/
  lastFault : Option QueueFault := none
  /-- What it has reported, the latest first. -/
  reports : List Report := []
deriving DecidableEq

namespace Queue

/-! ## Reading the state -/

/-- How many more commands may wait. -/
def free (queue : Queue) : Nat := queue.settings.capacity - queue.pending.length

/-- A command can be sent now. -/
def canSend (queue : Queue) : Bool :=
  !queue.paused && queue.inFlight.isNone && !queue.pending.isEmpty

/-- Nothing waits and nothing is sent. -/
def isIdle (queue : Queue) : Bool := queue.inFlight.isNone && queue.pending.isEmpty

/-- The name of what the queue does. -/
def stateName (queue : Queue) : Bytes :=
  if queue.paused then ascii "Paused"
  else
    match queue.activity with
    | .idle => ascii "Idle"
    | .active => ascii "Active"
    | .waitingForAck => ascii "WaitingForAck"

/-- The activity that the commands of a queue call for. -/
def currentActivity (queue : Queue) : QueueActivity :=
  if queue.inFlight.isSome then .waitingForAck
  else if queue.pending.isEmpty then .idle
  else .active

/-! ## Changing the state -/

/-- Note what the queue does. -/
def noteActivity (queue : Queue) : Queue := { queue with activity := queue.currentActivity }

/-- Report a line. -/
def report (queue : Queue) (line : Report) : Queue :=
  { queue with reports := line :: queue.reports }

/-- Report a line if every command is reported. -/
def reportIfVerbose (queue : Queue) (text : Bytes) : Queue :=
  if queue.settings.verbose then queue.report (.notice text) else queue

/-- Refuse something. -/
def refuse (queue : Queue) (fault : QueueFault) : Queue :=
  { queue with lastFault := some fault }.report
    (.warning (ascii "CommandQueue Error: " ++ fault.message))

/-- A new queue. Settings that allow no queue are replaced by the default ones. -/
def create (settings : QueueSettings) : Queue :=
  if settings.isValid then { settings := settings } else ({} : Queue).refuse .invalidSettings

/-- The name of a command in reports. -/
def numberText (id : Nat) : Bytes := ascii "#" ++ Decimal.digits id

/-- The queue with one more command at its end. -/
def append (queue : Queue) (line : Bytes) : Queue :=
  { queue with
    pending := queue.pending ++ [⟨queue.nextId, line⟩]
    nextId := queue.nextId + 1
    stats := { queue.stats with queued := queue.stats.queued + 1 } }

/-- Take in a command, without the blanks at its ends. Gives its number, if it is taken. -/
def enqueue (queue : Queue) (text : Bytes) : Option Nat × Queue :=
  let line := trim text
  if line.isEmpty then (none, queue.refuse .emptyCommand)
  else if queue.settings.capacity ≤ queue.pending.length then
    (none, queue.refuse (.full queue.settings.capacity))
  else
    let id := queue.nextId
    let notice := ascii "CommandQueue: queued " ++ numberText id ++ ascii " " ++ line
    (some id, ((queue.append line).reportIfVerbose notice).noteActivity)

/-- Take in several commands, all of them or none. Gives their numbers, if they are taken. -/
def enqueueBatch (queue : Queue) (texts : List Bytes) : Option (List Nat) × Queue :=
  let lines := texts.map trim
  if lines.any (·.isEmpty) then (none, queue.refuse .emptyCommand)
  else if queue.settings.capacity < queue.pending.length + lines.length then
    (none, queue.refuse (.batchTooLarge lines.length queue.free))
  else
    let ids := (List.range lines.length).map (queue.nextId + ·)
    (some ids, (lines.foldl append queue).noteActivity)

/-- Take out the next command to send it, if one can be sent. -/
def dequeue (queue : Queue) (now : Int) : Option SentCommand × Queue :=
  match queue.pending with
  | next :: others =>
    if queue.canSend then
      let sent : SentCommand := ⟨next.id, next.text, now⟩
      let queue :=
        { queue with
          pending := others
          inFlight := some sent
          stats := { queue.stats with sent := queue.stats.sent + 1 } }
      (some sent, queue.noteActivity)
    else (none, queue)
  | [] => (none, queue)

/-- The mean of a number of latencies with one more. -/
def extendMean (mean : Float) (count : Nat) (latency : Int) : Float :=
  mean + (Float.ofInt latency - mean) / Float.ofNat (count + 1)

/-- The statistics with one more outcome. -/
def countOutcome (stats : QueueStats) (outcome : Outcome) (latency : Int) : QueueStats :=
  match outcome with
  | .acked =>
    { stats with
      meanLatency := extendMean stats.meanLatency stats.completed latency
      completed := stats.completed + 1 }
  | .timedOut _ => { stats with timedOut := stats.timedOut + 1 }
  | _ => { stats with failed := stats.failed + 1 }

/-- What is reported about a result, besides the note on every command. -/
def complaintOf (result : CommandResult) : Option Bytes :=
  let subject :=
    ascii "CommandQueue: command " ++ numberText result.id ++ ascii " '" ++ result.text
  match result.outcome with
  | .refused complaint =>
    some (subject ++ ascii "' failed with error:" ++ Decimal.signedDigits complaint.number)
  | .timedOut _ => some (subject ++ ascii "' timed out")
  | _ => none

/-- End the command that was sent, if there is one. Gives its result. -/
def finish (queue : Queue) (now : Int) (outcome : Outcome) : Option CommandResult × Queue :=
  match queue.inFlight with
  | none => (none, queue)
  | some sent =>
    let latency := now - sent.sentAt
    let result : CommandResult := ⟨sent.id, sent.text, outcome, latency⟩
    let notice := ascii "CommandQueue: " ++ numberText sent.id ++ ascii " " ++
      outcome.stateName ++ ascii " after " ++ Decimal.signedDigits latency ++ ascii " ms"
    let queue :=
      { queue with
        inFlight := none
        stats := countOutcome queue.stats outcome latency }
    let queue := queue.reportIfVerbose notice
    let queue :=
      match complaintOf result with
      | some complaint => queue.report (.warning complaint)
      | none => queue
    (some result, queue)

/-- The outcome that a response gives the command that was sent, if it ends it. -/
def outcomeOf : Response → Option Outcome
  | .ok => some .acked
  | .error complaint => some (.refused complaint)
  | .alarm complaint => some (.alarmed complaint)
  | .welcome _ _ => some .reset
  | .status _ | .setting _ _ | .feedback _ => none

/-- The queue after an alarm: it is paused. -/
def afterAlarm (queue : Queue) (response : Response) : Queue :=
  match response with
  | .alarm complaint =>
    { queue with paused := true }.report
      (.warning (ascii "CommandQueue: ALARM:" ++ Decimal.signedDigits complaint.number ++
        ascii " received, queue paused"))
  | _ => queue

/-- Take a response. Gives the result of the command that it ends, if it ends one. An alarm
pauses the queue. -/
def respond (queue : Queue) (now : Int) (response : Response) :
    Option CommandResult × Queue :=
  let (result, queue) :=
    match outcomeOf response with
    | some outcome => queue.finish now outcome
    | none => (none, queue)
  (result, (queue.afterAlarm response).noteActivity)

/-- End the command that was taken out and could not be sent, if there is one. -/
def failSend (queue : Queue) (now : Int) (reason : Bytes) : Option CommandResult × Queue :=
  match queue.inFlight with
  | none => (none, queue)
  | some _ =>
    let (result, queue) := queue.finish now (.notSent reason)
    (result, queue.noteActivity)

/-- End the command that was sent if it was not answered in time when the clock was checked. The
clock is read once more when it ends. -/
def expire (queue : Queue) (checked now : Int) : Option CommandResult × Queue :=
  match queue.inFlight with
  | none => (none, queue)
  | some sent =>
    if checked - sent.sentAt < queue.settings.timeLimit then (none, queue)
    else
      let (result, queue) := queue.finish now (.timedOut queue.settings.timeLimit)
      (result, queue.noteActivity)

/-- Send nothing until the queue is resumed. -/
def pause (queue : Queue) : Queue := { queue with paused := true }

/-- Go on sending. -/
def resume (queue : Queue) : Queue := { queue with paused := false }.noteActivity

/-- Pause if commands wait. Gives how many are held. -/
def pauseIfPending (queue : Queue) : Nat × Queue :=
  if queue.pending.isEmpty then (0, queue) else (queue.pending.length, queue.pause)

/-- Drop the commands that wait. Gives how many are dropped. -/
def clear (queue : Queue) : Nat × Queue :=
  let dropped := queue.pending.length
  let queue :=
    { queue with
      pending := []
      stats := { queue.stats with cleared := queue.stats.cleared + dropped } }
  (dropped, queue.noteActivity)

/-! ## Small facts -/

/-- A command without text is refused. -/
theorem enqueue_of_empty {queue : Queue} {text : Bytes} (blank : trim text = []) :
    queue.enqueue text = (none, queue.refuse .emptyCommand) := by
  simp [enqueue, blank]

/-- A refused command changes nothing but the last fault and the reports. -/
theorem eq_refuse_of_enqueue {queue next : Queue} {text : Bytes}
    (refused : queue.enqueue text = (none, next)) : ∃ fault, next = queue.refuse fault := by
  unfold enqueue at refused
  dsimp only at refused
  split at refused
  · exact ⟨_, (Prod.mk.inj refused).2.symm⟩
  · split at refused
    · exact ⟨_, (Prod.mk.inj refused).2.symm⟩
    · cases (Prod.mk.inj refused).1

/-- Nothing leaves a queue from which nothing can be sent. -/
theorem dequeue_of_not_canSend {queue : Queue} {now : Int} (held : queue.canSend = false) :
    queue.dequeue now = (none, queue) := by
  unfold dequeue
  split <;> simp [held]

/-- A paused queue can send nothing. -/
theorem canSend_of_paused {queue : Queue} (paused : queue.paused = true) :
    queue.canSend = false := by
  simp [canSend, paused]

/-- A queue that waits for an answer can send nothing. -/
theorem canSend_of_inFlight {queue : Queue} {sent : SentCommand}
    (waiting : queue.inFlight = some sent) : queue.canSend = false := by
  simp [canSend, waiting]

end Queue

end GcodeSender
