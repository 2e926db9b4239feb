import GcodeSender.Proofs.Queue.Holding
import GcodeSender.Session

/-!
# Effects of a session's operations

A session changes its queue only by calls of it, and publishes every result that such a call
gives back. So each operation is described by the calls it makes and by the command lines it
writes (`Session.Makes`), and a history of the queue that follows a session (`History.Tracks`)
follows it through every operation. How the session stands with its link is described apart:
only opening, closing and a failure change it.
-/
namespace GcodeSender

namespace Notice

/-- The result that a notice publishes. -/
def result? : Notice → Option CommandResult
  | .result published => some published
  | _ => none

/-- The command line that a notice puts on the wire. A line feed ends every command line; a
real-time command is a single byte, and never that one. -/
def commandLine? : Notice → Option Bytes
  | .wrote bytes => if bytes.getLast? = some Byte.newline then some bytes else none
  | _ => none

/-- A real-time command is no command line. -/
theorem commandLine?_realtime (command : RealtimeCommand) :
    (wrote [command.byte]).commandLine? = none := by
  cases command <;> rfl

/-- The line of a command is a command line. -/
theorem commandLine?_line (text : Bytes) :
    (wrote (text ++ [Byte.newline])).commandLine? = some (text ++ [Byte.newline]) := by
  simp [commandLine?]

end Notice

namespace Session

variable {session middle next : Session} {calls more : List Queue.Call} {lines : List Bytes}

/-- How a session stands with its link, and whether its loops run. -/
def link (session : Session) : LinkState × Bool := (session.linkState, session.running)

/-- The results that were published, the earliest first. -/
def results (session : Session) : List CommandResult :=
  session.record.reverse.filterMap Notice.result?

/-- The command lines that were written, the earliest first. -/
def commandLines (session : Session) : List Bytes :=
  session.record.reverse.filterMap Notice.commandLine?

/-! ## What subscribers and the controller see -/

@[simp] theorem queue_note (notice : Notice) : (session.note notice).queue = session.queue := rfl

@[simp] theorem link_note (notice : Notice) : (session.note notice).link = session.link := rfl

@[simp] theorem results_note (notice : Notice) :
    (session.note notice).results = session.results ++ notice.result?.toList := by
  cases found : notice.result? <;> simp [note, results, found]

@[simp] theorem commandLines_note (notice : Notice) :
    (session.note notice).commandLines = session.commandLines ++ notice.commandLine?.toList := by
  cases found : notice.commandLine? <;> simp [note, commandLines, found]

@[simp] theorem link_announce (happening : Happening) :
    (session.announce happening).link = session.link := rfl

@[simp] theorem queue_publishResult (now : Int) (result : CommandResult) :
    (session.publishResult now result).queue = session.queue := by
  unfold publishResult
  dsimp only
  split <;> rfl

@[simp] theorem queue_settleQueue (now : Int) (step : Option CommandResult × Queue) :
    (session.settleQueue now step).queue = step.2 := by
  unfold settleQueue
  dsimp only
  split
  · exact queue_publishResult now _
  · rfl

@[simp] theorem link_publishResult (now : Int) (result : CommandResult) :
    (session.publishResult now result).link = session.link := by
  unfold publishResult
  dsimp only
  split <;> rfl

@[simp] theorem link_settleQueue (now : Int) (step : Option CommandResult × Queue) :
    (session.settleQueue now step).link = session.link := by
  unfold settleQueue
  dsimp only
  split
  · exact link_publishResult now _
  · rfl

@[simp] theorem run_publishResult (now : Int) (result : CommandResult) :
    (session.publishResult now result).run =
      (session.run.recordResult result.id result.outcome now).2 := by
  unfold publishResult
  dsimp only
  split <;> rfl

/-- Putting in the queue after an answer counts its result. -/
theorem run_settleQueue (now : Int) (step : Option CommandResult × Queue) :
    (session.settleQueue now step).run =
      step.1.elim session.run fun result =>
        (session.run.recordResult result.id result.outcome now).2 := by
  unfold settleQueue
  dsimp only
  cases step.1 with
  | none => rfl
  | some result => exact run_publishResult now result

@[simp] theorem link_holdPending : session.holdPending.link = session.link := rfl

@[simp] theorem link_observe (response : Response) :
    (session.observe response).link = session.link := by
  unfold observe
  split
  · unfold observeStatus
    dsimp only
    split <;> rfl
  all_goals rfl

@[simp] theorem link_handleLine (now : Int) (line : Bytes) :
    (session.handleLine now line).link = session.link := by
  unfold handleLine
  split
  · rfl
  · simp

@[simp] theorem link_takeQueue {α : Type} (step : Option α × Queue) :
    (session.takeQueue step).2.link = session.link := by
  unfold takeQueue
  dsimp only
  split <;> rfl

@[simp] theorem link_expire (checked now : Int) :
    (session.expire checked now).link = session.link := by
  unfold expire
  split
  · exact link_settleQueue now _
  · rfl

@[simp] theorem link_takeCommand (now : Int) :
    (session.takeCommand now).2.link = session.link := by
  unfold takeCommand
  split <;> rfl

end Session

/-! ## Calls of the queue -/

/-- A history ends in the queue of a session and has the results that the session published. -/
structure Queue.History.Tracks (history : Queue.History) (session : Session) : Prop where
  /-- The queue is that of the session. -/
  queue : history.queue = session.queue
  /-- The results are those that the session published. -/
  results : history.results = session.results

namespace Session

variable {session middle next : Session} {calls more : List Queue.Call}
  {lines others : List Bytes}

/-- A session changes by calls of its queue, whose results it publishes, and writes lines. -/
structure Makes (session : Session) (calls : List Queue.Call) (lines : List Bytes)
    (next : Session) : Prop where
  /-- What follows the session before follows it after the calls. -/
  tracks : ∀ history : Queue.History, history.Tracks session →
    (calls.foldl Queue.History.apply history).Tracks next
  /-- The lines are written after those before. -/
  lines : next.commandLines = session.commandLines ++ lines

/-- No call changes nothing. -/
theorem makes_self (session : Session) : session.Makes [] [] session :=
  ⟨fun _ tracked => tracked, (List.append_nil _).symm⟩

/-- Calls after calls. -/
theorem Makes.trans (first : session.Makes calls lines middle)
    (second : middle.Makes more others next) :
    session.Makes (calls ++ more) (lines ++ others) next := by
  refine ⟨fun history tracked => ?_, ?_⟩
  · rw [List.foldl_append]
    exact second.tracks _ (first.tracks history tracked)
  · rw [second.lines, first.lines, List.append_assoc]

/-- What follows calls without a call or a line of its own belongs to them. -/
theorem Makes.before (made : session.Makes calls lines middle) (still : middle.Makes [] [] next) :
    session.Makes calls lines next := by
  simpa using made.trans still

/-- What precedes calls without a call or a line of its own belongs to them. -/
theorem Makes.after (made : middle.Makes calls lines next) (still : session.Makes [] [] middle) :
    session.Makes calls lines next := still.trans made

/-- A change of anything but the queue and the record is no call. -/
theorem makes_of_eq (queue : next.queue = session.queue) (record : next.record = session.record) :
    session.Makes [] [] next := by
  refine ⟨fun history tracked => ⟨tracked.queue.trans queue.symm, tracked.results.trans ?_⟩, ?_⟩
  · rw [results, results, record]
  · rw [commandLines, commandLines, record, List.append_nil]

/-- An entry of the record that is neither a result nor a command line is no call. -/
theorem makes_note {notice : Notice} (result : notice.result? = none)
    (line : notice.commandLine? = none) : session.Makes [] [] (session.note notice) :=
  ⟨fun history tracked => ⟨tracked.queue, by simp [tracked.results, result]⟩, by simp [line]⟩

/-- An event is no call. -/
theorem makes_announce (session : Session) (happening : Happening) :
    session.Makes [] [] (session.announce happening) := makes_note rfl rfl

/-- Publishing a result publishes it once. -/
theorem results_publishResult (session : Session) (now : Int) (result : CommandResult) :
    (session.publishResult now result).results = session.results ++ [result] ∧
      (session.publishResult now result).commandLines = session.commandLines := by
  have noted : (session.note (.result result)).results = session.results ++ [result] := by
    simp [Notice.result?]
  have silent : (session.note (.result result)).commandLines = session.commandLines := by
    simp [Notice.commandLine?]
  unfold publishResult
  dsimp only
  split
  · have announced := makes_announce
      { session.note (.result result) with
        run := (session.run.recordResult result.id result.outcome now).2 }
      (.programFinished ((session.run.recordResult result.id result.outcome now).2.failed == 0))
    have tracked := announced.tracks
      { queue := session.queue, results := session.results ++ [result] } ⟨rfl, noted.symm⟩
    exact ⟨tracked.results.symm, announced.lines.trans ((List.append_nil _).trans silent)⟩
  · exact ⟨noted, silent⟩

/-- Putting in the queue after an answer is the call that gave the answer. -/
theorem makes_settleQueue {call : Queue.Call} (now : Int) (step : Option CommandResult × Queue)
    (answers : ∀ history : Queue.History, history.queue = session.queue →
      history.apply call = history.answered step) :
    session.Makes [call] [] (session.settleQueue now step) := by
  unfold settleQueue
  dsimp only
  cases given : step.1 with
  | none =>
    refine ⟨fun history tracked => ⟨?_, ?_⟩, (List.append_nil _).symm⟩
    · show (history.apply call).queue = _
      rw [answers history tracked.queue]
      rfl
    · show (history.apply call).results = session.results
      rw [answers history tracked.queue, Queue.History.answered, given, tracked.results]
      exact List.append_nil _
  | some result =>
    obtain ⟨published, silent⟩ :=
      results_publishResult { session with queue := step.2 } now result
    refine ⟨fun history tracked => ⟨?_, ?_⟩, silent.trans (List.append_nil _).symm⟩
    · show (history.apply call).queue = _
      rw [answers history tracked.queue, queue_publishResult]
      rfl
    · show (history.apply call).results = _
      rw [answers history tracked.queue, published, Queue.History.answered, given,
        tracked.results]
      rfl

/-- Ending the command that could not be sent is one call. -/
theorem makes_failSend (session : Session) (now : Int) (reason : Bytes) :
    session.Makes [.failSend now reason] []
      (session.settleQueue now (session.queue.failSend now reason)) :=
  makes_settleQueue now _ fun history same => by rw [← same]; rfl

/-- Taking a response is one call. -/
theorem makes_respond (session : Session) (now : Int) (response : Response) :
    session.Makes [.respond now response] []
      (session.settleQueue now (session.queue.respond now response)) :=
  makes_settleQueue now _ fun history same => by rw [← same]; rfl

/-- Another queue without a result is the call that gives it. -/
theorem makes_queue {call : Queue.Call} {queue : Queue}
    (gives : ∀ history : Queue.History, history.queue = session.queue →
      (history.apply call).queue = queue ∧ (history.apply call).results = history.results) :
    session.Makes [call] [] { session with queue := queue } := by
  refine ⟨fun history tracked => ?_, (List.append_nil _).symm⟩
  obtain ⟨changed, kept⟩ := gives history tracked.queue
  exact ⟨changed, kept.trans tracked.results⟩

/-- Holding the commands that wait is one call. -/
theorem makes_holdPending (session : Session) :
    session.Makes [.pauseIfPending] [] session.holdPending :=
  makes_queue fun history same => by rw [← same]; exact ⟨rfl, rfl⟩

/-! ## The operations -/

/-- A failure ends the command on its way and holds the commands that wait. -/
theorem makes_failLink (running : session.running = true) (now : Int) (fault : SessionFault) :
    session.Makes [.failSend now fault.message, .pauseIfPending] []
      (session.failLink now fault) := by
  unfold failLink
  rw [if_pos running]
  have ended : session.Makes [] []
      { session with running := false, lastFault := some fault, linkState := .error } :=
    makes_of_eq rfl rfl
  have held := ((makes_failSend _ now fault.message).after ended).trans (makes_holdPending _)
  exact held.before (makes_announce _ _)

/-- Opening a link makes no call. -/
theorem makes_connect (session : Session) (refusal : Option Bytes) :
    session.Makes [] [] (session.connect refusal).2 := by
  unfold connect
  split
  · exact makes_self session
  · split
    · exact makes_of_eq rfl rfl
    · split
      · exact makes_of_eq rfl rfl
      · split
        · exact (makes_announce _ _).after (makes_of_eq rfl rfl)
        · exact (makes_announce _ _).after (makes_of_eq rfl rfl)

/-- Closing a link ends the command on its way and holds the commands that wait. -/
theorem makes_disconnect (session : Session) (now : Int) :
    session.Makes [.failSend now (ascii "Disconnected"), .pauseIfPending] []
      (session.disconnect now) := by
  have stopped : session.Makes [] [] { session with running := false } := makes_of_eq rfl rfl
  have held := ((makes_failSend _ now (ascii "Disconnected")).after stopped).trans
    (makes_holdPending _)
  unfold disconnect
  dsimp only
  split
  · exact held
  · exact held.before ((makes_announce _ _).after (makes_of_eq rfl rfl))

/-- Refusing something that the queue refused is the call that it refused. -/
theorem makes_takeQueue {α : Type} {call : Queue.Call} (step : Option α × Queue)
    (gives : ∀ history : Queue.History, history.queue = session.queue →
      (history.apply call).queue = step.2 ∧ (history.apply call).results = history.results) :
    session.Makes [call] [] (session.takeQueue step).2 := by
  unfold takeQueue
  dsimp only
  split
  · exact (makes_queue gives).before (makes_of_eq rfl rfl)
  · exact makes_queue gives

/-- A command is queued by one call. -/
theorem makes_sendCommand (connected : session.isConnected = true)
    (command : ControllerCommand) :
    session.Makes [.enqueue command.line] [] (session.sendCommand command).2 := by
  unfold sendCommand
  rw [connected]
  exact makes_takeQueue _ fun history same => by rw [← same]; exact ⟨rfl, rfl⟩

/-- A path is queued by one call. -/
theorem makes_sendProgram (connected : session.isConnected = true) (now : Int)
    (segments : List Segment) :
    session.Makes [.enqueueBatch (printPath segments)] []
      (session.sendProgram now segments).2 := by
  have taken : session.Makes [.enqueueBatch (printPath segments)] []
      (session.takeQueue (session.queue.enqueueBatch (printPath segments))).2 :=
    makes_takeQueue _ fun history same => by rw [← same]; exact ⟨rfl, rfl⟩
  unfold sendProgram
  rw [connected, if_neg (by decide)]
  dsimp only
  split
  · exact taken
  · exact taken.before (makes_of_eq rfl rfl)

/-- Noting what a response says makes no call. -/
theorem makes_observe (session : Session) (response : Response) :
    session.Makes [] [] (session.observe response) := by
  cases response with
  | status status =>
    have noted : session.Makes [] [] ({ session with
        latestStatus := some status
        machineState := status.state
        overrides := status.overrides.getD session.overrides }.note (.status status)) :=
      (makes_note rfl rfl).after (makes_of_eq rfl rfl)
    unfold observe observeStatus
    dsimp only
    split
    · exact noted
    · exact noted.before (makes_announce _ _)
  | setting number value => exact makes_of_eq rfl rfl
  | welcome version text => exact (makes_announce _ _).after (makes_of_eq rfl rfl)
  | ok => exact makes_self session
  | error complaint => exact makes_self session
  | alarm complaint => exact makes_self session
  | feedback text => exact makes_self session

/-- A line from the controller is one response to the queue. -/
theorem makes_handleLine (session : Session) (now : Int) {line : Bytes} (solid : line ≠ []) :
    session.Makes [.respond now (.ofLine line)] [] (session.handleLine now line) := by
  unfold handleLine
  rw [if_neg (by simpa using solid)]
  have answered := (makes_respond _ now (.ofLine line)).after (makes_observe session (.ofLine line))
  exact answered.before (makes_note rfl rfl)

/-- A look at the clock is one call. -/
theorem makes_expire (running : session.running = true) (checked now : Int) :
    session.Makes [.expire checked now] [] (session.expire checked now) := by
  unfold expire
  rw [if_pos running]
  exact makes_settleQueue now _ fun history same => by rw [← same]; rfl

/-- Taking out the next command is one call. -/
theorem makes_takeCommand (running : session.running = true) (now : Int) :
    session.Makes [.dequeue now] [] (session.takeCommand now).2 := by
  unfold takeCommand
  rw [if_pos running]
  exact makes_queue fun history same => by rw [← same]; exact ⟨rfl, rfl⟩

/-- A command that the link takes is written as its line. -/
theorem makes_writeCommand (session : Session) (now : Int) (command : SentCommand) :
    session.Makes [] [command.line] (session.writeCommand now command none) := by
  refine ⟨fun history tracked => ⟨tracked.queue, ?_⟩, ?_⟩
  · refine tracked.results.trans ?_
    show _ = (session.note (.wrote (command.text ++ [Byte.newline]))).results
    simp [Notice.result?]
  · show (session.note (.wrote (command.text ++ [Byte.newline]))).commandLines = _
    rw [commandLines_note, Notice.commandLine?_line]
    rfl

end Session

end GcodeSender
