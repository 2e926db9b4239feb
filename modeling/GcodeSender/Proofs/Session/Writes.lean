import GcodeSender.Proofs.Controller.CommandBytes
import GcodeSender.Proofs.Queue.CommandTexts
import GcodeSender.Proofs.Runs
import GcodeSender.Proofs.Session.Following

/-!
# What a session writes

Only three steps write: a real-time command that the link takes, a status query of the polling
loop, and the command that the sending loop takes out of the queue. Each writes at most once
(`Session.transmits`), and what a session has written is the bytes of these transmissions in
order. The texts of commands have no line break when they are queued, and a queue keeps them one
line each, so every line that is written is one command. A history of the queue that follows the
session carries the numbers: it sends what the sending loop takes out, in increasing order, and
each has its result or is still on its way.
-/
namespace GcodeSender

/-- The bytes that a notice says were written. -/
def Notice.bytes? : Notice → Option Bytes
  | .wrote bytes => some bytes
  | _ => none

namespace Session

/-- One thing that a session writes. -/
inductive Transmission where
  /-- A real-time command. -/
  | signal (command : RealtimeCommand)
  /-- The line of a command. -/
  | line (command : SentCommand)

namespace Transmission

/-- The bytes of a transmission. -/
def bytes : Transmission → Bytes
  | signal command => [command.byte]
  | line command => command.text ++ [Byte.newline]

/-- The command whose line a transmission is. -/
def command? : Transmission → Option SentCommand
  | signal _ => none
  | line command => some command

end Transmission

/-- What was written, the earliest first. -/
def writes (session : Session) : List Bytes := session.record.reverse.filterMap Notice.bytes?

/-- The command that a step takes out of the queue. -/
def takes (session : Session) : Step → Option SentCommand
  | .send checked expired now _ => ((session.expire checked expired).takeCommand now).1
  | _ => none

/-- What a step writes. -/
def transmits (session : Session) : Step → Option Transmission
  | .request (.realtime _ command none) =>
    if session.isConnected then some (.signal command) else none
  | .poll _ none => if session.running then some (.signal .statusQuery) else none
  | .send checked expired now none => (session.takes (.send checked expired now none)).map .line
  | _ => none

/-- What steps write, the earliest first. -/
def transmissions (session : Session) (steps : List Step) : List Transmission :=
  collect step (fun session taken => (session.transmits taken).toList) session steps

/-- The commands that steps take out of the queue, the earliest first. -/
def takings (session : Session) (steps : List Step) : List SentCommand :=
  collect step (fun session taken => (session.takes taken).toList) session steps

variable {session next middle : Session}

/-! ## Where bytes are written -/

@[simp] theorem writes_note (notice : Notice) :
    (session.note notice).writes = session.writes ++ notice.bytes?.toList := by
  cases found : notice.bytes? <;> simp [note, writes, found]

@[simp] theorem writes_announce (happening : Happening) :
    (session.announce happening).writes = session.writes := by
  simp [announce, Notice.bytes?]

@[simp] theorem writes_publishResult (now : Int) (result : CommandResult) :
    (session.publishResult now result).writes = session.writes := by
  have noted : (session.note (.result result)).writes = session.writes := by
    simp [Notice.bytes?]
  unfold publishResult
  dsimp only
  split
  · exact (writes_announce _).trans noted
  · exact noted

@[simp] theorem writes_settleQueue (now : Int) (answer : Option CommandResult × Queue) :
    (session.settleQueue now answer).writes = session.writes := by
  unfold settleQueue
  dsimp only
  split
  · exact writes_publishResult now _
  · rfl

@[simp] theorem writes_failLink (now : Int) (fault : SessionFault) :
    (session.failLink now fault).writes = session.writes := by
  unfold failLink
  split
  · rw [writes_announce]
    exact writes_settleQueue now _
  · rfl

@[simp] theorem writes_connect (refusal : Option Bytes) :
    (session.connect refusal).2.writes = session.writes := by
  unfold connect
  split
  · rfl
  · split
    · rfl
    · split
      · rfl
      · split <;> exact writes_announce _

@[simp] theorem writes_disconnect (now : Int) :
    (session.disconnect now).writes = session.writes := by
  unfold disconnect
  dsimp only
  split
  · exact writes_settleQueue now _
  · exact (writes_announce _).trans (writes_settleQueue now _)

@[simp] theorem writes_takeQueue {α : Type} (answer : Option α × Queue) :
    (session.takeQueue answer).2.writes = session.writes := by
  unfold takeQueue
  dsimp only
  split <;> rfl

@[simp] theorem writes_sendCommand (command : ControllerCommand) :
    (session.sendCommand command).2.writes = session.writes := by
  unfold sendCommand
  split
  · rfl
  · exact writes_takeQueue _

@[simp] theorem writes_sendProgram (now : Int) (segments : List Segment) :
    (session.sendProgram now segments).2.writes = session.writes := by
  unfold sendProgram
  split
  · rfl
  · dsimp only
    split <;> exact writes_takeQueue (session.queue.enqueueBatch (printPath segments))

@[simp] theorem writes_observe (response : Response) :
    (session.observe response).writes = session.writes := by
  unfold observe
  split
  · unfold observeStatus
    dsimp only
    split
    · exact (writes_note _).trans (List.append_nil _)
    · exact (writes_announce _).trans ((writes_note _).trans (List.append_nil _))
  · rfl
  · exact writes_announce _
  all_goals rfl

@[simp] theorem writes_receive (now : Int) (received : Received) :
    (session.receive now received).writes = session.writes := by
  unfold receive
  split
  · rfl
  · split
    · unfold handleLine
      split
      · rfl
      · simp [Notice.bytes?]
    · exact writes_failLink now _
    · exact writes_failLink now _

@[simp] theorem writes_expire (checked now : Int) :
    (session.expire checked now).writes = session.writes := by
  unfold expire
  split
  · exact writes_settleQueue now _
  · rfl

@[simp] theorem writes_takeCommand (now : Int) :
    (session.takeCommand now).2.writes = session.writes := by
  unfold takeCommand
  split <;> rfl

/-- A command that the link takes is written, and one that it refuses is not. -/
theorem writes_writeCommand (now : Int) (command : SentCommand) (refusal : Option Bytes) :
    (session.writeCommand now command refusal).writes =
      session.writes ++
        (if refusal.isNone then [command.text ++ [Byte.newline]] else []) := by
  cases refusal with
  | none => exact writes_note _
  | some reason => simp [writeCommand]

/-- A real-time command is written if the link is open and takes it. -/
theorem writes_sendRealtime (now : Int) (command : RealtimeCommand) (refusal : Option Bytes) :
    (session.sendRealtime now command refusal).2.writes =
      session.writes ++
        (if session.isConnected && refusal.isNone then [[command.byte]] else []) := by
  unfold sendRealtime
  cases connected : session.isConnected with
  | false => exact (List.append_nil _).symm
  | true =>
    cases refusal with
    | none => exact writes_note _
    | some reason => exact (writes_failLink now _).trans (List.append_nil _).symm

/-- A request writes the real-time command that it asks for, if the link is open and takes it. -/
theorem writes_serve (session : Session) (request : Request) :
    (session.serve request).writes =
      session.writes ++ (session.transmits (.request request)).toList.map Transmission.bytes := by
  cases request with
  | realtime now command refusal =>
    refine (writes_sendRealtime now command refusal).trans ?_
    cases refusal with
    | none =>
      cases connected : session.isConnected <;> simp [transmits, connected, Transmission.bytes]
    | some reason => simp [transmits]
  | connect refusal => simp [serve, transmits]
  | disconnect now => simp [serve, transmits]
  | command command => simp [serve, transmits]
  | program now segments => simp [serve, transmits]
  | pause => exact (List.append_nil _).symm
  | resume => exact (List.append_nil _).symm
  | clear now => exact (List.append_nil _).symm

/-- A step writes its transmission. -/
theorem writes_step (session : Session) (taken : Step) :
    (session.step taken).writes =
      session.writes ++ (session.transmits taken).toList.map Transmission.bytes := by
  cases taken with
  | request request => exact writes_serve session request
  | receive now received => simp [step, transmits]
  | send checked expired now refusal =>
    show ((session.expire checked expired).sendNext now refusal).writes = _
    have before : ((session.expire checked expired).takeCommand now).2.writes = session.writes := by
      simp
    unfold sendNext
    split
    · next command next found =>
      rw [found] at before
      rw [writes_writeCommand, before]
      cases refusal with
      | none => simp [transmits, takes, found, Transmission.bytes]
      | some reason => simp [transmits]
    · next next found =>
      rw [found] at before
      rw [before]
      cases refusal with
      | none => simp [transmits, takes, found]
      | some reason => simp [transmits]
  | poll now refusal =>
    show (session.poll now refusal).writes = _
    unfold poll
    by_cases running : session.running = true
    · cases refusal with
      | none => simp [transmits, running, Transmission.bytes, Notice.bytes?]
      | some reason => simp [transmits, running]
    · cases refusal <;> simp [transmits, running]

/-! ## What the queue gives out -/

variable {calls more : List Queue.Call} {given others : List SentCommand}

/-- A session changes by calls of its queue that put in no line break and give commands out. -/
structure Gives (session : Session) (calls : List Queue.Call) (given : List SentCommand)
    (next : Session) : Prop where
  /-- The session changes by the calls. -/
  makes : ∃ lines, session.Makes calls lines next
  /-- The calls put in no line break. -/
  unbroken : ∀ call ∈ calls, call.IsUnbroken
  /-- The commands are given out after those before. -/
  sent : ∀ history : Queue.History, history.Tracks session →
    (calls.foldl Queue.History.apply history).sent = history.sent ++ given

/-- Calls after calls. -/
theorem Gives.trans (first : session.Gives calls given middle)
    (second : middle.Gives more others next) :
    session.Gives (calls ++ more) (given ++ others) next := by
  obtain ⟨early, made⟩ := first.makes
  obtain ⟨late, later⟩ := second.makes
  refine ⟨⟨_, made.trans later⟩, List.forall_mem_append.mpr ⟨first.unbroken, second.unbroken⟩, ?_⟩
  intro history tracked
  rw [List.foldl_append, second.sent _ (made.tracks history tracked), first.sent history tracked,
    List.append_assoc]

/-- Calls that only end or hold something give nothing out. -/
theorem gives_of_settles {lines : List Bytes} (made : session.Makes calls lines next)
    (settle : ∀ call ∈ calls, call.settles = true) : session.Gives calls [] next := by
  refine ⟨⟨lines, made⟩, fun call member => ?_, fun history _ => ?_⟩
  · have settles := settle call member
    cases call with
    | enqueue text => cases settles
    | enqueueBatch texts => cases settles
    | _ => trivial
  · rw [List.append_nil]
    exact Queue.History.sent_foldl fun call member =>
      Queue.Call.givesOut_of_settles (settle call member)

/-- A request puts in no line break and gives nothing out. -/
theorem gives_serve (session : Session) (request : Request) :
    ∃ calls, session.Gives calls [] (session.serve request) := by
  obtain ⟨calls, made, asked⟩ := makes_serve_queues session request
  refine ⟨calls, ⟨_, made⟩, fun call member => ?_, fun history _ => ?_⟩
  · have queues := (asked call member).2
    cases call with
    | enqueue text =>
      obtain ⟨command, -, rfl⟩ := queues
      exact fun c => ControllerCommand.not_break_of_mem_line
    | enqueueBatch texts =>
      obtain ⟨now, segments, -, rfl⟩ := queues
      exact fun line inside c member =>
        Byte.not_break_of_isPlain (isPlain_of_mem_printPath inside c member)
    | _ => trivial
  · rw [List.append_nil]
    refine Queue.History.sent_foldl fun call member => ?_
    have warranted := (asked call member).1
    cases call with
    | dequeue now => cases warranted.1
    | _ => rfl

/-- Taking a command out gives it out. -/
theorem gives_takeCommand (session : Session) (now : Int) :
    ∃ calls, session.Gives calls (session.takeCommand now).1.toList
      (session.takeCommand now).2 := by
  by_cases running : session.running = true
  · refine ⟨[.dequeue now], ⟨_, makes_takeCommand running now⟩, by simp [Queue.Call.IsUnbroken],
      fun history tracked => ?_⟩
    have taken : (session.takeCommand now).1 = (history.queue.dequeue now).1 := by
      rw [tracked.queue, takeCommand, if_pos running]
    rw [taken]
    rfl
  · rw [takeCommand_of_not_running (Bool.eq_false_iff.mpr running)]
    exact ⟨[], gives_of_settles (makes_self session) (by simp)⟩

/-- Writing a command gives nothing out. -/
theorem gives_writeCommand (session : Session) (now : Int) (command : SentCommand)
    (refusal : Option Bytes) :
    ∃ calls, session.Gives calls [] (session.writeCommand now command refusal) := by
  cases refusal with
  | none => exact ⟨[], gives_of_settles (makes_writeCommand session now command) (by simp)⟩
  | some reason =>
    obtain ⟨calls, made, settle⟩ := makes_writeCommand_refused session now command reason
    exact ⟨calls, gives_of_settles made settle⟩

/-- A step puts in no line break and gives out what it takes. -/
theorem gives_step (session : Session) (taken : Step) :
    ∃ calls, session.Gives calls (session.takes taken).toList (session.step taken) := by
  cases taken with
  | request request => exact gives_serve session request
  | receive now received =>
    obtain ⟨calls, made, settle⟩ := makes_receive session now received
    exact ⟨calls, gives_of_settles made settle⟩
  | poll now refusal =>
    obtain ⟨calls, made, settle⟩ := makes_poll session now refusal
    exact ⟨calls, gives_of_settles made settle⟩
  | send checked expired now refusal =>
    obtain ⟨looks, looked, settle⟩ := exists_makes_expire session checked expired
    obtain ⟨calls, took⟩ := gives_takeCommand (session.expire checked expired) now
    have out := (gives_of_settles looked settle).trans took
    show ∃ calls, session.Gives calls ((session.expire checked expired).takeCommand now).1.toList
      ((session.expire checked expired).sendNext now refusal)
    unfold sendNext
    cases found : (session.expire checked expired).takeCommand now with
    | mk command next =>
      rw [found] at out
      cases command with
      | none => exact ⟨_, out⟩
      | some command =>
        obtain ⟨more, wrote⟩ := gives_writeCommand next now command refusal
        exact ⟨_, by simpa using out.trans wrote⟩

/-! ## The main statement -/

/-- What a session has written and taken out, and the history of its queue, belong together. -/
structure Transcribes (session : Session) (history : Queue.History)
    (transmitted : List Transmission) (taken : List SentCommand) : Prop where
  /-- The history follows the session. -/
  tracks : history.Tracks session
  /-- The history accounts for every command. -/
  consistent : history.Consistent
  /-- The commands that wait are one line each. -/
  ready : session.queue.Ready
  /-- The history sends what is taken out. -/
  sent : history.sent = taken
  /-- What is taken out is one line each. -/
  texts : ∀ command ∈ taken, IsCommandText command.text
  /-- What is written are the bytes of the transmissions. -/
  writes : session.writes = transmitted.map Transmission.bytes
  /-- The lines among the transmissions are of commands taken out, in their order. -/
  lines : (transmitted.filterMap Transmission.command?).Sublist taken

variable {history : Queue.History} {transmitted : List Transmission} {taken : List SentCommand}

/-- A command that a step takes out is one line. -/
theorem isCommandText_of_takes (ready : session.queue.Ready) {made : Step} {command : SentCommand}
    (takes : session.takes made = some command) : IsCommandText command.text := by
  cases made with
  | send checked expired now refusal =>
    obtain ⟨calls, looked, settle⟩ := exists_makes_expire session checked expired
    have tracked := looked.tracks session.history session.tracks_history
    have still : (session.expire checked expired).queue.Ready := by
      rw [← tracked.queue]
      exact Queue.History.ready_foldl ready (gives_of_settles looked settle).unbroken
    by_cases running : (session.expire checked expired).running = true
    · have taken : ((session.expire checked expired).takeCommand now).1 =
          ((session.expire checked expired).queue.dequeue now).1 := by
        rw [takeCommand, if_pos running]
      exact still.dequeue (taken.symm.trans takes)
    · have stopped : (session.expire checked expired).takeCommand now =
          (none, session.expire checked expired) :=
        takeCommand_of_not_running (Bool.eq_false_iff.mpr running)
      rw [show session.takes (.send checked expired now refusal) =
        ((session.expire checked expired).takeCommand now).1 from rfl, stopped] at takes
      cases takes
  | _ => cases takes

/-- A step transmits the line of what it takes out, or no line. -/
theorem command?_transmits (session : Session) (made : Step) :
    ((session.transmits made).toList.filterMap Transmission.command?).Sublist
      (session.takes made).toList := by
  cases made with
  | request request =>
    have silent : (session.transmits (.request request)).toList.filterMap
        Transmission.command? = [] := by
      unfold transmits
      split
      · split <;> rfl
      · next other => cases other
      · next other => cases other
      · rfl
    rw [silent]
    exact List.nil_sublist _
  | receive now received => exact List.nil_sublist _
  | send checked expired now refusal =>
    cases refusal with
    | none =>
      show ((((session.takes (.send checked expired now none)).map
        Transmission.line).toList).filterMap Transmission.command?).Sublist _
      cases session.takes (.send checked expired now none) <;> exact List.Sublist.refl _
    | some reason => exact List.nil_sublist _
  | poll now refusal =>
    cases refusal with
    | none =>
      show ((if session.running then some (Transmission.signal .statusQuery)
        else none).toList.filterMap Transmission.command?).Sublist _
      split <;> exact List.nil_sublist _
    | some reason => exact List.nil_sublist _

/-- Every step goes on with the transcript. -/
theorem Transcribes.step (transcribes : session.Transcribes history transmitted taken)
    (made : Step) :
    ∃ later, (session.step made).Transcribes later
      (transmitted ++ (session.transmits made).toList) (taken ++ (session.takes made).toList) := by
  obtain ⟨calls, gives⟩ := gives_step session made
  obtain ⟨lines, makes⟩ := gives.makes
  have tracked := makes.tracks history transcribes.tracks
  refine ⟨_, tracked, transcribes.consistent.foldl calls, ?_, ?_, ?_, ?_, ?_⟩
  · rw [← tracked.queue]
    refine Queue.History.ready_foldl ?_ gives.unbroken
    rw [transcribes.tracks.queue]
    exact transcribes.ready
  · rw [gives.sent history transcribes.tracks, transcribes.sent]
  · refine List.forall_mem_append.mpr ⟨transcribes.texts, fun command member => ?_⟩
    exact isCommandText_of_takes transcribes.ready (Option.mem_toList.mp member)
  · rw [writes_step, transcribes.writes, List.map_append]
  · rw [List.filterMap_append]
    exact transcribes.lines.append (command?_transmits session made)

variable (settings : SessionSettings) (transport : Option Bytes)

/-- A history transcribes what a new session has written and taken out after any steps. -/
theorem exists_transcribes (steps : List Step) :
    ∃ history, (after settings transport steps).Transcribes history
      ((create settings transport).transmissions steps)
      ((create settings transport).takings steps) := by
  induction steps using List.reverseRecOn with
  | nil =>
    have empty := (empty_create settings transport).1
    refine ⟨{ queue := Queue.create settings.queue }, ⟨rfl, rfl⟩,
      Queue.History.consistent_create settings.queue, ?_, rfl, ?_, rfl, List.nil_sublist _⟩
    · exact Queue.ready_of_empty empty
    · exact fun _ member => absurd member List.not_mem_nil
  | append_singleton steps last ih =>
    obtain ⟨history, transcribes⟩ := ih
    rw [after_append_singleton, transmissions, collect_append_singleton, takings,
      collect_append_singleton]
    exact transcribes.step last

/-- Whatever steps a new session takes, each thing that it has written is a real-time command of
a request or of the polling loop, as its byte, or a command that the sending loop took out, as
one line: a text that is not empty, holds no line break and has no blank at either end, and a
line feed. The lines are written in increasing order of their numbers. Results are published in
increasing order of their numbers, one for each command that was taken out except the one still
on its way. -/
theorem writes_signals_and_lines (steps : List Step) :
    let transmitted := (create settings transport).transmissions steps
    let lines := transmitted.filterMap Transmission.command?
    let taken := (create settings transport).takings steps
    let last := after settings transport steps
    last.writes = transmitted.map Transmission.bytes ∧
      (∀ command ∈ lines, IsCommandText command.text) ∧
      (lines.map SentCommand.id).Pairwise (· < ·) ∧
      lines.Sublist taken ∧
      (last.results.map CommandResult.id).Pairwise (· < ·) ∧
      taken.map SentCommand.command =
        last.results.map CommandResult.command ++ last.queue.onTheWay := by
  intro transmitted lines taken last
  obtain ⟨history, transcribes⟩ := exists_transcribes settings transport steps
  have sent : history.sent = taken := transcribes.sent
  have increasing : (taken.map SentCommand.id).Pairwise (· < ·) := by
    rw [← sent]
    exact transcribes.consistent.sent_increasing
  refine ⟨transcribes.writes, ?_, ?_, transcribes.lines, ?_, ?_⟩
  · exact fun command member => transcribes.texts command (transcribes.lines.subset member)
  · exact increasing.sublist (transcribes.lines.map _)
  · exact results_increasing transcribes.tracks transcribes.consistent
  · rw [← sent, transcribes.consistent.settled, transcribes.tracks.results,
      transcribes.tracks.queue]

/-- A line that was queued is written once and without its blanks, and a query is one byte. -/
example :
    (after {} (some []) [.request (.connect none), .request (.command (.gcode (ascii " G1 X1\n"))),
      .send 0 0 0 none, .poll 0 none, .send 0 0 0 none]).writes =
      [ascii "G1 X1" ++ [Byte.newline], ascii "?"] := by
  decide +kernel

end Session

end GcodeSender
