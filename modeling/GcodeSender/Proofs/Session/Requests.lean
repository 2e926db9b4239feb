import GcodeSender.Proofs.Session.Effects

/-!
# Requests and turns of the loops

Whoever uses a session makes requests of it, and its loops take turns. Of the calls that these
make of the queue, only a request to resume makes a resumption, only an open link takes
commands in, and only the sending loop takes one out (`Session.Warrants`). What is taken in is
the line of a command or the lines of a path (`Session.Request.Queues`).
-/
namespace GcodeSender

namespace Session

/-- A request, with what the link answers where it is asked. -/
inductive Request where
  /-- Open the link, which may refuse. -/
  | connect (refusal : Option Bytes)
  /-- Close the link. -/
  | disconnect (now : Int)
  /-- Write a real-time command, which the link may refuse. -/
  | realtime (now : Int) (command : RealtimeCommand) (refusal : Option Bytes)
  /-- Queue a command. -/
  | command (command : ControllerCommand)
  /-- Queue the lines of a path. -/
  | program (now : Int) (segments : List Segment)
  /-- Send nothing for now. -/
  | pause
  /-- Go on sending. -/
  | resume
  /-- Drop the commands that wait. -/
  | clear (now : Int)

/-- The session after a request. -/
def serve (session : Session) : Request → Session
  | .connect refusal => (session.connect refusal).2
  | .disconnect now => session.disconnect now
  | .realtime now command refusal => (session.sendRealtime now command refusal).2
  | .command command => (session.sendCommand command).2
  | .program now segments => (session.sendProgram now segments).2
  | .pause => session.pause
  | .resume => session.resume
  | .clear now => (session.clear now).2

variable {session next : Session} {calls : List Queue.Call} {call : Queue.Call}
  {request : Request}

/-- What a request must be, and how the session must stand, for a call to be made. A turn of a
loop is no request. -/
def Warrants (session : Session) (request : Option Request) : Queue.Call → Prop
  | .resume => request = some .resume
  | .enqueue _ | .enqueueBatch _ => session.isConnected = true
  | .dequeue _ => request = none ∧ session.running = true
  | _ => True

/-- What a request must be for a call to take in what it does. -/
def Request.Queues (request : Request) : Queue.Call → Prop
  | .enqueue text => ∃ command, request = .command command ∧ text = command.line
  | .enqueueBatch texts =>
    ∃ now segments, request = .program now segments ∧ texts = printPath segments
  | _ => True

/-- A call that only ends or holds something takes nothing in. -/
theorem Request.queues_of_settles (settles : call.settles = true) : request.Queues call := by
  cases call with
  | enqueue text => cases settles
  | enqueueBatch texts => cases settles
  | _ => trivial

/-- A call that only ends or holds something may always be made. -/
theorem warrants_of_settles {request : Option Request} (settles : call.settles = true) :
    session.Warrants request call := by
  cases call with
  | enqueue text => cases settles
  | enqueueBatch texts => cases settles
  | dequeue now => cases settles
  | resume => cases settles
  | _ => trivial

/-- A failure makes only calls that end or hold something. -/
theorem exists_makes_failLink (session : Session) (now : Int) (fault : SessionFault) :
    ∃ calls, session.Makes calls [] (session.failLink now fault) ∧
      ∀ call ∈ calls, call.settles = true := by
  by_cases running : session.running = true
  · exact ⟨_, makes_failLink running now fault, by simp [Queue.Call.settles]⟩
  · have same : session.failLink now fault = session :=
      failLink_of_not_running (Bool.eq_false_iff.mpr running)
    rw [same]
    exact ⟨[], makes_self session, by simp⟩

/-- While the loops do not run, no command is taken out. -/
theorem takeCommand_of_not_running {now : Int} (ended : session.running = false) :
    session.takeCommand now = (none, session) := by
  simp [takeCommand, ended]

/-- Under a pause, no command is taken out. -/
theorem takeCommand_of_paused {now : Int} (held : session.queue.paused = true) :
    session.takeCommand now = (none, session) := by
  unfold takeCommand
  split
  · rw [Queue.dequeue_of_not_canSend (Queue.canSend_of_paused held)]
  · rfl

/-- A session that is not connected refuses a command. -/
theorem sendCommand_of_not_isConnected (apart : session.isConnected = false)
    (command : ControllerCommand) :
    session.sendCommand command = (none, session.refuse .notConnected) := by
  simp [sendCommand, apart]

/-- A session that is not connected refuses a path. -/
theorem sendProgram_of_not_isConnected (apart : session.isConnected = false) (now : Int)
    (segments : List Segment) :
    session.sendProgram now segments = (none, session.refuse .notConnected) := by
  simp [sendProgram, apart]

/-- A request makes calls that it warrants, which take in what it asks for, and writes no command
line. -/
theorem makes_serve_queues (session : Session) (request : Request) :
    ∃ calls, session.Makes calls [] (session.serve request) ∧
      ∀ call ∈ calls, session.Warrants (some request) call ∧ request.Queues call := by
  have refused : session.Makes [] [] (session.refuse .notConnected) := makes_of_eq rfl rfl
  cases request with
  | connect refusal => exact ⟨[], makes_connect session refusal, by simp⟩
  | disconnect now => exact ⟨_, makes_disconnect session now, by simp [Warrants, Request.Queues]⟩
  | realtime now command refusal =>
    by_cases connected : session.isConnected = true
    · cases refusal with
      | none =>
        have written : session.Makes [] [] (session.note (.wrote [command.byte])) :=
          makes_note rfl (Notice.commandLine?_realtime command)
        refine ⟨[], ?_, by simp⟩
        show session.Makes [] [] (session.sendRealtime now command none).2
        unfold sendRealtime
        rw [connected, if_neg (by decide)]
        exact written.before (makes_of_eq rfl rfl)
      | some reason =>
        obtain ⟨calls, made, settle⟩ := exists_makes_failLink session now (.writeFailed reason)
        have asked : ∀ call ∈ calls,
            session.Warrants (some (.realtime now command (some reason))) call ∧
              (Request.realtime now command (some reason)).Queues call :=
          fun call member => ⟨warrants_of_settles (settle call member),
            Request.queues_of_settles (settle call member)⟩
        refine ⟨calls, ?_, asked⟩
        show session.Makes calls [] (session.sendRealtime now command (some reason)).2
        unfold sendRealtime
        rw [connected, if_neg (by decide)]
        exact made
    · refine ⟨[], ?_, by simp⟩
      show session.Makes [] [] (session.sendRealtime now command refusal).2
      unfold sendRealtime
      rw [if_pos (by simpa using connected)]
      exact refused
  | command command =>
    by_cases connected : session.isConnected = true
    · exact ⟨_, makes_sendCommand connected command,
        by simpa [Warrants, Request.Queues] using connected⟩
    · have apart := Bool.eq_false_iff.mpr connected
      refine ⟨[], ?_, by simp⟩
      show session.Makes [] [] (session.sendCommand command).2
      rw [sendCommand_of_not_isConnected apart]
      exact refused
  | program now segments =>
    by_cases connected : session.isConnected = true
    · exact ⟨_, makes_sendProgram connected now segments,
        by simpa [Warrants, Request.Queues] using connected⟩
    · have apart := Bool.eq_false_iff.mpr connected
      refine ⟨[], ?_, by simp⟩
      show session.Makes [] [] (session.sendProgram now segments).2
      rw [sendProgram_of_not_isConnected apart]
      exact refused
  | pause =>
    have paused : session.Makes [.pause] [] session.pause :=
      makes_queue fun history same => by rw [← same]; exact ⟨rfl, rfl⟩
    exact ⟨_, paused, by simp [Warrants, Request.Queues]⟩
  | resume =>
    have resumed : session.Makes [.resume] [] session.resume :=
      makes_queue fun history same => by rw [← same]; exact ⟨rfl, rfl⟩
    exact ⟨_, resumed, by simp [Warrants, Request.Queues]⟩
  | clear now =>
    have cleared : session.Makes [.clear] [] { session with queue := session.queue.clear.2 } :=
      makes_queue fun history same => by rw [← same]; exact ⟨rfl, rfl⟩
    exact ⟨_, cleared.before (makes_of_eq rfl rfl), by simp [Warrants, Request.Queues]⟩

/-- A request makes calls that it warrants, and writes no command line. -/
theorem makes_serve (session : Session) (request : Request) :
    ∃ calls, session.Makes calls [] (session.serve request) ∧
      ∀ call ∈ calls, session.Warrants (some request) call := by
  obtain ⟨calls, made, asked⟩ := makes_serve_queues session request
  exact ⟨calls, made, fun call member => (asked call member).1⟩

/-- A turn of the receiving loop makes only calls that end or hold something. -/
theorem makes_receive (session : Session) (now : Int) (received : Received) :
    ∃ calls, session.Makes calls [] (session.receive now received) ∧
      ∀ call ∈ calls, call.settles = true := by
  unfold receive
  split
  · exact ⟨[], makes_self session, by simp⟩
  · cases received with
    | line text =>
      by_cases solid : text = []
      · subst solid
        exact ⟨[], makes_self session, by simp⟩
      · exact ⟨_, makes_handleLine session now solid, by simp [Queue.Call.settles]⟩
    | closed => exact exists_makes_failLink session now .closedByController
    | failed reason => exact exists_makes_failLink session now (.readFailed reason)

/-- A turn of the polling loop makes only calls that end or hold something. -/
theorem makes_poll (session : Session) (now : Int) (refusal : Option Bytes) :
    ∃ calls, session.Makes calls [] (session.poll now refusal) ∧
      ∀ call ∈ calls, call.settles = true := by
  unfold poll
  split
  · exact ⟨[], makes_self session, by simp⟩
  · cases refusal with
    | none => exact ⟨[], makes_note rfl (Notice.commandLine?_realtime _), by simp⟩
    | some reason => exact exists_makes_failLink session now (.pollFailed reason)

/-- A look at the clock makes only calls that end or hold something. -/
theorem exists_makes_expire (session : Session) (checked now : Int) :
    ∃ calls, session.Makes calls [] (session.expire checked now) ∧
      ∀ call ∈ calls, call.settles = true := by
  by_cases running : session.running = true
  · exact ⟨_, makes_expire running checked now, by simp [Queue.Call.settles]⟩
  · have same : session.expire checked now = session := by simp [expire, running]
    rw [same]
    exact ⟨[], makes_self session, by simp⟩

/-- Ending a command that the link did not take makes only calls that end or hold something. -/
theorem makes_writeCommand_refused (session : Session) (now : Int) (command : SentCommand)
    (reason : Bytes) :
    ∃ calls, session.Makes calls [] (session.writeCommand now command (some reason)) ∧
      ∀ call ∈ calls, call.settles = true := by
  have ended := makes_failSend session now (SessionFault.writeFailed reason).message
  obtain ⟨calls, failed, settle⟩ := exists_makes_failLink
    (session.settleQueue now
      (session.queue.failSend now (SessionFault.writeFailed reason).message))
    now (.writeFailed reason)
  refine ⟨_, ended.trans failed, ?_⟩
  intro call member
  rcases List.mem_append.mp member with first | later
  · rw [List.mem_singleton.mp first]
    rfl
  · exact settle call later

/-! ## What calls do to the queue -/

/-- The history of a session that starts with it. -/
def history (session : Session) : Queue.History :=
  { queue := session.queue, results := session.results }

theorem tracks_history (session : Session) : session.history.Tracks session := ⟨rfl, rfl⟩

variable {lines : List Bytes}

/-- Calls without a resumption keep a pause. -/
theorem Makes.paused (made : session.Makes calls lines next)
    (held : session.queue.paused = true) (others : ∀ call ∈ calls, call ≠ .resume) :
    next.queue.paused = true := by
  have after := made.tracks session.history session.tracks_history
  rw [← after.queue]
  exact (Queue.History.paused_foldl held others).1

/-- Where nothing was on its way, nothing is unless it is taken out. -/
theorem Makes.inFlight (made : session.Makes calls lines next)
    (idle : session.queue.inFlight = none) (others : ∀ call ∈ calls, call.givesOut = false) :
    next.queue.inFlight = none := by
  have after := made.tracks session.history session.tracks_history
  rw [← after.queue]
  exact Queue.History.inFlight_foldl_of_none idle others

/-- Calls that take nothing in leave an empty queue empty. -/
theorem Makes.pending (made : session.Makes calls lines next)
    (empty : session.queue.pending = []) (closed : ∀ call ∈ calls, call.takesIn = false) :
    next.queue.pending = [] := by
  have after := made.tracks session.history session.tracks_history
  rw [← after.queue]
  exact Queue.History.pending_foldl_of_empty empty closed

end Session

end GcodeSender
