import Mathlib.Logic.Relation
import GcodeSender.Proofs.Session.Holding

/-!
# Elementary changes of a session

Between the start of a program and a clearing of the queue, a session goes through six kinds of
elementary change (`Session.Change`): something apart from the queue, the program and the record
changes; a notice is entered that is neither a result nor the end of a program; the queue takes
something in, pauses or resumes; an answer is settled; a command is taken out and written; or it
is taken out and lost. Every step that starts no program and clears nothing is a chain of these
(`changes_step`), so what the six kinds keep is kept by all such steps. A command that is taken
out is written or lost in the same change, since a turn of the sending loop does both.
-/
namespace GcodeSender

/-- The words of the end of a program that a notice publishes. -/
def Notice.programEnd? : Notice → Option Bytes
  | .event published =>
    if published.happening.kind = .programFinished then some published.happening.message
    else none
  | _ => none

/-- A call takes commands in, pauses or resumes. -/
def Queue.Call.isQuiet : Queue.Call → Bool
  | enqueue _ | enqueueBatch _ | pause | resume | pauseIfPending => true
  | _ => false

/-- A quiet call sends nothing, answers nothing and drops nothing, and takes in some lines or
none. -/
theorem Queue.History.apply_of_isQuiet {call : Queue.Call} (quiet : call.isQuiet = true)
    (history : Queue.History) :
    (history.apply call).sent = history.sent ∧ (history.apply call).results = history.results ∧
      (history.apply call).dropped = history.dropped ∧
      ∃ lines, history.queue.Accepts lines (history.apply call).queue := by
  cases call with
  | enqueue text =>
    refine ⟨rfl, rfl, rfl, ?_⟩
    show ∃ lines, history.queue.Accepts lines (history.queue.enqueue text).2
    rcases history.queue.enqueue_cases text with ⟨fault, refused⟩ | ⟨next, made, taken⟩
    · rw [refused]
      exact ⟨[], Queue.accepts_nil rfl rfl rfl⟩
    · rw [made]
      exact ⟨_, taken⟩
  | enqueueBatch texts =>
    refine ⟨rfl, rfl, rfl, ?_⟩
    show ∃ lines, history.queue.Accepts lines (history.queue.enqueueBatch texts).2
    rcases history.queue.enqueueBatch_cases texts with ⟨fault, refused⟩ | ⟨next, made, taken⟩
    · rw [refused]
      exact ⟨[], Queue.accepts_nil rfl rfl rfl⟩
    · rw [made]
      exact ⟨_, taken⟩
  | pause => exact ⟨rfl, rfl, rfl, [], Queue.accepts_nil rfl rfl rfl⟩
  | resume => exact ⟨rfl, rfl, rfl, [], Queue.accepts_nil rfl rfl rfl⟩
  | pauseIfPending =>
    refine ⟨rfl, rfl, rfl, [], ?_⟩
    show history.queue.Accepts [] history.queue.pauseIfPending.2
    unfold Queue.pauseIfPending
    split
    · exact Queue.accepts_nil rfl rfl rfl
    · exact Queue.accepts_nil rfl rfl rfl
  | dequeue now => cases quiet
  | respond now response => cases quiet
  | failSend now reason => cases quiet
  | expire checked now => cases quiet
  | clear => cases quiet

/-- The history of a command that is taken out. -/
theorem Queue.History.apply_dequeue {history : Queue.History} {now : Int} {sent : SentCommand}
    {queue : Queue} (taken : history.queue.dequeue now = (some sent, queue)) :
    history.apply (.dequeue now) =
      { history with queue := queue, sent := history.sent ++ [sent] } := by
  simp only [apply, taken, Option.toList_some]

namespace Session

variable {session next : Session}

/-- An elementary change of a session, with the calls of its queue that belong to it. -/
inductive Change (session : Session) : List Queue.Call → Session → Prop where
  /-- Something apart from the queue, the program and the record changes. -/
  | rest {next : Session} (queue : next.queue = session.queue) (run : next.run = session.run)
      (record : next.record = session.record) : Change session [] next
  /-- A notice is entered that is neither a result nor the end of a program. -/
  | note {notice : Notice} (result : notice.result? = none)
      (programEnd : notice.programEnd? = none) : Change session [] (session.note notice)
  /-- The queue takes something in, pauses or resumes. -/
  | quiet (call : Queue.Call) (quiet : call.isQuiet = true) :
      Change session [call] { session with queue := (session.history.apply call).queue }
  /-- An answer is settled. -/
  | settle (call : Queue.Call) (now : Int) {answer : Option CommandResult × Queue}
      (settled : session.queue.Settles answer)
      (answers : ∀ history : Queue.History, history.queue = session.queue →
        history.apply call = history.answered answer) :
      Change session [call] (session.settleQueue now answer)
  /-- A command is taken out and written. -/
  | write {now : Int} {sent : SentCommand} {queue : Queue}
      (taken : session.queue.dequeue now = (some sent, queue)) :
      Change session [.dequeue now]
        (writeCommand { session with queue := queue } now sent none)
  /-- A command is taken out and lost. -/
  | lose {now : Int} {sent : SentCommand} {queue : Queue}
      (taken : session.queue.dequeue now = (some sent, queue)) (reason : Bytes) :
      Change session [.dequeue now, .failSend now reason]
        (settleQueue { session with queue := queue } now (queue.failSend now reason))

/-- A chain of elementary changes. -/
def Changes : Session → Session → Prop :=
  Relation.ReflTransGen fun session next => ∃ calls, session.Change calls next

theorem changes_self (session : Session) : session.Changes session := .refl

/-- A chain with one more change. -/
theorem Changes.after {middle : Session} (changes : session.Changes middle)
    {calls : List Queue.Call} (change : middle.Change calls next) : session.Changes next :=
  Relation.ReflTransGen.tail changes ⟨calls, change⟩

/-- One change is a chain. -/
theorem Change.changes {calls : List Queue.Call} (change : session.Change calls next) :
    session.Changes next := (changes_self session).after change

/-- What every change keeps is kept by a chain. -/
theorem Changes.keep {motive : Session → Prop} (changes : session.Changes next)
    (holds : motive session)
    (keep : ∀ {session next : Session} {calls : List Queue.Call}, session.Change calls next →
      motive session → motive next) : motive next := by
  induction changes with
  | refl => exact holds
  | tail _ change ih =>
    obtain ⟨calls, change⟩ := change
    exact keep change ih

/-- A history that follows a session follows it through a change. -/
theorem Change.tracks {calls : List Queue.Call} (change : session.Change calls next)
    {history : Queue.History} (tracked : history.Tracks session) :
    (calls.foldl Queue.History.apply history).Tracks next := by
  cases change with
  | rest queue run record => exact (makes_of_eq queue record).tracks history tracked
  | note result programEnd => exact ⟨tracked.queue, by simp [tracked.results, result]⟩
  | quiet call quiet =>
    have results : (history.apply call).results = history.results :=
      (history.apply_of_isQuiet quiet).2.1
    refine ⟨?_, results.trans tracked.results⟩
    show (history.apply call).queue = (session.history.apply call).queue
    have same : history.queue = session.history.queue := tracked.queue
    cases call <;> simp only [Queue.History.apply, Queue.History.answered, same]
  | settle call now settled answers =>
    exact (makes_settleQueue now _ answers).tracks history tracked
  | @write now sent queue taken =>
    rw [← tracked.queue] at taken
    rw [List.foldl_cons, List.foldl_nil, Queue.History.apply_dequeue taken]
    exact (makes_writeCommand { session with queue := queue } now sent).tracks _
      ⟨rfl, tracked.results⟩
  | @lose now sent queue taken reason =>
    rw [← tracked.queue] at taken
    rw [List.foldl_cons, Queue.History.apply_dequeue taken]
    exact (makes_failSend { session with queue := queue } now reason).tracks _
      ⟨rfl, tracked.results⟩

/-! ## The operations -/

/-- Ending the command that could not be sent is one change. -/
theorem change_failSend (session : Session) (now : Int) (reason : Bytes) :
    session.Change [.failSend now reason]
      (session.settleQueue now (session.queue.failSend now reason)) :=
  .settle _ now (Queue.settles_failSend _ now reason) fun history same => by rw [← same]; rfl

/-- Publishing an event that is no end of a program is one change. -/
theorem change_announce (session : Session) (happening : Happening)
    (other : happening.kind ≠ .programFinished) :
    session.Change [] (session.announce happening) :=
  .note rfl (if_neg other)

/-- A failure of the link is a chain of changes. -/
theorem changes_failLink (session : Session) (now : Int) (fault : SessionFault) :
    session.Changes (session.failLink now fault) := by
  unfold failLink
  split
  · have ended : session.Changes
        { session with running := false, lastFault := some fault, linkState := .error } :=
      Change.changes (.rest rfl rfl rfl)
    have held := (ended.after (change_failSend _ now fault.message)).after
      (.quiet .pauseIfPending rfl)
    exact held.after (change_announce _ (.failed fault) (nomatch ·))
  · exact changes_self session

/-- Opening the link is a chain of changes. -/
theorem changes_connect (session : Session) (refusal : Option Bytes) :
    session.Changes (session.connect refusal).2 := by
  unfold connect
  split
  · exact changes_self session
  · split
    · exact Change.changes (.rest rfl rfl rfl)
    · split
      · exact Change.changes (.rest rfl rfl rfl)
      · split
        · refine Changes.after ?_ (change_announce _ (.failed _) (nomatch ·))
          exact Change.changes (.rest rfl rfl rfl)
        · refine Changes.after ?_ (change_announce _ (.connected _) (nomatch ·))
          exact Change.changes (.rest rfl rfl rfl)

/-- Closing the link is a chain of changes. -/
theorem changes_disconnect (session : Session) (now : Int) :
    session.Changes (session.disconnect now) := by
  have stopped : session.Changes { session with running := false } :=
    Change.changes (.rest rfl rfl rfl)
  have held := (stopped.after (change_failSend _ now (ascii "Disconnected"))).after
    (.quiet .pauseIfPending rfl)
  unfold disconnect
  dsimp only
  split
  · exact held
  · refine Changes.after ?_ (change_announce _ .disconnected (nomatch ·))
    exact held.after (.rest rfl rfl rfl)

/-- A real-time command is a chain of changes. -/
theorem changes_sendRealtime (session : Session) (now : Int) (command : RealtimeCommand)
    (refusal : Option Bytes) : session.Changes (session.sendRealtime now command refusal).2 := by
  unfold sendRealtime
  split
  · exact Change.changes (.rest rfl rfl rfl)
  · split
    · exact changes_failLink session now _
    · have written : session.Changes (session.note (.wrote [command.byte])) :=
        Change.changes (.note rfl rfl)
      exact written.after (.rest rfl rfl rfl)

/-- What the queue takes or refuses is a chain of changes. -/
theorem changes_takeQueue {α : Type} (call : Queue.Call) (quiet : call.isQuiet = true)
    {taken : Option α × Queue} (gives : taken.2 = (session.history.apply call).queue) :
    session.Changes (session.takeQueue taken).2 := by
  have taking : session.Changes { session with queue := taken.2 } := by
    rw [gives]
    exact Change.changes (.quiet call quiet)
  unfold takeQueue
  dsimp only
  split
  · exact taking.after (.rest rfl rfl rfl)
  · exact taking

/-- Queueing a command is a chain of changes. -/
theorem changes_sendCommand (session : Session) (command : ControllerCommand) :
    session.Changes (session.sendCommand command).2 := by
  unfold sendCommand
  split
  · exact Change.changes (.rest rfl rfl rfl)
  · exact changes_takeQueue (.enqueue command.line) rfl rfl

/-- A path that is refused is a chain of changes. -/
theorem changes_sendProgram (session : Session) (now : Int) (segments : List Segment)
    (refused : (session.sendProgram now segments).1 = none) :
    session.Changes (session.sendProgram now segments).2 := by
  unfold sendProgram at refused ⊢
  split
  · exact Change.changes (.rest rfl rfl rfl)
  · next connected =>
    rw [if_neg connected] at refused
    dsimp only at refused ⊢
    split
    · exact changes_takeQueue (.enqueueBatch (printPath segments)) rfl rfl
    · next ids given =>
      rw [given] at refused
      cases refused

/-- Noting what a response says is a chain of changes. -/
theorem changes_observe (session : Session) (response : Response) :
    session.Changes (session.observe response) := by
  cases response with
  | status status =>
    have noted : session.Changes ({ session with
        latestStatus := some status
        machineState := status.state
        overrides := status.overrides.getD session.overrides }.note (.status status)) := by
      refine Changes.after ?_ (.note rfl rfl)
      exact Change.changes (.rest rfl rfl rfl)
    unfold observe observeStatus
    dsimp only
    split
    · exact noted
    · exact noted.after (change_announce _ (.machineStateChanged _ _) (nomatch ·))
  | setting number value => exact Change.changes (.rest rfl rfl rfl)
  | welcome version text =>
    refine Changes.after ?_ (change_announce _ (.controllerReset version) (nomatch ·))
    exact Change.changes (.rest rfl rfl rfl)
  | ok => exact changes_self session
  | error complaint => exact changes_self session
  | alarm complaint => exact changes_self session
  | feedback text => exact changes_self session

/-- A turn of the receiving loop is a chain of changes. -/
theorem changes_receive (session : Session) (now : Int) (received : Received) :
    session.Changes (session.receive now received) := by
  unfold receive
  split
  · exact changes_self session
  · cases received with
    | line text =>
      show session.Changes (session.handleLine now text)
      unfold handleLine
      split
      · exact changes_self session
      · have answered := (changes_observe session (.ofLine text)).after
          (.settle (.respond now (.ofLine text)) now
            (Queue.settles_respond _ now (.ofLine text)) fun history same => by rw [← same]; rfl)
        exact answered.after (.note rfl rfl)
    | closed => exact changes_failLink session now _
    | failed reason => exact changes_failLink session now _

/-- A look at the clock is a chain of changes. -/
theorem changes_expire (session : Session) (checked now : Int) :
    session.Changes (session.expire checked now) := by
  unfold expire
  split
  · exact Change.changes (.settle (.expire checked now) now (Queue.settles_expire _ checked now)
      fun history same => by rw [← same]; rfl)
  · exact changes_self session

/-- Taking out the next command and writing it is a chain of changes. -/
theorem changes_sendNext (session : Session) (now : Int) (refusal : Option Bytes) :
    session.Changes (session.sendNext now refusal) := by
  by_cases running : session.running = true
  · have taking : session.takeCommand now =
        ((session.queue.dequeue now).1,
          { session with queue := (session.queue.dequeue now).2 }) := by
      unfold takeCommand
      rw [if_pos running]
    unfold sendNext
    rw [taking]
    rcases session.queue.dequeue_cases now with held | ⟨sent, queue, taken, _⟩
    · rw [held]
      exact Change.changes (.rest rfl rfl rfl)
    · rw [taken]
      cases refusal with
      | none => exact Change.changes (.write taken)
      | some reason =>
        have lost : session.Changes (settleQueue { session with queue := queue } now
            (queue.failSend now (SessionFault.writeFailed reason).message)) :=
          Change.changes (.lose taken _)
        exact Relation.ReflTransGen.trans lost (changes_failLink _ now (.writeFailed reason))
  · rw [sendNext_of_not_running (Bool.eq_false_iff.mpr running)]
    exact changes_self session

/-- A turn of the polling loop is a chain of changes. -/
theorem changes_poll (session : Session) (now : Int) (refusal : Option Bytes) :
    session.Changes (session.poll now refusal) := by
  unfold poll
  split
  · exact changes_self session
  · cases refusal with
    | none => exact Change.changes (.note rfl rfl)
    | some reason => exact changes_failLink session now _

/-! ## Steps that keep the program -/

/-- A step queues the lines of a path as the program to follow. -/
def queuesProgram (session : Session) : Step → Bool
  | .request (.program now segments) => (session.sendProgram now segments).1.isSome
  | _ => false

/-- A step that queues a program is a request that is granted. -/
theorem exists_of_queuesProgram {taken : Step} (queues : session.queuesProgram taken = true) :
    ∃ now segments ids, taken = .request (.program now segments) ∧
      (session.sendProgram now segments).1 = some ids := by
  cases taken with
  | request request =>
    cases request with
    | program now segments =>
      obtain ⟨ids, queued⟩ := Option.isSome_iff_exists.mp queues
      exact ⟨now, segments, ids, rfl, queued⟩
    | _ => cases queues
  | _ => cases queues

/-- None of some steps queues the lines of a path as the program to follow. -/
def KeepsProgram (session : Session) : List Step → Prop
  | [] => True
  | taken :: later => session.queuesProgram taken = false ∧ (session.step taken).KeepsProgram later

instance decidableKeepsProgram :
    (session : Session) → (steps : List Step) → Decidable (session.KeepsProgram steps)
  | _, [] => isTrue trivial
  | session, taken :: later =>
    have := decidableKeepsProgram (session.step taken) later
    inferInstanceAs (Decidable (_ ∧ _))

/-- One more step keeps the program if it queues none. -/
theorem keepsProgram_append_singleton (session : Session) (steps : List Step) (last : Step) :
    session.KeepsProgram (steps ++ [last]) ↔
      session.KeepsProgram steps ∧ (steps.foldl step session).queuesProgram last = false := by
  induction steps generalizing session with
  | nil => simp [KeepsProgram]
  | cons taken steps ih =>
    rw [List.cons_append, KeepsProgram, KeepsProgram, ih, List.foldl_cons, and_assoc]

/-- A step that queues no program and does not clear the queue is a chain of changes. -/
theorem changes_step (session : Session) (taken : Step) (kept : session.queuesProgram taken = false)
    (uncleared : ∀ now, taken ≠ .request (.clear now)) : session.Changes (session.step taken) := by
  cases taken with
  | request request =>
    cases request with
    | connect refusal => exact changes_connect session refusal
    | disconnect now => exact changes_disconnect session now
    | realtime now command refusal => exact changes_sendRealtime session now command refusal
    | command command => exact changes_sendCommand session command
    | program now segments =>
      have refused : (session.sendProgram now segments).1 = none :=
        Option.not_isSome_iff_eq_none.mp (Bool.eq_false_iff.mp kept)
      exact changes_sendProgram session now segments refused
    | pause => exact Change.changes (.quiet .pause rfl)
    | resume => exact Change.changes (.quiet .resume rfl)
    | clear now => exact absurd rfl (uncleared now)
  | receive now received => exact changes_receive session now received
  | send checked expired now refusal =>
    exact Relation.ReflTransGen.trans (changes_expire session checked expired)
      (changes_sendNext (session.expire checked expired) now refusal)
  | poll now refusal => exact changes_poll session now refusal

/-- Clearing the queue drops what waits and stops the program if anything does. -/
theorem clear_eq (session : Session) (now : Int) :
    (session.clear now).2 =
      { session with
        queue := session.queue.clear.2
        run := if session.queue.pending = [] then session.run else session.run.stop now } := by
  have dropped : (0 < session.queue.clear.1) = (session.queue.pending ≠ []) := by
    rw [← List.length_pos_iff]
    rfl
  unfold Session.clear
  simp only [dropped, ne_eq, ite_not]

/-- What every elementary change and every clearing keeps is kept by a step that queues no
program. -/
theorem keep_step {motive : Session → Prop}
    (change : ∀ {session next : Session} {calls : List Queue.Call}, session.Change calls next →
      motive session → motive next)
    (clear : ∀ (session : Session) (now : Int), motive session → motive (session.clear now).2)
    {taken : Step} (kept : session.queuesProgram taken = false) (holds : motive session) :
    motive (session.step taken) := by
  by_cases clears : ∃ now, taken = .request (.clear now)
  · obtain ⟨now, rfl⟩ := clears
    exact clear session now holds
  · exact (changes_step session taken kept (not_exists.mp clears)).keep holds change

/-- What every elementary change and every clearing keeps is kept by steps that queue no
program. -/
theorem keep_foldl {motive : Session → Prop}
    (change : ∀ {session next : Session} {calls : List Queue.Call}, session.Change calls next →
      motive session → motive next)
    (clear : ∀ (session : Session) (now : Int), motive session → motive (session.clear now).2)
    {steps : List Step} (kept : session.KeepsProgram steps) (holds : motive session) :
    motive (steps.foldl step session) := by
  induction steps generalizing session with
  | nil => exact holds
  | cons taken steps ih => exact ih kept.2 (keep_step change clear kept.1 holds)

end Session

end GcodeSender
