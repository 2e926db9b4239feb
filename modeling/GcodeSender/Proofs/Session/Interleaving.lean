import GcodeSender.Proofs.Session.Requests

/-!
# Interleaved loops

The sending loop takes a command out of the queue and writes it in two steps, and lines that
arrive, requests and the other loops may come between the two. An alarm that comes between pauses
the queue and fails the command in hand, but the loop does not look back before it writes. The
main statement says how far that goes, for every interleaving: of all commands, exactly the one in
hand can be written after an alarm before a resumption, and exactly the one in hand can be
written after it was reported.
-/
namespace GcodeSender

/-- A session, and what its sending loop has in hand. -/
structure Loops where
  /-- The session. -/
  session : Session
  /-- The command that the sending loop took out and did not write yet. -/
  hand : Option SentCommand := none
  /-- The commands whose lines were written, the earliest first. -/
  written : List SentCommand := []

namespace Loops

/-! ## Moves -/

/-- What one thread does without interruption. -/
inductive Move where
  /-- A request. One that ends the loops waits for the sending loop to write what it has in
  hand, which the link may refuse. -/
  | request (request : Session.Request) (now : Int) (refusal : Option Bytes)
  /-- One turn of the receiving loop that meets something. -/
  | receive (now : Int) (received : Received)
  /-- One turn of the polling loop. -/
  | poll (now : Int) (refusal : Option Bytes)
  /-- The sending loop ends a command that was not answered in time when it checked the clock. -/
  | expire (checked now : Int)
  /-- The sending loop takes out the next command. -/
  | take (now : Int)
  /-- The sending loop writes the command that it has in hand, which the link may refuse. -/
  | write (now : Int) (refusal : Option Bytes)

/-- A move is a request to go on sending. -/
def Move.resumes : Move → Bool
  | .request .resume _ _ => true
  | _ => false

/-- A request ends the loops: it closes the link, or opens it anew after a failure. -/
def endsLoops (session : Session) : Session.Request → Bool
  | .disconnect _ => true
  | .connect _ =>
    !session.isConnected && session.transport.isSome && session.settings.isValid
  | _ => false

/-- The sending loop writes the command that it has in hand. -/
def write (loops : Loops) (now : Int) (refusal : Option Bytes) : Loops :=
  match loops.hand with
  | none => loops
  | some command =>
    { session := loops.session.writeCommand now command refusal
      hand := none
      written := if refusal.isNone then loops.written ++ [command] else loops.written }

/-- The loops are told to stop, and the sending loop writes the command that it has in hand. -/
def stop (loops : Loops) (now : Int) (refusal : Option Bytes) : Loops :=
  { loops with session := { loops.session with running := false } }.write now refusal

/-- The loops after a move. The sending loop does one thing at a time, so it looks at the clock
and takes a command out only with nothing in hand. -/
def move (loops : Loops) : Move → Loops
  | .request request now refusal =>
    let loops := if endsLoops loops.session request then loops.stop now refusal else loops
    { loops with session := loops.session.serve request }
  | .receive now received => { loops with session := loops.session.receive now received }
  | .poll now refusal => { loops with session := loops.session.poll now refusal }
  | .expire checked now =>
    if loops.hand.isNone then { loops with session := loops.session.expire checked now }
    else loops
  | .take now =>
    if loops.hand.isNone then
      let (command, session) := loops.session.takeCommand now
      { loops with session := session, hand := command }
    else loops
  | .write now refusal => loops.write now refusal

/-- A new session after moves. -/
def after (settings : SessionSettings) (transport : Option Bytes) (moves : List Move) : Loops :=
  moves.foldl move { session := .create settings transport }

/-! ## What moves write -/

variable {loops middle next : Loops} {calls more : List Queue.Call}
  {lines others : List SentCommand}

/-- The session makes calls and writes the lines of commands, and of these commands and the one
then in hand each was in hand before or is given out by the calls. -/
structure Goes (loops : Loops) (calls : List Queue.Call) (lines : List SentCommand)
    (next : Loops) : Prop where
  /-- The session makes the calls and writes the lines. -/
  makes : loops.session.Makes calls (lines.map SentCommand.line) next.session
  /-- The commands are written after those before. -/
  written : next.written = loops.written ++ lines
  /-- What is written or in hand was in hand or is given out. -/
  hand : ∀ history : Queue.History, history.Tracks loops.session →
    ∃ fresh, (calls.foldl Queue.History.apply history).sent = history.sent ++ fresh ∧
      (lines ++ next.hand.toList).Sublist (loops.hand.toList ++ fresh)

/-- Nothing happens. -/
theorem goes_self (loops : Loops) : loops.Goes [] [] loops := by
  refine ⟨Session.makes_self _, (List.append_nil _).symm, fun history _ => ⟨[], ?_, ?_⟩⟩
  · exact (List.append_nil _).symm
  · rw [List.append_nil, List.nil_append]

/-- One thing after another. -/
theorem Goes.trans (first : loops.Goes calls lines middle)
    (second : middle.Goes more others next) :
    loops.Goes (calls ++ more) (lines ++ others) next := by
  refine ⟨?_, ?_, fun history tracked => ?_⟩
  · rw [List.map_append]
    exact first.makes.trans second.makes
  · rw [second.written, first.written, List.append_assoc]
  · obtain ⟨early, sent, before⟩ := first.hand history tracked
    obtain ⟨late, kept, behind⟩ := second.hand _ (first.makes.tracks history tracked)
    refine ⟨early ++ late, ?_, ?_⟩
    · rw [List.foldl_append, kept, sent, List.append_assoc]
    · -- The second stretch writes from the hand that the first one leaves.
      have joined : (lines ++ (others ++ next.hand.toList)).Sublist
          (lines ++ (middle.hand.toList ++ late)) := behind.append_left lines
      rw [← List.append_assoc lines middle.hand.toList late] at joined
      rw [List.append_assoc, ← List.append_assoc loops.hand.toList]
      exact joined.trans (before.append_right late)

/-- A session that gives nothing out and writes no command leaves the hand as it is. -/
theorem goes_of_makes {session : Session} (made : loops.session.Makes calls [] session)
    (kept : ∀ call ∈ calls, call.givesOut = false) :
    loops.Goes calls [] { loops with session := session } := by
  refine ⟨made, (List.append_nil _).symm, fun history _ => ⟨[], ?_, ?_⟩⟩
  · rw [Queue.History.sent_foldl kept, List.append_nil]
  · rw [List.append_nil, List.nil_append]

/-- Writing writes what is in hand, or drops it. -/
theorem goes_write (loops : Loops) (now : Int) (refusal : Option Bytes) :
    ∃ calls lines, loops.Goes calls lines (loops.write now refusal) ∧
      ∀ call ∈ calls, call.settles = true := by
  unfold write
  cases held : loops.hand with
  | none => exact ⟨[], [], goes_self loops, by simp⟩
  | some command =>
    cases refusal with
    | none =>
      refine ⟨[], [command], ⟨?_, rfl, fun history _ => ⟨[], ?_, ?_⟩⟩, by simp⟩
      · exact Session.makes_writeCommand loops.session now command
      · exact (List.append_nil _).symm
      · rw [held]
        exact List.Sublist.refl [command]
    | some reason =>
      obtain ⟨calls, made, settle⟩ :=
        Session.makes_writeCommand_refused loops.session now command reason
      refine ⟨calls, [], ⟨made, (List.append_nil _).symm, fun history _ => ⟨[], ?_, ?_⟩⟩, settle⟩
      · rw [Queue.History.sent_foldl fun call member =>
          Queue.Call.givesOut_of_settles (settle call member), List.append_nil]
      · exact List.nil_sublist _

/-- Stopping writes what is in hand, or drops it. -/
theorem goes_stop (loops : Loops) (now : Int) (refusal : Option Bytes) :
    ∃ calls lines, loops.Goes calls lines (loops.stop now refusal) ∧
      ∀ call ∈ calls, call.settles = true := by
  have told : loops.Goes [] []
      { loops with session := { loops.session with running := false } } :=
    goes_of_makes (Session.makes_of_eq rfl rfl) (by simp)
  obtain ⟨calls, lines, wrote, settle⟩ :=
    goes_write { loops with session := { loops.session with running := false } } now refusal
  exact ⟨calls, lines, told.trans wrote, settle⟩

/-- Taking out the next command puts it in hand. -/
theorem goes_take (loops : Loops) (now : Int) :
    ∃ calls lines, loops.Goes calls lines (loops.move (.take now)) ∧
      ∀ call ∈ calls, call ≠ .resume := by
  unfold move
  dsimp only
  split
  · next empty =>
    have bare : loops.hand = none := Option.isNone_iff_eq_none.mp empty
    by_cases running : loops.session.running = true
    · refine ⟨[.dequeue now], [], ⟨?_, (List.append_nil _).symm, fun history tracked => ?_⟩,
        by simp⟩
      · exact Session.makes_takeCommand running now
      · refine ⟨(history.queue.dequeue now).1.toList, rfl, ?_⟩
        have taken : (loops.session.takeCommand now).1 = (history.queue.dequeue now).1 := by
          rw [tracked.queue, Session.takeCommand, if_pos running]
        simp [bare, taken]
    · refine ⟨[], [], ?_, by simp⟩
      rw [Session.takeCommand_of_not_running (Bool.eq_false_iff.mpr running), ← bare]
      exact goes_self loops
  · exact ⟨[], [], goes_self loops, by simp⟩

/-- Of what a move writes or leaves in hand each command was in hand or is given out, and only
a request to resume makes a resumption. -/
theorem goes_move (loops : Loops) (made : Move) :
    ∃ calls lines, loops.Goes calls lines (loops.move made) ∧
      (made.resumes = false → ∀ call ∈ calls, call ≠ .resume) := by
  have settled {calls : List Queue.Call} (settle : ∀ call ∈ calls, call.settles = true) :
      (∀ call ∈ calls, call.givesOut = false) ∧ ∀ call ∈ calls, call ≠ .resume :=
    ⟨fun call member => Queue.Call.givesOut_of_settles (settle call member),
      fun call member => Queue.Call.ne_resume_of_settles (settle call member)⟩
  cases made with
  | request request now refusal =>
    have stopped : ∃ calls lines, loops.Goes calls lines
        (if endsLoops loops.session request then loops.stop now refusal else loops) ∧
        ∀ call ∈ calls, call.settles = true := by
      split
      · exact goes_stop loops now refusal
      · exact ⟨[], [], goes_self loops, by simp⟩
    obtain ⟨first, lines, ended, settle⟩ := stopped
    obtain ⟨calls, served, warranted⟩ := Session.makes_serve
      (if endsLoops loops.session request then loops.stop now refusal else loops).session request
    have quiet : ∀ call ∈ calls, call.givesOut = false := fun call member => by
      have asked := warranted call member
      cases call with
      | dequeue now => cases asked.1
      | _ => rfl
    refine ⟨_, _, ended.trans (goes_of_makes served quiet), fun other call member => ?_⟩
    rcases List.mem_append.mp member with early | late
    · exact (settled settle).2 call early
    · rintro rfl
      have asked : some request = some .resume := warranted _ late
      cases asked
      cases other
  | receive now received =>
    obtain ⟨calls, got, settle⟩ := Session.makes_receive loops.session now received
    exact ⟨calls, [], goes_of_makes got (settled settle).1, fun _ => (settled settle).2⟩
  | poll now refusal =>
    obtain ⟨calls, asked, settle⟩ := Session.makes_poll loops.session now refusal
    exact ⟨calls, [], goes_of_makes asked (settled settle).1, fun _ => (settled settle).2⟩
  | expire checked now =>
    obtain ⟨calls, looked, settle⟩ := Session.exists_makes_expire loops.session checked now
    unfold move
    dsimp only
    split
    · exact ⟨calls, [], goes_of_makes looked (settled settle).1, fun _ => (settled settle).2⟩
    · exact ⟨[], [], goes_self loops, by simp⟩
  | take now =>
    obtain ⟨calls, lines, took, others⟩ := goes_take loops now
    exact ⟨calls, lines, took, fun _ => others⟩
  | write now refusal =>
    obtain ⟨calls, lines, wrote, settle⟩ := goes_write loops now refusal
    exact ⟨calls, lines, wrote, fun _ => (settled settle).2⟩

/-- Of what moves write or leave in hand each command was in hand or is given out, and only a
request to resume makes a resumption. -/
theorem goes_foldl (loops : Loops) (moves : List Move) :
    ∃ calls lines, loops.Goes calls lines (moves.foldl move loops) ∧
      ((∀ made ∈ moves, made.resumes = false) → ∀ call ∈ calls, call ≠ .resume) := by
  induction moves generalizing loops with
  | nil => exact ⟨[], [], goes_self loops, by simp⟩
  | cons made moves ih =>
    obtain ⟨first, lines, went, other⟩ := goes_move loops made
    obtain ⟨later, more, on, others⟩ := ih (loops.move made)
    refine ⟨_, _, went.trans on, fun none call member => ?_⟩
    rcases List.mem_append.mp member with early | late
    · exact other (none made List.mem_cons_self) call early
    · exact others (fun made member => none made (List.mem_cons_of_mem _ member)) call late

/-- Under a pause only what is in hand is written before a resumption. -/
theorem written_of_paused (held : loops.session.queue.paused = true) (later : List Move)
    (others : ∀ made ∈ later, made.resumes = false) :
    ∃ lines, (later.foldl move loops).written = loops.written ++ lines ∧
      lines.Sublist loops.hand.toList := by
  obtain ⟨calls, lines, went, other⟩ := goes_foldl loops later
  obtain ⟨fresh, sent, inside⟩ := went.hand _ loops.session.tracks_history
  have none : (calls.foldl Queue.History.apply loops.session.history).sent =
      loops.session.history.sent := (Queue.History.paused_foldl held (other others)).2
  have nothing : fresh = [] := List.append_cancel_left (by rw [← sent, none, List.append_nil])
  rw [nothing, List.append_nil] at inside
  exact ⟨lines, went.written, (List.sublist_append_left _ _).trans inside⟩

/-- Of the commands with a result only the one in hand is written later. -/
theorem ne_of_result {history : Queue.History} (tracked : history.Tracks loops.session)
    (consistent : history.Consistent) {result : CommandResult}
    (reported : result ∈ loops.session.results)
    (apart : ∀ command ∈ loops.hand, command.id ≠ result.id) (later : List Move) :
    ∃ lines, (later.foldl move loops).written = loops.written ++ lines ∧
      ∀ command ∈ lines, command.id ≠ result.id := by
  obtain ⟨calls, lines, went, _⟩ := goes_foldl loops later
  obtain ⟨fresh, sent, inside⟩ := went.hand history tracked
  refine ⟨lines, went.written, fun command member => ?_⟩
  have source := inside.subset (List.mem_append_left _ member)
  rcases List.mem_append.mp source with hand | new
  · exact apart command (Option.mem_toList.mp hand)
  · -- What is given out later had no result before.
    have unsettled := (consistent.unsettled_of_sent_later (consistent.foldl calls)
      (Queue.History.continues_foldl history calls) sent command new).1
    intro same
    refine List.count_eq_zero.mp unsettled ?_
    rw [same]
    exact List.mem_map.mpr ⟨result.command,
      List.mem_map_of_mem (tracked.results ▸ reported), rfl⟩

variable (settings : SessionSettings) (transport : Option Bytes)

/-- A history of the queue follows a new session through all moves. -/
theorem exists_tracks (moves : List Move) :
    ∃ history : Queue.History, history.Tracks (after settings transport moves).session ∧
      history.Consistent ∧ (after settings transport moves).session.commandLines =
        (after settings transport moves).written.map SentCommand.line := by
  obtain ⟨calls, lines, went, _⟩ :=
    goes_foldl { session := .create settings transport } moves
  have start : Queue.History.Tracks { queue := Queue.create settings.queue }
      (Session.create settings transport) := ⟨rfl, rfl⟩
  refine ⟨_, went.makes.tracks _ start,
    (Queue.History.consistent_create settings.queue).foldl calls, ?_⟩
  have written : (after settings transport moves).written = lines := went.written
  rw [written]
  exact went.makes.lines

/-- An alarm that is received pauses the queue. -/
theorem paused_of_alarm {now : Int} {line : Bytes} {complaint : Complaint}
    (running : loops.session.running = true) (alarm : Response.ofLine line = .alarm complaint) :
    (loops.move (.receive now (.line line))).session.queue.paused = true := by
  have solid : line.isEmpty ≠ true := fun blank => by
    rw [List.isEmpty_iff.mp blank] at alarm
    cases alarm
  show (loops.session.receive now (.line line)).queue.paused = true
  simp only [Session.receive, running, Session.handleLine, solid, alarm]
  simp [Session.observe, Queue.paused_respond_alarm]

/-- The sending loop can write what it has in hand. -/
theorem written_write {command : SentCommand} (held : loops.hand = some command) :
    ([Move.write 0 none].foldl move loops).written = loops.written ++ [command] := by
  simp [move, write, held]

/-- However the loops and the requests of a new session interleave, the command lines are those
of the commands written. After an alarm is received, no more than the command that the sending
loop has in hand is written before a resumption, and nothing is written, whatever follows,
exactly if it has nothing in hand. And a command with a published result is not written any
more, whatever follows, exactly if it is not the one in hand. -/
theorem written_later_iff_in_hand (moves : List Move) :
    (after settings transport moves).session.commandLines =
        (after settings transport moves).written.map SentCommand.line ∧
      (∀ now line complaint, (after settings transport moves).session.running = true →
        Response.ofLine line = .alarm complaint →
        (∀ later : List Move, (∀ made ∈ later, made.resumes = false) →
          ∃ lines, (after settings transport
              (moves ++ .receive now (.line line) :: later)).written =
            (after settings transport moves).written ++ lines ∧
            lines.Sublist (after settings transport moves).hand.toList) ∧
        ((∀ later : List Move, (∀ made ∈ later, made.resumes = false) →
          (after settings transport (moves ++ .receive now (.line line) :: later)).written =
            (after settings transport moves).written) ↔
          (after settings transport moves).hand = none)) ∧
      ∀ result ∈ (after settings transport moves).session.results,
        (∀ later : List Move, ∃ lines, (after settings transport (moves ++ later)).written =
            (after settings transport moves).written ++ lines ∧
            ∀ command ∈ lines, command.id ≠ result.id) ↔
          ∀ command ∈ (after settings transport moves).hand, command.id ≠ result.id := by
  have append (moves later : List Move) : after settings transport (moves ++ later) =
      later.foldl move (after settings transport moves) := List.foldl_append
  obtain ⟨history, tracked, consistent, lines⟩ := exists_tracks settings transport moves
  refine ⟨lines, fun now line complaint running alarm => ?_, fun result reported => ?_⟩
  · have paused : ((after settings transport moves).move
        (.receive now (.line line))).session.queue.paused = true :=
      paused_of_alarm running alarm
    simp only [append, List.foldl_cons]
    have bounded := fun later others => written_of_paused paused later others
    refine ⟨bounded, fun silent => ?_, fun bare later others => ?_⟩
    · -- A command in hand would be written by the next move.
      cases held : (after settings transport moves).hand with
      | none => rfl
      | some command =>
        have kept : ((after settings transport moves).move (.receive now (.line line))).hand =
            some command := held
        have same := silent [.write 0 none] (by simp [Move.resumes])
        rw [written_write kept] at same
        simp [move] at same
    · obtain ⟨lines, written, inside⟩ := bounded later others
      have none : lines = [] := by simpa [move, bare] using inside
      rw [written, none, List.append_nil]
      rfl
  · simp only [append]
    refine ⟨fun never command held => ?_, fun apart later =>
      ne_of_result tracked consistent reported apart later⟩
    obtain ⟨lines, written, others⟩ := never [.write 0 none]
    rw [written_write held] at written
    have last : [command] = lines := List.append_cancel_left written
    exact others command (by rw [← last]; exact List.mem_singleton_self command)

/-- An alarm between taking a command out and writing it: the queue is paused and the command is
reported as failed, and then it is written. -/
theorem writes_failed_command_after_alarm :
    let alarmed := after {} (some []) [.request (.connect none) 0 none,
      .request (.command (.gcode (ascii "G1 X10 F100"))) 0 none, .take 0,
      .receive 1 (.line (ascii "ALARM:1"))]
    alarmed.session.queue.paused = true ∧ alarmed.session.commandLines = [] ∧
      alarmed.session.results.map (fun result => (result.id, result.outcome.stateName)) =
        [(1, ascii "Failed")] ∧
      (alarmed.move (.write 2 none)).written.map SentCommand.id = [1] ∧
      (alarmed.move (.write 2 none)).session.commandLines =
        [ascii "G1 X10 F100" ++ [Byte.newline]] := by
  decide +kernel

end Loops

end GcodeSender
