import GcodeSender.Proofs.Decimal.Integers
import GcodeSender.Proofs.Queue.Holding
import GcodeSender.Proofs.Queue.Verdicts

/-!
# A queue and a controller

A queue sends its commands over a link to a controller, which answers each line that it receives
with `ok` or an error code, in order, and may say other things in between; its lines come back
over a second link. No answer names the command that it answers. That each result is still about
the right command rests on one invariant (`Exchange.Sound`): what was sent is what the
controller has heard followed by what is on its way to it, and what it has answered is what the
results say followed by what is on its way back. With one command in flight at a time the two
links and the controller together hold no more than one line without a result.
-/
namespace GcodeSender

/-! ## Lines of the controller -/

/-- What a controller answers to a line. -/
inductive Answer where
  /-- The line was carried out. -/
  | ok
  /-- The line was refused, with a code. -/
  | error (code : Int32)

namespace Answer

/-- The line of an answer. -/
def line : Answer → Bytes
  | ok => ascii "ok"
  | error code => ascii "error:" ++ Decimal.signedDigits code.toInt

/-- The outcome that an answer gives a command. -/
def outcome : Answer → Outcome
  | ok => .acked
  | error code => .refused (.code code.toInt)

/-- The line of an error reads as that error. -/
theorem ofLine_error (code : Int32) :
    Response.ofLine (ascii "error:" ++ Decimal.signedDigits code.toInt) =
      .error (.code code.toInt) := by
  have solid : ∀ c ∈ ascii "error:" ++ Decimal.signedDigits code.toInt,
      Byte.isBlank c = false := by
    intro c member
    rcases List.mem_append.mp member with mark | digits
    · have mark_solid : (ascii "error:").all (!Byte.isBlank ·) = true := by decide
      have plain := List.all_eq_true.mp mark_solid c mark
      simpa using plain
    · exact Decimal.solid_signedDigits _ c digits
  rw [Response.ofLine, trim_of_solid solid, Response.ofTrimmed_error, Complaint.ofBody,
    Decimal.readInteger?_signedDigits]

/-- The line of an answer reads as a response with its outcome. -/
theorem outcomeOf_line (answer : Answer) :
    Queue.outcomeOf (Response.ofLine answer.line) = some answer.outcome := by
  cases answer with
  | ok => decide
  | error code =>
    rw [line, ofLine_error]
    rfl

end Answer

/-- A response that says something about the machine and answers nothing. -/
def Response.isAside : Response → Bool
  | .status _ | .setting _ _ | .feedback _ => true
  | _ => false

/-- A line of the controller. -/
inductive Signal where
  /-- An answer to a line. -/
  | answer (answer : Answer)
  /-- A status report, a setting or feedback. -/
  | aside (line : Bytes) (aside : (Response.ofLine line).isAside = true)

namespace Signal

/-- The bytes of a line. -/
def line : Signal → Bytes
  | answer reply => reply.line
  | aside text _ => text

/-- The answer that a line is, if it is one. -/
def answer? : Signal → Option Answer
  | answer reply => some reply
  | aside _ _ => none

/-- The outcome of a line is that of the answer that it is. -/
theorem outcomeOf_line (signal : Signal) :
    Queue.outcomeOf (Response.ofLine signal.line) = signal.answer?.map Answer.outcome := by
  cases signal with
  | answer answer => exact answer.outcomeOf_line
  | aside line aside =>
    show Queue.outcomeOf (Response.ofLine line) = none
    cases kind : Response.ofLine line with
    | status report => rfl
    | setting number value => rfl
    | feedback text => rfl
    | ok => rw [kind] at aside; cases aside
    | error complaint => rw [kind] at aside; cases aside
    | alarm complaint => rw [kind] at aside; cases aside
    | welcome version text => rw [kind] at aside; cases aside

end Signal

namespace Queue

variable {queue : Queue}

/-- A response that ends a command gives the result of the one on its way. -/
theorem outcome_respond (queue : Queue) (now : Int) (response : Response) :
    (queue.respond now response).1.map CommandResult.outcome =
      if queue.inFlight.isSome then outcomeOf response else none := by
  rw [respond_fst]
  cases queue.inFlight with
  | none => rfl
  | some sent => cases outcomeOf response <;> rfl

end Queue

/-! ## Steps -/

/-- A queue, a controller and the two links between them. -/
structure Exchange where
  /-- The queue, with the record of its calls. -/
  history : Queue.History
  /-- The lines on their way to the controller, the earliest first. -/
  outward : List Bytes := []
  /-- The lines that the controller has received. -/
  heard : List Bytes := []
  /-- The answers that the controller has given. -/
  answers : List Answer := []
  /-- The lines on their way back, the earliest first. -/
  inward : List Signal := []

namespace Exchange

/-- One step of a queue, a controller or a link. -/
inductive Step where
  /-- A command is queued. -/
  | enqueue (text : Bytes)
  /-- Several commands are queued, or none. -/
  | enqueueBatch (texts : List Bytes)
  /-- The next command is sent, if one can be. -/
  | send (now : Int)
  /-- The first line on its way reaches the controller. -/
  | deliver
  /-- The controller answers the first line that it did not answer yet. -/
  | answer (answer : Answer)
  /-- The controller says something else. -/
  | aside (line : Bytes) (aside : (Response.ofLine line).isAside = true)
  /-- The first line on its way back reaches the queue. -/
  | receive (now : Int)
  /-- The queue is paused. -/
  | pause
  /-- The queue is resumed. -/
  | resume
  /-- The queue is paused if commands wait. -/
  | pauseIfPending
  /-- The commands that wait are dropped. -/
  | clear

/-- The exchange after a call of its queue. -/
def call (exchange : Exchange) (made : Queue.Call) : Exchange :=
  { exchange with history := exchange.history.apply made }

/-- The exchange after a step. -/
def step (exchange : Exchange) : Step → Exchange
  | .enqueue text => exchange.call (.enqueue text)
  | .enqueueBatch texts => exchange.call (.enqueueBatch texts)
  | .send now =>
    let sent := (exchange.history.queue.dequeue now).1
    { exchange.call (.dequeue now) with
      outward := exchange.outward ++ sent.toList.map SentCommand.text }
  | .deliver =>
    match exchange.outward with
    | [] => exchange
    | line :: others => { exchange with outward := others, heard := exchange.heard ++ [line] }
  | .answer answer =>
    if exchange.answers.length < exchange.heard.length then
      { exchange with
        answers := exchange.answers ++ [answer]
        inward := exchange.inward ++ [.answer answer] }
    else exchange
  | .aside line aside => { exchange with inward := exchange.inward ++ [.aside line aside] }
  | .receive now =>
    match exchange.inward with
    | [] => exchange
    | signal :: others =>
      { exchange.call (.respond now (Response.ofLine signal.line)) with inward := others }
  | .pause => exchange.call .pause
  | .resume => exchange.call .resume
  | .pauseIfPending => exchange.call .pauseIfPending
  | .clear => exchange.call .clear

/-- A new queue and a controller after steps. -/
def after (settings : QueueSettings) (steps : List Step) : Exchange :=
  steps.foldl step { history := { queue := Queue.create settings } }

/-- The answers on their way back. -/
def returning (exchange : Exchange) : List Answer := exchange.inward.filterMap Signal.answer?

/-- How many lines have no answer that the queue has received: those on their way to the
controller, those that it did not answer yet, and those whose answers are on their way back. -/
def unanswered (exchange : Exchange) : Nat :=
  exchange.outward.length + (exchange.heard.length - exchange.answers.length) +
    exchange.returning.length

/-! ## The invariant -/

variable {exchange : Exchange}

/-- The links carry what was sent and not heard, and what was answered and has no result. -/
structure Sound (exchange : Exchange) : Prop where
  /-- The record and the queue agree. -/
  consistent : exchange.history.Consistent
  /-- What was sent was heard or is on its way, in order. -/
  carried : exchange.history.sent.map SentCommand.text = exchange.heard ++ exchange.outward
  /-- What was answered has a result or is on its way back, in order. -/
  answered : exchange.answers.map Answer.outcome =
    exchange.history.results.map CommandResult.outcome ++ exchange.returning.map Answer.outcome
  /-- No line is answered before it is heard. -/
  heard : exchange.answers.length ≤ exchange.heard.length

/-- As many commands were sent as have a result or are on their way. -/
theorem Sound.length_sent (sound : exchange.Sound) : exchange.history.sent.length =
    exchange.history.results.length + exchange.history.queue.inFlight.toList.length := by
  have settled := congrArg List.length sound.consistent.settled
  simpa [Queue.onTheWay] using settled

/-- As many commands were sent as were heard or are on their way to the controller. -/
theorem Sound.length_carried (sound : exchange.Sound) : exchange.history.sent.length =
    exchange.heard.length + exchange.outward.length := by
  have carried := congrArg List.length sound.carried
  simpa using carried

/-- As many lines were answered as have a result or an answer on its way back. -/
theorem Sound.length_answered (sound : exchange.Sound) : exchange.answers.length =
    exchange.history.results.length + exchange.returning.length := by
  have answered := congrArg List.length sound.answered
  simpa using answered

/-- The lines without an answer are those of the command in flight. -/
theorem Sound.unanswered_eq (sound : exchange.Sound) :
    exchange.unanswered = exchange.history.queue.inFlight.toList.length := by
  have sent := sound.length_sent
  have carried := sound.length_carried
  have answered := sound.length_answered
  have heard := sound.heard
  unfold unanswered
  omega

/-- A call that neither gives a command out nor ends one keeps the invariant. -/
theorem Sound.call (sound : exchange.Sound) {made : Queue.Call}
    (sent : (exchange.history.apply made).sent = exchange.history.sent)
    (results : (exchange.history.apply made).results = exchange.history.results) :
    (exchange.call made).Sound :=
  ⟨sound.consistent.apply made, (congrArg _ sent).trans sound.carried,
    sound.answered.trans (by rw [Exchange.call, results]; rfl), sound.heard⟩

/-- Sending puts on the link what the queue gives out. -/
theorem Sound.send (sound : exchange.Sound) (now : Int) : (exchange.step (.send now)).Sound := by
  refine ⟨sound.consistent.apply (.dequeue now), ?_, sound.answered, sound.heard⟩
  show (exchange.history.sent ++ (exchange.history.queue.dequeue now).1.toList).map
      SentCommand.text = exchange.heard ++ (exchange.outward ++ _)
  rw [List.map_append, sound.carried, List.append_assoc]

/-- A line that reaches the controller is heard. -/
theorem Sound.deliver (sound : exchange.Sound) : (exchange.step .deliver).Sound := by
  unfold step
  dsimp only
  split
  · exact sound
  · next line others way =>
    refine ⟨sound.consistent, ?_, sound.answered, ?_⟩
    · rw [sound.carried, way, List.append_assoc]
      rfl
    · have heard := sound.heard
      simp only [List.length_append]
      omega

/-- An answer goes on its way back. -/
theorem Sound.answer (sound : exchange.Sound) (answer : Answer) :
    (exchange.step (.answer answer)).Sound := by
  unfold step
  dsimp only
  split
  · next open_ =>
    refine ⟨sound.consistent, sound.carried, ?_, ?_⟩
    · rw [List.map_append, sound.answered, returning, returning, List.filterMap_append,
        List.map_append, List.append_assoc]
      rfl
    · rw [List.length_append]
      exact open_
  · exact sound

/-- What answers nothing is on its way back beside the answers. -/
theorem Sound.aside (sound : exchange.Sound) (line : Bytes)
    (aside : (Response.ofLine line).isAside = true) :
    (exchange.step (.aside line aside)).Sound := by
  refine ⟨sound.consistent, sound.carried, ?_, sound.heard⟩
  rw [step, returning, List.filterMap_append]
  show _ = _ ++ List.map _ (_ ++ [])
  rw [List.append_nil]
  exact sound.answered

/-- While an answer is on its way back, the command that it answers is in flight. -/
theorem Sound.inFlight_of_returning (sound : exchange.Sound)
    (returns : exchange.returning ≠ []) : exchange.history.queue.inFlight.isSome = true := by
  have some_answer := List.length_pos_iff.mpr returns
  have sent := sound.length_sent
  have carried := sound.length_carried
  have answered := sound.length_answered
  have heard := sound.heard
  cases way : exchange.history.queue.inFlight with
  | some command => rfl
  | none =>
    rw [way] at sent
    simp only [Option.toList_none, List.length_nil] at sent
    omega

/-- An answer that comes back gives the command in flight its outcome; anything else that comes
back gives none. -/
theorem Sound.receive (sound : exchange.Sound) (now : Int) :
    (exchange.step (.receive now)).Sound := by
  unfold step
  dsimp only
  split
  · exact sound
  · next signal others way =>
    refine ⟨sound.consistent.apply (.respond now (Response.ofLine signal.line)), sound.carried, ?_,
      sound.heard⟩
    have given : (exchange.history.queue.respond now (Response.ofLine signal.line)).1.map
        CommandResult.outcome = signal.answer?.map Answer.outcome := by
      rw [Queue.outcome_respond, signal.outcomeOf_line]
      cases reply : signal.answer? with
      | none => simp
      | some answer =>
        have returns : exchange.returning ≠ [] := by simp [returning, way, reply]
        rw [if_pos (sound.inFlight_of_returning returns)]
    have first : exchange.returning =
        signal.answer?.toList ++ others.filterMap Signal.answer? := by
      cases reply : signal.answer? <;> simp [returning, way, reply]
    have moved : ((exchange.history.queue.respond now (Response.ofLine signal.line)).1.toList).map
        CommandResult.outcome = signal.answer?.toList.map Answer.outcome := by
      rw [← Option.toList_map, given, Option.toList_map]
    show exchange.answers.map Answer.outcome = (exchange.history.results ++
      (exchange.history.queue.respond now (Response.ofLine signal.line)).1.toList).map _ ++ _
    rw [sound.answered, first, List.map_append, List.map_append, moved, List.append_assoc]
    rfl

/-- Every step keeps the invariant. -/
theorem Sound.step (sound : exchange.Sound) (taken : Step) : (exchange.step taken).Sound := by
  cases taken with
  | enqueue text => exact sound.call rfl rfl
  | enqueueBatch texts => exact sound.call rfl rfl
  | send now => exact sound.send now
  | deliver => exact sound.deliver
  | answer answer => exact sound.answer answer
  | aside line aside => exact sound.aside line aside
  | receive now => exact sound.receive now
  | pause => exact sound.call rfl rfl
  | resume => exact sound.call rfl rfl
  | pauseIfPending => exact sound.call rfl rfl
  | clear => exact sound.call rfl rfl

/-- The invariant holds after any steps of a new queue. -/
theorem sound_after (settings : QueueSettings) (steps : List Step) :
    (after settings steps).Sound := by
  have start : Sound { history := { queue := Queue.create settings } } :=
    ⟨Queue.History.consistent_create settings, rfl, rfl, Nat.le_refl 0⟩
  have kept : ∀ exchange : Exchange, exchange.Sound →
      (steps.foldl Exchange.step exchange).Sound := by
    induction steps with
    | nil => exact fun exchange sound => sound
    | cons taken steps ih => exact fun exchange sound => ih _ (sound.step taken)
  exact kept _ start

/-! ## What the invariant says -/

/-- The result in a place is about the command sent in that place and has the outcome of the
answer in that place. -/
theorem Sound.result (sound : exchange.Sound) {place : Nat} {result : CommandResult}
    (given : exchange.history.results[place]? = some result) :
    ∃ sent answer, exchange.history.sent[place]? = some sent ∧
      exchange.heard[place]? = some sent.text ∧ exchange.answers[place]? = some answer ∧
      result.command = sent.command ∧ result.outcome = answer.outcome := by
  have inside := (List.getElem?_eq_some_iff.mp given).1
  have sent := sound.length_sent
  have answered := sound.length_answered
  have heard := sound.heard
  have carried := sound.length_carried
  obtain ⟨command, out⟩ : ∃ command, exchange.history.sent[place]? = some command :=
    ⟨_, List.getElem?_eq_getElem (by omega)⟩
  obtain ⟨answer, back⟩ : ∃ answer, exchange.answers[place]? = some answer :=
    ⟨_, List.getElem?_eq_getElem (by omega)⟩
  have settled := congrArg (·[place]?) sound.consistent.settled
  have arrived := congrArg (·[place]?) sound.carried
  have replied := congrArg (·[place]?) sound.answered
  simp only [List.getElem?_map, out, given, back, Option.map_some,
    List.getElem?_append_left (show place < (exchange.history.results.map
      CommandResult.command).length by simpa using inside),
    List.getElem?_append_left (show place < (exchange.history.results.map
      CommandResult.outcome).length by simpa using inside),
    List.getElem?_append_left (show place < exchange.heard.length by omega),
    Option.some.injEq] at settled arrived replied
  exact ⟨command, answer, out, arrived.symm, back, settled.symm, replied.symm⟩

/-- Whatever steps a new queue, its links and a controller take, no more than one line is
without an answer. The results are in order about the commands that were sent, each under a
number of its own, and each result has the outcome of the controller's answer to the line of its
command: acknowledged for `ok`, failed with the code for an error. And where no command holds a
line feed, the lines of the bytes that were sent are the lines heard and those on their way. -/
theorem one_line_unanswered_and_results_match_answers (settings : QueueSettings)
    (steps : List Step) :
    (after settings steps).unanswered ≤ 1 ∧
      (∀ (place : Nat) (result : CommandResult),
        (after settings steps).history.results[place]? = some result →
        ∃ sent answer, (after settings steps).history.sent[place]? = some sent ∧
          (after settings steps).heard[place]? = some sent.text ∧
          (after settings steps).answers[place]? = some answer ∧
          result.command = sent.command ∧ result.outcome = answer.outcome) ∧
      ((after settings steps).history.sent.map SentCommand.id).Pairwise (· < ·) ∧
      ((∀ sent ∈ (after settings steps).history.sent, Byte.newline ∉ sent.text) →
        lines ((after settings steps).history.sent.flatMap SentCommand.line) =
          (after settings steps).heard ++ (after settings steps).outward) := by
  have sound := sound_after settings steps
  refine ⟨?_, fun place result given => sound.result given, sound.consistent.sent_increasing,
    fun clean => ?_⟩
  · rw [sound.unanswered_eq]
    cases (after settings steps).history.queue.inFlight <;> simp
  · have joined : (after settings steps).history.sent.flatMap SentCommand.line =
        ((after settings steps).history.sent.map SentCommand.text).flatMap
          (· ++ [Byte.newline]) := by
      rw [List.flatMap_map]
      rfl
    rw [joined, ← sound.carried]
    refine pieces_flatMap_append _ fun text member => ?_
    obtain ⟨sent, given, rfl⟩ := List.mem_map.mp member
    exact clean sent given

end Exchange

end GcodeSender
