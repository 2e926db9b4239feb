import GcodeSender.Proofs.Queue.Activity
import GcodeSender.Proofs.Queue.Holding
import GcodeSender.Proofs.Queue.Verdicts

/-!
# What a received line does to a queue

A queue acts on a response only through what it says about the command on its way (`Verdict`) and
through the alarm, so every line that is no verdict, whatever it looks like, leaves the whole
queue as it was. The main statement says what any line does to a queue after any calls
(`Queue.Hears`).
-/
namespace GcodeSender

namespace Queue

variable {queue : Queue}

/-! ## Responses -/

/-- A command is on its way until it ends. -/
theorem inFlight_respond (now : Int) (response : Response) :
    (queue.respond now response).2.inFlight =
      if (outcomeOf response).isSome then none else queue.inFlight := by
  unfold respond
  cases outcomeOf response with
  | none => exact inFlight_afterAlarm response
  | some outcome => exact (inFlight_afterAlarm response).trans (inFlight_finish now outcome)

/-- A response that ends no command and is no alarm leaves a queue as it was. -/
theorem Noted.respond_of_calm (noted : queue.Noted) {now : Int} {response : Response}
    (nothing : (queue.respond now response).1 = none)
    (calm : ∀ complaint, response ≠ .alarm complaint) :
    queue.respond now response = (none, queue) := by
  have noAlarm : queue.afterAlarm response = queue := by
    cases response with
    | alarm complaint => exact absurd rfl (calm complaint)
    | _ => rfl
  rw [respond_fst] at nothing
  unfold respond
  cases said : outcomeOf response with
  | none =>
    dsimp only
    rw [noAlarm, noted.noteActivity_eq]
  | some outcome =>
    have idle : queue.inFlight = none := by
      cases waiting : queue.inFlight with
      | none => rfl
      | some sent =>
        rw [waiting, said] at nothing
        cases nothing
    have unfinished : queue.finish now outcome = (none, queue) := by
      unfold finish
      rw [idle]
    dsimp only
    rw [unfinished, noAlarm, noted.noteActivity_eq]

/-- A queue is paused after a response if it was before or the response is an alarm. -/
theorem paused_respond_iff (now : Int) (response : Response) :
    (queue.respond now response).2.paused = true ↔
      queue.paused = true ∨ ∃ complaint, outcomeOf response = some (.alarmed complaint) := by
  cases response <;> simp [respond, outcomeOf, afterAlarm, report, noteActivity]

/-! ## Lines -/

/-- What a line without blanks at its ends does to a queue that answers to it. -/
structure Hears (queue : Queue) (text : Bytes) (answer : Option CommandResult × Queue) :
    Prop where
  /-- A command is ended exactly if one is on its way and the line is a verdict. -/
  ends_iff : answer.1.isSome = true ↔ queue.inFlight.isSome = true ∧ IsVerdict text
  /-- It is the one that was on its way, and it was carried out only if the line is `ok`. -/
  result : ∀ result ∈ answer.1, result.command ∈ queue.onTheWay ∧
    Verdict text result.outcome ∧
    result.outcome.stateName = if text = ascii "ok" then ascii "Acked" else ascii "Failed"
  /-- It is no longer on its way, and nothing else leaves it. -/
  inFlight : answer.2.inFlight = if answer.1.isSome then none else queue.inFlight
  /-- The queue is paused exactly if it was before or the line is an alarm. -/
  paused_iff : answer.2.paused = true ↔ queue.paused = true ∨ ascii "ALARM:" <+: text
  /-- The commands that wait stay. -/
  pending : answer.2.pending = queue.pending
  /-- Any line that is no verdict changes nothing at all. -/
  other : ¬ IsVerdict text → answer = (none, queue)
  /-- No more does a verdict that ends nothing and is no alarm. -/
  stray : queue.inFlight = none → ¬ ascii "ALARM:" <+: text → answer = (none, queue)

/-- An alarm is said exactly by the lines that start as one. -/
theorem alarmed_iff {text : Bytes} :
    (∃ complaint, outcomeOf (Response.ofTrimmed text) = some (.alarmed complaint)) ↔
      ascii "ALARM:" <+: text := by
  constructor
  · rintro ⟨complaint, said⟩
    cases Response.verdict_of_outcomeOf said
    exact List.prefix_append _ _
  · rintro ⟨body, rfl⟩
    exact ⟨.ofBody body, by rw [Response.ofTrimmed_alarm, outcomeOf]⟩

/-- A queue that has noted its activity hears every line as what it says about commands. -/
theorem Noted.hears (noted : queue.Noted) (now : Int) (text : Bytes) :
    queue.Hears text (queue.respond now (Response.ofTrimmed text)) := by
  have verdict_iff : IsVerdict text ↔ (outcomeOf (Response.ofTrimmed text)).isSome = true := by
    rw [← not_iff_not, ← Response.outcomeOf_ofTrimmed_eq_none_iff, Bool.not_eq_true,
      Option.isSome_eq_false_iff, Option.isNone_iff_eq_none]
  have ends_iff : (queue.respond now (Response.ofTrimmed text)).1.isSome = true ↔
      queue.inFlight.isSome = true ∧ IsVerdict text := by
    rw [verdict_iff, respond_fst]
    cases queue.inFlight <;> simp
  have unchanged (nothing : (queue.respond now (Response.ofTrimmed text)).1 = none)
      (calm : ¬ ascii "ALARM:" <+: text) :
      queue.respond now (Response.ofTrimmed text) = (none, queue) := by
    refine noted.respond_of_calm nothing fun complaint same => ?_
    exact calm (alarmed_iff.mp ⟨complaint, by rw [same, outcomeOf]⟩)
  refine ⟨ends_iff, ?_, ?_, ?_, (settles_respond queue now _).pending, ?_, ?_⟩
  · intro result member
    rw [Option.mem_def, respond_fst, Option.bind_eq_some_iff] at member
    obtain ⟨sent, waiting, member⟩ := member
    obtain ⟨outcome, said, rfl⟩ := Option.map_eq_some_iff.mp member
    have verdict : Verdict text outcome := Response.verdict_of_outcomeOf said
    refine ⟨?_, verdict, verdict.stateName⟩
    rw [onTheWay, waiting]
    exact List.mem_singleton.mpr rfl
  · rw [inFlight_respond, respond_fst]
    cases outcomeOf (Response.ofTrimmed text) <;> cases queue.inFlight <;> rfl
  · rw [paused_respond_iff, alarmed_iff]
  · intro other
    have nothing : (queue.respond now (Response.ofTrimmed text)).1 = none := by
      rw [← Option.not_isSome_iff_eq_none, ends_iff]
      exact fun ends => other ends.2
    exact unchanged nothing fun alarm => other (.inr (.inr (.inl alarm)))
  · intro idle calm
    have nothing : (queue.respond now (Response.ofTrimmed text)).1 = none := by
      rw [respond_fst, idle, Option.bind_none]
    exact unchanged nothing calm

namespace History

/-- Whatever was called of a queue, a received line ends a command exactly if one is on its way
and the line, without the blanks at its ends, is `ok` or starts as an error, an alarm or a banner.
It was carried out only for `ok` and failed otherwise; only an alarm pauses the queue; the
commands that wait stay; and any other line leaves the whole queue as it was. -/
theorem received_line_settles (settings : QueueSettings) (calls : List Call) (now : Int)
    (line : Bytes) :
    (run settings calls).queue.Hears (trim line)
      ((run settings calls).queue.respond now (Response.ofLine line)) :=
  (noted_run settings calls).hears now (trim line)

/-- A report that is cut off ends no command, and a banner that came with blanks does. -/
example :
    let queue := (run {} [.enqueue (ascii "G0 X1"), .dequeue 0]).queue
    (queue.respond 5 (.ofLine (ascii "<Idle|ok"))).1 = none ∧
      (queue.respond 5 (.ofLine (ascii " Grbl 1.1h\r"))).1 =
        some ⟨1, ascii "G0 X1", .reset, 5⟩ := by
  decide +kernel

end History

end Queue

end GcodeSender
