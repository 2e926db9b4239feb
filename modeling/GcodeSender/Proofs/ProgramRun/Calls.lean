import Mathlib.Data.List.Induction
import Mathlib.Data.List.TakeWhile
import GcodeSender.ProgramRun.Tracker
import GcodeSender.Proofs.ProgramRun.Counting

/-!
# The calls of a tracker

The calls of a tracker tell which program it follows and what was recorded since then
(`Followed`), whatever the tracker makes of them. The main statement is that after any calls a
tracker has the counts that its calls tell: the results of the lines of its program are counted
until it is stopped or there are as many as lines, and nothing else is.
-/
namespace GcodeSender

namespace Tracker

/-- A call of a tracker, at any time. -/
inductive Call where
  /-- Follow the program whose lines were queued under some numbers. -/
  | start (ids : List Nat) (now : Int)
  /-- Count a command that was sent. -/
  | recordSent (id : Nat)
  /-- Count the result of a command. -/
  | recordResult (result : CommandResult) (now : Int)
  /-- Stop the program. -/
  | stop (now : Int)
  /-- Forget the program. -/
  | reset

/-- A call follows another program. -/
def Call.starts : Call → Bool
  | .start .. => true
  | _ => false

/-- A call follows another program or none. -/
def Call.clears : Call → Bool
  | .start .. | .reset => true
  | _ => false

/-- A call stops the program. -/
def Call.stops : Call → Bool
  | .stop _ => true
  | _ => false

/-- The tracker after one more call. -/
def apply (tracker : Tracker) : Call → Tracker
  | .start ids now => start ids now
  | .recordSent id => tracker.recordSent id
  | .recordResult result now => (tracker.recordResult result.id result.outcome now).2
  | .stop now => tracker.stop now
  | .reset => tracker.reset

/-- A call answers that it ended the program. -/
def ends (tracker : Tracker) : Call → Bool
  | .recordResult result now => (tracker.recordResult result.id result.outcome now).1
  | _ => false

/-- A new tracker after some calls. -/
def after (calls : List Call) : Tracker := calls.foldl apply {}

/-- The last call is made of the tracker after those before it. -/
theorem after_append_singleton (calls : List Call) (last : Call) :
    after (calls ++ [last]) = (after calls).apply last := by
  rw [after, List.foldl_append]
  rfl

/-- A stop of a tracker is one of its run. -/
theorem run_stop (tracker : Tracker) (now : Int) :
    (tracker.stop now).run = tracker.run.stop now := by
  unfold stop ProgramRun.stop
  split <;> rfl

/-! ## The program that is followed -/

/-- What some calls tell of the program that is followed. -/
structure Followed where
  /-- The numbers that its lines were queued under. -/
  ids : List Nat := []
  /-- The calls since it is followed. -/
  calls : List Call := []

namespace Followed

/-- What is told with one more call. -/
def tell (program : Followed) : Call → Followed
  | .start ids _ => { ids }
  | .reset => {}
  | call => { program with calls := program.calls ++ [call] }

/-- What some calls tell. -/
def told (calls : List Call) : Followed := calls.foldl tell {}

/-- A number lies between the first and the last of the program. -/
def owns (program : Followed) (id : Nat) : Bool :=
  program.ids.head?.any (decide <| · ≤ id) && program.ids.getLast?.any (decide <| id ≤ ·)

/-- A call records that a line of the program was sent. -/
def sends (program : Followed) : Call → Bool
  | .recordSent id => program.owns id
  | _ => false

/-- The result of a line of the program that a call records. -/
def result? (program : Followed) : Call → Option CommandResult
  | .recordResult result _ => if program.owns result.id then some result else none
  | _ => none

/-- How often it was recorded that a line was sent. -/
def sent (program : Followed) : Nat := program.calls.countP program.sends

/-- One of the calls is a stop. -/
def stopped (program : Followed) : Bool := program.calls.any Call.stops

/-- The results of its lines that were recorded before the first stop, if there is one. -/
def results (program : Followed) : List CommandResult :=
  (program.calls.takeWhile (!·.stops)).filterMap program.result?

variable {program : Followed} {call : Call} {run next : ProgramRun}

/-- A call that keeps the program is told after the others. -/
theorem tell_of_keeps (keeps : call.clears = false) :
    program.tell call = { program with calls := program.calls ++ [call] } := by
  cases call with
  | start ids now => cases keeps
  | reset => cases keeps
  | _ => rfl

/-- A call records that one more line was sent, or none. -/
theorem sent_tell (keeps : call.clears = false) :
    (program.tell call).sent = program.sent + if program.sends call then 1 else 0 := by
  rw [tell_of_keeps keeps, sent, List.countP_append, List.countP_singleton]
  rfl

/-- One more call is a stop, or one before it. -/
theorem stopped_tell (keeps : call.clears = false) :
    (program.tell call).stopped = (program.stopped || call.stops) := by
  simp [tell_of_keeps keeps, stopped]

/-- After a stop there are no more results, and before it there is the one that a call records. -/
theorem results_tell (keeps : call.clears = false) : (program.tell call).results =
    program.results ++ if program.stopped then [] else (program.result? call).toList := by
  have same : (program.tell call).result? = program.result? := by
    rw [tell_of_keeps keeps]
    rfl
  have recorded : ([call].takeWhile (!·.stops)).filterMap program.result? =
      (program.result? call).toList := by
    cases call with
    | recordResult result now => cases found : program.result? (.recordResult result now) <;>
        simp [Call.stops, found]
    | _ => rfl
  have whole : program.calls.takeWhile (!·.stops) = program.calls ↔ program.stopped = false := by
    rw [List.takeWhile_eq_self_iff]
    simp [stopped]
  unfold results
  rw [same, tell_of_keeps keeps]
  dsimp only
  rw [List.takeWhile_append]
  cases stopped : program.stopped with
  | false =>
    rw [whole.mpr stopped, if_pos rfl, List.filterMap_append, recorded]
    rfl
  | true =>
    have part : (program.calls.takeWhile (!·.stops)).length ≠ program.calls.length := by
      intro full
      have running := whole.mp ((List.takeWhile_prefix _).eq_of_length full)
      rw [stopped] at running
      cases running
    rw [if_neg part]
    simp

/-! ## What is counted -/

/-- A run counts what is told of its program. -/
structure Counted (program : Followed) (run : ProgramRun) : Prop where
  /-- There is a line for each number. -/
  total : run.total = program.ids.length
  /-- The numbers of the run are those of the program. -/
  contains : ∀ id, run.contains id = program.owns id
  /-- Every line that was sent is counted. -/
  sent : run.sent = program.sent
  /-- The results are counted until there are as many as lines. -/
  results : run.Counts (program.results.take program.ids.length)
  /-- A stop stops the program unless there are as many results as lines before it. -/
  stopped : run.stopped = true ↔
    program.stopped = true ∧ program.results.length < program.ids.length

/-- A call that keeps the program leaves it to say what the call makes of the counts. -/
theorem Counted.of_keeps (counted : program.Counted run) (keeps : call.clears = false)
    (same : run.SameProgram next)
    (sent : next.sent = run.sent + if program.sends call then 1 else 0)
    (results : next.Counts ((program.tell call).results.take program.ids.length))
    (stopped : next.stopped = true ↔ (program.stopped || call.stops) = true ∧
      (program.tell call).results.length < program.ids.length) :
    (program.tell call).Counted next := by
  have ids : (program.tell call).ids = program.ids := by rw [tell_of_keeps keeps]
  have owns : (program.tell call).owns = program.owns := by
    rw [tell_of_keeps keeps]
    rfl
  constructor
  · rw [same.total, counted.total, ids]
  · intro id
    rw [same.contains, counted.contains, owns]
  · rw [sent, counted.sent, sent_tell keeps]
  · rwa [ids]
  · rwa [stopped_tell keeps, ids]

/-- The counts are frozen by a stop, and when there are as many results as lines. -/
theorem Counted.isFrozen_iff (counted : program.Counted run) (lines : run.total ≠ 0) :
    run.isFrozen = true ↔
      program.stopped = true ∨ program.ids.length ≤ program.results.length := by
  have total := counted.total
  have answered := counted.results.allAnswered_iff (Nat.pos_of_ne_zero lines)
  rw [List.length_take, Nat.le_min] at answered
  rw [ProgramRun.isFrozen, Bool.or_eq_true, counted.stopped, answered]
  by_cases full : program.ids.length ≤ program.results.length
  · simp [total, full]
  · have fewer : program.results.length < program.ids.length := Nat.lt_of_not_le full
    simp [total, full, fewer]

/-- Nothing is counted of a program that was just queued. -/
theorem counted_start (ids : List Nat) (now : Int) : Counted { ids } (.start ids now) := by
  obtain ⟨total, sent, -, running, -⟩ := ProgramRun.start_unbegun ids now
  refine ⟨total, fun id => ?_, sent, ?_, ?_⟩
  · cases ids with
    | nil => rfl
    | cons first others =>
      simp [ProgramRun.contains, ProgramRun.start, owns, List.getLast?_cons]
  · simpa [Followed.results] using ProgramRun.counts_start ids now
  · simp [running, Followed.stopped]

/-- Nothing is counted without a program. -/
theorem counted_reset (run : ProgramRun) : Counted {} run.reset :=
  ⟨rfl, fun _ => rfl, rfl, ⟨rfl, rfl, rfl⟩, by simp [ProgramRun.reset, Followed.stopped]⟩

/-- A line that was sent is counted. -/
theorem Counted.recordSent (counted : program.Counted run) (id : Nat) :
    (program.tell (.recordSent id)).Counted (run.recordSent id) := by
  have told : (program.tell (.recordSent id)).results = program.results := by
    rw [results_tell rfl]
    simp [result?]
  have sent : (run.recordSent id).sent = run.sent + if program.owns id then 1 else 0 := by
    rw [ProgramRun.recordSent_eq, counted.contains]
  refine counted.of_keeps rfl (run.sameProgram_recordSent id) sent ?_ ?_
  · rw [told, ProgramRun.recordSent_eq]
    exact counted.results.congr rfl rfl rfl
  · rw [told, ProgramRun.recordSent_eq]
    simpa [Call.stops] using counted.stopped

/-- A result is passed over if it belongs to no line or the counts are frozen. -/
theorem Counted.pass (counted : program.Counted run) (result : CommandResult) (now : Int)
    (passed : run.contains result.id = false ∨ run.isFrozen = true) :
    (program.tell (.recordResult result now)).Counted run := by
  have told : (program.tell (.recordResult result now)).results = program.results ++
      if program.stopped then [] else (program.result? (.recordResult result now)).toList :=
    results_tell rfl
  -- No result is told, or there were enough before it.
  have kept : (program.tell (.recordResult result now)).results = program.results ∨
      program.ids.length ≤ program.results.length := by
    rw [told]
    by_cases own : program.owns result.id = true
    · have contains : run.contains result.id = true := (counted.contains _).trans own
      have lines := ProgramRun.total_ne_zero_of_contains contains
      have frozen : run.isFrozen = true := by simpa [contains] using passed
      rcases (counted.isFrozen_iff lines).mp frozen with stopped | full
      · exact .inl (by simp [stopped])
      · exact .inr full
    · exact .inl (by simp [result?, own])
  refine counted.of_keeps rfl (.refl run) rfl ?_ ?_
  · rcases kept with same | full
    · rw [same]
      exact counted.results
    · rw [told, List.take_append_of_le_length full]
      exact counted.results
  · have goesOn : (Call.recordResult result now).stops = false := rfl
    rw [goesOn, Bool.or_false, counted.stopped]
    rcases kept with same | full
    · rw [same]
    · have more : program.results.length ≤
          (program.tell (.recordResult result now)).results.length := by
        rw [told, List.length_append]
        exact Nat.le_add_right _ _
      constructor <;> rintro ⟨-, fewer⟩ <;> omega

/-- The result of a line is counted unless the counts are frozen. -/
theorem Counted.recordResult (counted : program.Counted run) (result : CommandResult)
    (now : Int) : (program.tell (.recordResult result now)).Counted
      (run.recordResult result.id result.outcome now).2 := by
  rcases run.recordResult_cases result.id result.outcome now with
    ⟨passed, unchanged⟩ | ⟨own, open_, ended, added⟩
  · rw [unchanged]
    exact counted.pass result now passed
  · have lines := ProgramRun.total_ne_zero_of_contains own
    obtain ⟨running, fewer⟩ : program.stopped = false ∧
        program.results.length < program.ids.length := by
      have frozen := (counted.isFrozen_iff lines).not.mp (by simp [open_])
      simpa using frozen
    have told : (program.tell (.recordResult result now)).results =
        program.results ++ [result] := by
      rw [results_tell rfl, running]
      simp [result?, ← counted.contains, own]
    have unstopped : run.stopped = false := (Bool.or_eq_false_iff.mp open_).1
    refine counted.of_keeps rfl (run.sameProgram_recordResult _ _ _)
      (run.sent_recordResult _ _ _) ?_ ?_
    · have before := counted.results
      rw [List.take_of_length_le (Nat.le_of_lt fewer)] at before
      rw [told, List.take_of_length_le (by simpa using Nat.succ_le_of_lt fewer), added]
      exact (before.countOutcome result).congr rfl rfl rfl
    · simp [unstopped, running, Call.stops]

/-- A stop counts nothing, and stops a program that has not ended. -/
theorem Counted.stop (counted : program.Counted run) (now : Int) :
    (program.tell (.stop now)).Counted (run.stop now) := by
  have told : (program.tell (.stop now)).results = program.results := by
    rw [results_tell rfl]
    simp [result?]
  refine counted.of_keeps rfl (run.sameProgram_stop now) (run.counts_stop now).2 ?_ ?_
  · rw [told]
    refine counted.results.congr (run.counts_stop now).1 ?_ ?_ <;>
      (unfold ProgramRun.stop; split <;> rfl)
  · rw [told, ProgramRun.stopped_stop, Bool.or_eq_true, decide_eq_true_eq, counted.stopped,
      ← Bool.not_eq_true]
    by_cases lines : run.total = 0
    · simp [lines, ← counted.total]
    · rw [counted.isFrozen_iff lines]
      by_cases stopped : program.stopped = true <;> simp [Call.stops, lines, stopped]

/-- Each call counts what it tells. -/
theorem Counted.apply {tracker : Tracker} (counted : program.Counted tracker.run) (call : Call) :
    (program.tell call).Counted (tracker.apply call).run := by
  cases call with
  | start ids now => exact counted_start ids now
  | recordSent id => exact counted.recordSent id
  | recordResult result now => exact counted.recordResult result now
  | stop now =>
    rw [Tracker.apply, run_stop]
    exact counted.stop now
  | reset => exact counted_reset tracker.run

/-- After any calls a tracker counts what they tell. -/
theorem counted_after (calls : List Call) : (told calls).Counted (after calls).run := by
  induction calls using List.reverseRecOn with
  | nil => exact counted_reset {}
  | append_singleton calls last ih =>
    have more : told (calls ++ [last]) = (told calls).tell last := List.foldl_append
    rw [more, after_append_singleton]
    exact ih.apply last

end Followed

end Tracker

end GcodeSender
