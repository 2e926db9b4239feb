import Mathlib.Data.List.Induction
import GcodeSender.Proofs.ProgramRun.Calls
import GcodeSender.Proofs.Runs

/-!
# Tracking a program through any calls

The counts of a program, the mark that it was stopped and the note of how far it has come are kept
apart, and every call leaves them in agreement (`Tracker.Sound`): the note is the state that the
counts call for, and a program that was stopped has lines without a result. A program that is
stopped or has all its results is frozen until another one is queued or it is forgotten, so that
its end is reported once at most. The main statement says what a tracker reports after any calls.
-/
namespace GcodeSender

namespace Tracker

variable {tracker : Tracker} {call : Call}

/-! ## What a call keeps in agreement -/

/-- What a tracker keeps of a program agrees. -/
structure Sound (tracker : Tracker) : Prop where
  /-- No more lines have a result than there are. -/
  counts : tracker.run.answered ≤ tracker.run.total
  /-- The first line that failed is known if any did. -/
  firstFailed : tracker.run.firstFailed.isSome = true ↔ 0 < tracker.run.failed
  /-- A program that was stopped has lines without a result. -/
  stopped : tracker.run.stopped = true → tracker.run.answered < tracker.run.total
  /-- The note is the state that the counts call for. -/
  noted : tracker.noted = tracker.run.state false

/-- Every line has a result when as many lines as there are have one. -/
theorem Sound.allAnswered_iff (sound : tracker.Sound) : tracker.run.allAnswered = true ↔
    0 < tracker.run.total ∧ tracker.run.answered = tracker.run.total := by
  have counts := sound.counts
  unfold ProgramRun.answered at counts ⊢
  simp only [ProgramRun.allAnswered, Bool.and_eq_true, decide_eq_true_eq]
  omega

/-- A program whose counts are frozen has lines. -/
theorem Sound.total_pos (sound : tracker.Sound) (frozen : tracker.run.isFrozen = true) :
    0 < tracker.run.total := by
  rcases Bool.or_eq_true_iff.mp frozen with stopped | answered
  · have left := sound.stopped stopped
    omega
  · exact (sound.allAnswered_iff.mp answered).1

/-- The counts of a program are open while it is not stopped and a line has no result. -/
theorem Sound.isOpen_iff (sound : tracker.Sound) :
    tracker.run.total ≠ 0 ∧ tracker.run.isFrozen = false ↔
      tracker.run.stopped = false ∧ tracker.run.answered < tracker.run.total := by
  constructor
  · rintro ⟨lines, open_⟩
    exact ⟨(Bool.or_eq_false_iff.mp open_).1, ProgramRun.answered_lt_total lines open_⟩
  · rintro ⟨running, unfinished⟩
    have unanswered : tracker.run.allAnswered = false := by
      rw [Bool.eq_false_iff, ne_eq, sound.allAnswered_iff]
      omega
    exact ⟨by omega, Bool.or_eq_false_iff.mpr ⟨running, unanswered⟩⟩

/-- The state of an open run depends on the pause only. -/
theorem state_of_open {run : ProgramRun} (lines : run.total ≠ 0) (open_ : run.isFrozen = false)
    (paused : Bool) : run.state paused = if paused then .paused else .running := by
  obtain ⟨running, unanswered⟩ := Bool.or_eq_false_iff.mp open_
  simp [ProgramRun.state, lines, running, unanswered]

/-- The state of a program that was not stopped depends on the results. -/
theorem state_of_not_stopped {run : ProgramRun} (lines : run.total ≠ 0)
    (running : run.stopped = false) : run.state false =
      if run.allAnswered then if run.failed = 0 then .completed else .error else .running := by
  simp [ProgramRun.state, lines, running]

/-- The state of a run that is not open does not depend on the pause. -/
theorem state_of_closed {run : ProgramRun} (closed : run.total = 0 ∨ run.isFrozen = true)
    (paused : Bool) : run.state paused = run.state false := by
  unfold ProgramRun.state
  rcases closed with none | frozen
  · simp [none]
  · rcases Bool.or_eq_true_iff.mp frozen with stopped | answered
    · simp [stopped]
    · simp [answered]

/-- What is reported by the note is what the counts call for. -/
theorem Sound.state_eq (sound : tracker.Sound) (paused : Bool) :
    tracker.state paused = tracker.run.state paused := by
  unfold state
  by_cases closed : tracker.run.total = 0 ∨ tracker.run.isFrozen = true
  · rw [if_pos (by simpa using closed), sound.noted, state_of_closed closed paused]
  · obtain ⟨lines, open_⟩ := not_or.mp closed
    have open_ : tracker.run.isFrozen = false := Bool.eq_false_iff.mpr open_
    rw [if_neg (by simp [lines, open_]), state_of_open lines open_]

/-- A new tracker knows no program. -/
theorem sound_new : Sound {} := ⟨Nat.le_refl 0, by decide, by decide, rfl⟩

/-- A program that was just queued has no results. -/
theorem sound_start (ids : List Nat) (now : Int) : (start ids now).Sound := by
  cases ids with
  | nil => exact ⟨Nat.le_refl 0, by simp [start, ProgramRun.start], nofun, rfl⟩
  | cons id others =>
    refine ⟨?_, ?_, ?_, ?_⟩ <;>
      simp [start, ProgramRun.start, List.getLast?_cons, ProgramRun.answered, ProgramRun.state,
        ProgramRun.allAnswered]

/-- A sending is counted beside the results. -/
theorem Sound.recordSent (sound : tracker.Sound) (id : Nat) : (tracker.recordSent id).Sound := by
  rw [Tracker.recordSent, ProgramRun.recordSent_eq]
  exact ⟨sound.counts, sound.firstFailed, sound.stopped, sound.noted⟩

/-- The first line that fails is known once one does. -/
theorem firstFailed_countOutcome {run : ProgramRun} (id : Nat) (outcome : Outcome)
    (known : run.firstFailed.isSome = true ↔ 0 < run.failed) :
    (run.countOutcome id outcome).firstFailed.isSome = true ↔
      0 < (run.countOutcome id outcome).failed := by
  cases outcome with
  | acked => exact known
  | _ => simp [ProgramRun.countOutcome]

/-- A result is counted if a line has none yet, and the last one ends the program. -/
theorem Sound.recordResult (sound : tracker.Sound) (id : Nat) (outcome : Outcome) (now : Int) :
    (tracker.recordResult id outcome now).2.Sound := by
  rcases tracker.run.recordResult_cases id outcome now with
    ⟨_, same⟩ | ⟨own, open_, ended, counted⟩
  · rw [Tracker.recordResult, same]
    exact sound
  · have lines := ProgramRun.total_ne_zero_of_contains own
    have running : (tracker.run.countOutcome id outcome).stopped = false := by
      rw [ProgramRun.stopped_countOutcome]
      exact (Bool.or_eq_false_iff.mp open_).1
    have total : (tracker.run.countOutcome id outcome).total = tracker.run.total :=
      (tracker.run.sameProgram_countOutcome id outcome).total
    have answered := tracker.run.answered_countOutcome id outcome
    have left := ProgramRun.answered_lt_total lines open_
    rw [Tracker.recordResult, counted]
    refine ⟨?_, firstFailed_countOutcome id outcome sound.firstFailed, ?_, ?_⟩
    · show (tracker.run.countOutcome id outcome).answered ≤
        (tracker.run.countOutcome id outcome).total
      omega
    · intro stopped
      rw [running] at stopped
      cases stopped
    · -- An open run is noted as running, and its last result ends it.
      have before : tracker.noted = .running := sound.noted.trans (state_of_open lines open_ false)
      have reached : ProgramRun.state
          { tracker.run.countOutcome id outcome with finishedAt := ended } false = _ :=
        state_of_not_stopped (show _ ≠ 0 from total.trans_ne lines) running
      show (if _ then if _ then _ else _ else tracker.noted) = _
      rw [before]
      exact reached.symm

/-- A stop is noted when it stops the program. -/
theorem Sound.stop (sound : tracker.Sound) (now : Int) : (tracker.stop now).Sound := by
  unfold Tracker.stop
  split
  · exact sound
  · next closed =>
    obtain ⟨lines, open_⟩ : tracker.run.total ≠ 0 ∧ tracker.run.isFrozen = false := by
      simpa using closed
    have stopped : tracker.run.stop now =
        { tracker.run with stopped := true, finishedAt := now } := if_neg closed
    have left := ProgramRun.answered_lt_total lines open_
    rw [stopped]
    refine ⟨sound.counts, sound.firstFailed, fun _ => left, ?_⟩
    simp [ProgramRun.state, lines]

/-- Every call leaves what is kept in agreement. -/
theorem Sound.apply (sound : tracker.Sound) (call : Call) : (tracker.apply call).Sound := by
  cases call with
  | start ids now => exact sound_start ids now
  | recordSent id => exact sound.recordSent id
  | recordResult result now => exact sound.recordResult result.id result.outcome now
  | stop now => exact sound.stop now
  | reset => exact ⟨Nat.le_refl 0, by simp [Tracker.apply, reset, ProgramRun.reset], nofun, rfl⟩

/-- After any calls what is kept agrees. -/
theorem sound_after (calls : List Call) : (after calls).Sound := by
  induction calls using List.reverseRecOn with
  | nil => exact sound_new
  | append_singleton calls last ih =>
    rw [after_append_singleton]
    exact ih.apply last

/-! ## Programs that were stopped -/

/-- The program that is followed was stopped while a line of it had no result. -/
def WasStopped (calls : List Call) : Prop :=
  ∃ before now later, calls = before ++ .stop now :: later ∧
    (∀ call ∈ later, call.clears = false) ∧
    (after before).run.answered < (after before).run.total

/-- One more call stops an unfinished program, or it keeps the one that was stopped. -/
theorem wasStopped_append_singleton (calls : List Call) (last : Call) :
    WasStopped (calls ++ [last]) ↔
      (∃ now, last = .stop now) ∧ (after calls).run.answered < (after calls).run.total ∨
        last.clears = false ∧ WasStopped calls := by
  constructor
  · rintro ⟨before, now, later, split, kept, unfinished⟩
    rcases List.eq_nil_or_concat later with rfl | ⟨later, final, rfl⟩
    · obtain ⟨rfl, same⟩ := List.append_inj' split rfl
      cases same
      exact .inl ⟨⟨now, rfl⟩, unfinished⟩
    · rw [List.concat_eq_append, ← List.cons_append, ← List.append_assoc] at split
      obtain ⟨rfl, same⟩ := List.append_inj' split rfl
      cases same
      refine .inr ⟨kept _ (by simp), before, now, later, rfl, fun call member => ?_, unfinished⟩
      exact kept call (by simp [member])
  · rintro (⟨⟨now, rfl⟩, unfinished⟩ | ⟨keeps, before, now, later, rfl, kept, unfinished⟩)
    · exact ⟨calls, now, [], rfl, nofun, unfinished⟩
    · refine ⟨before, now, later ++ [last], by simp, fun call member => ?_, unfinished⟩
      rcases List.mem_append.mp member with early | final
      · exact kept call early
      · rw [List.mem_singleton.mp final]
        exact keeps

/-- The mark that a program was stopped comes with a stop and goes with another program. -/
theorem Sound.stopped_apply_iff (sound : tracker.Sound) (call : Call) :
    (tracker.apply call).run.stopped = true ↔
      (∃ now, call = .stop now) ∧ tracker.run.answered < tracker.run.total ∨
        call.clears = false ∧ tracker.run.stopped = true := by
  cases call with
  | start ids now =>
    have fresh : (start ids now).run.stopped = false := (ProgramRun.start_unbegun ids now).2.2.2.1
    simp [Tracker.apply, fresh, Call.clears]
  | recordSent id =>
    have kept : (tracker.recordSent id).run.stopped = tracker.run.stopped := by
      rw [Tracker.recordSent, ProgramRun.recordSent_eq]
    simp [Tracker.apply, kept, Call.clears]
  | recordResult result now =>
    have kept : (tracker.recordResult result.id result.outcome now).2.run.stopped =
        tracker.run.stopped :=
      ProgramRun.stopped_recordResult tracker.run result.id result.outcome now
    simp [Tracker.apply, kept, Call.clears]
  | stop now =>
    rw [Tracker.apply, run_stop, ProgramRun.stopped_stop, Bool.or_eq_true, decide_eq_true_eq,
      sound.isOpen_iff]
    cases tracker.run.stopped <;> simp [Call.clears]
  | reset => simp [Tracker.apply, reset, ProgramRun.reset, Call.clears]

/-- The mark says that the program was stopped while a line of it had no result. -/
theorem stopped_after_iff (calls : List Call) :
    (after calls).run.stopped = true ↔ WasStopped calls := by
  induction calls using List.reverseRecOn with
  | nil =>
    refine ⟨nofun, ?_⟩
    rintro ⟨before, now, later, split, -⟩
    simp at split
  | append_singleton calls last ih =>
    rw [wasStopped_append_singleton, after_append_singleton, (sound_after calls).stopped_apply_iff,
      ih]

/-! ## Programs that have ended -/

/-- Until another program is followed or none, the calls of a tracker whose counts are frozen
change how many lines were sent and nothing else. -/
theorem apply_of_isFrozen (frozen : tracker.run.isFrozen = true) (keeps : call.clears = false) :
    ∃ sent, tracker.apply call = { tracker with run := { tracker.run with sent := sent } } := by
  cases call with
  | start ids now => cases keeps
  | recordSent id =>
    rw [apply, recordSent, ProgramRun.recordSent_eq]
    exact ⟨_, rfl⟩
  | recordResult result now =>
    rw [apply, recordResult, ProgramRun.recordResult_of_isFrozen frozen]
    exact ⟨_, rfl⟩
  | stop now =>
    rw [apply, stop, if_pos (by simp [frozen])]
    exact ⟨_, rfl⟩
  | reset => cases keeps

/-- So do any number of calls. -/
theorem foldl_of_isFrozen (frozen : tracker.run.isFrozen = true) {calls : List Call}
    (keep : ∀ call ∈ calls, call.clears = false) :
    ∃ sent, calls.foldl apply tracker =
      { tracker with run := { tracker.run with sent := sent } } := by
  induction calls generalizing tracker with
  | nil => exact ⟨_, rfl⟩
  | cons call others ih =>
    obtain ⟨first, same⟩ := apply_of_isFrozen frozen (keep call List.mem_cons_self)
    rw [List.foldl_cons, same]
    exact ih frozen fun other member => keep other (List.mem_cons_of_mem _ member)

/-- What is reported of a program whose counts are frozen is the note. -/
theorem state_of_isFrozen (frozen : tracker.run.isFrozen = true) (paused : Bool) :
    tracker.state paused = tracker.noted := by
  rw [state, if_pos (by simp [frozen])]

/-- The time that a program took does not depend on the clock once its counts are frozen. -/
theorem elapsed_of_isFrozen {run : ProgramRun} (frozen : run.isFrozen = true) (now : Int) :
    run.elapsed now = if run.total = 0 then 0 else run.finishedAt - run.startedAt := by
  rw [ProgramRun.elapsed, if_pos frozen]

/-- A program is reported as finished when its counts are frozen. -/
theorem Sound.isFinished_iff (sound : tracker.Sound) (paused : Bool) :
    tracker.run.isFinished paused = true ↔ tracker.run.isFrozen = true := by
  unfold ProgramRun.isFinished
  by_cases frozen : tracker.run.isFrozen = true
  · have lines : tracker.run.total ≠ 0 := Nat.ne_of_gt (sound.total_pos frozen)
    rw [state_of_closed (.inr frozen) paused]
    rcases Bool.or_eq_true_iff.mp frozen with stopped | answered
    · simp [ProgramRun.state, lines, stopped, frozen]
    · by_cases stopped : tracker.run.stopped = true
      · simp [ProgramRun.state, lines, stopped, frozen]
      · by_cases failed : tracker.run.failed = 0 <;>
          simp [ProgramRun.state, lines, stopped, answered, failed, frozen]
  · have open_ : tracker.run.isFrozen = false := Bool.eq_false_iff.mpr frozen
    by_cases lines : tracker.run.total = 0
    · simp [ProgramRun.state, lines, frozen]
    · rw [state_of_open lines open_ paused]
      cases paused <;> simp [frozen]

/-! ## The answer that a program has ended -/

/-- A call answers that it ended the program if it brings the last result of it. -/
theorem Sound.ends_iff (sound : tracker.Sound) (call : Call) :
    tracker.ends call = true ↔ tracker.run.answered < tracker.run.total ∧
      0 < (tracker.apply call).run.total ∧
        (tracker.apply call).run.answered = (tracker.apply call).run.total := by
  rw [← (sound.apply call).allAnswered_iff]
  have silent {next : ProgramRun} (kept : next.allAnswered = tracker.run.allAnswered) :
      false = true ↔ tracker.run.answered < tracker.run.total ∧ next.allAnswered = true := by
    refine ⟨nofun, fun ⟨unfinished, answered⟩ => ?_⟩
    have full := (sound.allAnswered_iff.mp (kept ▸ answered)).2
    omega
  cases call with
  | start ids now =>
    have fresh : (start ids now).run.allAnswered = false :=
      (ProgramRun.start_unbegun ids now).2.2.2.2
    simp [ends, Tracker.apply, fresh]
  | recordSent id =>
    have kept : (tracker.recordSent id).run.allAnswered = tracker.run.allAnswered := by
      rw [Tracker.recordSent, ProgramRun.recordSent_eq]
      rfl
    exact silent kept
  | recordResult result now =>
    simp only [ends, Tracker.apply, Tracker.recordResult]
    rcases tracker.run.recordResult_cases result.id result.outcome now with
      ⟨_, same⟩ | ⟨own, open_, ended, counted⟩
    · rw [same]
      exact silent rfl
    · have lines := ProgramRun.total_ne_zero_of_contains own
      have left := ProgramRun.answered_lt_total lines open_
      rw [counted]
      exact ⟨fun answered => ⟨left, answered⟩, And.right⟩
  | stop now =>
    have kept : (tracker.stop now).run.allAnswered = tracker.run.allAnswered := by
      rw [run_stop, ProgramRun.stop]
      split <;> rfl
    exact silent kept
  | reset => simp [ends, Tracker.apply, reset, ProgramRun.reset, ProgramRun.allAnswered]

/-- No call can end the program: there is none, or each line has its result. -/
def Over (tracker : Tracker) : Prop := tracker.run.total = 0 ∨ tracker.run.allAnswered = true

/-- After the end nothing ends until another program is followed. -/
theorem Over.apply (closed : tracker.Over) (same : call.starts = false) :
    (tracker.apply call).Over ∧ tracker.ends call = false := by
  have quiet : ∀ id, tracker.run.contains id = false ∨ tracker.run.isFrozen = true := by
    intro id
    rcases closed with none | answered
    · simp [ProgramRun.contains, none]
    · simp [ProgramRun.isFrozen, answered]
  cases call with
  | start ids now => cases same
  | recordSent id =>
    rw [Tracker.apply, Tracker.recordSent, ProgramRun.recordSent_eq]
    exact ⟨closed, rfl⟩
  | recordResult result now =>
    have passed : tracker.run.recordResult result.id result.outcome now =
        (false, tracker.run) := by
      rcases quiet result.id with other | frozen
      · exact ProgramRun.recordResult_of_not_contains other
      · exact ProgramRun.recordResult_of_isFrozen frozen
    rw [Tracker.apply, ends, Tracker.recordResult, passed]
    exact ⟨closed, rfl⟩
  | stop now =>
    have kept : tracker.stop now = tracker := by
      refine if_pos ?_
      rcases closed with none | answered
      · simp [none]
      · simp [ProgramRun.isFrozen, answered]
    rw [Tracker.apply, kept]
    exact ⟨closed, rfl⟩
  | reset => exact ⟨.inl rfl, rfl⟩

/-- The answers to calls that follow no other program. -/
def endings (tracker : Tracker) (calls : List Call) : List Bool :=
  collect apply (fun tracker call => [tracker.ends call]) tracker calls

/-- After the end no call answers that it ended the program. -/
theorem Over.count_endings (closed : tracker.Over) {calls : List Call}
    (same : ∀ call ∈ calls, call.starts = false) : (tracker.endings calls).count true = 0 := by
  induction calls generalizing tracker with
  | nil => rfl
  | cons call others ih =>
    obtain ⟨still, silent⟩ := closed.apply (same call List.mem_cons_self)
    have later := ih still fun other member => same other (List.mem_cons_of_mem _ member)
    rw [endings, collect, silent, List.singleton_append, List.count_cons_of_ne (by decide)]
    exact later

/-- Of calls that follow no other program, one at most answers that it ended the program. -/
theorem Sound.count_endings_le (sound : tracker.Sound) {calls : List Call}
    (same : ∀ call ∈ calls, call.starts = false) : (tracker.endings calls).count true ≤ 1 := by
  induction calls generalizing tracker with
  | nil => exact Nat.zero_le 1
  | cons call others ih =>
    have rest : ∀ other ∈ others, other.starts = false :=
      fun other member => same other (List.mem_cons_of_mem _ member)
    rw [endings, collect, List.singleton_append]
    cases ended : tracker.ends call with
    | true =>
      obtain ⟨_, full⟩ := (sound.ends_iff call).mp ended
      have closed : (tracker.apply call).Over := .inr ((sound.apply call).allAnswered_iff.mpr full)
      have none := closed.count_endings rest
      rw [List.count_cons_self]
      exact Nat.succ_le_succ (Nat.le_of_eq none)
    | false =>
      rw [List.count_cons_of_ne (by decide)]
      exact ih (sound.apply call) rest

/-! ## After any calls -/

/-- What the calls of a tracker make of its program, with the queue paused or not. -/
def Shows (calls : List Call) (paused : Bool) : RunState → Prop
  | .notLoaded => (after calls).run.total = 0
  | .completed => 0 < (after calls).run.total ∧
    (after calls).run.answered = (after calls).run.total ∧ (after calls).run.failed = 0
  | .error => 0 < (after calls).run.total ∧
    (after calls).run.answered = (after calls).run.total ∧ (after calls).run.failed ≠ 0
  | .stopped => WasStopped calls
  | .paused => (after calls).run.answered < (after calls).run.total ∧ ¬ WasStopped calls ∧
    paused = true
  | .running => (after calls).run.answered < (after calls).run.total ∧ ¬ WasStopped calls ∧
    paused = false

/-- The state of a run is the one that its calls make of it. -/
theorem state_eq_iff_shows (calls : List Call) (paused : Bool) (state : RunState) :
    (after calls).run.state paused = state ↔ Shows calls paused state := by
  have sound := sound_after calls
  have counts := sound.counts
  have left := sound.stopped
  have all := sound.allAnswered_iff
  unfold Shows
  simp only [← stopped_after_iff]
  generalize (after calls).run = run at counts left all ⊢
  unfold ProgramRun.state
  by_cases none : run.total = 0
  · have running : ¬ run.stopped = true := fun stopped => by
      have unfinished := left stopped
      omega
    cases state <;> simp [none, running]
  · have lines : 0 < run.total := Nat.pos_of_ne_zero none
    by_cases stopped : run.stopped = true
    · have unfinished : run.answered ≠ run.total := Nat.ne_of_lt (left stopped)
      cases state <;> simp [none, stopped, unfinished]
    · by_cases answered : run.allAnswered = true
      · obtain ⟨-, full⟩ := all.mp answered
        by_cases failed : run.failed = 0 <;> cases state <;>
          simp [none, stopped, answered, failed, full, lines]
      · have unfinished : run.answered ≠ run.total := fun full => answered (all.mpr ⟨lines, full⟩)
        have fewer : run.answered < run.total := Nat.lt_of_le_of_ne counts unfinished
        cases paused <;> cases state <;>
          simp [none, stopped, answered, unfinished, fewer]

/-- Whatever was called of a tracker, at any times: its counts are those of the results of its
program that were recorded since it is followed, until it is stopped or has as many as lines. No
more lines have a result than there are, and the first line that failed is known exactly if one
did. A call answers that it ended the program
exactly if it brings the result of the last line, and no other one does until another program is
followed. What is reported is the state that the counts call for: a program is completed or has
errors if each line has its result, it is stopped if it was stopped before that, and it is paused
or runs otherwise, as the queue is paused or not; without lines there is none. Once it has ended,
its results, its state and its time stay until another one is followed or none. -/
theorem reports_after_any_calls (calls : List Call) :
    let tracker := after calls
    (Followed.told calls).Counted tracker.run ∧
      tracker.run.completed + tracker.run.failed ≤ tracker.run.total ∧
      (tracker.run.firstFailed.isSome = true ↔ 0 < tracker.run.failed) ∧
      (∀ call, tracker.ends call = true ↔ tracker.run.answered < tracker.run.total ∧
        0 < (tracker.apply call).run.total ∧
          (tracker.apply call).run.answered = (tracker.apply call).run.total) ∧
      (∀ later, (∀ call ∈ later, call.starts = false) → (tracker.endings later).count true ≤ 1) ∧
      (∀ paused, tracker.state paused = tracker.run.state paused ∧
        ∀ state, tracker.state paused = state ↔ Shows calls paused state) ∧
      ∀ later, (∀ call ∈ later, call.clears = false) →
        ∀ paused, tracker.run.isFinished paused = true →
          let last := after (calls ++ later)
          (last.run.completed = tracker.run.completed ∧ last.run.failed = tracker.run.failed ∧
              last.run.firstFailed = tracker.run.firstFailed) ∧
            (∀ asked, last.state asked = tracker.state paused) ∧
            ∀ early late, last.run.elapsed late = tracker.run.elapsed early := by
  intro tracker
  have sound : tracker.Sound := sound_after calls
  refine ⟨Followed.counted_after calls, sound.counts, sound.firstFailed, sound.ends_iff,
    fun later => sound.count_endings_le,
    fun paused => ⟨sound.state_eq paused, fun state => ?_⟩, ?_⟩
  · rw [sound.state_eq]
    exact state_eq_iff_shows calls paused state
  · intro later keep paused finished last
    have frozen : tracker.run.isFrozen = true := (sound.isFinished_iff paused).mp finished
    obtain ⟨sent, same⟩ := foldl_of_isFrozen frozen keep
    have lasting : last = { tracker with run := { tracker.run with sent := sent } } := by
      rw [← same]
      exact List.foldl_append
    rw [lasting]
    refine ⟨⟨rfl, rfl, rfl⟩, fun asked => ?_, fun early late => ?_⟩
    · exact (state_of_isFrozen frozen asked).trans (state_of_isFrozen frozen paused).symm
    · exact (elapsed_of_isFrozen frozen late).trans (elapsed_of_isFrozen frozen early).symm

/-- A late stop changes nothing, and no more does a late result. -/
example :
    let result (id : Nat) (outcome : Outcome) : CommandResult :=
      { id, text := ascii "G4", outcome, latency := 5 }
    let calls := [.start [1, 2] 0, .recordResult (result 1 .acked) 5,
      .recordResult (result 2 .reset) 9, .stop 20, .recordResult (result 2 .acked) 30]
    (after calls).state true = .error ∧ (after calls).run.elapsed 100 = 9 ∧
      endings {} calls = [false, false, true, false, false] := by
  decide

end Tracker

end GcodeSender
