import GcodeSender.Proofs.Session.ProgramCounts

/-!
# Stopping a program

A clearing of the queue stops an unfinished program if it drops anything, whether that belongs to
the program or not. What it drops follows from where the lines of the program are: while the
program is unfinished, its lines on the way and in the queue are exactly those without a result,
in order (`Session.Lined`). So a line of the program is dropped unless none waits, and none waits
exactly while the last line is on its way: then a clearing that drops only other commands stops
the program all the same. The main statement says for every run of a session when its program is
reported as stopped, and which clearings stop it although they drop none of its lines.
-/
namespace GcodeSender

namespace Session

variable {session next : Session} {history : Queue.History} {calls : List Queue.Call}
  {ids : List Nat}

/-- A session follows a program that is neither stopped nor has all its results. -/
def Unfinished (session : Session) : Prop :=
  session.run.state session.queue.paused = .running ∨
    session.run.state session.queue.paused = .paused

/-- The numbers of the lines of the program that are on their way or wait. -/
def linesLeft (session : Session) : List Nat :=
  ((session.queue.onTheWay ++ session.queue.pending).map PendingCommand.id).filter
    session.run.contains

/-- An unfinished program has lines, and its counts still change. -/
theorem unfinished_iff : session.Unfinished ↔
    session.run.total ≠ 0 ∧ session.run.isFrozen = false := by
  unfold Unfinished ProgramRun.state ProgramRun.isFrozen
  by_cases none : session.run.total = 0
  · simp [none]
  · by_cases stopped : session.run.stopped = true
    · simp [none, stopped]
    · by_cases answered : session.run.allAnswered = true
      · by_cases failed : session.run.failed = 0 <;> simp [none, stopped, answered, failed]
      · by_cases paused : session.queue.paused = true <;> simp [none, stopped, answered, paused]

/-! ## Where the lines of a program are -/

/-- While its counts still change, the lines of the program without a result are on their way or
wait, in order. -/
structure Lined (session : Session) : Prop where
  /-- The numbers of the lines are successive. -/
  last : session.run.total ≠ 0 →
    session.run.lastId + 1 = session.run.firstId + session.run.total
  /-- Later commands have larger numbers. -/
  given : session.run.total ≠ 0 → session.run.lastId < session.queue.nextId
  /-- The lines without a result are left. -/
  left : session.run.isFrozen = false → session.linesLeft =
    List.range' (session.run.firstId + session.run.answered)
      (session.run.total - session.run.answered)

/-- The numbers of the same program stay successive and below those of later commands. -/
theorem Lined.numbers (lined : session.Lined) (same : session.run.SameProgram next.run)
    (nextId : session.queue.nextId ≤ next.queue.nextId) :
    (next.run.total ≠ 0 → next.run.lastId + 1 = next.run.firstId + next.run.total) ∧
      (next.run.total ≠ 0 → next.run.lastId < next.queue.nextId) := by
  rw [same.total, same.lastId, same.firstId]
  exact ⟨lined.last, fun lines => Nat.lt_of_lt_of_le (lined.given lines) nextId⟩

/-- A change that leaves the program, its results and its lines alone leaves them in order. -/
theorem Lined.congr (lined : session.Lined) (same : session.run.SameProgram next.run)
    (frozen : next.run.isFrozen = session.run.isFrozen)
    (answered : next.run.answered = session.run.answered)
    (nextId : session.queue.nextId ≤ next.queue.nextId)
    (left : session.run.isFrozen = false → next.linesLeft = session.linesLeft) :
    next.Lined := by
  obtain ⟨last, given⟩ := lined.numbers same nextId
  refine ⟨last, given, fun open_ => ?_⟩
  rw [frozen] at open_
  rw [left open_, same.firstId, same.total, answered]
  exact lined.left open_

/-- Taking in more commands leaves the lines in order. -/
theorem Lined.accept (lined : session.Lined) {lines : List Bytes} {queue : Queue}
    (taken : session.queue.Accepts lines queue) : Lined { session with queue := queue } := by
  have others : (List.range' session.queue.nextId lines.length).filter
      session.run.contains = [] := by
    rw [List.filter_eq_nil_iff]
    intro id member inside
    have late := (List.mem_range'_1.mp member).1
    simp only [ProgramRun.contains, Bool.and_eq_true, decide_eq_true_eq] at inside
    have given := lined.given (Nat.ne_of_gt inside.1.1)
    omega
  refine lined.congr (.refl _) rfl rfl ?_ fun _ => ?_
  · exact Nat.le_trans (Nat.le_add_right _ _) (Nat.le_of_eq taken.nextId.symm)
  · unfold linesLeft
    simp only [taken.onTheWay, taken.pending]
    rw [← List.append_assoc, List.map_append, List.filter_append, Queue.map_id_numbered, others,
      List.append_nil]

/-- Taking a command out to send it leaves the lines in order. -/
theorem Lined.dequeue (lined : session.Lined) {now : Int} {sent : SentCommand} {queue : Queue}
    (taken : session.queue.dequeue now = (some sent, queue)) :
    Lined { session with queue := queue } := by
  obtain ⟨idle, first, way, ids⟩ := Queue.taken_of_dequeue taken
  refine lined.congr (.refl _) rfl rfl (Nat.le_of_eq ids.symm) fun _ => ?_
  unfold linesLeft
  simp only [idle, first, way, List.nil_append, List.singleton_append]

/-- The numbers of the program among those that an answer is about. -/
def answeredLines (session : Session) (answer : Option CommandResult) : List Nat :=
  (answer.toList.map CommandResult.id).filter session.run.contains

/-- What an answer is about was the first line left, if it belongs to the program. -/
theorem linesLeft_of_settles (now : Int) {answer : Option CommandResult × Queue}
    (settled : session.queue.Settles answer) :
    session.linesLeft =
      session.answeredLines answer.1 ++ (session.settleQueue now answer).linesLeft := by
  obtain ⟨same, _⟩ := run_settleQueue_keeps session now answer
  unfold linesLeft answeredLines
  rw [queue_settleQueue, settled.pending, funext same.contains, ← List.filter_append,
    ← settled.command, List.append_assoc, List.map_append, List.map_map]
  rfl

/-- While the counts still change, a line that has its result is counted. -/
theorem answered_settleQueue (open_ : session.run.isFrozen = false) (now : Int)
    (answer : Option CommandResult × Queue) :
    (session.settleQueue now answer).run.answered =
      session.run.answered + (session.answeredLines answer.1).length := by
  rw [run_settleQueue]
  unfold answeredLines
  cases answer.1 with
  | none => rfl
  | some result =>
    rcases ProgramRun.recordResult_cases session.run result.id result.outcome now with
      ⟨closed, passed⟩ | ⟨own, _, ended, counted⟩
    · have other := closed.resolve_right (by simp [open_])
      simp [passed, other]
    · have one : (((some result).toList.map CommandResult.id).filter
          session.run.contains).length = 1 := by simp [own]
      rw [one, Option.elim_some, counted]
      exact ProgramRun.answered_countOutcome session.run result.id result.outcome

/-- Counts that do not change any more are not changed by an answer. -/
theorem isFrozen_settleQueue (frozen : session.run.isFrozen = true) (now : Int)
    (answer : Option CommandResult × Queue) :
    (session.settleQueue now answer).run.isFrozen = true := by
  rw [run_settleQueue]
  cases answer.1 with
  | none => exact frozen
  | some result =>
    show ((session.run.recordResult result.id result.outcome now).2).isFrozen = true
    rw [ProgramRun.recordResult_of_isFrozen frozen]
    exact frozen

/-- Settling an answer leaves the other lines in order. -/
theorem Lined.settle (lined : session.Lined) (now : Int) {answer : Option CommandResult × Queue}
    (settled : session.queue.Settles answer) : (session.settleQueue now answer).Lined := by
  obtain ⟨same, _⟩ := run_settleQueue_keeps session now answer
  have nextId : session.queue.nextId ≤ (session.settleQueue now answer).queue.nextId := by
    rw [queue_settleQueue]
    exact Nat.le_of_eq settled.nextId.symm
  obtain ⟨last, given⟩ := lined.numbers same nextId
  refine ⟨last, given, fun still => ?_⟩
  have open_ : session.run.isFrozen = false := Bool.eq_false_iff.mpr fun frozen =>
    absurd (still.symm.trans (isFrozen_settleQueue frozen now answer)) (by decide)
  -- The lines that were left are the one that has its result, if any, and then the others.
  have left := lined.left open_
  rw [linesLeft_of_settles now settled] at left
  have rest := congrArg (List.drop (session.answeredLines answer.1).length) left
  rw [List.drop_left, List.drop_range', Nat.mul_one, Nat.add_assoc, ← Nat.sub_add_eq] at rest
  rw [rest, same.firstId, same.total, answered_settleQueue open_]

/-- Every elementary change leaves the lines in order. -/
theorem Lined.change (lined : session.Lined) (change : session.Change calls next) :
    next.Lined := by
  cases change with
  | rest queue run record =>
    refine lined.congr (run ▸ .refl _) (congrArg ProgramRun.isFrozen run)
      (congrArg ProgramRun.answered run) (queue ▸ Nat.le_refl _) fun _ => ?_
    unfold linesLeft
    rw [run, queue]
  | note result programEnd => exact lined.congr (.refl _) rfl rfl (Nat.le_refl _) fun _ => rfl
  | quiet call quiet =>
    obtain ⟨_, _, _, lines, taken⟩ := session.history.apply_of_isQuiet quiet
    exact lined.accept taken
  | settle call now settled answered => exact lined.settle now settled
  | @write now sent queue taken =>
    have same := ProgramRun.sameProgram_recordSent session.run sent.id
    have counted := ProgramRun.recordSent_eq session.run sent.id
    have frozen : (session.run.recordSent sent.id).isFrozen = session.run.isFrozen := by
      rw [counted]
      rfl
    have answered : (session.run.recordSent sent.id).answered = session.run.answered := by
      rw [counted]
      rfl
    exact (lined.dequeue taken).congr same frozen answered (Nat.le_refl _) fun _ =>
      congrArg (List.filter · _) (funext same.contains)
  | @lose now sent queue taken reason =>
    exact (lined.dequeue taken).settle now (Queue.settles_failSend queue now reason)

/-- A session without a program has no lines to keep in order. -/
theorem lined_of_total_eq_zero (none : session.run.total = 0) : session.Lined := by
  refine ⟨fun lines => absurd none lines, fun lines => absurd none lines, fun _ => ?_⟩
  rw [linesLeft, none, Nat.zero_sub, List.range'_zero, List.filter_eq_nil_iff]
  intro id _
  simp [ProgramRun.contains, none]

/-- Clearing the queue leaves the lines in order, or the counts do not change any more. -/
theorem Lined.clear (lined : session.Lined) (now : Int) : (session.clear now).2.Lined := by
  have run : (session.clear now).2.run =
      if session.queue.pending = [] then session.run else session.run.stop now := by
    rw [clear_eq]
  have queue : (session.clear now).2.queue = session.queue.clear.2 := by rw [clear_eq]
  have nextId : session.queue.nextId ≤ (session.clear now).2.queue.nextId := by
    rw [queue]
    exact Nat.le_refl _
  by_cases empty : session.queue.pending = []
  · rw [if_pos empty] at run
    refine lined.congr (run ▸ .refl _) (congrArg ProgramRun.isFrozen run)
      (congrArg ProgramRun.answered run) nextId fun _ => ?_
    unfold linesLeft
    rw [run, queue, empty]
    rfl
  · rw [if_neg empty] at run
    have same : session.run.SameProgram (session.clear now).2.run := by
      rw [run]
      exact ProgramRun.sameProgram_stop session.run now
    by_cases none : session.run.total = 0
    · exact lined_of_total_eq_zero (same.total.trans none)
    · obtain ⟨last, given⟩ := lined.numbers same nextId
      refine ⟨last, given, fun open_ => ?_⟩
      rw [run] at open_
      exact absurd (open_.symm.trans (ProgramRun.isFrozen_stop none now)) (by decide)

/-- A program that was just queued has its lines in order: all of them wait. -/
theorem lined_sendProgram (tracked : history.Tracks session) (consistent : history.Consistent)
    {now : Int} {segments : List Segment}
    (queued : (session.sendProgram now segments).1 = some ids) :
    (session.sendProgram now segments).2.Lined := by
  obtain ⟨numbers, queue, made, taken, started⟩ := sendProgram_of_some queued
  rw [started]
  by_cases empty : (printPath segments).length = 0
  · refine lined_of_total_eq_zero ?_
    rw [numbers, empty]
    rfl
  · have begun : ProgramRun.start ids now =
        { firstId := session.queue.nextId
          lastId := session.queue.nextId + ((printPath segments).length - 1)
          total := (printPath segments).length, startedAt := now, finishedAt := now } := by
      rw [numbers]
      exact ProgramRun.start_range _ empty now
    have nextId : queue.nextId = session.queue.nextId + (printPath segments).length := by
      rw [taken.nextId, List.length_map]
    -- Nothing that was there before belongs to the program, and all its lines wait.
    have before : ((session.queue.onTheWay ++ session.queue.pending).map PendingCommand.id).filter
        (ProgramRun.start ids now).contains = [] := by
      rw [List.filter_eq_nil_iff]
      intro id member inside
      obtain ⟨command, held, rfl⟩ := List.mem_map.mp member
      rw [not_contains_of_held tracked consistent queued held] at inside
      cases inside
    have lines : (List.range' session.queue.nextId (printPath segments).length).filter
        (ProgramRun.start ids now).contains =
          List.range' session.queue.nextId (printPath segments).length := by
      rw [List.range'_eq_map_range, ← numbers, List.filter_eq_self]
      intro id member
      rw [numbers] at member ⊢
      rw [ProgramRun.contains_start]
      exact decide_eq_true member
    have left : linesLeft { session with queue := queue, run := .start ids now } =
        List.range' session.queue.nextId (printPath segments).length := by
      unfold linesLeft
      simp only [taken.onTheWay, taken.pending]
      rw [← List.append_assoc, List.map_append, List.filter_append, before,
        Queue.map_id_numbered, List.length_map, lines, List.nil_append]
    refine ⟨fun _ => ?_, fun _ => ?_, fun _ => ?_⟩
    · simp only [begun]
      omega
    · simp only [begun, nextId]
      omega
    · rw [left, begun]
      rfl

/-- Every step leaves the lines in order. -/
theorem Lined.step (lined : session.Lined) (tracked : history.Tracks session)
    (consistent : history.Consistent) (taken : Step) : (session.step taken).Lined := by
  cases kept : session.queuesProgram taken with
  | false =>
    exact keep_step (fun change lined => lined.change change) (fun _ now lined => lined.clear now)
      kept lined
  | true =>
    obtain ⟨now, segments, ids, rfl, queued⟩ := exists_of_queuesProgram kept
    exact lined_sendProgram tracked consistent queued

variable (settings : SessionSettings) (transport : Option Bytes)

/-- The lines of the program are in order after any steps of a new session. -/
theorem lined_after (steps : List Step) : (after settings transport steps).Lined := by
  induction steps using List.reverseRecOn with
  | nil => exact lined_of_total_eq_zero rfl
  | append_singleton steps last ih =>
    obtain ⟨history, tracked, consistent⟩ := exists_tracked settings transport steps
    rw [after_append_singleton]
    exact ih.step tracked consistent last

/-! ## What a clearing drops -/

/-- An unfinished program has no line that waits exactly while its last line is on its way. -/
theorem Lined.none_waits_iff (lined : session.Lined) (unfinished : session.Unfinished) :
    (∀ command ∈ session.queue.pending, session.run.contains command.id = false) ↔
      ∃ sent, session.queue.inFlight = some sent ∧ sent.id = session.run.lastId := by
  obtain ⟨lines, open_⟩ := unfinished_iff.mp unfinished
  have last := lined.last lines
  have left := lined.left open_
  have short := ProgramRun.answered_lt_total lines open_
  have waits : (∀ command ∈ session.queue.pending, session.run.contains command.id = false) ↔
      (session.queue.pending.map PendingCommand.id).filter session.run.contains = [] := by
    simp [List.filter_eq_nil_iff]
  rw [linesLeft, List.map_append, List.filter_append] at left
  rw [waits]
  constructor
  · intro none
    rw [none, List.append_nil] at left
    cases way : session.queue.inFlight with
    | none =>
      rw [Queue.onTheWay, way] at left
      have empty : 0 = session.run.total - session.run.answered := by
        simpa using congrArg List.length left
      omega
    | some sent =>
      refine ⟨sent, rfl, ?_⟩
      have one : [sent.id].filter session.run.contains =
          List.range' (session.run.firstId + session.run.answered)
            (session.run.total - session.run.answered) := by
        rw [← left, Queue.onTheWay, way]
        rfl
      have few := (List.filter_sublist (p := session.run.contains) (l := [sent.id])).length_le
      rw [one, List.length_range', List.length_singleton] at few
      have first : session.run.firstId + session.run.answered ∈
          [sent.id].filter session.run.contains := by
        rw [one, List.mem_range'_1]
        omega
      have same := List.mem_singleton.mp (List.mem_of_mem_filter first)
      omega
  · rintro ⟨sent, way, final⟩
    have own : session.run.contains sent.id = true := by
      simp only [ProgramRun.contains, Bool.and_eq_true, decide_eq_true_eq]
      omega
    have front : (session.queue.onTheWay.map PendingCommand.id).filter session.run.contains =
        [sent.id] := by
      rw [Queue.onTheWay, way]
      exact List.filter_eq_self.mpr (by simpa [SentCommand.command] using own)
    rw [front, List.singleton_append] at left
    obtain ⟨first, _, rest⟩ := List.range'_eq_cons_iff.mp left.symm
    rw [rest, List.range'_eq_nil_iff]
    omega

/-! ## Every run -/

/-- Elementary changes stop no program. -/
theorem Change.stopped (change : session.Change calls next) :
    next.run.stopped = session.run.stopped ∧ session.run.SameProgram next.run := by
  cases change with
  | rest queue run record =>
    rw [run]
    exact ⟨rfl, .refl _⟩
  | note result programEnd => exact ⟨rfl, .refl _⟩
  | quiet call quiet => exact ⟨rfl, .refl _⟩
  | settle call now =>
    obtain ⟨same, _, stopped⟩ := run_settleQueue_keeps session now _
    exact ⟨stopped, same⟩
  | @write now sent queue taken =>
    refine ⟨?_, ProgramRun.sameProgram_recordSent _ sent.id⟩
    show (session.run.recordSent sent.id).stopped = _
    rw [ProgramRun.recordSent_eq]
  | lose taken reason =>
    obtain ⟨same, _, stopped⟩ := run_settleQueue_keeps _ _ _
    exact ⟨stopped, same⟩

/-- A session reports its program as stopped. -/
def ReportsStopped (session : Session) : Prop :=
  session.run.state session.queue.paused = .stopped

/-- A step that queues no program and clears nothing keeps what is reported of a stop. -/
theorem reportsStopped_step {taken : Step} (kept : session.queuesProgram taken = false)
    (uncleared : ∀ now, taken ≠ .request (.clear now)) :
    (session.step taken).ReportsStopped ↔ session.ReportsStopped := by
  have same : (session.step taken).run.stopped = session.run.stopped ∧
      (session.step taken).run.total = session.run.total := by
    refine (changes_step session taken kept uncleared).keep
      (motive := fun next => next.run.stopped = session.run.stopped ∧
        next.run.total = session.run.total) ⟨rfl, rfl⟩ ?_
    intro middle next calls change before
    obtain ⟨stopped, program⟩ := change.stopped
    exact ⟨stopped.trans before.1, program.total.trans before.2⟩
  rw [ReportsStopped, ReportsStopped, ProgramRun.state_eq_stopped_iff,
    ProgramRun.state_eq_stopped_iff, same.1, same.2]

/-- A program that was just queued is not reported as stopped. -/
theorem not_reportsStopped_of_queuesProgram {taken : Step}
    (queues : session.queuesProgram taken = true) : ¬(session.step taken).ReportsStopped := by
  obtain ⟨now, segments, ids, rfl, queued⟩ := exists_of_queuesProgram queues
  obtain ⟨_, queue, _, _, started⟩ := sendProgram_of_some queued
  have free := (ProgramRun.start_unbegun ids now).2.2.2.1
  rw [ReportsStopped, ProgramRun.state_eq_stopped_iff]
  show ¬((session.sendProgram now segments).2.run.total ≠ 0 ∧
    (session.sendProgram now segments).2.run.stopped = true)
  rw [started]
  exact fun stopped => absurd (free.symm.trans stopped.2) (by decide)

/-- After a clearing a program is reported as stopped if it was before, or was unfinished and
something was dropped. -/
theorem reportsStopped_clear (session : Session) (now : Int) :
    (session.clear now).2.ReportsStopped ↔
      session.ReportsStopped ∨ (session.Unfinished ∧ session.queue.pending ≠ []) := by
  have same := ProgramRun.sameProgram_stop session.run now
  rw [ReportsStopped, ReportsStopped, ProgramRun.state_eq_stopped_iff,
    ProgramRun.state_eq_stopped_iff, unfinished_iff, clear_eq]
  by_cases empty : session.queue.pending = []
  · simp [empty]
  · simp only [empty, if_false, same.total, ProgramRun.stopped_stop]
    simp
    tauto

/-- Some step cleared the queue while its program was unfinished and something waited, and no
other program was queued since. -/
def Stopping (steps : List Step) : Prop :=
  ∃ early now late, steps = early ++ .request (.clear now) :: late ∧
    (after settings transport early).Unfinished ∧
    (after settings transport early).queue.pending ≠ [] ∧
    (after settings transport (early ++ [.request (.clear now)])).KeepsProgram late

/-- One more step clears the queue, or it keeps the program that was stopped before. -/
theorem stopping_append_singleton (steps : List Step) (last : Step) :
    Stopping settings transport (steps ++ [last]) ↔
      ((∃ now, last = .request (.clear now)) ∧ (after settings transport steps).Unfinished ∧
        (after settings transport steps).queue.pending ≠ []) ∨
      (Stopping settings transport steps ∧
        (after settings transport steps).queuesProgram last = false) := by
  constructor
  · rintro ⟨early, now, late, split, unfinished, waiting, kept⟩
    rcases List.eq_nil_or_concat late with rfl | ⟨late, final, rfl⟩
    · obtain ⟨rfl, same⟩ := List.append_inj' split rfl
      cases same
      exact .inl ⟨⟨now, rfl⟩, unfinished, waiting⟩
    · rw [List.concat_eq_append, ← List.cons_append, ← List.append_assoc] at split
      obtain ⟨rfl, same⟩ := List.append_inj' split rfl
      cases same
      rw [List.concat_eq_append, keepsProgram_append_singleton] at kept
      refine .inr ⟨⟨early, now, late, rfl, unfinished, waiting, kept.1⟩, ?_⟩
      rw [after_append_cons]
      exact kept.2
  · rintro (⟨⟨now, rfl⟩, unfinished, waiting⟩ | ⟨stopping, kept⟩)
    · exact ⟨steps, now, [], rfl, unfinished, waiting, trivial⟩
    · obtain ⟨early, now, late, rfl, unfinished, waiting, before⟩ := stopping
      refine ⟨early, now, late ++ [last], by simp, unfinished, waiting, ?_⟩
      rw [after_append_cons] at kept
      exact (keepsProgram_append_singleton _ _ _).mpr ⟨before, kept⟩

/-- A program is reported as stopped if a clearing stopped it. -/
theorem reportsStopped_iff_stopping (steps : List Step) :
    (after settings transport steps).ReportsStopped ↔ Stopping settings transport steps := by
  induction steps using List.reverseRecOn with
  | nil =>
    rw [ReportsStopped, ProgramRun.state_eq_stopped_iff]
    constructor
    · exact fun stopped => absurd rfl stopped.1
    · rintro ⟨early, now, late, split, _⟩
      simp at split
  | append_singleton steps last ih =>
    rw [stopping_append_singleton, after_append_singleton, ← ih]
    by_cases clears : ∃ now, last = .request (.clear now)
    · obtain ⟨now, rfl⟩ := clears
      have kept : (after settings transport steps).queuesProgram (.request (.clear now)) = false :=
        rfl
      rw [kept]
      exact (reportsStopped_clear _ now).trans (by simp [or_comm])
    · cases kept : (after settings transport steps).queuesProgram last with
      | false =>
        rw [reportsStopped_step kept (not_exists.mp clears)]
        simp [clears]
      | true =>
        have free := not_reportsStopped_of_queuesProgram kept
        simp [free, clears]

/-- A line of the program waits, so a clearing drops it. -/
def LineWaits (session : Session) : Prop :=
  ∃ command ∈ session.queue.pending, session.run.contains command.id = true

/-- The last line of the program is on its way. -/
def LastOnItsWay (session : Session) : Prop :=
  ∃ sent, session.queue.inFlight = some sent ∧ sent.id = session.run.lastId

/-- Whatever steps a new session takes, it reports its program as stopped exactly if a request to
clear the queue came while the program was unfinished, with a line of it waiting, or with its
last line on its way and other commands waiting, and no other program was queued since. One of
its lines waits exactly if its last line is not on its way, so the second case drops none of
them. -/
theorem reported_stopped_iff (steps : List Step) :
    ((after settings transport steps).ReportsStopped ↔
      ∃ early now late, steps = early ++ .request (.clear now) :: late ∧
        (after settings transport early).Unfinished ∧
        ((after settings transport early).LineWaits ∨
          ((after settings transport early).LastOnItsWay ∧
            (after settings transport early).queue.pending ≠ [])) ∧
        (after settings transport (early ++ [.request (.clear now)])).KeepsProgram late) ∧
      ((after settings transport steps).Unfinished →
        ((after settings transport steps).LineWaits ↔
          ¬(after settings transport steps).LastOnItsWay)) := by
  have placed : ∀ steps, (after settings transport steps).Unfinished →
      ((after settings transport steps).LineWaits ↔
        ¬(after settings transport steps).LastOnItsWay) := by
    intro steps unfinished
    have last := (lined_after settings transport steps).none_waits_iff unfinished
    rw [LastOnItsWay, ← last]
    simp [LineWaits]
  refine ⟨?_, placed steps⟩
  rw [reportsStopped_iff_stopping]
  constructor
  · rintro ⟨early, now, late, split, unfinished, waiting, kept⟩
    refine ⟨early, now, late, split, unfinished, ?_, kept⟩
    by_cases last : (after settings transport early).LastOnItsWay
    · exact .inr ⟨last, waiting⟩
    · exact .inl ((placed early unfinished).mpr last)
  · rintro ⟨early, now, late, split, unfinished, dropped, kept⟩
    refine ⟨early, now, late, split, unfinished, ?_, kept⟩
    rcases dropped with ⟨command, waits, _⟩ | ⟨_, waiting⟩
    · exact List.ne_nil_of_mem waits
    · exact waiting

/-- A program of three lines whose last line is on its way when a clearing drops another command:
none of its lines waits then, all three are acknowledged, but it is reported as stopped and its
end is never published. -/
theorem stopped_without_dropping_a_line :
    let turn : List Step := [.send 0 0 0 none, .receive 0 (.line (ascii "ok"))]
    let early : List Step := [.request (.connect none), .request (.program 0 [{}])] ++ turn ++
      turn ++ [.send 0 0 0 none, .request (.command (.gcode (ascii "M5")))]
    let cleared := after {} (some []) early
    let session := after {} (some [])
      (early ++ [.request (.clear 0), .receive 0 (.line (ascii "ok"))])
    (∀ command ∈ cleared.queue.pending, cleared.run.contains command.id = false) ∧
      session.run.state session.queue.paused = .stopped ∧ session.run.total = 3 ∧
      session.results.map (fun result => (result.id, result.succeeded)) =
        [(1, true), (2, true), (3, true)] ∧
      programEnds session.record.reverse = [] := by
  decide +kernel

end Session

end GcodeSender
