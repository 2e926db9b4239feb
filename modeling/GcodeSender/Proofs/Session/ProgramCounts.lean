import GcodeSender.Proofs.Session.Following

/-!
# The counts of a program

A session that has queued a program follows it from then on. Its counts are those of the results
published for the lines, as the invariant of following says; that never more lines are carried
out than were sent is an invariant of its own (`Session.Ahead`), which holds because a command is
taken out and written in one step. The main statement follows for every run of a session after
the program was queued: the counts are those of the results for its lines until it is stopped,
and its end is published at most once, right after the last of its results.
-/
namespace GcodeSender

namespace Session

variable {session next : Session} {history : Queue.History} {calls : List Queue.Call}
  {ids : List Nat} {base news : List Notice}

/-! ## Sent and carried out -/

/-- Every line of the program that was carried out was counted as sent, and so is the one on its
way. -/
def Ahead (session : Session) : Prop :=
  session.run.completed + session.queue.onTheWay.countP (session.run.contains ·.id) ≤
    session.run.sent

/-- Settling an answer carries out at most the line that the answer is about. -/
theorem completed_settleQueue_le (session : Session) (now : Int)
    (answer : Option CommandResult × Queue) :
    (session.settleQueue now answer).run.completed ≤ session.run.completed +
      answer.1.toList.countP
        (fun result => session.run.contains result.id && result.succeeded) := by
  rw [run_settleQueue]
  cases answer.1 with
  | none => exact Nat.le_refl _
  | some result =>
    refine Nat.le_trans (ProgramRun.completed_recordResult_le _ _ _ _) (Nat.le_of_eq ?_)
    simp [List.countP_singleton, CommandResult.succeeded]

/-- Settling an answer keeps the order of sending and carrying out. -/
theorem Ahead.settle (ahead : session.Ahead) (now : Int)
    {answer : Option CommandResult × Queue} (settled : session.queue.Settles answer) :
    (session.settleQueue now answer).Ahead := by
  have completed := completed_settleQueue_le session now answer
  obtain ⟨same, sent, _⟩ := run_settleQueue_keeps session now answer
  -- What the answer is about was on its way.
  have left : answer.1.toList.countP (fun result => session.run.contains result.id) +
      answer.2.onTheWay.countP (session.run.contains ·.id) =
        session.queue.onTheWay.countP (session.run.contains ·.id) := by
    rw [← settled.command, List.countP_append, List.countP_map]
    rfl
  have fewer : answer.1.toList.countP
      (fun result => session.run.contains result.id && result.succeeded) ≤
        answer.1.toList.countP (fun result => session.run.contains result.id) :=
    List.countP_mono_left fun result _ both => (Bool.and_eq_true_iff.mp both).1
  unfold Ahead at ahead ⊢
  rw [queue_settleQueue, sent, funext same.contains]
  omega

/-- Ending a command that could not be sent is no success. -/
theorem countP_failSend (queue : Queue) (now : Int) (reason : Bytes)
    (own : CommandResult → Bool) :
    (queue.failSend now reason).1.toList.countP (fun result => own result && result.succeeded) =
      0 := by
  rw [List.countP_eq_zero]
  intro result member both
  have failed : result.outcome = .notSent reason := by
    unfold Queue.failSend Queue.finish at member
    cases way : queue.inFlight with
    | none => simp [way] at member
    | some sent => simp_all
  simp [CommandResult.succeeded, failed] at both

/-- Every elementary change keeps the order of sending and carrying out. -/
theorem Ahead.change (ahead : session.Ahead) (change : session.Change calls next) :
    next.Ahead := by
  cases change with
  | rest queue run record =>
    unfold Ahead at ahead ⊢
    rw [queue, run]
    exact ahead
  | note result programEnd => exact ahead
  | quiet call quiet =>
    obtain ⟨_, _, _, lines, taken⟩ := session.history.apply_of_isQuiet quiet
    have way : (session.history.apply call).queue.onTheWay = session.queue.onTheWay :=
      taken.onTheWay
    unfold Ahead at ahead ⊢
    rw [way]
    exact ahead
  | settle call now settled answered => exact ahead.settle now settled
  | @write now sent queue taken =>
    -- Nothing was on its way before, and what is on its way after it counts as sent.
    obtain ⟨idle, _, way, _⟩ := Queue.taken_of_dequeue taken
    have same := ProgramRun.sameProgram_recordSent session.run sent.id
    unfold Ahead at ahead ⊢
    rw [idle] at ahead
    show (session.run.recordSent sent.id).completed +
      queue.onTheWay.countP ((session.run.recordSent sent.id).contains ·.id) ≤
        (session.run.recordSent sent.id).sent
    rw [way, funext same.contains, List.countP_singleton, ProgramRun.recordSent_eq]
    exact Nat.add_le_add_right ahead _
  | @lose now sent queue taken reason =>
    -- Nothing was on its way before, nothing is after it, and nothing is carried out.
    obtain ⟨idle, _⟩ := Queue.taken_of_dequeue taken
    have completed :=
      completed_settleQueue_le { session with queue := queue } now (queue.failSend now reason)
    rw [countP_failSend] at completed
    have counted :=
      (run_settleQueue_keeps { session with queue := queue } now (queue.failSend now reason)).2.1
    have gone : (queue.failSend now reason).2.onTheWay = [] := by
      simp [Queue.onTheWay]
    unfold Ahead at ahead ⊢
    rw [idle] at ahead
    rw [queue_settleQueue, gone, counted]
    exact Nat.le_trans completed ahead

/-- Clearing the queue keeps the order of sending and carrying out. -/
theorem Ahead.clear (ahead : session.Ahead) (now : Int) : (session.clear now).2.Ahead := by
  rw [clear_eq]
  by_cases empty : session.queue.pending = []
  · rw [if_pos empty]
    exact ahead
  · rw [if_neg empty]
    obtain ⟨completed, sent⟩ := ProgramRun.counts_stop session.run now
    unfold Ahead at ahead ⊢
    dsimp only
    rw [completed, sent, funext (ProgramRun.sameProgram_stop session.run now).contains]
    exact ahead

/-- Steps that queue no program keep the order of sending and carrying out. -/
theorem Ahead.foldl (ahead : session.Ahead) {steps : List Step}
    (kept : session.KeepsProgram steps) : (steps.foldl step session).Ahead :=
  keep_foldl (fun change ahead => ahead.change change) (fun _ now ahead => ahead.clear now) kept
    ahead

/-! ## Starting -/

variable (settings : SessionSettings) (transport : Option Bytes)

/-- After any steps of a new session there is a history of its queue that accounts for every
number. -/
theorem exists_tracked (steps : List Step) :
    ∃ history : Queue.History, history.Tracks (after settings transport steps) ∧
      history.Consistent := by
  induction steps using List.reverseRecOn with
  | nil =>
    exact ⟨{ queue := Queue.create settings.queue }, ⟨rfl, rfl⟩,
      Queue.History.consistent_create settings.queue⟩
  | append_singleton steps last ih =>
    obtain ⟨history, tracked, consistent⟩ := ih
    obtain ⟨calls, lines, made, _⟩ := makes_step (after settings transport steps) last
    rw [after_append_singleton]
    exact ⟨_, made.tracks history tracked, consistent.foldl calls⟩

/-- A path that is queued is the program to follow, under successive numbers. -/
theorem sendProgram_of_some {now : Int} {segments : List Segment}
    (queued : (session.sendProgram now segments).1 = some ids) :
    ids = (List.range (printPath segments).length).map (session.queue.nextId + ·) ∧
      ∃ queue, session.queue.enqueueBatch (printPath segments) = (some ids, queue) ∧
        session.queue.Accepts ((printPath segments).map trim) queue ∧
        (session.sendProgram now segments).2 =
          { session with queue := queue, run := .start ids now } := by
  unfold sendProgram at queued ⊢
  split
  · next apart =>
    rw [if_pos apart] at queued
    cases queued
  · next connected =>
    rw [if_neg connected] at queued
    rcases session.queue.enqueueBatch_cases (printPath segments) with
      ⟨fault, refused⟩ | ⟨queue, made, taken⟩
    · rw [refused] at queued
      cases queued
    · rw [made] at queued ⊢
      obtain rfl : _ = ids := Option.some.inj queued
      exact ⟨by rw [List.length_map], queue, rfl, taken, rfl⟩

/-- What is on its way or waits when a program is queued was given an earlier number. -/
theorem not_contains_of_held (tracked : history.Tracks session)
    (consistent : history.Consistent) {now : Int} {segments : List Segment}
    (queued : (session.sendProgram now segments).1 = some ids) {command : PendingCommand}
    (held : command ∈ session.queue.onTheWay ++ session.queue.pending) :
    (ProgramRun.start ids now).contains command.id = false := by
  have early := held_below_nextId tracked consistent held
  rw [(sendProgram_of_some queued).1, ProgramRun.contains_start, decide_eq_false_iff_not]
  intro inside
  obtain ⟨place, _, same⟩ := List.mem_map.mp inside
  omega

/-- A session that has just queued a program follows it. -/
theorem follows_sendProgram (tracked : history.Tracks session) (consistent : history.Consistent)
    {now : Int} {segments : List Segment}
    (queued : (session.sendProgram now segments).1 = some ids) :
    (session.sendProgram now segments).2.Follows ids session.record.reverse []
        (history.apply (.enqueueBatch (printPath segments))) ∧
      (session.sendProgram now segments).2.Ahead := by
  obtain ⟨numbers, queue, made, taken, started⟩ := sendProgram_of_some queued
  obtain ⟨total, sent, completed, free, unanswered⟩ := ProgramRun.start_unbegun ids now
  have own : ∀ id, (ProgramRun.start ids now).contains id = decide (id ∈ ids) := by
    rw [numbers]
    exact ProgramRun.contains_start _ _ now
  have kept : (history.apply (.enqueueBatch (printPath segments))).queue = queue := by
    show (history.queue.enqueueBatch (printPath segments)).2 = queue
    rw [tracked.queue, made]
  rw [started]
  constructor
  · refine ⟨⟨kept, tracked.results⟩, consistent.apply _, (List.append_nil _).symm, own, total,
      fun stopped => ?_, Nat.le_trans (Nat.le_of_eq sent) (Nat.zero_le _),
      fun _ => ProgramRun.counts_start ids now, ?_, ?_⟩
    · exact absurd (free.symm.trans stopped) (by decide)
    · show [] = endings (ProgramRun.start ids now) _
      simp [endings, unanswered]
    · intro front notice back split
      simp at split
  · have other : queue.onTheWay.countP ((ProgramRun.start ids now).contains ·.id) = 0 := by
      rw [List.countP_eq_zero]
      intro command member inside
      rw [taken.onTheWay] at member
      rw [not_contains_of_held tracked consistent queued (List.mem_append_left _ member)] at inside
      cases inside
    show (ProgramRun.start ids now).completed +
      queue.onTheWay.countP ((ProgramRun.start ids now).contains ·.id) ≤ _
    rw [other, completed]
    exact Nat.zero_le _

/-! ## Every run -/

/-- No more lines of the program count as sent than it has. -/
theorem Follows.sent_le (follows : session.Follows ids base news history) :
    session.run.sent ≤ ids.length := by
  have increasing := follows.consistent.sent_increasing.sublist
    ((List.filter_sublist (p := fun sent : SentCommand => sent.id ∈ ids)).map SentCommand.id)
  have bound := length_le_of_increasing increasing fun number member => by
    obtain ⟨sent, inside, rfl⟩ := List.mem_map.mp member
    exact of_decide_eq_true (List.mem_filter.mp inside).2
  rw [List.length_map] at bound
  exact Nat.le_trans follows.sent bound

/-- The first failure counted is the one with the smallest number. -/
theorem Follows.firstFailed (follows : session.Follows ids base news history)
    (free : session.run.stopped = false) :
    session.run.firstFailed =
      (((answers ids news).filter (!·.succeeded)).map CommandResult.id).min? := by
  have increasing : (((answers ids news).filter (!·.succeeded)).map CommandResult.id).Pairwise
      (· < ·) :=
    (answers_increasing follows.tracks follows.consistent follows.record).sublist
      (List.filter_sublist.map _)
  rw [(follows.counts free).firstFailed, List.min?_eq_head?]
  exact increasing.imp fun less => Nat.min_eq_left (Nat.le_of_lt less)

/-- A program that is not reported as stopped was not stopped. -/
theorem Follows.stopped_eq_false (follows : session.Follows ids base news history)
    {paused : Bool} (free : session.run.state paused ≠ .stopped) :
    session.run.stopped = false := by
  rw [ne_eq, ProgramRun.state_eq_stopped_iff, not_and] at free
  refine Bool.eq_false_iff.mpr fun stopped => free ?_ stopped
  rw [follows.total]
  exact mt List.length_eq_zero_iff.mp (follows.stops stopped)

/-- The end of a program with lines is published when there are as many results as lines and it
is not reported as stopped. -/
theorem Follows.ends_iff (follows : session.Follows ids base news history) (paused : Bool) :
    programEnds news =
      if ids ≠ [] ∧ session.run.state paused ≠ .stopped ∧
          (answers ids news).length = ids.length then
        [verdict (answers ids news)]
      else [] := by
  have most : (answers ids news).length ≤ ids.length :=
    length_answers_le follows.tracks follows.consistent follows.record
  rw [follows.ends, endings]
  by_cases lines : ids = []
  · have none : session.run.allAnswered = false := by
      simp [ProgramRun.allAnswered, follows.total, lines]
    simp [lines, none]
  · have positive : 0 < session.run.total := by
      rw [follows.total]
      exact List.length_pos_iff.mpr lines
    cases stopped : session.run.stopped with
    | true => simp [ProgramRun.state_eq_stopped_iff, stopped, Nat.ne_of_gt positive]
    | false =>
      have answered := (follows.counts stopped).allAnswered_iff positive
      rw [follows.total] at answered
      have equal : (answers ids news).length = ids.length ↔ session.run.allAnswered = true := by
        rw [answered]
        exact ⟨fun same => Nat.le_of_eq same.symm, Nat.le_antisymm most⟩
      simp [ProgramRun.state_eq_stopped_iff, stopped, lines, equal]

/-- After a session queued a path as the program to follow, and whatever steps it takes that queue
no other, the program has the numbers of the lines, which are successive. No more of them were
carried out than sent, and no more sent than there are. Unless the program is reported as
stopped, the lines carried out and those that failed are as many as the results published for
them, and the first failure is the one with the smallest number. The end of a program with lines
was published once if all of them have results and it is not stopped, and else never; it stands
right after the last of the results and says whether all of them were successes. A result for
another number is published and changes nothing else. -/
theorem program_counts_results (earlier later : List Step) (now : Int)
    (segments : List Segment) (ids : List Nat)
    (queued : ((after settings transport earlier).sendProgram now segments).1 = some ids)
    (kept : (after settings transport
      (earlier ++ [.request (.program now segments)])).KeepsProgram later) :
    let before := after settings transport earlier
    let session := after settings transport (earlier ++ .request (.program now segments) :: later)
    ids = (List.range (printPath segments).length).map (before.queue.nextId + ·) ∧
      session.run.total = ids.length ∧
      (∀ id, session.run.contains id = true ↔ id ∈ ids) ∧
      session.run.completed ≤ session.run.sent ∧ session.run.sent ≤ ids.length ∧
      (∀ now result, result.id ∉ ids →
        session.publishResult now result = session.note (.result result)) ∧
      ∃ news, session.record.reverse = before.record.reverse ++ news ∧
        (session.run.state session.queue.paused ≠ .stopped →
          session.run.completed = (answers ids news).countP (·.succeeded) ∧
          session.run.failed = (answers ids news).countP (!·.succeeded) ∧
          session.run.firstFailed =
            (((answers ids news).filter (!·.succeeded)).map CommandResult.id).min?) ∧
        programEnds news =
          (if ids ≠ [] ∧ session.run.state session.queue.paused ≠ .stopped ∧
              (answers ids news).length = ids.length then
            [verdict (answers ids news)]
          else []) ∧
        Placed ids news := by
  intro before session
  obtain ⟨history, tracked, consistent⟩ := exists_tracked settings transport earlier
  obtain ⟨started, ahead⟩ := follows_sendProgram tracked consistent queued
  have begun : after settings transport (earlier ++ [.request (.program now segments)]) =
      (before.sendProgram now segments).2 := after_append_singleton settings transport earlier _
  have reached : session = later.foldl step (before.sendProgram now segments).2 := by
    rw [← begun]
    exact after_append_cons settings transport earlier later _
  rw [begun] at kept
  obtain ⟨news, history, follows⟩ := started.foldl kept
  have order := ahead.foldl kept
  rw [← reached] at follows order
  refine ⟨(sendProgram_of_some queued).1, follows.total, fun id => ?_, ?_, follows.sent_le,
    fun now result other => ?_, news, follows.record, fun free => ?_, follows.ends_iff _,
    follows.placed⟩
  · rw [follows.own]
    exact decide_eq_true_iff
  · exact Nat.le_trans (Nat.le_add_right _ _) order
  · rcases publishResult_cases session now result with ⟨_, same⟩ | ⟨own, _⟩
    · exact same
    · rw [follows.own] at own
      exact absurd (of_decide_eq_true own) other
  · have counts := follows.counts (follows.stopped_eq_false free)
    exact ⟨counts.completed, counts.failed,
      follows.firstFailed (follows.stopped_eq_false free)⟩

/-- A program of three lines whose second is refused, with another command behind it: two
successes and one failure are published for it, and the smallest failing number is the second. -/
theorem program_counts_results_of_refused_line :
    let earlier : List Step := [.request (.connect none)]
    let program : Step := .request (.program 0 [{}])
    let turn (answer : String) : List Step := [.send 0 0 0 none, .receive 0 (.line (ascii answer))]
    let later : List Step := turn "ok" ++ turn "error:20" ++
      .request (.command (.gcode (ascii "M5"))) :: (turn "ok" ++ turn "ok")
    ((after {} (some []) earlier).sendProgram 0 [{}]).1 = some [1, 2, 3] ∧
      (after {} (some []) (earlier ++ [program])).KeepsProgram later ∧
      ∃ news, (after {} (some []) (earlier ++ program :: later)).record.reverse =
          (after {} (some []) earlier).record.reverse ++ news ∧
        (answers [1, 2, 3] news).countP (·.succeeded) = 2 ∧
        (answers [1, 2, 3] news).countP (!·.succeeded) = 1 ∧
        (((answers [1, 2, 3] news).filter (!·.succeeded)).map CommandResult.id).min? = some 2 := by
  intro earlier program turn later
  have queued : ((after {} (some []) earlier).sendProgram 0 [{}]).1 = some [1, 2, 3] := by
    decide +kernel
  have kept : (after {} (some []) (earlier ++ [program])).KeepsProgram later := by decide +kernel
  obtain ⟨_, _, _, _, _, _, news, record, counts, _⟩ :=
    program_counts_results {} (some []) earlier later 0 [{}] [1, 2, 3] queued kept
  obtain ⟨completed, failed, first⟩ := counts (by decide +kernel)
  exact ⟨queued, kept, news, record, completed.symm.trans (by decide +kernel),
    failed.symm.trans (by decide +kernel), first.symm.trans (by decide +kernel)⟩

end Session

end GcodeSender
