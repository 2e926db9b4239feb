import GcodeSender.Proofs.ProgramRun.Counting
import GcodeSender.Proofs.Session.Changes

/-!
# Following a program

The run of a program knows only a range of numbers and how many results it has counted, not
which lines have answered. That its counts are nevertheless those of the results published for
its lines rests on the queue: the lines were taken in under successive numbers that none had
before, each is sent at most once, and no number has two results. So a session that follows a
program (`Session.Follows`) has, beside its counts, a history of its queue that accounts for
every number once. The main statement is that every step that queues no other program keeps
this.
-/
namespace GcodeSender

namespace Session

variable {session next : Session} {history later : Queue.History} {calls : List Queue.Call}
  {ids : List Nat} {base news more : List Notice} {result : CommandResult}

/-- Putting in the queue after an answer keeps the program, what was sent of it, and whether it
was stopped. -/
theorem run_settleQueue_keeps (session : Session) (now : Int)
    (answer : Option CommandResult × Queue) :
    session.run.SameProgram (session.settleQueue now answer).run ∧
      (session.settleQueue now answer).run.sent = session.run.sent ∧
      (session.settleQueue now answer).run.stopped = session.run.stopped := by
  rw [run_settleQueue]
  cases answer.1 with
  | none => exact ⟨.refl _, rfl, rfl⟩
  | some result =>
    exact ⟨ProgramRun.sameProgram_recordResult _ _ _ _, ProgramRun.sent_recordResult _ _ _ _,
      ProgramRun.stopped_recordResult _ _ _ _⟩

/-! ## What was published about a program -/

/-- The results for some numbers among notices, in their order. -/
def answers (ids : List Nat) (notices : List Notice) : List CommandResult :=
  (notices.filterMap Notice.result?).filter (·.id ∈ ids)

/-- The ends of programs among notices, in their order. -/
def programEnds (notices : List Notice) : List Bytes := notices.filterMap Notice.programEnd?

/-- The word for the end of a program with some results. -/
def verdict (answers : List CommandResult) : Bytes :=
  if answers.all CommandResult.succeeded then ascii "Completed" else ascii "Error"

/-- The ends that are published of a run with some results: one, if all its lines have results
and it was not stopped. -/
def endings (run : ProgramRun) (answers : List CommandResult) : List Bytes :=
  if !run.stopped && run.allAnswered then [verdict answers] else []

/-- Every end of a program among notices stands right after a result for one of some numbers,
by which there are as many results as numbers. -/
def Placed (ids : List Nat) (notices : List Notice) : Prop :=
  ∀ front notice back, notices = front ++ notice :: back → notice.programEnd? ≠ none →
    ∃ early result, front = early ++ [.result result] ∧ result.id ∈ ids ∧
      (answers ids front).length = ids.length

@[simp] theorem answers_append (ids : List Nat) (front back : List Notice) :
    answers ids (front ++ back) = answers ids front ++ answers ids back := by
  simp [answers]

@[simp] theorem programEnds_append (front back : List Notice) :
    programEnds (front ++ back) = programEnds front ++ programEnds back :=
  List.filterMap_append

/-- A notice that is no result answers nothing. -/
theorem answers_of_result_none {notice : Notice} (none : notice.result? = none) :
    answers ids [notice] = [] := by
  simp [answers, none]

/-- A result for one of the numbers answers it. -/
theorem answers_of_mem (own : result.id ∈ ids) : answers ids [.result result] = [result] := by
  simp [answers, Notice.result?, own]

/-- A result for another number answers nothing. -/
theorem answers_of_not_mem (other : result.id ∉ ids) : answers ids [.result result] = [] := by
  simp [answers, Notice.result?, other]

/-- The results for some numbers come in the order of all results. -/
theorem answers_sublist (ids : List Nat) (base news : List Notice) :
    (answers ids news).Sublist ((base ++ news).filterMap Notice.result?) := by
  rw [List.filterMap_append]
  exact List.filter_sublist.trans (List.sublist_append_right _ _)

/-- A notice that ends no program keeps the places of the ends. -/
theorem Placed.append {notice : Notice} (placed : Placed ids news)
    (quiet : notice.programEnd? = none) : Placed ids (news ++ [notice]) := by
  intro front other back split ends
  rcases List.eq_nil_or_concat back with rfl | ⟨back, last, rfl⟩
  · obtain ⟨_, same⟩ := List.append_inj' split rfl
    cases same
    exact absurd quiet ends
  · rw [List.concat_eq_append, ← List.cons_append, ← List.append_assoc] at split
    exact placed front other back (List.append_inj' split rfl).1 ends

/-- The end of a program after the last result for it is in its place. -/
theorem Placed.append_end {notice : Notice} (placed : Placed ids (news ++ [.result result]))
    (own : result.id ∈ ids)
    (all : (answers ids (news ++ [.result result])).length = ids.length) :
    Placed ids (news ++ [.result result] ++ [notice]) := by
  intro front other back split ends
  rcases List.eq_nil_or_concat back with rfl | ⟨back, last, rfl⟩
  · have whole : news ++ [.result result] = front := (List.append_inj' split rfl).1
    rw [← whole]
    exact ⟨news, result, rfl, own, all⟩
  · rw [List.concat_eq_append, ← List.cons_append, ← List.append_assoc] at split
    exact placed front other back (List.append_inj' split rfl).1 ends

/-! ## What the queue contributes -/

/-- Increasing numbers among some numbers are at most as many. -/
theorem length_le_of_increasing {numbers : List Nat} (increasing : numbers.Pairwise (· < ·))
    (within : ∀ number ∈ numbers, number ∈ ids) : numbers.length ≤ ids.length := by
  have distinct : numbers.Nodup := increasing.imp Nat.ne_of_lt
  exact (List.subperm_of_subset distinct within).length_le

/-- Results come in increasing order of their numbers. -/
theorem results_increasing (tracked : history.Tracks session) (consistent : history.Consistent) :
    (session.results.map CommandResult.id).Pairwise (· < ·) := by
  have sent := consistent.ordered
  rw [consistent.settled, List.append_assoc, List.map_append, List.map_map] at sent
  rw [← tracked.results]
  exact (List.pairwise_append.mp sent).1

/-- What is on its way or waits was given its number before. -/
theorem held_below_nextId (tracked : history.Tracks session) (consistent : history.Consistent)
    {command : PendingCommand}
    (held : command ∈ session.queue.onTheWay ++ session.queue.pending) :
    command.id < session.queue.nextId := by
  rw [← tracked.queue] at held ⊢
  refine consistent.fresh command (consistent.mem_accepted ?_)
  rw [consistent.settled, List.append_assoc]
  exact List.mem_append_right _ held

/-- The numbers of the results for a program increase. -/
theorem answers_increasing (tracked : history.Tracks session) (consistent : history.Consistent)
    (record : session.record.reverse = base ++ news) :
    ((answers ids news).map CommandResult.id).Pairwise (· < ·) := by
  have increasing := results_increasing tracked consistent
  rw [results, record] at increasing
  exact increasing.sublist ((answers_sublist ids base news).map _)

/-- A program has no more results than lines. -/
theorem length_answers_le (tracked : history.Tracks session) (consistent : history.Consistent)
    (record : session.record.reverse = base ++ news) :
    (answers ids news).length ≤ ids.length := by
  have increasing : ((answers ids news).map CommandResult.id).Pairwise (· < ·) :=
    answers_increasing tracked consistent record
  have within : ∀ number ∈ (answers ids news).map CommandResult.id, number ∈ ids := by
    intro number member
    obtain ⟨result, inside, rfl⟩ := List.mem_map.mp member
    exact of_decide_eq_true (List.mem_filter.mp inside).2
  rw [← List.length_map CommandResult.id]
  exact length_le_of_increasing increasing within

/-! ## The invariant -/

/-- A session follows the program with some numbers, about which it published `news` after
`base`. -/
structure Follows (ids : List Nat) (base news : List Notice) (history : Queue.History)
    (session : Session) : Prop where
  /-- The history is that of the queue. -/
  tracks : history.Tracks session
  /-- The history accounts for every number. -/
  consistent : history.Consistent
  /-- What was published is the base and the news. -/
  record : session.record.reverse = base ++ news
  /-- The numbers are those of the program. -/
  own : ∀ id, session.run.contains id = decide (id ∈ ids)
  /-- There is a line for each number. -/
  total : session.run.total = ids.length
  /-- Only a program with lines is stopped. -/
  stops : session.run.stopped = true → ids ≠ []
  /-- No more lines count as sent than were given out for sending. -/
  sent : session.run.sent ≤ (history.sent.filter (·.id ∈ ids)).length
  /-- Until the program is stopped, the counts are those of the results for its lines. -/
  counts : session.run.stopped = false → session.run.Counts (answers ids news)
  /-- The end of the program was published if there is one. -/
  ends : programEnds news = endings session.run (answers ids news)
  /-- The end was published right after the last result. -/
  placed : Placed ids news

/-- A program with a number has lines. -/
theorem Follows.total_pos (follows : session.Follows ids base news history) {id : Nat}
    (own : id ∈ ids) : 0 < session.run.total := by
  rw [follows.total]
  exact List.length_pos_of_mem own

/-- A change of the queue that keeps the run and the record is followed. -/
theorem Follows.congr (follows : session.Follows ids base news history)
    (tracked : later.Tracks next) (consistent : later.Consistent)
    (run : next.run = session.run) (record : next.record = session.record)
    (sent : history.sent <+: later.sent) : next.Follows ids base news later := by
  have more : (history.sent.filter (·.id ∈ ids)).length ≤
      (later.sent.filter (·.id ∈ ids)).length :=
    (sent.sublist.filter _).length_le
  refine ⟨tracked, consistent, ?_, ?_, ?_, ?_, ?_, ?_, ?_, follows.placed⟩
  · rw [record, follows.record]
  · rw [run]
    exact follows.own
  · rw [run, follows.total]
  · rw [run]
    exact follows.stops
  · rw [run]
    exact Nat.le_trans follows.sent more
  · rw [run]
    exact follows.counts
  · rw [run]
    exact follows.ends

/-- A notice that is neither a result nor the end of a program is followed. -/
theorem Follows.note (follows : session.Follows ids base news history) (notice : Notice)
    (result : notice.result? = none) (programEnd : notice.programEnd? = none) :
    (session.note notice).Follows ids base (news ++ [notice]) history := by
  have same : answers ids (news ++ [notice]) = answers ids news := by
    rw [answers_append, answers_of_result_none result, List.append_nil]
  refine ⟨⟨follows.tracks.queue, ?_⟩, follows.consistent, ?_, follows.own, follows.total,
    follows.stops, follows.sent, ?_, ?_, follows.placed.append programEnd⟩
  · rw [results_note, result, follows.tracks.results]
    exact (List.append_nil _).symm
  · show (notice :: session.record).reverse = _
    rw [List.reverse_cons, follows.record, List.append_assoc]
  · rw [same]
    exact follows.counts
  · rw [same, programEnds_append, follows.ends]
    simp [programEnds, programEnd, Session.note]

/-- A run that was not stopped and has all its results leaves none to come. -/
theorem Follows.stopped_of_answer (follows : session.Follows ids base news history)
    (tracked : later.Tracks next) (consistent : later.Consistent)
    (record : next.record.reverse = base ++ (news ++ [.result result])) (own : result.id ∈ ids)
    (frozen : session.run.isFrozen = true) : session.run.stopped = true := by
  by_contra free
  rw [Bool.not_eq_true] at free
  have all : session.run.total ≤ (answers ids news).length :=
    ((follows.counts free).allAnswered_iff (follows.total_pos own)).mp
      (by simpa [ProgramRun.isFrozen, free] using frozen)
  have bound : (answers ids (news ++ [.result result])).length ≤ ids.length :=
    length_answers_le tracked consistent record
  rw [answers_append, answers_of_mem own, List.length_append, List.length_singleton] at bound
  rw [follows.total] at all
  omega

/-- A result that the run passes over is followed. -/
theorem Follows.passOver (follows : session.Follows ids base news history)
    (tracked : later.Tracks next) (consistent : later.Consistent)
    (sent : later.sent = history.sent) (run : next.run = session.run)
    (record : next.record = .result result :: session.record)
    (closed : session.run.contains result.id = false ∨ session.run.isFrozen = true) :
    next.Follows ids base (news ++ [.result result]) later := by
  have entered : next.record.reverse = base ++ (news ++ [.result result]) := by
    rw [record, List.reverse_cons, follows.record, List.append_assoc]
  have published : programEnds (news ++ [.result result]) = programEnds news := by
    rw [programEnds_append]
    exact List.append_nil _
  -- Either the counts have no part in the result or they are settled by a stop.
  have still : answers ids (news ++ [.result result]) = answers ids news ∨
      session.run.stopped = true := by
    by_cases own : result.id ∈ ids
    · have frozen := closed.resolve_left (by simp [follows.own, own])
      exact .inr (follows.stopped_of_answer tracked consistent entered own frozen)
    · exact .inl (by rw [answers_append, answers_of_not_mem own, List.append_nil])
  refine ⟨tracked, consistent, entered, ?_, ?_, ?_, ?_, fun free => ?_, ?_,
    follows.placed.append rfl⟩
  · rw [run]
    exact follows.own
  · rw [run, follows.total]
  · rw [run]
    exact follows.stops
  · rw [run, sent]
    exact follows.sent
  · rw [run] at free ⊢
    rcases still with same | stopped
    · rw [same]
      exact follows.counts free
    · rw [stopped] at free
      cases free
  · rw [published, follows.ends, run]
    rcases still with same | stopped
    · rw [same]
    · simp [endings, stopped]

/-- The end of the program that an open run publishes after a result, if it is the last. -/
def closing (session : Session) (counted : ProgramRun) : List Notice :=
  if counted.allAnswered then
    [.event ⟨.programFinished (counted.failed == 0), session.linkState⟩]
  else []

/-- The end of a program is one notice or none. -/
theorem reverse_closing (session : Session) (counted : ProgramRun) :
    (session.closing counted).reverse = session.closing counted := by
  unfold closing
  split <;> rfl

/-- The end of a program is no result. -/
theorem answers_closing (ids : List Nat) (session : Session) (counted : ProgramRun) :
    answers ids (session.closing counted) = [] := by
  unfold closing
  split <;> rfl

/-- A run that counted some results and was not stopped publishes the end that is due. -/
theorem programEnds_closing {counted : ProgramRun} {results : List CommandResult}
    (counts : counted.Counts results) (free : counted.stopped = false) :
    programEnds (session.closing counted) = endings counted results := by
  have word : Happening.message (.programFinished (counted.failed == 0)) = verdict results := by
    simp [Happening.message, verdict, counts.failed_eq_zero_iff]
  unfold closing endings
  by_cases answered : counted.allAnswered = true
  · simp [answered, free, programEnds, Notice.programEnd?, Happening.kind, word]
  · simp [answered, programEnds]

/-- The end of a program is in its place if it comes with the last result for it. -/
theorem Placed.append_closing {counted : ProgramRun}
    (placed : Placed ids (news ++ [.result result])) (own : result.id ∈ ids)
    (all : counted.allAnswered = true →
      (answers ids (news ++ [.result result])).length = ids.length) :
    Placed ids (news ++ [.result result] ++ session.closing counted) := by
  unfold closing
  split
  · next answered => exact placed.append_end own (all answered)
  · rw [List.append_nil]
    exact placed

/-- A result is only entered, or an open run counts it and may end after it. -/
theorem publishResult_cases (session : Session) (now : Int) (result : CommandResult) :
    ((session.run.contains result.id = false ∨ session.run.isFrozen = true) ∧
        session.publishResult now result = session.note (.result result)) ∨
      (session.run.contains result.id = true ∧ session.run.isFrozen = false ∧
        ∃ counted ended,
          counted =
            { session.run.countOutcome result.id result.outcome with finishedAt := ended } ∧
          session.publishResult now result =
            { session with
              run := counted
              record := session.closing counted ++ .result result :: session.record }) := by
  have shape : session.publishResult now result =
      (let counted := session.run.recordResult result.id result.outcome now
      let noted : Session := { session.note (.result result) with run := counted.2 }
      if counted.1 then noted.announce (.programFinished (counted.2.failed == 0)) else noted) := rfl
  rcases ProgramRun.recordResult_cases session.run result.id result.outcome now with
    ⟨closed, same⟩ | ⟨own, open_, ended, counted⟩
  · refine .inl ⟨closed, ?_⟩
    rw [shape, same]
    rfl
  · refine .inr ⟨own, open_, _, ended, rfl, ?_⟩
    rw [shape, counted]
    unfold closing
    have same : ProgramRun.allAnswered
        { session.run.countOutcome result.id result.outcome with finishedAt := ended } =
          (session.run.countOutcome result.id result.outcome).allAnswered := rfl
    rw [same]
    cases (session.run.countOutcome result.id result.outcome).allAnswered with
    | true => rfl
    | false => rfl

/-- A result that an open run counts is followed. -/
theorem Follows.count (follows : session.Follows ids base news history)
    (tracked : later.Tracks next) (consistent : later.Consistent)
    (sent : later.sent = history.sent) {ended : Int}
    (run : next.run =
      { session.run.countOutcome result.id result.outcome with finishedAt := ended })
    (record : next.record = session.closing next.run ++ .result result :: session.record)
    (own : session.run.contains result.id = true) (open_ : session.run.isFrozen = false) :
    next.Follows ids base (news ++ [.result result] ++ session.closing next.run) later := by
  have member : result.id ∈ ids := by simpa [follows.own] using own
  obtain ⟨free, unanswered⟩ := Bool.or_eq_false_iff.mp open_
  have same : session.run.SameProgram next.run := by
    rw [run]
    exact (ProgramRun.sameProgram_countOutcome _ _ _).trans ⟨rfl, rfl, rfl⟩
  have stays : next.run.stopped = false := by
    rw [run]
    exact (ProgramRun.stopped_countOutcome _ _ _).trans free
  have counts : next.run.Counts (answers ids (news ++ [.result result])) := by
    rw [answers_append, answers_of_mem member, run]
    exact ((follows.counts free).countOutcome result).congr rfl rfl rfl
  have whole : answers ids (news ++ [.result result] ++ session.closing next.run) =
      answers ids (news ++ [.result result]) := by
    rw [answers_append, answers_closing, List.append_nil]
  have entered : next.record.reverse =
      base ++ (news ++ [.result result] ++ session.closing next.run) := by
    rw [record, List.reverse_append, reverse_closing, List.reverse_cons, follows.record]
    simp only [List.append_assoc]
  have lines : 0 < next.run.total := by
    rw [same.total]
    exact follows.total_pos member
  refine ⟨tracked, consistent, entered, fun id => ?_, ?_, fun stopped => ?_, ?_, fun _ => ?_, ?_,
    ?_⟩
  · rw [same.contains, follows.own]
  · rw [same.total, follows.total]
  · exact List.ne_nil_of_mem member
  · rw [run, sent]
    exact Nat.le_trans (Nat.le_of_eq (ProgramRun.sent_countOutcome _ _ _)) follows.sent
  · rw [whole]
    exact counts
  · have before : programEnds (news ++ [.result result]) = [] := by
      rw [programEnds_append, follows.ends]
      simp [endings, free, unanswered, programEnds, Notice.programEnd?]
    rw [whole, programEnds_append, before, List.nil_append]
    exact programEnds_closing counts stays
  · have here : Placed ids (news ++ [.result result]) := follows.placed.append rfl
    refine here.append_closing member fun answered => ?_
    have most : (answers ids (news ++ [.result result])).length ≤ ids.length := by
      rw [← whole]
      exact length_answers_le tracked consistent entered
    have least := (counts.allAnswered_iff lines).mp answered
    rw [same.total, follows.total] at least
    exact Nat.le_antisymm most least

/-! ## What keeps the invariant -/

/-- Settling an answer is followed. -/
theorem Follows.settle (follows : session.Follows ids base news history) (call : Queue.Call)
    (now : Int) {answer : Option CommandResult × Queue}
    (answered : ∀ history : Queue.History, history.queue = session.queue →
      history.apply call = history.answered answer) :
    ∃ more, (session.settleQueue now answer).Follows ids base (news ++ more)
      (history.apply call) := by
  have tracked : (history.apply call).Tracks (session.settleQueue now answer) :=
    (makes_settleQueue now answer answered).tracks history follows.tracks
  have consistent : (history.apply call).Consistent := follows.consistent.apply call
  have sent : (history.apply call).sent = history.sent := by
    rw [answered history follows.tracks.queue]
    rfl
  cases given : answer.1 with
  | none =>
    have quiet : session.settleQueue now answer = { session with queue := answer.2 } := by
      simp only [settleQueue, given]
    rw [quiet] at tracked ⊢
    refine ⟨[], ?_⟩
    rw [List.append_nil]
    exact follows.congr tracked consistent rfl rfl (sent ▸ List.prefix_rfl)
  | some result =>
    have published : session.settleQueue now answer =
        publishResult { session with queue := answer.2 } now result := by
      simp only [settleQueue, given]
    rw [published] at tracked ⊢
    rcases publishResult_cases { session with queue := answer.2 } now result with
      ⟨closed, same⟩ | ⟨own, open_, counted, ended, run, same⟩
    · rw [same] at tracked ⊢
      exact ⟨_, follows.passOver tracked consistent sent rfl rfl closed⟩
    · rw [same] at tracked ⊢
      have done := follows.count tracked consistent sent run rfl own open_
      rw [List.append_assoc] at done
      exact ⟨_, done⟩

/-- Taking a command out is followed. -/
theorem Follows.dequeue (follows : session.Follows ids base news history) {now : Int}
    {sent : SentCommand} {queue : Queue}
    (taken : session.queue.dequeue now = (some sent, queue)) :
    Follows ids base news (history.apply (.dequeue now)) { session with queue := queue } := by
  have consistent := follows.consistent.apply (.dequeue now)
  rw [← follows.tracks.queue] at taken
  rw [Queue.History.apply_dequeue taken] at consistent ⊢
  exact follows.congr ⟨rfl, follows.tracks.results⟩ consistent rfl rfl (List.prefix_append _ _)

/-- Writing a command that was taken out is followed. -/
theorem Follows.write (follows : session.Follows ids base news history) {now : Int}
    {sent : SentCommand} {queue : Queue}
    (taken : session.queue.dequeue now = (some sent, queue)) :
    Follows ids base (news ++ [.wrote (sent.text ++ [Byte.newline])])
      (history.apply (.dequeue now))
      (writeCommand { session with queue := queue } now sent none) := by
  have noted := (follows.dequeue taken).note (.wrote (sent.text ++ [Byte.newline])) rfl rfl
  have same := ProgramRun.sameProgram_recordSent session.run sent.id
  have counted := ProgramRun.recordSent_eq session.run sent.id
  refine ⟨⟨noted.tracks.queue, noted.tracks.results⟩, noted.consistent, noted.record,
    fun id => (same.contains id).trans (follows.own id), same.total.trans follows.total,
    fun stopped => ?_, ?_, fun free => ?_, ?_, noted.placed⟩
  · exact follows.stops ((congrArg ProgramRun.stopped counted).symm.trans stopped)
  · -- The command counts as sent exactly if it is one of the program, which the history has too.
    have given : (history.apply (.dequeue now)).sent = history.sent ++ [sent] := by
      rw [← follows.tracks.queue] at taken
      rw [Queue.History.apply_dequeue taken]
    have before := follows.sent
    have own := follows.own sent.id
    show (session.run.recordSent sent.id).sent ≤ _
    rw [counted, given, List.filter_append, List.length_append]
    by_cases member : sent.id ∈ ids
    · simpa [own, member] using before
    · simpa [own, member] using before
  · have running : session.run.stopped = false :=
      (congrArg ProgramRun.stopped counted).symm.trans free
    show (session.run.recordSent sent.id).Counts _
    rw [counted]
    exact (noted.counts running).congr rfl rfl rfl
  · refine noted.ends.trans ?_
    show endings session.run _ = endings (session.run.recordSent sent.id) _
    rw [counted]
    rfl

/-- Every elementary change is followed. -/
theorem Follows.change (follows : session.Follows ids base news history)
    (change : session.Change calls next) :
    ∃ more, next.Follows ids base (news ++ more) (calls.foldl Queue.History.apply history) := by
  have tracked := change.tracks follows.tracks
  have consistent := follows.consistent.foldl calls
  have silent (kept : next.Follows ids base news (calls.foldl Queue.History.apply history)) :
      ∃ more, next.Follows ids base (news ++ more) (calls.foldl Queue.History.apply history) :=
    ⟨[], by rwa [List.append_nil]⟩
  cases change with
  | rest queue run record =>
    exact silent (follows.congr tracked consistent run record List.prefix_rfl)
  | note result programEnd => exact ⟨_, follows.note _ result programEnd⟩
  | quiet call quiet =>
    have sent : (history.apply call).sent = history.sent := (history.apply_of_isQuiet quiet).1
    exact silent (follows.congr tracked consistent rfl rfl (sent ▸ List.prefix_rfl))
  | settle call now settled answered => exact follows.settle call now answered
  | write taken => exact ⟨_, follows.write taken⟩
  | @lose now sent queue taken reason =>
    have ended : ∀ history : Queue.History, history.queue = queue →
        history.apply (.failSend now reason) = history.answered (queue.failSend now reason) :=
      fun history same => by rw [← same]; rfl
    exact (follows.dequeue taken).settle (.failSend now reason) now ended

/-- Stopping the program is followed. -/
theorem Follows.stop (follows : session.Follows ids base news history) (now : Int) :
    Follows ids base news history { session with run := session.run.stop now } := by
  by_cases open_ : session.run.total ≠ 0 ∧ session.run.isFrozen = false
  · have unended : endings session.run (answers ids news) = [] := by
      simp [endings, (Bool.or_eq_false_iff.mp open_.2).2]
    have stopped : (session.run.stop now).stopped = true := by
      rw [ProgramRun.stopped_stop]
      simp [open_]
    have lines : ids ≠ [] := by
      rintro rfl
      exact open_.1 follows.total
    have same := ProgramRun.sameProgram_stop session.run now
    have counts := ProgramRun.counts_stop session.run now
    refine ⟨⟨follows.tracks.queue, follows.tracks.results⟩, follows.consistent, follows.record,
      fun id => (same.contains id).trans (follows.own id), same.total.trans follows.total,
      fun _ => lines, ?_, fun free => ?_, ?_, follows.placed⟩
    · exact Nat.le_trans (Nat.le_of_eq counts.2) follows.sent
    · exact absurd (stopped.symm.trans free) (by decide)
    · rw [follows.ends, unended]
      simp [endings, stopped]
  · have same : session.run.stop now = session.run :=
      if_pos (by simpa [imp_iff_not_or] using open_)
    rw [same]
    exact follows

/-- Clearing the queue is followed. -/
theorem Follows.clear (follows : session.Follows ids base news history) (now : Int) :
    (session.clear now).2.Follows ids base news (history.apply .clear) := by
  have queue : (history.apply .clear).queue = session.queue.clear.2 :=
    congrArg (fun queue : Queue => queue.clear.2) follows.tracks.queue
  have cleared : Follows ids base news (history.apply .clear)
      { session with queue := session.queue.clear.2 } :=
    follows.congr ⟨queue, follows.tracks.results⟩ (follows.consistent.apply .clear) rfl rfl
      List.prefix_rfl
  rw [clear_eq]
  by_cases empty : session.queue.pending = []
  · rw [if_pos empty]
    exact cleared
  · rw [if_neg empty]
    exact cleared.stop now

/-- Steps that queue no program are followed. -/
theorem Follows.foldl (follows : session.Follows ids base news history) {steps : List Step}
    (kept : session.KeepsProgram steps) :
    ∃ more later, (steps.foldl step session).Follows ids base (news ++ more) later := by
  refine keep_foldl
    (motive := fun next => ∃ more later, next.Follows ids base (news ++ more) later) ?_ ?_ kept
    ⟨[], history, by rwa [List.append_nil]⟩
  · rintro middle next calls change ⟨more, later, follows⟩
    obtain ⟨added, followed⟩ := follows.change change
    rw [List.append_assoc] at followed
    exact ⟨_, _, followed⟩
  · rintro middle now ⟨more, later, follows⟩
    exact ⟨more, _, follows.clear now⟩

end Session

end GcodeSender
