import GcodeSender.Proofs.Queue.Batches

/-!
# The books of a queue

A queue counts what it takes in, sends, ends and drops, and numbers what it takes in. Its counts
are those of its history (`History.Tallied`): whatever a call adds to the record, it adds to one
count. As the record accounts for each command once, the counts balance. The commands that wait
stand in line under successive numbers, behind the one on its way and up to the last number given,
and there is room for all of them (`Queue.InLine`). The main statement says this of a queue after
any calls, together with the activity that it has noted.
-/
namespace GcodeSender

/-- A result leaves its command in a state. -/
def CommandResult.endsAs (result : CommandResult) (state : Bytes) : Bool :=
  result.outcome.stateName == state

/-! ## Counting outcomes -/

namespace QueueStats

variable {stats : QueueStats} {results : List CommandResult}

/-- The counts of ended commands are those of some results. -/
structure Tells (stats : QueueStats) (results : List CommandResult) : Prop where
  /-- The commands carried out. -/
  completed : stats.completed = results.countP (·.endsAs (ascii "Acked"))
  /-- The commands that failed. -/
  failed : stats.failed = results.countP (·.endsAs (ascii "Failed"))
  /-- The commands that were not answered in time. -/
  timedOut : stats.timedOut = results.countP (·.endsAs (ascii "TimedOut"))

/-- An outcome is counted once, under the state that it leaves its command in. -/
theorem countOutcome_ended (stats : QueueStats) (result : CommandResult) :
    let counted := Queue.countOutcome stats result.outcome result.latency
    counted.completed = stats.completed + (if result.endsAs (ascii "Acked") then 1 else 0) ∧
      counted.failed = stats.failed + (if result.endsAs (ascii "Failed") then 1 else 0) ∧
      counted.timedOut = stats.timedOut + (if result.endsAs (ascii "TimedOut") then 1 else 0) := by
  obtain ⟨id, text, outcome, latency⟩ := result
  cases outcome <;> exact ⟨rfl, rfl, rfl⟩

/-- An outcome is counted among the ended commands only. -/
theorem countOutcome_others (stats : QueueStats) (outcome : Outcome) (latency : Int) :
    (Queue.countOutcome stats outcome latency).queued = stats.queued ∧
      (Queue.countOutcome stats outcome latency).sent = stats.sent ∧
      (Queue.countOutcome stats outcome latency).cleared = stats.cleared := by
  cases outcome <;> exact ⟨rfl, rfl, rfl⟩

/-- One more result is counted. -/
theorem Tells.countOutcome (tells : stats.Tells results) (result : CommandResult) :
    (Queue.countOutcome stats result.outcome result.latency).Tells (results ++ [result]) := by
  obtain ⟨completed, failed, timedOut⟩ := stats.countOutcome_ended result
  refine ⟨?_, ?_, ?_⟩
  · rw [completed, tells.completed, List.countP_append, List.countP_singleton]
  · rw [failed, tells.failed, List.countP_append, List.countP_singleton]
  · rw [timedOut, tells.timedOut, List.countP_append, List.countP_singleton]

/-- Every result is one of a command carried out, of one that failed or of one that was not
answered in time. -/
theorem length_eq_countP_endsAs (results : List CommandResult) :
    results.length = results.countP (·.endsAs (ascii "Acked")) +
      results.countP (·.endsAs (ascii "Failed")) +
        results.countP (·.endsAs (ascii "TimedOut")) := by
  induction results with
  | nil => rfl
  | cons result others ih =>
    have once : (if result.endsAs (ascii "Acked") then 1 else 0) +
        (if result.endsAs (ascii "Failed") then 1 else 0) +
          (if result.endsAs (ascii "TimedOut") then 1 else 0) = 1 := by
      obtain ⟨id, text, outcome, latency⟩ := result
      cases outcome <;> rfl
    rw [List.length_cons, List.countP_cons, List.countP_cons, List.countP_cons]
    omega

end QueueStats

namespace Queue

variable {queue next : Queue}

/-! ## What each operation counts -/

@[simp] theorem stats_report (line : Report) : (queue.report line).stats = queue.stats := rfl

@[simp] theorem stats_reportIfVerbose (text : Bytes) :
    (queue.reportIfVerbose text).stats = queue.stats := by
  unfold reportIfVerbose
  split <;> rfl

@[simp] theorem stats_afterAlarm (response : Response) :
    (queue.afterAlarm response).stats = queue.stats := by
  cases response <;> rfl

/-- What is taken out is counted as sent. -/
theorem stats_dequeue (queue : Queue) (now : Int) :
    (queue.dequeue now).2.stats =
      { queue.stats with sent := queue.stats.sent + (queue.dequeue now).1.toList.length } := by
  unfold dequeue
  split
  · split <;> rfl
  · rfl

/-- The result of an answer is counted, and nothing else is. -/
def Counts (queue : Queue) (answer : Option CommandResult × Queue) : Prop :=
  answer.2.stats = answer.1.elim queue.stats fun result =>
    countOutcome queue.stats result.outcome result.latency

theorem counts_finish (queue : Queue) (now : Int) (outcome : Outcome) :
    queue.Counts (queue.finish now outcome) := by
  unfold Counts finish
  split
  · rfl
  · dsimp only
    split <;> simp

theorem counts_respond (queue : Queue) (now : Int) (response : Response) :
    queue.Counts (queue.respond now response) := by
  unfold Counts respond
  cases outcomeOf response with
  | none => exact stats_afterAlarm response
  | some outcome =>
    exact (stats_afterAlarm response).trans (counts_finish queue now outcome)

theorem counts_failSend (queue : Queue) (now : Int) (reason : Bytes) :
    queue.Counts (queue.failSend now reason) := by
  unfold failSend
  split
  · rfl
  · exact counts_finish queue now (.notSent reason)

theorem counts_expire (queue : Queue) (checked now : Int) :
    queue.Counts (queue.expire checked now) := by
  unfold expire
  split
  · rfl
  · split
    · rfl
    · exact counts_finish queue now (.timedOut queue.settings.timeLimit)

/-! ## Commands that fit -/

/-- A command is refused, or it fits and is taken in. -/
theorem enqueue_refused_or_taken (queue : Queue) (text : Bytes) :
    (∃ fault, queue.enqueue text = (none, queue.refuse fault)) ∨
      queue.Fits [text] ∧ ∃ reports, queue.enqueue text = (some queue.nextId,
        { (queue.taking [trim text]).noteActivity with reports := reports }) := by
  by_cases fits : queue.Fits [text]
  · obtain ⟨filled, room, -, -⟩ := fits.cons
    exact .inr ⟨fits, exists_enqueue_eq filled room⟩
  · left
    unfold enqueue
    dsimp only
    split
    · exact ⟨_, rfl⟩
    · next filled =>
      split
      · exact ⟨_, rfl⟩
      · next free =>
        refine absurd ⟨fun other member => ?_, ?_⟩ fits
        · rw [List.mem_singleton.mp member]
          exact fun empty => filled (List.isEmpty_iff.mpr empty)
        · rw [List.length_singleton]
          omega

/-! ## Standing in line -/

/-- The commands that wait stand in line. -/
structure InLine (queue : Queue) : Prop where
  /-- There is room for all of them. -/
  room : queue.pending.length ≤ queue.settings.capacity
  /-- They bear successive numbers up to the last one given, and the command on its way bears a
  number before the first of them. -/
  numbers : ∃ first, queue.pending.map PendingCommand.id = List.range' first queue.pending.length ∧
    first + queue.pending.length = queue.nextId ∧ ∀ sent ∈ queue.inFlight, sent.id < first

/-- The line depends on the commands, the next number and the room only. -/
theorem InLine.congr (line : queue.InLine) (pending : next.pending = queue.pending)
    (inFlight : next.inFlight = queue.inFlight) (nextId : next.nextId = queue.nextId)
    (settings : next.settings = queue.settings) : next.InLine := by
  refine ⟨?_, ?_⟩
  · rw [pending, settings]
    exact line.room
  · rw [pending, nextId, inFlight]
    exact line.numbers

/-- Nobody stands in the line of a new queue. -/
theorem inLine_create (settings : QueueSettings) : (create settings).InLine := by
  unfold create
  split <;> exact ⟨Nat.zero_le _, 1, rfl, rfl, by simp [refuse, report]⟩

/-- Commands that fit join the line at its end. -/
theorem InLine.taking (line : queue.InLine) {texts : List Bytes} (fits : queue.Fits texts) :
    (queue.taking (texts.map trim)).InLine := by
  obtain ⟨first, ids, last, before⟩ := line.numbers
  have length : (queue.taking (texts.map trim)).pending.length =
      queue.pending.length + texts.length := by
    show (queue.pending ++ numbered queue.nextId (texts.map trim)).length = _
    rw [List.length_append, length_numbered, List.length_map]
  refine ⟨length ▸ fits.2, first, ?_, ?_, before⟩
  · rw [length]
    show (queue.pending ++ numbered queue.nextId (texts.map trim)).map PendingCommand.id = _
    rw [List.map_append, ids, map_id_numbered, List.length_map, ← last, List.range'_append_1]
  · rw [length, ← Nat.add_assoc, last]
    show queue.nextId + texts.length = queue.nextId + (texts.map trim).length
    rw [List.length_map]

/-- The first in line leaves it when it is sent. -/
theorem InLine.send (line : queue.InLine) {sent : SentCommand}
    (first : queue.pending = sent.command :: next.pending) (inFlight : next.inFlight = some sent)
    (nextId : next.nextId = queue.nextId) (settings : next.settings = queue.settings) :
    next.InLine := by
  obtain ⟨start, ids, last, before⟩ := line.numbers
  have room := line.room
  rw [first, List.length_cons] at room last
  rw [first, List.map_cons, List.length_cons, List.range'_succ] at ids
  obtain ⟨own, others⟩ := List.cons.inj ids
  refine ⟨by rw [settings]; omega, start + 1, others, by omega, ?_⟩
  intro other way
  rw [inFlight, Option.mem_some_iff] at way
  have number : other.id = start := way ▸ own
  omega

/-- An answer moves nobody in the line. -/
theorem InLine.answer (line : queue.InLine) {answer : Option CommandResult × Queue}
    (settled : queue.Settles answer) (settings : answer.2.settings = queue.settings) :
    answer.2.InLine := by
  obtain ⟨first, ids, last, before⟩ := line.numbers
  refine ⟨?_, first, ?_, ?_, ?_⟩
  · rw [settled.pending, settings]
    exact line.room
  · rw [settled.pending, ids]
  · rw [settled.pending, settled.nextId, last]
  · intro sent way
    have still : sent.command ∈ queue.onTheWay := by
      rw [← settled.command]
      refine List.mem_append_right _ ?_
      rw [onTheWay, Option.mem_def.mp way]
      exact List.mem_singleton.mpr rfl
    obtain ⟨same, member, command⟩ := List.mem_map.mp still
    have number : same.id = sent.id := congrArg PendingCommand.id command
    exact number ▸ before same (Option.mem_toList.mp member)

/-! ## The settings -/

@[simp] theorem settings_reportIfVerbose (text : Bytes) :
    (queue.reportIfVerbose text).settings = queue.settings := by
  unfold reportIfVerbose
  split <;> rfl

@[simp] theorem settings_afterAlarm (response : Response) :
    (queue.afterAlarm response).settings = queue.settings := by
  cases response <;> rfl

@[simp] theorem settings_dequeue (now : Int) :
    (queue.dequeue now).2.settings = queue.settings := by
  unfold dequeue
  split
  · split <;> rfl
  · rfl

@[simp] theorem settings_finish (now : Int) (outcome : Outcome) :
    (queue.finish now outcome).2.settings = queue.settings := by
  unfold finish
  split
  · rfl
  · dsimp only
    split
    · exact settings_reportIfVerbose _
    · exact settings_reportIfVerbose _

@[simp] theorem settings_respond (now : Int) (response : Response) :
    (queue.respond now response).2.settings = queue.settings := by
  unfold respond
  cases outcomeOf response with
  | none => exact settings_afterAlarm response
  | some outcome => exact (settings_afterAlarm response).trans (settings_finish now outcome)

@[simp] theorem settings_failSend (now : Int) (reason : Bytes) :
    (queue.failSend now reason).2.settings = queue.settings := by
  unfold failSend
  split
  · rfl
  · exact settings_finish now _

@[simp] theorem settings_expire (checked now : Int) :
    (queue.expire checked now).2.settings = queue.settings := by
  unfold expire
  split
  · rfl
  · split
    · rfl
    · exact settings_finish now _

namespace History

variable {history : History}

/-- The counts of a queue are those of its history. -/
structure Tallied (history : History) : Prop where
  /-- Each command taken in used up one number, from one on. -/
  ids : history.queue.nextId = history.accepted.length + 1
  /-- What was taken in is counted. -/
  queued : history.queue.stats.queued = history.accepted.length
  /-- What was sent is counted. -/
  sent : history.queue.stats.sent = history.sent.length
  /-- The results are counted by how they leave their commands. -/
  ended : history.queue.stats.Tells history.results
  /-- What was dropped is counted. -/
  cleared : history.queue.stats.cleared = history.dropped.length

/-- A queue with the same counts and the same next number is tallied as before. -/
theorem Tallied.hold (tallied : history.Tallied) {next : Queue}
    (stats : next.stats = history.queue.stats) (nextId : next.nextId = history.queue.nextId) :
    Tallied { history with queue := next } :=
  ⟨nextId.trans tallied.ids, stats ▸ tallied.queued, stats ▸ tallied.sent,
    stats ▸ tallied.ended, stats ▸ tallied.cleared⟩

/-- Lines taken in are counted. -/
theorem Tallied.accept (tallied : history.Tallied) (lines : List Bytes) {next : Queue}
    (stats : next.stats = (history.queue.taking lines).stats)
    (nextId : next.nextId = (history.queue.taking lines).nextId) :
    Tallied { history with
      queue := next
      accepted := history.accepted ++ numbered history.queue.nextId lines } := by
  have length := length_numbered history.queue.nextId lines
  refine ⟨?_, ?_, ?_, ?_, ?_⟩
  · rw [nextId, List.length_append, length]
    show history.queue.nextId + lines.length = _
    rw [tallied.ids]
    omega
  · rw [stats, List.length_append, length, ← tallied.queued]
    rfl
  · rw [stats, ← tallied.sent]
    rfl
  · rw [stats]
    exact ⟨tallied.ended.completed, tallied.ended.failed, tallied.ended.timedOut⟩
  · rw [stats, ← tallied.cleared]
    rfl

/-- The result of an answer is counted. -/
theorem Tallied.answer (tallied : history.Tallied) {answer : Option CommandResult × Queue}
    (counts : history.queue.Counts answer) (nextId : answer.2.nextId = history.queue.nextId) :
    (history.answered answer).Tallied := by
  obtain ⟨result, next⟩ := answer
  cases result with
  | none => simpa [answered] using tallied.hold counts nextId
  | some result =>
    obtain ⟨queued, sent, cleared⟩ :=
      history.queue.stats.countOutcome_others result.outcome result.latency
    have counts : next.stats = countOutcome history.queue.stats result.outcome result.latency :=
      counts
    refine ⟨nextId.trans tallied.ids, ?_, ?_, ?_, ?_⟩
    · exact (congrArg QueueStats.queued counts).trans (queued.trans tallied.queued)
    · exact (congrArg QueueStats.sent counts).trans (sent.trans tallied.sent)
    · show next.stats.Tells (history.results ++ [result])
      rw [counts]
      exact tallied.ended.countOutcome result
    · exact (congrArg QueueStats.cleared counts).trans (cleared.trans tallied.cleared)

/-- A new queue has counted nothing. -/
theorem tallied_create (settings : QueueSettings) : Tallied { queue := create settings } := by
  unfold create
  split <;> exact ⟨rfl, rfl, rfl, ⟨rfl, rfl, rfl⟩, rfl⟩

/-! ## After any calls -/

/-- A queue keeps its settings. -/
theorem settings_apply (history : History) (call : Call) :
    (history.apply call).queue.settings = history.queue.settings := by
  cases call with
  | enqueue text =>
    rcases history.queue.enqueue_refused_or_taken text with ⟨_, refused⟩ | ⟨_, _, taken⟩
    · simp only [apply, refused]
      rfl
    · simp only [apply, taken]
      rfl
  | enqueueBatch texts =>
    by_cases fits : history.queue.Fits texts
    · simp only [apply, fits.enqueueBatch_eq]
      rfl
    · simp only [apply, enqueueBatch_of_not_fits fits]
      rfl
  | dequeue now => exact settings_dequeue now
  | respond now response => exact settings_respond now response
  | failSend now reason => exact settings_failSend now reason
  | expire checked now => exact settings_expire checked now
  | pause => rfl
  | resume => rfl
  | pauseIfPending =>
    show history.queue.pauseIfPending.2.settings = _
    unfold pauseIfPending
    split <;> rfl
  | clear => rfl

/-- Every call leaves the commands that wait in line. -/
theorem inLine_apply (line : history.queue.InLine) (call : Call) :
    (history.apply call).queue.InLine := by
  have settings := history.settings_apply call
  cases call with
  | enqueue text =>
    rcases history.queue.enqueue_refused_or_taken text with ⟨_, refused⟩ | ⟨fits, _, taken⟩
    · simp only [apply, refused]
      exact line.congr rfl rfl rfl rfl
    · simp only [apply, taken]
      exact (line.taking fits).congr rfl rfl rfl rfl
  | enqueueBatch texts =>
    by_cases fits : history.queue.Fits texts
    · simp only [apply, fits.enqueueBatch_eq]
      exact (line.taking fits).congr rfl rfl rfl rfl
    · simp only [apply, enqueueBatch_of_not_fits fits]
      exact line.congr rfl rfl rfl rfl
  | dequeue now =>
    rcases history.queue.dequeue_cases now with held | ⟨sent, next, taken, _, first, way, ids⟩
    · simpa only [apply, held] using line
    · simp only [apply, taken] at settings ⊢
      exact line.send first way ids settings
  | respond now response => exact line.answer (settles_respond _ now response) settings
  | failSend now reason => exact line.answer (settles_failSend _ now reason) settings
  | expire checked now => exact line.answer (settles_expire _ checked now) settings
  | pause => exact line.congr rfl rfl rfl rfl
  | resume => exact line.congr rfl rfl rfl rfl
  | pauseIfPending =>
    show history.queue.pauseIfPending.2.InLine
    unfold pauseIfPending
    split
    · exact line
    · exact line.congr rfl rfl rfl rfl
  | clear =>
    obtain ⟨first, _, last, before⟩ := line.numbers
    refine ⟨Nat.zero_le _, history.queue.nextId, rfl, rfl, fun sent way => ?_⟩
    have early := before sent way
    omega

/-- Every call is counted as it is recorded. -/
theorem Tallied.apply (tallied : history.Tallied) (call : Call) :
    (history.apply call).Tallied := by
  cases call with
  | enqueue text =>
    rcases history.queue.enqueue_refused_or_taken text with ⟨_, refused⟩ | ⟨_, _, taken⟩
    · simp only [History.apply, refused, Option.toList_none, List.map_nil, List.append_nil]
      exact tallied.hold rfl rfl
    · simp only [History.apply, taken]
      exact tallied.accept [trim text] rfl rfl
  | enqueueBatch texts =>
    by_cases fits : history.queue.Fits texts
    · have written := zipWith_range_eq_numbered history.queue.nextId (texts.map trim)
      rw [List.length_map, ← List.range'_eq_map_range] at written
      simp only [History.apply, fits.enqueueBatch_eq, Option.getD_some, written]
      exact tallied.accept (texts.map trim) rfl rfl
    · simp only [History.apply, enqueueBatch_of_not_fits fits, Option.getD_none,
        List.zipWith_nil_left, List.append_nil]
      exact tallied.hold rfl rfl
  | dequeue now =>
    have stats := history.queue.stats_dequeue now
    have nextId : (history.queue.dequeue now).2.nextId = history.queue.nextId := by
      rcases history.queue.dequeue_cases now with held | ⟨sent, next, taken, _, _, _, ids⟩
      · rw [held]
      · rw [taken, ids]
    refine ⟨nextId.trans tallied.ids, ?_, ?_, ?_, ?_⟩
    · exact (congrArg QueueStats.queued stats).trans tallied.queued
    · refine (congrArg QueueStats.sent stats).trans ?_
      show _ = (history.sent ++ (history.queue.dequeue now).1.toList).length
      rw [List.length_append, ← tallied.sent]
    · show (history.queue.dequeue now).2.stats.Tells history.results
      rw [stats]
      exact ⟨tallied.ended.completed, tallied.ended.failed, tallied.ended.timedOut⟩
    · exact (congrArg QueueStats.cleared stats).trans tallied.cleared
  | respond now response =>
    exact tallied.answer (counts_respond _ now response) (settles_respond _ now response).nextId
  | failSend now reason =>
    exact tallied.answer (counts_failSend _ now reason) (settles_failSend _ now reason).nextId
  | expire checked now =>
    exact tallied.answer (counts_expire _ checked now) (settles_expire _ checked now).nextId
  | pause => exact tallied.hold rfl rfl
  | resume => exact tallied.hold rfl rfl
  | pauseIfPending =>
    simp only [History.apply, pauseIfPending]
    split
    · exact tallied
    · exact tallied.hold rfl rfl
  | clear =>
    have ended : history.queue.stats.Tells history.results := tallied.ended
    refine ⟨tallied.ids, tallied.queued, tallied.sent,
      ⟨ended.completed, ended.failed, ended.timedOut⟩, ?_⟩
    show history.queue.stats.cleared + history.queue.pending.length =
      (history.dropped ++ history.queue.pending).length
    rw [List.length_append, tallied.cleared]

/-- After any calls of a new queue it has its settings, its commands stand in line, and its counts
are those of the history. -/
theorem booked_run (settings : QueueSettings) (calls : List Call) :
    (run settings calls).queue.settings = (create settings).settings ∧
      (run settings calls).queue.InLine ∧ (run settings calls).Tallied := by
  induction calls using List.reverseRecOn with
  | nil => exact ⟨rfl, inLine_create settings, tallied_create settings⟩
  | append_singleton calls call ih =>
    obtain ⟨kept, line, tallied⟩ := ih
    rw [run_append_singleton]
    exact ⟨(settings_apply _ call).trans kept, inLine_apply line call, tallied.apply call⟩

/-- The counts of a history that accounts for each command once balance. -/
theorem Tallied.balance (tallied : history.Tallied) (consistent : history.Consistent) :
    history.queue.stats.queued = history.queue.stats.sent + history.queue.stats.cleared +
        history.queue.pending.length ∧
      history.queue.stats.sent = history.queue.stats.completed + history.queue.stats.failed +
        history.queue.stats.timedOut + if history.queue.inFlight.isSome then 1 else 0 := by
  have kept := consistent.kept.length_eq
  have settled := congrArg List.length consistent.settled
  have results := QueueStats.length_eq_countP_endsAs history.results
  have way : history.queue.onTheWay.length = if history.queue.inFlight.isSome then 1 else 0 := by
    rw [onTheWay]
    cases history.queue.inFlight <;> rfl
  rw [List.length_append, List.length_append, List.length_map] at kept
  rw [List.length_append, List.length_map, List.length_map, way] at settled
  rw [← tallied.ended.completed, ← tallied.ended.failed, ← tallied.ended.timedOut] at results
  have queued := tallied.queued
  have sent := tallied.sent
  have cleared := tallied.cleared
  exact ⟨by omega, by omega⟩

/-- Whatever was called of a queue, its books balance. No more commands wait than there is room
for. They bear successive numbers up to the last one given, and the command on its way bears a
smaller one. Each number was given to one command taken in, and each of these was sent, was dropped
or waits; each one sent was carried out, failed, was not answered in time or is on its way. The
counts are those of what happened, and the activity that is noted is the one that the commands
call for, though a pause notes nothing. -/
theorem books_balance (settings : QueueSettings) (calls : List Call) :
    let history := run settings calls
    let queue := history.queue
    (queue.settings = (create settings).settings ∧
        queue.pending.length ≤ queue.settings.capacity ∧
        queue.free + queue.pending.length = queue.settings.capacity) ∧
      (∃ first, queue.pending.map PendingCommand.id = List.range' first queue.pending.length ∧
        first + queue.pending.length = queue.nextId ∧
        (∀ sent ∈ queue.inFlight, sent.id < first) ∧
        ∀ sent ∈ queue.inFlight, ∀ command ∈ queue.pending, sent.id < command.id) ∧
      queue.stats.queued = queue.nextId - 1 ∧ 1 ≤ queue.nextId ∧
      queue.stats.queued = queue.stats.sent + queue.stats.cleared + queue.pending.length ∧
      queue.stats.sent = queue.stats.completed + queue.stats.failed + queue.stats.timedOut +
        (if queue.inFlight.isSome then 1 else 0) ∧
      history.Tallied ∧
      (queue.activity = .waitingForAck ↔ queue.inFlight.isSome = true) ∧
      (queue.activity = .active ↔ queue.inFlight = none ∧ queue.pending ≠ []) ∧
      (queue.activity = .idle ↔ queue.inFlight = none ∧ queue.pending = []) := by
  intro history queue
  obtain ⟨kept, line, tallied⟩ := booked_run settings calls
  obtain ⟨placed, ended⟩ := tallied.balance (consistent_run settings calls)
  obtain ⟨first, ids, last, before⟩ := line.numbers
  have noted : queue.activity = queue.currentActivity := noted_run settings calls
  have numbered : queue.nextId = history.accepted.length + 1 := tallied.ids
  have queued : queue.stats.queued = history.accepted.length := tallied.queued
  refine ⟨⟨kept, line.room, Nat.sub_add_cancel line.room⟩, ⟨first, ids, last, before, ?_⟩,
    by omega, by omega, placed, ended, tallied, ?_⟩
  · intro sent way command waits
    have member : command.id ∈ List.range' first queue.pending.length :=
      ids ▸ List.mem_map_of_mem waits
    exact Nat.lt_of_lt_of_le (before sent way) (List.mem_range'_1.mp member).1
  · rw [noted, currentActivity]
    cases queue.inFlight <;> cases queue.pending <;> simp

end History

end Queue

end GcodeSender
