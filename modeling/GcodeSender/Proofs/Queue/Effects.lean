import GcodeSender.Queue

/-!
# Effects of the queue's operations

What each operation does to the commands that a queue holds: those that wait, the one on its
way, and the number of the next one. Notes and reports leave all three alone. A queue either
refuses lines or takes all of them in under successive numbers (`Accepts`), and an answer
either takes the command on its way out of the queue or leaves it there (`Settles`).
-/
namespace GcodeSender

/-- The command that was sent, without its time. -/
def SentCommand.command (sent : SentCommand) : PendingCommand := ⟨sent.id, sent.text⟩

/-- The line on which a command is written. -/
def SentCommand.line (sent : SentCommand) : Bytes := sent.text ++ [Byte.newline]

/-- The command that a result is about. -/
def CommandResult.command (result : CommandResult) : PendingCommand := ⟨result.id, result.text⟩

namespace Queue

variable {queue next : Queue}

/-- The command on its way, or none. -/
def onTheWay (queue : Queue) : List PendingCommand :=
  queue.inFlight.toList.map SentCommand.command

/-- Lines as commands under successive numbers. -/
def numbered (first : Nat) : List Bytes → List PendingCommand
  | [] => []
  | line :: others => ⟨first, line⟩ :: numbered (first + 1) others

/-- Lines under successive numbers have these numbers. -/
theorem map_id_numbered (first : Nat) (lines : List Bytes) :
    (numbered first lines).map PendingCommand.id = List.range' first lines.length := by
  induction lines generalizing first with
  | nil => rfl
  | cons line others ih => rw [numbered, List.map_cons, ih, List.length_cons, List.range'_succ]

/-- There are as many numbered commands as lines. -/
theorem length_numbered (first : Nat) (lines : List Bytes) :
    (numbered first lines).length = lines.length := by
  rw [← List.length_map PendingCommand.id, map_id_numbered, List.length_range']

/-! ## Notes and reports -/

@[simp] theorem pending_report (line : Report) : (queue.report line).pending = queue.pending := rfl

@[simp] theorem inFlight_report (line : Report) :
    (queue.report line).inFlight = queue.inFlight := rfl

@[simp] theorem nextId_report (line : Report) : (queue.report line).nextId = queue.nextId := rfl

@[simp] theorem pending_reportIfVerbose (text : Bytes) :
    (queue.reportIfVerbose text).pending = queue.pending := by
  unfold reportIfVerbose
  split <;> rfl

@[simp] theorem inFlight_reportIfVerbose (text : Bytes) :
    (queue.reportIfVerbose text).inFlight = queue.inFlight := by
  unfold reportIfVerbose
  split <;> rfl

@[simp] theorem nextId_reportIfVerbose (text : Bytes) :
    (queue.reportIfVerbose text).nextId = queue.nextId := by
  unfold reportIfVerbose
  split <;> rfl

@[simp] theorem pending_noteActivity : queue.noteActivity.pending = queue.pending := rfl

@[simp] theorem inFlight_noteActivity : queue.noteActivity.inFlight = queue.inFlight := rfl

@[simp] theorem nextId_noteActivity : queue.noteActivity.nextId = queue.nextId := rfl

@[simp] theorem pending_refuse (fault : QueueFault) :
    (queue.refuse fault).pending = queue.pending := rfl

@[simp] theorem inFlight_refuse (fault : QueueFault) :
    (queue.refuse fault).inFlight = queue.inFlight := rfl

@[simp] theorem nextId_refuse (fault : QueueFault) :
    (queue.refuse fault).nextId = queue.nextId := rfl

@[simp] theorem pending_afterAlarm (response : Response) :
    (queue.afterAlarm response).pending = queue.pending := by
  cases response <;> rfl

@[simp] theorem inFlight_afterAlarm (response : Response) :
    (queue.afterAlarm response).inFlight = queue.inFlight := by
  cases response <;> rfl

@[simp] theorem nextId_afterAlarm (response : Response) :
    (queue.afterAlarm response).nextId = queue.nextId := by
  cases response <;> rfl

/-! ## Taking commands in -/

/-- The queue took lines in at its end and changed nothing else that it holds. -/
structure Accepts (queue : Queue) (lines : List Bytes) (next : Queue) : Prop where
  /-- The lines wait behind all others. -/
  pending : next.pending = queue.pending ++ numbered queue.nextId lines
  /-- What is on its way stays there. -/
  inFlight : next.inFlight = queue.inFlight
  /-- Each line used up one number. -/
  nextId : next.nextId = queue.nextId + lines.length

/-- A queue that holds the same commands takes no lines in. -/
theorem accepts_nil (pending : next.pending = queue.pending)
    (inFlight : next.inFlight = queue.inFlight) (nextId : next.nextId = queue.nextId) :
    queue.Accepts [] next :=
  ⟨pending.trans (List.append_nil _).symm, inFlight, nextId⟩

/-- What is on its way stays there when lines are taken in. -/
theorem Accepts.onTheWay {lines : List Bytes} (accepts : queue.Accepts lines next) :
    next.onTheWay = queue.onTheWay :=
  congrArg (·.toList.map SentCommand.command) accepts.inFlight

/-- The queue with lines taken in behind all others. -/
def taking (queue : Queue) (lines : List Bytes) : Queue :=
  { queue with
    pending := queue.pending ++ numbered queue.nextId lines
    nextId := queue.nextId + lines.length
    stats := { queue.stats with queued := queue.stats.queued + lines.length } }

/-- No lines change nothing. -/
theorem taking_nil (queue : Queue) : queue.taking [] = queue := by
  rw [taking, numbered, List.append_nil]
  rfl

/-- The first line is taken in before the others. -/
theorem taking_cons (queue : Queue) (line : Bytes) (others : List Bytes) :
    queue.taking (line :: others) = (queue.append line).taking others := by
  have waiting : queue.pending ++ numbered queue.nextId (line :: others) =
      (queue.append line).pending ++ numbered (queue.append line).nextId others := by
    rw [numbered, append, List.append_assoc, List.singleton_append]
  have ids : queue.nextId + (line :: others).length = queue.nextId + 1 + others.length := by
    rw [List.length_cons]
    omega
  have count : queue.stats.queued + (line :: others).length =
      queue.stats.queued + 1 + others.length := by
    rw [List.length_cons]
    omega
  rw [taking, waiting, ids, count]
  rfl

/-- Lines appended one after the other are taken in. -/
theorem foldl_append_eq_taking (queue : Queue) (lines : List Bytes) :
    lines.foldl append queue = queue.taking lines := by
  induction lines generalizing queue with
  | nil => exact (taking_nil queue).symm
  | cons line others ih => rw [List.foldl_cons, ih, taking_cons]

/-- Appending lines one after the other takes them in. -/
theorem accepts_foldl_append (queue : Queue) (lines : List Bytes) :
    queue.Accepts lines (lines.foldl append queue) := by
  rw [foldl_append_eq_taking]
  exact ⟨rfl, rfl, rfl⟩

/-- A command is refused, or taken in under the next number without the blanks at its ends. -/
theorem enqueue_cases (queue : Queue) (text : Bytes) :
    (∃ fault, queue.enqueue text = (none, queue.refuse fault)) ∨
      ∃ next, queue.enqueue text = (some queue.nextId, next) ∧
        queue.Accepts [trim text] next := by
  unfold enqueue
  dsimp only
  split
  · exact Or.inl ⟨_, rfl⟩
  · split
    · exact Or.inl ⟨_, rfl⟩
    · refine Or.inr ⟨_, rfl, ?_, ?_, ?_⟩
      · simp [append, numbered]
      · simp [append]
      · simp [append]

/-- The numbers of a batch stand in the commands it makes. -/
theorem zipWith_range_eq_numbered (first : Nat) (lines : List Bytes) :
    List.zipWith PendingCommand.mk ((List.range lines.length).map (first + ·)) lines =
      numbered first lines := by
  induction lines generalizing first with
  | nil => rfl
  | cons line others ih =>
    have shift : ((first + ·) ∘ Nat.succ) = (first + 1 + ·) := by
      funext place
      show first + (place + 1) = first + 1 + place
      omega
    rw [List.length_cons, List.range_succ_eq_map, List.map_cons, List.map_map, shift,
      List.zipWith_cons_cons, ih]
    rfl

/-- A batch is refused as a whole, or all of its lines are taken in. -/
theorem enqueueBatch_cases (queue : Queue) (texts : List Bytes) :
    (∃ fault, queue.enqueueBatch texts = (none, queue.refuse fault)) ∨
      ∃ next, queue.enqueueBatch texts =
          (some ((List.range (texts.map trim).length).map (queue.nextId + ·)), next) ∧
        queue.Accepts (texts.map trim) next := by
  unfold enqueueBatch
  dsimp only
  split
  · exact Or.inl ⟨_, rfl⟩
  · split
    · exact Or.inl ⟨_, rfl⟩
    · have taken := accepts_foldl_append queue (texts.map trim)
      exact Or.inr ⟨_, rfl, taken.pending, taken.inFlight, taken.nextId⟩

/-! ## Taking commands out -/

/-- Nothing is taken out, or the first command that waits, while none is on its way. -/
theorem dequeue_cases (queue : Queue) (now : Int) :
    queue.dequeue now = (none, queue) ∨
      ∃ sent next, queue.dequeue now = (some sent, next) ∧ queue.inFlight = none ∧
        queue.pending = sent.command :: next.pending ∧ next.inFlight = some sent ∧
          next.nextId = queue.nextId := by
  unfold dequeue
  split
  · next first others waiting =>
    split
    · next free =>
      have idle : queue.inFlight = none := by
        simp only [canSend, Bool.and_eq_true, Option.isNone_iff_eq_none] at free
        exact free.1.2
      exact Or.inr ⟨_, _, rfl, idle, waiting, rfl, rfl⟩
    · exact Or.inl rfl
  · exact Or.inl rfl

/-- What is taken out was the first to wait and is on its way, where nothing was before. -/
theorem taken_of_dequeue {now : Int} {sent : SentCommand}
    (taken : queue.dequeue now = (some sent, next)) :
    queue.onTheWay = [] ∧ queue.pending = sent.command :: next.pending ∧
      next.onTheWay = [sent.command] ∧ next.nextId = queue.nextId := by
  rcases queue.dequeue_cases now with held | ⟨given, others, made, idle, first, way, ids⟩
  · rw [taken] at held
    cases held
  · obtain ⟨same, rfl⟩ := Prod.mk.inj (taken.symm.trans made)
    cases same
    exact ⟨by simp [onTheWay, idle], first, by simp [onTheWay, way], ids⟩

/-! ## Ending the command on its way -/

/-- An answer ends the command on its way, with a result about it, or leaves it on its way. -/
structure Settles (queue : Queue) (answer : Option CommandResult × Queue) : Prop where
  /-- The commands that wait stay. -/
  pending : answer.2.pending = queue.pending
  /-- No number is used up. -/
  nextId : answer.2.nextId = queue.nextId
  /-- The command that was on its way has its result or is still on its way. -/
  command : answer.1.toList.map CommandResult.command ++ answer.2.onTheWay = queue.onTheWay

/-- Nothing is settled by an answer that gives no result and keeps the queue. -/
theorem settles_self (queue : Queue) : queue.Settles (none, queue) := ⟨rfl, rfl, rfl⟩

/-- What is noted about a settled queue settles nothing more. -/
theorem Settles.mono {answer : Option CommandResult × Queue} (settled : queue.Settles answer)
    (pending : next.pending = answer.2.pending) (inFlight : next.inFlight = answer.2.inFlight)
    (nextId : next.nextId = answer.2.nextId) : queue.Settles (answer.1, next) := by
  refine ⟨pending.trans settled.pending, nextId.trans settled.nextId, ?_⟩
  rw [← settled.command]
  simp only [onTheWay, inFlight]

/-- Ending the command on its way settles it. -/
theorem settles_finish (queue : Queue) (now : Int) (outcome : Outcome) :
    queue.Settles (queue.finish now outcome) := by
  unfold finish
  split
  · exact settles_self queue
  · next sent waiting =>
    have gone : queue.onTheWay = [sent.command] := by simp [onTheWay, waiting]
    dsimp only
    split
    · refine ⟨by simp, by simp, ?_⟩
      rw [gone]
      simp [onTheWay, CommandResult.command, SentCommand.command]
    · refine ⟨by simp, by simp, ?_⟩
      rw [gone]
      simp [onTheWay, CommandResult.command, SentCommand.command]

/-- A command ends when a response says something about it while it is on its way. -/
theorem respond_fst (now : Int) (response : Response) :
    (queue.respond now response).1 = queue.inFlight.bind fun sent =>
      (outcomeOf response).map (⟨sent.id, sent.text, ·, now - sent.sentAt⟩) := by
  unfold respond
  cases outcomeOf response with
  | none => cases queue.inFlight <;> rfl
  | some outcome =>
    show (queue.finish now outcome).1 = _
    unfold finish
    cases queue.inFlight <;> rfl

/-- A response settles the command on its way or leaves it there. -/
theorem settles_respond (queue : Queue) (now : Int) (response : Response) :
    queue.Settles (queue.respond now response) := by
  unfold respond
  cases outcomeOf response with
  | none =>
    exact (settles_self queue).mono (pending_afterAlarm response) (inFlight_afterAlarm response)
      (nextId_afterAlarm response)
  | some outcome =>
    exact (settles_finish queue now outcome).mono (pending_afterAlarm response)
      (inFlight_afterAlarm response) (nextId_afterAlarm response)

/-- A failed sending settles the command on its way. -/
theorem settles_failSend (queue : Queue) (now : Int) (reason : Bytes) :
    queue.Settles (queue.failSend now reason) := by
  unfold failSend
  split
  · exact settles_self queue
  · exact (settles_finish queue now (.notSent reason)).mono rfl rfl rfl

/-- A look at the clock settles the command on its way or leaves it there. -/
theorem settles_expire (queue : Queue) (checked now : Int) :
    queue.Settles (queue.expire checked now) := by
  unfold expire
  split
  · exact settles_self queue
  · split
    · exact settles_self queue
    · exact (settles_finish queue now _).mono rfl rfl rfl

end Queue

end GcodeSender
