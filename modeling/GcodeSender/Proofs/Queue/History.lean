import Mathlib.Data.List.Induction
import Mathlib.Data.List.Nodup
import GcodeSender.Proofs.Queue.Effects

/-!
# Histories of a queue

A history is a queue together with the record of every call made of it: the commands it took
in, the ones it gave out for sending, the results it gave back and the commands it dropped.
The invariant that every call keeps (`History.Consistent`) says that the record and the queue
account for each command exactly once, that the commands sent are those with a result followed
by the one on its way, and that numbers only grow from what was sent to what waits. The main
statement follows for every sequence of calls: a command has one place, it is sent at most
once and in order, and nothing that was settled or dropped is sent later.
-/
namespace GcodeSender

namespace Queue

/-- A call of a queue. -/
inductive Call where
  /-- Take in a command. -/
  | enqueue (text : Bytes)
  /-- Take in several commands or none. -/
  | enqueueBatch (texts : List Bytes)
  /-- Take out the next command to send it. -/
  | dequeue (now : Int)
  /-- Take a response of the controller. -/
  | respond (now : Int) (response : Response)
  /-- End the command that could not be sent. -/
  | failSend (now : Int) (reason : Bytes)
  /-- End the command that was not answered in time when the clock was checked. -/
  | expire (checked now : Int)
  /-- Send nothing for now. -/
  | pause
  /-- Go on sending. -/
  | resume
  /-- Send nothing for now if commands wait. -/
  | pauseIfPending
  /-- Drop the commands that wait. -/
  | clear

/-- A queue and the record of its calls, the earliest first. -/
structure History where
  /-- The queue after the calls. -/
  queue : Queue
  /-- The commands taken in, with the numbers their callers were given. -/
  accepted : List PendingCommand := []
  /-- The commands given out for sending. -/
  sent : List SentCommand := []
  /-- The results given back. -/
  results : List CommandResult := []
  /-- The commands dropped before they were sent. -/
  dropped : List PendingCommand := []

/-- Where a command that was taken in can be. -/
inductive Place where
  /-- It waits. -/
  | pending
  /-- It is sent and not answered. -/
  | inFlight
  /-- It has a result. -/
  | finished
  /-- It was dropped. -/
  | dropped
deriving DecidableEq

namespace History

/-- The history with the result of one more answer. -/
def answered (history : History) (answer : Option CommandResult × Queue) : History :=
  { history with queue := answer.2, results := history.results ++ answer.1.toList }

/-- The history with one more call. -/
def apply (history : History) : Call → History
  | .enqueue text =>
    let (id, queue) := history.queue.enqueue text
    { history with
      queue := queue
      accepted := history.accepted ++ id.toList.map (PendingCommand.mk · (trim text)) }
  | .enqueueBatch texts =>
    let (ids, queue) := history.queue.enqueueBatch texts
    { history with
      queue := queue
      accepted :=
        history.accepted ++ List.zipWith PendingCommand.mk (ids.getD []) (texts.map trim) }
  | .dequeue now =>
    let (sent, queue) := history.queue.dequeue now
    { history with queue := queue, sent := history.sent ++ sent.toList }
  | .respond now response => history.answered (history.queue.respond now response)
  | .failSend now reason => history.answered (history.queue.failSend now reason)
  | .expire checked now => history.answered (history.queue.expire checked now)
  | .pause => { history with queue := history.queue.pause }
  | .resume => { history with queue := history.queue.resume }
  | .pauseIfPending => { history with queue := history.queue.pauseIfPending.2 }
  | .clear =>
    { history with
      queue := history.queue.clear.2
      dropped := history.dropped ++ history.queue.pending }

/-- The history of calls of a new queue. -/
def run (settings : QueueSettings) (calls : List Call) : History :=
  calls.foldl apply { queue := Queue.create settings }

/-- The commands in one place. -/
def contents (history : History) : Place → List PendingCommand
  | .pending => history.queue.pending
  | .inFlight => history.queue.onTheWay
  | .finished => history.results.map CommandResult.command
  | .dropped => history.dropped

/-- How often a number stands in a place. -/
def count (history : History) (place : Place) (id : Nat) : Nat :=
  ((history.contents place).map PendingCommand.id).count id

/-! ## The invariant -/

/-- The record and the queue agree. -/
structure Consistent (history : History) : Prop where
  /-- What was sent has its result, in the same order, or is on its way. -/
  settled : history.sent.map SentCommand.command =
    history.results.map CommandResult.command ++ history.queue.onTheWay
  /-- Each command taken in was sent, waits or was dropped. -/
  kept : List.Perm
    (history.sent.map SentCommand.command ++ history.queue.pending ++ history.dropped)
    history.accepted
  /-- Numbers are given in increasing order. -/
  increasing : (history.accepted.map PendingCommand.id).Pairwise (· < ·)
  /-- The next number was not given yet. -/
  fresh : ∀ command ∈ history.accepted, command.id < history.queue.nextId
  /-- Numbers grow from what was sent to what waits. -/
  ordered : ((history.sent.map SentCommand.command ++ history.queue.pending).map
    PendingCommand.id).Pairwise (· < ·)

/-- Successive numbers start with the first and end before the one after the last. -/
theorem id_of_mem_numbered {first : Nat} {lines : List Bytes} {command : PendingCommand}
    (member : command ∈ numbered first lines) :
    first ≤ command.id ∧ command.id < first + lines.length := by
  induction lines generalizing first with
  | nil => simp [numbered] at member
  | cons line others ih =>
    rw [numbered, List.mem_cons] at member
    rw [List.length_cons]
    rcases member with rfl | later
    · exact ⟨Nat.le_refl _, by simp only; omega⟩
    · have bounds := ih later
      omega

/-- Successive numbers increase. -/
theorem pairwise_numbered (first : Nat) (lines : List Bytes) :
    ((numbered first lines).map PendingCommand.id).Pairwise (· < ·) := by
  induction lines generalizing first with
  | nil => exact List.Pairwise.nil
  | cons line others ih =>
    rw [numbered, List.map_cons, List.pairwise_cons]
    refine ⟨?_, ih (first + 1)⟩
    intro id member
    obtain ⟨command, inside, rfl⟩ := List.mem_map.mp member
    exact (id_of_mem_numbered inside).1

/-- Increasing numbers below a bound go on with successive numbers from the bound. -/
theorem pairwise_append_numbered {commands : List PendingCommand} {first : Nat}
    (increasing : (commands.map PendingCommand.id).Pairwise (· < ·))
    (below : ∀ command ∈ commands, command.id < first) (lines : List Bytes) :
    ((commands ++ numbered first lines).map PendingCommand.id).Pairwise (· < ·) := by
  rw [List.map_append, List.pairwise_append]
  refine ⟨increasing, pairwise_numbered first lines, ?_⟩
  intro early old late new
  obtain ⟨before, inside, rfl⟩ := List.mem_map.mp old
  obtain ⟨after, numbered, rfl⟩ := List.mem_map.mp new
  exact Nat.lt_of_lt_of_le (below before inside) (id_of_mem_numbered numbered).1

/-! ## What each call keeps -/

variable {history : History}

/-- A command that was sent or waits was taken in. -/
theorem Consistent.mem_accepted (consistent : history.Consistent) {command : PendingCommand}
    (held : command ∈ history.sent.map SentCommand.command ++ history.queue.pending) :
    command ∈ history.accepted :=
  consistent.kept.subset (List.mem_append_left _ held)

/-- Taking lines in keeps the invariant. -/
theorem Consistent.accept (consistent : history.Consistent) {lines : List Bytes} {next : Queue}
    (taken : history.queue.Accepts lines next) :
    Consistent { history with
      queue := next
      accepted := history.accepted ++ numbered history.queue.nextId lines } := by
  have below : ∀ command ∈ history.sent.map SentCommand.command ++ history.queue.pending,
      command.id < history.queue.nextId :=
    fun command held => consistent.fresh command (consistent.mem_accepted held)
  refine ⟨?_, ?_, ?_, ?_, ?_⟩
  · rw [onTheWay, taken.inFlight]
    exact consistent.settled
  · rw [taken.pending, ← List.append_assoc, List.append_assoc _ _ history.dropped]
    refine List.Perm.trans (List.Perm.append_left _ List.perm_append_comm) ?_
    rw [← List.append_assoc]
    exact consistent.kept.append_right _
  · exact pairwise_append_numbered consistent.increasing consistent.fresh lines
  · intro command member
    rw [taken.nextId]
    rcases List.mem_append.mp member with old | new
    · exact Nat.lt_of_lt_of_le (consistent.fresh command old) (Nat.le_add_right _ _)
    · exact (id_of_mem_numbered new).2
  · rw [taken.pending, ← List.append_assoc]
    exact pairwise_append_numbered consistent.ordered below lines

/-- A queue that holds the same commands keeps the invariant. -/
theorem Consistent.hold (consistent : history.Consistent) {next : Queue}
    (pending : next.pending = history.queue.pending)
    (inFlight : next.inFlight = history.queue.inFlight)
    (nextId : next.nextId = history.queue.nextId) :
    Consistent { history with queue := next } := by
  refine ⟨?_, ?_, consistent.increasing, ?_, ?_⟩
  · simp only [onTheWay, inFlight]
    exact consistent.settled
  · simp only [pending]
    exact consistent.kept
  · simp only [nextId]
    exact consistent.fresh
  · simp only [pending]
    exact consistent.ordered

/-- Giving out the first command that waits keeps the invariant. -/
theorem Consistent.send (consistent : history.Consistent) {sent : SentCommand} {next : Queue}
    (idle : history.queue.inFlight = none)
    (first : history.queue.pending = sent.command :: next.pending)
    (inFlight : next.inFlight = some sent) (nextId : next.nextId = history.queue.nextId) :
    Consistent { history with queue := next, sent := history.sent ++ [sent] } := by
  have moved : (history.sent ++ [sent]).map SentCommand.command ++ next.pending =
      history.sent.map SentCommand.command ++ history.queue.pending := by
    rw [first]
    simp
  refine ⟨?_, ?_, consistent.increasing, ?_, ?_⟩
  · have before := consistent.settled
    rw [onTheWay, idle] at before
    simp only [onTheWay, inFlight, List.map_append, before]
    simp
  · rw [moved]
    exact consistent.kept
  · intro command member
    rw [nextId]
    exact consistent.fresh command member
  · rw [moved]
    exact consistent.ordered

/-- An answer keeps the invariant. -/
theorem Consistent.answer (consistent : history.Consistent)
    {answer : Option CommandResult × Queue} (settled : history.queue.Settles answer) :
    (history.answered answer).Consistent := by
  refine ⟨?_, ?_, consistent.increasing, ?_, ?_⟩
  · simp only [answered, List.map_append, List.append_assoc, settled.command]
    exact consistent.settled
  · simp only [answered, settled.pending]
    exact consistent.kept
  · simp only [answered, settled.nextId]
    exact consistent.fresh
  · simp only [answered, settled.pending]
    exact consistent.ordered

/-- Dropping the commands that wait keeps the invariant. -/
theorem Consistent.clear (consistent : history.Consistent) :
    (history.apply .clear).Consistent := by
  refine ⟨consistent.settled, ?_, consistent.increasing, consistent.fresh, ?_⟩
  · show List.Perm (history.sent.map SentCommand.command ++ [] ++
      (history.dropped ++ history.queue.pending)) history.accepted
    rw [List.append_nil]
    refine List.Perm.trans (List.Perm.append_left _ List.perm_append_comm) ?_
    rw [← List.append_assoc]
    exact consistent.kept
  · show ((history.sent.map SentCommand.command ++ []).map PendingCommand.id).Pairwise (· < ·)
    rw [List.append_nil]
    have all := consistent.ordered
    rw [List.map_append] at all
    exact (List.pairwise_append.mp all).1

/-- Every call keeps the invariant. -/
theorem Consistent.apply (consistent : history.Consistent) (call : Call) :
    (history.apply call).Consistent := by
  cases call with
  | enqueue text =>
    rcases history.queue.enqueue_cases text with ⟨fault, refused⟩ | ⟨next, made, taken⟩
    · simpa [History.apply, refused] using
        consistent.hold (pending_refuse fault) (inFlight_refuse fault) (nextId_refuse fault)
    · simpa [History.apply, made, numbered] using consistent.accept taken
  | enqueueBatch texts =>
    rcases history.queue.enqueueBatch_cases texts with ⟨fault, refused⟩ | ⟨next, made, taken⟩
    · simpa [History.apply, refused] using
        consistent.hold (pending_refuse fault) (inFlight_refuse fault) (nextId_refuse fault)
    · have written := zipWith_range_eq_numbered history.queue.nextId (texts.map trim)
      simp only [History.apply, made, Option.getD_some, written]
      exact consistent.accept taken
  | dequeue now =>
    rcases history.queue.dequeue_cases now with held | ⟨sent, next, taken, idle, first, way, ids⟩
    · simpa [History.apply, held] using consistent
    · simpa [History.apply, taken] using consistent.send idle first way ids
  | respond now response => exact consistent.answer (settles_respond _ now response)
  | failSend now reason => exact consistent.answer (settles_failSend _ now reason)
  | expire checked now => exact consistent.answer (settles_expire _ checked now)
  | pause => exact consistent.hold rfl rfl rfl
  | resume => exact consistent.hold rfl rfl rfl
  | pauseIfPending =>
    simp only [History.apply, pauseIfPending]
    split
    · exact consistent
    · exact consistent.hold rfl rfl rfl
  | clear => exact consistent.clear

/-- The last call is made of the history of those before it. -/
theorem run_append_singleton (settings : QueueSettings) (calls : List Call) (call : Call) :
    run settings (calls ++ [call]) = (run settings calls).apply call := by
  rw [run, List.foldl_append]
  rfl

/-- A new queue holds nothing. -/
theorem consistent_create (settings : QueueSettings) :
    Consistent { queue := Queue.create settings } := by
  have empty : (Queue.create settings).pending = [] ∧ (Queue.create settings).inFlight = none := by
    unfold Queue.create
    split <;> exact ⟨rfl, rfl⟩
  refine ⟨?_, ?_, List.Pairwise.nil, by simp, ?_⟩
  · simp [onTheWay, empty.2]
  · simp [empty.1]
  · simp [empty.1]

/-- The invariant holds after any calls of a new queue. -/
theorem consistent_run (settings : QueueSettings) (calls : List Call) :
    (run settings calls).Consistent := by
  induction calls using List.reverseRecOn with
  | nil => exact consistent_create settings
  | append_singleton calls call ih =>
    rw [run_append_singleton]
    exact ih.apply call

/-! ## What the invariant says -/

/-- A number stands in the four places together as often as it was given. -/
theorem Consistent.count_places (consistent : history.Consistent) (id : Nat) :
    history.count .finished id + history.count .inFlight id + history.count .pending id +
      history.count .dropped id = (history.accepted.map PendingCommand.id).count id := by
  have same := (consistent.kept.map PendingCommand.id).count_eq id
  rw [consistent.settled] at same
  rw [← same]
  simp only [count, contents, List.map_append, List.count_append]

/-- A command that was taken in is in exactly one place, once. -/
theorem Consistent.place_of_mem (consistent : history.Consistent) {command : PendingCommand}
    (taken : command ∈ history.accepted) :
    ∃ place, ∀ other, history.count other command.id = if other = place then 1 else 0 := by
  have total := consistent.count_places command.id
  have once : (history.accepted.map PendingCommand.id).count command.id = 1 :=
    List.count_eq_one_of_mem (consistent.increasing.imp Nat.ne_of_lt)
      (List.mem_map_of_mem taken)
  rw [once] at total
  -- One of the four counts is one, and the sum leaves nothing for the others.
  have found : history.count .finished command.id = 1 ∨ history.count .inFlight command.id = 1 ∨
      history.count .pending command.id = 1 ∨ history.count .dropped command.id = 1 := by
    omega
  rcases found with here | here | here | here
  · exact ⟨.finished, fun other => by cases other <;> simp <;> omega⟩
  · exact ⟨.inFlight, fun other => by cases other <;> simp <;> omega⟩
  · exact ⟨.pending, fun other => by cases other <;> simp <;> omega⟩
  · exact ⟨.dropped, fun other => by cases other <;> simp <;> omega⟩

/-- The numbers of the commands sent increase. -/
theorem Consistent.sent_increasing (consistent : history.Consistent) :
    (history.sent.map SentCommand.id).Pairwise (· < ·) := by
  have all := consistent.ordered
  rw [List.map_append, List.map_map] at all
  exact (List.pairwise_append.mp all).1

/-! ## Later calls -/

/-- One history goes on from another. -/
structure Continues (history later : History) : Prop where
  /-- What was sent stays first. -/
  sent : history.sent <+: later.sent
  /-- What was dropped stays dropped. -/
  dropped : history.dropped <+: later.dropped

/-- One more call goes on from a history. -/
theorem continues_apply (history : History) (call : Call) :
    history.Continues (history.apply call) := by
  cases call with
  | dequeue now => exact ⟨List.prefix_append _ _, List.prefix_rfl⟩
  | clear => exact ⟨List.prefix_rfl, List.prefix_append _ _⟩
  | _ => exact ⟨List.prefix_rfl, List.prefix_rfl⟩

/-- More calls go on from a history. -/
theorem continues_run (settings : QueueSettings) (calls later : List Call) :
    (run settings calls).Continues (run settings (calls ++ later)) := by
  induction later using List.reverseRecOn with
  | nil =>
    rw [List.append_nil]
    exact ⟨List.prefix_rfl, List.prefix_rfl⟩
  | append_singleton later call ih =>
    have step := continues_apply (run settings (calls ++ later)) call
    rw [← List.append_assoc, run_append_singleton]
    exact ⟨ih.sent.trans step.sent, ih.dropped.trans step.dropped⟩

/-- A number in the front of an increasing list does not stand in its back. -/
theorem not_mem_of_pairwise_append {front back : List Nat} {id : Nat}
    (increasing : (front ++ back).Pairwise (· < ·)) (early : id ∈ front) : id ∉ back := by
  intro late
  exact Nat.lt_irrefl id ((List.pairwise_append.mp increasing).2.2 id early id late)

/-- What is sent by later calls was neither finished nor dropped before. -/
theorem Consistent.unsettled_of_sent_later (consistent : history.Consistent) {later : History}
    (after : later.Consistent) (continued : history.Continues later)
    {more : List SentCommand} (sent : later.sent = history.sent ++ more) :
    ∀ command ∈ more,
      history.count .finished command.id = 0 ∧ history.count .dropped command.id = 0 := by
  intro command new
  have number : command.id ∈ more.map SentCommand.id := List.mem_map_of_mem new
  constructor
  · -- Results are about commands sent before, whose numbers are smaller.
    have increasing := after.sent_increasing
    rw [sent, List.map_append] at increasing
    refine List.count_eq_zero.mpr fun finished => ?_
    have early : command.id ∈ history.sent.map SentCommand.id := by
      have all : history.sent.map SentCommand.id =
          (history.sent.map SentCommand.command).map PendingCommand.id := by
        rw [List.map_map]
        rfl
      rw [all, consistent.settled, List.map_append]
      exact List.mem_append_left _ finished
    exact not_mem_of_pairwise_append increasing early number
  · -- What was dropped is still dropped later, so it was not sent as well.
    refine List.count_eq_zero.mpr fun before => ?_
    obtain ⟨entry, inside, same⟩ := List.mem_map.mp before
    have gone : command.id ∈ later.dropped.map PendingCommand.id :=
      List.mem_map.mpr ⟨entry, continued.dropped.subset inside, same⟩
    have given : command.command ∈ later.sent.map SentCommand.command := by
      rw [sent]
      exact List.mem_map_of_mem (List.mem_append_right _ new)
    have distinct : (((later.sent.map SentCommand.command ++ later.queue.pending) ++
        later.dropped).map PendingCommand.id).Nodup :=
      ((after.kept.map PendingCommand.id).nodup_iff).mpr (after.increasing.imp Nat.ne_of_lt)
    rw [List.map_append, List.nodup_append] at distinct
    exact distinct.2.2 command.id
      (List.mem_map.mpr ⟨command.command, List.mem_append_left _ given, rfl⟩) _ gone rfl

/-- Whatever is called of a new queue, each command taken in is in one place: it waits, it is
on its way, it has one result, or it was dropped. Commands are sent under the text they were
taken in with, in increasing order of their numbers, each at most once; results come in the
order of sending; and nothing that has a result or was dropped is sent by later calls. -/
theorem one_place_and_sent_in_order (settings : QueueSettings) (calls : List Call) :
    (∀ command ∈ (run settings calls).accepted, ∃ place, ∀ other,
        (run settings calls).count other command.id = if other = place then 1 else 0) ∧
      ((run settings calls).accepted.map PendingCommand.id).Pairwise (· < ·) ∧
      ((run settings calls).sent.map SentCommand.id).Pairwise (· < ·) ∧
      (∀ sent ∈ (run settings calls).sent, sent.command ∈ (run settings calls).accepted) ∧
      (run settings calls).sent.map SentCommand.command =
        (run settings calls).results.map CommandResult.command ++
          (run settings calls).queue.onTheWay ∧
      ∀ later, ∃ more, (run settings (calls ++ later)).sent = (run settings calls).sent ++ more ∧
        ∀ sent ∈ more, (run settings calls).count .finished sent.id = 0 ∧
          (run settings calls).count .dropped sent.id = 0 := by
  have consistent := consistent_run settings calls
  refine ⟨fun command taken => consistent.place_of_mem taken, consistent.increasing,
    consistent.sent_increasing, ?_, consistent.settled, ?_⟩
  · intro sent given
    exact consistent.mem_accepted (List.mem_append_left _ (List.mem_map_of_mem given))
  · intro later
    have continued := continues_run settings calls later
    obtain ⟨more, split⟩ := continued.sent
    exact ⟨more, split.symm, consistent.unsettled_of_sent_later
      (consistent_run settings (calls ++ later)) continued split.symm⟩

end History

end Queue

end GcodeSender
