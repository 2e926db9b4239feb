import GcodeSender.Proofs.Queue.History

/-!
# What a pause holds back

A paused queue gives nothing out for sending, and only a resumption ends a pause. Calls that
take nothing in leave an empty queue empty, and the command on its way is gone once it has
ended. These facts are stated for one call of a history and for any number of them.
-/
namespace GcodeSender

namespace Queue

variable {queue next : Queue}

/-! ## The pause under each operation -/

@[simp] theorem paused_report (line : Report) : (queue.report line).paused = queue.paused := rfl

@[simp] theorem paused_reportIfVerbose (text : Bytes) :
    (queue.reportIfVerbose text).paused = queue.paused := by
  unfold reportIfVerbose
  split <;> rfl

@[simp] theorem paused_noteActivity : queue.noteActivity.paused = queue.paused := rfl

@[simp] theorem paused_refuse (fault : QueueFault) :
    (queue.refuse fault).paused = queue.paused := rfl

/-- Taking lines in keeps a pause. -/
theorem paused_foldl_append (queue : Queue) (lines : List Bytes) :
    (lines.foldl append queue).paused = queue.paused := by
  rw [foldl_append_eq_taking]
  rfl

@[simp] theorem paused_enqueue (text : Bytes) : (queue.enqueue text).2.paused = queue.paused := by
  unfold enqueue
  dsimp only
  split
  · rfl
  · split
    · rfl
    · rw [paused_noteActivity, paused_reportIfVerbose]
      rfl

@[simp] theorem paused_enqueueBatch (texts : List Bytes) :
    (queue.enqueueBatch texts).2.paused = queue.paused := by
  unfold enqueueBatch
  dsimp only
  split
  · rfl
  · split
    · rfl
    · rw [paused_noteActivity, paused_foldl_append]

@[simp] theorem paused_finish (now : Int) (outcome : Outcome) :
    (queue.finish now outcome).2.paused = queue.paused := by
  unfold finish
  split
  · rfl
  · dsimp only
    split <;> simp

@[simp] theorem paused_failSend (now : Int) (reason : Bytes) :
    (queue.failSend now reason).2.paused = queue.paused := by
  unfold failSend
  split
  · rfl
  · exact paused_finish now _

@[simp] theorem paused_expire (checked now : Int) :
    (queue.expire checked now).2.paused = queue.paused := by
  unfold expire
  split
  · rfl
  · split
    · rfl
    · exact paused_finish now _

/-- A response keeps a pause. -/
theorem paused_respond (now : Int) (response : Response) (held : queue.paused = true) :
    (queue.respond now response).2.paused = true := by
  have kept (queue : Queue) (held : queue.paused = true) :
      (queue.afterAlarm response).noteActivity.paused = true := by
    cases response <;> first | rfl | exact held
  unfold respond
  cases outcomeOf response with
  | none => exact kept _ held
  | some outcome => exact kept _ ((paused_finish now outcome).trans held)

/-- An alarm pauses the queue. -/
theorem paused_respond_alarm (now : Int) (complaint : Complaint) :
    (queue.respond now (.alarm complaint)).2.paused = true := rfl

/-- No command waits, or the queue is paused. -/
def Held (queue : Queue) : Prop := queue.pending = [] ∨ queue.paused = true

/-- A queue that is paused if commands wait holds them. -/
theorem held_pauseIfPending (queue : Queue) : queue.pauseIfPending.2.Held := by
  unfold pauseIfPending
  split
  · next empty => exact .inl (List.isEmpty_iff.mp empty)
  · exact .inr rfl

@[simp] theorem inFlight_pauseIfPending :
    queue.pauseIfPending.2.inFlight = queue.inFlight := by
  unfold pauseIfPending
  split <;> rfl

/-! ## The command on its way -/

/-- An answer leaves nothing on its way where nothing was. -/
theorem Settles.inFlight_of_none {answer : Option CommandResult × Queue}
    (settled : queue.Settles answer) (idle : queue.inFlight = none) :
    answer.2.inFlight = none := by
  have command := settled.command
  rw [onTheWay, onTheWay, idle] at command
  cases way : answer.2.inFlight with
  | none => rfl
  | some sent =>
    rw [way] at command
    simp at command

@[simp] theorem inFlight_finish (now : Int) (outcome : Outcome) :
    (queue.finish now outcome).2.inFlight = none := by
  unfold finish
  split
  · assumption
  · dsimp only
    split <;> simp

@[simp] theorem inFlight_failSend (now : Int) (reason : Bytes) :
    (queue.failSend now reason).2.inFlight = none := by
  unfold failSend
  split
  · assumption
  · exact inFlight_finish now _

end Queue

/-! ## One call and many -/

namespace Queue

namespace Call

/-- A call may take commands in. -/
def takesIn : Call → Bool
  | enqueue _ | enqueueBatch _ => true
  | _ => false

/-- A call may give a command out. -/
def givesOut : Call → Bool
  | dequeue _ => true
  | _ => false

/-- A call takes nothing in, gives nothing out and does not resume. -/
def settles : Call → Bool
  | respond _ _ | failSend _ _ | expire _ _ | pause | pauseIfPending | clear => true
  | _ => false

/-- A call that settles is no resumption. -/
theorem ne_resume_of_settles {call : Call} (settles : call.settles = true) : call ≠ .resume := by
  rintro rfl
  cases settles

/-- A call that settles gives nothing out. -/
theorem givesOut_of_settles {call : Call} (settles : call.settles = true) :
    call.givesOut = false := by
  cases call <;> first | rfl | cases settles

end Call

namespace History

variable {history : History} {call : Call}

/-- Calls keep the invariant. -/
theorem Consistent.foldl (consistent : history.Consistent) (calls : List Call) :
    (calls.foldl History.apply history).Consistent := by
  induction calls generalizing history with
  | nil => exact consistent
  | cons call calls ih => exact ih (consistent.apply call)

/-- Calls go on from a history. -/
theorem continues_foldl (history : History) (calls : List Call) :
    history.Continues (calls.foldl apply history) := by
  induction calls generalizing history with
  | nil => exact ⟨List.prefix_rfl, List.prefix_rfl⟩
  | cons call calls ih =>
    have first := continues_apply history call
    have later := ih (history.apply call)
    exact ⟨first.sent.trans later.sent, first.dropped.trans later.dropped⟩

/-- Calls that give nothing out send nothing. -/
theorem sent_foldl {calls : List Call} (others : ∀ call ∈ calls, call.givesOut = false) :
    (calls.foldl apply history).sent = history.sent := by
  induction calls generalizing history with
  | nil => rfl
  | cons call calls ih =>
    have first : (history.apply call).sent = history.sent := by
      have other := others call List.mem_cons_self
      cases call <;> first | rfl | cases other
    have later : (calls.foldl apply (history.apply call)).sent = (history.apply call).sent :=
      ih fun call member => others call (List.mem_cons_of_mem _ member)
    exact later.trans first

/-- Any call but a resumption keeps a pause, and under a pause nothing is given out. -/
theorem paused_apply (held : history.queue.paused = true) (other : call ≠ .resume) :
    (history.apply call).queue.paused = true ∧ (history.apply call).sent = history.sent := by
  cases call with
  | enqueue text => exact ⟨(paused_enqueue text).trans held, rfl⟩
  | enqueueBatch texts => exact ⟨(paused_enqueueBatch texts).trans held, rfl⟩
  | dequeue now =>
    have nothing : history.queue.dequeue now = (none, history.queue) :=
      dequeue_of_not_canSend (canSend_of_paused held)
    simp [apply, nothing, held]
  | respond now response => exact ⟨paused_respond now response held, rfl⟩
  | failSend now reason => exact ⟨(paused_failSend now reason).trans held, rfl⟩
  | expire checked now => exact ⟨(paused_expire checked now).trans held, rfl⟩
  | pause => exact ⟨rfl, rfl⟩
  | resume => exact absurd rfl other
  | pauseIfPending =>
    refine ⟨?_, rfl⟩
    show history.queue.pauseIfPending.2.paused = true
    unfold pauseIfPending
    split
    · exact held
    · rfl
  | clear => exact ⟨held, rfl⟩

/-- Calls without a resumption keep a pause, and under it nothing is given out. -/
theorem paused_foldl (held : history.queue.paused = true) {calls : List Call}
    (others : ∀ call ∈ calls, call ≠ .resume) :
    (calls.foldl apply history).queue.paused = true ∧
      (calls.foldl apply history).sent = history.sent := by
  induction calls generalizing history with
  | nil => exact ⟨held, rfl⟩
  | cons call calls ih =>
    obtain ⟨still, same⟩ := paused_apply held (others call List.mem_cons_self)
    obtain ⟨last, kept⟩ := ih still fun other member => others other (List.mem_cons_of_mem _ member)
    exact ⟨last, kept.trans same⟩

/-- A call that takes nothing in leaves an empty queue empty. -/
theorem pending_apply_of_empty (empty : history.queue.pending = [])
    (closed : call.takesIn = false) : (history.apply call).queue.pending = [] := by
  cases call with
  | enqueue text => cases closed
  | enqueueBatch texts => cases closed
  | dequeue now =>
    rcases history.queue.dequeue_cases now with held | ⟨sent, next, _, _, first, _, _⟩
    · simpa [apply, held] using empty
    · rw [empty] at first
      cases first
  | respond now response => exact (settles_respond _ now response).pending.trans empty
  | failSend now reason => exact (settles_failSend _ now reason).pending.trans empty
  | expire checked now => exact (settles_expire _ checked now).pending.trans empty
  | pause => exact empty
  | resume => exact empty
  | pauseIfPending =>
    show history.queue.pauseIfPending.2.pending = []
    unfold pauseIfPending
    split <;> exact empty
  | clear => rfl

/-- Unless a call gives a command out, nothing is on its way where nothing was. -/
theorem inFlight_apply_of_none (idle : history.queue.inFlight = none)
    (other : call.givesOut = false) : (history.apply call).queue.inFlight = none := by
  cases call with
  | enqueue text =>
    rcases history.queue.enqueue_cases text with ⟨fault, refused⟩ | ⟨next, made, taken⟩
    · simpa [apply, refused] using idle
    · simpa [apply, made, taken.inFlight] using idle
  | enqueueBatch texts =>
    rcases history.queue.enqueueBatch_cases texts with ⟨fault, refused⟩ | ⟨next, made, taken⟩
    · simpa [apply, refused] using idle
    · simpa [apply, made, taken.inFlight] using idle
  | dequeue now => cases other
  | respond now response => exact (settles_respond _ now response).inFlight_of_none idle
  | failSend now reason => exact (settles_failSend _ now reason).inFlight_of_none idle
  | expire checked now => exact (settles_expire _ checked now).inFlight_of_none idle
  | pause => exact idle
  | resume => exact idle
  | pauseIfPending => exact inFlight_pauseIfPending.trans idle
  | clear => exact idle

/-- Unless calls give a command out, nothing is on its way where nothing was. -/
theorem inFlight_foldl_of_none (idle : history.queue.inFlight = none) {calls : List Call}
    (others : ∀ call ∈ calls, call.givesOut = false) :
    (calls.foldl apply history).queue.inFlight = none := by
  induction calls generalizing history with
  | nil => exact idle
  | cons call calls ih =>
    exact ih (inFlight_apply_of_none idle (others call List.mem_cons_self))
      fun other member => others other (List.mem_cons_of_mem _ member)

/-- Calls that take nothing in leave an empty queue empty. -/
theorem pending_foldl_of_empty (empty : history.queue.pending = []) {calls : List Call}
    (closed : ∀ call ∈ calls, call.takesIn = false) :
    (calls.foldl apply history).queue.pending = [] := by
  induction calls generalizing history with
  | nil => exact empty
  | cons call calls ih =>
    exact ih (pending_apply_of_empty empty (closed call List.mem_cons_self))
      fun other member => closed other (List.mem_cons_of_mem _ member)

end History

end Queue

end GcodeSender
