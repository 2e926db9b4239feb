import GcodeSender.Proofs.Queue.History

/-!
# The activity that is noted

A queue notes what it does after every operation but a pause. A pause holds commands back and moves
none, so what was noted stays right (`Queue.Noted`): a command is on its way, or commands wait and
none is on its way, or neither. The step and the run are stated for histories. Because of this a
queue that notes its activity again, with nothing else changed, stays as it was.
-/
namespace GcodeSender

namespace Queue

variable {queue next : Queue}

/-- The activity that is noted is the one that the commands call for. -/
def Noted (queue : Queue) : Prop := queue.activity = queue.currentActivity

/-- Where the activity is noted, noting it again changes nothing. -/
theorem Noted.noteActivity_eq (noted : queue.Noted) : queue.noteActivity = queue := by
  rw [noteActivity, ← noted]

/-- What was just noted is right. -/
theorem noted_noteActivity (queue : Queue) : queue.noteActivity.Noted := rfl

/-- The note stays right where neither it nor the commands change. -/
theorem Noted.congr (noted : queue.Noted) (pending : next.pending = queue.pending)
    (inFlight : next.inFlight = queue.inFlight) (activity : next.activity = queue.activity) :
    next.Noted := by
  rw [Noted, currentActivity, pending, inFlight, activity]
  exact noted

/-- A new queue holds nothing and has noted so. -/
theorem noted_create (settings : QueueSettings) : (create settings).Noted := by
  unfold create
  split <;> rfl

theorem Noted.enqueue (noted : queue.Noted) (text : Bytes) : (queue.enqueue text).2.Noted := by
  unfold Queue.enqueue
  dsimp only
  split
  · exact noted.congr rfl rfl rfl
  · split
    · exact noted.congr rfl rfl rfl
    · exact noted_noteActivity _

theorem Noted.enqueueBatch (noted : queue.Noted) (texts : List Bytes) :
    (queue.enqueueBatch texts).2.Noted := by
  unfold Queue.enqueueBatch
  dsimp only
  split
  · exact noted.congr rfl rfl rfl
  · split
    · exact noted.congr rfl rfl rfl
    · exact noted_noteActivity _

theorem Noted.dequeue (noted : queue.Noted) (now : Int) : (queue.dequeue now).2.Noted := by
  unfold Queue.dequeue
  split
  · split
    · exact noted_noteActivity _
    · exact noted
  · exact noted

theorem Noted.failSend (noted : queue.Noted) (now : Int) (reason : Bytes) :
    (queue.failSend now reason).2.Noted := by
  unfold Queue.failSend
  split
  · exact noted
  · exact noted_noteActivity _

theorem Noted.expire (noted : queue.Noted) (checked now : Int) :
    (queue.expire checked now).2.Noted := by
  unfold Queue.expire
  split
  · exact noted
  · split
    · exact noted
    · exact noted_noteActivity _

/-- A pause changes nothing that the note is about. -/
theorem Noted.pause (noted : queue.Noted) : queue.pause.Noted := noted.congr rfl rfl rfl

theorem Noted.pauseIfPending (noted : queue.Noted) : queue.pauseIfPending.2.Noted := by
  unfold Queue.pauseIfPending
  split
  · exact noted
  · exact noted.pause

namespace History

variable {history : History}

/-- Every call leaves the right activity noted. -/
theorem noted_apply (noted : history.queue.Noted) (call : Call) :
    (history.apply call).queue.Noted := by
  cases call with
  | enqueue text => exact noted.enqueue text
  | enqueueBatch texts => exact noted.enqueueBatch texts
  | dequeue now => exact noted.dequeue now
  | respond now response => exact noted_noteActivity _
  | failSend now reason => exact noted.failSend now reason
  | expire checked now => exact noted.expire checked now
  | pause => exact noted.pause
  | resume => exact noted_noteActivity _
  | pauseIfPending => exact noted.pauseIfPending
  | clear => exact noted_noteActivity _

/-- After any calls of a new queue the right activity is noted. -/
theorem noted_run (settings : QueueSettings) (calls : List Call) :
    (run settings calls).queue.Noted := by
  induction calls using List.reverseRecOn with
  | nil => exact noted_create settings
  | append_singleton calls call ih =>
    rw [run_append_singleton]
    exact noted_apply ih call

end History

end Queue

end GcodeSender
