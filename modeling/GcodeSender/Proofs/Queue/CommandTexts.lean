import GcodeSender.Proofs.Queue.History

/-!
# The texts of commands

A queue takes a command in without the blanks at its ends, and takes in no command without a
text. So as long as nothing that is put in holds a line break, every command that waits, and
every command that is given out, is one line (`IsCommandText`), whatever calls are made.
-/
namespace GcodeSender

/-- A text holds no line break. -/
def IsUnbroken (text : Bytes) : Prop :=
  ∀ c ∈ text, c ≠ Byte.carriageReturn ∧ c ≠ Byte.newline

/-- A text is one line: it is not empty, holds no line break, and has no blank at either end. -/
structure IsCommandText (text : Bytes) : Prop where
  /-- It is not empty. -/
  nonempty : text ≠ []
  /-- It holds no line break. -/
  unbroken : IsUnbroken text
  /-- It starts with no blank. -/
  starts : ∀ c ∈ text.head?, Byte.isBlank c = false
  /-- It ends with no blank. -/
  ends : ∀ c ∈ text.getLast?, Byte.isBlank c = false

/-- What is left of a text without line breaks, and without the blanks at its ends, is one
line. -/
theorem isCommandText_trim {text : Bytes} (unbroken : IsUnbroken text) (left : trim text ≠ []) :
    IsCommandText (trim text) := by
  obtain ⟨-, -, -, -, -, starts, ends⟩ := exists_trim text
  exact ⟨left, fun c member => unbroken c (mem_of_mem_trim member), starts, ends⟩

namespace Queue

variable {queue next : Queue}

/-- Every command that waits is one line. -/
def Ready (queue : Queue) : Prop := ∀ command ∈ queue.pending, IsCommandText command.text

/-- A queue without commands is ready. -/
theorem ready_of_empty (empty : queue.pending = []) : queue.Ready := by
  intro command member
  rw [empty] at member
  cases member

/-- A queue with fewer commands is ready. -/
theorem Ready.mono (ready : queue.Ready) (fewer : next.pending ⊆ queue.pending) : next.Ready :=
  fun command member => ready command (fewer member)

/-- A queue with the same commands is ready. -/
theorem Ready.congr (ready : queue.Ready) (same : next.pending = queue.pending) : next.Ready :=
  ready.mono fun _ member => same ▸ member

/-- Successive commands have the texts of their lines. -/
theorem text_mem_of_mem_numbered {first : Nat} {lines : List Bytes} {command : PendingCommand}
    (member : command ∈ numbered first lines) : command.text ∈ lines := by
  induction lines generalizing first with
  | nil => cases member
  | cons line others ih =>
    rcases List.mem_cons.mp member with rfl | later
    · exact List.mem_cons_self
    · exact List.mem_cons_of_mem _ (ih later)

/-- A queue that takes in lines stays ready. -/
theorem Ready.accept (ready : queue.Ready) {lines : List Bytes}
    (taken : queue.Accepts lines next) (texts : ∀ line ∈ lines, IsCommandText line) :
    next.Ready := by
  intro command member
  rw [taken.pending, List.mem_append] at member
  rcases member with old | new
  · exact ready command old
  · exact texts _ (text_mem_of_mem_numbered new)

/-- A command that is taken in has a text. -/
theorem trim_ne_nil_of_enqueue {text : Bytes} {id : Nat}
    (taken : queue.enqueue text = (some id, next)) : trim text ≠ [] := by
  intro blank
  rw [enqueue_of_empty blank] at taken
  cases taken

/-- Commands that are taken in together have texts. -/
theorem trim_ne_nil_of_enqueueBatch {texts : List Bytes} {ids : List Nat}
    (taken : queue.enqueueBatch texts = (some ids, next)) : ∀ text ∈ texts, trim text ≠ [] := by
  intro text member blank
  have refused : (texts.map trim).any (·.isEmpty) = true :=
    List.any_eq_true.mpr ⟨trim text, List.mem_map_of_mem member, by rw [blank]; rfl⟩
  unfold enqueueBatch at taken
  rw [if_pos refused] at taken
  cases taken

namespace Call

/-- A call puts in no line break. -/
def IsUnbroken : Call → Prop
  | enqueue text => GcodeSender.IsUnbroken text
  | enqueueBatch texts => ∀ text ∈ texts, GcodeSender.IsUnbroken text
  | _ => True

end Call

namespace History

variable {history : History} {call : Call}

/-- A call that puts in no line break leaves a queue ready. -/
theorem ready_apply (ready : history.queue.Ready) (unbroken : call.IsUnbroken) :
    (history.apply call).queue.Ready := by
  cases call with
  | enqueue text =>
    show (history.queue.enqueue text).2.Ready
    rcases history.queue.enqueue_cases text with ⟨fault, refused⟩ | ⟨next, made, taken⟩
    · rw [refused]
      exact ready
    · rw [made]
      refine ready.accept taken fun line member => ?_
      rw [List.mem_singleton.mp member]
      exact isCommandText_trim unbroken (trim_ne_nil_of_enqueue made)
  | enqueueBatch texts =>
    show (history.queue.enqueueBatch texts).2.Ready
    rcases history.queue.enqueueBatch_cases texts with ⟨fault, refused⟩ | ⟨next, made, taken⟩
    · rw [refused]
      exact ready
    · rw [made]
      refine ready.accept taken fun line member => ?_
      obtain ⟨text, inside, rfl⟩ := List.mem_map.mp member
      exact isCommandText_trim (unbroken text inside)
        (trim_ne_nil_of_enqueueBatch made text inside)
  | dequeue now =>
    show (history.queue.dequeue now).2.Ready
    rcases history.queue.dequeue_cases now with held | ⟨sent, next, made, _, first, _⟩
    · rw [held]
      exact ready
    · rw [made]
      exact ready.mono (first ▸ List.subset_cons_self _ _)
  | respond now response =>
    exact ready.congr (settles_respond history.queue now response).pending
  | failSend now reason =>
    exact ready.congr (settles_failSend history.queue now reason).pending
  | expire checked now =>
    exact ready.congr (settles_expire history.queue checked now).pending
  | pause => exact ready
  | resume => exact ready
  | pauseIfPending =>
    show history.queue.pauseIfPending.2.Ready
    unfold pauseIfPending
    split <;> exact ready
  | clear => exact ready_of_empty rfl

/-- Calls that put in no line break leave a queue ready. -/
theorem ready_foldl (ready : history.queue.Ready) {calls : List Call}
    (unbroken : ∀ call ∈ calls, call.IsUnbroken) :
    (calls.foldl apply history).queue.Ready := by
  induction calls generalizing history with
  | nil => exact ready
  | cons call calls ih =>
    exact ih (ready_apply ready (unbroken call List.mem_cons_self))
      fun other member => unbroken other (List.mem_cons_of_mem _ member)

end History

/-- A command that a ready queue gives out is one line. -/
theorem Ready.dequeue (ready : queue.Ready) {now : Int} {sent : SentCommand}
    (given : (queue.dequeue now).1 = some sent) : IsCommandText sent.text := by
  have taken : queue.dequeue now = (some sent, (queue.dequeue now).2) := by rw [← given]
  have first := (taken_of_dequeue taken).2.1
  exact ready sent.command (first ▸ List.mem_cons_self)

end Queue

end GcodeSender
