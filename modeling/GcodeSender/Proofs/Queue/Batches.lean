import GcodeSender.Proofs.Queue.Activity

/-!
# Batches

However lines come into a queue that has room for them, one by one or together, they change it in
one way: they wait behind the others under the next numbers and are counted (`Queue.taking`). Only
what is reported differs, as a batch reports no single command. The main statement compares a
batch with the same lines taken in one by one, for a queue after any calls: either all of them
fit, and the two agree in everything but the reports, or the batch is refused as a whole.
-/
namespace GcodeSender

namespace Queue

variable {queue : Queue} {texts : List Bytes}

/-- Take in several commands one after the other. Gives the answer to each of them. -/
def enqueueEach (queue : Queue) : List Bytes → List (Option Nat) × Queue
  | [] => ([], queue)
  | text :: others =>
    let (id, next) := queue.enqueue text
    let (ids, last) := next.enqueueEach others
    (id :: ids, last)

/-- All of some commands can be taken in: each has a text, and there is room for them together. -/
def Fits (queue : Queue) (texts : List Bytes) : Prop :=
  (∀ text ∈ texts, trim text ≠ []) ∧
    queue.pending.length + texts.length ≤ queue.settings.capacity

/-- What is wrong with commands that do not fit. -/
def batchFault (queue : Queue) (texts : List Bytes) : QueueFault :=
  if (texts.map trim).any (·.isEmpty) then .emptyCommand
  else .batchTooLarge texts.length queue.free

/-! ## One by one -/

/-- A command that fits is taken in under the next number, and the activity is noted. -/
theorem exists_enqueue_eq {text : Bytes} (filled : trim text ≠ [])
    (room : queue.pending.length < queue.settings.capacity) :
    ∃ reports, queue.enqueue text =
      (some queue.nextId, { (queue.append (trim text)).noteActivity with reports := reports }) := by
  have solid : ¬ (trim text).isEmpty = true := by
    rw [List.isEmpty_iff]
    exact filled
  have free : ¬ queue.settings.capacity ≤ queue.pending.length := by omega
  unfold enqueue
  dsimp only
  rw [if_neg solid, if_neg free, reportIfVerbose]
  split <;> exact ⟨_, rfl⟩

/-- What was noted or reported before lines are taken in is noted and reported anew. -/
theorem noteActivity_taking (queue : Queue) (reports later : List Report) (lines : List Bytes) :
    { (({ queue.noteActivity with reports := reports } : Queue).taking lines).noteActivity with
      reports := later } = { (queue.taking lines).noteActivity with reports := later } := rfl

/-- Where commands fit, the first fits, and the others fit behind it. -/
theorem Fits.cons {text : Bytes} {others : List Bytes} (fits : queue.Fits (text :: others)) :
    trim text ≠ [] ∧ queue.pending.length < queue.settings.capacity ∧
      (∀ other ∈ others, trim other ≠ []) ∧
        queue.pending.length + 1 + others.length ≤ queue.settings.capacity := by
  obtain ⟨filled, room⟩ := fits
  rw [List.length_cons] at room
  exact ⟨filled text List.mem_cons_self, by omega,
    fun other member => filled other (List.mem_cons_of_mem _ member), by omega⟩

/-- Commands that fit are all taken in one after the other, under successive numbers. -/
theorem Noted.exists_enqueueEach_eq (noted : queue.Noted) (fits : queue.Fits texts) :
    ∃ reports, queue.enqueueEach texts =
      ((List.range' queue.nextId texts.length).map some,
        { (queue.taking (texts.map trim)).noteActivity with reports := reports }) := by
  induction texts generalizing queue with
  | nil =>
    refine ⟨queue.reports, ?_⟩
    rw [List.map_nil, taking_nil, noted.noteActivity_eq]
    rfl
  | cons text others ih =>
    obtain ⟨filled, room, rest, fitting⟩ := fits.cons
    obtain ⟨reports, first⟩ := exists_enqueue_eq filled room
    let next : Queue := { (queue.append (trim text)).noteActivity with reports := reports }
    have length : next.pending.length = queue.pending.length + 1 := List.length_append
    have behind : next.Fits others := ⟨rest, length ▸ fitting⟩
    have activity : next.Noted := rfl
    obtain ⟨later, last⟩ := ih activity behind
    refine ⟨later, ?_⟩
    rw [enqueueEach, first]
    dsimp only
    rw [last, noteActivity_taking, ← taking_cons, List.length_cons, List.range'_succ]
    rfl

/-! ## Together -/

/-- The fault of commands without a text is found before room is looked for. -/
theorem fits_iff : queue.Fits texts ↔ ¬ (texts.map trim).any (·.isEmpty) = true ∧
    ¬ queue.settings.capacity < queue.pending.length + (texts.map trim).length := by
  rw [Fits, List.length_map, Nat.not_lt]
  simp

/-- Commands that fit are taken in together, under successive numbers. -/
theorem Fits.enqueueBatch_eq (fits : queue.Fits texts) :
    queue.enqueueBatch texts =
      (some (List.range' queue.nextId texts.length),
        (queue.taking (texts.map trim)).noteActivity) := by
  obtain ⟨filled, room⟩ := fits_iff.mp fits
  unfold enqueueBatch
  dsimp only
  rw [if_neg filled, if_neg room, foldl_append_eq_taking, List.length_map,
    List.range'_eq_map_range]

/-- Commands that do not fit are refused together. -/
theorem enqueueBatch_of_not_fits (unfit : ¬ queue.Fits texts) :
    queue.enqueueBatch texts = (none, queue.refuse (queue.batchFault texts)) := by
  rw [fits_iff] at unfit
  unfold enqueueBatch batchFault
  dsimp only
  by_cases blank : (texts.map trim).any (·.isEmpty) = true
  · rw [if_pos blank, if_pos blank]
  · have full : queue.settings.capacity < queue.pending.length + (texts.map trim).length := by
      by_contra room
      exact unfit ⟨blank, room⟩
    rw [if_neg blank, if_neg blank, if_pos full, List.length_map]

namespace History

/-- Whatever was called of a queue, a batch either fits, and then it leaves the queue as its lines
do when they are taken in one by one, reports apart, and gives the same successive numbers; or it
does not fit, and then nothing but the last fault changes, which is reported. -/
theorem batch_is_each_or_none (settings : QueueSettings) (calls : List Call)
    (texts : List Bytes) :
    let queue := (run settings calls).queue
    let ids := List.range' queue.nextId texts.length
    let fault := queue.batchFault texts
    queue.Fits texts ∧
        (∃ each, queue.enqueueEach texts = (ids.map some, each) ∧
          queue.enqueueBatch texts = (some ids, { each with reports := queue.reports })) ∨
      ¬ queue.Fits texts ∧ queue.enqueueBatch texts =
        (none, { queue with
          lastFault := some fault
          reports :=
            .warning (ascii "CommandQueue Error: " ++ fault.message) :: queue.reports }) := by
  intro queue ids fault
  by_cases fits : queue.Fits texts
  · obtain ⟨reports, taken⟩ := (noted_run settings calls).exists_enqueueEach_eq fits
    refine .inl ⟨fits, _, taken, ?_⟩
    exact fits.enqueueBatch_eq
  · exact .inr ⟨fits, enqueueBatch_of_not_fits fits⟩

/-- Two lines fit where two may wait, and a third one makes all of them unfit. -/
example :
    let queue := (run { capacity := 2 } []).queue
    (queue.enqueueBatch [ascii "G0", ascii " G1 "]).1 = some [1, 2] ∧
      (queue.enqueueBatch [ascii "G0", ascii "G1", ascii "G2"]).1 = none := by
  decide +kernel

end History

end Queue

end GcodeSender
