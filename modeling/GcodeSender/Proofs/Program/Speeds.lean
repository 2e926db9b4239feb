import GcodeSender.Proofs.Program.Continuity

/-!
# Feed and spindle speed of a program

A block with a feed or a spindle speed below zero is refused, so neither is ever in force, and no
segment of a program has one.
-/
namespace GcodeSender

/-- Neither the feed nor the spindle speed in force stands below zero. -/
structure ModalState.Rated (state : ModalState) : Prop where
  /-- The feed does not stand below zero. -/
  feed : ¬ state.feed < 0.0
  /-- The spindle speed does not stand below zero. -/
  speed : ¬ state.spindleSpeed < 0.0

/-- Neither the feed nor the spindle speed of a segment stands below zero. -/
structure Segment.Rated (segment : Segment) : Prop where
  /-- The feed does not stand below zero. -/
  feed : ¬ segment.feed < 0.0
  /-- The spindle speed does not stand below zero. -/
  speed : ¬ segment.spindleSpeed < 0.0

namespace Block

variable {block : Block} {active : Option Motion} {state : ModalState}

/-- A block that breaks no rule has no feed and no spindle speed below zero. -/
theorem not_lt_of_fault? (sound : block.fault? active = none) :
    (∀ value ∈ block.parameters .f, ¬ value < 0.0) ∧
      ∀ value ∈ block.parameters .s, ¬ value < 0.0 := by
  have kept (letter : Letter) (rule : (block.parameters letter).any (· < 0.0) = false) :
      ∀ value ∈ block.parameters letter, ¬ value < 0.0 := by
    intro value known
    rw [show block.parameters letter = some value from known] at rule
    exact of_decide_eq_false rule
  unfold fault? at sound
  dsimp only at sound
  have unbroken := List.findSome?_eq_none_iff.mp sound
  have feed := unbroken _ List.mem_cons_self
  have speed := unbroken _ (List.mem_cons_of_mem _ List.mem_cons_self)
  constructor
  · exact kept .f (by simpa using feed)
  · exact kept .s (by simpa using speed)

/-- A block that breaks no rule puts no feed and no spindle speed below zero in force. -/
theorem rated_nextState (rated : state.Rated) (sound : block.fault? active = none) :
    (block.nextState state).Rated := by
  obtain ⟨feed, speed⟩ := not_lt_of_fault? sound
  have updated : (block.update state).Rated := by
    constructor
    · show ¬ (block.parameters .f).getD state.feed < 0.0
      cases known : block.parameters .f with
      | none => exact rated.feed
      | some value => exact feed value known
    · show ¬ (block.parameters .s).getD state.spindleSpeed < 0.0
      cases known : block.parameters .s with
      | none => exact rated.speed
      | some value => exact speed value known
  unfold nextState
  dsimp only
  split
  · exact ⟨updated.feed, updated.speed⟩
  · exact updated

end Block

namespace Command

variable {command : Command} {state next : ModalState}

/-- A command puts no feed and no spindle speed below zero in force. -/
theorem rated_of_ofLine? {number : Nat} {line : Bytes} (rated : state.Rated)
    (read : ofLine? number line state = .ok (some command, next)) : next.Rated := by
  obtain ⟨_, block, _, _, _, sound, _, rfl⟩ := ofLine?_eq_ok_some_iff.mp read
  exact Block.rated_nextState rated sound

/-- A segment has the feed and the spindle speed in force, which its command leaves as they
are. -/
theorem rated_of_perform {made : Option Segment} (rated : state.Rated)
    (done : command.perform state = .ok (made, next)) :
    next.Rated ∧ ∀ segment ∈ made, segment.Rated := by
  have nothing : ∀ segment ∈ (none : Option Segment), segment.Rated := fun _ none => nomatch none
  unfold perform at done
  split at done
  · split at done
    · cases done
    · next segment found =>
      cases done
      refine ⟨⟨rated.feed, rated.speed⟩, fun segment same => ?_⟩
      cases same
      unfold segment? at found
      dsimp only at found
      split at found
      · split at found
        · cases found
        · cases found
          exact ⟨rated.feed, rated.speed⟩
      · cases found
        exact ⟨rated.feed, rated.speed⟩
  · cases done
    exact ⟨⟨rated.feed, rated.speed⟩, nothing⟩
  · cases done
    exact ⟨rated, nothing⟩

end Command

/-- A line keeps the feed and the spindle speed in force from below zero, and those of its
segment. -/
theorem LineOutcome.rated_ofLine {state : ModalState} (rated : state.Rated) (number : Nat)
    (line : Bytes) : (ofLine number line state).2.Rated ∧
      ∀ segment ∈ (ofLine number line state).1.segments, segment.Rated := by
  have nothing : ∀ segment ∈ ([] : List Segment), segment.Rated := fun _ none => nomatch none
  unfold ofLine
  split
  · exact ⟨rated, nothing⟩
  · exact ⟨rated, nothing⟩
  · next made after read =>
    have passed := Command.rated_of_ofLine? rated read
    split
    · exact ⟨rated, nothing⟩
    · next segment next done =>
      obtain ⟨kept, own⟩ := Command.rated_of_perform passed done
      exact ⟨kept, fun segment member => own segment (Option.mem_toList.mp member)⟩

namespace Program

/-- No segment of lines has a feed or a spindle speed below zero. -/
theorem rated_loadFrom {state : ModalState} (rated : state.Rated) (stopAtError : Bool)
    (number : Nat) (lines : List Bytes) :
    ∀ segment ∈ (loadFrom stopAtError number state lines).segments, segment.Rated := by
  induction lines generalizing number state with
  | nil => exact fun _ none => nomatch none
  | cons line others ih =>
    obtain ⟨kept, own⟩ := LineOutcome.rated_ofLine rated number (stripReturn line)
    intro segment member
    unfold loadFrom at member
    dsimp only at member
    split at member
    · rw [segments_cons, List.append_nil] at member
      exact own segment member
    · rw [segments_cons, List.mem_append] at member
      rcases member with first | later
      · exact own segment first
      · exact ih kept (number + 1) segment later

/-- No segment of a program has a feed or a spindle speed below zero. -/
theorem rated_ofText (text : Bytes) (stopAtError : Bool) :
    ∀ segment ∈ (ofText text {} stopAtError).segments, segment.Rated := by
  have rated : ModalState.Rated {} := ⟨by decide +kernel, by decide +kernel⟩
  exact rated_loadFrom rated stopAtError 1 (lines text)

end Program

end GcodeSender
