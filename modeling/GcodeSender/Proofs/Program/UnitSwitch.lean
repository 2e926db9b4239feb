import GcodeSender.Proofs.FloatRounding
import GcodeSender.Proofs.Program.Offsets

/-!
# Feed across a change of units

The feed in force is a bare number, and the unit that it is in stands beside it. A line that changes
the unit and has no feed of its own keeps the number, so its move is as many times faster or slower
as the units differ. The main statement says exactly when a line without a feed keeps the physical
feed: if it keeps the unit, or if the feed is zero or not finite, as no other float is its own
product with the millimetres of an inch.
-/
namespace GcodeSender

open Float.Model (UnpackedFloat)

/-! ## Feeds in millimetres -/

/-- The feed in force, in millimetres in a minute. -/
def ModalState.physicalFeed (state : ModalState) : Float := state.unit.toMillimetres state.feed

/-- The feed of a segment, in millimetres in a minute. -/
def Segment.physicalFeed (segment : Segment) : Float := segment.unit.toMillimetres segment.feed

variable {value : Float}

/-- The exact value of the millimetres of an inch. -/
theorem ofFloat?_mmPerInch :
    Dyadic.ofFloat? LengthUnit.mmPerInch = some ⟨false, 7149464408450662, -48⟩ := by
  decide +kernel

/-- A float is its own product with the millimetres of an inch exactly when it is zero or not
finite. -/
theorem mul_mmPerInch_eq_self_iff :
    value * LengthUnit.mmPerInch = value ↔ IsExactly value 0 ∨ value.isFinite = false := by
  constructor
  · intro same
    cases finite : value.isFinite with
    | false => exact .inr rfl
    | true =>
      obtain ⟨number, exact⟩ := exists_isExactly_iff.mpr finite
      have inch : IsExactly LengthUnit.mmPerInch (7149464408450662 / 2 ^ 48) :=
        ⟨_, ofFloat?_mmPerInch, by norm_num [Dyadic.toRat, signed, size]⟩
      have near := (exact.mul inch).near_of_isExactly (same.symm ▸ exact)
      by_cases zero : number = 0
      · exact .inl (zero ▸ exact)
      · -- The product is more than 24 times as far away as rounding can reach.
        have least := exact.smallest_le zero
        have solid := abs_pos.mpr zero
        have split : number - number * (7149464408450662 / 2 ^ 48) =
            -(number * (7149464408450662 / 2 ^ 48 - 1)) := by ring
        unfold roundingError at near
        rw [split, abs_neg, abs_mul, abs_mul] at near
        norm_num at near
        linarith
  · intro known
    have inch : ∃ solid, LengthUnit.mmPerInch.toModel.unpack =
        .finite .positive 7149464408450662 (-48) solid := by
      have found := ofFloat?_mmPerInch
      rw [Dyadic.ofFloat?_eq_ofUnpacked?] at found
      cases unpacked : LengthUnit.mmPerInch.toModel.unpack <;> rw [unpacked] at found
      case infinity sign => cases found
      case notANumber => cases found
      case zero sign => exact absurd found (by simp [Dyadic.ofUnpacked?])
      case finite sign mantissa exponent solid =>
        cases sign with
        | negative => cases found
        | positive =>
          cases found
          exact ⟨solid, rfl⟩
    obtain ⟨solid, inch⟩ := inch
    apply eq_of_unpack_eq
    show (Float.Model.pack (UnpackedFloat.mul .binary64 value.toModel.unpack
      LengthUnit.mmPerInch.toModel.unpack)).unpack = value.toModel.unpack
    rw [inch]
    rcases unpack_of_not_solid known with ⟨sign, zero⟩ | ⟨sign, endless⟩ | none
    · rw [zero]
      cases sign <;> exact UnpackedFloat.unpack_packedZero
    · rw [endless]
      cases sign <;> exact unpack_packedInfinity _
    · rw [none]
      exact UnpackedFloat.unpack_packedNaN

/-! ## Lines without a feed -/

/-- A segment has the feed that is in force. -/
theorem Command.feed_of_perform {command : Command} {state next : ModalState} {segment : Segment}
    (done : command.perform state = .ok (some segment, next)) : segment.feed = state.feed := by
  obtain ⟨made, -⟩ := Command.perform_eq_ok_some_iff.mp done
  obtain ⟨motion, -, -, found⟩ := Command.segmentUnder_eq_ok_some_iff.mp made
  unfold segment? at found
  dsimp only at found
  split at found
  · split at found
    · cases found
    · cases found
      rfl
  · cases found
    rfl

namespace LineOutcome

variable {number : Nat} {line : Bytes} {state next : ModalState} {command : Command}
  {segment : Segment}

/-- A segment has the feed and the unit that its block leaves in force. -/
theorem feed_of_ofLine
    (accepted : ofLine number line state = (.command command (some segment), next)) :
    segment.feed = (command.parameters .f).getD state.feed ∧
      segment.unit = command.block.select Word.unit? state.unit ∧ next.feed = segment.feed ∧
        next.unit = segment.unit := by
  obtain ⟨middle, read, done⟩ := ofLine_eq_command_iff.mp accepted
  obtain ⟨tokens, block, -, -, -, -, rfl, rfl⟩ := Command.ofLine?_eq_ok_some_iff.mp read
  have feed : (block.nextState state).feed = (block.parameters .f).getD state.feed := by
    unfold Block.nextState
    dsimp only
    split <;> rfl
  have unit : (block.nextState state).unit = block.select Word.unit? state.unit := by
    unfold Block.nextState
    dsimp only
    split <;> rfl
  obtain ⟨-, rfl⟩ := Command.perform_eq_ok_some_iff.mp done
  have kept : segment.feed = (block.nextState state).feed := Command.feed_of_perform done
  have same : segment.unit = (block.nextState state).unit := (Command.ends_of_perform done).1
  exact ⟨kept.trans feed, same.trans unit, kept.symm, same.symm⟩

/-- A line without a feed keeps the number that is in force, whatever it does to the unit. So it
keeps the physical feed exactly when it keeps the unit, or when the feed is zero or not finite. -/
theorem physicalFeed_kept_iff
    (accepted : ofLine number line state = (.command command (some segment), next))
    (plain : command.parameters .f = none) :
    segment.feed = state.feed ∧ next.feed = state.feed ∧
      segment.unit = command.block.select Word.unit? state.unit ∧ next.unit = segment.unit ∧
        (segment.physicalFeed = state.physicalFeed ↔
          segment.unit = state.unit ∨ IsExactly state.feed 0 ∨ state.feed.isFinite = false) := by
  obtain ⟨feed, unit, after, same⟩ := feed_of_ofLine accepted
  rw [plain, Option.getD_none] at feed
  refine ⟨feed, after.trans feed, unit, same, ?_⟩
  unfold Segment.physicalFeed ModalState.physicalFeed
  rw [feed, ← mul_mmPerInch_eq_self_iff]
  cases segment.unit <;> cases state.unit
  · simp
  · show state.feed = state.feed * LengthUnit.mmPerInch ↔ _
    simp [eq_comm]
  · show state.feed * LengthUnit.mmPerInch = state.feed ↔ _
    simp
  · simp

/-- A move at F100 in millimetres that switches to inches keeps the number. -/
theorem physicalFeed_kept_of_switch :
    ∃ command segment next,
      ofLine 1 (ascii "G20 X1") { motion := some .linear, feed := 100 } =
          (.command command (some segment), next) ∧
        command.parameters .f = none ∧ segment.feed = 100 ∧ next.feed = 100 ∧
          (segment.physicalFeed = 100 ↔
            segment.unit = .mm ∨ IsExactly 100 0 ∨ (100 : Float).isFinite = false) := by
  obtain ⟨command, found, next, done⟩ := exists_command_of_isSome
    (show (ofLine 1 (ascii "G20 X1")
      { motion := some .linear, feed := 100 }).1.command?.isSome = true by decide +kernel)
  have moves : (ofLine 1 (ascii "G20 X1")
      { motion := some .linear, feed := 100 }).1.segments.length = 1 := by
    decide +kernel
  have plain : (ofLine 1 (ascii "G20 X1")
      { motion := some .linear, feed := 100 }).1.command?.map (·.parameters .f) = some none := by
    decide +kernel
  rw [done] at moves plain
  cases found with
  | none => cases moves
  | some segment =>
    have plain := Option.some.inj plain
    obtain ⟨feed, after, -, -, kept⟩ := physicalFeed_kept_iff done plain
    exact ⟨command, segment, next, done, plain, feed, after, kept⟩

end LineOutcome

/-- After a move at 100 millimetres in a minute, a line that switches to inches and has no feed is
read, and its move is one of 100 inches in a minute. -/
theorem Program.physicalFeed_changes_at_switch :
    let program := ofLines [ascii "G1 X10 F100", ascii "G20 X1"] {} false
    program.errors = [] ∧
      program.segments.map (fun segment => (segment.unit, segment.feed)) =
          [(.mm, 100), (.inch, 100)] ∧
        program.segments.map Segment.physicalFeed = [100, 2540] := by
  decide +kernel

end GcodeSender
