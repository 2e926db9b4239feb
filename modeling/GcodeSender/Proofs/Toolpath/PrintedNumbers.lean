import GcodeSender.Proofs.Gcode.Refusals
import GcodeSender.Proofs.Program.Speeds
import GcodeSender.Proofs.Toolpath.PrintedPath

/-!
# The numbers of a printed move

Not every number of a segment is printed: a rapid move has no feed, nor does any move whose feed
is not positive, and only arcs have a center, without the way to it across their plane. If the
numbers that are printed are finite (`Segment.IsFinite`), a segment prints as one whose numbers
are all finite (`Segment.stripped`), and otherwise the line of its move is refused, because the
first number that is not finite is always printed.
-/
namespace GcodeSender

open Decimal (readBack?)

namespace Plane

/-- An axis is the normal of a plane or one of its own. -/
theorem eq_normal_or_mem (plane : Plane) (axis : Axis) :
    axis = plane.normal ∨ axis ∈ [plane.first, plane.second] := by
  cases plane <;> cases axis <;> decide

/-- The axes of a plane are not its normal. -/
theorem ne_normal_of_mem {plane : Plane} {axis : Axis}
    (inPlane : axis ∈ [plane.first, plane.second]) : axis ≠ plane.normal := by
  revert inPlane
  cases plane <;> cases axis <;> decide

end Plane

namespace Segment

variable {segment : Segment} {modes : PrintedModes} {state : ModalState}

/-- The numbers of a segment that may be printed are finite. -/
structure IsFinite (segment : Segment) : Prop where
  /-- It ends at finite coordinates. -/
  finish : ∀ axis, (segment.finish.along axis).isFinite = true
  /-- The center of an arc is at a finite distance in its plane. -/
  center : segment.isArc = true → ∀ axis ∈ [segment.plane.first, segment.plane.second],
    (segment.centerOffset.along axis).isFinite = true
  /-- A positive feed of a move that is not rapid is finite. -/
  feed : segment.motion ≠ .rapid → 0.0 < segment.feed → segment.feed.isFinite = true
  /-- The spindle speed is finite. -/
  speed : segment.spindleSpeed.isFinite = true

/-! ## Numbers that are not printed -/

/-- A segment without a feed that is never printed, and without the way to its center across its
plane. -/
def stripped (segment : Segment) : Segment :=
  { segment with
    feed := if segment.motion ≠ .rapid ∧ 0.0 < segment.feed then segment.feed else 0
    centerOffset := .ofAxes fun axis =>
      if axis = segment.plane.normal then 0 else segment.centerOffset.along axis }

/-- The way to the center within the plane is kept. -/
theorem along_centerOffset_stripped {axis : Axis}
    (inPlane : axis ∈ [segment.plane.first, segment.plane.second]) :
    segment.stripped.centerOffset.along axis = segment.centerOffset.along axis := by
  unfold stripped
  rw [Point.along_ofAxes, if_neg (Plane.ne_normal_of_mem inPlane)]

/-- A feed that is printed is kept, and no other one is printed. -/
theorem writesFeed_stripped (segment : Segment) (modes : PrintedModes) :
    segment.stripped.writesFeed modes = segment.writesFeed modes ∧
      (segment.writesFeed modes = true → segment.stripped.feed = segment.feed) := by
  by_cases printed : segment.motion ≠ .rapid ∧ 0.0 < segment.feed
  · have kept : segment.stripped.feed = segment.feed := if_pos printed
    exact ⟨by unfold writesFeed; rw [kept]; rfl, fun _ => kept⟩
  · have nothing : segment.writesFeed modes = false := by
      rw [writesFeed, Bool.and_eq_false_iff, Bool.and_eq_false_iff, bne_eq_false_iff_eq,
        decide_eq_false_iff_not]
      exact .inl (or_iff_not_imp_left.mpr fun moves positive => printed ⟨moves, positive⟩)
    have none : segment.stripped.feed = 0 := if_neg printed
    refine ⟨?_, fun writes => absurd (nothing.symm.trans writes) Bool.false_ne_true⟩
    have zero : decide ((0.0 : Float) < 0) = false := by decide +kernel
    rw [nothing, writesFeed, none, zero, Bool.and_false, Bool.false_and]

/-- The line of a move says nothing of the numbers that are not printed. -/
theorem moveText_stripped (segment : Segment) (modes : PrintedModes) :
    segment.stripped.moveText modes = segment.moveText modes := by
  obtain ⟨writes, kept⟩ := segment.writesFeed_stripped modes
  have center : segment.stripped.centerText = segment.centerText := by
    have along {axis : Axis} (inPlane : axis ∈ [segment.plane.first, segment.plane.second]) :=
      along_centerOffset_stripped inPlane
    have plane : segment.stripped.plane = segment.plane := rfl
    have arc : segment.stripped.isArc = segment.isArc := rfl
    unfold centerText
    simp only [List.flatMap_cons, List.flatMap_nil, plane, arc,
      along List.mem_cons_self, along (List.mem_cons_of_mem _ List.mem_cons_self)]
  have feed : (if segment.writesFeed modes then segment.stripped.feedText else []) =
      if segment.writesFeed modes then segment.feedText else [] := by
    split
    · next written => rw [feedText, feedText, kept written]
    · rfl
  unfold moveText
  rw [writes, feed, center]
  rfl

/-- A segment prints as one without the numbers that are not printed. -/
theorem print_stripped (segment : Segment) (modes : PrintedModes) :
    segment.stripped.print modes = segment.print modes := by
  unfold print
  have units : segment.stripped.unitLine modes = segment.unitLine modes := rfl
  have planes : segment.stripped.planeLine (segment.unitLine modes).2 =
      segment.planeLine (segment.unitLine modes).2 := rfl
  obtain ⟨writes, kept⟩ :=
    segment.writesFeed_stripped (segment.planeLine (segment.unitLine modes).2).2
  dsimp only
  rw [units, planes, moveText_stripped, writes]
  congr 2
  split
  · next written => rw [kept written]
  · rfl

/-- If the printed numbers are finite, and feed and spindle speed do not stand below zero, the
segment without the other numbers can be printed. -/
theorem IsFinite.printable (finite : segment.IsFinite) (rated : segment.Rated) :
    segment.stripped.Printable := by
  have zero : (0 : Float).isFinite = true := by decide +kernel
  refine ⟨finite.finish, fun arc axis => ?_, ?_, ?_, finite.speed,
    Dyadic.floor_of_not_lt finite.speed rated.speed⟩
  · rcases segment.plane.eq_normal_or_mem axis with rfl | inPlane
    · unfold stripped
      rw [Point.along_ofAxes, if_pos rfl]
      exact zero
    · rw [along_centerOffset_stripped inPlane]
      exact finite.center arc axis inPlane
  · unfold stripped
    dsimp only
    split
    · next printed => exact finite.feed printed.1 printed.2
    · exact zero
  · unfold stripped
    dsimp only
    split
    · next printed =>
      exact Dyadic.floor_of_not_lt (finite.feed printed.1 printed.2) rated.feed
    · decide +kernel

/-! ## Numbers that are not finite -/

/-- Every entry of a move has a number or a name. -/
theorem isNumber_or_mem_names (segment : Segment) (modes : PrintedModes) :
    ∀ entry ∈ segment.entries modes,
      (∃ value, Decimal.IsNumber entry.2 value) ∨ entry.2 ∈ Decimal.names := by
  have fixed (value : Float) {places : Nat} (short : places ≤ 4) :
      (∃ read, Decimal.IsNumber (Decimal.fixed value places) read) ∨
        Decimal.fixed value places ∈ Decimal.names := by
    by_cases finite : value.isFinite = true
    · exact .inl (Decimal.exists_isNumber_fixed finite short)
    · exact .inr (Decimal.fixed_mem_names finite places)
  have trimmed (value : Float) {places : Nat} (short : places ≤ 4) :
      (∃ read, Decimal.IsNumber (Decimal.fixedTrimmed value places) read) ∨
        Decimal.fixedTrimmed value places ∈ Decimal.names := by
    by_cases finite : value.isFinite = true
    · obtain ⟨read, number, _⟩ := Decimal.exists_isNumber_fixedTrimmed finite short
      exact .inl ⟨read, number⟩
    · exact .inr (Decimal.fixedTrimmed_mem_names finite places)
  intro entry member
  unfold entries centerEntries at member
  rw [List.mem_append, List.mem_append, List.mem_append] at member
  rcases member with ((finish | center) | feed) | speed
  · obtain ⟨axis, _, rfl⟩ := List.mem_map.mp finish
    exact fixed _ (by decide)
  · split at center
    · obtain ⟨axis, _, rfl⟩ := List.mem_map.mp center
      exact fixed _ (by decide)
    · cases center
  · split at feed
    · cases List.mem_singleton.mp feed
      exact trimmed _ (by decide)
    · cases feed
  · split at speed
    · cases List.mem_singleton.mp speed
      exact trimmed _ (by decide)
    · cases speed

/-- If no entry of a move has a name, its printed numbers are finite: what is in force is, so a
feed or a spindle speed that is not has to be written. -/
theorem isFinite_of_entries (agrees : modes.Agrees state)
    (numbers : ∀ entry ∈ segment.entries modes, entry.2 ∉ Decimal.names) : segment.IsFinite where
  finish axis := by
    by_contra endless
    refine numbers (.ofAxis axis, _) ?_ (Decimal.fixed_mem_names endless 3)
    unfold entries
    have every : axis ∈ Axis.all := by cases axis <;> decide
    exact List.mem_append_left _ (List.mem_append_left _ (List.mem_append_left _
      (List.mem_map.mpr ⟨axis, every, rfl⟩)))
  center arc axis inPlane := by
    by_contra endless
    refine numbers (.ofCenter axis, _) ?_ (Decimal.fixed_mem_names endless 4)
    unfold entries centerEntries
    rw [if_pos arc]
    exact List.mem_append_left _ (List.mem_append_left _ (List.mem_append_right _
      (List.mem_map.mpr ⟨axis, inPlane, rfl⟩)))
  feed moves positive := by
    by_contra endless
    have other : modes.feed.all (segment.feed != ·) = true := by
      cases known : modes.feed with
      | none => rfl
      | some feed =>
        have finite := Decimal.isFinite_of_readBack?_fixedTrimmed (agrees.feed feed known)
        exact Dyadic.bne_of_isFinite endless finite
    have writes : segment.writesFeed modes = true := by
      rw [writesFeed, other, decide_eq_true positive, bne_iff_ne.mpr moves]
      rfl
    refine numbers (.f, _) ?_ (Decimal.fixedTrimmed_mem_names endless 3)
    unfold entries
    rw [if_pos writes]
    exact List.mem_append_left _ (List.mem_append_right _ List.mem_cons_self)
  speed := by
    by_contra endless
    have finite := Decimal.isFinite_of_readBack?_fixedTrimmed agrees.speed
    have writes : segment.writesSpindleSpeed modes = true :=
      Dyadic.bne_of_isFinite endless finite
    refine numbers (.s, _) ?_ (Decimal.fixedTrimmed_mem_names endless 1)
    unfold entries
    rw [if_pos writes]
    exact List.mem_append_right _ List.mem_cons_self

/-- The line of a move is refused if one of its printed numbers is not finite. -/
theorem exists_refused_of_not_isFinite (agrees : modes.Agrees state)
    (endless : ¬ segment.IsFinite) (number : Nat) :
    ∃ error, LineOutcome.ofLine number (segment.moveText modes) state =
      (.refused error, state) := by
  have small : segment.motion.code < 100 := by
    cases segment.motion <;> decide
  have bad : ∃ entry ∈ segment.entries modes, entry.2 ∈ Decimal.names := by
    by_contra none
    exact endless (isFinite_of_entries agrees fun entry member name => none ⟨entry, member, name⟩)
  rw [moveText_eq]
  exact LineOutcome.exists_refused_of_name small (segment.isNumber_or_mem_names modes) bad number
    state

end Segment

end GcodeSender
