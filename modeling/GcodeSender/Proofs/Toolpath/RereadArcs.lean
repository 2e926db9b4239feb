import GcodeSender.Proofs.Toolpath.Reload
import GcodeSender.Proofs.Toolpath.Sweeps

/-!
# Arcs of a printed path

A printed path that loads again without errors gives one segment for each segment that was printed,
of the same kind, from where the tool stands to where the segment lands (`Segment.Rereads`). An arc
keeps its kind, but its ends and its center are rounded apart from each other, and an arc whose ends
are read as one point is a full circle. The main statement says for the arcs of any program when the
sweep that is read is within half a turn of the one that was printed.
-/
namespace GcodeSender

open Angle (straight)

namespace Segment

/-- Segments are read as others, the first one while the tool stands at a point and every other one
from where the one before it lands. -/
inductive Rereads : Point → List Segment → List Segment → Prop where
  /-- No segment is read of none. -/
  | nil (position : Point) : Rereads position [] []
  /-- One segment is read of each. -/
  | cons {position : Point} {segment made : Segment} {others more : List Segment}
    (first : segment.RereadAs position made) (rest : Rereads segment.landing others more) :
    Rereads position (segment :: others) (made :: more)

/-- How the sweep of an arc compares with that of the arc that is read of it. -/
structure SweepReread (arc made : Segment) : Prop where
  /-- Where neither wraps, the sweeps are at most half a turn apart. -/
  short : ¬ arc.Wraps → ¬ made.Wraps → WithinHalfTurn arc.sweep made.sweep
  /-- The sweeps are at most half a turn apart exactly if the angles are and both arcs wrap or
  neither does, or neither of the two is so. -/
  within : ¬ arc.AnglesOpposed made → (WithinHalfTurn arc.sweep made.sweep ↔
    ((arc.Wraps ↔ made.Wraps) ↔ WithinHalfTurn arc.angle made.angle))
  /-- An arc whose ends are read as one point is read as a full circle. -/
  circle : made.IsClosed →
    made.Wraps ∧ ∃ t, IsExactly made.sweep t ∧ |(|t|) - 2 * straight| ≤ 1 / 2 ^ 40
  /-- So if it turns through less than half a turn, its sweep is not kept. -/
  lost : made.IsClosed → ¬ arc.Wraps → ∀ a, IsExactly arc.angle a →
    |a| < straight - 1 / 2 ^ 40 → ¬ WithinHalfTurn arc.sweep made.sweep

variable {position : Point} {segments more : List Segment}

/-- Arcs of one kind that have angles compare so. -/
theorem sweepReread {arc made : Segment} (same : made.motion = arc.motion) (known : arc.HasAngle)
    (found : made.HasAngle) : arc.SweepReread made where
  short apart distant := withinHalfTurn_of_not_wraps same apart distant known found
  within clear := withinHalfTurn_sweep_iff same known found clear
  circle closed := closed.exists_sweep found
  lost closed apart _ exact short := closed.not_withinHalfTurn found apart exact short

/-- Each segment is read as one of its kind, and each arc with an angle as one that compares so. -/
theorem Rereads.forall₂ (rereads : Rereads position segments more) :
    List.Forall₂ (fun segment made => made.motion = segment.motion ∧
      (segment.isArc = true → segment.HasAngle → made.HasAngle → segment.SweepReread made))
      segments more := by
  induction rereads with
  | nil position => exact .nil
  | cons first rest ih =>
    exact .cons ⟨first.motion, fun _ known found => sweepReread first.motion known found⟩ ih

end Segment

/-- The lines of segments with finite numbers that fit give what is read of each segment. -/
theorem rereads_printFrom {segments : List Segment}
    (rated : ∀ segment ∈ segments, segment.Rated) (finite : ∀ segment ∈ segments, segment.IsFinite)
    {modes : PrintedModes} {state : ModalState} (fits : Segment.Refits state.position segments)
    (agrees : modes.Agrees state) (origin : state.offset = .origin) (number : Nat) :
    Segment.Rereads state.position segments
      (Program.loadFrom false number state (printFrom modes segments)).segments := by
  induction segments generalizing modes state number with
  | nil => exact .nil _
  | cons segment others ih =>
    obtain ⟨fits, onward⟩ := fits
    obtain ⟨made, next, draws, reread, after, offset, landing⟩ :=
      (finite segment List.mem_cons_self).exists_draws_print (rated segment List.mem_cons_self)
        agrees origin fits number
    rw [← landing] at onward
    have rest := ih (fun other member => rated other (List.mem_cons_of_mem segment member))
      (fun other member => finite other (List.mem_cons_of_mem segment member)) onward after offset
      (number + (segment.print modes).1.length)
    rw [landing] at rest
    show Segment.Rereads state.position (segment :: others)
      (Program.loadFrom false number state ((segment.print modes).1 ++
        printFrom (segment.print modes).2 others)).segments
    rw [draws.segments]
    exact .cons reread rest

/-- The printed lines of segments that load again without errors give what is read of each
segment. -/
theorem rereads_printPath {segments : List Segment}
    (rated : ∀ segment ∈ segments, segment.Rated)
    (clean : (Program.ofLines (printPath segments) {} false).errors = []) :
    Segment.Rereads .origin segments (Program.ofLines (printPath segments) {} false).segments := by
  obtain ⟨finite, fits⟩ := (errors_printPath_eq_nil_iff rated).mp clean
  cases segments with
  | nil => exact .nil _
  | cons segment others =>
    obtain ⟨line, state, whole, draws, agrees, offset, position⟩ :=
      exists_draws_printPath segment others
    rw [whole, Program.ofLines, draws.segments, List.nil_append]
    rw [← position] at fits ⊢
    exact rereads_printFrom rated finite fits agrees offset _

namespace Program

/-- The segments of a program whose printed lines load again without errors are read one by one,
each of its kind. The sweep of an arc is read within half a turn of the one that was printed
exactly if both arcs wrap or neither does, and their angles are within half a turn too, or neither
of the two is so; an arc short of half a turn whose ends are read as one point is read as a full
circle, and its sweep is not kept. -/
theorem sweeps_of_printed_arcs (text : Bytes)
    (clean : (ofLines (printPath (ofText text {} false).segments) {} false).errors = []) :
    Segment.Rereads .origin (ofText text {} false).segments
        (ofLines (printPath (ofText text {} false).segments) {} false).segments ∧
      List.Forall₂ (fun segment made => made.motion = segment.motion ∧
        (segment.isArc = true → segment.HasAngle → made.HasAngle → segment.SweepReread made))
        (ofText text {} false).segments
        (ofLines (printPath (ofText text {} false).segments) {} false).segments := by
  have rereads := rereads_printPath (rated_ofText text false) clean
  exact ⟨rereads, rereads.forall₂⟩

/-- A quarter of a circle is printed, and read within half a turn of itself. -/
theorem sweep_of_printed_quarter :
    let text := ascii "G2 X1 Y1 I1 F100"
    let read := ofLines (printPath (ofText text {} false).segments) {} false
    read.errors = [] ∧ ∃ arc made, (ofText text {} false).segments = [arc] ∧
      read.segments = [made] ∧ WithinHalfTurn arc.sweep made.sweep := by
  dsimp only
  have clean : (ofLines (printPath (ofText (ascii "G2 X1 Y1 I1 F100") {} false).segments)
      {} false).errors = [] := by decide +kernel
  let look (arc : Segment) : Motion × Bool × Bool :=
    (arc.motion, arc.crossing.isNaN || arc.facing.isNaN,
      decide (-Segment.coincidenceAngle ≤ arc.angle))
  have written : (ofText (ascii "G2 X1 Y1 I1 F100") {} false).segments.map look =
      [(.clockwise, false, false)] := by decide +kernel
  have printed : (ofLines (printPath (ofText (ascii "G2 X1 Y1 I1 F100") {} false).segments)
      {} false).segments.map look = [(.clockwise, false, false)] := by decide +kernel
  obtain ⟨arc, one, known⟩ := List.map_eq_singleton_iff.mp written
  obtain ⟨made, other, found⟩ := List.map_eq_singleton_iff.mp printed
  have angled {arc : Segment} (seen : look arc = (.clockwise, false, false)) : arc.HasAngle :=
    congrArg (fun parts : Motion × Bool × Bool => parts.2.1) seen
  have apart {arc : Segment} (seen : look arc = (.clockwise, false, false)) : ¬ arc.Wraps := by
    unfold Segment.Wraps
    rw [show arc.motion = .clockwise from congrArg Prod.fst seen]
    exact of_decide_eq_false (congrArg (fun parts : Motion × Bool × Bool => parts.2.2) seen)
  have kept := (sweeps_of_printed_arcs (ascii "G2 X1 Y1 I1 F100") clean).2
  rw [other, one] at kept
  cases kept with
  | cons pair rest =>
    have curved : arc.isArc = true := by
      unfold Segment.isArc
      rw [show arc.motion = .clockwise from congrArg Prod.fst known]
      rfl
    have compared := pair.2 curved (angled known) (angled found)
    exact ⟨clean, arc, made, one, other, compared.short (apart known) (apart found)⟩

/-- An arc over four ten-thousandths of a millimetre is printed without an error, and read without
one as a full circle. -/
theorem short_arc_read_as_circle :
    let text := ascii "G2 X0 Y0.0004 I10 F100"
    let read := ofLines (printPath (ofText text {} false).segments) {} false
    (ofText text {} false).errors = [] ∧ read.errors = [] ∧
      ∃ arc made, (ofText text {} false).segments = [arc] ∧ read.segments = [made] ∧
        arc.isArc = true ∧ ¬ WithinHalfTurn arc.sweep made.sweep := by
  dsimp only
  have written : (ofText (ascii "G2 X0 Y0.0004 I10 F100") {} false).segments.map
      (fun arc => (arc.isArc, Dyadic.ofFloat? arc.sweep)) =
        [(true, some ⟨true, 5902958100438812, -67⟩)] := by decide +kernel
  have printed : (ofLines (printPath (ofText (ascii "G2 X0 Y0.0004 I10 F100") {} false).segments)
      {} false).segments.map (fun arc => (arc.isArc, Dyadic.ofFloat? arc.sweep)) =
        [(true, some ⟨true, 7074237752028440, -50⟩)] := by decide +kernel
  obtain ⟨arc, one, known⟩ := List.map_eq_singleton_iff.mp written
  obtain ⟨made, other, found⟩ := List.map_eq_singleton_iff.mp printed
  refine ⟨by decide +kernel, by decide +kernel, arc, made, one, other, congrArg Prod.fst known, ?_⟩
  rintro ⟨s, t, first, second, within⟩
  rw [first.unique ⟨_, congrArg Prod.snd known, rfl⟩,
    second.unique ⟨_, congrArg Prod.snd found, rfl⟩] at within
  unfold Dyadic.toRat signed size straight at within
  norm_num at within

end Program

end GcodeSender
