import Mathlib.Data.List.Forall2
import GcodeSender.Toolpath.Chords
import GcodeSender.Proofs.Toolpath.Connected

/-!
# Chords in place of arcs

The chords of an arc go from its start to its end, each from where the one before it ended
(`Segment.ChordsOf`): the ends of chords are computed once and every end but the last is used again
as a start. The main statement says that a path without arcs is the given path with the chords of
each arc in its place. Chords lead where their arc leads, so such a path is connected exactly if the
given one is, and it starts and ends at the same points.
-/
namespace GcodeSender

namespace Segment

variable {α : Type} {place : Point → α} {here there : α} {arc segment : Segment}
  {chords piece segments : List Segment} {pieces : List (List Segment)} {count : Nat}
  {tolerance : Float}

/-- So many straight segments, one after the other, go from the start of an arc to its end and keep
what the arc says beside its ends. -/
structure ChordsOf (arc : Segment) (count : Nat) (chords : List Segment) : Prop where
  /-- There are as many as counted. -/
  length : chords.length = count
  /-- The first one starts where the arc starts. -/
  start : chords.head?.map (·.start) = some arc.start
  /-- The last one ends where the arc ends. -/
  finish : chords.getLast?.map (·.finish) = some arc.finish
  /-- Each one starts where the one before it ends. -/
  joined : Connected id chords
  /-- Each one is straight. -/
  linear : ∀ chord ∈ chords, chord.motion = .linear
  /-- Each one has the feed and the speed of the arc. -/
  speeds : ∀ chord ∈ chords, chord.feed = arc.feed ∧ chord.spindleSpeed = arc.spindleSpeed
  /-- Each one is in the unit and the plane of the arc. -/
  frame : ∀ chord ∈ chords, chord.unit = arc.unit ∧ chord.plane = arc.plane
  /-- Each one stands on the line of the arc and has its line number. -/
  source : ∀ chord ∈ chords,
    chord.sourceLine = arc.sourceLine ∧ chord.lineNumber = arc.lineNumber

/-- What stands for a segment in a path without arcs: the counted chords of an arc, or a straight
segment itself. -/
inductive Expands (tolerance : Float) : Segment → List Segment → Prop where
  /-- A straight segment stays. -/
  | straight {segment : Segment} (notArc : segment.isArc = false) :
    Expands tolerance segment [segment]
  /-- An arc gives way to its chords. -/
  | arc {arc : Segment} {count : Nat} {chords : List Segment} (isArc : arc.isArc = true)
    (counted : chordCount? arc.chordRadius arc.sweep tolerance = some count)
    (made : ChordsOf arc count chords) : Expands tolerance arc chords

/-! ## Chords of one arc -/

/-- Chords through some points lead from the first one to the last one. -/
theorem leads_zipWith_chord (arc : Segment) (start : Point) (ends : List Point) :
    Leads id start (List.zipWith arc.chord (start :: ends) ends) (ends.getLastD start) := by
  induction ends generalizing start with
  | nil => exact .nil start
  | cons finish others ih =>
    rw [List.zipWith_cons_cons, List.getLastD_cons]
    exact .cons rfl (ih finish)

/-- What is true of every chord of an arc, whatever its ends, is true of the chords through some
points. -/
theorem forall_zipWith_chord {property : Segment → Prop} {starts ends : List Point}
    (each : ∀ start finish, property (arc.chord start finish)) :
    ∀ chord ∈ List.zipWith arc.chord starts ends, property chord := by
  intro chord member
  obtain ⟨place, inside, found⟩ := List.mem_iff_getElem.mp member
  rw [List.getElem_zipWith] at found
  rw [← found]
  exact each _ _

/-- The last chord ends where the arc ends. -/
theorem getLastD_chordEnds (arc : Segment) (count : Nat) (start : Point) :
    (arc.chordEnds count).getLastD start = arc.finish := by
  simp [chordEnds]

/-- So many chords through the computed ends go from the start of the arc to its end. -/
theorem chordsOf_chordEnds (arc : Segment) (positive : 0 < count) :
    ChordsOf arc count
      (List.zipWith arc.chord (arc.start :: arc.chordEnds count) (arc.chordEnds count)) := by
  have leads := leads_zipWith_chord arc arc.start (arc.chordEnds count)
  rw [getLastD_chordEnds] at leads
  have length : (List.zipWith arc.chord (arc.start :: arc.chordEnds count)
      (arc.chordEnds count)).length = count := by
    rw [List.length_zipWith, List.length_cons, length_chordEnds arc positive]
    omega
  have nonempty := List.ne_nil_of_length_pos (length ▸ positive)
  exact
    { length := length
      start := leads.start_eq nonempty
      finish := leads.finish_eq nonempty
      joined := connected_iff_leads.mpr ⟨_, _, leads⟩
      linear := forall_zipWith_chord fun _ _ => rfl
      speeds := forall_zipWith_chord fun _ _ => ⟨rfl, rfl⟩
      frame := forall_zipWith_chord fun _ _ => ⟨rfl, rfl⟩
      source := forall_zipWith_chord fun _ _ => ⟨rfl, rfl⟩ }

/-- The chords of an arc stand for it. -/
theorem expands_of_chords? (isArc : arc.isArc = true) (made : arc.chords? tolerance = .ok chords) :
    Expands tolerance arc chords := by
  unfold chords? at made
  cases counted : chordCount? arc.chordRadius arc.sweep tolerance with
  | none =>
    rw [counted] at made
    cases made
  | some count =>
    rw [counted] at made
    cases made
    exact .arc isArc counted (chordsOf_chordEnds arc (chordCount?_pos counted))

/-! ## What stands for a segment -/

namespace Expands

/-- No arc stands for a segment. -/
theorem isArc_eq_false (expands : Expands tolerance segment piece) :
    ∀ chord ∈ piece, chord.isArc = false := by
  cases expands with
  | straight notArc => simpa using notArc
  | arc isArc counted made =>
    intro chord member
    rw [Segment.isArc, made.linear chord member]
    rfl

/-- What stands for a segment starts where the segment starts. -/
theorem start_eq (expands : Expands tolerance segment piece) :
    piece.head?.map (·.start) = some segment.start := by
  cases expands with
  | straight notArc => rfl
  | arc isArc counted made => exact made.start

/-- What stands for a segment ends where the segment ends. -/
theorem finish_eq (expands : Expands tolerance segment piece) :
    piece.getLast?.map (·.finish) = some segment.finish := by
  cases expands with
  | straight notArc => rfl
  | arc isArc counted made => exact made.finish

/-- What stands for a segment is connected. -/
theorem connected (expands : Expands tolerance segment piece) : Connected id piece := by
  cases expands with
  | straight notArc => exact List.isChain_singleton segment
  | arc isArc counted made => exact made.joined

/-- What stands for a segment leads where the segment leads. -/
theorem leads_iff (expands : Expands tolerance segment piece) :
    Leads place here piece there ↔ place segment.start = here ∧ place segment.finish = there := by
  obtain ⟨first, head, starts⟩ := Option.map_eq_some_iff.mp expands.start_eq
  obtain ⟨last, tail, ends⟩ := Option.map_eq_some_iff.mp expands.finish_eq
  have nonempty : piece ≠ [] := by
    rintro rfl
    cases head
  have between {β : Type} {reading : Point → β} {early late : β}
      (leads : Leads reading early piece late) :
      reading segment.start = early ∧ reading segment.finish = late := by
    have early := leads.start_eq nonempty
    have late := leads.finish_eq nonempty
    rw [head, Option.map_some, starts] at early
    rw [tail, Option.map_some, ends] at late
    exact ⟨Option.some.inj early, Option.some.inj late⟩
  refine ⟨between, ?_⟩
  rintro ⟨rfl, rfl⟩
  obtain ⟨early, late, leads⟩ := connected_iff_leads.mp expands.connected
  obtain ⟨rfl, rfl⟩ := between leads
  exact leads.coarser place

/-- No arc stands for segments. -/
theorem isArc_flatten_eq_false (expands : List.Forall₂ (Expands tolerance) segments pieces) :
    ∀ chord ∈ pieces.flatten, chord.isArc = false := by
  induction expands with
  | nil => exact List.forall_mem_nil _
  | cons first rest ih =>
    rw [List.flatten_cons, List.forall_mem_append]
    exact ⟨first.isArc_eq_false, ih⟩

/-- What stands for segments leads where they lead. -/
theorem leads_flatten_iff (expands : List.Forall₂ (Expands tolerance) segments pieces) :
    Leads place here pieces.flatten there ↔ Leads place here segments there := by
  induction expands generalizing here with
  | nil => simp
  | cons first rest ih =>
    rw [List.flatten_cons, leads_append, leads_cons]
    simp only [first.leads_iff, ih, and_assoc, exists_and_left, exists_eq_left']

/-- What stands for segments starts where they start. -/
theorem start_flatten_eq (expands : List.Forall₂ (Expands tolerance) segments pieces) :
    pieces.flatten.head?.map (·.start) = segments.head?.map (·.start) := by
  cases expands with
  | nil => rfl
  | cons first rest =>
    rw [List.flatten_cons, List.head?_append, Option.map_or, first.start_eq]
    rfl

/-- What stands for segments ends where they end. -/
theorem finish_flatten_eq (expands : List.Forall₂ (Expands tolerance) segments pieces) :
    pieces.flatten.getLast?.map (·.finish) = segments.getLast?.map (·.finish) := by
  induction expands with
  | nil => rfl
  | @cons segment piece others pieces first rest ih =>
    have split : (segment :: others).getLast? = others.getLast?.or (some segment) :=
      List.getLast?_append (l := [segment])
    rw [List.flatten_cons, List.getLast?_append, split, Option.map_or, Option.map_or,
      first.finish_eq, ih]
    rfl

end Expands

end Segment

open Segment

/-- A path without arcs has for each segment what stands for it. -/
theorem pieces_of_expandEach {tolerance : Float} {segments path : List Segment}
    (expanded : expandEach tolerance segments = .ok path) :
    ∃ pieces, path = pieces.flatten ∧ List.Forall₂ (Expands tolerance) segments pieces := by
  induction segments generalizing path with
  | nil =>
    cases expanded
    exact ⟨[], rfl, .nil⟩
  | cons segment others ih =>
    rw [expandEach] at expanded
    split at expanded
    · next isArc =>
      split at expanded
      · cases expanded
      · next chords made =>
        split at expanded
        · cases expanded
        · next rest more =>
          cases expanded
          obtain ⟨pieces, rfl, expands⟩ := ih more
          exact ⟨chords :: pieces, rfl, .cons (expands_of_chords? isArc made) expands⟩
    · next notArc =>
      split at expanded
      · cases expanded
      · next rest more =>
        cases expanded
        obtain ⟨pieces, rfl, expands⟩ := ih more
        have stays : Expands tolerance segment [segment] :=
          .straight (Bool.eq_false_iff.mpr notArc)
        exact ⟨[segment] :: pieces, rfl, .cons stays expands⟩

/-- Take any path and tolerance for which arcs can be replaced. The new path has no arc, and has for
each segment, in order, the chords of the counted number if it is an arc and the segment itself if
it is straight. Under any reading of points it is connected exactly if the given path is, and it
starts and ends at the same points. -/
theorem expandArcs_puts_chords {tolerance : Float} {segments path : List Segment}
    (expanded : expandArcs tolerance segments = .ok path) :
    (∀ segment ∈ path, segment.isArc = false) ∧
      (∃ pieces, path = pieces.flatten ∧ List.Forall₂ (Expands tolerance) segments pieces) ∧
        (∀ {α : Type} (place : Point → α), Connected place path ↔ Connected place segments) ∧
          path.head?.map (·.start) = segments.head?.map (·.start) ∧
            path.getLast?.map (·.finish) = segments.getLast?.map (·.finish) := by
  have each : expandEach tolerance segments = .ok path := by
    unfold expandArcs at expanded
    split at expanded
    · cases expanded
    · exact expanded
  obtain ⟨pieces, rfl, expands⟩ := pieces_of_expandEach each
  refine ⟨Expands.isArc_flatten_eq_false expands, ⟨pieces, rfl, expands⟩, fun place => ?_,
    Expands.start_flatten_eq expands, Expands.finish_flatten_eq expands⟩
  simp only [connected_iff_leads, Expands.leads_flatten_iff expands]

/-- An arc on the spot around its center that rises becomes one chord between the moves beside
it. -/
theorem expandArcs_of_rise_on_the_spot :
    let before : Segment := { finish := ⟨1, 2, 0⟩ }
    let rise : Segment :=
      { motion := .clockwise, start := ⟨1, 2, 0⟩, finish := ⟨1, 2, 5⟩, center := ⟨1, 2, 0⟩,
        feed := 200, sourceLine := 2 }
    let after : Segment := { start := ⟨1, 2, 5⟩, finish := ⟨4, 2, 5⟩ }
    let path := [before, rise.chord ⟨1, 2, 0⟩ ⟨1, 2, 5⟩, after]
    expandArcs 0.1 [before, rise, after] = .ok path ∧ Connected id path := by
  intro before rise after path
  have expanded : expandArcs 0.1 [before, rise, after] = .ok path := by decide +kernel
  have given : Connected id [before, rise, after] := by decide +kernel
  exact ⟨expanded, ((expandArcs_puts_chords expanded).2.2.1 id).mpr given⟩

end GcodeSender
