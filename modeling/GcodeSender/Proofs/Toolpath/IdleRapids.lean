import Mathlib.Data.List.Destutter
import GcodeSender.Toolpath.Preparation
import GcodeSender.Proofs.Toolpath.Connected

/-!
# Dropping rapid moves that go nowhere

A rapid move is dropped if it is shorter than a tolerance, which does not keep it from leading to
another point. The trace of a path is its first start and its ends, each place once as long as the
tool stays there. The main statement says when dropping leaves the trace of a connected path as it
is, the path connected and its end in place: exactly if what is dropped leads to the place where it
starts, and something is left.

For one direction, a dropped segment that stays in place adds nothing to the trace. For the other,
what is left passes some of the places of the whole path, in their order (`Leads.sublist_ends`), so
its trace is no longer; a dropped segment that leads elsewhere is then one place too few.
-/
namespace GcodeSender

namespace Segment

variable {α : Type} {place : Point → α} {here there : α} {segment : Segment}
  {segments others : List Segment}

/-! ## What is left of a path -/

/-- A path goes on without an idle rapid move. -/
theorem dropIdleRapids_cons_of_idle (idle : segment.isIdleRapid = true) :
    dropIdleRapids (segment :: others) = dropIdleRapids others := by
  simp [dropIdleRapids, idle]

/-- Every other segment is kept. -/
theorem dropIdleRapids_cons_of_not_idle (kept : segment.isIdleRapid = false) :
    dropIdleRapids (segment :: others) = segment :: dropIdleRapids others := by
  simp [dropIdleRapids, kept]

/-- What is left of a path is some of its segments in their order. -/
theorem dropIdleRapids_sublist (segments : List Segment) :
    (dropIdleRapids segments).Sublist segments := List.filter_sublist

/-- Segments that are no rapid moves are all left, in their order. -/
theorem filter_dropIdleRapids (segments : List Segment) :
    (dropIdleRapids segments).filter (·.motion ≠ .rapid) =
      segments.filter (·.motion ≠ .rapid) := by
  rw [dropIdleRapids, List.filter_filter]
  refine List.filter_congr fun segment _ => ?_
  by_cases rapid : segment.motion = .rapid
  · simp [rapid]
  · simp [rapid, isIdleRapid]

/-- If idle rapid moves stay in place, what is left leads where the path leads. -/
theorem Leads.leads_dropIdleRapids (leads : Leads place here segments there)
    (stays : ∀ segment ∈ segments, segment.isIdleRapid = true →
      place segment.start = place segment.finish) :
    Leads place here (dropIdleRapids segments) there := by
  induction leads with
  | nil here => exact .nil here
  | @cons here there segment others starts rest ih =>
    have rest := ih fun other member => stays other (List.mem_cons_of_mem _ member)
    cases idle : segment.isIdleRapid with
    | true =>
      rw [dropIdleRapids_cons_of_idle idle, ← starts, stays segment List.mem_cons_self idle]
      exact rest
    | false =>
      rw [dropIdleRapids_cons_of_not_idle idle]
      exact .cons starts rest

/-- What is left of a path, if it leads on from a place, passes some of the places of the whole
path, in their order. -/
theorem Leads.sublist_ends {whole later : α} (leads : Leads place whole segments later)
    (left : Leads place here (dropIdleRapids segments) there)
    (nonempty : dropIdleRapids segments ≠ []) :
    (here :: (dropIdleRapids segments).map (place ·.finish)).Sublist
      (whole :: segments.map (place ·.finish)) := by
  induction leads with
  | nil => exact absurd rfl nonempty
  | @cons whole later segment others starts rest ih =>
    cases idle : segment.isIdleRapid with
    | true =>
      rw [dropIdleRapids_cons_of_idle idle] at left nonempty ⊢
      exact (ih left nonempty).cons whole
    | false =>
      rw [dropIdleRapids_cons_of_not_idle idle] at left ⊢
      obtain ⟨again, -⟩ := leads_cons.mp left
      rw [← again, starts]
      exact (((dropIdleRapids_sublist others).map _).cons_cons _).cons_cons _

/-! ## Traces -/

variable [DecidableEq α]

/-- The places that a path from a place passes, each once as long as the tool stays there. -/
def visits (place : Point → α) (here : α) (segments : List Segment) : List α :=
  (segments.map (place ·.finish)).destutter' (· ≠ ·) here

/-- The trace of a path: its first start and its ends, each place once as long as the tool stays
there. -/
def trace (place : Point → α) : List Segment → List α
  | [] => []
  | first :: others =>
    (place first.start :: (first :: others).map (place ·.finish)).destutter (· ≠ ·)

/-- The trace of a path is what it passes from its first start. -/
theorem Leads.trace_eq (leads : Leads place here segments there) (nonempty : segments ≠ []) :
    trace place segments = visits place here segments := by
  cases leads with
  | nil => exact absurd rfl nonempty
  | cons starts rest => rw [trace, List.destutter_cons', starts, visits]

/-- The place that a path starts from is visited. -/
theorem visits_ne_nil : visits place here segments ≠ [] := List.destutter'_ne_nil _ _

/-- A segment that stays in place is no visit. -/
theorem visits_cons_of_eq (stays : here = place segment.finish) :
    visits place here (segment :: others) = visits place here others := by
  rw [visits, List.map_cons, List.destutter'_cons_neg _ (by simpa using stays), visits]

/-- A segment that leads elsewhere is one visit more. -/
theorem visits_cons_of_ne (moves : here ≠ place segment.finish) :
    visits place here (segment :: others) =
      here :: visits place (place segment.finish) others := by
  rw [visits, List.map_cons, List.destutter'_cons_pos _ moves, visits]

/-- The first place that is visited is the one that the path starts from. -/
theorem head?_visits : (visits place here segments).head? = some here := by
  induction segments with
  | nil => rfl
  | cons segment others ih =>
    by_cases still : here = place segment.finish
    · rw [visits_cons_of_eq still, ih]
    · rw [visits_cons_of_ne still, List.head?_cons]

/-- If idle rapid moves stay in place, what is left passes the same places. -/
theorem Leads.visits_dropIdleRapids (leads : Leads place here segments there)
    (stays : ∀ segment ∈ segments, segment.isIdleRapid = true →
      place segment.start = place segment.finish) :
    visits place here (dropIdleRapids segments) = visits place here segments := by
  induction leads with
  | nil here => rfl
  | @cons here there segment others starts rest ih =>
    have rest := ih fun other member => stays other (List.mem_cons_of_mem _ member)
    cases idle : segment.isIdleRapid with
    | true =>
      have still : here = place segment.finish :=
        starts.symm.trans (stays segment List.mem_cons_self idle)
      rw [dropIdleRapids_cons_of_idle idle, visits_cons_of_eq still, still, rest]
    | false =>
      rw [dropIdleRapids_cons_of_not_idle idle]
      by_cases still : here = place segment.finish
      · rw [visits_cons_of_eq still, visits_cons_of_eq still, still, rest]
      · rw [visits_cons_of_ne still, visits_cons_of_ne still, rest]

/-- What is left of a path, if it leads on from a place, has no more visits than the whole path. -/
theorem Leads.length_visits_le {whole later : α} (leads : Leads place whole segments later)
    (left : Leads place here (dropIdleRapids segments) there) :
    (visits place here (dropIdleRapids segments)).length ≤
      (visits place whole segments).length := by
  by_cases empty : dropIdleRapids segments = []
  · rw [empty]
    exact List.length_pos_iff.mpr visits_ne_nil
  · have passed := leads.sublist_ends left empty
    have fewer : (visits place here (dropIdleRapids segments)).Sublist
        (whole :: segments.map (place ·.finish)) :=
      (List.destutter'_sublist _ _ _).trans passed
    exact (List.isChain_destutter' _ _ _).length_le_length_destutter fewer

/-- If what is left of a path leads on from the same place past the same places, every idle rapid
move of the path stays in place. -/
theorem Leads.stays_of_visits_eq (leads : Leads place here segments there) {last : α}
    (left : Leads place here (dropIdleRapids segments) last)
    (same : visits place here (dropIdleRapids segments) = visits place here segments) :
    ∀ segment ∈ segments, segment.isIdleRapid = true →
      place segment.start = place segment.finish := by
  induction leads with
  | nil => exact List.forall_mem_nil _
  | @cons here there segment others starts rest ih =>
    cases idle : segment.isIdleRapid with
    | true =>
      rw [dropIdleRapids_cons_of_idle idle] at left same
      have still : here = place segment.finish := by
        by_contra moves
        have fewer := rest.length_visits_le left
        rw [visits_cons_of_ne moves] at same
        rw [same, List.length_cons] at fewer
        omega
      rw [visits_cons_of_eq still] at same
      rw [still] at left same
      exact List.forall_mem_cons.mpr ⟨fun _ => starts.trans still, ih left same⟩
    | false =>
      rw [dropIdleRapids_cons_of_not_idle idle] at left same
      obtain ⟨-, left⟩ := leads_cons.mp left
      have same : visits place (place segment.finish) (dropIdleRapids others) =
          visits place (place segment.finish) others := by
        by_cases still : here = place segment.finish
        · rwa [visits_cons_of_eq still, visits_cons_of_eq still, still] at same
        · rw [visits_cons_of_ne still, visits_cons_of_ne still] at same
          exact List.tail_eq_of_cons_eq same
      have kept : segment.isIdleRapid ≠ true := by simp [idle]
      exact List.forall_mem_cons.mpr ⟨fun dropped => absurd dropped kept, ih left same⟩

end Segment

open Segment

/-- Take a connected path, under any reading of points. Without its idle rapid moves it has the same
trace, is connected and ends at the same place exactly if each of these moves stays in place and
some segment is left of a path that has one. All segments that are no rapid moves are left in their
order. -/
theorem trace_dropIdleRapids_iff {α : Type} [DecidableEq α] (place : Point → α)
    {segments : List Segment} (connected : Connected place segments) :
    (trace place (dropIdleRapids segments) = trace place segments ∧
        Connected place (dropIdleRapids segments) ∧
          (dropIdleRapids segments).getLast?.map (place ·.finish) =
            segments.getLast?.map (place ·.finish) ↔
      (∀ segment ∈ segments, segment.isIdleRapid = true →
        place segment.start = place segment.finish) ∧
          (dropIdleRapids segments = [] → segments = [])) ∧
      (dropIdleRapids segments).filter (·.motion ≠ .rapid) =
        segments.filter (·.motion ≠ .rapid) := by
  refine ⟨?_, filter_dropIdleRapids segments⟩
  obtain ⟨here, there, leads⟩ := connected_iff_leads.mp connected
  by_cases empty : segments = []
  · subst empty
    simp [dropIdleRapids, Connected]
  constructor
  · rintro ⟨same, whole, -⟩
    obtain ⟨first, last, left⟩ := connected_iff_leads.mp whole
    rw [leads.trace_eq empty] at same
    have remains : dropIdleRapids segments ≠ [] := by
      intro gone
      rw [gone] at same
      exact visits_ne_nil same.symm
    rw [left.trace_eq remains] at same
    have again : first = here := by
      have heads := congrArg List.head? same
      rw [head?_visits, head?_visits] at heads
      exact Option.some.inj heads
    subst again
    exact ⟨leads.stays_of_visits_eq left same, fun gone => absurd gone remains⟩
  · rintro ⟨stays, remains⟩
    have remains : dropIdleRapids segments ≠ [] := fun gone => empty (remains gone)
    have left := leads.leads_dropIdleRapids stays
    refine ⟨?_, connected_iff_leads.mpr ⟨here, there, left⟩, ?_⟩
    · rw [left.trace_eq remains, leads.trace_eq empty, leads.visits_dropIdleRapids stays]
    · rw [left.finish_eq remains, leads.finish_eq empty]

/-- A straight move along X. -/
def moveAlongX (motion : Motion) (start finish : Float) : Segment :=
  { motion := motion, start := ⟨start, 0, 0⟩, finish := ⟨finish, 0, 0⟩ }

/-- A rapid move to the point where the tool is leaves no mark in the trace. -/
theorem trace_without_still_rapid :
    let path := [moveAlongX .linear 0 1, moveAlongX .rapid 1 1, moveAlongX .linear 1 2]
    dropIdleRapids path = [moveAlongX .linear 0 1, moveAlongX .linear 1 2] ∧
      Connected id path ∧ trace id (dropIdleRapids path) = trace id path := by
  intro path
  have dropped : dropIdleRapids path = [moveAlongX .linear 0 1, moveAlongX .linear 1 2] := by
    decide +kernel
  have connected : Connected id path := by decide +kernel
  have stays : ∀ segment ∈ path, segment.isIdleRapid = true →
      id segment.start = id segment.finish := by decide +kernel
  have remains : dropIdleRapids path = [] → path = [] := by decide +kernel
  have kept := (trace_dropIdleRapids_iff id connected).1.mpr ⟨stays, remains⟩
  exact ⟨dropped, connected, kept.1⟩

/-- A rapid move over less than the tolerance is dropped, and the point that it leads to is missing
from the trace: the path is broken there. -/
theorem trace_without_short_rapid :
    let path :=
      [moveAlongX .linear 0 1, moveAlongX .rapid 1 1.00005, moveAlongX .linear 1.00005 2]
    Connected id path ∧ ¬ Connected id (dropIdleRapids path) ∧
      trace id path = [⟨0, 0, 0⟩, ⟨1, 0, 0⟩, ⟨1.00005, 0, 0⟩, ⟨2, 0, 0⟩] ∧
        trace id (dropIdleRapids path) = [⟨0, 0, 0⟩, ⟨1, 0, 0⟩, ⟨2, 0, 0⟩] := by
  decide +kernel

end GcodeSender
