import Mathlib.Data.List.Chain
import GcodeSender.Toolpath.Segment

/-!
# Connected paths

A path is connected if each segment starts at the place where the one before it ends. Which points
are one place is left to a reading of points (`place`): the points themselves, or points without
the signs of their zeros. Connected segments lead from one place to another (`Segment.Leads`), and
this form of the property composes: paths that meet make one path.
-/
namespace GcodeSender

namespace Segment

variable {α : Type} {place : Point → α} {here between there : α} {segment : Segment}
  {segments others front back : List Segment}

/-- Each segment starts at the place where the one before it ends. -/
def Connected (place : Point → α) (segments : List Segment) : Prop :=
  segments.IsChain fun segment next => place segment.finish = place next.start

instance [DecidableEq α] (place : Point → α) : DecidablePred (Connected place) :=
  fun segments => inferInstanceAs (Decidable (segments.IsChain _))

/-- Segments lead from one place to another. -/
inductive Leads (place : Point → α) : α → List Segment → α → Prop where
  /-- No segment leads nowhere else. -/
  | nil (here : α) : Leads place here [] here
  /-- A segment leads to the place where the others go on. -/
  | cons {here there : α} {segment : Segment} {others : List Segment}
    (starts : place segment.start = here)
    (rest : Leads place (place segment.finish) others there) :
    Leads place here (segment :: others) there

/-- No segment leads to the place where it starts. -/
@[simp] theorem leads_nil : Leads place here [] there ↔ here = there := by
  constructor
  · rintro ⟨⟩
    rfl
  · rintro rfl
    exact .nil here

/-- A segment leads on from its end. -/
@[simp] theorem leads_cons :
    Leads place here (segment :: others) there ↔
      place segment.start = here ∧ Leads place (place segment.finish) others there := by
  constructor
  · rintro (_ | ⟨starts, rest⟩)
    exact ⟨starts, rest⟩
  · rintro ⟨starts, rest⟩
    exact .cons starts rest

/-- Two paths make one exactly if they meet in a place. -/
theorem leads_append :
    Leads place here (front ++ back) there ↔
      ∃ between, Leads place here front between ∧ Leads place between back there := by
  induction front generalizing here with
  | nil => simp
  | cons first others ih =>
    rw [List.cons_append, leads_cons, ih]
    simp only [leads_cons, exists_and_left, and_assoc]

/-- Points that are one place are one place under a coarser reading too. -/
theorem Leads.coarser {β : Type} (leads : Leads place here segments there) (merge : α → β) :
    Leads (fun point => merge (place point)) (merge here) segments (merge there) := by
  induction leads with
  | nil here => exact .nil _
  | cons starts rest ih => exact .cons (congrArg merge starts) ih

/-- A path leads from its first start. -/
theorem Leads.start_eq (leads : Leads place here segments there) (nonempty : segments ≠ []) :
    segments.head?.map (place ·.start) = some here := by
  cases leads with
  | nil => exact absurd rfl nonempty
  | cons starts rest => simp [starts]

/-- A path leads to its last end. -/
theorem Leads.finish_eq (leads : Leads place here segments there) (nonempty : segments ≠ []) :
    segments.getLast?.map (place ·.finish) = some there := by
  induction leads with
  | nil => exact absurd rfl nonempty
  | @cons here there segment others starts rest ih =>
    cases others with
    | nil =>
      cases rest
      rfl
    | cons next others =>
      rw [List.getLast?_cons_cons]
      exact ih (by simp)

/-- Segments are connected exactly if they lead from some place to some place. -/
theorem connected_iff_leads :
    Connected place segments ↔ ∃ here there, Leads place here segments there := by
  induction segments with
  | nil =>
    refine iff_of_true List.IsChain.nil ?_
    exact ⟨place .origin, place .origin, .nil _⟩
  | cons segment others ih =>
    rw [Connected, List.isChain_cons]
    constructor
    · rintro ⟨meets, rest⟩
      obtain ⟨here, there, leads⟩ := ih.mp rest
      cases leads with
      | nil => exact ⟨_, _, .cons rfl (.nil _)⟩
      | cons starts more =>
        have meets := meets _ rfl
        exact ⟨_, there, .cons rfl (.cons meets.symm more)⟩
    · rintro ⟨here, there, leads⟩
      obtain ⟨-, rest⟩ := leads_cons.mp leads
      refine ⟨fun next first => ?_, ih.mpr ⟨_, there, rest⟩⟩
      cases rest with
      | nil => cases first
      | cons starts more =>
        cases first
        exact starts.symm

end Segment

end GcodeSender
