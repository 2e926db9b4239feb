/-!
# Notes taken along a run

A run makes moves one after the other, each from the state that the one before led to. What is
noted at each move of a run, read off the state before it and the move, is collected in order.
-/
namespace GcodeSender

variable {State Move Note : Type} (move : State → Move → State) (noted : State → Move → List Note)

/-- What is noted at each move of a run from a state, in order. -/
def collect (state : State) : List Move → List Note
  | [] => []
  | made :: others => noted state made ++ collect (move state made) others

/-- What is noted in the second part of a run is noted from the state that the first leads to. -/
theorem collect_append (state : State) (first others : List Move) :
    collect move noted state (first ++ others) =
      collect move noted state first ++ collect move noted (first.foldl move state) others := by
  induction first generalizing state with
  | nil => rfl
  | cons made first ih => simp only [List.cons_append, collect, ih, List.append_assoc, List.foldl]

/-- What is noted at one more move comes last. -/
theorem collect_append_singleton (state : State) (moves : List Move) (last : Move) :
    collect move noted state (moves ++ [last]) =
      collect move noted state moves ++ noted (moves.foldl move state) last := by
  rw [collect_append, collect, collect, List.append_nil]

end GcodeSender
