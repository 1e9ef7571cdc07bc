/-!
# Moves

A `Move` records that an event took a machine from one state to another, both by name, and a
`StampedMove` also records when it did.  The path of a list of moves starts where the first one
starts and goes through all their targets; it is a walk without gaps when each move starts where the
one before it ended.
-/

set_option autoImplicit false

namespace GuardedMachine

/-- One step of a machine from state to state. -/
structure Move where
  /-- The event that caused the step. -/
  event : String
  /-- The name of the state that was left. -/
  source : String
  /-- The name of the state that was entered. -/
  target : String
deriving DecidableEq

/-- A move and the instant at which it happened. -/
structure StampedMove (T : Type) extends Move where
  time : T
deriving DecidableEq

/-- The names of the states that the moves go through, and nothing if there are no moves. -/
def Move.path : List Move → List String
  | [] => []
  | m :: ms => m.source :: (m :: ms).map (·.target)

theorem Move.length_path_of_ne_nil {ms : List Move} (h : ms ≠ []) :
    (Move.path ms).length = ms.length + 1 := by
  cases ms with
  | nil => exact absurd rfl h
  | cons m ms => simp [Move.path]

/-- The path ends where the last move ends. -/
theorem Move.getLast?_path {ms : List Move} :
    (Move.path ms).getLast? = ms.getLast?.map (·.target) := by
  cases ms with
  | nil => rfl
  | cons m ms =>
    rw [Move.path, List.getLast?_cons, List.getLast?_map, List.getLast?_cons]
    rfl

end GuardedMachine
