import GuardedMachine.Script.Call
import GuardedMachine.Graph

/-!
# Writing a machine down as a script

The listing of a machine is a script made from what can be seen of the machine: its variables, and
then its states with their transitions, in order.  A target is written as the name of the state at
its position, so a listing is faithful to machines whose transitions point at first bearers of
names.
-/

set_option autoImplicit false

namespace GuardedMachine

/-- The calls that describe a transition, in a list of states that its target is a position of. -/
def Transition.listing (states : List (State StateId)) (t : Transition StateId) : Script :=
  .when t.event :: (states[t.target]?.map fun s => Call.goto s.name).toList ++
    (t.update.map Call.update).toList ++ (t.guard.map Call.guard).toList

/-- The calls that describe the state in place `i`. -/
def State.listing (g : Graph) (i : StateId) (s : State StateId) : Script :=
  .state s.name :: (if g.initial = some i then [.initial] else []) ++
    s.transitions.flatMap (Transition.listing g.states)

/-- A script for the machine. -/
def Machine.listing (m : Machine) : Script :=
  m.store.names.map Call.integer ++
    m.states.zipIdx.flatMap fun p => p.1.listing m.toGraph p.2

end GuardedMachine
