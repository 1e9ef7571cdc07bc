/-!
# What can be wrong with a script

A call may come where it has nothing to configure, and a transition may be left without a target or
with a target that no state bears.  All such faults of a script are reported together.
-/

set_option autoImplicit false

namespace GuardedMachine

/-- A single fault of a script. -/
inductive Fault where
  /-- No state bears the name the transition points at. -/
  | undeclaredTarget (state event target : String)
  /-- The transition was never given a target. -/
  | missingTarget (state event : String)
  /-- The call needs a state, and none was declared before it. -/
  | noCurrentState (call : String)
  /-- The call needs a transition, and the latest state had none yet. -/
  | noCurrentTransition (call : String)
deriving DecidableEq, Repr

namespace Fault

/-- The fault in words, with the names put in as they are. -/
def message : Fault → String
  | undeclaredTarget state event target =>
    "Transition on '" ++ event ++ "' from state '" ++ state ++ "' targets undeclared state '" ++
      target ++ "'"
  | missingTarget state event =>
    "Transition on '" ++ event ++ "' from state '" ++ state ++
      "' has no target. Call .to(state) after .when(event)"
  | noCurrentState call =>
    "'" ++ call ++ "' called before any state was declared. Call .state(name) first"
  | noCurrentTransition call =>
    "'" ++ call ++ "' called before any transition was declared. Call .when(event) first"

/-- All the faults of a script in one line. -/
def summary (es : List Fault) : String :=
  "Graph build failed with " ++ toString es.length ++ " error(s): " ++
    "; ".intercalate (es.map message)

end Fault

end GuardedMachine
