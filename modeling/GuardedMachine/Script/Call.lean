import GuardedMachine.Guard
import GuardedMachine.Update

/-!
# Scripts

A script describes a machine in narrative order.  It is a list of calls: some declare a state, a
variable or a transition, and the others configure the state or the transition declared last.
Transitions name their targets, and a target may be declared later in the script.
-/

set_option autoImplicit false

namespace GuardedMachine

/-- One sentence of a script. -/
inductive Call where
  /-- Declares a state. -/
  | state (name : String)
  /-- Makes the state declared last the one to start in. -/
  | initial
  /-- Declares a variable, with value `0`. -/
  | integer (var : String)
  /-- Gives the state declared last a transition on an event. -/
  | when (event : String)
  /-- Points the transition declared last at the state of this name. -/
  | goto (target : String)
  /-- Gives the transition declared last an update. -/
  | update (u : Update)
  /-- Gives the transition declared last a guard. -/
  | guard (g : Guard)
deriving DecidableEq

/-- A description of a machine, in narrative order. -/
abbrev Script := List Call

/-- The word a change is called by. -/
def Change.keyword : Change → String
  | assign _ => "set"
  | increment => "increment"
  | decrement => "decrement"

/-- The word a comparison is called by. -/
def Comparison.keyword : Comparison → String
  | equals => "if_equals"
  | greaterThan => "if_greater_than"
  | lessThan => "if_less_than"

/-- The word a call is made by. -/
def Call.keyword : Call → String
  | state _ => "state"
  | initial => "initial"
  | integer _ => "integer"
  | when _ => "when"
  | goto _ => "to"
  | update u => u.change.keyword
  | guard g => g.comparison.keyword

end GuardedMachine
