import GuardedMachine.Graph
import GuardedMachine.Journal
import GuardedMachine.Script.Fault
import GuardedMachine.Script.Call
import Std.Data.ExtTreeSet

/-!
# Reading a script

A `Reading` is what has been understood of a script so far.  Its states are drafts, in which targets
are still names or missing, and its cursor stands at the state or the transition that the next call
configures.  A call with nothing to configure changes nothing else; it is noted as a misuse, and
reading goes on.
-/

set_option autoImplicit false

namespace GuardedMachine

/-- A transition whose target is a name, if it was given one. -/
abbrev DraftTransition := Transition (Option String)

/-- A state of which the transitions are drafts. -/
abbrev DraftState := State (Option String)

/-- Where the next call of a script applies. -/
inductive Cursor where
  /-- Before the first state. -/
  | start
  /-- At a state that has no transition yet. -/
  | state (i : StateId)
  /-- At the transition in place `j` of a state. -/
  | transition (i : StateId) (j : Nat)
deriving DecidableEq, Repr

namespace Cursor

/-- The state the cursor is at. -/
def state? : Cursor → Option StateId
  | start => none
  | state i => some i
  | transition i _ => some i

/-- The state and the place of the transition the cursor is at. -/
def transition? : Cursor → Option (StateId × Nat)
  | transition i j => some (i, j)
  | start | state _ => none

end Cursor

/-- What has been understood of a script so far. -/
structure Reading where
  states : List DraftState := []
  /-- The names that have been given to states. -/
  seen : Std.ExtTreeSet String := ∅
  cursor : Cursor := .start
  /-- The state marked last as the one to start in. -/
  initial : Option StateId := none
  store : Store := ∅
  /-- The calls that had nothing to configure, in order. -/
  misuses : List Fault := []
  journal : List Entry := []
deriving DecidableEq

namespace Reading

/-- Notes a misuse and changes nothing else. -/
def misuse (r : Reading) (e : Fault) : Reading := { r with misuses := r.misuses ++ [e] }

/-- Appends a state and moves the cursor to it.  A name that is already taken is reported. -/
def addState (r : Reading) (name : String) : Reading :=
  { r with
    states := r.states ++ [{ name }]
    seen := r.seen.insert name
    cursor := .state r.states.length
    journal := if name ∈ r.seen then r.journal ++ [.duplicateState name] else r.journal }

/-- Appends a transition without a target to state `i` and moves the cursor to the last transition
that this state then has. -/
def addTransition (r : Reading) (i : StateId) (event : String) : Reading :=
  let states := r.states.modify i fun s =>
    { s with transitions := s.transitions ++ [{ event, target := none }] }
  let added := (states[i]?.map (·.transitions)).getD []
  { r with states, cursor := .transition i (added.length - 1) }

/-- Changes the transition in place `j` of state `i`. -/
def modifyTransition (r : Reading) (i : StateId) (j : Nat)
    (f : DraftTransition → DraftTransition) : Reading :=
  { r with
    states := r.states.modify i fun s => { s with transitions := s.transitions.modify j f } }

/-- Applies `f` to the state the cursor is at, on behalf of the call `c`. -/
def atState (r : Reading) (c : Call) (f : StateId → Reading) : Reading :=
  match r.cursor.state? with
  | some i => f i
  | none => r.misuse (.noCurrentState c.keyword)

/-- Applies `f` to the transition the cursor is at, on behalf of the call `c`. -/
def atTransition (r : Reading) (c : Call) (f : DraftTransition → DraftTransition) : Reading :=
  match r.cursor.transition? with
  | some (i, j) => r.modifyTransition i j f
  | none => r.misuse (.noCurrentTransition c.keyword)

/-- What has been understood after one more call. -/
def extend (r : Reading) (c : Call) : Reading :=
  match c with
  | .state name => r.addState name
  | .initial => r.atState c fun i => { r with initial := some i }
  | .integer x => { r with store := r.store.declare x }
  | .when event => r.atState c fun i => r.addTransition i event
  | .goto target => r.atTransition c fun t => { t with target := some target }
  | .update u => r.atTransition c fun t => { t with update := some u }
  | .guard g => r.atTransition c fun t => { t with guard := some g }

end Reading

/-- What is understood of a whole script. -/
def Script.read (script : Script) : Reading := script.foldl Reading.extend {}

@[simp] theorem Script.read_nil : Script.read [] = {} := rfl

/-- Reading goes call by call. -/
theorem Script.read_concat (script : Script) (c : Call) :
    Script.read (script ++ [c]) = (Script.read script).extend c := by
  simp [Script.read]

end GuardedMachine
