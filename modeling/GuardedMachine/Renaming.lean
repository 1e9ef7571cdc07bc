import GuardedMachine.Script.Fault
import GuardedMachine.Script.Call
import GuardedMachine.Session

/-!
# Renaming

A `Renaming` gives new names to states, events and variables, and acts on everything that holds such
names.  Names are compared and nothing else is done with them, so a renaming that keeps different
names apart changes nothing but the names.
-/

set_option autoImplicit false

namespace GuardedMachine

/-- New names for states, events and variables. -/
structure Renaming where
  state : String → String
  event : String → String
  var : String → String

namespace Renaming

/-- Different names stay different. -/
structure Faithful (f : Renaming) : Prop where
  state_inj : ∀ a b, f.state a = f.state b → a = b
  event_inj : ∀ a b, f.event a = f.event b → a = b
  var_inj : ∀ a b, f.var a = f.var b → a = b

variable (f : Renaming)

/-! ## Renaming what a machine is made of -/

/-- The same comparison of the renamed variable. -/
def guard (g : Guard) : Guard := { g with var := f.var g.var }

/-- The same change of the renamed variable. -/
def update (u : Update) : Update := { u with var := f.var u.var }

/-- The same transition for the renamed event; its target is a position and stays. -/
def transition (t : Transition StateId) : Transition StateId where
  event := f.event t.event
  target := t.target
  update := t.update.map f.update
  guard := t.guard.map f.guard

/-- The store that holds the new names with the values of the old ones. -/
def store (σ : Store) : Store := σ.toList.foldl (fun ρ p => ρ.write (f.var p.1) p.2) ∅

/-- The same graph with renamed states. -/
def graph (g : Graph) : Graph where
  states := g.states.map fun s => ⟨f.state s.name, s.transitions.map f.transition⟩
  initial := g.initial

/-- The same machine under new names. -/
def machine (m : Machine) : Machine := { f.graph m.toGraph with store := f.store m.store }

/-! ## Renaming scripts and their faults -/

/-- The same call for the renamed thing. -/
def call : Call → Call
  | .state name => .state (f.state name)
  | .initial => .initial
  | .integer x => .integer (f.var x)
  | .when e => .when (f.event e)
  | .goto target => .goto (f.state target)
  | .update u => .update (f.update u)
  | .guard g => .guard (f.guard g)

/-- The script call by call. -/
def script (s : Script) : Script := s.map f.call

/-- The same fault; the words that calls are made by are no names. -/
def fault : Fault → Fault
  | .undeclaredTarget state event target =>
    .undeclaredTarget (f.state state) (f.event event) (f.state target)
  | .missingTarget state event => .missingTarget (f.state state) (f.event event)
  | .noCurrentState call => .noCurrentState call
  | .noCurrentTransition call => .noCurrentTransition call

/-! ## Renaming runs -/

variable {T : Type}

/-- The same move under new names. -/
def move (m : Move) : Move := ⟨f.event m.event, f.state m.source, f.state m.target⟩

/-- The same move at the same instant under new names. -/
def stampedMove (m : StampedMove T) : StampedMove T := ⟨f.move m.toMove, m.time⟩

/-- The run at the same place with its moves renamed. -/
def run (r : Run T) : Run T :=
  { r with history := ⟨r.history.entries.map f.stampedMove, r.history.limit⟩ }

/-- The same session of the renamed machine. -/
def session (s : Session T) : Session T := ⟨f.machine s.machine, s.run.map f.run⟩

/-- The same event, at the same instant, under its new name. -/
def occurrence (o : Occurrence T) : Occurrence T := { o with event := f.event o.event }

/-- The same step; only events have names. -/
def step : Step T → Step T
  | .dispatch o => .dispatch (f.occurrence o)
  | .bind => .bind
  | .unbind => .unbind
  | .reset => .reset
  | .limit n => .limit n

/-- The same report under new names. -/
def entry : Entry → Entry
  | .duplicateState name => .duplicateState (f.state name)
  | .built states size hasInitial => .built states size hasInitial
  | .bound initial => .bound (f.state initial)
  | .ignored e state => .ignored (f.event e) (f.state state)
  | .applied x old new => .applied (f.var x) old new
  | .fired e source target => .fired (f.event e) (f.state source) (f.state target)

/-- The same response; replies speak of positions and stay. -/
def response (r : Response T) : Response T :=
  ⟨f.session r.session, r.reply, r.journal.map f.entry⟩

end Renaming

end GuardedMachine
