/-!
# The journal

While a machine is built and run, `Entry` values tell what happened, in order.  Each has a level, a
fixed message and named fields; everything that varies is in the fields.
-/

set_option autoImplicit false

namespace GuardedMachine

/-- How much attention an entry asks for. -/
inductive Level where
  | warn
  | debug
  | trace
deriving DecidableEq, Repr

/-- What a named field of an entry holds. -/
inductive Field where
  | text (s : String)
  | number (n : Int)
  | flag (b : Bool)
deriving DecidableEq, Repr

/-- Something worth reporting. -/
inductive Entry where
  /-- A state was declared under a name that an earlier state already has. -/
  | duplicateState (name : String)
  /-- A machine was built, with so many states and a store of this size. -/
  | built (states size : Nat) (hasInitial : Bool)
  /-- A run was started in the state of this name. -/
  | bound (initial : String)
  /-- An event found no enabled transition. -/
  | ignored (event state : String)
  /-- An update changed a variable. -/
  | applied (var : String) (old new : Int64)
  /-- A transition fired. -/
  | fired (event source target : String)
deriving DecidableEq

namespace Entry

/-- How much attention each kind of entry asks for. -/
def level : Entry → Level
  | duplicateState _ => .warn
  | built .. | bound _ | applied .. | fired .. => .debug
  | ignored .. => .trace

/-- The kind of the entry in words. -/
def message : Entry → String
  | duplicateState _ => "Duplicate state name; lookups resolve to the first declaration"
  | built .. => "Built state graph"
  | bound _ => "Interpreter bound"
  | ignored .. => "Event ignored"
  | applied .. => "Operation applied"
  | fired .. => "Transition fired"

/-- What varies from one entry of a kind to the next. -/
def fields : Entry → List (String × Field)
  | duplicateState name => [("state", .text name)]
  | built states size hasInitial =>
    [("states", .number states), ("variables", .number size),
      ("has_initial", .flag hasInitial)]
  | bound initial => [("initial", .text initial)]
  | ignored event state => [("event", .text event), ("state", .text state)]
  | applied var old new =>
    [("variable", .text var), ("old", .number old.toInt), ("new", .number new.toInt)]
  | fired event source target =>
    [("event", .text event), ("from", .text source), ("to", .text target)]

end Entry

end GuardedMachine
