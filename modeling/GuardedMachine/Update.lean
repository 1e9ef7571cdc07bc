import GuardedMachine.Store

/-!
# Updates

An `Update` changes the value of one variable: it assigns a literal, adds one or subtracts one.
Addition and subtraction are those of 64-bit words and wrap around, so every update is defined in
every store.
-/

set_option autoImplicit false

namespace GuardedMachine

/-- A change of a single value. -/
inductive Change where
  | assign (value : Int64)
  | increment
  | decrement
deriving DecidableEq, Repr

/-- The value a change makes of `v`. -/
def Change.eval : Change → Int64 → Int64
  | assign value, _ => value
  | increment, v => v + 1
  | decrement, v => v - 1

/-- A change applied to one variable of a store. -/
structure Update where
  /-- The variable that is written. -/
  var : String
  change : Change
deriving DecidableEq, Repr

namespace Update

/-- The value the update writes: its change, evaluated on the variable's current value. -/
def written (u : Update) (σ : Store) : Int64 := u.change.eval (σ.read u.var)

/-- The store after the update. -/
def apply (u : Update) (σ : Store) : Store := σ.write u.var (u.written σ)

/-- The written form: an assignment with an equals sign, the other two with a doubled sign. -/
def text (u : Update) : String :=
  match u.change with
  | .assign value => u.var ++ " = " ++ toString value.toInt
  | .increment => u.var ++ "++"
  | .decrement => u.var ++ "--"

variable {u : Update} {σ : Store} {x : String}

theorem mem_apply : x ∈ u.apply σ ↔ u.var = x ∨ x ∈ σ := Store.mem_write

theorem read_apply : (u.apply σ).read x = if u.var = x then u.written σ else σ.read x :=
  Store.read_write

end Update

end GuardedMachine
