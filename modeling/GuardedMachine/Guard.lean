import GuardedMachine.Store

/-!
# Guards

A `Guard` compares the current value of one variable with a literal.  Checking a guard reads the
store and nothing else, so a guard on a name the store does not hold compares `0`.
-/

set_option autoImplicit false

namespace GuardedMachine

/-- How a value is compared with the literal of a guard. -/
inductive Comparison where
  | equals
  | greaterThan
  | lessThan
deriving DecidableEq, Repr

namespace Comparison

/-- The comparison as a relation between a value and the literal it is compared with. -/
def Holds : Comparison → Int64 → Int64 → Prop
  | equals, a, b => a = b
  | greaterThan, a, b => b < a
  | lessThan, a, b => a < b

instance : ∀ (c : Comparison) (a b : Int64), Decidable (c.Holds a b)
  | equals, a, b => inferInstanceAs (Decidable (a = b))
  | greaterThan, a, b => inferInstanceAs (Decidable (b < a))
  | lessThan, a, b => inferInstanceAs (Decidable (a < b))

/-- The sign a comparison is written with. -/
def sign : Comparison → String
  | equals => "=="
  | greaterThan => ">"
  | lessThan => "<"

end Comparison

/-- A condition on one variable. -/
structure Guard where
  /-- The variable that is inspected. -/
  var : String
  comparison : Comparison
  /-- What the variable is compared with. -/
  literal : Int64
deriving DecidableEq, Repr

namespace Guard

/-- The guard holds in a store when the comparison holds of the variable's value there. -/
def Holds (g : Guard) (σ : Store) : Prop := g.comparison.Holds (σ.read g.var) g.literal

instance (g : Guard) (σ : Store) : Decidable (g.Holds σ) :=
  inferInstanceAs (Decidable (g.comparison.Holds _ _))

/-- The written form: variable, sign and literal, separated by single spaces. -/
def text (g : Guard) : String :=
  g.var ++ " " ++ g.comparison.sign ++ " " ++ toString g.literal.toInt

/-- A guard sees only the value of its variable. -/
theorem holds_congr {g : Guard} {σ τ : Store} (h : σ.read g.var = τ.read g.var) :
    g.Holds σ ↔ g.Holds τ := by
  rw [Holds, Holds, h]

end Guard

end GuardedMachine
