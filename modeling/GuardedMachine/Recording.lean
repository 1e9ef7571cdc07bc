import GuardedMachine.History
import Mathlib.Data.List.DropRight

/-!
# Histories on their own

A history that belongs to no run is asked to record entries and to change its limit.  A `Request` is
one of the two, and `History.made` is what a new history becomes by any number of them.

A `Tally` counts the entries that are kept without keeping any: one more with each that is recorded
but never more than the limit, fewer when the limit is lowered, and never more because it is raised.
-/

set_option autoImplicit false

namespace GuardedMachine

/-- What can be asked of a history. -/
inductive Request (α : Type) where
  /-- Records an entry. -/
  | record (a : α)
  /-- Changes the limit, or takes it away. -/
  | limit (limit : Option Nat)
deriving DecidableEq

/-- The entry that is to be recorded. -/
def Request.entry? {α : Type} : Request α → Option α
  | record a => some a
  | limit _ => none

/-- The entries that were ever to be recorded, in order. -/
def requested {α : Type} (xs : List (Request α)) : List α := xs.filterMap Request.entry?

/-- The history after a request. -/
def History.carryOut {α : Type} (h : History α) : Request α → History α
  | .record a => h.record a
  | .limit limit => h.setLimit limit

/-- What becomes of a new history that has a limit or none. -/
def History.made {α : Type} (limit : Option Nat) (xs : List (Request α)) : History α :=
  xs.foldl carryOut { limit }

/-- A number, or the limit if there is one that is smaller. -/
def atMost (limit : Option Nat) (k : Nat) : Nat :=
  match limit with
  | none => k
  | some n => min n k

/-- How many entries may be kept, and how many are. -/
structure Tally where
  limit : Option Nat
  kept : Nat := 0
deriving DecidableEq

/-- The count after a request. -/
def Tally.note {α : Type} (t : Tally) : Request α → Tally
  | .record _ => { t with kept := atMost t.limit (t.kept + 1) }
  | .limit limit => ⟨limit, atMost limit t.kept⟩

/-- The count after any number of requests to a new history. -/
def tally {α : Type} (limit : Option Nat) (xs : List (Request α)) : Tally :=
  xs.foldl Tally.note { limit }

section AtMost

variable {limit : Option Nat} {k : Nat}

theorem atMost_le : atMost limit k ≤ k := by
  cases limit with
  | none => exact Nat.le_refl k
  | some n => exact Nat.min_le_right n k

theorem atMost_le_limit : ∀ n ∈ limit, atMost limit k ≤ n := by
  rintro n ⟨⟩
  exact Nat.min_le_left n k

/-- To retain something of the last elements is to have fewer of them, or as many. -/
theorem retain_rtake {α : Type} {l : List α} :
    retain limit (l.rtake k) = l.rtake (atMost limit k) := by
  cases limit with
  | none => rfl
  | some n =>
    rw [atMost, Nat.min_comm]
    exact retain_retain

end AtMost

end GuardedMachine
