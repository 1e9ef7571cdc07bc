import GuardedMachine.Guard
import GuardedMachine.Update

/-!
# States and their transitions

A `Transition` waits for an event; it may carry a guard, which has to hold for it to fire, and an
update, which is applied when it fires.  A `State` lists its transitions, and the order of the list
matters: of the transitions for an event, the first enabled one is selected.

Both types leave the type of targets open.  While a machine is being described, a target is a name
that may not have been given yet; in a finished graph it is the position of a state.

`State.select?_eq_some_iff` and `State.select?_eq_none_iff` say what selection does: the selected
transition is enabled and every earlier candidate is not, and nothing is selected exactly when no
candidate is enabled.
-/

set_option autoImplicit false

namespace GuardedMachine

/-- An edge for one event, with an optional guard and an optional update. -/
structure Transition (τ : Type) where
  event : String
  target : τ
  update : Option Update := none
  guard : Option Guard := none
deriving DecidableEq

namespace Transition

variable {τ : Type}

/-- A transition is enabled in a store unless it has a guard that fails there. -/
def Enabled (t : Transition τ) (σ : Store) : Prop := ∀ g ∈ t.guard, g.Holds σ

instance (t : Transition τ) (σ : Store) : Decidable (t.Enabled σ) :=
  match h : t.guard with
  | none => isTrue fun g hg => by simp [h] at hg
  | some g => decidable_of_iff (g.Holds σ) (by simp [Enabled, h])

/-- The store after the transition has fired. -/
def apply (t : Transition τ) (σ : Store) : Store :=
  match t.update with
  | none => σ
  | some u => u.apply σ

/-- Enabledness depends only on the value of the guarded variable. -/
theorem enabled_congr {t : Transition τ} {σ ρ : Store}
    (h : ∀ g ∈ t.guard, σ.read g.var = ρ.read g.var) : t.Enabled σ ↔ t.Enabled ρ :=
  ⟨fun ht g hg => (Guard.holds_congr (h g hg)).1 (ht g hg),
    fun ht g hg => (Guard.holds_congr (h g hg)).2 (ht g hg)⟩

end Transition

/-- A named state with its outgoing transitions, in order. -/
structure State (τ : Type) where
  name : String
  transitions : List (Transition τ) := []
deriving DecidableEq

namespace State

variable {τ : Type}

/-- The transitions for an event, in order. -/
def candidates (s : State τ) (e : String) : List (Transition τ) :=
  s.transitions.filter fun t => t.event = e

/-- The first transition for an event, whether or not it is enabled. -/
def firstCandidate? (s : State τ) (e : String) : Option (Transition τ) :=
  (s.candidates e).head?

/-- The transition that fires on an event: the first candidate that is enabled. -/
def select? (s : State τ) (e : String) (σ : Store) : Option (Transition τ) :=
  (s.candidates e).find? fun t => t.Enabled σ

/-- A state without transitions can never be left. -/
def isFinal (s : State τ) : Bool := s.transitions.isEmpty

variable {s : State τ} {e : String} {σ : Store} {t : Transition τ}

theorem mem_candidates : t ∈ s.candidates e ↔ t ∈ s.transitions ∧ t.event = e := by
  simp [candidates]

theorem select?_eq_some_iff :
    s.select? e σ = some t ↔
      t.Enabled σ ∧ ∃ before after, s.candidates e = before ++ t :: after ∧
        ∀ u ∈ before, ¬ u.Enabled σ := by
  simp [select?, List.find?_eq_some_iff_append]

theorem select?_eq_none_iff : s.select? e σ = none ↔ ∀ u ∈ s.candidates e, ¬ u.Enabled σ := by
  simp [select?]

theorem mem_candidates_of_select? (h : s.select? e σ = some t) : t ∈ s.candidates e :=
  List.mem_of_find?_eq_some h

theorem enabled_of_select? (h : s.select? e σ = some t) : t.Enabled σ :=
  (select?_eq_some_iff.1 h).1

end State

end GuardedMachine
