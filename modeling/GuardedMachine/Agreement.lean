import GuardedMachine.Graph
import Mathlib.Data.List.Find

/-!
# Stores that agree

What a graph can find out about a store is what its guards inspect (`Graph.inspected`).  Two stores
that read the same on those variables have the same transitions selected in every state
(`State.select?_congr`).

Updates do not spoil agreement: on whatever variables two stores agree, they go on to do so when the
same update is applied to both (`Store.AgreeOn.update`), since an update reads only the variable
that it writes.  It need not be known whether the variables are held.
-/

set_option autoImplicit false

namespace GuardedMachine

/-- The stores read the same on all variables that satisfy `P`. -/
def Store.AgreeOn (P : String → Prop) (σ τ : Store) : Prop := ∀ x, P x → σ.read x = τ.read x

/-- The variables that the guards of a state inspect. -/
def State.inspected {τ : Type} (s : State τ) : List String :=
  s.transitions.filterMap fun t => t.guard.map (·.var)

/-- The variables that the guards of a graph inspect. -/
def Graph.inspected (g : Graph) : List String := g.states.flatMap State.inspected

section

variable {τ : Type} {P : String → Prop} {σ ρ : Store} {x : String}

theorem State.mem_inspected {s : State τ} :
    x ∈ s.inspected ↔ ∃ t ∈ s.transitions, ∃ c ∈ t.guard, c.var = x := by
  simp [inspected]

theorem Graph.mem_inspected {g : Graph} : x ∈ g.inspected ↔ ∃ s ∈ g.states, x ∈ s.inspected :=
  List.mem_flatMap

/-- Selection sees what the guards of the state inspect, and nothing else. -/
theorem State.select?_congr {s : State τ} (h : σ.AgreeOn (· ∈ s.inspected) ρ) (event : String) :
    s.select? event σ = s.select? event ρ := by
  refine List.find?_congr fun t ht => ?_
  have hmem : t ∈ s.transitions := (State.mem_candidates.1 ht).1
  have henabled : t.Enabled σ ↔ t.Enabled ρ :=
    Transition.enabled_congr fun c hc => h c.var (State.mem_inspected.2 ⟨t, hmem, c, hc, rfl⟩)
  simp only [henabled]

theorem Store.AgreeOn.update (h : σ.AgreeOn P ρ) (u : Update) :
    (u.apply σ).AgreeOn P (u.apply ρ) := by
  intro x hx
  rw [Update.read_apply, Update.read_apply]
  split
  · rename_i heq
    rw [Update.written, Update.written, heq, h x hx]
  · exact h x hx

theorem Store.AgreeOn.transition (h : σ.AgreeOn P ρ) (t : Transition τ) :
    (t.apply σ).AgreeOn P (t.apply ρ) := by
  rw [Transition.apply, Transition.apply]
  cases t.update with
  | none => exact h
  | some u => exact h.update u

end

end GuardedMachine
