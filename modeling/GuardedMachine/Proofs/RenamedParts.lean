import GuardedMachine.Renaming
import Mathlib.Data.List.Induction
import Mathlib.Data.List.Nodup

/-!
# Machines under new names, part by part

A renaming that keeps different names apart can be carried through everything that a machine does:
what the renamed parts do is what the parts did, renamed.  This file says so of the parts, from
stores up to states; each has its equation, and the ones above follow from those below.

At the bottom are the two things that are ever done with names.  A variable is looked up, for which
`Renaming.Faithful.read_store` says that a renamed store holds under the new name what it held under
the old one; and names are compared, which a renaming that is injective leaves as it is.
-/

set_option autoImplicit false

namespace GuardedMachine

namespace Renaming

variable {f : Renaming}

/-! ## Stores -/

section Store

variable {σ ρ : Store} {l : List (String × Int64)} {x y : String} {v : Int64}

theorem mem_foldl_write :
    y ∈ l.foldl (fun ρ p => ρ.write (f.var p.1) p.2) ρ ↔ y ∈ ρ ∨ ∃ p ∈ l, f.var p.1 = y := by
  induction l generalizing ρ with
  | nil => simp
  | cons p l ih =>
    rw [List.foldl_cons, ih, Store.mem_write, or_assoc, or_left_comm]
    simp

/-- A renamed store holds the new names and no others. -/
theorem mem_store : y ∈ f.store σ ↔ ∃ x ∈ σ, f.var x = y := by
  rw [store, mem_foldl_write]
  constructor
  · rintro (hempty | ⟨⟨x, v⟩, hp, hy⟩)
    · exact absurd hempty Store.not_mem_empty
    · exact ⟨x, (Store.mem_toList.1 hp).1, hy⟩
  · rintro ⟨x, hx, hy⟩
    exact .inr ⟨(x, σ.read x), Store.mem_toList.2 ⟨hx, rfl⟩, hy⟩

theorem store_empty : f.store ∅ = ∅ := by
  ext x
  · simp [mem_store]
  · have hx : x ∉ f.store ∅ := by simp [mem_store]
    rw [Store.read_of_not_mem hx, Store.read_empty]

namespace Faithful

/-- Of several values that are written under different names, each is found under its own. -/
theorem read_foldl_write (hf : f.Faithful) (hl : (l.map Prod.fst).Nodup) (hx : (x, v) ∈ l) :
    (l.foldl (fun ρ p => ρ.write (f.var p.1) p.2) ρ).read (f.var x) = v := by
  -- from the right, since what is written last is not written over
  induction l using List.reverseRecOn with
  | nil => cases hx
  | append_singleton l p ih =>
    rw [List.map_append, List.map_singleton, List.nodup_append] at hl
    obtain ⟨hl, -, hdisjoint⟩ := hl
    rw [List.foldl_concat, Store.read_write]
    rcases List.mem_append.1 hx with hx | hx
    · have hne : x ≠ p.1 := hdisjoint x (List.mem_map_of_mem hx) p.1 List.mem_cons_self
      rw [if_neg fun h => hne (hf.var_inj _ _ h).symm, ih hl hx]
    · rw [← List.mem_singleton.1 hx, if_pos rfl]

/-- A renamed store reads under a new name what the store reads under the old one. -/
theorem read_store (hf : f.Faithful) : (f.store σ).read (f.var x) = σ.read x := by
  by_cases hx : x ∈ σ
  · have hnames : (σ.toList.map Prod.fst).Nodup := Store.map_fst_toList ▸ Store.names_nodup
    exact hf.read_foldl_write hnames (Store.mem_toList.2 ⟨hx, rfl⟩)
  · have hx' : f.var x ∉ f.store σ := by
      rw [mem_store]
      rintro ⟨z, hz, heq⟩
      exact hx (hf.var_inj _ _ heq ▸ hz)
    rw [Store.read_of_not_mem hx, Store.read_of_not_mem hx']

/-- A write can be renamed with the store. -/
theorem store_write (hf : f.Faithful) :
    f.store (σ.write x v) = (f.store σ).write (f.var x) v := by
  have hmem (y : String) : y ∈ f.store (σ.write x v) ↔ y ∈ (f.store σ).write (f.var x) v := by
    simp only [mem_store, Store.mem_write, or_and_right, exists_or, exists_eq_left']
  ext y
  · exact hmem y
  · by_cases hy : ∃ z, f.var z = y
    · obtain ⟨z, rfl⟩ := hy
      rw [hf.read_store, Store.read_write, Store.read_write, hf.read_store]
      exact if_congr ⟨congrArg f.var, hf.var_inj _ _⟩ rfl rfl
    · -- what is no new name is held by neither store
      have hnot : y ∉ f.store (σ.write x v) := by
        rw [mem_store]
        rintro ⟨z, -, hz⟩
        exact hy ⟨z, hz⟩
      rw [Store.read_of_not_mem hnot, Store.read_of_not_mem ((hmem y).not.1 hnot)]

theorem store_declare (hf : f.Faithful) :
    f.store (σ.declare x) = (f.store σ).declare (f.var x) := hf.store_write

/-- There are as many new names as old ones. -/
theorem size_store (hf : f.Faithful) : (f.store σ).size = σ.size := by
  have hnodup : (σ.names.map f.var).Nodup :=
    Store.names_nodup.map fun _ _ => hf.var_inj _ _
  have hperm : (f.store σ).names.Perm (σ.names.map f.var) := by
    rw [List.perm_ext_iff_of_nodup Store.names_nodup hnodup]
    intro y
    simp only [Store.mem_names, mem_store, List.mem_map]
  rw [← Store.length_names, ← Store.length_names, hperm.length_eq, List.length_map]

end Faithful

end Store

/-! ## Transitions and states -/

section State

variable {τ υ : Type} {g : τ → υ} {σ : Store} {e : String}

variable (f g) in
/-- The same transition for the renamed event, with `g` applied to its target. -/
def edge (t : Transition τ) : Transition υ where
  event := f.event t.event
  target := g t.target
  update := t.update.map f.update
  guard := t.guard.map f.guard

variable (f g) in
/-- The same state under a new name, with `g` applied to the targets of its transitions. -/
def node (s : State τ) : State υ := ⟨f.state s.name, s.transitions.map (f.edge g)⟩

theorem graph_states (k : Graph) : (f.graph k).states = k.states.map (f.node id) := rfl

namespace Faithful

theorem holds_guard (hf : f.Faithful) (c : Guard) : (f.guard c).Holds (f.store σ) ↔ c.Holds σ := by
  rw [Guard.Holds, Guard.Holds, guard, hf.read_store]

theorem written_update (hf : f.Faithful) (u : Update) :
    (f.update u).written (f.store σ) = u.written σ := by
  rw [Update.written, Update.written, update, hf.read_store]

theorem apply_update (hf : f.Faithful) (u : Update) :
    (f.update u).apply (f.store σ) = f.store (u.apply σ) := by
  rw [Update.apply, Update.apply, hf.store_write, hf.written_update]
  rfl

theorem enabled_edge (hf : f.Faithful) (t : Transition τ) :
    (f.edge g t).Enabled (f.store σ) ↔ t.Enabled σ := by
  simp [Transition.Enabled, edge, hf.holds_guard]

theorem apply_edge (hf : f.Faithful) (t : Transition τ) :
    (f.edge g t).apply (f.store σ) = f.store (t.apply σ) := by
  rw [Transition.apply, Transition.apply, edge]
  cases t.update with
  | none => rfl
  | some u => exact hf.apply_update u

theorem candidates_node (hf : f.Faithful) (s : State τ) :
    (f.node g s).candidates (f.event e) = (s.candidates e).map (f.edge g) := by
  have hevent : ∀ t ∈ s.transitions,
      decide ((f.edge g t).event = f.event e) = decide (t.event = e) :=
    fun t _ => decide_eq_decide.2 ⟨hf.event_inj _ _, congrArg f.event⟩
  rw [State.candidates, State.candidates, node, List.filter_map]
  exact congrArg _ (List.filter_congr hevent)

/-- A renamed state selects what the state selects. -/
theorem select?_node (hf : f.Faithful) (s : State τ) :
    (f.node g s).select? (f.event e) (f.store σ) = (s.select? e σ).map (f.edge g) := by
  have henabled : ((fun t : Transition υ => decide (t.Enabled (f.store σ))) ∘ f.edge g) =
      fun t => decide (t.Enabled σ) :=
    funext fun t => decide_eq_decide.2 (hf.enabled_edge t)
  rw [State.select?, State.select?, hf.candidates_node, List.find?_map, henabled]

/-- A state is found under its new name where it was found under the old one. -/
theorem firstNamed?_map_node (hf : f.Faithful) (states : List (State τ)) (name : String) :
    firstNamed? (states.map (f.node g)) (f.state name) = firstNamed? states name := by
  have hname : ((fun s : State υ => decide (s.name = f.state name)) ∘ f.node g) =
      fun s => decide (s.name = name) :=
    funext fun s => decide_eq_decide.2 ⟨hf.state_inj _ _, congrArg f.state⟩
  rw [firstNamed?, firstNamed?, List.findIdx?_map, hname]

end Faithful

end State

end Renaming

end GuardedMachine
