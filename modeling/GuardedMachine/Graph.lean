import GuardedMachine.State

/-!
# Graphs and machines

A `Graph` is a list of states, some of which may share a name, together with the position of the
state it starts in, if there is one.  Transitions point at positions.  Looking a state up by its
name finds the first one that bears it; looking it up by position finds it whatever its name is.

A `Machine` is a graph with a store.  Running a machine writes its store and leaves the graph alone.

`Graph.Closed` is the promise that every position a graph mentions is the position of one of its
states.
-/

set_option autoImplicit false

namespace GuardedMachine

/-- The position of a state in its graph. -/
abbrev StateId := Nat

/-- The written form of a position. -/
def StateId.text (i : StateId) : String := "#" ++ toString i

/-- The position of the first state with a given name. -/
def firstNamed? {τ : Type} (states : List (State τ)) (name : String) : Option StateId :=
  states.findIdx? fun s => s.name = name

/-- States in the order of their declaration, and the position of the one to start in. -/
structure Graph where
  states : List (State StateId) := []
  initial : Option StateId := none
deriving DecidableEq

namespace Graph

/-- The position of the first state called `name`. -/
def stateId? (g : Graph) (name : String) : Option StateId := firstNamed? g.states name

/-- The first state called `name`. -/
def state? (g : Graph) (name : String) : Option (State StateId) :=
  g.states.find? fun s => s.name = name

/-- The state the graph starts in. -/
def initialState? (g : Graph) : Option (State StateId) := g.initial.bind (g.states[·]?)

/-- Every position the graph mentions is the position of one of its states. -/
structure Closed (g : Graph) : Prop where
  target_lt : ∀ s ∈ g.states, ∀ t ∈ s.transitions, t.target < g.states.length
  initial_lt : ∀ i ∈ g.initial, i < g.states.length

end Graph

/-- A graph together with the variables its transitions inspect and change. -/
structure Machine extends Graph where
  store : Store := ∅
deriving DecidableEq

/-! ## Lookup by name -/

section Lookup

variable {τ : Type} {states : List (State τ)} {name : String} {i : StateId}

/-- The state found bears the name, and no earlier one does. -/
theorem firstNamed?_eq_some_iff :
    firstNamed? states name = some i ↔
      (∃ s, states[i]? = some s ∧ s.name = name) ∧
        ∀ j < i, ∀ s, states[j]? = some s → s.name ≠ name := by
  rw [firstNamed?, List.findIdx?_eq_some_iff_getElem]
  constructor
  · rintro ⟨h, hi, hlt⟩
    refine ⟨⟨states[i], List.getElem?_eq_getElem h, by simpa using hi⟩, fun j hj s hs => ?_⟩
    obtain ⟨hj', rfl⟩ := List.getElem?_eq_some_iff.1 hs
    simpa using hlt j hj
  · rintro ⟨⟨s, hs, hname⟩, hlt⟩
    obtain ⟨h, rfl⟩ := List.getElem?_eq_some_iff.1 hs
    exact ⟨h, by simpa using hname, fun j hj => by
      simpa using hlt j hj _ (List.getElem?_eq_getElem (Nat.lt_trans hj h))⟩

theorem firstNamed?_cons {s : State τ} :
    firstNamed? (s :: states) name =
      if s.name = name then some 0 else (firstNamed? states name).map (· + 1) := by
  simp [firstNamed?, List.findIdx?_cons]

theorem firstNamed?_eq_none_iff : firstNamed? states name = none ↔ ∀ s ∈ states, s.name ≠ name := by
  simp [firstNamed?]

theorem firstNamed?_lt (h : firstNamed? states name = some i) : i < states.length := by
  obtain ⟨⟨s, hs, -⟩, -⟩ := firstNamed?_eq_some_iff.1 h
  exact (List.getElem?_eq_some_iff.1 hs).1

/-- A state is looked for among the first ones first. -/
theorem firstNamed?_append {states' : List (State τ)} :
    firstNamed? (states ++ states') name =
      (firstNamed? states name).or ((firstNamed? states' name).map (· + states.length)) := by
  rw [firstNamed?, List.findIdx?_append]
  rfl

/-- Only the names and their order matter. -/
theorem firstNamed?_eq_idxOf? : firstNamed? states name = (states.map (·.name)).idxOf? name := by
  rw [firstNamed?, List.idxOf?, List.findIdx?_map]
  rfl

end Lookup

namespace Graph

variable {g : Graph} {name : String}

/-- The two lookups by name agree. -/
theorem state?_eq_bind_stateId? : g.state? name = (g.stateId? name).bind (g.states[·]?) := by
  simp [state?, stateId?, firstNamed?, List.find?_eq_bind_findIdx?_getElem?]

end Graph

end GuardedMachine
