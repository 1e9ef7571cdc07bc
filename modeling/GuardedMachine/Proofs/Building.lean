import GuardedMachine.Proofs.Linking

/-!
# What building gives

A script is built into the machine that its outline describes, or else into a list of faults.
`Script.outline_of_build` says what the machine is and `Script.buildWith_eq_error_iff` says what the
faults are; both speak of the parts of the script and of nothing that happens while it is followed.
`Script.build_eq_ok_iff` is the form that other results are derived from.
-/

set_option autoImplicit false

namespace GuardedMachine

theorem Call.stateName?_eq_some_iff {c : Call} {name : String} :
    c.stateName? = some name ↔ c = .state name := by
  cases c <;> simp [stateName?]

theorem Call.declared?_eq_some_iff {c : Call} {x : String} :
    c.declared? = some x ↔ c = .integer x := by
  cases c <;> simp [declared?]

namespace Script

variable {script : Script} {m : Machine} {es : List Fault}

/-- The states of the outline have the names that the script declares. -/
theorem names_outline : script.outline.map (·.name) = script.filterMap Call.stateName? := by
  rw [outline, List.map_map, ← map_fst_cut_snd]
  rfl

theorem mem_filterMap_stateName? {name : String} :
    name ∈ script.filterMap Call.stateName? ↔ .state name ∈ script := by
  simp [Call.stateName?_eq_some_iff]

theorem mem_filterMap_declared? {x : String} :
    x ∈ script.filterMap Call.declared? ↔ .integer x ∈ script := by
  simp [Call.declared?_eq_some_iff]

/-- A script is built into a machine if it has no misuse and the machine is its outline with every
name replaced by a position. -/
theorem build_eq_ok_iff :
    script.build = .ok m ↔
      script.misuses = [] ∧ Linked script.outline m.states ∧ m.initial = script.marked? ∧
        m.store = script.declared := by
  rw [build, Reading.build_eq_ok_iff, linkStates_eq_ok_iff, read_misuses, read_states,
    read_initial, read_store]

theorem faultsOf_build : faultsOf script.build = script.misuses ++ script.faults := by
  rw [build, Reading.faultsOf_build, faultsOf_linkStates, read_misuses, read_states, faults,
    names_outline]

/-- A script without faults is one that gives every transition the name of a state. -/
theorem faults_eq_nil_iff :
    script.faults = [] ↔ ∀ s ∈ script.outline, ∀ t ∈ s.transitions,
      ∃ name, t.target = some name ∧ .state name ∈ script := by
  simp only [faults, List.flatMap_eq_nil_iff, List.filterMap_eq_nil_iff]
  refine forall₂_congr fun s _ => forall₂_congr fun t _ => ?_
  rw [DraftTransition.fault?]
  cases t.target with
  | none => simp
  | some name => simp [-List.mem_filterMap, mem_filterMap_stateName?]

/-- A script without misuses and faults is built. -/
theorem exists_build_iff :
    (∃ m, script.build = .ok m) ↔ script.misuses = [] ∧ script.faults = [] := by
  rw [← List.append_eq_nil_iff, ← faultsOf_build]
  cases h : script.build with
  | ok m => simp [faultsOf]
  | error es =>
    have hes : es ≠ [] := fun he => Reading.build_ne_error_nil (h.trans (congrArg _ he))
    simp [faultsOf, hes]

/-- **A failed build reports every fault, once and in order**: the misused calls and then the
transitions that point nowhere.  There is always one to report, and a script without any is
built. -/
theorem buildWith_eq_error_iff (c : Collector Fault) :
    script.buildWith c = .error es ↔ es ≠ [] ∧ es = script.misuses ++ script.faults := by
  rw [buildWith, Reading.buildWith_eq_build, ← build, ← faultsOf_build]
  exact eq_error_iff Reading.build_ne_error_nil

end Script

/-- A script with everything wrong that can be.  Each call that can come too early does so once.
Then one transition is given two targets, the second of which is not declared, and another one is
given none. -/
def muddle : Script :=
  [.initial, .when "coin", .state "locked", .goto "open", .update ⟨"coins", .assign 1⟩,
    .update ⟨"coins", .increment⟩, .update ⟨"coins", .decrement⟩, .guard ⟨"coins", .equals, 1⟩,
    .guard ⟨"coins", .greaterThan, 1⟩, .guard ⟨"coins", .lessThan, 1⟩, .when "coin",
    .goto "locked", .goto "open", .state "closed", .when "push"]

/-- Every misused call is reported by its word and both transitions by all that is known of them. -/
theorem muddle_buildWith_eq_error :
    muddle.buildWith .inOrder =
      .error [.noCurrentState "initial", .noCurrentState "when", .noCurrentTransition "to",
        .noCurrentTransition "set", .noCurrentTransition "increment",
        .noCurrentTransition "decrement", .noCurrentTransition "if_equals",
        .noCurrentTransition "if_greater_than", .noCurrentTransition "if_less_than",
        .undeclaredTarget "locked" "coin" "open", .missingTarget "closed" "push"] :=
  (Script.buildWith_eq_error_iff .inOrder).2 ⟨List.cons_ne_nil _ _, by decide⟩

/-! ## A turnstile -/

/-- A turnstile that counts coins.  Its first transition is given two targets, and the last of its
states, in which it starts, repeats the name of the first one. -/
def turnstile : Script :=
  [.state "locked", .when "coin", .goto "locked", .update ⟨"coins", .increment⟩, .integer "coins",
    .goto "open", .state "open", .when "push", .guard ⟨"coins", .greaterThan, 0⟩, .goto "locked",
    .state "locked", .when "coin", .goto "open", .update ⟨"coins", .increment⟩, .initial]

/-- The turnstile with positions for names. -/
def turnstileMachine : Machine where
  states :=
    [⟨"locked", [⟨"coin", 1, some ⟨"coins", .increment⟩, none⟩]⟩,
      ⟨"open", [⟨"push", 0, none, some ⟨"coins", .greaterThan, 0⟩⟩]⟩,
      ⟨"locked", [⟨"coin", 1, some ⟨"coins", .increment⟩, none⟩]⟩]
  initial := some 2
  store := (∅ : Store).declare "coins"

theorem build_turnstile : turnstile.build = .ok turnstileMachine := rfl

/-! ## The machine that is built -/

namespace Script

variable {script : Script} {m : Machine} {name : String}

/-- The states are linked from the outline. -/
theorem linked_of_build (hm : script.build = .ok m) : Linked script.outline m.states :=
  (build_eq_ok_iff.1 hm).2.1

/-- The states have the names that the script declares. -/
theorem names_of_build (hm : script.build = .ok m) :
    m.states.map (·.name) = script.filterMap Call.stateName? := by
  rw [(linked_of_build hm).names_eq, names_outline]

/-- A state is found by its name where the outline has the first state of that name. -/
theorem stateId?_of_build (hm : script.build = .ok m) :
    m.stateId? name = firstNamed? script.outline name := by
  rw [Graph.stateId?, firstNamed?_eq_idxOf?, firstNamed?_eq_idxOf?, names_of_build hm,
    names_outline]

/-- **The machine that is built is the one that the outline describes.**  Its states are those of
the outline, with every name that was given as a target replaced by the position of the first state
that is declared under it anywhere in the script.  Its initial state is the one that is marked last,
and its variables are the ones that are declared, all at `0`. -/
theorem outline_of_build (hm : script.build = .ok m) :
    m.states.map (·.mapTargets some) = script.outline.map (·.mapTargets (·.bind m.stateId?)) ∧
      (∀ name, m.stateId? name = (script.filterMap Call.stateName?).idxOf? name) ∧
      m.initial = script.marked? ∧
      (∀ x, x ∈ m.store ↔ .integer x ∈ script) ∧ ∀ x, m.store.read x = 0 := by
  obtain ⟨-, hstates, hinitial, hstore⟩ := build_eq_ok_iff.1 hm
  have hstateId : m.stateId? = firstNamed? script.outline := funext fun _ => stateId?_of_build hm
  refine ⟨hstateId ▸ hstates, fun name => ?_, hinitial, fun x => ?_, fun x => ?_⟩
  · rw [Graph.stateId?, firstNamed?_eq_idxOf?, names_of_build hm]
  · rw [hstore, mem_declared]
  · rw [hstore, read_declared]

end Script

/-- Of the two targets that the first transition is given, and of the two states that share a name,
the turnstile has the last target and the first state. -/
theorem turnstile_outline_of_build :
    turnstile.build = .ok turnstileMachine ∧
      turnstileMachine.states.map (·.mapTargets some) =
        turnstile.outline.map (·.mapTargets (·.bind turnstileMachine.stateId?)) ∧
      turnstileMachine.initial = turnstile.marked? ∧
      "coins" ∈ turnstileMachine.store ∧ turnstileMachine.store.read "coins" = 0 := by
  obtain ⟨hstates, -, hinitial, hmem, hread⟩ := Script.outline_of_build build_turnstile
  exact ⟨build_turnstile, hstates, hinitial, (hmem "coins").2 (by decide), hread "coins"⟩

end GuardedMachine
