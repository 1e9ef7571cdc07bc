import GuardedMachine.Script.Reading

/-!
# Linking

Linking replaces the names that the transitions of draft states point at by the positions of the
states that bear them, the first one if a name is shared.  It fails if a transition has no target or
points at a name that no state bears, and then it reports every such transition, in order.

The positions are looked up in a table that one pass over the states fills in.  `getElem?_nameTable`
says that the table holds what looking through the states one by one would find.

How results are collected is left to a `Collector`, of which no more is known than two laws: it
succeeds when all results do, and otherwise it fails with all their faults, one after the other.
`Reading.complete` builds with any collector, and reports the machine if there is one;
`Reading.build` builds with the plain collector, `Collector.inOrder`.
-/

set_option autoImplicit false

namespace GuardedMachine

section Gather

variable {ε α : Type}

/-- The faults of a result, of which a success has none. -/
def faultsOf : Except (List ε) α → List ε
  | .ok _ => []
  | .error es => es

/-- The values of all results, or the faults of all that failed. -/
def gather : List (Except (List ε) α) → Except (List ε) (List α)
  | [] => .ok []
  | .ok a :: rs => (gather rs).map (a :: ·)
  | .error es :: rs => .error (es ++ faultsOf (gather rs))

theorem gather_eq_ok_iff {rs : List (Except (List ε) α)} {as : List α} :
    gather rs = .ok as ↔ rs = as.map .ok := by
  induction rs generalizing as with
  | nil => cases as <;> simp [gather]
  | cons r rs ih =>
    cases r with
    | error es => cases as <;> simp [gather]
    | ok a =>
      have hmap : (gather rs).map (a :: ·) = .ok as ↔ ∃ bs, gather rs = .ok bs ∧ a :: bs = as := by
        cases gather rs <;> simp [Except.map]
      rw [gather, hmap]
      cases as <;> simp [ih, and_assoc, and_comm]

theorem faultsOf_gather {rs : List (Except (List ε) α)} :
    faultsOf (gather rs) = rs.flatMap faultsOf := by
  induction rs with
  | nil => rfl
  | cons r rs ih =>
    rw [List.flatMap_cons, ← ih]
    cases r with
    | error es => rfl
    | ok a => rw [gather]; cases gather rs <;> rfl

/-- A way to collect results. -/
structure Collector (ε : Type) where
  /-- The values of all results, or else the faults. -/
  collect {α : Type} : List (Except (List ε) α) → Except (List ε) (List α)
  /-- Results that all succeed give their values. -/
  collect_ok {α : Type} (as : List α) : collect (as.map .ok) = .ok as
  /-- Faults are all kept, in the order of the results. -/
  collect_error {α : Type} (rs : List (Except (List ε) α)) :
    rs.flatMap faultsOf ≠ [] → collect rs = .error (rs.flatMap faultsOf)

/-- Collects results from the first to the last. -/
def Collector.inOrder : Collector ε where
  collect := gather
  collect_ok _ := gather_eq_ok_iff.2 rfl
  collect_error rs h := by
    rw [← faultsOf_gather] at h ⊢
    cases hg : gather rs with
    | ok as => exact absurd (by rw [hg]; rfl) h
    | error es => rfl

end Gather

/-! ## The table of names -/

/-- What is known of where names are declared: each name with the position it stands for. -/
abbrev NameTable := Std.ExtTreeMap String StateId

/-- The position of the first state of each name. -/
def nameTable (states : List DraftState) : NameTable :=
  states.zipIdx.foldl (fun table p => table.insertIfNew p.1.name p.2) ∅

/-- A name that is in the table already keeps its position; any other gets the position of the first
state that bears it, counted from `k`. -/
theorem getElem?_foldl_insertIfNew {states : List DraftState} {k : Nat} {table : NameTable}
    {name : String} :
    ((states.zipIdx k).foldl (fun table p => table.insertIfNew p.1.name p.2) table)[name]? =
      table[name]?.or ((firstNamed? states name).map (· + k)) := by
  induction states generalizing k table with
  | nil => simp [firstNamed?]
  | cons s states ih =>
    rw [List.zipIdx_cons, List.foldl_cons, ih, Std.ExtTreeMap.getElem?_insertIfNew,
      firstNamed?_cons]
    simp only [Std.compare_eq_iff_eq]
    by_cases hname : s.name = name
    · subst hname
      by_cases hmem : s.name ∈ table
      · simp [hmem]
      · simp [hmem]
    · have hcount : (fun i => i + (k + 1)) = (· + k) ∘ (· + 1) := by
        funext i
        simp only [Function.comp_apply]
        omega
      simp [hname, hcount]

/-- The table holds what looking through the states would find. -/
theorem getElem?_nameTable {states : List DraftState} {name : String} :
    (nameTable states)[name]? = firstNamed? states name := by
  rw [nameTable, getElem?_foldl_insertIfNew]
  simp

/-! ## Linking states -/

/-- Points a transition of the state `source` at the position of the name it was given. -/
def DraftTransition.link (table : NameTable) (source : String) (t : DraftTransition) :
    Except (List Fault) (Transition StateId) :=
  match t.target with
  | none => .error [.missingTarget source t.event]
  | some name =>
    match table[name]? with
    | none => .error [.undeclaredTarget source t.event name]
    | some i => .ok { t with target := i }

/-- Links every transition of a state. -/
def DraftState.link (c : Collector Fault) (table : NameTable) (s : DraftState) :
    Except (List Fault) (State StateId) :=
  (c.collect (s.transitions.map (DraftTransition.link table s.name))).map fun transitions =>
    ⟨s.name, transitions⟩

/-- Links every state of a list to the others. -/
def linkStates (c : Collector Fault) (states : List DraftState) :
    Except (List Fault) (List (State StateId)) :=
  c.collect (states.map (DraftState.link c (nameTable states)))

/-- What comes of building: a machine or everything that is wrong, and all that was reported. -/
structure Completion where
  result : Except (List Fault) Machine
  journal : List Entry

namespace Reading

/-- Builds the machine that was described, and reports it.  If something is wrong with the
description, then everything that is wrong is brought together, first the misuses and then the
faults of linking.  A machine without an initial state is complete. -/
def complete (c : Collector Fault) (r : Reading) : Completion :=
  match linkStates c r.states with
  | .ok states =>
    if r.misuses = [] then
      { result := .ok { states, initial := r.initial, store := r.store }
        journal := r.journal ++ [.built states.length r.store.size r.initial.isSome] }
    else { result := .error r.misuses, journal := r.journal }
  | .error faults => { result := .error (r.misuses ++ faults), journal := r.journal }

/-- The machine that was described, or else everything that is wrong with its description. -/
def buildWith (c : Collector Fault) (r : Reading) : Except (List Fault) Machine :=
  (r.complete c).result

/-- What has been reported when building is over. -/
def journalWith (c : Collector Fault) (r : Reading) : List Entry := (r.complete c).journal

/-- The machine that was described, or else everything that is wrong, collected in order. -/
def build (r : Reading) : Except (List Fault) Machine := r.buildWith .inOrder

end Reading

/-- The machine that a script describes, or everything that is wrong with the script, brought
together by a given collector. -/
def Script.buildWith (c : Collector Fault) (script : Script) : Except (List Fault) Machine :=
  script.read.buildWith c

/-- What is reported while a script is read and its machine is built. -/
def Script.journalWith (c : Collector Fault) (script : Script) : List Entry :=
  script.read.journalWith c

/-- The machine that a script describes, or everything that is wrong with the script. -/
def Script.build (script : Script) : Except (List Fault) Machine := script.read.build

/-- What is reported if faults are collected in order. -/
def Script.journal (script : Script) : List Entry := script.journalWith .inOrder

end GuardedMachine
