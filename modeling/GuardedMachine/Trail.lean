import GuardedMachine.Session

/-!
# Trails

A `Trail` is what can be known of a run from outside, by someone who sees the steps of a session and
the replies to them and nothing else.  It lists the hops that the run has made from position to
position since it was started or taken back to its start, and it counts how many of them are still
remembered: at most as many as the limit allows, one more with every hop, fewer when the limit is
lowered, and never more because it is raised.

`Graph.Walk` says of hops that they lead along transitions of a graph without a gap.
-/

set_option autoImplicit false

namespace GuardedMachine

/-- The firing of a transition as the reply to its event tells it. -/
structure Hop where
  event : String
  source : StateId
  target : StateId
deriving DecidableEq

/-! ## Hops in a graph -/

namespace Graph

/-- The name of the state at a position. -/
def nameAt? (g : Graph) (i : StateId) : Option String := g.states[i]?.map (·.name)

/-- Some transition of the graph waits for the event of the hop at its source and points at its
target. -/
def Joins (g : Graph) (h : Hop) : Prop :=
  ∃ s t, g.states[h.source]? = some s ∧ t ∈ s.transitions ∧ t.event = h.event ∧ t.target = h.target

/-- The hops lead from one position to another along transitions of the graph, each from where the
one before it led. -/
def Walk (g : Graph) : StateId → List Hop → StateId → Prop
  | i, [], j => i = j
  | i, h :: hops, j => h.source = i ∧ g.Joins h ∧ g.Walk h.target hops j

end Graph

/-- The hop as a move between the names of its source and its target. -/
def Hop.move? (g : Graph) (h : Hop) : Option Move := do
  let source ← g.nameAt? h.source
  let target ← g.nameAt? h.target
  return ⟨h.event, source, target⟩

/-- The moves are the hops, one by one, under the names of the states. -/
def Graph.Named (g : Graph) (hops : List Hop) (moves : List Move) : Prop :=
  hops.map (Hop.move? g) = moves.map some

/-! ## Trails of sessions -/

/-- What steps and replies tell of a run. -/
structure Trail where
  /-- The hops since the run was started or reset. -/
  hops : List Hop := []
  /-- How many of the last hops are remembered. -/
  kept : Nat := 0
  /-- How many may be remembered. -/
  limit : Nat := 1024
deriving DecidableEq

namespace Trail

/-- What is known after one more step and the reply to it. -/
def note {T : Type} (t : Trail) : Step T → Reply → Trail
  | .bind, .bound => {}
  | .reset, .done => { t with hops := [], kept := 0 }
  | .limit n, .done => { t with kept := min n t.kept, limit := n }
  | .dispatch o, .dispatched (.fired source target) =>
    { t with hops := t.hops ++ [⟨o.event, source, target⟩], kept := min t.limit (t.kept + 1) }
  | _, _ => t

/-- How many hops have been forgotten. -/
def dropped (t : Trail) : Nat := t.hops.length - t.kept

end Trail

/-- What is known of the run after steps that are taken one after the other. -/
def Session.trail {T : Type} (s : Session T) (xs : List (Step T)) : Trail :=
  (xs.zip (s.responses xs)).foldl (fun t p => t.note p.1 p.2.reply) {}

/-! ## Small laws -/

section

variable {g : Graph} {i j k : StateId} {h : Hop} {hops hops' : List Hop} {m : Move}

theorem Graph.nameAt?_of_getElem? {s : State StateId} (hs : g.states[i]? = some s) :
    g.nameAt? i = some s.name := by
  rw [nameAt?, hs, Option.map_some]

theorem Hop.move?_eq_some_iff :
    h.move? g = some m ↔
      h.event = m.event ∧ g.nameAt? h.source = some m.source ∧
        g.nameAt? h.target = some m.target := by
  obtain ⟨event, source, target⟩ := m
  cases hs : g.nameAt? h.source <;> cases ht : g.nameAt? h.target <;> simp [move?, hs, ht]

namespace Graph

theorem walk_append :
    g.Walk i (hops ++ hops') k ↔ ∃ j, g.Walk i hops j ∧ g.Walk j hops' k := by
  induction hops generalizing i with
  | nil => simp [Walk]
  | cons h hops ih => simp only [List.cons_append, Walk, ih, and_assoc, exists_and_left]

theorem Walk.concat (hw : g.Walk i hops h.source) (hj : g.Joins h) :
    g.Walk i (hops ++ [h]) h.target :=
  walk_append.2 ⟨_, hw, rfl, hj, rfl⟩

/-- A walk ends where its last hop leads. -/
theorem Walk.getLast? (hw : g.Walk i hops j) : (i :: hops.map (·.target)).getLast? = some j := by
  induction hops generalizing i with
  | nil => rw [hw]; rfl
  | cons h hops ih =>
    rw [List.map_cons, List.getLast?_cons_cons]
    exact ih hw.2.2

end Graph

theorem Graph.Named.concat {moves : List Move} (hn : g.Named hops moves)
    (hm : h.move? g = some m) : g.Named (hops ++ [h]) (moves ++ [m]) := by
  rw [Named, List.map_append, List.map_append, hn, List.map_singleton, List.map_singleton, hm]

theorem Session.trail_concat {T : Type} (s : Session T) (xs : List (Step T)) (x : Step T) :
    s.trail (xs ++ [x]) = (s.trail xs).note x ((s.after xs).step x).reply := by
  rw [trail, responses_append, List.zip_append (length_responses).symm]
  simp [trail]

end

end GuardedMachine
