import GuardedMachine.Graph
import GuardedMachine.History
import GuardedMachine.Journal

/-!
# Runs

A `Run` of a graph stands at one of its states and remembers where it started and the moves it made.
An event makes the first enabled candidate of the current state fire: its update is applied to the
store, the move is recorded, and the run goes on to the target.  If no candidate is enabled the
event is ignored and nothing changes.

The guard is evaluated in the store before the update.  When an event comes is told by some clock,
whose readings may be anything at all; a move that is recorded is stamped with the reading.
-/

set_option autoImplicit false

namespace GuardedMachine

/-- The number of moves a run remembers unless it is told otherwise. -/
def defaultLimit : Nat := 1024

/-- An event, and what the clock reads when it comes. -/
structure Occurrence (T : Type) where
  event : String
  time : T
deriving DecidableEq, Repr

/-- The place of a run in its graph, and what led there. -/
structure Run (T : Type) where
  /-- Where the run starts and where a reset takes it. -/
  start : StateId
  current : StateId
  history : History (StampedMove T) := { limit := some defaultLimit }
deriving DecidableEq

namespace Run

variable {T : Type}

/-- A run that has not moved yet. -/
def startAt (i : StateId) : Run T := { start := i, current := i }

/-- Goes to state `i` by the move `m`, which is recorded unless recording is off. -/
def enter (r : Run T) (i : StateId) (m : StampedMove T) : Run T :=
  { r with
    current := i
    history := if r.history.isRecording then r.history.record m else r.history }

/-- Goes back to the start and forgets all moves, but not how many may be remembered. -/
def reset (r : Run T) : Run T := { r with current := r.start, history := r.history.clear }

/-- Changes how many moves may be remembered. -/
def setLimit (r : Run T) (n : Nat) : Run T := { r with history := r.history.setLimit (some n) }

/-- A history does not record either where recording is off. -/
theorem enter_eq {r : Run T} {i : StateId} {m : StampedMove T} :
    r.enter i m = { r with current := i, history := r.history.record m } := by
  unfold enter
  split
  · rfl
  · rename_i hoff
    rw [History.record_of_not_isRecording hoff]

@[simp] theorem history_enter {r : Run T} {i : StateId} {m : StampedMove T} :
    (r.enter i m).history = r.history.record m := by rw [enter_eq]

end Run

/-- What becomes of an event. -/
inductive Outcome where
  /-- A transition fired; source and target may be the same state. -/
  | fired (source target : StateId)
  /-- No candidate was enabled. -/
  | ignored
deriving DecidableEq, Repr

/-- Whether a transition fired. -/
def Outcome.isFired : Outcome → Bool
  | fired .. => true
  | ignored => false

/-- All that an event brings about. -/
structure Effect (T : Type) where
  outcome : Outcome
  store : Store
  run : Run T
  journal : List Entry
deriving DecidableEq

/-- What is reported of a transition's update in the store before it. -/
def Transition.appliedEntries {τ : Type} (t : Transition τ) (σ : Store) : List Entry :=
  match t.update with
  | none => []
  | some u => [.applied u.var (σ.read u.var) (u.written σ)]

/-- What an event brings about in a run of a graph.  There is no answer if the run stands outside
the graph or is to leave it, which a closed graph excludes. -/
def Graph.dispatch? {T : Type} (g : Graph) (σ : Store) (r : Run T) (o : Occurrence T) :
    Option (Effect T) := do
  let source ← g.states[r.current]?
  match source.select? o.event σ with
  | none =>
    return { outcome := .ignored, store := σ, run := r, journal := [.ignored o.event source.name] }
  | some t =>
    let target ← g.states[t.target]?
    return {
      outcome := .fired r.current t.target
      store := t.apply σ
      run := r.enter t.target ⟨⟨o.event, source.name, target.name⟩, o.time⟩
      journal := t.appliedEntries σ ++ [.fired o.event source.name target.name] }

namespace Graph

variable {T : Type} {g : Graph} {σ : Store} {r : Run T} {o : Occurrence T}
  {source target : State StateId} {t : Transition StateId}

/-- The event is ignored if the current state selects nothing. -/
theorem dispatch?_of_select?_eq_none (hs : g.states[r.current]? = some source)
    (ht : source.select? o.event σ = none) :
    g.dispatch? σ r o = some ⟨.ignored, σ, r, [.ignored o.event source.name]⟩ := by
  simp [dispatch?, hs, ht]

/-- The selected transition fires. -/
theorem dispatch?_of_select?_eq_some (hs : g.states[r.current]? = some source)
    (ht : source.select? o.event σ = some t) (htarget : g.states[t.target]? = some target) :
    g.dispatch? σ r o = some ⟨.fired r.current t.target, t.apply σ,
      r.enter t.target ⟨⟨o.event, source.name, target.name⟩, o.time⟩,
      t.appliedEntries σ ++ [.fired o.event source.name target.name]⟩ := by
  simp [dispatch?, hs, ht, htarget]

end Graph

end GuardedMachine
