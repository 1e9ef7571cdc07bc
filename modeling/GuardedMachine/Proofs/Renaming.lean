import GuardedMachine.Proofs.Building
import GuardedMachine.Proofs.RenamedScripts
import GuardedMachine.Proofs.Safety
import GuardedMachine.Untimed
import Mathlib.Logic.Equiv.Basic

/-!
# Names do not matter

A machine compares names and does nothing else with them.  So if all states, events and variables
are given new names, and different ones keep different names, then building does the same as before
(`Renaming.Faithful.build_script`) and so does every session of the machine
(`Renaming.Faithful.responses_session`); only that new names stand wherever old ones stood.

Each step is followed down to the current state, which selects the transition that it selected under
its old name.  What a run does with its moves has nothing to do with the names in them.
-/

set_option autoImplicit false

namespace GuardedMachine

variable {T : Type}

namespace Renaming

variable {f : Renaming}

/-! ## Runs -/

section Run

variable {r : Run T} {i : StateId}

theorem run_enter (m : StampedMove T) :
    f.run (r.enter i m) = (f.run r).enter i (f.stampedMove m) := by
  have hrecording : (f.run r).history.isRecording = r.history.isRecording := rfl
  rw [Run.enter_eq, Run.enter_eq, History.record, History.record, hrecording]
  split
  · simp only [run, History.enforceLimit_eq, map_retain, List.map_append, List.map_singleton]
  · rfl

theorem run_setLimit (n : Nat) : f.run (r.setLimit n) = (f.run r).setLimit n := by
  simp only [run, Run.setLimit, History.setLimit_eq, map_retain]

theorem moves_run : (f.run r).history.moves = r.history.moves.map f.move := by
  simp [History.moves, run, stampedMove]

theorem path_run : (f.run r).history.path = r.history.path.map f.state := by
  rw [History.path, History.path, moves_run]
  cases r.history.moves with
  | nil => rfl
  | cons m ms => simp [Move.path, move]

end Run

/-! ## Steps -/

variable (f) in
/-- The same effect under new names. -/
def effect (d : Effect T) : Effect T :=
  ⟨d.outcome, f.store d.store, f.run d.run, d.journal.map f.entry⟩

theorem getElem?_graph {g : Graph} (i : StateId) :
    (f.graph g).states[i]? = g.states[i]?.map (f.node id) := by
  rw [graph_states, List.getElem?_map]

theorem bind_session (s : Session T) : (f.session s).bind = f.response s.bind := by
  have hstates (i : StateId) :
      (f.session s).machine.states[i]? = s.machine.states[i]?.map (f.node id) :=
    getElem?_graph i
  have hinitial : (f.session s).machine.initial = s.machine.initial := rfl
  rw [Session.bind, Session.bind, hinitial]
  cases s.machine.initial with
  | none => rfl
  | some i =>
    simp only [hstates]
    cases s.machine.states[i]? with
    | none => rfl
    | some state => rfl

namespace Faithful

variable (hf : f.Faithful)
include hf

theorem stateId?_graph (g : Graph) (name : String) :
    (f.graph g).stateId? (f.state name) = g.stateId? name :=
  hf.firstNamed?_map_node (g := id) g.states name

theorem state?_graph (g : Graph) (name : String) :
    (f.graph g).state? (f.state name) = (g.state? name).map (f.node id) := by
  rw [Graph.state?_eq_bind_stateId?, Graph.state?_eq_bind_stateId?, hf.stateId?_graph]
  cases g.stateId? name with
  | none => rfl
  | some i => exact getElem?_graph i

theorem appliedEntries_edge (t : Transition StateId) (σ : Store) :
    (f.edge id t).appliedEntries (f.store σ) = (t.appliedEntries σ).map f.entry := by
  rw [Transition.appliedEntries, Transition.appliedEntries, edge]
  cases t.update with
  | none => rfl
  | some u =>
    have hread : (f.store σ).read (f.update u).var = σ.read u.var := hf.read_store
    simp only [Option.map_some, hread, hf.written_update]
    rfl

/-- An event has under its new name the effect that it had under the old one. -/
theorem dispatch?_graph (g : Graph) (σ : Store) (r : Run T) (o : Occurrence T) :
    (f.graph g).dispatch? (f.store σ) (f.run r) (f.occurrence o) =
      (g.dispatch? σ r o).map f.effect := by
  have hsource' : (f.graph g).states[(f.run r).current]? = g.states[r.current]?.map (f.node id) :=
    getElem?_graph r.current
  cases hsource : g.states[r.current]? with
  | none => simp [Graph.dispatch?, hsource, hsource']
  | some source =>
    rw [hsource, Option.map_some] at hsource'
    have hselect : (f.node id source).select? (f.occurrence o).event (f.store σ) =
        (source.select? o.event σ).map (f.edge id) := hf.select?_node source
    cases ht : source.select? o.event σ with
    | none =>
      rw [ht, Option.map_none] at hselect
      rw [Graph.dispatch?_of_select?_eq_none hsource ht,
        Graph.dispatch?_of_select?_eq_none hsource' hselect]
      rfl
    | some t =>
      rw [ht, Option.map_some] at hselect
      have htarget' : (f.graph g).states[(f.edge id t).target]? =
          g.states[t.target]?.map (f.node id) := getElem?_graph t.target
      cases htarget : g.states[t.target]? with
      | none => simp [Graph.dispatch?, hsource, hsource', ht, hselect, htarget, htarget']
      | some target =>
        rw [htarget, Option.map_some] at htarget'
        rw [Graph.dispatch?_of_select?_eq_some hsource ht htarget,
          Graph.dispatch?_of_select?_eq_some hsource' hselect htarget', hf.apply_edge,
          hf.appliedEntries_edge, Option.map_some, effect, run_enter, List.map_append]
        rfl

theorem dispatch_session (s : Session T) (r : Run T) (o : Occurrence T) :
    (f.session s).dispatch (f.run r) (f.occurrence o) = f.response (s.dispatch r o) := by
  have heffect : (f.session s).machine.dispatch? (f.session s).machine.store (f.run r)
      (f.occurrence o) = (s.machine.dispatch? s.machine.store r o).map f.effect :=
    hf.dispatch?_graph s.machine.toGraph s.machine.store r o
  rw [Session.dispatch, Session.dispatch, heffect]
  cases s.machine.dispatch? s.machine.store r o with
  | none => rfl
  | some d => rfl

/-- **One step** of the renamed session is answered as it was, under new names. -/
theorem step_session (s : Session T) (x : Step T) :
    (f.session s).step (f.step x) = f.response (s.step x) := by
  obtain ⟨m, run⟩ := s
  cases x with
  | bind => exact bind_session ⟨m, run⟩
  | dispatch o =>
    cases run with
    | none => rfl
    | some r => exact hf.dispatch_session ⟨m, some r⟩ r o
  | limit n =>
    cases run with
    | none => rfl
    | some r =>
      have hlimit := congrArg some (run_setLimit (f := f) (r := r) n)
      exact congrArg (fun run => Response.mk ⟨f.machine m, run⟩ .done []) hlimit.symm
  | unbind | reset => cases run <;> rfl

/-- Any steps. -/
theorem responses_session (s : Session T) (xs : List (Step T)) :
    (f.session s).responses (xs.map f.step) = (s.responses xs).map f.response := by
  induction xs generalizing s with
  | nil => rfl
  | cons x xs ih =>
    have htail : (f.response (s.step x)).session.responses (xs.map f.step) =
        ((s.step x).session.responses xs).map f.response := ih (s.step x).session
    rw [List.map_cons, Session.responses_cons, Session.responses_cons, List.map_cons,
      hf.step_session, htail]

/-- Any steps and the same ones under new names, at other instants. -/
theorem responses_session_alike (s : Session T) {xs ys : List (Step T)}
    (h : ys.map Step.untimed = (xs.map f.step).map Step.untimed) :
    ((f.session s).responses ys).map Response.untimed =
      ((s.responses xs).map f.response).map Response.untimed := by
  rw [Session.responses_alike h, hf.responses_session]

end Faithful

end Renaming

/-- **Names do not matter.**  Let states, events and variables be given new names, and let different
ones be given different names.

A script under new names is then built into the machine under new names, which has the same
positions in it, or else it has the same faults, in the same order; and what is reported meanwhile
is the same.  States are found under their new names where they were found under the old ones, and
have the same transitions in the same order for an event under its new name.

Each step of a session of a machine under new names gets the reply that it got before, and apart
from names and instants it has the same report and leaves the same session behind: the run is at the
same position, it remembers the same moves, and its path is the same.  The variables that are held
are the same, and each of them reads under its new name what it read under the old one. -/
theorem Renaming.names_do_not_matter {f : Renaming} (hf : f.Faithful) :
    (∀ script : Script, (f.script script).build = f.result f.machine script.build ∧
        (f.script script).journal = script.journal.map f.entry) ∧
      (∀ (g : Graph) (name : String), (f.graph g).stateId? (f.state name) = g.stateId? name ∧
        (f.graph g).state? (f.state name) = (g.state? name).map (f.node id)) ∧
      (∀ (s : State StateId) (e : String),
        (f.node id s).candidates (f.event e) = (s.candidates e).map (f.edge id)) ∧
      (∀ (m : Machine) (xs ys : List (Step T)),
        ys.map Step.untimed = (xs.map f.step).map Step.untimed →
          ((f.machine m).session.responses ys).map Response.untimed =
            ((m.session.responses xs).map f.response).map Response.untimed) ∧
      (∀ r : Run T, (f.run r).current = r.current ∧
        (f.run r).history.moves = r.history.moves.map f.move ∧
        (f.run r).history.path = r.history.path.map f.state) ∧
      ∀ σ : Store, (∀ y, y ∈ f.store σ ↔ ∃ x ∈ σ, f.var x = y) ∧
        ∀ x, (f.store σ).read (f.var x) = σ.read x :=
  ⟨fun script => ⟨hf.build_script script, hf.journal_script script⟩,
    fun g name => ⟨hf.stateId?_graph g name, hf.state?_graph g name⟩,
    fun s _ => hf.candidates_node s,
    fun m _ _ => hf.responses_session_alike m.session, fun _ => ⟨rfl, moves_run, path_run⟩,
    fun _ => ⟨fun _ => mem_store, fun _ => hf.read_store⟩⟩

/-- The names of the turnstile's states and those of its events change places, and its coins are
counted under a longer name. -/
def changeover : Renaming where
  state := Equiv.swap "locked" "open"
  event := Equiv.swap "coin" "push"
  var := ("number of " ++ ·)

theorem changeover_faithful : changeover.Faithful where
  state_inj _ _ h := (Equiv.swap "locked" "open").injective h
  event_inj _ _ h := (Equiv.swap "coin" "push").injective h
  var_inj _ _ h := (String.append_right_inj "number of ").1 h

/-- Under the names of its open state and of pushing, the turnstile counts a coin at its locked
state. -/
theorem turnstile_names_do_not_matter :
    changeover.Faithful ∧
      (changeover.script turnstile).build = .ok (changeover.machine turnstileMachine) ∧
      ((changeover.machine turnstileMachine).session.responses
          [.bind, .dispatch ⟨"push", 5⟩]).map Response.untimed =
        ((turnstileMachine.session.responses [.bind, .dispatch ⟨"coin", 1⟩]).map
          changeover.response).map Response.untimed ∧
      (changeover.store (turnstileMachine.session.after
        [.bind, .dispatch ⟨"coin", 1⟩]).machine.store).read "number of coins" = 1 := by
  obtain ⟨hscript, -, -, hsession, -, hstore⟩ :=
    Renaming.names_do_not_matter (T := Nat) changeover_faithful
  have hresponses := hsession turnstileMachine [.bind, .dispatch ⟨"coin", 1⟩]
    [.bind, .dispatch ⟨"push", 5⟩] rfl
  refine ⟨changeover_faithful, ?_, hresponses, ?_⟩
  · rw [(hscript turnstile).1, build_turnstile]
    rfl
  · exact ((hstore _).2 "coins").trans rfl

end GuardedMachine
