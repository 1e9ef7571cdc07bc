import GuardedMachine.Proofs.Trail
import Mathlib.Data.List.Chain

/-!
# The path of a run is a walk

A history gives back the names of the states that were gone through, although it stores moves and
may have forgotten the first of them.  What it stores are the last hops of a walk, so the names do
belong to positions that follow one another in the graph, and the last one is the current position.

`Graph.Named` relates moves to the hops that they are the names of.  Along a walk it carries what
holds of positions over to names, also where several states share one.
-/

set_option autoImplicit false

namespace GuardedMachine

namespace Graph

/-! ## Moves that name a walk -/

section Named

variable {g : Graph} {i j : StateId} {moves last : List Move} {hops : List Hop}

/-- The last moves are named after the last hops. -/
theorem Named.exists_later (h : g.Named hops moves) (hlast : last <:+ moves) :
    ∃ earlier later, hops = earlier ++ later ∧ g.Named later last := by
  obtain ⟨first, rfl⟩ := hlast
  rw [Named, List.map_append] at h
  obtain ⟨earlier, later, rfl, -, hlater⟩ := List.map_eq_append_iff.1 h
  exact ⟨earlier, later, rfl, hlater⟩

theorem Named.nil_left (h : g.Named [] moves) : moves = [] := List.map_eq_nil_iff.1 h.symm

theorem Named.exists_cons {hop : Hop} (h : g.Named (hop :: hops) moves) :
    ∃ m ms, moves = m :: ms ∧ hop.move? g = some m ∧ g.Named hops ms := by
  obtain ⟨m, ms, hmoves, hm, hms⟩ := List.map_eq_cons_iff.1 h.symm
  exact ⟨m, ms, hmoves, hm.symm, hms.symm⟩

theorem Named.map_event (h : g.Named hops moves) : hops.map (·.event) = moves.map (·.event) := by
  induction hops generalizing moves with
  | nil => rw [h.nil_left]; rfl
  | cons hop hops ih =>
    obtain ⟨m, ms, rfl, hm, hms⟩ := h.exists_cons
    rw [List.map_cons, List.map_cons, ih hms, (Hop.move?_eq_some_iff.1 hm).1]

theorem Named.map_target (h : g.Named hops moves) :
    (hops.map (·.target)).map g.nameAt? = (moves.map (·.target)).map some := by
  induction hops generalizing moves with
  | nil => rw [h.nil_left]; rfl
  | cons hop hops ih =>
    obtain ⟨m, ms, rfl, hm, hms⟩ := h.exists_cons
    simp only [List.map_cons, ih hms, (Hop.move?_eq_some_iff.1 hm).2.2]

/-- The path of the moves goes through the names of the positions that the walk goes through. -/
theorem Named.path (h : g.Named hops moves) (hw : g.Walk i hops j) (hne : moves ≠ []) :
    (i :: hops.map (·.target)).map g.nameAt? = (Move.path moves).map some := by
  cases hops with
  | nil => exact absurd h.nil_left hne
  | cons hop hops =>
    obtain ⟨hsource, -, -⟩ := hw
    obtain ⟨m, ms, rfl, hm, -⟩ := h.exists_cons
    have hfirst : g.nameAt? i = some m.source := hsource ▸ (Hop.move?_eq_some_iff.1 hm).2.1
    rw [List.map_cons, h.map_target, hfirst]
    rfl

/-- Each move starts where the one before it ended, since that is so of the walk. -/
theorem Named.isChain (h : g.Named hops moves) (hw : g.Walk i hops j) :
    moves.IsChain fun a b => a.target = b.source := by
  induction hops generalizing moves i with
  | nil => rw [h.nil_left]; exact .nil
  | cons hop hops ih =>
    obtain ⟨-, -, hw⟩ := hw
    obtain ⟨m, ms, rfl, hm, hms⟩ := h.exists_cons
    refine List.isChain_cons.2 ⟨fun m' hm' => ?_, ih hms hw⟩
    -- the next move names the source of the next hop, which is the target of this one
    cases hops with
    | nil => rw [hms.nil_left] at hm'; cases hm'
    | cons hop' hops' =>
      obtain ⟨n, ns, rfl, hn, -⟩ := hms.exists_cons
      obtain rfl : n = m' := Option.some.inj hm'
      have htarget : g.nameAt? hop.target = some m.target := (Hop.move?_eq_some_iff.1 hm).2.2
      have hsource : g.nameAt? hop'.source = some n.source := (Hop.move?_eq_some_iff.1 hn).2.1
      rw [hw.1, htarget] at hsource
      exact Option.some.inj hsource

end Named

/-- The positions of the last part of a walk come last among the positions of all of it. -/
theorem Walk.targets_suffix {g : Graph} {i j : StateId} {earlier later : List Hop}
    (hw : g.Walk i earlier j) :
    (j :: later.map (·.target)) <:+ (i :: (earlier ++ later).map (·.target)) := by
  obtain ⟨before, hbefore⟩ := List.getLast?_eq_some_iff.1 hw.getLast?
  refine ⟨before, ?_⟩
  rw [List.map_append, ← List.cons_append, hbefore, List.append_assoc, List.singleton_append]

end Graph

/-! ## The path of a run -/

namespace Run

variable {T : Type} {g : Graph} {t : Trail} {r : Run T}

/-- What a run remembers are the names of a walk that ends where the run stands, and that is the end
of the whole walk since the start. -/
theorem Follows.exists_walk (h : r.Follows g t) :
    ∃ i hops, g.Named hops r.history.moves ∧ g.Walk i hops r.current ∧
      (i :: hops.map (·.target)) <:+ (r.start :: t.hops.map (·.target)) := by
  obtain ⟨moves, hmoves, hsuffix⟩ := h.moves
  obtain ⟨earlier, later, heq, hnamed⟩ := hmoves.exists_later hsuffix
  obtain ⟨i, hearlier, hlater⟩ := Graph.walk_append.1 (heq ▸ h.walk)
  exact ⟨i, later, hnamed, hlater, heq ▸ hearlier.targets_suffix⟩

/-- The last name on the path is the one of the current state. -/
theorem Follows.getLast?_path (h : r.Follows g t) (hne : r.history.moves ≠ []) :
    ∃ state, g.states[r.current]? = some state ∧ r.history.path.getLast? = some state.name := by
  obtain ⟨i, hops, hnamed, hw, -⟩ := h.exists_walk
  have hlast := congrArg List.getLast? (hnamed.path hw hne)
  rw [List.getLast?_map, List.getLast?_map, hw.getLast?, Option.map_some] at hlast
  obtain ⟨name, hname, hcurrent⟩ := Option.map_eq_some_iff.1 hlast.symm
  obtain ⟨state, hstate, rfl⟩ := Option.map_eq_some_iff.1 hcurrent.symm
  exact ⟨state, hstate, hname⟩

end Run

/-- **The reported path is a walk that ends where the run stands.**  If the history of a run is
empty, so is its path.  Otherwise the path has one state more than there are moves, it ends with the
name of the current state, and each move starts where the one before it ended.  It is the end of the
list of all states that the run was at since it was started or reset, and its names are the names of
positions that lead to the current one along transitions for the events of the moves. -/
theorem Machine.path_follows_trail {T : Type} (m : Machine) (xs : List (Step T)) {r : Run T}
    (hr : (m.session.after xs).run = some r) :
    (r.history.moves = [] → r.history.path = []) ∧
      (r.history.moves ≠ [] →
        r.history.path.length = r.history.moves.length + 1 ∧
        (∃ state, (m.session.after xs).currentState? = some state ∧
          r.history.path.getLast? = some state.name) ∧
        r.history.moves.IsChain (fun a b => a.target = b.source) ∧
        (∃ i, m.initial = some i ∧ r.history.path.map some <:+
          (i :: (m.session.trail xs).hops.map (·.target)).map m.nameAt?) ∧
        ∃ i hops, m.Walk i hops r.current ∧
          hops.map (·.event) = r.history.moves.map (·.event) ∧
          (i :: hops.map (·.target)).map m.nameAt? = r.history.path.map some) := by
  have h := Session.follows_of_run hr
  refine ⟨fun hnil => by rw [History.path, hnil]; rfl, fun hne => ?_⟩
  obtain ⟨i, hops, hnamed, hw, hsuffix⟩ := h.exists_walk
  have hpath : (i :: hops.map (·.target)).map m.nameAt? = r.history.path.map some :=
    hnamed.path hw hne
  have hcurrent : (m.session.after xs).currentState? = m.states[r.current]? := by
    have hstates : (m.session.after xs).machine.states = m.states :=
      congrArg Graph.states (Session.after_graph_eq m.session xs)
    rw [Session.currentState?, hr, Option.bind_some, hstates]
  refine ⟨Move.length_path_of_ne_nil hne, ?_, hnamed.isChain hw, ?_, ?_⟩
  · rw [hcurrent]
    exact h.getLast?_path hne
  · exact ⟨r.start, h.initial, hpath ▸ hsuffix.map m.nameAt?⟩
  · exact ⟨i, hops, hw, hnamed.map_event, hpath⟩

/-- Two of the turnstile's states share a name; what it remembers of its way between them is the end
of a walk that began at the other one. -/
theorem turnstile_path_follows_trail :
    (turnstileMachine.session.after turnstileVisits).run = some turnstileRun ∧
      turnstileRun.history.moves ≠ [] ∧
      turnstileRun.history.path = ["locked", "open", "locked"] ∧
      (∃ i, turnstileMachine.initial = some i ∧ turnstileRun.history.path.map some <:+
        (i :: (turnstileMachine.session.trail turnstileVisits).hops.map (·.target)).map
          turnstileMachine.nameAt?) ∧
      ∃ i hops, turnstileMachine.Walk i hops turnstileRun.current ∧
        hops.map (·.event) = turnstileRun.history.moves.map (·.event) ∧
        (i :: hops.map (·.target)).map turnstileMachine.nameAt? =
          turnstileRun.history.path.map some := by
  obtain ⟨-, hpath⟩ :=
    Machine.path_follows_trail turnstileMachine turnstileVisits (r := turnstileRun) rfl
  obtain ⟨-, -, -, htrajectory, hwalk⟩ := hpath (by decide)
  exact ⟨rfl, by decide, rfl, htrajectory, hwalk⟩

end GuardedMachine
