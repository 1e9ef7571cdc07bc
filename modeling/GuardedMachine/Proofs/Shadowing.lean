import GuardedMachine.Proofs.Firing
import GuardedMachine.Proofs.Listing
import GuardedMachine.Proofs.Trail

/-!
# States behind others of the same name

If states share a name, only the first of them is found by it.  The later ones are *shadowed*
(`Graph.Shadowed`), and `Graph.stateId?_eq_some_iff` says that what is found by a name is the one
state that bears it and is not shadowed.

Linking finds targets by their names, so no transition of a machine that was built leads to a
shadowed state.  A run stands either where it was started or where its last hop has led, which is at
the target of a transition (`Graph.Walk.exists_target`).  So a run can be at a shadowed state only
if it started there and has not moved since.
-/

set_option autoImplicit false

namespace GuardedMachine

variable {T : Type}

/-! ## Shadowed states -/

namespace Graph

/-- An earlier state bears the name of the state at this position. -/
def Shadowed (g : Graph) (i : StateId) : Prop :=
  ∃ name, g.nameAt? i = some name ∧ ∃ j < i, g.nameAt? j = some name

variable {g : Graph} {i : StateId} {name : String}

theorem nameAt?_eq_some_iff :
    g.nameAt? i = some name ↔ ∃ s, g.states[i]? = some s ∧ s.name = name :=
  Option.map_eq_some_iff

/-- A name leads to the state that bears it and is not shadowed. -/
theorem stateId?_eq_some_iff :
    g.stateId? name = some i ↔ g.nameAt? i = some name ∧ ¬ g.Shadowed i := by
  rw [stateId?, firstNamed?_eq_some_iff, ← nameAt?_eq_some_iff]
  refine and_congr_right fun hi => ⟨?_, ?_⟩
  · rintro hfirst ⟨name', hi', j, hj, hname⟩
    obtain rfl : name = name' := Option.some.inj (hi.symm.trans hi')
    obtain ⟨s, hs, hsname⟩ := nameAt?_eq_some_iff.1 hname
    exact hfirst j hj s hs hsname
  · intro hi' j hj s hs hsname
    exact hi' ⟨name, hi, j, hj, nameAt?_eq_some_iff.2 ⟨s, hs, hsname⟩⟩

theorem PointsByName.not_shadowed (hg : g.PointsByName) {s : State StateId} (hs : s ∈ g.states)
    {t : Transition StateId} (ht : t ∈ s.transitions) : ¬ g.Shadowed t.target := by
  obtain ⟨name, hname⟩ := hg s hs t ht
  exact (stateId?_eq_some_iff.1 hname).2

/-- The name of the state that a transition points at leads there. -/
theorem PointsByName.stateId?_target (hg : g.PointsByName) {s u : State StateId}
    (hs : s ∈ g.states) {t : Transition StateId} (ht : t ∈ s.transitions)
    (hu : g.states[t.target]? = some u) : g.stateId? u.name = some t.target :=
  stateId?_eq_some_iff.2 ⟨nameAt?_of_getElem? hu, hg.not_shadowed hs ht⟩

/-- A walk that is not empty ends at the target of a transition. -/
theorem Walk.exists_target {hops : List Hop} {j : StateId} (hw : g.Walk i hops j)
    (hne : hops ≠ []) : ∃ s ∈ g.states, ∃ t ∈ s.transitions, t.target = j := by
  obtain ⟨earlier, last, rfl⟩ := hops.eq_nil_or_concat'.resolve_left hne
  obtain ⟨k, -, -, ⟨s, t, hs, ht, -, htarget⟩, hend⟩ := walk_append.1 hw
  exact ⟨s, List.mem_of_getElem? hs, t, ht, htarget.trans hend⟩

end Graph

/-! ## Runs and shadowed states -/

namespace Run

variable {g : Graph} {t : Trail} {r : Run T}

/-- A run that has not moved is where it was started. -/
theorem Follows.initial_eq (h : r.Follows g t) (hhops : t.hops = []) :
    g.initial = some r.current := by
  have hw := h.walk
  rw [hhops] at hw
  exact h.initial.trans (congrArg some hw)

/-- A run that has moved is not at a shadowed state. -/
theorem Follows.not_shadowed (h : r.Follows g t) (hg : g.PointsByName) (hhops : t.hops ≠ []) :
    ¬ g.Shadowed r.current := by
  obtain ⟨s, hs, u, hu, htarget⟩ := h.walk.exists_target hhops
  exact htarget ▸ hg.not_shadowed hs hu

/-- The name of the current state leads to it, if the run has moved. -/
theorem Follows.stateId?_current (h : r.Follows g t) (hg : g.PointsByName) (hhops : t.hops ≠ [])
    {state : State StateId} (hstate : g.states[r.current]? = some state) :
    g.stateId? state.name = some r.current :=
  Graph.stateId?_eq_some_iff.2 ⟨Graph.nameAt?_of_getElem? hstate, h.not_shadowed hg hhops⟩

/-- What is shadowed is where a run has not been, unless it started there and has not moved. -/
theorem Follows.current_ne (h : r.Follows g t) (hg : g.PointsByName) {i : StateId}
    (hi : g.Shadowed i) (h' : t.hops ≠ [] ∨ g.initial ≠ some i) : r.current ≠ i := by
  rintro rfl
  by_cases hhops : t.hops = []
  · rcases h' with hne | hinitial
    · exact hne hhops
    · exact hinitial (h.initial_eq hhops)
  · exact h.not_shadowed hg hhops hi

end Run

namespace Session

variable {s : Session T} {x : Step T} {a : Response T}

/-- **One step.**  No transition that fires leads to a shadowed state. -/
theorem Answers.not_shadowed (ha : s.Answers x a) (hg : s.machine.PointsByName) {i : StateId}
    (hi : a.reply.entered? = some i) : ¬ s.machine.Shadowed i := by
  cases ha with
  | @fired r o source target t hr hsource ht htarget =>
    obtain rfl : t.target = i := Option.some.inj hi
    obtain ⟨hmem, -⟩ := State.mem_candidates.1 (State.mem_candidates_of_select? ht)
    exact hg.not_shadowed (List.mem_of_getElem? hsource) hmem
  | _ => cases hi

/-- A run that was elsewhere, or had moved already, has moved later on or was not started here. -/
theorem hops_ne_nil_or_initial_ne {m : Machine} {xs ys : List (Step T)} {r : Run T} {i : StateId}
    (hr : (m.session.after xs).run = some r)
    (h : r.current ≠ i ∨ (m.session.trail xs).hops ≠ []) (hbind : .bind ∉ ys)
    (hreset : .reset ∉ ys) :
    (m.session.trail (xs ++ ys)).hops ≠ [] ∨ m.initial ≠ some i := by
  by_cases hhops : (m.session.trail xs).hops = []
  · right
    rw [(follows_of_run hr).initial_eq hhops]
    intro hcurrent
    rcases h with hne | hne
    · exact hne (Option.some.inj hcurrent)
    · exact hne hhops
  · left
    intro hnil
    have hprefix := (dropped_trail_append m.session xs hbind hreset).1
    exact hhops (List.prefix_nil.1 (hnil ▸ hprefix))

end Session

/-! ## Machines that were built -/

namespace Script

variable {script : Script} {m : Machine}

/-- The table of names and a look through the finished states find the same. -/
theorem getElem?_nameTable_of_build (hm : script.build = .ok m) (name : String) :
    (nameTable script.read.states)[name]? = m.stateId? name := by
  rw [getElem?_nameTable, read_states, stateId?_of_build hm]

/-- **No transition leads to a shadowed state.**  In a machine that was built, the name of the state
that a transition points at leads to that position again, by the table that was used for linking as
well as by a look through the states.

So at every moment of every session, a run that has moved since it was started or reset is at the
first state of the name that the current state has; a run that has not moved is at the initial
state.  A shadowed state is never entered.  If it is not the initial one, no run is ever there, and
if it is, then once the run has left it or has moved at all it will not be there again before it is
reset or another one is bound. -/
theorem shadowed_never_entered (hm : script.build = .ok m) (xs : List (Step T)) :
    (∀ name, (nameTable script.read.states)[name]? = m.stateId? name) ∧
      (∀ s ∈ m.states, ∀ t ∈ s.transitions, ∃ u, m.states[t.target]? = some u ∧
        m.stateId? u.name = some t.target) ∧
      (∀ r ∈ (m.session.after xs).run, ∃ state, (m.session.after xs).currentState? = some state ∧
        if (m.session.trail xs).hops = [] then m.initial = some r.current
        else m.stateId? state.name = some r.current) ∧
      ∀ i, m.Shadowed i →
        (∀ x, ((m.session.after xs).step x).reply.entered? ≠ some i) ∧
        (m.initial ≠ some i → ∀ r ∈ (m.session.after xs).run, r.current ≠ i) ∧
        ∀ r ∈ (m.session.after xs).run, (r.current ≠ i ∨ (m.session.trail xs).hops ≠ []) →
          ∀ ys, .bind ∉ ys → .reset ∉ ys →
            ∀ r' ∈ (m.session.after (xs ++ ys)).run, r'.current ≠ i := by
  have hg : m.PointsByName := pointsByName_of_build hm
  have hclosed := closed_of_build hm
  have hinside : (m.session.after xs).Inside m.toGraph := Session.inside_session.after hclosed xs
  refine ⟨getElem?_nameTable_of_build hm, ?_, ?_, ?_⟩
  · intro s hs t ht
    have hlt : t.target < m.states.length := hclosed.target_lt s hs t ht
    have hu : m.states[t.target]? = some m.states[t.target] := List.getElem?_eq_getElem hlt
    exact ⟨_, hu, hg.stateId?_target hs ht hu⟩
  · intro r hr
    have hfollows := Session.follows_of_run hr
    obtain ⟨state, hcurrent, hstate⟩ := hinside.currentState? hr
    refine ⟨state, hcurrent, ?_⟩
    split
    · rename_i hhops
      exact hfollows.initial_eq hhops
    · rename_i hhops
      exact hfollows.stateId?_current hg hhops hstate
  · intro i hi
    refine ⟨?_, ?_, ?_⟩
    · intro x hentered
      have hgraph : (m.session.after xs).machine.toGraph = m.toGraph := hinside.graph_eq
      have hnot := (Session.answers_step _ x).not_shadowed (hgraph.symm ▸ hg) hentered
      rw [hgraph] at hnot
      exact hnot hi
    · intro hinitial r hr
      exact (Session.follows_of_run hr).current_ne hg hi (.inr hinitial)
    · intro r hr hleft ys hbind hreset r' hr'
      exact (Session.follows_of_run hr').current_ne hg hi
        (Session.hops_ne_nil_or_initial_ne hr hleft hbind hreset)

end Script

/-- The turnstile starts at the second of the states that are called "locked".  When it has been
left it is never there again, though a state of that name is. -/
theorem turnstile_shadowed_never_entered :
    turnstile.build = .ok turnstileMachine ∧ turnstileMachine.initial = some 2 ∧
      turnstileMachine.Shadowed 2 ∧
      (∃ r ∈ (turnstileMachine.session.after [.bind, .dispatch ⟨"coin", 1⟩]).run, r.current = 1) ∧
      (∀ x, ((turnstileMachine.session.after
        [.bind, .dispatch ⟨"coin", 1⟩]).step x).reply.entered? ≠ some 2) ∧
      ∃ r ∈ (turnstileMachine.session.after
          ([.bind, .dispatch ⟨"coin", 1⟩] ++ [.dispatch ⟨"push", 2⟩, .limit 0])).run,
        r.current ≠ 2 ∧ turnstileMachine.nameAt? r.current = turnstileMachine.nameAt? 2 := by
  have hshadowed : turnstileMachine.Shadowed 2 := ⟨"locked", rfl, 0, by decide, rfl⟩
  obtain ⟨-, -, -, hnever⟩ :=
    Script.shadowed_never_entered build_turnstile [.bind, .dispatch ⟨"coin", 1⟩]
  obtain ⟨hentered, -, hleft⟩ := hnever 2 hshadowed
  refine ⟨build_turnstile, rfl, hshadowed, ⟨_, rfl, rfl⟩, hentered, _, rfl, ?_, rfl⟩
  exact hleft _ rfl (.inl (by decide)) [.dispatch ⟨"push", 2⟩, .limit 0] (by decide) (by decide)
    _ rfl

end GuardedMachine
