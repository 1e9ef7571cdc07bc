import GuardedMachine.Session
import GuardedMachine.Proofs.Building

/-!
# Runs stay inside their graph

Positions are looked up without asking whether they are in range, so something else has to see to
it.  `Graph.Closed` holds of every graph that is built from a script (`Script.closed_of_build`):
linking puts only positions that it found, and only a state that exists is marked.

From there it is a matter of steps.  `Session.Inside` says that a session runs a given graph and
stands inside it, which no step changes (`Session.Inside.step`).  A session inside a closed graph
finds every position that it looks up, so it never replies that one is astray
(`Session.Inside.reply_ne_stray`).
-/

set_option autoImplicit false

namespace GuardedMachine

/-! ## Graphs that are built are closed -/

namespace Script

variable {script : Script} {m : Machine}

/-- Every target is the first state that bears some name. -/
theorem target_of_build (hm : script.build = .ok m) {s : State StateId} (hs : s ∈ m.states)
    {t : Transition StateId} (ht : t ∈ s.transitions) :
    ∃ name, m.stateId? name = some t.target := by
  obtain ⟨i, hi⟩ := List.getElem?_of_mem hs
  obtain ⟨d, -, hd⟩ := (linked_of_build hm).exists_draft hi
  have ht' : t.mapTarget some ∈ (s.mapTargets some).transitions := List.mem_map_of_mem ht
  rw [hd] at ht'
  obtain ⟨u, -, hu⟩ := List.mem_map.1 ht'
  obtain ⟨name, -, hname⟩ := Transition.exists_name_of_mapTarget hu.symm
  exact ⟨name, (stateId?_of_build hm).trans hname⟩

theorem marked?_lt {i : StateId} (h : script.marked? = some i) : i < script.outline.length := by
  induction script using List.reverseRecOn with
  | nil => cases h
  | append_singleton script c ih =>
    have hlength : (outline script).length ≤ (extendDrafts (outline script) c).length := by
      cases c <;> simp [extendDrafts]
    rw [marked?_concat] at h
    rw [outline_concat]
    refine Nat.lt_of_lt_of_le ?_ hlength
    split at h
    · rename_i hc
      have hpos : 0 < (outline script).length := List.length_pos_iff.2 hc.2
      cases h
      omega
    · exact ih h

/-- A graph that was built mentions no positions but those of its states. -/
theorem closed_of_build (hm : script.build = .ok m) : m.Closed where
  target_lt s hs t ht := by
    obtain ⟨name, hname⟩ := target_of_build hm hs ht
    exact firstNamed?_lt hname
  initial_lt i hi := by
    rw [(linked_of_build hm).length_eq]
    exact marked?_lt ((build_eq_ok_iff.1 hm).2.2.1.symm.trans hi)

/-- If no call is misused, there is a mark as soon as some call sets one. -/
theorem marked?_eq_none_iff (h : script.misuses = []) :
    script.marked? = none ↔ .initial ∉ script := by
  induction script using List.reverseRecOn with
  | nil => simp [marked?, findLast?, parts, cut]
  | append_singleton script c ih =>
    obtain ⟨hmisuses, hc⟩ := misuses_concat_eq_nil_iff.1 h
    rw [marked?_concat, List.mem_append, List.mem_singleton, not_or, ← ih hmisuses]
    by_cases hinitial : c = .initial
    · subst hinitial
      have hstates : outline script ≠ [] := by
        intro hnil
        rw [hnil] at hc
        cases hc
      simp [hstates]
    · simp [hinitial, Ne.symm hinitial]

end Script

/-! ## What an event can do in a closed graph -/

namespace Graph

variable {T : Type} {g : Graph} {r : Run T}

/-- Inside a closed graph every event has an effect: the current state selects nothing and nothing
changes, or it selects a transition whose target is a state as well. -/
theorem Closed.dispatch?_cases (hg : g.Closed) (hr : r.current < g.states.length) (σ : Store)
    (o : Occurrence T) :
    ∃ source, g.states[r.current]? = some source ∧
      (source.select? o.event σ = none ∧
          g.dispatch? σ r o = some ⟨.ignored, σ, r, [.ignored o.event source.name]⟩ ∨
        ∃ t target, source.select? o.event σ = some t ∧ g.states[t.target]? = some target ∧
          g.dispatch? σ r o = some ⟨.fired r.current t.target, t.apply σ,
            r.enter t.target ⟨⟨o.event, source.name, target.name⟩, o.time⟩,
            t.appliedEntries σ ++ [.fired o.event source.name target.name]⟩) := by
  have hsource : g.states[r.current]? = some g.states[r.current] := List.getElem?_eq_getElem hr
  refine ⟨g.states[r.current], hsource, ?_⟩
  cases ht : g.states[r.current].select? o.event σ with
  | none => exact .inl ⟨rfl, dispatch?_of_select?_eq_none hsource ht⟩
  | some t =>
    have hmem : t ∈ g.states[r.current].transitions :=
      (State.mem_candidates.1 (State.mem_candidates_of_select? ht)).1
    have hlt : t.target < g.states.length := hg.target_lt _ (List.getElem_mem hr) t hmem
    have htarget : g.states[t.target]? = some g.states[t.target] := List.getElem?_eq_getElem hlt
    exact .inr ⟨t, g.states[t.target], rfl, htarget,
      dispatch?_of_select?_eq_some hsource ht htarget⟩

end Graph

/-! ## Sessions inside a graph -/

namespace Session

variable {T : Type}

/-- The session runs the graph `g` and stands inside it. -/
structure Inside (g : Graph) (s : Session T) : Prop where
  /-- The machine still has the structure of `g`. -/
  graph_eq : s.machine.toGraph = g
  /-- A run starts where `g` does. -/
  start_eq : ∀ r ∈ s.run, g.initial = some r.start
  /-- A run stands at one of the states of `g`. -/
  current_lt : ∀ r ∈ s.run, r.current < g.states.length

variable {g : Graph} {s : Session T} {m : Machine}

theorem inside_session : (m.session : Session T).Inside m.toGraph := ⟨rfl, nofun, nofun⟩

/-- The current state is found. -/
theorem Inside.currentState? (h : s.Inside g) {r : Run T} (hr : r ∈ s.run) :
    ∃ state, s.currentState? = some state ∧ g.states[r.current]? = some state := by
  have hlt := h.current_lt r hr
  refine ⟨g.states[r.current], ?_, List.getElem?_eq_getElem hlt⟩
  rw [currentState?_of_run (Option.mem_def.1 hr), show s.machine.states = _ from
    congrArg Graph.states h.graph_eq]
  exact List.getElem?_eq_getElem hlt

/-- To bind is to start at the initial state, if there is one, and to change nothing otherwise. -/
theorem Inside.bind_cases (hg : g.Closed) (h : s.Inside g) :
    g.initial = none ∧ s.bind = { session := s, reply := .refused .noInitialState } ∨
      ∃ i state, g.initial = some i ∧ g.states[i]? = some state ∧
        s.bind = ⟨{ s with run := some (.startAt i) }, .bound, [.bound state.name]⟩ := by
  have hinitial : s.machine.initial = g.initial := congrArg Graph.initial h.graph_eq
  have hstates : s.machine.states = g.states := congrArg Graph.states h.graph_eq
  rw [Session.bind, hinitial]
  cases hi : g.initial with
  | none => exact .inl ⟨rfl, rfl⟩
  | some i =>
    have hlt : i < g.states.length := hg.initial_lt i hi
    have hstate : g.states[i]? = some g.states[i] := List.getElem?_eq_getElem hlt
    refine .inr ⟨i, g.states[i], rfl, hstate, ?_⟩
    simp only [hstates, hstate]

/-- A dispatch is carried out by the transition that the current state selects, if it selects any,
and changes nothing otherwise. -/
theorem Inside.dispatch_cases (hg : g.Closed) (h : s.Inside g) {r : Run T} (hr : s.run = some r)
    (o : Occurrence T) :
    ∃ source, g.states[r.current]? = some source ∧
      (source.select? o.event s.machine.store = none ∧
          s.dispatch r o = ⟨s, .dispatched .ignored, [.ignored o.event source.name]⟩ ∨
        ∃ t target, source.select? o.event s.machine.store = some t ∧
          g.states[t.target]? = some target ∧
          s.dispatch r o =
            ⟨⟨{ s.machine with store := t.apply s.machine.store },
                some (r.enter t.target ⟨⟨o.event, source.name, target.name⟩, o.time⟩)⟩,
              .dispatched (.fired r.current t.target),
              t.appliedEntries s.machine.store ++ [.fired o.event source.name target.name]⟩) := by
  obtain ⟨source, hsource, heffect⟩ :=
    hg.dispatch?_cases (h.current_lt r hr) s.machine.store o
  refine ⟨source, hsource, ?_⟩
  rw [Session.dispatch, h.graph_eq]
  rcases heffect with ⟨ht, he⟩ | ⟨t, target, ht, htarget, he⟩
  · refine .inl ⟨ht, ?_⟩
    rw [he]
    obtain ⟨machine, run⟩ := s
    cases hr
    rfl
  · refine .inr ⟨t, target, ht, htarget, ?_⟩
    rw [he]

/-! ## Steps -/

theorem step_bind : s.step .bind = s.bind := rfl

theorem step_of_run_eq_none {x : Step T} (hr : s.run = none) (hx : x ≠ .bind) :
    s.step x = { session := s, reply := .notBound } := by
  cases x with
  | bind => exact absurd rfl hx
  | unbind | dispatch _ | reset | limit _ => simp only [step, hr]

theorem step_dispatch {r : Run T} (hr : s.run = some r) (o : Occurrence T) :
    s.step (.dispatch o) = s.dispatch r o := by
  simp only [step, hr]

/-- A session that goes on with another run of the same graph stays inside it. -/
theorem Inside.withRun (h : s.Inside g) (r : Run T) (σ : Store)
    (hstart : g.initial = some r.start) (hcurrent : r.current < g.states.length) :
    Inside g ⟨{ s.machine with store := σ }, some r⟩ where
  graph_eq := h.graph_eq
  start_eq := by
    rintro _ ⟨⟩
    exact hstart
  current_lt := by
    rintro _ ⟨⟩
    exact hcurrent

/-- No step leads out of the graph, and none looks a position up that is not there. -/
theorem Inside.step_spec (hg : g.Closed) (h : s.Inside g) (x : Step T) :
    (s.step x).session.Inside g ∧ (s.step x).reply ≠ .stray := by
  by_cases hx : x = .bind
  · subst hx
    rw [step_bind]
    obtain ⟨-, hbind⟩ | ⟨i, state, hi, -, hbind⟩ := h.bind_cases hg
    · rw [hbind]
      exact ⟨h, nofun⟩
    · rw [hbind]
      exact ⟨h.withRun (.startAt i) _ hi (hg.initial_lt i hi), nofun⟩
  cases hr : s.run with
  | none =>
    rw [step_of_run_eq_none hr hx]
    exact ⟨h, nofun⟩
  | some r =>
    have hstart := h.start_eq r hr
    cases x with
    | bind => exact absurd rfl hx
    | unbind =>
      simp only [step, hr]
      exact ⟨⟨h.graph_eq, nofun, nofun⟩, nofun⟩
    | dispatch o =>
      rw [step_dispatch hr]
      obtain ⟨source, -, ⟨-, hd⟩ | ⟨t, target, -, htarget, hd⟩⟩ := h.dispatch_cases hg hr o
      · rw [hd]
        exact ⟨h, nofun⟩
      · rw [hd]
        have hlt : t.target < g.states.length := (List.getElem?_eq_some_iff.1 htarget).1
        exact ⟨h.withRun (r.enter t.target _) _ hstart hlt, nofun⟩
    | reset =>
      simp only [step, hr]
      exact ⟨h.withRun r.reset _ hstart (hg.initial_lt _ hstart), nofun⟩
    | limit n =>
      simp only [step, hr]
      exact ⟨h.withRun (r.setLimit n) _ hstart (h.current_lt r hr), nofun⟩

theorem Inside.step (hg : g.Closed) (h : s.Inside g) (x : Step T) : (s.step x).session.Inside g :=
  (h.step_spec hg x).1

theorem Inside.reply_ne_stray (hg : g.Closed) (h : s.Inside g) (x : Step T) :
    (s.step x).reply ≠ .stray :=
  (h.step_spec hg x).2

/-- No run leads out of the graph. -/
theorem Inside.after (hg : g.Closed) (h : s.Inside g) (xs : List (Step T)) :
    (s.after xs).Inside g := by
  induction xs generalizing s with
  | nil => exact h
  | cons x xs ih => exact ih (h.step hg x)

end Session

/-! ## Sessions of a machine that was built -/

/-- **A machine that was built is safe to run.**  Whatever is asked of its session, the graph stays
as it was built; the run has started where the graph does and stands at one of its states, which is
found when it is looked up; and no step looks up a position that is not there.  A run can be bound
as soon as some call of the script marks an initial state, and otherwise the attempt changes
nothing. -/
theorem Script.session_safe {T : Type} {script : Script} {m : Machine}
    (hm : script.build = .ok m) (xs : List (Step T)) :
    m.Closed ∧
      (m.session.after xs).machine.toGraph = m.toGraph ∧
      (∀ r ∈ (m.session.after xs).run, m.initial = some r.start ∧ r.current < m.states.length ∧
        ∃ state, (m.session.after xs).currentState? = some state) ∧
      (∀ x, ((m.session.after xs).step x).reply ≠ .stray) ∧
      (.initial ∈ script → ((m.session.after xs).step .bind).reply = .bound) ∧
      (.initial ∉ script → (m.session.after xs).step .bind =
        { session := m.session.after xs, reply := .refused .noInitialState }) := by
  have hg := closed_of_build hm
  have h : (m.session.after xs).Inside m.toGraph := Session.inside_session.after hg xs
  obtain ⟨hmisuses, -, hinitial, -⟩ := build_eq_ok_iff.1 hm
  have hnone : m.initial = none ↔ .initial ∉ script := by
    rw [hinitial, marked?_eq_none_iff hmisuses]
  refine ⟨hg, h.graph_eq, fun r hr => ?_, h.reply_ne_stray hg, ?_, ?_⟩
  · obtain ⟨state, hstate, -⟩ := h.currentState? hr
    exact ⟨h.start_eq r hr, h.current_lt r hr, state, hstate⟩
  · intro hmem
    rw [Session.step_bind]
    obtain ⟨hi, -⟩ | ⟨_, _, -, -, hbind⟩ := h.bind_cases hg
    · exact absurd hmem (hnone.1 hi)
    · rw [hbind]
  · intro hmem
    rw [Session.step_bind]
    obtain ⟨-, hbind⟩ | ⟨_, _, hi, -, -⟩ := h.bind_cases hg
    · exact hbind
    · rw [hnone.2 hmem] at hi
      cases hi

/-- The turnstile can be bound again after a run that was dropped. -/
theorem turnstile_session_safe :
    turnstile.build = .ok turnstileMachine ∧
      (turnstileMachine.session.after
        [.bind, .dispatch ⟨"coin", 0⟩, .limit 1, .unbind, .reset]).machine.toGraph =
          turnstileMachine.toGraph ∧
      ((turnstileMachine.session.after
        [.bind, .dispatch ⟨"coin", 0⟩, .limit 1, .unbind, .reset]).step .bind).reply = .bound := by
  obtain ⟨-, hgraph, -, -, hbound, -⟩ := Script.session_safe build_turnstile
    [.bind, .dispatch ⟨"coin", 0⟩, .limit 1, .unbind, .reset]
  exact ⟨build_turnstile, hgraph, hbound (by decide)⟩

end GuardedMachine
