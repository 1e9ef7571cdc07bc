import GuardedMachine.Proofs.Safety

/-!
# What a session can answer

`Session.Answers` lists the responses that a session can give to a step: for each, what has to hold
before and what the session is like afterwards.  `Session.answers_step` says that the list is
complete.  Whatever is claimed of every step is shown by going through it, so that no proof has to
look into the step itself.
-/

set_option autoImplicit false

namespace GuardedMachine

namespace Session

variable {T : Type}

/-- The responses that a session can give to a step. -/
inductive Answers (s : Session T) : Step T → Response T → Prop
  /-- A run cannot be started, since there is no state to start in. -/
  | refused (hi : s.machine.initial = none) :
      Answers s .bind { session := s, reply := .refused .noInitialState }
  /-- A run is started at the initial state. -/
  | bound {i : StateId} {state : State StateId} (hi : s.machine.initial = some i)
      (hstate : s.machine.states[i]? = some state) :
      Answers s .bind ⟨{ s with run := some (.startAt i) }, .bound, [.bound state.name]⟩
  /-- There is no run to take the step. -/
  | notBound {x : Step T} (hr : s.run = none) :
      Answers s x { session := s, reply := .notBound }
  /-- The run is dropped. -/
  | unbound {r : Run T} (hr : s.run = some r) :
      Answers s .unbind { session := { s with run := none }, reply := .unbound }
  /-- The event is ignored. -/
  | ignored {r : Run T} {o : Occurrence T} {source : State StateId} (hr : s.run = some r)
      (hsource : s.machine.states[r.current]? = some source)
      (ht : source.select? o.event s.machine.store = none) :
      Answers s (.dispatch o) ⟨s, .dispatched .ignored, [.ignored o.event source.name]⟩
  /-- A transition fires. -/
  | fired {r : Run T} {o : Occurrence T} {source target : State StateId} {t : Transition StateId}
      (hr : s.run = some r) (hsource : s.machine.states[r.current]? = some source)
      (ht : source.select? o.event s.machine.store = some t)
      (htarget : s.machine.states[t.target]? = some target) :
      Answers s (.dispatch o)
        ⟨⟨{ s.machine with store := t.apply s.machine.store },
            some (r.enter t.target ⟨⟨o.event, source.name, target.name⟩, o.time⟩)⟩,
          .dispatched (.fired r.current t.target),
          t.appliedEntries s.machine.store ++ [.fired o.event source.name target.name]⟩
  /-- The run goes back to its start. -/
  | reset {r : Run T} (hr : s.run = some r) :
      Answers s .reset { session := { s with run := some r.reset }, reply := .done }
  /-- The run remembers at most `n` moves from now on. -/
  | limited {r : Run T} {n : Nat} (hr : s.run = some r) :
      Answers s (.limit n) { session := { s with run := some (r.setLimit n) }, reply := .done }
  /-- A position is looked up that is not there. -/
  | stray {x : Step T} : Answers s x { session := s, reply := .stray }

variable {s : Session T}

theorem answers_bind : s.Answers .bind s.bind := by
  rw [Session.bind]
  split
  · rename_i hi
    exact .refused hi
  · rename_i i hi
    split
    · exact .stray
    · rename_i state hstate
      exact .bound hi hstate

theorem answers_dispatch {r : Run T} (hr : s.run = some r) (o : Occurrence T) :
    s.Answers (.dispatch o) (s.dispatch r o) := by
  -- the event is carried out if the source is found, something is selected and its target is found
  cases hsource : s.machine.states[r.current]? with
  | none =>
    have hd : s.machine.dispatch? s.machine.store r o = none := by
      simp [Graph.dispatch?, hsource]
    rw [Session.dispatch, hd]
    exact .stray
  | some source =>
    cases ht : source.select? o.event s.machine.store with
    | none =>
      rw [Session.dispatch, Graph.dispatch?_of_select?_eq_none hsource ht]
      obtain ⟨machine, run⟩ := s
      cases hr
      exact .ignored rfl hsource ht
    | some t =>
      cases htarget : s.machine.states[t.target]? with
      | none =>
        have hd : s.machine.dispatch? s.machine.store r o = none := by
          simp [Graph.dispatch?, hsource, ht, htarget]
        rw [Session.dispatch, hd]
        exact .stray
      | some target =>
        rw [Session.dispatch, Graph.dispatch?_of_select?_eq_some hsource ht htarget]
        exact .fired hr hsource ht htarget

/-- Nothing else is ever answered. -/
theorem answers_step (s : Session T) (x : Step T) : s.Answers x (s.step x) := by
  by_cases hx : x = .bind
  · subst hx
    exact answers_bind
  cases hr : s.run with
  | none =>
    rw [step_of_run_eq_none hr hx]
    exact .notBound hr
  | some r =>
    cases x with
    | bind => exact absurd rfl hx
    | unbind =>
      simp only [step, hr]
      exact .unbound hr
    | dispatch o =>
      rw [step_dispatch hr]
      exact answers_dispatch hr o
    | reset =>
      simp only [step, hr]
      exact .reset hr
    | limit n =>
      simp only [step, hr]
      exact .limited hr

/-! ## Whole runs -/

/-- What holds of a session and is kept by every answer holds after any steps. -/
theorem after_induction {P : Session T → Prop}
    (hstep : ∀ s x a, P s → s.Answers x a → P a.session) (h : P s) (xs : List (Step T)) :
    P (s.after xs) := by
  induction xs generalizing s with
  | nil => exact h
  | cons x xs ih => exact ih (hstep s x _ h (answers_step s x))

/-- No answer changes the graph. -/
theorem Answers.graph_eq {x : Step T} {a : Response T} (ha : s.Answers x a) :
    a.session.machine.toGraph = s.machine.toGraph := by
  cases ha <;> rfl

theorem after_graph_eq (s : Session T) (xs : List (Step T)) :
    (s.after xs).machine.toGraph = s.machine.toGraph :=
  after_induction (P := fun t => t.machine.toGraph = s.machine.toGraph)
    (fun _ _ _ h ha => ha.graph_eq.trans h) rfl xs

end Session

end GuardedMachine
