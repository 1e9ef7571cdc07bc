import GuardedMachine.Live
import GuardedMachine.Untimed
import GuardedMachine.Proofs.Answers

/-!
# Only what is live matters

A run never leaves the live positions of its graph (`Session.StandsLive`), and at each of them it
sees the live candidates only.  So a graph can be replaced by another one that is the same as far as
it is live, and no session notices.  In fact it is enough that the states at the live positions
select alike, which is how far an event can look into a graph (`Graph.SelectAlike.dispatch?_eq`).

`Session.onto` carries a session over to another graph and leaves its run and its variables as they
are.  `Session.step_onto` says that taking a step and carrying the session over can be exchanged; by
induction this holds of all steps, and of two machines it gives `Machine.only_live_matters`.
-/

set_option autoImplicit false

namespace GuardedMachine

variable {T : Type}

namespace Session

/-! ## Runs stay at live positions -/

/-- The run started at a live position of the graph and stands at one. -/
structure StandsLive (s : Session T) : Prop where
  start : ∀ r ∈ s.run, s.machine.Live r.start
  current : ∀ r ∈ s.run, s.machine.Live r.current

variable {s : Session T} {g' : Graph} {m : Machine}

theorem standsLive_session : (m.session : Session T).StandsLive := ⟨nofun, nofun⟩

/-- A session that goes on with another run of its graph. -/
theorem standsLive_withRun {r : Run T} {σ : Store} (hstart : s.machine.Live r.start)
    (hcurrent : s.machine.Live r.current) :
    StandsLive ⟨{ s.machine with store := σ }, some r⟩ where
  start := by
    rintro _ ⟨⟩
    exact hstart
  current := by
    rintro _ ⟨⟩
    exact hcurrent

/-- No answer leads to a position that is not live. -/
theorem StandsLive.answer (h : s.StandsLive) {x : Step T} {a : Response T} (ha : s.Answers x a) :
    a.session.StandsLive := by
  cases ha with
  | refused | notBound | ignored | stray => exact h
  | bound hi => exact standsLive_withRun (.initial hi) (.initial hi)
  | unbound => exact ⟨nofun, nofun⟩
  | @fired r o source target t hr hsource ht =>
    have htarget : s.machine.Live t.target :=
      .target (h.current r hr) hsource (State.mem_live_of_select? ht)
    exact standsLive_withRun (h.start r hr) htarget
  | @reset r hr => exact standsLive_withRun (h.start r hr) (h.start r hr)
  | @limited r n hr => exact standsLive_withRun (h.start r hr) (h.current r hr)

theorem standsLive_after (h : s.StandsLive) (xs : List (Step T)) : (s.after xs).StandsLive :=
  after_induction (fun _ _ _ h ha => h.answer ha) h xs

end Session

/-! ## Events in another graph -/

/-- An event at a live position has the same effect in both graphs: the states there select the same
transition, and it leads to the same position under the same name. -/
theorem Graph.SelectAlike.dispatch?_eq {g g' : Graph} {r : Run T} {σ : Store}
    {o : Occurrence T} (hg : g.SelectAlike g') (hr : g.Live r.current) :
    g'.dispatch? σ r o = g.dispatch? σ r o := by
  match hsource : g.states[r.current]?, hsource' : g'.states[r.current]?,
    hg.states_alike _ hr with
  | none, none, _ => simp [dispatch?, hsource, hsource']
  | some source, some source', .some halike =>
    have hselect : source.select? o.event σ =
        source'.select? o.event σ := halike.select?_eq o.event σ
    cases ht : source.select? o.event σ with
    | none =>
      rw [dispatch?_of_select?_eq_none hsource ht,
        dispatch?_of_select?_eq_none hsource' (hselect ▸ ht), halike.name_eq]
    | some t =>
      have hlive : g.Live t.target := .target hr hsource (State.mem_live_of_select? ht)
      match htarget : g.states[t.target]?, htarget' : g'.states[t.target]?,
        hg.states_alike _ hlive with
      | none, none, _ => simp [dispatch?, hsource, hsource', ← hselect, ht, htarget, htarget']
      | some target, some target', .some halike' =>
        rw [dispatch?_of_select?_eq_some hsource ht htarget,
          dispatch?_of_select?_eq_some hsource' (hselect ▸ ht) htarget', halike.name_eq,
          halike'.name_eq]

/-! ## Carrying a session over to another graph -/

namespace Session

/-- The same run with the same variables on the graph `g'`. -/
def onto (g' : Graph) (s : Session T) : Session T :=
  { s with machine := { g' with store := s.machine.store } }

end Session

/-- The same response of a session on the graph `g'`. -/
def Response.onto (g' : Graph) (a : Response T) : Response T :=
  { a with session := a.session.onto g' }

namespace Session

variable {s : Session T} {g' : Graph}

theorem bind_onto (hg : s.machine.SelectAlike g') : (s.onto g').bind = s.bind.onto g' := by
  cases hi : s.machine.initial with
  | none =>
    have hi' : g'.initial = none := hg.initial_eq ▸ hi
    simp [Session.bind, Session.onto, Response.onto, hi, hi']
  | some i =>
    have hi' : g'.initial = some i := hg.initial_eq ▸ hi
    have halike := hg.states_alike i (.initial hi)
    simp only [Session.bind, Session.onto, Response.onto, hi, hi']
    generalize s.machine.states[i]? = state at halike ⊢
    generalize g'.states[i]? = state' at halike ⊢
    cases halike with
    | none => rfl
    | some hstate => simp only [hstate.name_eq]

theorem dispatch_onto (hg : s.machine.SelectAlike g') {r : Run T} (hr : s.machine.Live r.current)
    (o : Occurrence T) : (s.onto g').dispatch r o = (s.dispatch r o).onto g' := by
  simp only [Session.dispatch, Session.onto, Response.onto, hg.dispatch?_eq hr]
  cases s.machine.dispatch? s.machine.store r o <;> rfl

/-- **One step** goes the same way on both graphs. -/
theorem step_onto (hg : s.machine.SelectAlike g') (h : s.StandsLive) (x : Step T) :
    (s.onto g').step x = (s.step x).onto g' := by
  cases x with
  | bind => exact bind_onto hg
  | dispatch o =>
    cases hr : s.run with
    | none => simp [step, Session.onto, Response.onto, hr]
    | some r =>
      rw [step_dispatch hr, step_dispatch (s := s.onto g') hr]
      exact dispatch_onto hg (h.current r hr) o
  | unbind | reset | limit n => cases hr : s.run <;> simp [step, Session.onto, Response.onto, hr]

/-- So do any steps. -/
theorem responses_onto (hg : s.machine.SelectAlike g') (h : s.StandsLive)
    (xs : List (Step T)) : (s.onto g').responses xs = (s.responses xs).map (·.onto g') := by
  induction xs generalizing s with
  | nil => rfl
  | cons x xs ih =>
    have ha : s.Answers x (s.step x) := answers_step s x
    have hg' : (s.step x).session.machine.SelectAlike g' := ha.graph_eq ▸ hg
    have htail := ih hg' (h.answer ha)
    rw [responses_cons, responses_cons, List.map_cons, step_onto hg h, ← htail]
    rfl

/-- Machines that select alike give the same responses, at whatever instants events come. -/
theorem responses_alike_onto {m m' : Machine} (hstore : m.store = m'.store)
    (hg : m.SelectAlike m'.toGraph) {xs ys : List (Step T)}
    (h : xs.map Step.untimed = ys.map Step.untimed) :
    (m'.session.responses ys).map Response.untimed =
      (m.session.responses xs).map fun a => (a.onto m'.toGraph).untimed := by
  have hsession : (m.session : Session T).onto m'.toGraph = m'.session := by
    simp [Session.onto, Machine.session, hstore]
  -- carrying a response over and leaving the instants out of it can be exchanged
  have honto (as : List (Response T)) : (as.map fun a => (a.onto m'.toGraph).untimed) =
      (as.map Response.untimed).map (·.onto m'.toGraph) := by
    rw [List.map_map]
    rfl
  rw [← hsession, responses_onto hg standsLive_session, List.map_map]
  exact (honto _).trans ((congrArg _ (responses_alike h.symm)).trans (honto _).symm)

end Session

/-! ## Machines that are the same as far as they are live -/

/-- **Only what is live matters.**  A run of a machine always stands at a live position.  Another
machine with the same variables that is the same as far as the first one is live answers every step
of every session in the same way: with the same reply and report, with the run at the same position
with the same history, and with the same variables.  This is so at whatever instants the events
come, which the histories tell and nothing else does.

So transitions for the same event behind an unguarded one make no difference, nor does the order of
transitions for different events, nor does anything that stands at other positions. -/
theorem Machine.only_live_matters (m : Machine) (xs : List (Step T)) :
    (∀ r ∈ (m.session.after xs).run, m.Live r.current) ∧
      (∀ (m' : Machine) (ys : List (Step T)), m.store = m'.store → m.SameLive m'.toGraph →
        xs.map Step.untimed = ys.map Step.untimed →
          (m'.session.responses ys).map Response.untimed =
            (m.session.responses xs).map fun a => (a.onto m'.toGraph).untimed) ∧
      (∀ (name : String) (t : Transition StateId) (before after : List (Transition StateId)),
        t.isUnguarded → State.SameLive ⟨name, before ++ t :: after⟩
          ⟨name, before ++ t :: after.filter fun u => u.event ≠ t.event⟩) ∧
      ∀ (name : String) (t u : Transition StateId) (before after : List (Transition StateId)),
        t.event ≠ u.event →
          State.SameLive ⟨name, before ++ t :: u :: after⟩ ⟨name, before ++ u :: t :: after⟩ := by
  refine ⟨fun r hr => ?_, fun m' ys hstore hsame halike => ?_, ?_, ?_⟩
  · have hgraph : (m.session.after xs).machine.toGraph = m.toGraph :=
      Session.after_graph_eq m.session xs
    exact hgraph ▸ (Session.standsLive_after Session.standsLive_session xs).current r hr
  · exact Session.responses_alike_onto hstore hsame.selectAlike halike
  · exact fun _ _ _ _ => State.sameLive_filter_behind
  · exact fun _ _ _ _ _ => State.sameLive_swap

/-- The turnstile with a second transition for coins that never fires, and with a state that is
never entered. -/
def loadedTurnstile : Script :=
  [.state "locked", .when "coin", .goto "open", .update ⟨"coins", .increment⟩, .when "coin",
    .goto "jammed", .integer "coins", .state "open", .when "push",
    .guard ⟨"coins", .greaterThan, 0⟩, .goto "locked", .state "locked", .when "coin", .goto "open",
    .update ⟨"coins", .increment⟩, .initial, .state "jammed", .when "kick", .goto "locked"]

/-- The machine that is built from it. -/
def loadedTurnstileMachine : Machine where
  states :=
    [⟨"locked", [⟨"coin", 1, some ⟨"coins", .increment⟩, none⟩, ⟨"coin", 3, none, none⟩]⟩,
      ⟨"open", [⟨"push", 0, none, some ⟨"coins", .greaterThan, 0⟩⟩]⟩,
      ⟨"locked", [⟨"coin", 1, some ⟨"coins", .increment⟩, none⟩]⟩,
      ⟨"jammed", [⟨"kick", 0, none, none⟩]⟩]
  initial := some 2
  store := (∅ : Store).declare "coins"

theorem build_loadedTurnstile : loadedTurnstile.build = .ok loadedTurnstileMachine := rfl

theorem turnstile_sameLive : turnstileMachine.SameLive loadedTurnstileMachine.toGraph where
  initial_eq := rfl
  exists_states i hi := by
    have hlt : i < 3 := (Script.closed_of_build build_turnstile).lt_of_live hi
    let coin : Transition StateId := ⟨"coin", 1, some ⟨"coins", .increment⟩, none⟩
    have hdead : State.SameLive ⟨"locked", [] ++ coin :: [⟨"coin", 3, none, none⟩]⟩
        ⟨"locked", [] ++ coin :: []⟩ := State.sameLive_filter_behind rfl
    match i, hlt with
    | 0, _ => exact ⟨_, _, rfl, rfl, rfl, fun e => (hdead.live_eq e).symm⟩
    | 1, _ => exact ⟨_, _, rfl, rfl, rfl, fun _ => rfl⟩
    | 2, _ => exact ⟨_, _, rfl, rfl, rfl, fun _ => rfl⟩

/-- What was added to the turnstile is never noticed, whether its events come soon or late. -/
theorem turnstile_only_live_matters :
    turnstile.build = .ok turnstileMachine ∧ loadedTurnstile.build = .ok loadedTurnstileMachine ∧
      turnstileMachine.store = loadedTurnstileMachine.store ∧
      turnstileMachine.SameLive loadedTurnstileMachine.toGraph ∧
      (∀ r ∈ (turnstileMachine.session.after
          [.bind, .dispatch ⟨"coin", 1⟩, .dispatch ⟨"push", 2⟩]).run,
        turnstileMachine.Live r.current) ∧
      (loadedTurnstileMachine.session.responses
          [.bind, .dispatch ⟨"coin", 10⟩, .dispatch ⟨"push", 20⟩]).map Response.untimed =
        ((turnstileMachine.session.responses
          [.bind, .dispatch ⟨"coin", 1⟩, .dispatch ⟨"push", 2⟩]).map
            fun a => (a.onto loadedTurnstileMachine.toGraph).untimed) ∧
      (turnstileMachine.session.responses
          [.bind, .dispatch ⟨"coin", 1⟩, .dispatch ⟨"push", 2⟩]).map (·.reply) =
        [.bound, .dispatched (.fired 2 1), .dispatched (.fired 1 0)] := by
  obtain ⟨hlive, halike, -, -⟩ := Machine.only_live_matters turnstileMachine
    [.bind, .dispatch ⟨"coin", 1⟩, .dispatch ⟨"push", 2⟩]
  exact ⟨build_turnstile, build_loadedTurnstile, rfl, turnstile_sameLive, hlive,
    halike loadedTurnstileMachine _ rfl turnstile_sameLive rfl, rfl⟩

end GuardedMachine
