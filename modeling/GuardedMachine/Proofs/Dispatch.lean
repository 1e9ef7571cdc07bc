import GuardedMachine.Proofs.Firing
import GuardedMachine.Proofs.Trail

/-!
# What an event comes to

An event that is dispatched to a run either changes nothing at all or makes one transition fire, and
`Script.dispatch_spec` says which of the two happens and all that it brings about.  The parts of it
are stated apart from each other: what a transition does to the variables name by name
(`Transition.Writes`), and what becomes of the run (`Run.Moves`), in which the history has to be
known to have kept to its limit, since otherwise it would be a different one that turns recording
off.
-/

set_option autoImplicit false

namespace GuardedMachine

/-! ## Variables -/

/-- The variables after a transition has fired are the variables before, except for the one that its
update writes, if it has an update. -/
structure Transition.Writes {τ : Type} (t : Transition τ) (before after : Store) : Prop where
  /-- The change is made once, of the value before. -/
  written : ∀ u ∈ t.update, u.var ∈ after ∧ after.read u.var = u.change.eval (before.read u.var)
  /-- Any other name is held as before and has the value that it had. -/
  other : ∀ x, (∀ u ∈ t.update, u.var ≠ x) →
    (x ∈ after ↔ x ∈ before) ∧ after.read x = before.read x
  none : t.update = none → after = before

theorem Transition.writes_apply {τ : Type} (t : Transition τ) (σ : Store) :
    t.Writes σ (t.apply σ) := by
  cases hu : t.update with
  | none =>
    have happly : t.apply σ = σ := by simp [apply, hu]
    rw [happly]
    exact ⟨by simp [hu], fun _ _ => ⟨Iff.rfl, rfl⟩, fun _ => rfl⟩
  | some u =>
    have happly : t.apply σ = σ.write u.var (u.written σ) := by simp only [apply, hu, Update.apply]
    rw [happly]
    refine ⟨?_, fun x hx => ?_, by simp [hu]⟩
    · rintro _ hmem
      obtain rfl := Option.some.inj (hu.symm.trans hmem)
      exact ⟨Store.mem_write_self, Store.read_write_self⟩
    · have hne : u.var ≠ x := hx u hu
      exact ⟨Store.mem_write.trans (or_iff_right hne), Store.read_write_of_ne hne⟩

/-! ## Runs -/

variable {T : Type}

/-- The second run is the first one after the move `m` to the position `i`. -/
structure Run.Moves (r : Run T) (i : StateId) (m : StampedMove T) (r' : Run T) : Prop where
  start_eq : r'.start = r.start
  current_eq : r'.current = i
  limit_eq : r'.history.limit = r.history.limit
  /-- The move comes last, and the first ones are dropped as the limit demands. -/
  entries_eq : r'.history.entries = retain r.history.limit (r.history.entries ++ [m])
  off : r.history.limit = some 0 → r'.history = r.history

theorem Run.moves_enter {r : Run T} (hlen : ∀ n ∈ r.history.limit, r.history.entries.length ≤ n)
    (i : StateId) (m : StampedMove T) : r.Moves i m (r.enter i m) where
  start_eq := rfl
  current_eq := rfl
  limit_eq := by rw [history_enter, History.limit_record]
  entries_eq := by rw [history_enter, History.entries_record hlen]
  off hlimit := by simp [enter, History.isRecording, hlimit]

/-! ## Events -/

/-- In the state `source`, where the run `r` of the session stands, the transition `t` fires on the
event, and this is the response. -/
structure Session.Fires (s : Session T) (r : Run T) (source : State StateId)
    (o : Occurrence T) (t : Transition StateId) (a : Response T) : Prop where
  reply : a.reply = .dispatched (.fired r.current t.target)
  graph_eq : a.session.machine.toGraph = s.machine.toGraph
  store : t.Writes s.machine.store a.session.machine.store
  run : ∃ target r', s.machine.states[t.target]? = some target ∧ a.session.run = some r' ∧
    r.Moves t.target ⟨⟨o.event, source.name, target.name⟩, o.time⟩ r'

/-- **All that an event comes to.**  Take any moment of a session of a machine that was built at
which a run is bound.

An event is ignored if and only if no candidate of the current state is enabled, and then nothing
changes.  Otherwise the earliest candidate that is enabled fires.  The reply says where the run
stood and where the transition leads to, and there the run stands from then on; the variables change
by the update of the transition, made once, and not otherwise; the move comes last in the history,
with the instant of the event and as far as the limit allows; and the graph, the start of the run
and the limit stay as they are. -/
theorem Script.dispatch_spec {script : Script} {m : Machine} (hm : script.build = .ok m)
    (xs : List (Step T)) {r : Run T} (hr : (m.session.after xs).run = some r) (o : Occurrence T) :
    ∃ source, (m.session.after xs).currentState? = some source ∧
      (((m.session.after xs).step (.dispatch o)).reply = .dispatched .ignored ↔
        ∀ t ∈ source.candidates o.event, ¬ t.Enabled (m.session.after xs).machine.store) ∧
      ((∀ t ∈ source.candidates o.event, ¬ t.Enabled (m.session.after xs).machine.store) →
        ((m.session.after xs).step (.dispatch o)).session = m.session.after xs) ∧
      ∀ t before after, source.candidates o.event = before ++ t :: after →
        t.Enabled (m.session.after xs).machine.store →
        (∀ u ∈ before, ¬ u.Enabled (m.session.after xs).machine.store) →
          (m.session.after xs).Fires r source o t
            ((m.session.after xs).step (.dispatch o)) := by
  have hg := closed_of_build hm
  have hinside : (m.session.after xs).Inside m.toGraph := Session.inside_session.after hg xs
  have hfollows := Session.follows_of_run hr
  have hlen : ∀ n ∈ r.history.limit, r.history.entries.length ≤ n := by
    intro n hn
    rw [hfollows.limit] at hn
    obtain rfl := Option.some.inj hn
    exact hfollows.length ▸ hfollows.kept_le
  generalize m.session.after xs = s at hr hinside
  obtain ⟨source, hsource, hanswer⟩ := hinside.dispatch_cases hg hr o
  have hstates : s.machine.states = m.states := congrArg Graph.states hinside.graph_eq
  refine ⟨source, by rw [Session.currentState?_of_run hr, hstates, hsource], ?_⟩
  rw [Session.step_dispatch hr]
  rcases hanswer with ⟨hselect, hd⟩ | ⟨t, target, hselect, htarget, hd⟩
  · have hnone := State.select?_eq_none_iff.1 hselect
    rw [hd]
    refine ⟨iff_of_true rfl hnone, fun _ => rfl, fun t before after hcandidates ht _ => ?_⟩
    have hmem : t ∈ source.candidates o.event := by simp [hcandidates]
    exact absurd ht (hnone t hmem)
  · have hsome := State.enabled_of_select? hselect
    have hmem := State.mem_candidates_of_select? hselect
    rw [hd]
    refine ⟨iff_of_false (by simp) fun h => h t hmem hsome, fun h => absurd hsome (h t hmem), ?_⟩
    intro t' before after hcandidates ht' hbefore
    -- the earliest candidate that is enabled is the one that is selected
    obtain rfl : t' = t := by
      rw [State.select?_eq_some_iff.2 ⟨ht', before, after, hcandidates, hbefore⟩] at hselect
      exact Option.some.inj hselect
    refine ⟨rfl, rfl, t'.writes_apply _, target, _, ?_, rfl, Run.moves_enter hlen _ _⟩
    rw [hstates, htarget]

/-- The run of the odometer that has been turned up, while one move may be remembered. -/
def tamperedRun : Run Nat where
  start := 0
  current := 0
  history := ⟨[⟨⟨"tamper", "road", "road"⟩, 7⟩], some 1⟩

/-- One more kilometre takes the odometer from its largest number to its smallest, and it forgets
that it was turned up. -/
theorem odometer_dispatch_spec :
    odometer.build = .ok odometerMachine ∧
      (odometerMachine.session.after [.bind, .dispatch ⟨"tamper", 7⟩, .limit 1]).run =
        some tamperedRun ∧
      ∃ a, (odometerMachine.session.after [.bind, .dispatch ⟨"tamper", 7⟩, .limit 1]).step
          (.dispatch ⟨"drive", 9⟩) = a ∧
        a.reply = .dispatched (.fired 0 0) ∧
        a.session.machine.store.read "km" = -9223372036854775808 ∧
        a.session.run.map (·.history.entries) = some [⟨⟨"drive", "road", "road"⟩, 9⟩] := by
  have hrun : (odometerMachine.session.after [.bind, .dispatch ⟨"tamper", 7⟩, .limit 1]).run =
      some tamperedRun := rfl
  obtain ⟨source, hsource, -, -, hfires⟩ := Script.dispatch_spec build_odometer _ hrun ⟨"drive", 9⟩
  cases hsource
  have h := hfires ⟨"drive", 0, some ⟨"km", .increment⟩, none⟩ [] [] (by decide) (by decide) nofun
  obtain ⟨target, r', htarget, hr', hmoves⟩ := h.run
  cases htarget
  refine ⟨build_odometer, hrun, _, rfl, h.reply, (h.store.written _ rfl).2, ?_⟩
  rw [hr', Option.map_some, hmoves.entries_eq]
  rfl

end GuardedMachine
