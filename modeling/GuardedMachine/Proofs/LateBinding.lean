import GuardedMachine.Script.LateBinding
import GuardedMachine.Proofs.Safety

/-!
# Linking keeps the meaning of a script

Draft states can be run by looking names up as they are needed, and a machine can be built from
them and run by positions.  `Script.trace_matches_responses` says that the two runs go the same way,
event by event: they stand at the same position, at a state of the same name, with the same
variables.

The proof is a simulation.  `Simulates` relates a run of the drafts to a session of the linked
graph, and holds of the two starts.  One event keeps it (`Simulates.dispatch`): a draft and its
linked state select the same transition, since selection does not see targets, and the name that the
draft looks up is found where the linked transition points.
-/

set_option autoImplicit false

namespace GuardedMachine

/-! ## Looking up names and looking up positions -/

section

variable {drafts : List DraftState} {i : StateId} {name : String}

/-- To look a name up is to find the first draft that bears it. -/
theorem LateRun.locate?_eq_some {d : DraftState} (hi : firstNamed? drafts name = some i)
    (hd : drafts[i]? = some d) : locate? drafts name = some (d, i) := by
  obtain ⟨⟨d', hd', hname⟩, hlt⟩ := firstNamed?_eq_some_iff.1 hi
  obtain rfl : d = d' := Option.some.inj (hd.symm.trans hd')
  obtain ⟨h, hget⟩ := List.getElem?_eq_some_iff.1 hd
  refine List.find?_eq_some_iff_getElem.2 ⟨by simpa using hname, i, by simpa using h, ?_, ?_⟩
  · simp [hget]
  · intro j hj
    have hjd : drafts[j]? = some drafts[j] := List.getElem?_eq_getElem (Nat.lt_trans hj h)
    simpa using hlt j hj _ hjd

variable {s : State StateId} {d : DraftState} {event : String} {σ : Store}

/-- A linked state selects what its draft selects, up to targets. -/
theorem map_select?_of_linked (h : s.mapTargets some = d.mapTargets (·.bind (firstNamed? drafts)))
    (event : String) (σ : Store) :
    (s.select? event σ).map (·.mapTarget some) =
      (d.select? event σ).map (·.mapTarget (·.bind (firstNamed? drafts))) := by
  rw [← State.select?_mapTargets, ← State.select?_mapTargets, h]

theorem select?_eq_none_of_linked
    (h : s.mapTargets some = d.mapTargets (·.bind (firstNamed? drafts)))
    (hs : s.select? event σ = none) : d.select? event σ = none := by
  have hselect := map_select?_of_linked h event σ
  rw [hs] at hselect
  exact Option.map_eq_none_iff.1 hselect.symm

/-- The linked transition points where the name that its draft was given is found, and has the same
update. -/
theorem exists_select?_of_linked
    (h : s.mapTargets some = d.mapTargets (·.bind (firstNamed? drafts))) {t : Transition StateId}
    (hs : s.select? event σ = some t) :
    ∃ u name, d.select? event σ = some u ∧ u.target = some name ∧
      firstNamed? drafts name = some t.target ∧ u.apply σ = t.apply σ := by
  have hselect := map_select?_of_linked h event σ
  rw [hs] at hselect
  obtain ⟨u, hu, hut⟩ := Option.map_eq_some_iff.1 hselect.symm
  obtain ⟨name, hname, hfirst⟩ := Transition.exists_name_of_mapTarget hut.symm
  exact ⟨u, name, hu, hname, hfirst, congrArg (fun v => Transition.apply v σ) hut⟩

end

/-! ## The simulation -/

/-- The session stands where the run of the drafts stands, and its variables have the same names and
values. -/
structure LateRun.Matches {T : Type} (l : LateRun) (s : Session T) : Prop where
  /-- The position. -/
  position : s.run.map (·.current) = some l.current.2
  /-- The name of the state. -/
  name : s.currentState?.map (·.name) = some l.current.1.name
  /-- The variables. -/
  store : s.machine.store = l.store

/-- The run of the drafts and the session of the graph that is linked from them stand at the same
place. -/
structure Simulates {T : Type} (drafts : List DraftState) (g : Graph) (l : LateRun)
    (s : Session T) : Prop where
  /-- The session runs the graph. -/
  inside : s.Inside g
  /-- The draft of the run is the one at its position. -/
  draft : drafts[l.current.2]? = some l.current.1
  /-- The positions are the same. -/
  position : s.run.map (·.current) = some l.current.2
  /-- The variables are the same. -/
  store : s.machine.store = l.store

section

variable {T : Type} {drafts : List DraftState} {g : Graph} {l : LateRun} {s : Session T}

/-- Drafts and linked states bear the same names, so standing at the same place is enough. -/
theorem Simulates.matches (h : Simulates drafts g l s) (hlinked : Linked drafts g.states) :
    l.Matches s where
  position := h.position
  name := by
    obtain ⟨r, hr, hcurrent⟩ := Option.map_eq_some_iff.1 h.position
    obtain ⟨state, hstate, hget⟩ := h.inside.currentState? hr
    rw [hcurrent] at hget
    obtain ⟨d, hd, heq⟩ := hlinked.exists_draft hget
    obtain rfl : l.current.1 = d := Option.some.inj (h.draft.symm.trans hd)
    rw [hstate]
    exact congrArg (fun s => some s.name) heq
  store := h.store

/-- **One event.**  Both runs ignore it, or both go to the same position. -/
theorem Simulates.dispatch (hg : g.Closed) (hlinked : Linked drafts g.states)
    (h : Simulates drafts g l s) (o : Occurrence T) :
    ∃ outcome next, LateRun.dispatch? drafts l o.event = some (outcome, next) ∧
      (s.step (.dispatch o)).reply = .dispatched outcome ∧
      Simulates drafts g next (s.step (.dispatch o)).session := by
  obtain ⟨r, hr, hcurrent⟩ := Option.map_eq_some_iff.1 h.position
  have hinside : (s.step (.dispatch o)).session.Inside g := h.inside.step hg _
  obtain ⟨source, hsource, hd⟩ := h.inside.dispatch_cases hg hr o
  rw [hcurrent] at hsource
  obtain ⟨d, hdraft, heq⟩ := hlinked.exists_draft hsource
  obtain rfl : l.current.1 = d := Option.some.inj (h.draft.symm.trans hdraft)
  rw [Session.step_dispatch hr] at hinside ⊢
  rw [h.store] at hd
  obtain ⟨ht, hd⟩ | ⟨t, target, ht, htarget, hd⟩ := hd
  · refine ⟨.ignored, l, ?_, by rw [hd], by rw [hd]; exact h⟩
    rw [LateRun.dispatch?, select?_eq_none_of_linked heq ht]
  · obtain ⟨u, name, hu, hname, hfirst, happly⟩ := exists_select?_of_linked heq ht
    obtain ⟨next, hnext, -⟩ := hlinked.exists_draft htarget
    refine ⟨.fired l.current.2 t.target, ⟨(next, t.target), t.apply l.store⟩, ?_, ?_, ?_⟩
    · rw [LateRun.dispatch?, hu]
      simp [hname, LateRun.locate?_eq_some hfirst hnext, happly]
    · rw [hd, hcurrent]
    · rw [hd] at hinside ⊢
      exact ⟨hinside, hnext, rfl, rfl⟩

/-- Any list of events. -/
theorem Simulates.trace (hg : g.Closed) (hlinked : Linked drafts g.states)
    (h : Simulates drafts g l s) (os : List (Occurrence T)) :
    ∃ trace, LateRun.trace? drafts l (os.map (·.event)) = some trace ∧
      List.Forall₂ (fun p a => a.reply = .dispatched p.1 ∧ p.2.Matches a.session) trace
        (s.responses (os.map .dispatch)) := by
  induction os generalizing l s with
  | nil => exact ⟨[], rfl, .nil⟩
  | cons o os ih =>
    obtain ⟨outcome, next, hd, hreply, hnext⟩ := h.dispatch hg hlinked o
    obtain ⟨trace, htrace, hall⟩ := ih hnext
    refine ⟨(outcome, next) :: trace, ?_, .cons ⟨hreply, hnext.matches hlinked⟩ hall⟩
    rw [List.map_cons, LateRun.trace?, hd]
    simp [htrace]

end

/-! ## From the start -/

/-- **Linking keeps the meaning of a script.**  If a machine is built and has an initial state, then
its drafts can be run on every list of events.  The run starts where a run of the machine starts;
and for each event, what becomes of it and where the run stands afterwards, with which variables,
is the same in both, whenever the events come. -/
theorem Script.trace_matches_responses {T : Type} {script : Script} {m : Machine}
    (hm : script.build = .ok m) (hi : m.initial ≠ none) (os : List (Occurrence T)) :
    ∃ start trace, script.read.lateStart? = some start ∧
      LateRun.trace? script.read.states start (os.map (·.event)) = some trace ∧
      ((m.session : Session T).step .bind).reply = .bound ∧
      start.Matches ((m.session : Session T).step .bind).session ∧
      List.Forall₂ (fun p a => a.reply = .dispatched p.1 ∧ p.2.Matches a.session) trace
        ((m.session.step .bind).session.responses (os.map .dispatch)) := by
  have hg := closed_of_build hm
  obtain ⟨-, hlinked, hinitial, hstore⟩ := build_eq_ok_iff.1 hm
  obtain ⟨hnone, -⟩ | ⟨i, state, hi', hstate, hbind⟩ :=
    (Session.inside_session (T := T)).bind_cases hg
  · exact absurd hnone hi
  obtain ⟨d, hd, -⟩ := hlinked.exists_draft hstate
  have hstart : script.read.lateStart? = some ⟨(d, i), m.store⟩ := by
    rw [Reading.lateStart?, read_initial, ← hinitial, hi', read_states, read_store, ← hstore]
    simp [LateRun.start?, hd]
  have hinside : ((m.session : Session T).step .bind).session.Inside m.toGraph :=
    Session.inside_session.step hg _
  rw [Session.step_bind, hbind] at hinside ⊢
  have hsim : Simulates script.outline m.toGraph ⟨(d, i), m.store⟩
      { m.session with run := some (.startAt i) } := ⟨hinside, hd, rfl, rfl⟩
  obtain ⟨trace, htrace, hall⟩ := hsim.trace hg hlinked os
  exact ⟨_, trace, hstart, by rw [read_states]; exact htrace, rfl, hsim.matches hlinked, hall⟩

/-- The turnstile starts at the second of two states of one name; both runs leave it for the state
between the two and return to the first. -/
theorem turnstile_trace_matches_responses :
    turnstile.build = .ok turnstileMachine ∧ turnstileMachine.initial ≠ none ∧
      ((turnstileMachine.session.step .bind).session.responses
          [.dispatch ⟨"coin", 1⟩, .dispatch ⟨"push", 2⟩, .dispatch ⟨"coin", 3⟩,
            .dispatch ⟨"coin", 4⟩]).map (·.reply) =
        [.dispatched (.fired 2 1), .dispatched (.fired 1 0), .dispatched (.fired 0 1),
          .dispatched .ignored] ∧
      ∃ start trace, turnstile.read.lateStart? = some start ∧
        LateRun.trace? turnstile.read.states start ["coin", "push", "coin", "coin"] = some trace ∧
        trace.map (·.1) = [.fired 2 1, .fired 1 0, .fired 0 1, .ignored] ∧
        start.Matches ((turnstileMachine.session : Session Nat).step .bind).session ∧
        List.Forall₂ (fun p a => a.reply = .dispatched p.1 ∧ p.2.Matches a.session) trace
          ((turnstileMachine.session.step .bind).session.responses
            [.dispatch ⟨"coin", 1⟩, .dispatch ⟨"push", 2⟩, .dispatch ⟨"coin", 3⟩,
              .dispatch ⟨"coin", 4⟩]) := by
  obtain ⟨start, trace, hstart, htrace, -, hmatches, hall⟩ :=
    Script.trace_matches_responses build_turnstile (by decide)
      [⟨"coin", 1⟩, ⟨"push", 2⟩, ⟨"coin", 3⟩, ⟨"coin", 4⟩]
  refine ⟨build_turnstile, by decide, rfl, start, trace, hstart, htrace, ?_, hmatches, hall⟩
  obtain rfl := Option.some.inj hstart
  obtain rfl := Option.some.inj htrace
  rfl

end GuardedMachine
