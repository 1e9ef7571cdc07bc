import GuardedMachine.Untimed
import GuardedMachine.Proofs.Trail

/-!
# Two ways to start over

A run can be taken back to its start, or it can be dropped and another one bound.  The first keeps
the limit of the history and the second brings back the default, so the two come to the same if the
new run is given the limit of the old one (`Run.reset_eq_setLimit_startAt`): it starts at the same
position, since every run of a graph starts where the graph does, and it remembers nothing, since a
limit cannot bring back what a new run never had.

The variables belong to the machine, and neither way touches them.
-/

set_option autoImplicit false

namespace GuardedMachine

variable {T : Type}

/-- A run that is reset is a new one with the limit of the old. -/
theorem Run.reset_eq_setLimit_startAt {r : Run T} {n : Nat} (h : r.history.limit = some n) :
    r.reset = (startAt r.start).setLimit n := by
  have hnothing : retain (some n) ([] : List (StampedMove T)) = [] :=
    List.eq_nil_of_suffix_nil retain_suffix
  rw [reset, setLimit, startAt, History.clear, History.setLimit_eq, hnothing, h]

namespace Session

variable {g : Graph} {s : Session T} {r : Run T}

theorem step_reset (hr : s.run = some r) :
    s.step .reset = { session := { s with run := some r.reset }, reply := .done } := by
  simp only [step, hr]

/-- To drop a run, bind another one and limit it leads to a run that has just been started and
limited, of the machine as it was. -/
theorem Inside.responses_rebind (hg : g.Closed) (h : s.Inside g) (hr : s.run = some r) (n : Nat) :
    ∃ first, g.states[r.start]? = some first ∧
      s.responses [.unbind, .bind, .limit n] =
        [⟨⟨s.machine, none⟩, .unbound, []⟩,
          ⟨⟨s.machine, some (.startAt r.start)⟩, .bound, [.bound first.name]⟩,
          ⟨⟨s.machine, some ((Run.startAt r.start).setLimit n)⟩, .done, []⟩] := by
  have hunbind : s.step .unbind = ⟨⟨s.machine, none⟩, .unbound, []⟩ := by
    simp only [Session.step, hr]
  have hinside : Inside g (⟨s.machine, none⟩ : Session T) := by
    have hstep := h.step hg .unbind
    rwa [hunbind] at hstep
  have hstart : g.initial = some r.start := h.start_eq r hr
  rcases hinside.bind_cases hg with ⟨hnone, -⟩ | ⟨i, first, hi, hfirst, hbind⟩
  · rw [hstart] at hnone
    cases hnone
  · obtain rfl : r.start = i := Option.some.inj (hstart.symm.trans hi)
    refine ⟨first, hfirst, ?_⟩
    rw [responses_cons, hunbind, responses_cons, step_bind, hbind]
    rfl

end Session

/-- **To reset a run is to bind it anew.**  Take any moment of a session of a machine that was built
at which a run is bound, and let `n` be the limit of its history.  Then to reset the run, and to
drop it, bind another one and limit that one to `n`, lead to one and the same session, so whatever
steps are taken from there get the same responses, but for the instants if the events do not come at
the same ones.  On neither way does anything happen to the machine or to its variables. -/
theorem Script.reset_eq_rebind {script : Script} {m : Machine} (hm : script.build = .ok m)
    (xs : List (Step T)) {r : Run T} (hr : (m.session.after xs).run = some r) :
    ∃ n, r.history.limit = some n ∧
      ((m.session.after xs).step .reset).reply = .done ∧
      ((m.session.after xs).responses [.unbind, .bind, .limit n]).map (·.reply) =
        [.unbound, .bound, .done] ∧
      (∀ a ∈ (m.session.after xs).responses [.reset] ++
          (m.session.after xs).responses [.unbind, .bind, .limit n],
        a.session.machine = (m.session.after xs).machine) ∧
      m.session.after (xs ++ [.reset]) = m.session.after (xs ++ [.unbind, .bind, .limit n]) ∧
      ∀ ys zs, ys.map Step.untimed = zs.map Step.untimed →
        ((m.session.after (xs ++ [.reset])).responses ys).map Response.untimed =
          ((m.session.after (xs ++ [.unbind, .bind, .limit n])).responses zs).map
            Response.untimed := by
  have hg := closed_of_build hm
  have hinside : (m.session.after xs).Inside m.toGraph := Session.inside_session.after hg xs
  have hlimit : r.history.limit = some (m.session.trail xs).limit :=
    (Session.follows_of_run hr).limit
  generalize (m.session.trail xs).limit = n at hlimit
  refine ⟨n, hlimit, ?_⟩
  simp only [Session.after_append]
  generalize m.session.after xs = s at hr hinside
  obtain ⟨first, -, hrebind⟩ := hinside.responses_rebind hg hr n
  have hsame : s.after [.reset] = s.after [.unbind, .bind, .limit n] := by
    obtain ⟨-, hrest⟩ := List.cons.inj hrebind
    obtain ⟨-, hrest⟩ := List.cons.inj hrest
    obtain ⟨hlimited, -⟩ := List.cons.inj hrest
    calc s.after [.reset]
        = ⟨s.machine, some r.reset⟩ := congrArg Response.session (Session.step_reset hr)
      _ = ⟨s.machine, some ((Run.startAt r.start).setLimit n)⟩ := by
          rw [Run.reset_eq_setLimit_startAt hlimit]
      _ = s.after [.unbind, .bind, .limit n] := (congrArg Response.session hlimited).symm
  refine ⟨?_, ?_, ?_, hsame, fun ys zs halike => hsame ▸ Session.responses_alike halike⟩
  · rw [Session.step_reset hr]
  · rw [hrebind]
    rfl
  · rw [hrebind, Session.responses_cons, Session.step_reset hr]
    simp

/-- The turnstile has moved four times and may remember five moves.  It starts over with the two
coins that it has counted. -/
theorem turnstile_reset_eq_rebind :
    turnstile.build = .ok turnstileMachine ∧
      (turnstileMachine.session.after turnstileVisits).run = some turnstileRun ∧
      turnstileMachine.session.after (turnstileVisits ++ [.reset]) =
        turnstileMachine.session.after (turnstileVisits ++ [.unbind, .bind, .limit 5]) ∧
      ((turnstileMachine.session.after turnstileVisits).step .reset).session.machine.store.read
        "coins" = 2 := by
  have hrun : (turnstileMachine.session.after turnstileVisits).run = some turnstileRun := rfl
  obtain ⟨n, hn, -, -, hmachine, hsame, -⟩ := Script.reset_eq_rebind build_turnstile _ hrun
  cases hn
  refine ⟨build_turnstile, hrun, hsame, ?_⟩
  rw [hmachine _ List.mem_cons_self]
  rfl

end GuardedMachine
