import GuardedMachine.Session
import Mathlib.Data.List.Forall2

/-!
# What a clock cannot change

The instants at which events come are kept in histories, and nothing else is done with them.  To
leave them out of a session is to carry on as without a clock: `Session.step_untimed` says so of one
step, and `Session.responses_untimed` of any number of them.  So the same steps at other instants
get the same responses, but for the instants (`Session.responses_alike`).

Here everything that holds instants is mapped to what holds values of `Unit` in their place.
-/

set_option autoImplicit false

namespace GuardedMachine

variable {T : Type}

/-! ## Leaving instants out -/

/-- The move without its instant. -/
def StampedMove.untimed (m : StampedMove T) : StampedMove Unit := { m with time := () }

/-- The history without its instants. -/
def History.untimed (h : History (StampedMove T)) : History (StampedMove Unit) :=
  ⟨h.entries.map .untimed, h.limit⟩

/-- The event without its instant. -/
def Occurrence.untimed (o : Occurrence T) : Occurrence Unit := { o with time := () }

/-- The run with a history without instants. -/
def Run.untimed (r : Run T) : Run Unit := { r with history := r.history.untimed }

/-- The same effect on a run without instants. -/
def Effect.untimed (d : Effect T) : Effect Unit := { d with run := d.run.untimed }

/-- The session with a run without instants. -/
def Session.untimed (s : Session T) : Session Unit := ⟨s.machine, s.run.map .untimed⟩

/-- The step without the instant of its event. -/
def Step.untimed : Step T → Step Unit
  | bind => .bind
  | unbind => .unbind
  | dispatch o => .dispatch o.untimed
  | reset => .reset
  | limit n => .limit n

/-- The response without instants in its session. -/
def Response.untimed (a : Response T) : Response Unit := { a with session := a.session.untimed }

/-- The same events at other instants are the same steps. -/
theorem Step.map_untimed_dispatch {os ps : List (Occurrence T)}
    (h : os.map (·.event) = ps.map (·.event)) :
    (os.map dispatch).map untimed = (ps.map dispatch).map untimed := by
  have hevents (os : List (Occurrence T)) : (os.map dispatch).map untimed =
      (os.map (·.event)).map fun event => dispatch ⟨event, ()⟩ := by
    rw [List.map_map, List.map_map]
    rfl
  rw [hevents, hevents, h]

/-! ## Histories and runs -/

namespace History

variable {h : History (StampedMove T)} {m : StampedMove T} {limit : Option Nat}

@[simp] theorem moves_untimed : h.untimed.moves = h.moves := by
  rw [moves, untimed, List.map_map]
  rfl

@[simp] theorem path_untimed : h.untimed.path = h.path := congrArg Move.path moves_untimed

@[simp] theorem limit_untimed : h.untimed.limit = h.limit := rfl

theorem enforceLimit_untimed : h.enforceLimit.untimed = h.untimed.enforceLimit := by
  rw [enforceLimit_eq, enforceLimit_eq, untimed, map_retain]
  rfl

theorem setLimit_untimed : (h.setLimit limit).untimed = h.untimed.setLimit limit :=
  enforceLimit_untimed

theorem record_untimed : (h.record m).untimed = h.untimed.record m.untimed := by
  rw [record, record]
  show _ = if h.isRecording then _ else _
  split
  · rw [enforceLimit_untimed, untimed, List.map_append]
    rfl
  · rfl

end History

namespace Run

variable {r : Run T} {i : StateId}

@[simp] theorem current_untimed : r.untimed.current = r.current := rfl

@[simp] theorem history_untimed : r.untimed.history = r.history.untimed := rfl

@[simp] theorem untimed_untimed : r.untimed.untimed = r.untimed := by
  rw [untimed, history_untimed, History.untimed, History.untimed, List.map_map]
  rfl

theorem enter_untimed {m : StampedMove T} :
    (r.enter i m).untimed = r.untimed.enter i m.untimed := by
  rw [enter_eq, enter_eq, untimed, History.record_untimed]
  rfl

theorem setLimit_untimed {n : Nat} : (r.setLimit n).untimed = r.untimed.setLimit n := by
  rw [setLimit, untimed, History.setLimit_untimed]
  rfl

end Run

theorem Graph.dispatch?_untimed (g : Graph) (σ : Store) (r : Run T) (o : Occurrence T) :
    g.dispatch? σ r.untimed o.untimed = (g.dispatch? σ r o).map .untimed := by
  cases hsource : g.states[r.current]? with
  | none => simp [dispatch?, hsource]
  | some source =>
    cases ht : source.select? o.event σ with
    | none =>
      rw [dispatch?_of_select?_eq_none hsource ht,
        dispatch?_of_select?_eq_none (o := o.untimed) (r := r.untimed) hsource ht]
      rfl
    | some t =>
      cases htarget : g.states[t.target]? with
      | none => simp [dispatch?, hsource, Occurrence.untimed, ht, htarget]
      | some target =>
        rw [dispatch?_of_select?_eq_some hsource ht htarget,
          dispatch?_of_select?_eq_some (o := o.untimed) (r := r.untimed) hsource ht htarget,
          Option.map_some, Effect.untimed, Run.enter_untimed]
        rfl

/-! ## Sessions -/

namespace Session

variable (s : Session T) (x : Step T) (xs : List (Step T))

@[simp] theorem machine_untimed : s.untimed.machine = s.machine := rfl

theorem dispatch_untimed (r : Run T) (o : Occurrence T) :
    (s.dispatch r o).untimed = s.untimed.dispatch r.untimed o.untimed := by
  rw [dispatch, dispatch, machine_untimed, Graph.dispatch?_untimed]
  cases s.machine.dispatch? s.machine.store r o <;> rfl

/-- A step does the same with a clock and without one. -/
theorem step_untimed : (s.step x).untimed = s.untimed.step x.untimed := by
  obtain ⟨m, run⟩ := s
  cases x with
  | bind =>
    show (bind ⟨m, run⟩).untimed = bind (untimed ⟨m, run⟩)
    rw [bind, bind]
    cases hi : m.initial with
    | none => simp [untimed, hi, Response.untimed]
    | some i =>
      simp only [untimed, hi]
      cases m.states[i]? <;> rfl
  | dispatch o =>
    cases run with
    | none => rfl
    | some r => exact dispatch_untimed _ r o
  | limit n =>
    cases run with
    | none => rfl
    | some r =>
      simp only [step, Response.untimed, untimed, Step.untimed, Option.map_some,
        Run.setLimit_untimed]
  | unbind | reset => cases run <;> rfl

theorem responses_untimed :
    (s.responses xs).map .untimed = s.untimed.responses (xs.map .untimed) := by
  induction xs generalizing s with
  | nil => rfl
  | cons x xs ih =>
    simp only [responses_cons, List.map_cons, ih, ← step_untimed]
    rfl

theorem after_untimed : (s.after xs).untimed = s.untimed.after (xs.map .untimed) := by
  induction xs generalizing s with
  | nil => rfl
  | cons x xs ih =>
    rw [after_cons, List.map_cons, after_cons, ih, ← step_untimed]
    rfl

variable {s} {xs} {ys : List (Step T)}

/-- **Instants do not matter.**  The same steps get the same responses at other instants, apart from
the instants. -/
theorem responses_alike (h : xs.map Step.untimed = ys.map Step.untimed) :
    (s.responses xs).map Response.untimed = (s.responses ys).map Response.untimed := by
  rw [responses_untimed, responses_untimed, h]

/-- The replies are the very same. -/
theorem replies_alike (h : xs.map Step.untimed = ys.map Step.untimed) :
    (s.responses xs).map (·.reply) = (s.responses ys).map (·.reply) := by
  have hreply := congrArg (List.map (·.reply)) (responses_alike (s := s) h)
  rwa [List.map_map, List.map_map] at hreply

/-- They lead to the same session, apart from the instants. -/
theorem after_alike (h : xs.map Step.untimed = ys.map Step.untimed) :
    (s.after xs).untimed = (s.after ys).untimed := by
  rw [after_untimed, after_untimed, h]

/-- A session that is the same as one with a run, apart from the instants, has such a run too. -/
theorem exists_run_of_untimed_eq {s' : Session T} {r' : Run T} (h : s.untimed = s'.untimed)
    (hr' : s'.run = some r') : ∃ r, s = ⟨s'.machine, some r⟩ ∧ r.untimed = r'.untimed := by
  obtain ⟨m, run⟩ := s
  obtain ⟨m', run'⟩ := s'
  obtain rfl : run' = some r' := hr'
  obtain rfl : m = m' := congrArg machine h
  obtain ⟨r, rfl, hr⟩ := Option.map_eq_some_iff.1 (congrArg Session.run h)
  exact ⟨r, rfl, hr⟩

/-- What two sessions have in common wherever both take the same steps without a clock, they have in
common also with events at different instants. -/
theorem forall₂_alike {s' : Session T} {R : Response Unit → Response Unit → Prop}
    (hR : ∀ zs, List.Forall₂ R (s.untimed.responses zs) (s'.untimed.responses zs))
    (h : xs.map Step.untimed = ys.map Step.untimed) :
    List.Forall₂ (fun a b => R a.untimed b.untimed) (s.responses xs) (s'.responses ys) := by
  have hmap : List.Forall₂ R ((s.responses xs).map .untimed) ((s'.responses ys).map .untimed) := by
    rw [responses_untimed, responses_untimed, h]
    exact hR _
  exact List.forall₂_map_right_iff.1 (List.forall₂_map_left_iff.1 hmap)

end Session

end GuardedMachine
