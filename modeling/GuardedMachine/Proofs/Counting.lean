import GuardedMachine.Proofs.Safety

/-!
# Counting up to a bound

A transition from a state to itself that adds one to a variable, guarded by the variable being less
than a bound, counts up to the bound; with the comparison turned round and one taken away, it counts
down to it.  `Session.counter_stops` says where this ends if nothing else in the state waits for the
event.

Values are 64-bit words, the distance to the bound is an exact number.  While the guard holds the
distance is positive, so that there is room for one more step and the sum does not wrap around
(`Direction.toInt_eval`), and each step takes one from the distance (`Direction.distance_eval`).
That is all the arithmetic there is in it: the rest is an induction on the number of events.
-/

set_option autoImplicit false

namespace GuardedMachine

/-- Which way a variable is counted. -/
inductive Direction where
  | up
  | down
deriving DecidableEq, Repr

namespace Direction

/-- One step on the way. -/
def change : Direction → Change
  | up => .increment
  | down => .decrement

/-- How a value that the bound still lies ahead of compares with it. -/
def comparison : Direction → Comparison
  | up => .lessThan
  | down => .greaterThan

/-- How far ahead of the value `v` the bound lies, which is nothing if it has been passed. -/
def distance : Direction → Int64 → Int64 → Nat
  | up, bound, v => (bound.toInt - v.toInt).toNat
  | down, bound, v => (v.toInt - bound.toInt).toNat

/-- The number that is `k` steps ahead of the value `v`. -/
def ahead : Direction → Int64 → Nat → Int
  | up, v, k => v.toInt + k
  | down, v, k => v.toInt - k

/-- The transition that counts the variable `x` in the state `i`. -/
def loop (d : Direction) (i : StateId) (event x : String) (bound : Int64) :
    Transition StateId where
  event := event
  target := i
  update := some ⟨x, d.change⟩
  guard := some ⟨x, d.comparison, bound⟩

variable {d : Direction} {bound v : Int64} {k : Nat}

@[simp] theorem ahead_zero : d.ahead v 0 = v.toInt := by
  cases d <;> simp [ahead]

/-- The guard holds as long as the bound lies ahead. -/
theorem holds_iff : d.comparison.Holds v bound ↔ 0 < d.distance bound v := by
  cases d <;> simp [comparison, Comparison.Holds, distance, Int64.lt_iff_toInt_lt]

/-- A step towards a bound does not wrap around. -/
theorem toInt_eval (h : 0 < d.distance bound v) : (d.change.eval v).toInt = d.ahead v 1 := by
  have hleast := bound.le_toInt
  have hgreatest := bound.toInt_lt
  have hv := v.le_toInt
  have hv' := v.toInt_lt
  cases d with
  | up =>
    have hlt : v.toInt < bound.toInt := by simpa [distance] using h
    rw [change, Change.eval, ahead, Int64.toInt_add]
    exact Int.bmod_eq_of_le (by simp; omega) (by simp; omega)
  | down =>
    have hlt : bound.toInt < v.toInt := by simpa [distance] using h
    rw [change, Change.eval, ahead, Int64.toInt_sub]
    exact Int.bmod_eq_of_le (by simp; omega) (by simp; omega)

/-- A step towards a bound takes one from the distance. -/
theorem distance_eval (h : 0 < d.distance bound v) :
    d.distance bound (d.change.eval v) + 1 = d.distance bound v := by
  have hstep := toInt_eval h
  cases d <;> simp only [distance, ahead] at * <;> omega

theorem ahead_eval (h : 0 < d.distance bound v) :
    d.ahead (d.change.eval v) k = d.ahead v (k + 1) := by
  have hstep := toInt_eval h
  cases d <;> simp only [ahead] at * <;> omega

end Direction

namespace Session

variable {T : Type} {s : Session T} {r : Run T} {o : Occurrence T}
  {source : State StateId} {event x : String} {d : Direction} {bound : Int64}

/-- The session with the variable `x` counted one further, and with the run `r`. -/
def counted (s : Session T) (d : Direction) (x : String) (r : Run T) : Session T where
  machine :=
    { s.machine with store := s.machine.store.write x (d.change.eval (s.machine.store.read x)) }
  run := some r

/-- The transition fires if the bound lies ahead, and the run stays in its state. -/
theorem step_loop_of_pos (hr : s.run = some r)
    (hsource : s.machine.states[r.current]? = some source)
    (hloop : source.candidates o.event = [d.loop r.current o.event x bound])
    (h : 0 < d.distance bound (s.machine.store.read x)) :
    ∃ r', r'.current = r.current ∧
      (s.step (.dispatch o)).session = s.counted d x r' ∧
      (s.step (.dispatch o)).reply = .dispatched (.fired r.current r.current) := by
  have henabled : (d.loop r.current o.event x bound).Enabled s.machine.store := by
    simpa [Transition.Enabled, Direction.loop, Guard.Holds] using Direction.holds_iff.2 h
  have hselect : source.select? o.event s.machine.store = some (d.loop r.current o.event x bound) :=
    State.select?_eq_some_iff.2 ⟨henabled, [], [], hloop, by simp⟩
  rw [step_dispatch hr, Session.dispatch,
    Graph.dispatch?_of_select?_eq_some hsource hselect hsource]
  exact ⟨r.enter r.current ⟨⟨o.event, source.name, source.name⟩, o.time⟩, rfl, rfl, rfl⟩

/-- The event is ignored if the bound has been reached. -/
theorem step_loop_of_eq_zero (hr : s.run = some r)
    (hsource : s.machine.states[r.current]? = some source)
    (hloop : source.candidates o.event = [d.loop r.current o.event x bound])
    (h : d.distance bound (s.machine.store.read x) = 0) :
    (s.step (.dispatch o)).session = s ∧
      (s.step (.dispatch o)).reply = .dispatched .ignored := by
  have hfails : ¬ (d.loop r.current o.event x bound).Enabled s.machine.store := by
    have hguard : ¬ d.comparison.Holds (s.machine.store.read x) bound := by
      rw [Direction.holds_iff, h]
      exact Nat.lt_irrefl 0
    simpa [Transition.Enabled, Direction.loop, Guard.Holds] using hguard
  have hselect : source.select? o.event s.machine.store = none := by
    rw [State.select?_eq_none_iff, hloop]
    simpa using hfails
  rw [step_dispatch hr, Session.dispatch, Graph.dispatch?_of_select?_eq_none hsource hselect]
  obtain ⟨machine, run⟩ := s
  cases hr
  exact ⟨rfl, rfl⟩

/-- **A guarded counter stops at its bound.**  Take any session whose run stands in a state where
the only transition for an event counts the variable `x` towards a bound, and give it that event any
number of times, at whatever instants.

The transition fires as many times as the event comes or as the bound is away, whichever is less,
and after that the event is ignored.  The run stays where it is.  The value of the variable is then
that many steps away from what it was, as an exact number, and since this is so for any number of
events it has not wrapped around on the way.  The graph stays as it is and so do all the other
variables. -/
theorem counter_stops (hr : s.run = some r) (hsource : s.machine.states[r.current]? = some source)
    (hloop : source.candidates event = [d.loop r.current event x bound])
    (os : List (Occurrence T)) (hevent : ∀ o ∈ os, o.event = event) :
    ∃ k, k = min os.length (d.distance bound (s.machine.store.read x)) ∧
      (s.responses (os.map .dispatch)).map (·.reply) =
        .replicate k (.dispatched (.fired r.current r.current)) ++
          .replicate (os.length - k) (.dispatched .ignored) ∧
      (s.after (os.map .dispatch)).run.map (·.current) = some r.current ∧
      (s.after (os.map .dispatch)).machine.toGraph = s.machine.toGraph ∧
      ((s.after (os.map .dispatch)).machine.store.read x).toInt =
        d.ahead (s.machine.store.read x) k ∧
      ∀ y ≠ x,
        (y ∈ (s.after (os.map .dispatch)).machine.store ↔ y ∈ s.machine.store) ∧
        (s.after (os.map .dispatch)).machine.store.read y =
          s.machine.store.read y := by
  refine ⟨_, rfl, ?_⟩
  -- the run and the store change with each event, the state and its transition do not
  induction os generalizing s r with
  | nil => simp [hr]
  | cons o os ih =>
    obtain ⟨rfl, hevent⟩ := List.forall_mem_cons.1 hevent
    rw [List.map_cons, responses_cons, List.map_cons, after_cons, List.length_cons]
    rcases Nat.eq_zero_or_pos (d.distance bound (s.machine.store.read x)) with h | h
    · obtain ⟨hsession, hreply⟩ := step_loop_of_eq_zero hr hsource hloop h
      have hrest := ih hr hsource hloop hevent
      rw [h, Nat.min_zero] at hrest ⊢
      rw [hsession, hreply, hrest.1]
      exact ⟨rfl, hrest.2⟩
    · obtain ⟨r', hcurrent, hsession, hreply⟩ := step_loop_of_pos hr hsource hloop h
      have hread : (s.counted d x r').machine.store.read x =
          d.change.eval (s.machine.store.read x) := Store.read_write_self
      obtain ⟨hreplies, hrun, hgraph, hvalue, hother⟩ :=
        ih (s := s.counted d x r') (r := r') rfl (hcurrent ▸ hsource) (hcurrent ▸ hloop) hevent
      have hk : min (os.length + 1) (d.distance bound (s.machine.store.read x)) =
          min os.length (d.distance bound (d.change.eval (s.machine.store.read x))) + 1 := by
        rw [← Direction.distance_eval h, Nat.add_min_add_right]
      rw [hread] at hreplies hvalue
      rw [hcurrent] at hreplies hrun
      rw [hsession, hreply, hk]
      refine ⟨?_, hrun, hgraph, hvalue.trans (Direction.ahead_eval h), fun y hy => ?_⟩
      · rw [hreplies, List.replicate_succ, List.cons_append, Nat.add_sub_add_right]
      · obtain ⟨hmem, hvalue⟩ := hother y hy
        exact ⟨hmem.trans (Store.mem_write.trans (or_iff_right hy.symm)),
          hvalue.trans (Store.read_write_of_ne hy.symm)⟩

end Session

/-- A dial that can be turned up as far as there are numbers. -/
def dial : Script :=
  [.integer "volume", .state "on", .initial, .when "up", .goto "on",
    .guard ⟨"volume", .lessThan, 9223372036854775807⟩, .update ⟨"volume", .increment⟩,
    .when "full", .goto "on", .update ⟨"volume", .assign 9223372036854775805⟩]

/-- The one state of the dial, with a position for its name. -/
def dialState : State StateId where
  name := "on"
  transitions :=
    [Direction.up.loop 0 "up" "volume" 9223372036854775807,
      ⟨"full", 0, some ⟨"volume", .assign 9223372036854775805⟩, none⟩]

/-- The dial with positions for names. -/
def dialMachine : Machine where
  states := [dialState]
  initial := some 0
  store := (∅ : Store).declare "volume"

theorem build_dial : dial.build = .ok dialMachine := rfl

/-- The dial has gone up twice when it has reached the largest number, and it does not go on from
there to the smallest. -/
theorem dial_counter_stops :
    dial.build = .ok dialMachine ∧
      ((dialMachine.session.after [.bind, .dispatch ⟨"full", 0⟩]).responses
          ([1, 2, 3, 4, 5].map fun now => .dispatch ⟨"up", now⟩)).map (·.reply) =
        [.dispatched (.fired 0 0), .dispatched (.fired 0 0), .dispatched .ignored,
          .dispatched .ignored, .dispatched .ignored] ∧
      (((dialMachine.session.after [.bind, .dispatch ⟨"full", 0⟩]).after
          ([1, 2, 3, 4, 5].map fun now => .dispatch ⟨"up", now⟩)).machine.store.read
            "volume").toInt =
        9223372036854775807 := by
  have hloop : dialState.candidates "up" =
      [Direction.up.loop 0 "up" "volume" 9223372036854775807] := by decide
  obtain ⟨k, hk, hreplies, -, -, hvalue, -⟩ :=
    Session.counter_stops (s := dialMachine.session.after [.bind, .dispatch ⟨"full", 0⟩]) rfl rfl
      hloop ([1, 2, 3, 4, 5].map fun now => ⟨"up", now⟩) (by decide)
  have hstart : (dialMachine.session.after [.bind, .dispatch ⟨"full", 0⟩]).machine.store.read
      "volume" = 9223372036854775805 := by decide
  obtain rfl : k = 2 := by rw [hk, hstart]; decide
  refine ⟨build_dial, hreplies, hvalue.trans ?_⟩
  rw [hstart]
  rfl

end GuardedMachine
