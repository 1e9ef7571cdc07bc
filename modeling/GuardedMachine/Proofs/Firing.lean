import GuardedMachine.Firing
import GuardedMachine.Proofs.Answers

/-!
# The variables after a session

The store is written by the transitions that fire and by nothing else, whatever else happens in a
session: runs that end and begin, resets, events that are ignored.  So the store after a session is
the one before it with the session's firings applied to it (`Session.after_store`), and what a
variable reads can be computed from them in one formula.
-/

set_option autoImplicit false

namespace GuardedMachine

variable {T : Type}

namespace Session

variable {s : Session T} {g : Graph} {x : Step T} {a : Response T}

theorem firing?_dispatch {r : Run T} {o : Occurrence T} {source : State StateId}
    (hr : s.run = some r) (hsource : s.machine.states[r.current]? = some source) :
    s.firing? (.dispatch o) = source.select? o.event s.machine.store := by
  simp [firing?, currentState?, hr, hsource]

theorem firing?_of_run_eq_none (hr : s.run = none) : s.firing? x = none := by
  cases x <;> simp [firing?, currentState?, hr]

/-- Either nothing fires in a step and the store stays as it is, or one transition fires, which is
applied to the store and of which the reply tells where it leads. -/
theorem Answers.firing?_cases (ha : s.Answers x a) (hstray : a.reply ≠ .stray) :
    s.firing? x = none ∧ a.session.machine.store = s.machine.store ∧ a.reply.entered? = none ∨
      ∃ t, s.firing? x = some t ∧ a.session.machine.store = t.apply s.machine.store ∧
        a.reply.entered? = some t.target := by
  cases ha with
  | refused | bound | unbound | reset | limited => exact .inl ⟨rfl, rfl, rfl⟩
  | notBound hr => exact .inl ⟨firing?_of_run_eq_none hr, rfl, rfl⟩
  | ignored hr hsource ht => exact .inl ⟨(firing?_dispatch hr hsource).trans ht, rfl, rfl⟩
  | fired hr hsource ht => exact .inr ⟨_, (firing?_dispatch hr hsource).trans ht, rfl, rfl⟩
  | stray => exact absurd rfl hstray

/-- Any steps apply what fires in them to the store, in order. -/
theorem after_store (hg : g.Closed) (h : s.Inside g) (xs : List (Step T)) :
    (s.after xs).machine.store =
      (s.firings xs).foldl (fun σ t => t.apply σ) s.machine.store := by
  induction xs generalizing s with
  | nil => rfl
  | cons x xs ih =>
    rw [after_cons, ih (h.step hg x), firings, List.foldl_append]
    obtain ⟨hx, hstore, -⟩ | ⟨t, hx, hstore, -⟩ :=
      (answers_step s x).firing?_cases (h.reply_ne_stray hg x)
    · rw [hx, hstore, Option.toList_none, List.foldl_nil]
    · rw [hx, hstore, Option.toList_some, List.foldl_cons, List.foldl_nil]

/-- The replies tell where all these transitions lead. -/
theorem entered?_responses (hg : g.Closed) (h : s.Inside g) (xs : List (Step T)) :
    (s.responses xs).filterMap (·.reply.entered?) = (s.firings xs).map (·.target) := by
  induction xs generalizing s with
  | nil => rfl
  | cons x xs ih =>
    rw [responses_cons, firings, List.map_append, ← ih (h.step hg x)]
    obtain ⟨hx, -, hentered⟩ | ⟨t, hx, -, hentered⟩ :=
      (answers_step s x).firing?_cases (h.reply_ne_stray hg x)
    · rw [hx, List.filterMap_cons, hentered]
      rfl
    · rw [hx, List.filterMap_cons, hentered]
      rfl

end Session

/-- **The variables in closed form.**  Take any session of a machine that was built, and any steps
that it takes from there on.  The transitions that fire, as many as there are replies that say so
and leading where these say, determine the variables afterwards.  A name is held if it was held
before or if an update of one of them writes it.  Its value is the literal that was assigned to it
last, or else its value before, plus the increments and minus the decrements that came after that,
modulo 2⁶⁴. -/
theorem Script.store_after_firings {script : Script} {m : Machine} (hm : script.build = .ok m)
    (xs ys : List (Step T)) :
    ((m.session.after xs).responses ys).filterMap (·.reply.entered?) =
        ((m.session.after xs).firings ys).map (·.target) ∧
      ∀ x,
        (x ∈ (m.session.after (xs ++ ys)).machine.store ↔
          x ∈ (m.session.after xs).machine.store ∨
            ∃ t ∈ (m.session.after xs).firings ys, ∃ u ∈ t.update, u.var = x) ∧
        (m.session.after (xs ++ ys)).machine.store.read x =
          Int64.ofInt (Change.total (changesOf x ((m.session.after xs).firings ys))
            ((m.session.after xs).machine.store.read x)) := by
  have hg := closed_of_build hm
  have h : (m.session.after xs).Inside m.toGraph := Session.inside_session.after hg xs
  refine ⟨Session.entered?_responses hg h ys, fun x => ?_⟩
  rw [Session.after_append, Session.after_store hg h ys]
  refine ⟨mem_foldl_apply, ?_⟩
  rw [read_foldl_apply, Change.foldl_eval]

/-- A counter of kilometres that can be turned up to the largest number. -/
def odometer : Script :=
  [.integer "km", .state "road", .initial, .when "drive", .goto "road", .update ⟨"km", .increment⟩,
    .when "tamper", .goto "road", .update ⟨"km", .assign 9223372036854775807⟩, .when "honk",
    .guard ⟨"km", .lessThan, 0⟩, .update ⟨"honks", .increment⟩, .goto "road"]

/-- The odometer with positions for names. -/
def odometerMachine : Machine where
  states :=
    [⟨"road", [⟨"drive", 0, some ⟨"km", .increment⟩, none⟩,
      ⟨"tamper", 0, some ⟨"km", .assign 9223372036854775807⟩, none⟩,
      ⟨"honk", 0, some ⟨"honks", .increment⟩, some ⟨"km", .lessThan, 0⟩⟩]⟩]
  initial := some 0
  store := (∅ : Store).declare "km"

theorem build_odometer : odometer.build = .ok odometerMachine := rfl

/-- The odometer is turned up and driven on, in another run in the end. -/
def odometerTampering : List (Step Nat) :=
  [.dispatch ⟨"tamper", 2⟩, .dispatch ⟨"honk", 3⟩, .reset, .dispatch ⟨"drive", 4⟩, .unbind, .bind,
    .dispatch ⟨"drive", 5⟩, .dispatch ⟨"honk", 6⟩]

/-- The odometer wraps around in the run after the one in which it was turned up, and with that a
guard lets a name in that was never declared. -/
theorem odometer_store_after_firings :
    odometer.build = .ok odometerMachine ∧
      (odometerMachine.session.after
          ([.bind, .dispatch ⟨"drive", 1⟩] ++ odometerTampering)).machine.store.read "km" =
        Int64.ofInt (9223372036854775807 + 2) ∧
      "honks" ∈ (odometerMachine.session.after
        ([.bind, .dispatch ⟨"drive", 1⟩] ++ odometerTampering)).machine.store := by
  obtain ⟨-, hstore⟩ := Script.store_after_firings build_odometer [.bind, .dispatch ⟨"drive", 1⟩]
    odometerTampering
  refine ⟨build_odometer, (hstore "km").2.trans ?_, (hstore "honks").1.2 (.inr ?_)⟩
  · rfl
  · let honk : Transition StateId :=
      ⟨"honk", 0, some ⟨"honks", .increment⟩, some ⟨"km", .lessThan, 0⟩⟩
    exact ⟨honk, by decide, _, rfl, rfl⟩

end GuardedMachine
