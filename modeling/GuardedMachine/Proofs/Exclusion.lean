import GuardedMachine.Exclusion
import GuardedMachine.Proofs.Live

/-!
# The order of exclusive transitions does not matter

If the guards of a machine see to it that no two candidates for an event are ever enabled at once,
the transitions of each state can be listed in any order and no session notices.  This is so in
particular for three candidates that compare a variable with a literal in the three possible ways.

Reordered states select alike (`State.Reordered.selectAlike`), so all that is left to do is to carry
sessions over from one graph to the other.  `Machine.order_does_not_matter` has both, and also that
one of three such candidates always fires.
-/

set_option autoImplicit false

namespace GuardedMachine

variable {T : Type}

/-- Machines whose states select alike, one by one, answer alike. -/
theorem Machine.responses_of_selectAlike {m m' : Machine} (hinitial : m.initial = m'.initial)
    (hstore : m.store = m'.store) (h : List.Forall₂ State.SelectAlike m.states m'.states)
    {xs ys : List (Step T)} (halike : xs.map Step.untimed = ys.map Step.untimed) :
    (m'.session.responses ys).map Response.untimed =
      (m.session.responses xs).map fun a => (a.onto m'.toGraph).untimed :=
  Session.responses_alike_onto hstore (Graph.selectAlike_of_forall₂ hinitial h) halike

/-- Of three candidates that trisect the values of a variable, one fires. -/
theorem Session.Inside.fires_of_trisectsOn {g : Graph} {s : Session T} {r : Run T}
    {source : State StateId} {o : Occurrence T} {x : String} {k : Int64} (hg : g.Closed)
    (h : s.Inside g) (hr : s.run = some r) (hsource : g.states[r.current]? = some source)
    (htrisects : source.TrisectsOn o.event x k) :
    ∃ t ∈ source.candidates o.event,
      (s.step (.dispatch o)).reply = .dispatched (.fired r.current t.target) := by
  obtain ⟨t, ht, hselect⟩ := htrisects.exists_select? s.machine.store
  obtain ⟨source', hsource', hanswer⟩ := h.dispatch_cases hg hr o
  obtain rfl : source = source' := Option.some.inj (hsource.symm.trans hsource')
  rw [Session.step_dispatch hr]
  rcases hanswer with ⟨hnone, -⟩ | ⟨t', target, hselect', -, hd⟩
  · rw [hselect] at hnone
    cases hnone
  · obtain rfl : t = t' := Option.some.inj (hselect.symm.trans hselect')
    exact ⟨t, ht, by rw [hd]⟩

/-- **Where transitions exclude each other, their order does not matter.**  Take two machines with
the same initial position and the same variables, with states of the same names in the same order,
and let the transitions of each state be the same in another order, where no two candidates for an
event are ever enabled at once.  Then every step of every session gets the same reply and report
from both, and leaves the run at the same position with the same history, and the same variables.
This is so at whatever instants the events come, which the histories tell and nothing else does.

Of any value and any literal exactly one comparison holds, so three candidates for an event that
compare a variable with a literal in the three possible ways exclude each other.  In a machine that
was built one of them fires whenever the event comes, and if nothing but the order of such three is
changed no session notices, whatever else there is in the state. -/
theorem Machine.order_does_not_matter (m : Machine) (xs : List (Step T)) :
    (∀ (m' : Machine) (ys : List (Step T)), m.initial = m'.initial → m.store = m'.store →
        List.Forall₂ State.Reordered m.states m'.states →
          xs.map Step.untimed = ys.map Step.untimed →
          (m'.session.responses ys).map Response.untimed =
            (m.session.responses xs).map fun a => (a.onto m'.toGraph).untimed) ∧
      (∀ (x : String) (k : Int64) (σ : Store), ∃! c, Guard.Holds ⟨x, c, k⟩ σ) ∧
      (∀ script : Script, script.build = .ok m → ∀ r source (o : Occurrence T) x k,
        (m.session.after xs).run = some r → m.states[r.current]? = some source →
          source.TrisectsOn o.event x k →
            ∃ t ∈ source.candidates o.event, ((m.session.after xs).step (.dispatch o)).reply =
              .dispatched (.fired r.current t.target)) ∧
      ∀ (m' : Machine) (ys : List (Step T)), m.initial = m'.initial → m.store = m'.store →
        List.Forall₂ State.Resorted m.states m'.states →
          xs.map Step.untimed = ys.map Step.untimed →
          (m'.session.responses ys).map Response.untimed =
            (m.session.responses xs).map fun a => (a.onto m'.toGraph).untimed := by
  refine ⟨fun m' ys hinitial hstore h halike => ?_, fun x k σ => ?_, ?_,
    fun m' ys hinitial hstore h halike => ?_⟩
  · exact responses_of_selectAlike hinitial hstore (h.imp fun _ _ hs => hs.selectAlike) halike
  · exact Comparison.existsUnique_holds (σ.read x) k
  · intro script hm r source o x k hr hsource htrisects
    have hg := Script.closed_of_build hm
    have hinside : (m.session.after xs).Inside m.toGraph := Session.inside_session.after hg xs
    exact hinside.fires_of_trisectsOn hg hr hsource htrisects
  · exact responses_of_selectAlike hinitial hstore (h.imp fun _ _ hs => hs.selectAlike) halike

/-- A thermostat that heats when it is cold and cools when it is hot. -/
def thermostat : Script :=
  [.integer "degrees", .state "rest", .initial,
    .when "check", .goto "heat", .guard ⟨"degrees", .lessThan, 20⟩,
    .when "check", .goto "rest", .guard ⟨"degrees", .equals, 20⟩,
    .when "check", .goto "cool", .guard ⟨"degrees", .greaterThan, 20⟩,
    .state "heat", .when "check", .goto "rest", .update ⟨"degrees", .increment⟩,
    .state "cool", .when "check", .goto "rest", .update ⟨"degrees", .decrement⟩]

/-- The state in which it rests, with the transitions from the coldest case to the hottest. -/
def rest : State StateId where
  name := "rest"
  transitions :=
    [⟨"check", 1, none, some ⟨"degrees", .lessThan, 20⟩⟩,
      ⟨"check", 0, none, some ⟨"degrees", .equals, 20⟩⟩,
      ⟨"check", 2, none, some ⟨"degrees", .greaterThan, 20⟩⟩]

/-- The thermostat with positions for names, and with a given state to rest in. -/
def thermostatMachine (rest : State StateId) : Machine where
  states :=
    [rest, ⟨"heat", [⟨"check", 0, some ⟨"degrees", .increment⟩, none⟩]⟩,
      ⟨"cool", [⟨"check", 0, some ⟨"degrees", .decrement⟩, none⟩]⟩]
  initial := some 0
  store := (∅ : Store).declare "degrees"

theorem build_thermostat : thermostat.build = .ok (thermostatMachine rest) := rfl

theorem rest_trisectsOn : rest.TrisectsOn "check" "degrees" 20 := by
  rw [State.TrisectsOn]
  decide

theorem candidates_rest_of_ne {e : String} (he : e ≠ "check") : rest.candidates e = [] := by
  simp [State.candidates, rest, he.symm]

theorem rest_exclusiveOn (e : String) : rest.ExclusiveOn e := by
  by_cases he : e = "check"
  · exact he ▸ rest_trisectsOn.exclusiveOn
  · intro σ
    rw [candidates_rest_of_ne he]
    exact .nil

/-- The same state with the transitions from the hottest case to the coldest. -/
def restReversed : State StateId := ⟨"rest", rest.transitions.reverse⟩

theorem perm_restReversed : rest.transitions.Perm restReversed.transitions :=
  (List.reverse_perm _).symm

theorem rest_resorted : rest.Resorted restReversed where
  name_eq := rfl
  candidates e := by
    by_cases he : e = "check"
    · exact he ▸ .inr ⟨⟨_, _, rest_trisectsOn⟩, perm_restReversed.filter _⟩
    · have hnil : restReversed.candidates e = [] :=
        List.perm_nil.1 (candidates_rest_of_ne he ▸ (perm_restReversed.filter _).symm)
      exact .inl ((candidates_rest_of_ne he).trans hnil.symm)

/-- Three checks of the thermostat, which is cold at first. -/
def checks (first second third : Nat) : List (Step Nat) :=
  [.bind, .dispatch ⟨"check", first⟩, .dispatch ⟨"check", second⟩, .limit 1,
    .dispatch ⟨"check", third⟩]

/-- The cases from the hottest to the coldest do as well as the other way round, and whatever the
temperature is, one of them is met. -/
theorem thermostat_order_does_not_matter :
    thermostat.build = .ok (thermostatMachine rest) ∧
      List.Forall₂ State.Reordered (thermostatMachine rest).states
        (thermostatMachine restReversed).states ∧
      ((thermostatMachine restReversed).session.responses (checks 1 2 3)).map Response.untimed =
        ((thermostatMachine rest).session.responses (checks 4 5 6)).map
          (fun a => (a.onto (thermostatMachine restReversed).toGraph).untimed) ∧
      ((thermostatMachine rest).session.responses (checks 4 5 6)).map (·.reply) =
        [.bound, .dispatched (.fired 0 1), .dispatched (.fired 1 0), .done,
          .dispatched (.fired 0 1)] ∧
      (∃ t ∈ rest.candidates "check",
        (((thermostatMachine rest).session.after [.bind]).step
          (.dispatch ⟨"check", 4⟩)).reply = .dispatched (.fired 0 t.target)) ∧
      List.Forall₂ State.Resorted (thermostatMachine rest).states
        (thermostatMachine restReversed).states ∧
      ((thermostatMachine restReversed).session.responses (checks 1 2 3)).map Response.untimed =
        ((thermostatMachine rest).session.responses (checks 4 5 6)).map
          fun a => (a.onto (thermostatMachine restReversed).toGraph).untimed := by
  have hreordered : List.Forall₂ State.Reordered (thermostatMachine rest).states
      (thermostatMachine restReversed).states := by
    refine .cons ⟨rfl, perm_restReversed, rest_exclusiveOn⟩ (.cons ?_ (.cons ?_ .nil))
    · exact ⟨rfl, .refl _, State.exclusiveOn_of_length_le_one (by decide)⟩
    · exact ⟨rfl, .refl _, State.exclusiveOn_of_length_le_one (by decide)⟩
  have hresorted : List.Forall₂ State.Resorted (thermostatMachine rest).states
      (thermostatMachine restReversed).states :=
    .cons rest_resorted (.cons ⟨rfl, fun _ => .inl rfl⟩ (.cons ⟨rfl, fun _ => .inl rfl⟩ .nil))
  obtain ⟨hreordering, -, -, hresorting⟩ :=
    Machine.order_does_not_matter (thermostatMachine rest) (checks 4 5 6)
  obtain ⟨-, -, hfires, -⟩ :=
    Machine.order_does_not_matter (thermostatMachine rest) [.bind]
  refine ⟨build_thermostat, hreordered, hreordering _ _ rfl rfl hreordered rfl, rfl, ?_, hresorted,
    hresorting _ _ rfl rfl hresorted rfl⟩
  exact hfires thermostat build_thermostat (.startAt 0) rest ⟨"check", 4⟩ "degrees" 20 rfl rfl
    rest_trisectsOn

end GuardedMachine
