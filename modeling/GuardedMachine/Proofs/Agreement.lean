import GuardedMachine.Agreement
import GuardedMachine.Untimed
import GuardedMachine.Proofs.Firing
import Mathlib.Data.List.Forall2

/-!
# Variables that no guard inspects do not matter

Two sessions that `Session.Agree` on a set of variables have the same graph, the same run and stores
that agree on these variables, among which are all that the guards of the graph inspect.  Each step
then gets the same reply from both and leaves them in agreement (`Session.Agree.step`), so that all
that tells them apart, in any number of steps, is the values of variables outside the set.

Values that do not agree may still show in what is reported of updates, so nothing is said of that.
-/

set_option autoImplicit false

namespace GuardedMachine

/-- The sessions differ in variables outside `P` at most, and no guard inspects any of those. -/
structure Session.Agree {T : Type} (P : String → Prop) (s s' : Session T) : Prop where
  graph_eq : s.machine.toGraph = s'.machine.toGraph
  run_eq : s.run = s'.run
  store : s.machine.store.AgreeOn P s'.machine.store
  inspected : ∀ x ∈ s.machine.inspected, P x

/-- The responses have the same reply and leave sessions that agree. -/
structure Response.Agree {T : Type} (P : String → Prop) (a a' : Response T) : Prop where
  reply_eq : a.reply = a'.reply
  session : a.session.Agree P a'.session

section

variable {T : Type} {P : String → Prop} {g : Graph} {σ σ' : Store} {r : Run T}

/-- An event leads to the same outcome and the same run, and to stores that agree. -/
theorem Graph.dispatch?_agree (hP : ∀ x ∈ g.inspected, P x) (hσ : σ.AgreeOn P σ')
    (o : Occurrence T) :
    Option.Rel (fun d d' => d.outcome = d'.outcome ∧ d.run = d'.run ∧ d.store.AgreeOn P d'.store)
      (g.dispatch? σ r o) (g.dispatch? σ' r o) := by
  cases hsource : g.states[r.current]? with
  | none =>
    simp only [dispatch?, hsource, Option.bind_eq_bind, Option.bind_none]
    exact .none
  | some source =>
    have hmem : source ∈ g.states := List.mem_of_getElem? hsource
    have hselect : source.select? o.event σ = source.select? o.event σ' :=
      State.select?_congr (fun x hx => hσ x (hP x (mem_inspected.2 ⟨source, hmem, hx⟩))) o.event
    cases ht : source.select? o.event σ with
    | none =>
      rw [dispatch?_of_select?_eq_none hsource ht,
        dispatch?_of_select?_eq_none hsource (hselect ▸ ht)]
      exact .some ⟨rfl, rfl, hσ⟩
    | some t =>
      cases htarget : g.states[t.target]? with
      | none =>
        simp only [dispatch?, hsource, ht, ← hselect, htarget, Option.bind_eq_bind,
          Option.bind_some, Option.bind_none]
        exact .none
      | some target =>
        rw [dispatch?_of_select?_eq_some hsource ht htarget,
          dispatch?_of_select?_eq_some hsource (hselect ▸ ht) htarget]
        exact .some ⟨rfl, rfl, hσ.transition t⟩

end

namespace Session

variable {T : Type} {P : String → Prop} {s s' : Session T}

theorem agree_of_store {g : Graph} {σ σ' : Store} (hP : ∀ x ∈ g.inspected, P x)
    (hσ : σ.AgreeOn P σ') (run : Option (Run T)) : Agree P ⟨⟨g, σ⟩, run⟩ ⟨⟨g, σ'⟩, run⟩ :=
  ⟨rfl, rfl, hσ, hP⟩

/-- **One step** is answered by both in the same way, and they still agree afterwards. -/
theorem Agree.step (h : s.Agree P s') (x : Step T) : (s.step x).Agree P (s'.step x) := by
  obtain ⟨⟨g, σ⟩, run⟩ := s
  obtain ⟨⟨g', σ'⟩, run'⟩ := s'
  obtain rfl : g = g' := h.graph_eq
  obtain rfl : run = run' := h.run_eq
  have hagree : ∀ run : Option (Run T), Agree P ⟨⟨g, σ⟩, run⟩ ⟨⟨g, σ'⟩, run⟩ :=
    agree_of_store h.inspected h.store
  cases x with
  | bind =>
    simp only [step_bind, Session.bind]
    split
    · exact ⟨rfl, h⟩
    · split
      · exact ⟨rfl, h⟩
      · exact ⟨rfl, hagree _⟩
  | dispatch o =>
    cases run with
    | none => exact ⟨rfl, h⟩
    | some r =>
      rw [step_dispatch rfl, step_dispatch rfl]
      have hd := Graph.dispatch?_agree (r := r) h.inspected h.store o
      simp only [Session.dispatch]
      generalize g.dispatch? σ r o = d at hd ⊢
      generalize g.dispatch? σ' r o = d' at hd ⊢
      cases hd with
      | none => exact ⟨rfl, h⟩
      | @some d d' hd =>
        obtain ⟨houtcome, hrun, hstore⟩ := hd
        refine ⟨congrArg Reply.dispatched houtcome, ?_⟩
        simp only [hrun]
        exact agree_of_store h.inspected hstore _
  | unbind | reset | limit n =>
    cases run with
    | none => exact ⟨rfl, h⟩
    | some r => exact ⟨rfl, hagree _⟩

/-- Any steps. -/
theorem Agree.responses (h : s.Agree P s') (xs : List (Step T)) :
    List.Forall₂ (Response.Agree P) (s.responses xs) (s'.responses xs) := by
  induction xs generalizing s s' with
  | nil => exact .nil
  | cons x xs ih => exact .cons (h.step x) (ih (h.step x).session)

end Session

/-- **What no guard inspects does not matter.**  Take two machines with the same graph, whose
variables read the same as far as the guards of the graph inspect them.  Whatever steps the sessions
of both take, they get the same replies, and after each of them both have the same run, at the same
position and with the same history, but for the instants if the events do not come at the same ones.
The variables still read the same as far as guards inspect them, and so does every variable that
read the same at first. -/
theorem Machine.uninspected_do_not_matter {T : Type} {m m' : Machine}
    (hgraph : m.toGraph = m'.toGraph) (hstore : m.store.AgreeOn (· ∈ m.inspected) m'.store)
    (xs ys : List (Step T)) (halike : xs.map Step.untimed = ys.map Step.untimed) :
    List.Forall₂
      (fun a a' => a.reply = a'.reply ∧
        a.session.run.map Run.untimed = a'.session.run.map Run.untimed ∧
        a.session.machine.store.AgreeOn (· ∈ m.inspected) a'.session.machine.store ∧
        ∀ x, m.store.read x = m'.store.read x →
          a.session.machine.store.read x = a'.session.machine.store.read x)
      (m.session.responses xs) (m'.session.responses ys) := by
  -- the variables that read the same at first are a set as in the simulation
  have h : (m.session : Session Unit).Agree (fun x => m.store.read x = m'.store.read x)
      m'.session := ⟨hgraph, rfl, fun _ hx => hx, hstore⟩
  refine (Session.forall₂_alike h.responses halike).imp fun a a' ha => ?_
  have hread := ha.session.store
  exact ⟨ha.reply_eq, ha.session.run_eq, fun x hx => hread x (hstore x hx), hread⟩

/-- An odometer that was honked at before it was sold, and whose kilometres are not even held. -/
def usedOdometer : Machine :=
  { odometerMachine with store := (∅ : Store).write "honks" 5 }

/-- No guard of the odometer inspects how often it was honked at, so it does the same when it is
sold with other values: it is driven once before it is turned up, and once more after that, and only
then it can be honked at. -/
theorem usedOdometer_uninspected_do_not_matter :
    odometerMachine.inspected = ["km"] ∧
      odometerMachine.store.read "honks" ≠ usedOdometer.store.read "honks" ∧
      List.Forall₂ (fun a a' => a.reply = a'.reply ∧
          a.session.run.map Run.untimed = a'.session.run.map Run.untimed)
        (odometerMachine.session.responses [.bind, .dispatch ⟨"honk", 1⟩, .dispatch ⟨"tamper", 2⟩,
          .limit 1, .dispatch ⟨"drive", 3⟩, .dispatch ⟨"honk", 4⟩, .unbind])
        (usedOdometer.session.responses [.bind, .dispatch ⟨"honk", 5⟩, .dispatch ⟨"tamper", 6⟩,
          .limit 1, .dispatch ⟨"drive", 7⟩, .dispatch ⟨"honk", 8⟩, .unbind]) ∧
      (usedOdometer.session.responses [.bind, .dispatch ⟨"honk", 5⟩, .dispatch ⟨"tamper", 6⟩,
          .limit 1, .dispatch ⟨"drive", 7⟩, .dispatch ⟨"honk", 8⟩, .unbind]).map (·.reply) =
        [.bound, .dispatched .ignored, .dispatched (.fired 0 0), .done, .dispatched (.fired 0 0),
          .dispatched (.fired 0 0), .unbound] := by
  have hstore : odometerMachine.store.AgreeOn (· ∈ odometerMachine.inspected)
      usedOdometer.store := by
    intro x hx
    obtain rfl : x = "km" := List.mem_singleton.1 hx
    rfl
  have hgraph : odometerMachine.toGraph = usedOdometer.toGraph := rfl
  refine ⟨rfl, by decide, ?_, rfl⟩
  have hresponses := Machine.uninspected_do_not_matter hgraph hstore
    [.bind, .dispatch ⟨"honk", 1⟩, .dispatch ⟨"tamper", 2⟩, .limit 1, .dispatch ⟨"drive", 3⟩,
      .dispatch ⟨"honk", 4⟩, .unbind]
    [.bind, .dispatch ⟨"honk", 5⟩, .dispatch ⟨"tamper", 6⟩, .limit 1, .dispatch ⟨"drive", 7⟩,
      .dispatch ⟨"honk", 8⟩, .unbind] rfl
  exact hresponses.imp fun _ _ ⟨hreply, hrun, _⟩ => ⟨hreply, hrun⟩

end GuardedMachine
