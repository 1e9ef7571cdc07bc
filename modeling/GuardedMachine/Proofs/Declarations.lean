import GuardedMachine.Proofs.Agreement
import GuardedMachine.Proofs.Trail

/-!
# Declarations of variables do not matter

A variable that is not declared reads `0`, and a declaration makes it read `0`.  So it makes no
difference to a session which variables a script declares and where.

A declaration writes the store of a reading and nothing else, and no other call looks at the store
(`Reading.extend_withStore`).  Scripts that are the same apart from declarations are therefore built
into machines with the same graph, in the stores of which all variables read the same, or they fail
in the same way.  Sessions of such machines are in agreement on all variables (`Session.Agree`), and
so the same transitions fire in both (`Session.Agree.firings_eq`) and the same is reported.

What remains is which variables are held, and `Script.declarations_do_not_matter` says which these
are.
-/

set_option autoImplicit false

namespace GuardedMachine

variable {T : Type}

/-! ## Scripts apart from declarations -/

/-- The script without its declarations of variables. -/
def Script.withoutVariables (script : Script) : Script := script.filter (·.declared?.isNone)

namespace Reading

variable {r : Reading} {c : Call} {σ : Store}

/-- The same reading with other variables. -/
def withStore (r : Reading) (σ : Store) : Reading := { r with store := σ }

/-- A call that declares no variable does the same whatever variables there are. -/
theorem extend_withStore (hc : c.declared? = none) :
    (r.withStore σ).extend c = (r.extend c).withStore σ := by
  cases c with
  | state _ => rfl
  | integer _ => cases hc
  | initial | when _ =>
    simp only [extend, atState, withStore]
    cases r.cursor.state? <;> rfl
  | goto _ | update _ | guard _ =>
    simp only [extend, atTransition, withStore]
    cases r.cursor.transition? <;> rfl

/-- A declaration changes the variables only. -/
theorem withStore_extend {x : String} (hc : c.declared? = some x) :
    (r.extend c).withStore σ = r.withStore σ := by
  cases c with
  | integer _ => rfl
  | _ => cases hc

/-- The graph that is built does not depend on the variables, nor do the faults. -/
theorem map_toGraph_build (r : Reading) (σ : Store) :
    (r.withStore σ).build.map (·.toGraph) = r.build.map (·.toGraph) := by
  simp only [build, buildWith, complete, withStore]
  cases linkStates .inOrder r.states with
  | error es => rfl
  | ok states => by_cases h : r.misuses = [] <;> simp [h, Except.map]

end Reading

namespace Script

variable {script A B : Script}

/-- What is understood of a script without declarations is all that is understood of the script,
apart from the variables. -/
theorem read_withoutVariables : script.withoutVariables.read = script.read.withStore ∅ := by
  induction script using List.reverseRecOn with
  | nil => rfl
  | append_singleton script c ih =>
    rw [withoutVariables] at ih
    rw [read_concat, withoutVariables, List.filter_append, List.filter_singleton]
    cases hc : c.declared? with
    | none =>
      rw [← Reading.extend_withStore hc, ← ih]
      exact read_concat _ c
    | some x =>
      rw [Reading.withStore_extend hc, ← ih]
      exact congrArg read (List.append_nil _)

theorem withStore_read_eq (h : A.withoutVariables = B.withoutVariables) :
    A.read.withStore ∅ = B.read.withStore ∅ := by
  rw [← read_withoutVariables, ← read_withoutVariables, h]

end Script

/-! ## Sessions that agree on all variables -/

section

variable {σ ρ : Store} {τ : Type}

theorem Transition.appliedEntries_congr {t : Transition τ} (h : ∀ x, σ.read x = ρ.read x) :
    t.appliedEntries σ = t.appliedEntries ρ := by
  simp only [appliedEntries, Update.written, h]

/-- What is reported of an event depends on what the variables read. -/
theorem Graph.map_journal_dispatch? (g : Graph) (h : ∀ x, σ.read x = ρ.read x) (r : Run T)
    (o : Occurrence T) :
    (g.dispatch? σ r o).map (·.journal) = (g.dispatch? ρ r o).map (·.journal) := by
  cases hsource : g.states[r.current]? with
  | none => simp [dispatch?, hsource]
  | some source =>
    have hselect : source.select? o.event σ = source.select? o.event ρ :=
      State.select?_congr (fun x _ => h x) o.event
    cases ht : source.select? o.event ρ with
    | none => simp [dispatch?, hsource, hselect, ht]
    | some t =>
      cases htarget : g.states[t.target]? with
      | none => simp [dispatch?, hsource, hselect, ht, htarget]
      | some target =>
        simp [dispatch?, hsource, hselect, ht, htarget, Transition.appliedEntries_congr h]

end

namespace Session

variable {s s' : Session T}

theorem journal_dispatch (s : Session T) (r : Run T) (o : Occurrence T) :
    (s.dispatch r o).journal =
      ((s.machine.dispatch? s.machine.store r o).map (·.journal)).getD [] := by
  rw [Session.dispatch]
  cases s.machine.dispatch? s.machine.store r o <;> rfl

/-- The same is reported of a step. -/
theorem Agree.journal_eq (h : s.Agree (fun _ => True) s') (x : Step T) :
    (s.step x).journal = (s'.step x).journal := by
  obtain ⟨⟨g, σ⟩, run⟩ := s
  obtain ⟨⟨g', σ'⟩, run'⟩ := s'
  obtain rfl : g = g' := h.graph_eq
  obtain rfl : run = run' := h.run_eq
  cases x with
  | bind =>
    simp only [step_bind, Session.bind]
    split
    · rfl
    · split <;> rfl
  | dispatch o =>
    cases run with
    | none => rfl
    | some r =>
      rw [step_dispatch rfl, step_dispatch rfl, journal_dispatch, journal_dispatch]
      have hjournal := g.map_journal_dispatch? (fun x => h.store x trivial) r o
      exact congrArg (Option.getD · []) hjournal
  | unbind | reset | limit n => cases run <;> rfl

/-- The same transition fires, if any does. -/
theorem Agree.firing?_eq (h : s.Agree (fun _ => True) s') (x : Step T) :
    s.firing? x = s'.firing? x := by
  have hcurrent : s.currentState? = s'.currentState? := by
    rw [currentState?, currentState?, h.run_eq, congrArg Graph.states h.graph_eq]
  cases x with
  | dispatch o =>
    have hselect (state : State StateId) :
        state.select? o.event s.machine.store = state.select? o.event s'.machine.store :=
      State.select?_congr (fun x _ => h.store x trivial) o.event
    simp only [firing?, hcurrent, hselect]
  | _ => rfl

theorem Agree.firings_eq (h : s.Agree (fun _ => True) s') (xs : List (Step T)) :
    s.firings xs = s'.firings xs := by
  induction xs generalizing s s' with
  | nil => rfl
  | cons x xs ih => rw [firings, firings, h.firing?_eq, ih (h.step x).session]

end Session

/-- What fires does not depend on instants. -/
theorem Session.firing?_untimed (s : Session T) (x : Step T) :
    s.untimed.firing? x.untimed = s.firing? x := by
  obtain ⟨m, run⟩ := s
  cases x with
  | dispatch o => cases run <;> rfl
  | _ => rfl

theorem Session.firings_untimed (s : Session T) (xs : List (Step T)) :
    s.untimed.firings (xs.map .untimed) = s.firings xs := by
  induction xs generalizing s with
  | nil => rfl
  | cons x xs ih =>
    rw [List.map_cons, firings, firings, firing?_untimed, ← step_untimed, ← ih]
    rfl

/-- The responses differ at most in which variables are held afterwards, and in instants. -/
structure Response.ReadsAlike (a a' : Response T) : Prop where
  reply_eq : a.reply = a'.reply
  journal_eq : a.journal = a'.journal
  graph_eq : a.session.machine.toGraph = a'.session.machine.toGraph
  /-- The runs are at the same position with the same history, apart from the instants. -/
  run_eq : a.session.run.map Run.untimed = a'.session.run.map Run.untimed
  read_eq : ∀ x, a.session.machine.store.read x = a'.session.machine.store.read x

theorem Response.ReadsAlike.of_untimed {a a' : Response T}
    (h : a.untimed.ReadsAlike a'.untimed) : a.ReadsAlike a' where
  reply_eq := h.reply_eq
  journal_eq := h.journal_eq
  graph_eq := h.graph_eq
  run_eq := by
    have hrun (a : Response T) :
        a.untimed.session.run.map Run.untimed = a.session.run.map Run.untimed := by
      simp [Response.untimed, Session.untimed, Function.comp_def]
    rw [← hrun, ← hrun, h.run_eq]
  read_eq := h.read_eq

theorem Session.Agree.responses_readAlike {s s' : Session T} (h : s.Agree (fun _ => True) s')
    (xs : List (Step T)) :
    List.Forall₂ Response.ReadsAlike (s.responses xs) (s'.responses xs) := by
  induction xs generalizing s s' with
  | nil => exact .nil
  | cons x xs ih =>
    have hx := h.step x
    have hrun := congrArg (Option.map Run.untimed) hx.session.run_eq
    refine .cons ⟨hx.reply_eq, h.journal_eq x, hx.session.graph_eq, hrun, ?_⟩ (ih hx.session)
    exact fun y => hx.session.store y trivial

/-! ## Machines that are built -/

namespace Script

variable {A B script : Script} {a b m : Machine}

/-- Apart from declarations the same graph is described. -/
theorem map_toGraph_build_eq (h : A.withoutVariables = B.withoutVariables) :
    A.build.map (·.toGraph) = B.build.map (·.toGraph) := by
  rw [build, build, ← A.read.map_toGraph_build ∅, ← B.read.map_toGraph_build ∅,
    withStore_read_eq h]

theorem agree_of_build (h : A.withoutVariables = B.withoutVariables) (ha : A.build = .ok a)
    (hb : B.build = .ok b) : (a.session : Session T).Agree (fun _ => True) b.session where
  graph_eq := by
    have hgraph := map_toGraph_build_eq h
    rw [ha, hb] at hgraph
    exact Except.ok.inj hgraph
  run_eq := rfl
  store x _ := by
    have hstore : a.store = A.declared := (build_eq_ok_iff.1 ha).2.2.2
    have hstore' : b.store = B.declared := (build_eq_ok_iff.1 hb).2.2.2
    show a.store.read x = b.store.read x
    rw [hstore, hstore', read_declared, read_declared]
  inspected _ _ := trivial

/-- The variables that are held after any steps are those that the script declares and those that
are written by what fires. -/
theorem mem_store_after_iff (hm : script.build = .ok m) (xs : List (Step T)) (x : String) :
    x ∈ (m.session.after xs).machine.store ↔
      .integer x ∈ script ∨ ∃ t ∈ m.session.firings xs, ∃ u ∈ t.update, u.var = x := by
  have hstore : m.store = script.declared := (build_eq_ok_iff.1 hm).2.2.2
  rw [Session.after_store (closed_of_build hm) Session.inside_session xs, mem_foldl_apply,
    show (m.session : Session T).machine.store = script.declared from hstore, mem_declared]

/-- **Declarations of variables do not matter.**  Let two scripts be the same apart from the
declarations of variables in them.  Then the same graph is built from both, or both fail with the
same faults.  Whatever steps the sessions of both machines take, at the same instants or at others,
they get the same replies, the same is reported, and after each of them the runs are at the same
position with the same history, apart from the instants, and all variables read the same.

The variables that are held then are, on both sides, those that the script declares and those that
were written by a transition that fired, and the same transitions fire on both sides. -/
theorem declarations_do_not_matter (h : A.withoutVariables = B.withoutVariables) :
    A.build.map (·.toGraph) = B.build.map (·.toGraph) ∧
      A.read.journal = B.read.journal ∧
      ∀ a b, A.build = .ok a → B.build = .ok b → ∀ xs ys : List (Step T),
        xs.map Step.untimed = ys.map Step.untimed →
          List.Forall₂ Response.ReadsAlike (a.session.responses xs) (b.session.responses ys) ∧
            a.session.firings xs = b.session.firings ys ∧
            ∀ x,
              (x ∈ (a.session.after xs).machine.store ↔
                .integer x ∈ A ∨ ∃ t ∈ a.session.firings xs, ∃ u ∈ t.update, u.var = x) ∧
              (x ∈ (b.session.after ys).machine.store ↔
                .integer x ∈ B ∨ ∃ t ∈ a.session.firings xs, ∃ u ∈ t.update, u.var = x) := by
  have hjournal : (A.read.withStore ∅).journal = (B.read.withStore ∅).journal := by
    rw [withStore_read_eq h]
  refine ⟨map_toGraph_build_eq h, hjournal, fun a b ha hb xs ys halike => ?_⟩
  have hagree : (a.session : Session Unit).Agree (fun _ => True) b.session :=
    agree_of_build h ha hb
  have hfirings : a.session.firings xs = b.session.firings ys := by
    rw [← Session.firings_untimed _ xs, ← Session.firings_untimed _ ys, ← halike]
    exact hagree.firings_eq _
  refine ⟨?_, hfirings, fun x => ⟨mem_store_after_iff ha xs x, ?_⟩⟩
  · exact (Session.forall₂_alike hagree.responses_readAlike halike).imp fun _ _ => .of_untimed
  rw [hfirings]
  exact mem_store_after_iff hb ys x

end Script

/-- The turnstile with another variable declared in place of the number of its coins. -/
def miscountedTurnstile : Script := .integer "spare" :: turnstile.withoutVariables

/-- The machine that is built from it. -/
def miscountedTurnstileMachine : Machine :=
  { turnstileMachine with store := (∅ : Store).declare "spare" }

/-- The visits to the turnstile, later on. -/
def laterVisits : List (Step Nat) :=
  [.bind, .dispatch ⟨"coin", 11⟩, .dispatch ⟨"push", 12⟩, .limit 1, .dispatch ⟨"coin", 13⟩,
    .limit 5, .dispatch ⟨"push", 14⟩]

/-- The turnstile counts its coins all the same.  In the end the other variable is held in addition,
since nothing writes it. -/
theorem turnstile_declarations_do_not_matter :
    turnstile.withoutVariables = miscountedTurnstile.withoutVariables ∧
      turnstile.build = .ok turnstileMachine ∧
      miscountedTurnstile.build = .ok miscountedTurnstileMachine ∧
      List.Forall₂ Response.ReadsAlike (turnstileMachine.session.responses turnstileVisits)
        (miscountedTurnstileMachine.session.responses laterVisits) ∧
      "coins" ∈ (miscountedTurnstileMachine.session.after laterVisits).machine.store ∧
      "spare" ∈ (miscountedTurnstileMachine.session.after laterVisits).machine.store ∧
      "spare" ∉ (turnstileMachine.session.after turnstileVisits).machine.store := by
  have hsame : turnstile.withoutVariables = miscountedTurnstile.withoutVariables := by decide
  have hbuild : miscountedTurnstile.build = .ok miscountedTurnstileMachine := rfl
  obtain ⟨-, -, hsession⟩ := Script.declarations_do_not_matter hsame
  obtain ⟨hresponses, -, hheld⟩ :=
    hsession _ _ build_turnstile hbuild turnstileVisits laterVisits rfl
  refine ⟨hsame, build_turnstile, hbuild, hresponses, ?_, ?_, ?_⟩
  · let coin : Transition StateId := ⟨"coin", 1, some ⟨"coins", .increment⟩, none⟩
    exact (hheld "coins").2.2 (.inr ⟨coin, by decide, _, rfl, rfl⟩)
  · exact (hheld "spare").2.2 (.inl (by decide))
  · rw [(hheld "spare").1]
    decide

end GuardedMachine
