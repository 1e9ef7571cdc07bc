import GuardedMachine.Report
import GuardedMachine.Untimed
import GuardedMachine.Proofs.Safety

/-!
# Histories do not show

A run never looks at what it remembers.  Sessions that are `Session.Abreast`, which is to say that
they differ in their histories at most, answer every step in the same way and stay abreast
(`Session.Abreast.step`), and so they do over any number of steps (`Session.Abreast.replies_eq`,
`Session.Abreast.journal_eq`).  A limit that only one of them is given does not set them apart.
-/

set_option autoImplicit false

namespace GuardedMachine

variable {T : Type}

/-! ## Runs, sessions and what comes of a step -/

/-- The runs have started at the same position and stand at the same position. -/
structure Run.Abreast (r r' : Run T) : Prop where
  start_eq : r.start = r'.start
  current_eq : r.current = r'.current

/-- The sessions are of the same machine, and their runs, if there are any, are abreast. -/
structure Session.Abreast (s s' : Session T) : Prop where
  machine_eq : s.machine = s'.machine
  run : Option.Rel Run.Abreast s.run s'.run

/-- The same becomes of an event, and the runs go on abreast. -/
structure Effect.Abreast (d d' : Effect T) : Prop where
  outcome_eq : d.outcome = d'.outcome
  store_eq : d.store = d'.store
  run : d.run.Abreast d'.run
  journal_eq : d.journal = d'.journal

/-- The responses say the same and leave sessions that are abreast. -/
structure Response.Abreast (a a' : Response T) : Prop where
  reply_eq : a.reply = a'.reply
  journal_eq : a.journal = a'.journal
  session : a.session.Abreast a'.session

/-! ## One step and any number of them -/

theorem Graph.dispatch?_abreast {r r' : Run T} (h : r.Abreast r') (g : Graph) (σ : Store)
    (o : Occurrence T) :
    Option.Rel Effect.Abreast (g.dispatch? σ r o) (g.dispatch? σ r' o) := by
  simp only [dispatch?, ← h.current_eq, Option.bind_eq_bind]
  cases g.states[r.current]? with
  | none => exact .none
  | some source =>
    simp only [Option.bind_some]
    cases source.select? o.event σ with
    | none => exact .some ⟨rfl, rfl, h, rfl⟩
    | some t =>
      cases htarget : g.states[t.target]? with
      | none =>
        simp only [htarget, Option.bind_none]
        exact .none
      | some target =>
        simp only [htarget, Option.bind_some]
        rw [Run.enter_eq, Run.enter_eq]
        exact .some ⟨rfl, rfl, ⟨h.start_eq, rfl⟩, rfl⟩

namespace Session

section Abreast

variable {s s' : Session T}

theorem Abreast.refl (s : Session T) : s.Abreast s where
  machine_eq := rfl
  run := by
    cases s.run with
    | none => exact .none
    | some r => exact .some ⟨rfl, rfl⟩

theorem Abreast.symm (h : s.Abreast s') : s'.Abreast s := by
  obtain ⟨m, run⟩ := s
  obtain ⟨m', run'⟩ := s'
  refine ⟨h.machine_eq.symm, ?_⟩
  cases h.run with
  | none => exact .none
  | some hr => exact .some ⟨hr.start_eq.symm, hr.current_eq.symm⟩

theorem abreast_withRun {m : Machine} {r r' : Run T} (h : r.Abreast r') :
    Abreast ⟨m, some r⟩ ⟨m, some r'⟩ :=
  ⟨rfl, .some h⟩

theorem Abreast.run_abreast {r r' : Run T} (h : s.Abreast s') (hr : s.run = some r)
    (hr' : s'.run = some r') : r.Abreast r' := by
  have hrun := h.run
  rw [hr, hr'] at hrun
  cases hrun with
  | some hrun => exact hrun

theorem Abreast.of_untimed (h : s.untimed.Abreast s'.untimed) : s.Abreast s' := by
  obtain ⟨m, run⟩ := s
  obtain ⟨m', run'⟩ := s'
  refine ⟨h.machine_eq, ?_⟩
  have hrun := h.run
  cases run with
  | none =>
    cases run' with
    | none => exact .none
    | some r' => cases hrun
  | some r =>
    cases run' with
    | none => cases hrun
    | some r' =>
      cases hrun with
      | some hr => exact .some ⟨hr.start_eq, hr.current_eq⟩

theorem Abreast.bind (h : s.Abreast s') : s.bind.Abreast s'.bind := by
  obtain ⟨m, run⟩ := s
  obtain ⟨m', run'⟩ := s'
  obtain rfl : m = m' := h.machine_eq
  simp only [Session.bind]
  split
  · exact ⟨rfl, rfl, h⟩
  · split
    · exact ⟨rfl, rfl, h⟩
    · exact ⟨rfl, rfl, Abreast.refl _⟩

theorem Abreast.dispatch {m : Machine} {r r' : Run T} (h : r.Abreast r') (o : Occurrence T) :
    (Session.dispatch ⟨m, some r⟩ r o).Abreast (Session.dispatch ⟨m, some r'⟩ r' o) := by
  have hd := Graph.dispatch?_abreast h m.toGraph m.store o
  simp only [Session.dispatch]
  generalize m.dispatch? m.store r o = d at hd ⊢
  generalize m.dispatch? m.store r' o = d' at hd ⊢
  cases hd with
  | none => exact ⟨rfl, rfl, abreast_withRun h⟩
  | @some d d' hd =>
    exact ⟨congrArg Reply.dispatched hd.outcome_eq, hd.journal_eq,
      congrArg (Machine.mk m.toGraph) hd.store_eq, .some hd.run⟩

/-- **One step.**  What a run remembers does not show in the answer to any step. -/
theorem Abreast.step (h : s.Abreast s') (x : Step T) : (s.step x).Abreast (s'.step x) := by
  obtain ⟨m, run⟩ := s
  obtain ⟨m', run'⟩ := s'
  obtain rfl : m = m' := h.machine_eq
  cases h.run with
  | none => exact ⟨rfl, rfl, Abreast.refl _⟩
  | @some r r' hr =>
    cases x with
    | bind => exact h.bind
    | unbind => exact ⟨rfl, rfl, Abreast.refl _⟩
    | dispatch o => exact Abreast.dispatch hr o
    | reset => exact ⟨rfl, rfl, abreast_withRun ⟨hr.start_eq, hr.start_eq⟩⟩
    | limit n => exact ⟨rfl, rfl, abreast_withRun ⟨hr.start_eq, hr.current_eq⟩⟩

/-- Limiting one of the runs does not set them apart. -/
theorem Abreast.limit_right (h : s.Abreast s') (n : Nat) :
    s.Abreast (s'.step (.limit n)).session := by
  obtain ⟨m, run⟩ := s
  obtain ⟨m', run'⟩ := s'
  obtain rfl : m = m' := h.machine_eq
  cases h.run with
  | none => exact Abreast.refl _
  | some hr => exact abreast_withRun ⟨hr.start_eq, hr.current_eq⟩

theorem Abreast.after (h : s.Abreast s') (xs : List (Step T)) :
    (s.after xs).Abreast (s'.after xs) := by
  induction xs generalizing s s' with
  | nil => exact h
  | cons x xs ih => exact ih (h.step x).session

/-- So it does not show in the replies to any steps. -/
theorem Abreast.replies_eq (h : s.Abreast s') (xs : List (Step T)) :
    (s.responses xs).map (·.reply) = (s'.responses xs).map (·.reply) := by
  induction xs generalizing s s' with
  | nil => rfl
  | cons x xs ih =>
    simp only [responses_cons, List.map_cons, (h.step x).reply_eq, ih (h.step x).session]

/-- It does not show in what is reported either. -/
theorem Abreast.journal_eq (h : s.Abreast s') (xs : List (Step T)) :
    s.journal xs = s'.journal xs := by
  induction xs generalizing s s' with
  | nil => rfl
  | cons x xs ih => rw [journal_cons, journal_cons, (h.step x).journal_eq, ih (h.step x).session]

end Abreast

end Session

end GuardedMachine
