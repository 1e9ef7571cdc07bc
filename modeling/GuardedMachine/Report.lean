import GuardedMachine.Firing

/-!
# What the responses of a session report

The replies and the journal of a session can be read by someone who never looks at the session
itself.  `Session.journal` strings the entries of all responses together.  From it the updates can
be made once more (`redo`), and the moves since the last start of the run can be read off
(`Session.reported`).  `Session.heeded` tells which events of a list the replies say were not
ignored.

What `redo` leaves in a variable is what the last entry about it says (`read_redo`).
-/

set_option autoImplicit false

namespace GuardedMachine

/-! ## Single entries and replies -/

namespace Entry

/-- The move that is reported, if the entry tells of a firing. -/
def move? : Entry → Option Move
  | fired event source target => some ⟨event, source, target⟩
  | _ => none

/-- The name and the value that are reported as written. -/
def written? : Entry → Option (String × Int64)
  | applied var _ new => some (var, new)
  | _ => none

/-- The name that is reported as written, with the value that is reported as its old one. -/
def replaced? : Entry → Option (String × Int64)
  | applied var old _ => some (var, old)
  | _ => none

/-- The value that is reported as the new one of `x`. -/
def newValue? (x : String) : Entry → Option Int64
  | applied var _ new => if var = x then some new else none
  | _ => none

end Entry

/-- The moves that a list of entries tells of. -/
def movesIn (es : List Entry) : List Move := es.filterMap Entry.move?

/-- The moves lead from one name to another, each from where the one before it led. -/
def Move.Leads : String → List Move → String → Prop
  | a, [], b => a = b
  | a, m :: ms, b => m.source = a ∧ Leads m.target ms b

namespace Reply

/-- Whether a transition fired. -/
def isFired : Reply → Bool
  | dispatched o => o.isFired
  | _ => false

/-- Whether the step has put a run at its start. -/
def isRestart {T : Type} : Step T → Reply → Bool
  | .bind, .bound => true
  | .reset, .done => true
  | _, _ => false

end Reply

@[simp] theorem Reply.isRestart_notBound {T : Type} {x : Step T} :
    isRestart x .notBound = false := by
  cases x <;> rfl

@[simp] theorem Reply.isRestart_stray {T : Type} {x : Step T} : isRestart x .stray = false := by
  cases x <;> rfl

/-! ## Making the updates once more -/

/-- Writes every value that is reported as written. -/
def redo (σ : Store) (es : List Entry) : Store :=
  (es.filterMap Entry.written?).foldl (fun ρ p => ρ.write p.1 p.2) σ

section Redo

variable {σ : Store} {es es' : List Entry} {x : String}

@[simp] theorem redo_nil : redo σ [] = σ := rfl

theorem redo_append : redo σ (es ++ es') = redo (redo σ es) es' := by
  rw [redo, List.filterMap_append, List.foldl_append]
  rfl

theorem redo_of_written?_eq_none (h : ∀ e ∈ es, e.written? = none) : redo σ es = σ := by
  rw [redo, List.filterMap_eq_nil_iff.2 h, List.foldl_nil]

/-- A variable has the value that was reported last, and its old value if none was. -/
theorem read_redo :
    (redo σ es).read x = ((es.filterMap (Entry.newValue? x)).getLast?).getD (σ.read x) := by
  -- from the right, since the last entry about `x` makes those before it irrelevant
  induction es using List.reverseRecOn with
  | nil => rfl
  | append_singleton es e ih =>
    rw [redo_append, List.filterMap_append]
    cases e with
    | applied var old new =>
      show ((redo σ es).write var new).read x = _
      rw [Store.read_write]
      by_cases hx : var = x
      · simp [Entry.newValue?, hx]
      · simp [Entry.newValue?, hx, ih]
    | duplicateState _ | built _ _ _ | bound _ | ignored _ _ | fired _ _ _ =>
      rw [redo_of_written?_eq_none (by simp [Entry.written?]), ih]
      simp [Entry.newValue?]

end Redo

section Moves

variable {es es' : List Entry}

@[simp] theorem movesIn_nil : movesIn [] = [] := rfl

@[simp] theorem movesIn_append : movesIn (es ++ es') = movesIn es ++ movesIn es' :=
  List.filterMap_append

end Moves

/-! ## Firings in the journal -/

section Firing

variable {τ : Type} {t : Transition τ} {σ : Store} {event source target : String}

/-- To redo what is reported of an update is to make it. -/
theorem redo_appliedEntries : redo σ (t.appliedEntries σ) = t.apply σ := by
  rw [Transition.appliedEntries, Transition.apply]
  cases t.update <;> rfl

/-- To redo what is reported of a firing is to apply the transition. -/
theorem redo_fired :
    redo σ (t.appliedEntries σ ++ [.fired event source target]) = t.apply σ := by
  rw [redo_append, redo_appliedEntries]
  rfl

/-- A firing is reported as one move. -/
theorem movesIn_fired :
    movesIn (t.appliedEntries σ ++ [.fired event source target]) = [⟨event, source, target⟩] := by
  rw [Transition.appliedEntries]
  cases t.update <;> rfl

end Firing

/-! ## Reports of sessions -/

namespace Session

variable {T : Type}

/-- What a session replies to a step and reports of it, and when. -/
inductive Tells (s : Session T) : Step T → Reply → List Entry → Prop
  /-- The current state selects nothing for the event. -/
  | ignored {r : Run T} {o : Occurrence T} {source : State StateId} (hr : s.run = some r)
      (hsource : s.currentState? = some source) (ht : s.firing? (.dispatch o) = none) :
      Tells s (.dispatch o) (.dispatched .ignored) [.ignored o.event source.name]
  /-- A transition without an update fires. -/
  | fired {r : Run T} {o : Occurrence T} {source target : State StateId} {t : Transition StateId}
      (hr : s.run = some r) (hsource : s.currentState? = some source)
      (ht : s.firing? (.dispatch o) = some t)
      (htarget : s.machine.states[t.target]? = some target)
      (hu : t.update = none) :
      Tells s (.dispatch o) (.dispatched (.fired r.current t.target))
        [.fired o.event source.name target.name]
  /-- A transition with an update fires. -/
  | applied {r : Run T} {o : Occurrence T} {source target : State StateId} {t : Transition StateId}
      {u : Update} (hr : s.run = some r) (hsource : s.currentState? = some source)
      (ht : s.firing? (.dispatch o) = some t)
      (htarget : s.machine.states[t.target]? = some target)
      (hu : t.update = some u) :
      Tells s (.dispatch o) (.dispatched (.fired r.current t.target))
        [.applied u.var (s.machine.store.read u.var) (u.written s.machine.store),
          .fired o.event source.name target.name]
  /-- A run is started. -/
  | bound {first : State StateId} (hfirst : s.machine.initialState? = some first) :
      Tells s .bind .bound [.bound first.name]
  /-- No run can be started. -/
  | refused (hi : s.machine.initial = none) : Tells s .bind (.refused .noInitialState) []
  /-- There is no run that the event could be given to. -/
  | notBound {o : Occurrence T} (hr : s.run = none) : Tells s (.dispatch o) .notBound []
  /-- Any other step is taken in silence. -/
  | silent {x : Step T} {a : Reply} (hbind : x ≠ .bind) (hdispatch : ∀ o, x ≠ .dispatch o) :
      Tells s x a []

/-- Everything that is reported during the steps, in order. -/
def journal (s : Session T) (xs : List (Step T)) : List Entry :=
  (s.responses xs).flatMap (·.journal)

/-- The moves that are reported since the run was started or taken back to its start. -/
def reported (s : Session T) (xs : List (Step T)) : List Move :=
  movesIn (((xs.zip (s.responses xs)).rtakeWhile
    fun p => !p.2.reply.isRestart p.1).flatMap (·.2.journal))

/-- The events, out of a list that is dispatched, at which a transition fires. -/
def heeded (s : Session T) (os : List (Occurrence T)) : List (Occurrence T) :=
  ((os.zip (s.responses (os.map .dispatch))).filter (·.2.reply.isFired)).map (·.1)

variable {s : Session T} {x : Step T} {xs : List (Step T)} {o : Occurrence T}
  {os : List (Occurrence T)}

@[simp] theorem journal_nil : s.journal [] = [] := rfl

@[simp] theorem journal_cons :
    s.journal (x :: xs) = (s.step x).journal ++ (s.step x).session.journal xs := rfl

/-- A restart makes a new beginning; otherwise what the step reports comes last. -/
theorem reported_concat :
    s.reported (xs ++ [x]) =
      if ((s.after xs).step x).reply.isRestart x then []
      else s.reported xs ++ movesIn ((s.after xs).step x).journal := by
  rw [reported, responses_append, List.zip_append (length_responses).symm, responses_cons,
    responses_nil, List.zip_cons_cons, List.zip_nil_left, List.rtakeWhile_concat]
  split
  · rename_i h
    rw [if_neg (by simpa using h), List.flatMap_append, movesIn_append]
    simp [reported]
  · rename_i h
    rw [if_pos (by simpa using h)]
    rfl

theorem heeded_cons :
    s.heeded (o :: os) =
      if (s.step (.dispatch o)).reply.isFired then
        o :: (s.step (.dispatch o)).session.heeded os
      else (s.step (.dispatch o)).session.heeded os := by
  rw [heeded, List.map_cons, responses_cons, List.zip_cons_cons, List.filter_cons]
  split <;> rfl

end Session

end GuardedMachine
