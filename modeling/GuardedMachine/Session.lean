import GuardedMachine.Run

/-!
# Sessions

A `Session` is a machine and at most one run of it.  Runs come and go, but the variables belong to
the machine and keep their values from one run to the next.

Each step of a session answers with a `Response`: the session afterwards, a reply, and what is to be
reported.  A step that needs a run and has none changes nothing, and neither does a bind of a
machine without an initial state.
-/

set_option autoImplicit false

namespace GuardedMachine

/-- A machine with the run that is bound to it, if there is one. -/
structure Session (T : Type) where
  machine : Machine
  run : Option (Run T) := none
deriving DecidableEq

/-- The session of a machine that no run has been bound to yet. -/
def Machine.session {T : Type} (m : Machine) : Session T := { machine := m }

/-- What can be asked of a session. -/
inductive Step (T : Type) where
  /-- Starts a run, in place of the one that is bound. -/
  | bind
  /-- Drops the run. -/
  | unbind
  /-- Gives the run an event. -/
  | dispatch (o : Occurrence T)
  /-- Takes the run back to its start. -/
  | reset
  /-- Limits the moves that the run remembers. -/
  | limit (n : Nat)
deriving DecidableEq, Repr

/-- Why a run cannot be started. -/
inductive BindError where
  | noInitialState
deriving DecidableEq, Repr

/-- The reason in words. -/
def BindError.message : BindError → String
  | noInitialState =>
    "Graph has no initial state. Call .initial() after .state(name) before .build()"

/-- The answer to a step. -/
inductive Reply where
  | bound
  | refused (e : BindError)
  | unbound
  | dispatched (o : Outcome)
  /-- The step was carried out and has nothing to tell. -/
  | done
  /-- The step needs a run, and none is bound. -/
  | notBound
  /-- A position was needed that is not the position of a state. -/
  | stray
deriving DecidableEq, Repr

/-- A session after a step, with all that the step gave rise to. -/
structure Response (T : Type) where
  session : Session T
  reply : Reply
  journal : List Entry := []
deriving DecidableEq

namespace Session

variable {T : Type}

/-- The state that the run is at. -/
def currentState? (s : Session T) : Option (State StateId) :=
  s.run.bind fun r => s.machine.states[r.current]?

/-- Starts a run at the initial state of the machine. -/
def bind (s : Session T) : Response T :=
  match s.machine.initial with
  | none => { session := s, reply := .refused .noInitialState }
  | some i =>
    match s.machine.states[i]? with
    | none => { session := s, reply := .stray }
    | some state =>
      { session := { s with run := some (.startAt i) }
        reply := .bound
        journal := [.bound state.name] }

/-- Dispatches an event to a run of the machine. -/
def dispatch (s : Session T) (r : Run T) (o : Occurrence T) : Response T :=
  match s.machine.dispatch? s.machine.store r o with
  | none => { session := s, reply := .stray }
  | some d =>
    { session := { machine := { s.machine with store := d.store }, run := some d.run }
      reply := .dispatched d.outcome
      journal := d.journal }

/-- The response to one step. -/
def step (s : Session T) (x : Step T) : Response T :=
  match x, s.run with
  | .bind, _ => s.bind
  | _, none => { session := s, reply := .notBound }
  | .unbind, some _ => { session := { s with run := none }, reply := .unbound }
  | .dispatch o, some r => s.dispatch r o
  | .reset, some r => { session := { s with run := some r.reset }, reply := .done }
  | .limit n, some r => { session := { s with run := some (r.setLimit n) }, reply := .done }

/-- The responses to steps that are taken one after the other. -/
def responses (s : Session T) : List (Step T) → List (Response T)
  | [] => []
  | x :: xs => s.step x :: (s.step x).session.responses xs

/-- The session after steps that are taken one after the other. -/
def after (s : Session T) (xs : List (Step T)) : Session T :=
  xs.foldl (fun s x => (s.step x).session) s

variable {s : Session T} {x : Step T} {xs ys : List (Step T)}

theorem currentState?_of_run {r : Run T} (hr : s.run = some r) :
    s.currentState? = s.machine.states[r.current]? := by
  rw [currentState?, hr, Option.bind_some]

@[simp] theorem after_nil : s.after [] = s := rfl

@[simp] theorem after_cons : s.after (x :: xs) = (s.step x).session.after xs := rfl

theorem after_append : s.after (xs ++ ys) = (s.after xs).after ys := List.foldl_append

@[simp] theorem responses_nil : s.responses [] = [] := rfl

@[simp] theorem responses_cons :
    s.responses (x :: xs) = s.step x :: (s.step x).session.responses xs := rfl

theorem responses_append :
    s.responses (xs ++ ys) = s.responses xs ++ (s.after xs).responses ys := by
  induction xs generalizing s with
  | nil => rfl
  | cons x xs ih => simp [ih]

@[simp] theorem length_responses : (s.responses xs).length = xs.length := by
  induction xs generalizing s with
  | nil => rfl
  | cons x xs ih => simp [ih]

end Session

end GuardedMachine
