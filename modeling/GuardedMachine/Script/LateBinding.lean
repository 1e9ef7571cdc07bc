import GuardedMachine.Script.Reading
import GuardedMachine.Run

/-!
# Running drafts

Draft states can be run as they are.  The name that a transition points at is looked up only when
the transition fires, and the run goes on at the first draft that bears the name at that moment.
This gives meaning to a script without linking it.
-/

set_option autoImplicit false

namespace GuardedMachine

/-- The place of a run among draft states, with the values of the variables. -/
structure LateRun where
  /-- The current draft, with its position. -/
  current : DraftState × StateId
  store : Store
deriving DecidableEq

namespace LateRun

/-- The first draft that bears a name, with its position. -/
def locate? (drafts : List DraftState) (name : String) : Option (DraftState × StateId) :=
  drafts.zipIdx.find? fun p => p.1.name = name

/-- The start of a run at the draft in place `i`. -/
def start? (drafts : List DraftState) (i : StateId) (σ : Store) : Option LateRun :=
  drafts[i]?.map fun s => ⟨(s, i), σ⟩

/-- What becomes of an event, and where the run stands after it.  There is no answer if the
transition that should fire points nowhere. -/
def dispatch? (drafts : List DraftState) (r : LateRun) (event : String) :
    Option (Outcome × LateRun) :=
  match r.current.1.select? event r.store with
  | none => some (.ignored, r)
  | some t => do
    let next ← locate? drafts (← t.target)
    return (.fired r.current.2 next.2, ⟨next, t.apply r.store⟩)

/-- What becomes of a list of events, with the place of the run after each. -/
def trace? (drafts : List DraftState) (r : LateRun) :
    List String → Option (List (Outcome × LateRun))
  | [] => some []
  | event :: events => do
    let (o, next) ← dispatch? drafts r event
    return (o, next) :: (← trace? drafts next events)

end LateRun

/-- The start of a run of the drafts of a reading, at the draft that is marked. -/
def Reading.lateStart? (r : Reading) : Option LateRun :=
  r.initial.bind fun i => LateRun.start? r.states i r.store

end GuardedMachine
