import GuardedMachine.Session
import Mathlib.Data.List.DropRight

/-!
# What fires in a session, and what it comes to

`Session.firings` lists the transitions that fire while a session takes steps, through all of its
runs.  As far as a single variable is concerned, such a list comes down to the changes that its
updates make to that variable (`changesOf`).

`Change.total` says in one formula what a list of changes makes of a value, in unbounded integers:
the value that is assigned last, plus the increments and minus the decrements that follow.
`Change.foldl_eval` says that making the changes one after the other, in 64-bit words, gives the
same number modulo 2⁶⁴.
-/

set_option autoImplicit false

namespace GuardedMachine

/-! ## The sum of many changes -/

namespace Change

/-- The value that is assigned, if the change is an assignment. -/
def literal? : Change → Option Int64
  | assign value => some value
  | increment | decrement => none

/-- The value that is assigned last. -/
def lastLiteral? (cs : List Change) : Option Int64 := (cs.filterMap literal?).getLast?

/-- The changes after the last assignment, and all of them if nothing is assigned. -/
def sinceLiteral (cs : List Change) : List Change := cs.rtakeWhile fun c => c.literal?.isNone

/-- What is left of the value `v` after changes that do not wrap around. -/
def total (cs : List Change) (v : Int64) : Int :=
  ((lastLiteral? cs).getD v).toInt + (sinceLiteral cs).count .increment -
    (sinceLiteral cs).count .decrement

variable {cs : List Change} {c : Change} {v : Int64}

@[simp] theorem total_nil : total [] v = v.toInt := by simp [total, lastLiteral?, sinceLiteral]

theorem total_concat_assign {n : Int64} : total (cs ++ [.assign n]) v = n.toInt := by
  simp [total, lastLiteral?, sinceLiteral, literal?]

theorem total_concat_increment : total (cs ++ [.increment]) v = total cs v + 1 := by
  simp [total, lastLiteral?, sinceLiteral, literal?]
  omega

theorem total_concat_decrement : total (cs ++ [.decrement]) v = total cs v - 1 := by
  simp [total, lastLiteral?, sinceLiteral, literal?]
  omega

/-- Changes that wrap around give the total modulo 2⁶⁴. -/
theorem foldl_eval : cs.foldl (fun w c => c.eval w) v = Int64.ofInt (total cs v) := by
  -- from the right, since an assignment makes all that comes before it irrelevant
  induction cs using List.reverseRecOn with
  | nil => rw [total_nil, Int64.ofInt_toInt, List.foldl_nil]
  | append_singleton cs c ih =>
    rw [List.foldl_concat, ih]
    cases c with
    | assign n => rw [total_concat_assign, Int64.ofInt_toInt, eval]
    | increment => rw [total_concat_increment, Int64.ofInt_add, eval]; rfl
    | decrement => rw [total_concat_decrement, Int64.ofInt_sub, eval]; rfl

end Change

/-! ## What many transitions do to a store -/

/-- What the transition does to the variable `x`, if its update writes it. -/
def Transition.change? {τ : Type} (x : String) (t : Transition τ) : Option Change :=
  t.update.bind fun u => if u.var = x then some u.change else none

/-- What the transitions do to the variable `x`, one after the other. -/
def changesOf {τ : Type} (x : String) (ts : List (Transition τ)) : List Change :=
  ts.filterMap (Transition.change? x)

section Apply

variable {τ : Type} {t : Transition τ} {ts : List (Transition τ)} {σ : Store} {x : String}

theorem Transition.mem_apply : x ∈ t.apply σ ↔ x ∈ σ ∨ ∃ u ∈ t.update, u.var = x := by
  cases hu : t.update with
  | none => simp [apply, hu]
  | some u => simp [apply, hu, Update.mem_apply, or_comm]

theorem Transition.read_apply :
    (t.apply σ).read x = (t.change? x).toList.foldl (fun v c => c.eval v) (σ.read x) := by
  cases hu : t.update with
  | none => simp [apply, change?, hu]
  | some u =>
    by_cases hx : u.var = x
    · subst hx
      simp [apply, change?, hu, Update.read_apply, Update.written]
    · simp [apply, change?, hu, Update.read_apply, hx]

/-- A store that transitions are applied to gets the names that their updates write, and no
others. -/
theorem mem_foldl_apply :
    x ∈ ts.foldl (fun ρ t => t.apply ρ) σ ↔ x ∈ σ ∨ ∃ t ∈ ts, ∃ u ∈ t.update, u.var = x := by
  induction ts generalizing σ with
  | nil => simp
  | cons t ts ih => simp [ih, Transition.mem_apply, or_assoc]

/-- What a name reads then is what the changes to it make of what it read before. -/
theorem read_foldl_apply :
    (ts.foldl (fun ρ t => t.apply ρ) σ).read x =
      (changesOf x ts).foldl (fun v c => c.eval v) (σ.read x) := by
  induction ts generalizing σ with
  | nil => rfl
  | cons t ts ih =>
    rw [List.foldl_cons, ih, Transition.read_apply, ← List.foldl_append]
    congr 1
    cases h : t.change? x <;> simp [changesOf, h]

end Apply

/-! ## What fires -/

/-- The position that a fired transition leads to. -/
def Reply.entered? : Reply → Option StateId
  | dispatched (.fired _ target) => some target
  | _ => none

namespace Session

variable {T : Type}

/-- The transition that the current state selects, if the step is an event. -/
def firing? (s : Session T) : Step T → Option (Transition StateId)
  | .dispatch o => do
    let state ← s.currentState?
    state.select? o.event s.machine.store
  | _ => none

/-- The transitions that fire during the steps, in order. -/
def firings (s : Session T) : List (Step T) → List (Transition StateId)
  | [] => []
  | x :: xs => (s.firing? x).toList ++ (s.step x).session.firings xs

end Session

end GuardedMachine
