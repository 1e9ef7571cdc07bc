import GuardedMachine.Script.Link

/-!
# What a script says as a whole

A script can also be read without following it call by call.  Cut it at the calls that declare
states: each part describes one state.  Cut a part at the calls that declare transitions: each part
of that describes one transition, by the last target, the last update and the last guard in it.  The
initial state is the one whose part holds the last mark, the variables are the names that were
declared, and whether a call is misused can be told from the calls before it.

This reading, the *outline*, needs no cursor.  Cutting loses nothing (`cut_fst_append`), so every
call belongs to one part.
-/

set_option autoImplicit false

namespace GuardedMachine

/-! ## Cutting a list -/

section Cut

variable {α β : Type}

/-- Cuts a list at the elements that are marks.  The result is what comes before the first mark, and
each mark with what comes between it and the next. -/
def cut (mark? : α → Option β) : List α → List α × List (β × List α)
  | [] => ([], [])
  | a :: as =>
    match mark? a with
    | some b => ([], (b, (cut mark? as).1) :: (cut mark? as).2)
    | none => (a :: (cut mark? as).1, (cut mark? as).2)

/-- The last of what `f` finds in a list. -/
def findLast? (f : α → Option β) (as : List α) : Option β := (as.filterMap f).getLast?

variable {mark? : α → Option β} {as : List α}

/-- There is a part for each mark. -/
theorem map_fst_cut_snd : (cut mark? as).2.map (·.1) = as.filterMap mark? := by
  induction as with
  | nil => rfl
  | cons a as ih =>
    rw [cut]
    split
    · rename_i b h
      rw [List.filterMap_cons_some h, ← ih]
      rfl
    · rename_i h
      rw [List.filterMap_cons_none h, ← ih]

/-- Nothing is lost except the marks, and they can be put back by what `unmark` makes of them. -/
theorem cut_fst_append (unmark : β → α) (h : ∀ a b, mark? a = some b → unmark b = a) :
    (cut mark? as).1 ++ (cut mark? as).2.flatMap (fun p => unmark p.1 :: p.2) = as := by
  induction as with
  | nil => rfl
  | cons a as ih =>
    rw [cut]
    split
    · rename_i b hb
      rw [List.flatMap_cons, List.nil_append, List.cons_append, ih, h a b hb]
    · rw [List.cons_append, ih]

theorem cut_append_of_none {bs : List α} (h : ∀ a ∈ as, mark? a = none) :
    cut mark? (as ++ bs) = (as ++ (cut mark? bs).1, (cut mark? bs).2) := by
  induction as with
  | nil => rfl
  | cons a as ih =>
    rw [List.forall_mem_cons] at h
    rw [List.cons_append, cut, ih h.2, h.1, List.cons_append]

/-- Parts that have been put together are what the list is cut into again. -/
theorem cut_flatMap {γ : Type} (mark? : α → Option β) (mark : γ → α) {label : γ → β}
    {body : γ → List α} {xs : List γ} (hmark : ∀ x, mark? (mark x) = some (label x))
    (hbody : ∀ x ∈ xs, ∀ a ∈ body x, mark? a = none) :
    cut mark? (xs.flatMap fun x => mark x :: body x) = ([], xs.map fun x => (label x, body x)) := by
  induction xs with
  | nil => rfl
  | cons x xs ih =>
    rw [List.forall_mem_cons] at hbody
    rw [List.flatMap_cons, List.cons_append, cut, hmark, cut_append_of_none hbody.1, ih hbody.2,
      List.append_nil, List.map_cons]

end Cut

/-! ## What single calls say -/

namespace Call

/-- The state that a call declares. -/
def stateName? : Call → Option String
  | state name => some name
  | _ => none

/-- The event of the transition that a call declares. -/
def event? : Call → Option String
  | when event => some event
  | _ => none

/-- The variable that a call declares. -/
def declared? : Call → Option String
  | integer x => some x
  | _ => none

/-- The target that a call gives. -/
def target? : Call → Option String
  | goto target => some target
  | _ => none

/-- The update that a call gives. -/
def update? : Call → Option Update
  | update u => some u
  | _ => none

/-- The guard that a call gives. -/
def guard? : Call → Option Guard
  | guard g => some g
  | _ => none

end Call

/-! ## The outline -/

/-- The transition that the calls after its declaration describe. -/
def DraftTransition.ofCalls (event : String) (calls : List Call) : DraftTransition where
  event := event
  target := findLast? Call.target? calls
  update := findLast? Call.update? calls
  guard := findLast? Call.guard? calls

/-- The state that the calls after its declaration describe. -/
def DraftState.ofCalls (name : String) (calls : List Call) : DraftState where
  name := name
  transitions := (cut Call.event? calls).2.map fun p => DraftTransition.ofCalls p.1 p.2

namespace Script

/-- The names of the states in the order of their declaration, each with the calls about it. -/
def parts (script : Script) : List (String × List Call) := (cut Call.stateName? script).2

/-- The states that the script declares. -/
def outline (script : Script) : List DraftState :=
  script.parts.map fun p => DraftState.ofCalls p.1 p.2

/-- The position of the state that is marked last. -/
def marked? (script : Script) : Option StateId :=
  findLast? (fun p => if Call.initial ∈ p.1.2 then some p.2 else none) script.parts.zipIdx

/-- The variables that the script declares, at value `0`. -/
def declared (script : Script) : Store :=
  (script.filterMap Call.declared?).foldl Store.declare ∅

end Script

/-! ## Faults -/

/-- Whether some state is declared. -/
def HasState (calls : List Call) : Prop := ∃ c ∈ calls, c.stateName?.isSome

/-- Whether the state declared last has a transition. -/
def HasTransition (calls : List Call) : Prop :=
  ∃ p ∈ (cut Call.stateName? calls).2.getLast?, ∃ c ∈ p.2, c.event?.isSome

instance (calls : List Call) : Decidable (HasState calls) :=
  inferInstanceAs (Decidable (∃ c ∈ calls, _))

instance (calls : List Call) : Decidable (HasTransition calls) :=
  match h : (cut Call.stateName? calls).2.getLast? with
  | none => isFalse (by simp [HasTransition, h])
  | some p => decidable_of_iff (∃ c ∈ p.2, c.event?.isSome) (by simp [HasTransition, h])

/-- What is wrong with a call of this word if it needs a state. -/
def needsState (before : List Call) (word : String) : Option Fault :=
  if HasState before then none else some (.noCurrentState word)

/-- What is wrong with a call of this word if it needs a transition. -/
def needsTransition (before : List Call) (word : String) : Option Fault :=
  if HasTransition before then none else some (.noCurrentTransition word)

/-- What is wrong with a call that follows the calls `before`.  A fault tells the word that the call
was made by, and all these words are given here. -/
def Call.misuse? (before : List Call) : Call → Option Fault
  | state _ | integer _ => none
  | initial => needsState before "initial"
  | when _ => needsState before "when"
  | goto _ => needsTransition before "to"
  | update ⟨_, .assign _⟩ => needsTransition before "set"
  | update ⟨_, .increment⟩ => needsTransition before "increment"
  | update ⟨_, .decrement⟩ => needsTransition before "decrement"
  | guard ⟨_, .equals, _⟩ => needsTransition before "if_equals"
  | guard ⟨_, .greaterThan, _⟩ => needsTransition before "if_greater_than"
  | guard ⟨_, .lessThan, _⟩ => needsTransition before "if_less_than"

/-- What is wrong with a transition of the state `source`, if these are the names of all states. -/
def DraftTransition.fault? (names : List String) (source : String) (t : DraftTransition) :
    Option Fault :=
  match t.target with
  | none => some (.missingTarget source t.event)
  | some name => if name ∈ names then none else some (.undeclaredTarget source t.event name)

namespace Script

/-- The misused calls, in order. -/
def misuses (script : Script) : List Fault :=
  script.zipIdx.filterMap fun p => p.1.misuse? (script.take p.2)

/-- The transitions that point nowhere, in order. -/
def faults (script : Script) : List Fault :=
  script.outline.flatMap fun s =>
    s.transitions.filterMap (DraftTransition.fault? (script.filterMap Call.stateName?) s.name)

end Script

end GuardedMachine
