import GuardedMachine.Script.Outline
import Mathlib.Data.List.Basic
import Mathlib.Data.List.Induction
import Mathlib.Data.List.ModifyLast

/-!
# What one more call does

Of all the draft states that a reading has collected, one more call concerns the last one at most.
`extendDrafts` says what becomes of the drafts, without a cursor: a call either declares a further
state, or it declares a further transition of the last state, or it configures the last transition
of the last state.

That a reading does the same is a matter of its cursor, which has to stand at the end of what was
collected so far.  `Reading.AtEnd` is this invariant.  It holds before the first call and is kept by
every call (`Reading.AtEnd.extend`), so it holds after every script (`Script.atEnd_read`).
-/

set_option autoImplicit false

namespace GuardedMachine

/-! ## Changing the last element of a list -/

section ModifyLast

variable {α β : Type} {l : List α} {f : α → α}

@[simp] theorem modifyLast_nil : ([] : List α).modifyLast f = [] := rfl

theorem modifyLast_cons {a : α} :
    (a :: l).modifyLast f = if l = [] then [f a] else a :: l.modifyLast f := by
  split
  · subst l
    rfl
  · rename_i hl
    exact List.modifyLast_append_of_right_ne_nil f [a] l hl

theorem modify_length_sub_one : l.modify (l.length - 1) f = l.modifyLast f := by
  rcases l.eq_nil_or_concat' with rfl | ⟨l, a, rfl⟩
  · rfl
  · rw [List.modifyLast_concat]
    simp [List.modify_eq_take_drop]

theorem map_modifyLast {g : α → β} {f' : β → β} (h : ∀ a, g (f a) = f' (g a)) :
    (l.modifyLast f).map g = (l.map g).modifyLast f' := by
  rcases l.eq_nil_or_concat' with rfl | ⟨l, a, rfl⟩
  · rfl
  · simp [List.modifyLast_concat, h]

theorem modifyLast_eq_self (h : ∀ a, f a = a) : l.modifyLast f = l := by
  rcases l.eq_nil_or_concat' with rfl | ⟨l, a, rfl⟩
  · rfl
  · rw [List.modifyLast_concat, h]

@[simp] theorem length_modifyLast : (l.modifyLast f).length = l.length := by
  rcases l.eq_nil_or_concat' with rfl | ⟨l, a, rfl⟩
  · rfl
  · simp [List.modifyLast_concat]

@[simp] theorem modifyLast_eq_nil_iff : l.modifyLast f = [] ↔ l = [] := by
  rw [← List.length_eq_zero_iff, length_modifyLast, List.length_eq_zero_iff]

end ModifyLast

/-! ## The drafts after one more call -/

/-- What a call makes of the transition that it configures.  A call that configures no transition
leaves it as it is. -/
def Call.configure (c : Call) (t : DraftTransition) : DraftTransition :=
  match c with
  | goto target => { t with target := some target }
  | update u => { t with update := some u }
  | guard g => { t with guard := some g }
  | state _ | initial | integer _ | when _ => t

/-- What a call other than the declaration of a state makes of the state declared last. -/
def DraftState.extend (s : DraftState) (c : Call) : DraftState :=
  match c with
  | .when event => { s with transitions := s.transitions ++ [{ event, target := none }] }
  | _ => { s with transitions := s.transitions.modifyLast c.configure }

/-- What a call makes of all the states so far. -/
def extendDrafts (states : List DraftState) (c : Call) : List DraftState :=
  match c with
  | .state name => states ++ [{ name }]
  | _ => states.modifyLast (·.extend c)

/-- The transitions of the state declared last, of which there are none before the first state. -/
def lastTransitions (states : List DraftState) : List DraftTransition :=
  (states.getLast?.map (·.transitions)).getD []

/-- What is wrong with a call that comes after these states have been declared. -/
def Call.misuseIn? (states : List DraftState) (c : Call) : Option Fault :=
  match c with
  | state _ | integer _ => none
  | initial | when _ => if states = [] then some (.noCurrentState c.keyword) else none
  | goto _ | update _ | guard _ =>
    if lastTransitions states = [] then some (.noCurrentTransition c.keyword) else none

/-- The cursor at the last transition of the last state, as far as there are any. -/
def Cursor.atEnd (states : List DraftState) : Cursor :=
  if states = [] then .start
  else if lastTransitions states = [] then .state (states.length - 1)
  else .transition (states.length - 1) ((lastTransitions states).length - 1)

section

variable {states : List DraftState} {s : DraftState}

@[simp] theorem lastTransitions_nil : lastTransitions [] = [] := rfl

@[simp] theorem lastTransitions_concat : lastTransitions (states ++ [s]) = s.transitions := by
  simp [lastTransitions]

/-- There is nothing to configure if the last state has no transitions. -/
theorem modifyLast_of_lastTransitions_eq_nil {f : DraftTransition → DraftTransition}
    (h : lastTransitions states = []) :
    (states.modifyLast fun s => { s with transitions := s.transitions.modifyLast f }) = states := by
  rcases states.eq_nil_or_concat' with rfl | ⟨states, s, rfl⟩
  · rfl
  · rw [lastTransitions_concat] at h
    rw [List.modifyLast_concat, h, modifyLast_nil, ← h]

/-- A mark is no part of the drafts. -/
@[simp] theorem extendDrafts_initial : extendDrafts states .initial = states :=
  modifyLast_eq_self fun s => congrArg (State.mk s.name) (modifyLast_eq_self fun _ => rfl)

/-- A variable is no part of the drafts. -/
@[simp] theorem extendDrafts_integer {x : String} : extendDrafts states (.integer x) = states :=
  modifyLast_eq_self fun s => congrArg (State.mk s.name) (modifyLast_eq_self fun _ => rfl)

end

/-! ## The cursor invariant -/

section Cursor

variable {states : List DraftState}

theorem Cursor.state?_atEnd :
    (atEnd states).state? = if states = [] then none else some (states.length - 1) := by
  rw [atEnd]
  split
  · rfl
  · split <;> rfl

theorem Cursor.transition?_atEnd :
    (atEnd states).transition? =
      if lastTransitions states = [] then none
      else some (states.length - 1, (lastTransitions states).length - 1) := by
  rw [atEnd]
  split
  · rename_i h
    rw [h]
    rfl
  · split <;> rfl

/-- The place that the cursor has at the end is that of the last transition of the last state. -/
theorem modify_atEnd {f : DraftTransition → DraftTransition} :
    (states.modify (states.length - 1) fun s =>
        { s with transitions := s.transitions.modify ((lastTransitions states).length - 1) f }) =
      states.modifyLast fun s => { s with transitions := s.transitions.modifyLast f } := by
  rw [modify_length_sub_one]
  rcases states.eq_nil_or_concat' with rfl | ⟨states, s, rfl⟩
  · rfl
  · rw [List.modifyLast_concat, List.modifyLast_concat, lastTransitions_concat,
      modify_length_sub_one]

/-- To configure a transition is not to add one. -/
theorem Cursor.atEnd_configure {f : DraftTransition → DraftTransition} :
    atEnd (states.modifyLast fun s => { s with transitions := s.transitions.modifyLast f }) =
      atEnd states := by
  rcases states.eq_nil_or_concat' with rfl | ⟨states, s, rfl⟩
  · rfl
  · rw [List.modifyLast_concat]
    simp [atEnd]

end Cursor

namespace Reading

/-- The cursor stands at the end of the drafts. -/
def AtEnd (r : Reading) : Prop := r.cursor = .atEnd r.states

variable {r : Reading}

theorem AtEnd.atState (h : r.AtEnd) (c : Call) (f : StateId → Reading) :
    r.atState c f =
      if r.states = [] then r.misuse (.noCurrentState c.keyword) else f (r.states.length - 1) := by
  have hstate : r.cursor.state? = _ := (congrArg Cursor.state? h).trans Cursor.state?_atEnd
  rw [Reading.atState, hstate]
  by_cases hs : r.states = []
  · rw [if_pos hs, if_pos hs]
  · rw [if_neg hs, if_neg hs]

theorem AtEnd.atTransition (h : r.AtEnd) (c : Call) (f : DraftTransition → DraftTransition) :
    r.atTransition c f =
      if lastTransitions r.states = [] then r.misuse (.noCurrentTransition c.keyword)
      else { r with states := r.states.modifyLast fun s =>
        { s with transitions := s.transitions.modifyLast f } } := by
  have htransition : r.cursor.transition? = _ :=
    (congrArg Cursor.transition? h).trans Cursor.transition?_atEnd
  rw [Reading.atTransition, htransition]
  by_cases ht : lastTransitions r.states = []
  · rw [if_pos ht, if_pos ht]
  · rw [if_neg ht, if_neg ht]
    simp only [modifyTransition, modify_atEnd]

/-- What one more call makes of the drafts of a reading. -/
theorem AtEnd.states_extend (h : r.AtEnd) (c : Call) :
    (r.extend c).states = extendDrafts r.states c := by
  cases c with
  | state name => rfl
  | integer x => exact extendDrafts_integer.symm
  | initial =>
    rw [extendDrafts_initial, Reading.extend, h.atState]
    split <;> rfl
  | when event =>
    rw [Reading.extend, h.atState]
    split
    · rename_i hs
      show r.states = r.states.modifyLast _
      rw [hs, modifyLast_nil]
    · exact modify_length_sub_one
  | goto _ | update _ | guard _ =>
    rw [Reading.extend, h.atTransition]
    split
    · rename_i ht
      exact (modifyLast_of_lastTransitions_eq_nil ht).symm
    · rfl

/-- The calls that have nothing to configure are noted, and no others. -/
theorem AtEnd.misuses_extend (h : r.AtEnd) (c : Call) :
    (r.extend c).misuses = r.misuses ++ (c.misuseIn? r.states).toList := by
  cases c with
  | state _ | integer _ => exact (List.append_nil _).symm
  | initial | when _ =>
    rw [Reading.extend, h.atState, Call.misuseIn?]
    split
    · rfl
    · exact (List.append_nil _).symm
  | goto _ | update _ | guard _ =>
    rw [Reading.extend, h.atTransition, Call.misuseIn?]
    split
    · rfl
    · exact (List.append_nil _).symm

/-- The mark is set by a call that has a state to mark. -/
theorem AtEnd.initial_extend (h : r.AtEnd) (c : Call) :
    (r.extend c).initial =
      if c = .initial ∧ r.states ≠ [] then some (r.states.length - 1) else r.initial := by
  cases c with
  | state _ | integer _ => rfl
  | initial =>
    rw [Reading.extend, h.atState]
    by_cases hs : r.states = []
    · simp [hs, misuse]
    · simp [hs]
  | when _ =>
    rw [Reading.extend, h.atState]
    split <;> rfl
  | goto _ | update _ | guard _ =>
    rw [Reading.extend, h.atTransition]
    split <;> rfl

/-- Only a declaration of a variable changes the store. -/
theorem store_extend (c : Call) :
    (r.extend c).store = c.declared?.elim r.store r.store.declare := by
  cases c with
  | state _ | integer _ => rfl
  | initial | when _ =>
    rw [Reading.extend, atState]
    split <;> rfl
  | goto _ | update _ | guard _ =>
    rw [Reading.extend, atTransition]
    split <;> rfl

/-- Every call leaves the cursor at the end. -/
theorem AtEnd.extend (h : r.AtEnd) (c : Call) : (r.extend c).AtEnd := by
  rw [AtEnd, h.states_extend]
  cases c with
  | state name =>
    show Cursor.state r.states.length = .atEnd (r.states ++ [⟨name, []⟩])
    simp [Cursor.atEnd]
  | integer x => exact h.trans (congrArg _ extendDrafts_integer.symm)
  | initial =>
    rw [extendDrafts_initial, Reading.extend, h.atState]
    split <;> exact h
  | when event =>
    rw [Reading.extend, h.atState]
    split
    · rename_i hs
      show r.cursor = .atEnd (r.states.modifyLast _)
      rw [hs, modifyLast_nil, ← hs]
      exact h
    · rename_i hs
      obtain ⟨states, s, hs⟩ := r.states.eq_nil_or_concat'.resolve_left hs
      simp only [addTransition, modify_length_sub_one, extendDrafts, DraftState.extend, hs,
        List.modifyLast_concat]
      simp [Cursor.atEnd]
  | goto _ | update _ | guard _ =>
    rw [Reading.extend, h.atTransition]
    split
    · exact h.trans Cursor.atEnd_configure.symm
    · exact h.trans Cursor.atEnd_configure.symm

end Reading

/-- After every script the cursor stands at the end. -/
theorem Script.atEnd_read (script : Script) : script.read.AtEnd := by
  induction script using List.reverseRecOn with
  | nil => rfl
  | append_singleton script c ih =>
    rw [read_concat]
    exact ih.extend c

end GuardedMachine
