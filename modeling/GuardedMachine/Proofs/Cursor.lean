import GuardedMachine.Proofs.Safety

/-!
# Where the next call applies

The cursor of a reading says which state and which transition the next call is about.  Both are
found by their position, without a look at whether there is anything in that position.

There always is.  A cursor at the end stands at the last state and at the last transition of that
state, as far as there are any (`Cursor.state?_atEnd_eq_some_iff`,
`Cursor.transition?_atEnd_eq_some_iff`), and after every script the cursor is at the end.  So a call
that configures a transition changes one of them, the last one of the last state, and in that one
only what the call is about; or it finds nothing to configure and is noted as a misuse
(`Reading.Configured`).  `Script.cursor_stands_at_end` puts this together with what else there is to
keep track of: the mark is the position of a state, and the names that count as taken are those of
the states.
-/

set_option autoImplicit false

namespace GuardedMachine

/-! ## The end -/

/-- In the last place of a list there is its last element. -/
theorem length_concat_and_getElem?_iff {α : Type} {l : List α} {a : α} {i : Nat} {P : α → Prop} :
    (i + 1 = (l ++ [a]).length ∧ ∃ b, (l ++ [a])[i]? = some b ∧ P b) ↔ i = l.length ∧ P a := by
  rw [List.length_append, List.length_singleton, Nat.add_right_cancel_iff]
  refine and_congr_right fun hi => ?_
  rw [hi, List.getElem?_concat_length]
  simp

namespace Cursor

variable {states : List DraftState} {i : StateId} {j : Nat}

/-- The state at the end is the last one. -/
theorem state?_atEnd_eq_some_iff : (atEnd states).state? = some i ↔ i + 1 = states.length := by
  rw [state?_atEnd]
  rcases states.eq_nil_or_concat' with rfl | ⟨before, s, rfl⟩
  · simp
  · rw [if_neg (by simp), List.length_append, List.length_singleton, Nat.add_sub_cancel,
      Option.some.injEq, Nat.add_right_cancel_iff]
    exact eq_comm

/-- There is no state at the end if there is none at all. -/
theorem state?_atEnd_eq_none_iff : (atEnd states).state? = none ↔ states = [] := by
  simp [state?_atEnd]

/-- The transition at the end is the last one of the last state. -/
theorem transition?_atEnd_eq_some_iff :
    (atEnd states).transition? = some (i, j) ↔
      i + 1 = states.length ∧ ∃ s, states[i]? = some s ∧ j + 1 = s.transitions.length := by
  rw [transition?_atEnd]
  rcases states.eq_nil_or_concat' with rfl | ⟨before, s, rfl⟩
  · simp
  · rw [length_concat_and_getElem?_iff, lastTransitions_concat]
    split
    · rename_i ht
      simp [ht]
    · rename_i ht
      have hpos : 0 < s.transitions.length := List.length_pos_iff.2 ht
      rw [Option.some.injEq, Prod.mk.injEq, List.length_append, List.length_singleton,
        Nat.add_sub_cancel, eq_comm]
      exact and_congr_right fun _ => by omega

/-- There is no transition at the end if the last state has none, or if there is no state. -/
theorem transition?_atEnd_eq_none_iff :
    (atEnd states).transition? = none ↔ ∀ s ∈ states.getLast?, s.transitions = [] := by
  rw [transition?_atEnd]
  rcases states.eq_nil_or_concat' with rfl | ⟨before, s, rfl⟩
  · simp
  · simp

end Cursor

/-! ## Calls that configure a transition -/

namespace Reading

variable {r : Reading}

/-- What comes of a call that changes a transition by `f`.  If the last state has no transition the
call is noted as a misuse.  Otherwise the last transition of the last state is changed, and nothing
else. -/
inductive Configured (r : Reading) (c : Call) (f : DraftTransition → DraftTransition) :
    Reading → Prop
  | misused (h : ∀ s ∈ r.states.getLast?, s.transitions = []) :
      Configured r c f (r.misuse (.noCurrentTransition c.keyword))
  | last {before : List DraftState} {name : String} {ts : List DraftTransition}
      {t : DraftTransition} (h : r.states = before ++ [⟨name, ts ++ [t]⟩]) :
      Configured r c f { r with states := before ++ [⟨name, ts ++ [f t]⟩] }

theorem AtEnd.configured (h : r.AtEnd) (c : Call) (f : DraftTransition → DraftTransition) :
    r.Configured c f (r.atTransition c f) := by
  rw [h.atTransition]
  rcases r.states.eq_nil_or_concat' with hs | ⟨before, ⟨name, transitions⟩, hs⟩
  · rw [if_pos (by rw [hs, lastTransitions_nil])]
    exact .misused (by simp [hs])
  · rcases transitions.eq_nil_or_concat' with rfl | ⟨ts, t, rfl⟩
    · rw [if_pos (by rw [hs, lastTransitions_concat])]
      exact .misused (by simp [hs])
    · rw [if_neg (by simp [hs])]
      have hlast : (r.states.modifyLast fun s =>
          { s with transitions := s.transitions.modifyLast f }) =
            before ++ [⟨name, ts ++ [f t]⟩] := by
        rw [hs, List.modifyLast_concat, List.modifyLast_concat]
      rw [hlast]
      exact .last hs

/-- A call that declares no state takes no name and reports nothing. -/
theorem seen_and_journal_extend {c : Call} (hc : c.stateName? = none) :
    (r.extend c).seen = r.seen ∧ (r.extend c).journal = r.journal := by
  cases c with
  | state _ => cases hc
  | integer _ => exact ⟨rfl, rfl⟩
  | initial | when _ =>
    rw [extend, atState]
    split <;> exact ⟨rfl, rfl⟩
  | goto _ | update _ | guard _ =>
    rw [extend, atTransition]
    split <;> exact ⟨rfl, rfl⟩

/-- A name counts as taken once a state has been declared under it. -/
theorem mem_seen_extend {c : Call} {name : String} :
    name ∈ (r.extend c).seen ↔ name ∈ r.seen ∨ c = .state name := by
  cases hc : c.stateName? with
  | none =>
    have hne : c ≠ .state name := by
      rintro rfl
      cases hc
    rw [(seen_and_journal_extend hc).1, or_iff_left hne]
  | some other =>
    obtain rfl := Call.stateName?_eq_some_iff.1 hc
    rw [extend, addState, Std.ExtTreeSet.mem_insert, Std.compare_eq_iff_eq, Call.state.injEq,
      or_comm]

end Reading

/-! ## Whole scripts -/

namespace Script

variable {script : Script}

theorem mem_seen_read {name : String} : name ∈ script.read.seen ↔ .state name ∈ script := by
  induction script using List.reverseRecOn with
  | nil => simp
  | append_singleton script c ih =>
    rw [read_concat, Reading.mem_seen_extend, ih, List.mem_append, List.mem_singleton,
      eq_comm (a := c)]

/-- The names of the drafts are those that the script declares states under. -/
theorem mem_names_read {name : String} :
    name ∈ script.read.states.map (·.name) ↔ .state name ∈ script := by
  rw [read_states, names_outline, mem_filterMap_stateName?]

theorem read_states_eq_nil_iff : script.read.states = [] ↔ ∀ name, .state name ∉ script := by
  simp only [← mem_names_read, ← List.eq_nil_iff_forall_not_mem, List.map_eq_nil_iff]

/-- **The cursor stands at the end.**  After every script it is at the state declared last, and at
no state if none was declared; and it is at the last transition of that state, or at none if the
state has none.  So there is a state and a transition wherever the next call will look for one.  The
mark, if there is one, is the position of a state as well, and the names that count as taken are
those of the states.

A target, an update or a guard that comes next is given to the last transition of the last state.
Every other transition and every other state stay as they are, and of that transition all but what
the call is about, and nothing else changes in what was understood.  If there is no such transition,
the call is noted as a misuse and that is all. -/
theorem cursor_stands_at_end (script : Script) :
    (script.read.cursor.state? = none ↔ ∀ name, .state name ∉ script) ∧
      (∀ i, script.read.cursor.state? = some i ↔ i + 1 = script.read.states.length) ∧
      (script.read.cursor.transition? = none ↔
        ∀ s ∈ script.read.states.getLast?, s.transitions = []) ∧
      (∀ i j, script.read.cursor.transition? = some (i, j) ↔
        i + 1 = script.read.states.length ∧
          ∃ s, script.read.states[i]? = some s ∧ j + 1 = s.transitions.length) ∧
      (∀ i ∈ script.read.cursor.state?, ∃ s, script.read.states[i]? = some s) ∧
      (∀ p ∈ script.read.cursor.transition?, ∃ s, script.read.states[p.1]? = some s ∧
        ∃ t, s.transitions[p.2]? = some t) ∧
      (∀ i ∈ script.read.initial, i < script.read.states.length) ∧
      (∀ name, name ∈ script.read.seen ↔ name ∈ script.read.states.map (·.name)) ∧
      (∀ target, script.read.Configured (.goto target) (fun t => { t with target := some target })
        (Script.read (script ++ [.goto target]))) ∧
      (∀ u, script.read.Configured (.update u) (fun t => { t with update := some u })
        (Script.read (script ++ [.update u]))) ∧
      ∀ g, script.read.Configured (.guard g) (fun t => { t with guard := some g })
        (Script.read (script ++ [.guard g])) := by
  have hend : script.read.AtEnd := atEnd_read script
  have hcursor : script.read.cursor = .atEnd script.read.states := hend
  have hstate (i : StateId) :
      script.read.cursor.state? = some i ↔ i + 1 = script.read.states.length := by
    rw [hcursor, Cursor.state?_atEnd_eq_some_iff]
  have htransition (i : StateId) (j : Nat) : script.read.cursor.transition? = some (i, j) ↔
      i + 1 = script.read.states.length ∧
        ∃ s, script.read.states[i]? = some s ∧ j + 1 = s.transitions.length := by
    rw [hcursor, Cursor.transition?_atEnd_eq_some_iff]
  refine ⟨?_, hstate, ?_, htransition, fun i hi => ?_, fun ⟨i, j⟩ hp => ?_, fun i hi => ?_,
    fun name => ?_, fun target => ?_, fun u => ?_, fun g => ?_⟩
  · rw [hcursor, Cursor.state?_atEnd_eq_none_iff, read_states_eq_nil_iff]
  · rw [hcursor, Cursor.transition?_atEnd_eq_none_iff]
  · have hlt : i < script.read.states.length := Nat.lt_of_succ_le (Nat.le_of_eq ((hstate i).1 hi))
    exact ⟨_, List.getElem?_eq_getElem hlt⟩
  · obtain ⟨-, s, hs, hj⟩ := (htransition i j).1 hp
    have hlt : j < s.transitions.length := Nat.lt_of_succ_le (Nat.le_of_eq hj)
    exact ⟨s, hs, _, List.getElem?_eq_getElem hlt⟩
  · rw [read_initial] at hi
    rw [read_states]
    exact marked?_lt hi
  · rw [mem_seen_read, mem_names_read]
  · rw [read_concat]
    exact hend.configured (.goto target) _
  · rw [read_concat]
    exact hend.configured (.update u) _
  · rw [read_concat]
    exact hend.configured (.guard g) _

end Script

/-- After the turnstile the next call is about the only transition of its third state, and a target
is given to that transition although another state of the same name has one that looks the same. -/
theorem turnstile_cursor_stands_at_end :
    turnstile.read.cursor.state? = some 2 ∧ turnstile.read.cursor.transition? = some (2, 0) ∧
      (∃ s, turnstile.read.states[2]? = some s ∧ ∃ t, s.transitions[0]? = some t) ∧
      2 < turnstile.read.states.length ∧
      turnstile.read.Configured (.goto "locked") (fun t => { t with target := some "locked" })
        (Script.read (turnstile ++ [.goto "locked"])) ∧
      (Script.read (turnstile ++ [.goto "locked"])).states =
        [⟨"locked", [⟨"coin", some "open", some ⟨"coins", .increment⟩, none⟩]⟩,
          ⟨"open", [⟨"push", some "locked", none, some ⟨"coins", .greaterThan, 0⟩⟩]⟩,
          ⟨"locked", [⟨"coin", some "locked", some ⟨"coins", .increment⟩, none⟩]⟩] := by
  obtain ⟨-, hstate, -, htransition, -, hfound, hmark, -, hgoto, -, -⟩ :=
    Script.cursor_stands_at_end turnstile
  have hplace : turnstile.read.cursor.transition? = some (2, 0) :=
    (htransition 2 0).2 ⟨rfl, _, rfl, rfl⟩
  exact ⟨(hstate 2).2 rfl, hplace, hfound (2, 0) hplace, hmark 2 rfl, hgoto "locked", rfl⟩

end GuardedMachine
