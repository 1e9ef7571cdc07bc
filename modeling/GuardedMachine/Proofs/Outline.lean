import GuardedMachine.Script.Outline
import GuardedMachine.Proofs.Drafts

/-!
# Following a script and reading it as a whole

Following a script call by call and cutting it into parts give the same: the same states, the same
initial state, the same variables and the same misuses.

Both are compared one call at a time.  What a call at the end of a script adds to its parts is
`cut_concat_of_some` and `cut_concat_of_none`: a mark opens a new part, and anything else goes to
the last part.  From this the outline changes exactly as the drafts of a reading do
(`Script.outline_concat`), and `Script.read_states` and its companions are inductions on the number
of calls.
-/

set_option autoImplicit false

namespace GuardedMachine

/-! ## One element more -/

section Cut

variable {α β γ : Type} {mark? : α → Option β} {as : List α} {a : α} {b : β}

/-- A mark opens a new part. -/
theorem cut_concat_of_some (h : mark? a = some b) :
    cut mark? (as ++ [a]) = ((cut mark? as).1, (cut mark? as).2 ++ [(b, [])]) := by
  induction as with
  | nil => simp [cut, h]
  | cons x as ih =>
    rw [List.cons_append, cut, cut, ih]
    split <;> rfl

/-- What is no mark goes to the last part, or to what comes before the first one. -/
theorem cut_concat_of_none (h : mark? a = none) :
    cut mark? (as ++ [a]) =
      (if (cut mark? as).2 = [] then (cut mark? as).1 ++ [a] else (cut mark? as).1,
        (cut mark? as).2.modifyLast fun p => (p.1, p.2 ++ [a])) := by
  induction as with
  | nil => simp [cut, h]
  | cons x as ih =>
    rw [List.cons_append, cut, cut, ih]
    split
    · rw [modifyLast_cons]
      split
      · rename_i hparts
        simp [hparts]
      · simp
    · simp only [List.cons_append]
      split <;> rfl

/-- Another mark describes one thing more. -/
theorem map_cut_concat_of_some {f : β → List α → γ} (h : mark? a = some b) :
    ((cut mark? (as ++ [a])).2.map fun p => f p.1 p.2) =
      ((cut mark? as).2.map fun p => f p.1 p.2) ++ [f b []] := by
  rw [cut_concat_of_some h, List.map_append, List.map_singleton]

/-- What is no mark adds to the description of the last thing. -/
theorem map_cut_concat_of_none {f : β → List α → γ} {g : γ → γ} (h : mark? a = none)
    (hf : ∀ b l, f b (l ++ [a]) = g (f b l)) :
    ((cut mark? (as ++ [a])).2.map fun p => f p.1 p.2) =
      ((cut mark? as).2.map fun p => f p.1 p.2).modifyLast g := by
  rw [cut_concat_of_none h]
  exact map_modifyLast fun p => hf p.1 p.2

theorem cut_snd_eq_nil_iff : (cut mark? as).2 = [] ↔ ∀ a ∈ as, mark? a = none := by
  rw [← List.map_eq_nil_iff, map_fst_cut_snd, List.filterMap_eq_nil_iff]

/-- What comes before the first mark gets longer as long as there is none. -/
theorem forall_mem_cut_fst_concat {P : α → Prop} :
    (∀ x ∈ (cut mark? (as ++ [a])).1, P x) ↔
      (∀ x ∈ (cut mark? as).1, P x) ∧ ((cut mark? as).2 = [] → mark? a = none → P a) := by
  cases h : mark? a with
  | some b => simp [cut_concat_of_some h]
  | none =>
    rw [cut_concat_of_none h]
    by_cases hparts : (cut mark? as).2 = []
    · rw [if_pos hparts, List.forall_mem_append, List.forall_mem_singleton]
      simp [hparts]
    · simp [hparts]

theorem findLast?_concat {f : α → Option β} :
    findLast? f (as ++ [a]) = (f a).or (findLast? f as) := by
  rw [findLast?, findLast?, List.filterMap_append]
  cases h : f a with
  | none => simp [h]
  | some b => simp [h]

end Cut

/-! ## States and transitions -/

section

variable {script : Script} {c : Call}

theorem DraftTransition.ofCalls_concat (event : String) (calls : List Call) :
    DraftTransition.ofCalls event (calls ++ [c]) =
      c.configure (DraftTransition.ofCalls event calls) := by
  simp only [DraftTransition.ofCalls, findLast?_concat]
  cases c <;> rfl

theorem DraftState.ofCalls_concat (name : String) (calls : List Call) :
    DraftState.ofCalls name (calls ++ [c]) = (DraftState.ofCalls name calls).extend c := by
  have hnone (h : c.event? = none) :
      (DraftState.ofCalls name (calls ++ [c])).transitions =
        (DraftState.ofCalls name calls).transitions.modifyLast c.configure :=
    map_cut_concat_of_none h DraftTransition.ofCalls_concat
  cases c with
  | when event => exact congrArg (State.mk name) (map_cut_concat_of_some (b := event) rfl)
  | _ => exact congrArg (State.mk name) (hnone rfl)

theorem Script.outline_concat : (script ++ [c]).outline = extendDrafts script.outline c := by
  have hnone (h : c.stateName? = none) :
      (script ++ [c]).outline = script.outline.modifyLast (·.extend c) :=
    map_cut_concat_of_none h DraftState.ofCalls_concat
  cases c with
  | state name => exact map_cut_concat_of_some (b := name) rfl
  | _ => exact hnone rfl

/-- The drafts of a reading are the outline. -/
theorem Script.read_states : script.read.states = script.outline := by
  induction script using List.reverseRecOn with
  | nil => rfl
  | append_singleton script c ih =>
    rw [read_concat, (Script.atEnd_read script).states_extend, ih, outline_concat]

/-! ## The initial state and the variables -/

theorem Script.marked?_concat :
    (script ++ [c]).marked? =
      if c = .initial ∧ script.outline ≠ [] then some (script.outline.length - 1)
      else script.marked? := by
  cases hname : c.stateName? with
  | some name =>
    -- a further state starts without a mark
    have hc : c ≠ .initial := by
      rintro rfl
      cases hname
    rw [if_neg fun h => hc h.1, marked?, parts, cut_concat_of_some hname, List.zipIdx_append]
    simp [findLast?_concat, marked?, parts]
  | none =>
    have hparts : (script ++ [c]).parts = script.parts.modifyLast fun p => (p.1, p.2 ++ [c]) :=
      congrArg Prod.snd (cut_concat_of_none hname)
    rw [marked?, marked?, outline, hparts]
    rcases script.parts.eq_nil_or_concat' with h | ⟨ps, p, h⟩
    · simp [h, findLast?]
    · rw [h, List.modifyLast_concat, List.zipIdx_append, List.zipIdx_append]
      by_cases hc : c = .initial
      · simp [findLast?_concat, hc]
      · simp [findLast?_concat, hc, Ne.symm hc]

/-- The mark of a reading is that of the last part that holds one. -/
theorem Script.read_initial : script.read.initial = script.marked? := by
  induction script using List.reverseRecOn with
  | nil => rfl
  | append_singleton script c ih =>
    rw [read_concat, (Script.atEnd_read script).initial_extend, ih, marked?_concat, read_states]

theorem Script.declared_concat :
    (script ++ [c]).declared = c.declared?.elim script.declared script.declared.declare := by
  rw [declared, List.filterMap_append, List.foldl_append]
  cases c <;> rfl

theorem Script.read_store : script.read.store = script.declared := by
  induction script using List.reverseRecOn with
  | nil => rfl
  | append_singleton script c ih =>
    rw [read_concat, Reading.store_extend, ih, declared_concat]

theorem Script.mem_declared {x : String} : x ∈ script.declared ↔ .integer x ∈ script := by
  induction script using List.reverseRecOn with
  | nil => simp [declared]
  | append_singleton script c ih =>
    rw [declared_concat]
    cases c <;> simp [ih, Call.declared?, Store.mem_declare, or_comm, eq_comm]

theorem Script.read_declared {x : String} : script.declared.read x = 0 := by
  induction script using List.reverseRecOn with
  | nil => simp [declared]
  | append_singleton script c ih =>
    rw [declared_concat]
    cases c <;> simp [ih, Call.declared?, Store.read_declare]

/-! ## Misuses -/

theorem hasState_iff : HasState script ↔ script.outline ≠ [] := by
  rw [Script.outline, Script.parts, Ne, List.map_eq_nil_iff, cut_snd_eq_nil_iff]
  simp [HasState, Option.isSome_iff_ne_none]

theorem hasTransition_iff : HasTransition script ↔ lastTransitions script.outline ≠ [] := by
  rw [HasTransition, Script.outline, Script.parts]
  rcases (cut Call.stateName? script).2.eq_nil_or_concat' with hparts | ⟨ps, p, hparts⟩
  · simp [hparts]
  · rw [hparts, List.map_append, List.map_singleton, lastTransitions_concat, DraftState.ofCalls, Ne,
      List.map_eq_nil_iff, cut_snd_eq_nil_iff]
    simp [Option.isSome_iff_ne_none]

/-- The words for an update that comes too early are those that the changes are called by. -/
theorem Call.misuse?_update (u : Update) :
    misuse? script (.update u) = needsTransition script u.change.keyword := by
  obtain ⟨var, change⟩ := u
  cases change <;> rfl

/-- So it is with guards and comparisons. -/
theorem Call.misuse?_guard (g : Guard) :
    misuse? script (.guard g) = needsTransition script g.comparison.keyword := by
  obtain ⟨var, comparison, value⟩ := g
  cases comparison <;> rfl

theorem needsState_eq (word : String) :
    needsState script word =
      if script.outline = [] then some (.noCurrentState word) else none := by
  simp [needsState, hasState_iff]

theorem needsTransition_eq (word : String) :
    needsTransition script word =
      if lastTransitions script.outline = [] then some (.noCurrentTransition word) else none := by
  simp [needsTransition, hasTransition_iff]

/-- Whether a call is misused can be told from the outline of the calls before it. -/
theorem Call.misuse?_eq_misuseIn? : c.misuse? script = c.misuseIn? script.outline := by
  cases c with
  | state _ | integer _ => rfl
  | initial | when _ => exact needsState_eq _
  | goto _ => exact needsTransition_eq _
  | update u => exact (misuse?_update u).trans (needsTransition_eq _)
  | guard g => exact (misuse?_guard g).trans (needsTransition_eq _)

/-- What comes before an element does not change if more comes behind. -/
theorem take_append_of_mem_zipIdx {α : Type} {as bs : List α} {p : α × Nat}
    (hp : p ∈ as.zipIdx) : (as ++ bs).take p.2 = as.take p.2 := by
  have hlt : p.2 < as.length := by simpa using (List.mem_zipIdx hp).2.1
  rw [List.take_append_of_le_length (Nat.le_of_lt hlt)]

theorem Script.misuses_concat :
    (script ++ [c]).misuses = script.misuses ++ (c.misuse? script).toList := by
  have hbefore : ∀ p ∈ script.zipIdx,
      p.1.misuse? ((script ++ [c]).take p.2) = p.1.misuse? (script.take p.2) :=
    fun p hp => by rw [take_append_of_mem_zipIdx hp]
  rw [misuses, List.zipIdx_append, List.filterMap_append, List.filterMap_congr hbefore, misuses]
  cases h : c.misuse? script <;> simp [h]

theorem Script.misuses_concat_eq_nil_iff :
    misuses (script ++ [c]) = [] ↔ script.misuses = [] ∧ c.misuseIn? script.outline = none := by
  rw [misuses_concat, List.append_eq_nil_iff, Option.toList_eq_nil_iff, Call.misuse?_eq_misuseIn?]

/-- A reading notes the misused calls. -/
theorem Script.read_misuses : script.read.misuses = script.misuses := by
  induction script using List.reverseRecOn with
  | nil => rfl
  | append_singleton script c ih =>
    rw [read_concat, (Script.atEnd_read script).misuses_extend, ih, misuses_concat,
      Call.misuse?_eq_misuseIn?, read_states]

/-- Before the first state only variables can be declared, besides a state. -/
theorem Call.misuse?_eq_none_of_parts_eq_nil (h : script.parts = []) (hc : c.stateName? = none) :
    c.misuse? script = none ↔ c.declared?.isSome := by
  have houtline : script.outline = [] := congrArg (List.map _) h
  rw [misuse?_eq_misuseIn?, houtline]
  cases c with
  | state name => cases hc
  | _ => simp [misuseIn?, declared?]

/-- In a state that has no transition yet there is none to configure. -/
theorem Call.misuse?_eq_none_of_parts_eq_concat {ps : List (String × List Call)}
    {p : String × List Call} (h : script.parts = ps ++ [p]) (hc : c.stateName? = none) :
    c.misuse? script = none ↔
      ((cut event? p.2).2 = [] → c.event? = none → c = .initial ∨ c.declared?.isSome) := by
  have hlast : lastTransitions script.outline = [] ↔ (cut event? p.2).2 = [] := by
    rw [Script.outline, h, List.map_append, List.map_singleton, lastTransitions_concat,
      DraftState.ofCalls, List.map_eq_nil_iff]
  have houtline : script.outline ≠ [] := by simp [Script.outline, h]
  rw [misuse?_eq_misuseIn?]
  cases c with
  | state name => cases hc
  | _ => simp [misuseIn?, event?, declared?, houtline, hlast]

/-- No call of a script is misused if and only if nothing but variables is declared before the first
state, and in each state no transition is configured before the first one. -/
theorem Script.misuses_eq_nil_iff :
    script.misuses = [] ↔
      (∀ c ∈ (cut Call.stateName? script).1, c.declared?.isSome) ∧
        ∀ p ∈ script.parts, ∀ c ∈ (cut Call.event? p.2).1, c = .initial ∨ c.declared?.isSome := by
  induction script using List.reverseRecOn with
  | nil => simp [misuses, parts, cut]
  | append_singleton script c ih =>
    rw [misuses_concat, List.append_eq_nil_iff, Option.toList_eq_nil_iff, ih,
      forall_mem_cut_fst_concat]
    cases hname : c.stateName? with
    | some name =>
      have hparts : parts (script ++ [c]) = parts script ++ [(name, [])] :=
        congrArg Prod.snd (cut_concat_of_some hname)
      have hc : c.misuse? script = none := by cases c <;> first | rfl | cases hname
      rw [hparts, List.forall_mem_append, List.forall_mem_singleton]
      simp [hc, cut]
    | none =>
      have hparts : parts (script ++ [c]) = (parts script).modifyLast fun p => (p.1, p.2 ++ [c]) :=
        congrArg Prod.snd (cut_concat_of_none hname)
      rcases (parts script).eq_nil_or_concat' with h | ⟨ps, p, h⟩
      · rw [Call.misuse?_eq_none_of_parts_eq_nil h hname, hparts, h]
        rw [parts] at h
        simp [h]
      · rw [Call.misuse?_eq_none_of_parts_eq_concat h hname, hparts, h, List.modifyLast_concat,
          List.forall_mem_append, List.forall_mem_append, List.forall_mem_singleton,
          List.forall_mem_singleton, forall_mem_cut_fst_concat]
        rw [parts] at h
        simp only [h, List.append_eq_nil_iff, List.cons_ne_nil, and_false, false_implies, and_true,
          and_assoc]

end

end GuardedMachine
