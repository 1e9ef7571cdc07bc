import GuardedMachine.Proofs.Cursor
import Mathlib.Data.List.Count
import Mathlib.Data.List.Dedup

/-!
# What is reported of a script

While a script is read, a state is reported if its name has been given to a state before, and
nothing else is.  Which states these are can be seen from the names alone: they are the ones that
repeat an earlier name (`Script.journal_read`).

A list consists of its different elements, each once, and of its repetitions (`perm_repeats`).  So
there are as many warnings as states beyond the first one of each name, and a name that `k` states
bear is reported one time less.  `Script.warnings_are_exact` says this together with what a build
adds: a single entry with the right numbers if there is a machine, and nothing otherwise.
-/

set_option autoImplicit false

namespace GuardedMachine

/-! ## Repetitions in a list -/

section Repeats

open scoped List

variable {α : Type} [DecidableEq α] {l : List α} {a : α}

/-- The elements of a list that stand behind an equal one, in order. -/
def repeats (l : List α) : List α := (l.zipIdx.filter fun p => p.1 ∈ l.take p.2).map (·.1)

theorem repeats_concat : repeats (l ++ [a]) = repeats l ++ if a ∈ l then [a] else [] := by
  have hbefore : ∀ p ∈ l.zipIdx,
      decide (p.1 ∈ (l ++ [a]).take p.2) = decide (p.1 ∈ l.take p.2) :=
    fun p hp => by rw [take_append_of_mem_zipIdx hp]
  rw [repeats, List.zipIdx_append, List.filter_append, List.filter_congr hbefore, List.map_append,
    ← repeats]
  split <;> simp [*]

/-- A list consists of its repetitions and of its different elements. -/
theorem perm_repeats (l : List α) : l.Perm (repeats l ++ l.dedup) := by
  induction l using List.reverseRecOn with
  | nil => exact .refl _
  | append_singleton l a ih =>
    have hdedup : (l ++ [a]).dedup ~ (a :: l).dedup := (List.perm_append_singleton a l).dedup
    have hsplit : l ++ [a] ~ repeats l ++ a :: l.dedup := calc
      l ++ [a] ~ a :: l := List.perm_append_singleton a l
      _ ~ a :: (repeats l ++ l.dedup) := ih.cons a
      _ ~ repeats l ++ a :: l.dedup := List.perm_middle.symm
    rw [repeats_concat]
    by_cases ha : a ∈ l
    · -- one repetition more
      rw [List.dedup_cons_of_mem ha] at hdedup
      rw [if_pos ha, List.append_assoc]
      exact hsplit.trans ((hdedup.symm.cons a).append_left _)
    · -- one different element more
      rw [List.dedup_cons_of_notMem ha] at hdedup
      rw [if_neg ha, List.append_nil]
      exact hsplit.trans (hdedup.symm.append_left _)

theorem length_repeats (l : List α) : (repeats l).length + l.dedup.length = l.length := by
  rw [← List.length_append, (perm_repeats l).length_eq.symm]

/-- Of the occurrences of an element all but the first are repetitions. -/
theorem count_repeats (h : a ∈ l) : (repeats l).count a + 1 = l.count a := by
  have hcount : l.count a = (repeats l).count a + l.dedup.count a := by
    rw [← List.count_append]
    exact (perm_repeats l).count_eq a
  rw [hcount, List.count_dedup, if_pos h]

end Repeats

/-! ## What single calls report -/

/-- What is reported of a call that comes after the calls `before`. -/
def Call.warning? (before : List Call) (c : Call) : Option Entry :=
  match c with
  | state name => if state name ∈ before then some (.duplicateState name) else none
  | initial | integer _ | when _ | goto _ | update _ | guard _ => none

namespace Script

variable {script : Script} {m : Machine}

/-- Whether a name is taken can be told from the calls before. -/
theorem journal_read_concat (script : Script) (c : Call) :
    (Script.read (script ++ [c])).journal = script.read.journal ++ (c.warning? script).toList := by
  rw [read_concat]
  cases c with
  | state name =>
    rw [Reading.extend, Reading.addState, Call.warning?]
    simp only [mem_seen_read]
    split
    · rfl
    · exact (List.append_nil _).symm
  | _ => exact (Reading.seen_and_journal_extend rfl).2.trans (List.append_nil _).symm

/-- The warnings are about the names that repeat an earlier one. -/
theorem journal_read :
    script.read.journal = (repeats (script.filterMap Call.stateName?)).map .duplicateState := by
  induction script using List.reverseRecOn with
  | nil => rfl
  | append_singleton script c ih =>
    rw [journal_read_concat, ih, List.filterMap_append]
    cases c with
    | state name =>
      show _ = (repeats (script.filterMap Call.stateName? ++ [name])).map _
      rw [repeats_concat, List.map_append, Call.warning?]
      simp only [mem_filterMap_stateName?]
      split <;> rfl
    | _ => exact (List.append_nil _).trans (congrArg _ (congrArg _ (List.append_nil _))).symm

theorem count_journal_read {name : String} :
    script.read.journal.count (.duplicateState name) =
      (repeats (script.filterMap Call.stateName?)).count name := by
  rw [journal_read]
  exact List.count_map_of_injective _ _ (fun _ _ => Entry.duplicateState.inj) _

/-! ## What a build reports -/

/-- The variables of a machine are the different names that were declared. -/
theorem size_store_of_build (hm : script.build = .ok m) :
    m.store.size = (script.filterMap Call.declared?).dedup.length := by
  have hmem (x : String) : x ∈ (script.filterMap Call.declared?).dedup ↔ x ∈ m.store := by
    rw [(build_eq_ok_iff.1 hm).2.2.2, mem_declared, List.mem_dedup, mem_filterMap_declared?]
  rw [← Store.length_names, (Store.names_perm (List.nodup_dedup _) hmem).length_eq]

/-- The states of one name are one more than the warnings about it. -/
theorem countP_states_of_build (hm : script.build = .ok m) {s : State StateId} (hs : s ∈ m.states) :
    m.states.countP (·.name = s.name) =
      script.read.journal.count (.duplicateState s.name) + 1 := by
  have hname : s.name ∈ script.filterMap Call.stateName? := by
    rw [← names_of_build hm]
    exact List.mem_map_of_mem hs
  rw [count_journal_read, count_repeats hname, ← names_of_build hm, List.count, List.countP_map]
  rfl

/-- **Warnings are exact.**  While a script is read, a call is reported if it declares a state under
a name that has been declared before, and then under this name; nothing else is reported.  So the
warnings are about the names that repeat an earlier one, in order, and there are as many of them as
there are declarations of states beyond the first of each name.

A build that succeeds, whichever way results are collected, reports one thing more: how many states
the machine has, how many variables, which are the different names that were declared, and whether
there is a state to start in.  A name that some state of the machine bears is borne by `k + 1`
states if and only if there are `k` warnings about it.  A build that fails reports nothing more. -/
theorem warnings_are_exact (c : Collector Fault) (script : Script) :
    (∀ (before : Script) (call : Call), (Script.read (before ++ [call])).journal =
        before.read.journal ++ (call.warning? before).toList) ∧
      script.read.journal = (repeats (script.filterMap Call.stateName?)).map .duplicateState ∧
      script.read.journal.length + (script.filterMap Call.stateName?).dedup.length =
        (script.filterMap Call.stateName?).length ∧
      (∀ m, script.buildWith c = .ok m →
        script.journalWith c = script.read.journal ++
            [.built m.states.length m.store.size m.initial.isSome] ∧
          m.store.size = (script.filterMap Call.declared?).dedup.length ∧
          ∀ s ∈ m.states, ∀ k, m.states.countP (·.name = s.name) = k + 1 ↔
            script.read.journal.count (.duplicateState s.name) = k) ∧
      ∀ es, script.buildWith c = .error es → script.journalWith c = script.read.journal := by
  have hbuild : script.buildWith c = script.build := Reading.buildWith_eq_build c
  refine ⟨journal_read_concat, journal_read, ?_, fun m hm => ?_, fun es hes => ?_⟩
  · rw [journal_read, List.length_map, length_repeats]
  · have hjournal := Reading.journalWith_of_buildWith hm
    rw [hbuild] at hm
    refine ⟨hjournal, size_store_of_build hm, fun s hs k => ?_⟩
    rw [countP_states_of_build hm hs, Nat.add_right_cancel_iff]
  · exact Reading.journalWith_of_buildWith_eq_error hes

end Script

/-- The third state of the turnstile repeats the name of the first one, which is reported, and then
the machine is. -/
theorem turnstile_warnings_are_exact :
    turnstile.build = .ok turnstileMachine ∧
      turnstile.read.journal = [.duplicateState "locked"] ∧
      turnstile.journalWith .inOrder = [.duplicateState "locked", .built 3 1 true] ∧
      (turnstileMachine.states.countP (·.name = "locked") = 1 + 1 ↔
        turnstile.read.journal.count (.duplicateState "locked") = 1) := by
  obtain ⟨-, hread, -, hbuild, -⟩ := Script.warnings_are_exact .inOrder turnstile
  have hread' : turnstile.read.journal = [.duplicateState "locked"] := hread.trans (by decide)
  obtain ⟨hjournal, hsize, hcount⟩ := hbuild turnstileMachine build_turnstile
  have hsize' : turnstileMachine.store.size = 1 := hsize.trans (by decide)
  refine ⟨build_turnstile, hread', ?_, hcount ⟨"locked", _⟩ (List.mem_cons_self ..) 1⟩
  rw [hjournal, hread', hsize']
  rfl

end GuardedMachine
