import GuardedMachine.Proofs.Linking
import GuardedMachine.Proofs.RenamedParts

/-!
# Scripts under new names

A script is read call by call, and `Renaming.Renames` says that what has been understood of one
script is what has been understood of another, renamed.  Every call keeps this, if the one script
goes on with the call and the other with the renamed call (`Renaming.Faithful.renames_extend`).  The
cursor does not hold names, so that a call is misused under new names if it was under the old ones.

Linking looks names up in a table.  If the tables hold the same positions under old and new names,
the transitions are linked to the same positions, or fail with the same faults; and the tables do,
since a name is declared first where it was (`Renaming.Faithful.getElem?_nameTable`).
-/

set_option autoImplicit false

namespace GuardedMachine

/-- A change of one element can be mapped with the list. -/
theorem map_modify {α β : Type} {f : α → α} {f' : β → β} {g : α → β} (h : ∀ a, g (f a) = f' (g a))
    (l : List α) (i : Nat) : (l.modify i f).map g = (l.map g).modify i f' := by
  ext1 j
  simp only [List.getElem?_map, List.getElem?_modify]
  cases l[j]? with
  | none => rfl
  | some a =>
    by_cases hij : i = j
    · simp [hij, h]
    · simp [hij]

namespace Renaming

/-! ## Reading -/

section Reading

variable (f : Renaming)

/-- The same draft under a new name, with its transitions pointed at new names. -/
def draft (s : DraftState) : DraftState := f.node (Option.map f.state) s

/-- The second reading has understood what the first one has, under new names. -/
structure Renames (r r' : Reading) : Prop where
  states : r'.states = r.states.map f.draft
  /-- A new name has been given if the old one has been. -/
  seen : ∀ name, f.state name ∈ r'.seen ↔ name ∈ r.seen
  cursor : r'.cursor = r.cursor
  initial : r'.initial = r.initial
  store : r'.store = f.store r.store
  misuses : r'.misuses = r.misuses.map f.fault
  journal : r'.journal = r.journal.map f.entry

variable {f} {r r' : Reading} {c : Call}

theorem keyword_call : (f.call c).keyword = c.keyword := by cases c <;> rfl

theorem renames_nil : f.Renames {} {} where
  states := rfl
  seen _ := by simp
  cursor := rfl
  initial := rfl
  store := store_empty.symm
  misuses := rfl
  journal := rfl

namespace Renames

theorem misuse (h : f.Renames r r') (e : Fault) :
    f.Renames (r.misuse e) (r'.misuse (f.fault e)) where
  states := h.states
  seen := h.seen
  cursor := h.cursor
  initial := h.initial
  store := h.store
  misuses := by
    rw [Reading.misuse, Reading.misuse, List.map_append, h.misuses, List.map_singleton]
  journal := h.journal

theorem addTransition (h : f.Renames r r') (i : StateId) (e : String) :
    f.Renames (r.addTransition i e) (r'.addTransition i (f.event e)) where
  states := by
    rw [Reading.addTransition, Reading.addTransition, h.states]
    refine (map_modify (fun s => ?_) _ _).symm
    simp only [draft, node, List.map_append, List.map_singleton]
    rfl
  seen := h.seen
  cursor := by
    simp only [Reading.addTransition, h.states, List.getElem?_modify, List.getElem?_map]
    cases r.states[i]? <;> simp [draft, node]
  initial := h.initial
  store := h.store
  misuses := h.misuses
  journal := h.journal

/-- A transition may be changed in both readings, if the changes differ in names only. -/
theorem modifyTransition (h : f.Renames r r') (i : StateId) (j : Nat)
    {g g' : DraftTransition → DraftTransition}
    (hg : ∀ t, f.edge (Option.map f.state) (g t) = g' (f.edge (Option.map f.state) t)) :
    f.Renames (r.modifyTransition i j g) (r'.modifyTransition i j g') where
  states := by
    rw [Reading.modifyTransition, Reading.modifyTransition, h.states]
    refine (map_modify (fun s => ?_) _ _).symm
    simp only [draft, node, map_modify hg]
  seen := h.seen
  cursor := h.cursor
  initial := h.initial
  store := h.store
  misuses := h.misuses
  journal := h.journal

/-- A call finds a state to configure in both readings or in neither of them. -/
theorem atState (h : f.Renames r r') {g g' : StateId → Reading}
    (hg : ∀ i, f.Renames (g i) (g' i)) :
    f.Renames (r.atState c g) (r'.atState (f.call c) g') := by
  rw [Reading.atState, Reading.atState, h.cursor, keyword_call]
  cases r.cursor.state? with
  | none => exact h.misuse (.noCurrentState c.keyword)
  | some i => exact hg i

/-- So it is with transitions. -/
theorem atTransition (h : f.Renames r r') {g g' : DraftTransition → DraftTransition}
    (hg : ∀ t, f.edge (Option.map f.state) (g t) = g' (f.edge (Option.map f.state) t)) :
    f.Renames (r.atTransition c g) (r'.atTransition (f.call c) g') := by
  rw [Reading.atTransition, Reading.atTransition, h.cursor, keyword_call]
  cases r.cursor.transition? with
  | none => exact h.misuse (.noCurrentTransition c.keyword)
  | some p => exact h.modifyTransition p.1 p.2 hg

end Renames

namespace Faithful

variable (hf : f.Faithful)
include hf

/-- A new name is reported as taken if the old one is. -/
theorem renames_addState (h : f.Renames r r') (name : String) :
    f.Renames (r.addState name) (r'.addState (f.state name)) where
  states := by
    rw [Reading.addState, Reading.addState, h.states, List.map_append, List.map_singleton]
    rfl
  seen other := by
    have hname : f.state name = f.state other ↔ name = other :=
      ⟨hf.state_inj _ _, congrArg f.state⟩
    simp only [Reading.addState, Std.ExtTreeSet.mem_insert, Std.compare_eq_iff_eq, hname, h.seen]
  cursor := by rw [Reading.addState, Reading.addState, h.states, List.length_map]
  initial := h.initial
  store := h.store
  misuses := h.misuses
  journal := by
    simp only [Reading.addState, h.seen, h.journal]
    split
    · rw [List.map_append, List.map_singleton]
      rfl
    · rfl

/-- **One call.** -/
theorem renames_extend (h : f.Renames r r') (c : Call) :
    f.Renames (r.extend c) (r'.extend (f.call c)) := by
  cases c with
  | state name => exact hf.renames_addState h name
  | initial =>
    exact h.atState fun i => ⟨h.states, h.seen, h.cursor, rfl, h.store, h.misuses, h.journal⟩
  | integer x =>
    have hstore : r'.store.declare (f.var x) = f.store (r.store.declare x) := by
      rw [h.store, hf.store_declare]
    exact ⟨h.states, h.seen, h.cursor, h.initial, hstore, h.misuses, h.journal⟩
  | when e => exact h.atState fun i => h.addTransition i e
  | goto _ | update _ | guard _ => exact h.atTransition fun _ => rfl

/-- A whole script. -/
theorem renames_read (script : Script) : f.Renames script.read (f.script script).read := by
  induction script using List.reverseRecOn with
  | nil => exact renames_nil
  | append_singleton script c ih =>
    rw [Script.read_concat, Renaming.script, List.map_append, List.map_singleton]
    exact Script.read_concat (script.map f.call) (f.call c) ▸ hf.renames_extend ih c

end Faithful

end Reading

/-! ## Linking -/

section Link

variable {α β : Type}

/-- The same result, with `g` applied to a value and new names in the faults. -/
def result (f : Renaming) (g : α → β) (a : Except (List Fault) α) : Except (List Fault) β :=
  (a.map g).mapError (·.map f.fault)

variable {f : Renaming} {g : α → β} {drafts : List DraftState} {table table' : NameTable}

theorem gather_map_result (as : List (Except (List Fault) α)) :
    gather (as.map (f.result g)) = f.result (List.map g) (gather as) := by
  induction as with
  | nil => rfl
  | cons a as ih =>
    rw [List.map_cons]
    cases a with
    | ok a =>
      have hok : f.result g (.ok a) = .ok (g a) := rfl
      rw [hok, gather, ih, gather]
      cases gather as <;> rfl
    | error es =>
      have herror : f.result g (.error es) = .error (es.map f.fault) := rfl
      rw [herror, gather, ih, gather]
      cases gather as <;> simp [result, faultsOf, Except.map, Except.mapError]

/-- A transition that is linked by a table of new names goes where it went by the old ones. -/
theorem link_edge (htable : ∀ name : String, table'[f.state name]? = table[name]?) (source : String)
    (t : DraftTransition) :
    DraftTransition.link table' (f.state source) (f.edge (Option.map f.state) t) =
      f.result (f.edge id) (t.link table source) := by
  obtain ⟨event, target, update, guard⟩ := t
  cases target with
  | none => rfl
  | some name =>
    simp only [DraftTransition.link, edge, Option.map_some, htable]
    cases table[name]? <;> rfl

theorem link_draft (htable : ∀ name : String, table'[f.state name]? = table[name]?)
    (s : DraftState) :
    (f.draft s).link .inOrder table' = f.result (f.node id) (s.link .inOrder table) := by
  have hlinks : (f.draft s).transitions.map (DraftTransition.link table' (f.draft s).name) =
      (s.transitions.map (DraftTransition.link table s.name)).map (f.result (f.edge id)) := by
    rw [draft, node, List.map_map, List.map_map]
    exact List.map_congr_left fun t _ => link_edge htable s.name t
  rw [DraftState.link, DraftState.link, Collector.collect_inOrder, Collector.collect_inOrder,
    hlinks, gather_map_result]
  cases gather (s.transitions.map (DraftTransition.link table s.name)) <;> rfl

namespace Faithful

variable (hf : f.Faithful)
include hf

/-- The table of new names holds the positions of the old ones. -/
theorem getElem?_nameTable (name : String) :
    (nameTable (drafts.map f.draft))[f.state name]? = (nameTable drafts)[name]? := by
  rw [GuardedMachine.getElem?_nameTable, GuardedMachine.getElem?_nameTable]
  exact hf.firstNamed?_map_node drafts name

theorem linkStates_map_draft :
    linkStates .inOrder (drafts.map f.draft) =
      f.result (List.map (f.node id)) (linkStates .inOrder drafts) := by
  have hlinks : (drafts.map f.draft).map
        (DraftState.link .inOrder (nameTable (drafts.map f.draft))) =
      (drafts.map (DraftState.link .inOrder (nameTable drafts))).map (f.result (f.node id)) := by
    rw [List.map_map, List.map_map]
    exact List.map_congr_left fun s _ => link_draft hf.getElem?_nameTable s
  rw [linkStates, linkStates, Collector.collect_inOrder, Collector.collect_inOrder, hlinks,
    gather_map_result]

/-- What is built under new names is what was built under the old ones. -/
theorem build_reading {r r' : Reading} (h : f.Renames r r') :
    r'.build = f.result f.machine r.build := by
  have hlink : linkStates .inOrder r'.states =
      f.result (List.map (f.node id)) (linkStates .inOrder r.states) := by
    rw [h.states, hf.linkStates_map_draft]
  rw [Reading.build, Reading.build, Reading.buildWith, Reading.buildWith, Reading.complete,
    Reading.complete, hlink]
  cases linkStates .inOrder r.states with
  | error es => simp [result, Except.map, Except.mapError, h.misuses]
  | ok states =>
    by_cases hnone : r.misuses = []
    · simp [result, Except.map, Except.mapError, h.misuses, hnone, h.initial, h.store, machine,
        graph, node, edge, transition]
    · simp [result, Except.map, Except.mapError, h.misuses, hnone]

theorem build_script (script : Script) :
    (f.script script).build = f.result f.machine script.build :=
  hf.build_reading (hf.renames_read script)

/-- What is reported while the renamed script is built are the same entries under new names. -/
theorem journal_script (script : Script) :
    (f.script script).journal = script.journal.map f.entry := by
  have h := hf.renames_read script
  have hbuild := hf.build_reading h
  rw [Script.journal, Script.journal, Script.journalWith, Script.journalWith]
  cases hm : script.read.build with
  | error es =>
    rw [hm] at hbuild
    rw [Reading.journalWith_of_buildWith_eq_error hm,
      Reading.journalWith_of_buildWith_eq_error hbuild, h.journal]
  | ok m =>
    rw [hm] at hbuild
    rw [Reading.journalWith_of_buildWith hm, Reading.journalWith_of_buildWith hbuild, h.journal]
    show _ ++ [Entry.built (m.states.map (f.node id)).length (f.store m.store).size _] = _
    rw [List.length_map, hf.size_store, List.map_append]
    rfl

end Faithful

end Link

end Renaming

end GuardedMachine
