import GuardedMachine.Proofs.Safety

/-!
# One script after another

A script that has no misuse when it is read on its own says the same after any other script: it
never configures what the other one has left open, since it starts with a state of its own.  So the
outline of the two together is the one outline followed by the other (`Script.outline_append`), and
the later mark, if there is one, is moved by as many places as there are states before it
(`Script.marked?_append`).

Names are looked for among the states of the first script first, and a machine that was built from
it has found them all there.  Its states are therefore linked as they were, whatever is declared
after them (`Linked.append`).
-/

set_option autoImplicit false

namespace GuardedMachine

/-! ## The outline of two scripts -/

section

variable {as bs : List DraftState} {c : Call}

theorem lastTransitions_append (h : bs ≠ []) : lastTransitions (as ++ bs) = lastTransitions bs := by
  obtain ⟨bs, s, rfl⟩ := bs.eq_nil_or_concat'.resolve_left h
  rw [← List.append_assoc, lastTransitions_concat, lastTransitions_concat]

theorem ne_nil_of_lastTransitions_ne_nil (h : lastTransitions bs ≠ []) : bs ≠ [] := by
  rintro rfl
  exact h rfl

/-- A call that has something to configure is not misused after more states. -/
theorem Call.misuseIn?_append (h : c.misuseIn? bs = none) : c.misuseIn? (as ++ bs) = none := by
  cases c with
  | state _ | integer _ => rfl
  | initial | when _ =>
    have hbs : bs ≠ [] := by simpa [misuseIn?] using h
    simp [misuseIn?, hbs]
  | goto _ | update _ | guard _ =>
    have htransitions : lastTransitions bs ≠ [] := by simpa [misuseIn?] using h
    rw [misuseIn?, lastTransitions_append (ne_nil_of_lastTransitions_ne_nil htransitions),
      if_neg htransitions]

/-- A call that has something to configure among the later states leaves the earlier ones alone. -/
theorem extendDrafts_append (h : c.misuseIn? bs = none) :
    extendDrafts (as ++ bs) c = as ++ extendDrafts bs c := by
  have hlast (hbs : bs ≠ []) :
      (as ++ bs).modifyLast (·.extend c) = as ++ bs.modifyLast (·.extend c) :=
    List.modifyLast_append_of_right_ne_nil _ as bs hbs
  cases c with
  | state name => exact List.append_assoc as bs [{ name }]
  | initial => rw [extendDrafts_initial, extendDrafts_initial]
  | integer x => rw [extendDrafts_integer, extendDrafts_integer]
  | when event => exact hlast (by simpa [Call.misuseIn?] using h)
  | goto _ | update _ | guard _ =>
    exact hlast (ne_nil_of_lastTransitions_ne_nil (by simpa [Call.misuseIn?] using h))

end

namespace Script

variable {A B : Script}

/-- The states of the second script come after those of the first. -/
theorem outline_append (hB : B.misuses = []) : (A ++ B).outline = A.outline ++ B.outline := by
  induction B using List.reverseRecOn with
  | nil => rw [List.append_nil, show outline [] = [] from rfl, List.append_nil]
  | append_singleton B c ih =>
    obtain ⟨hmisuses, hc⟩ := misuses_concat_eq_nil_iff.1 hB
    rw [← List.append_assoc, outline_concat, outline_concat, ih hmisuses, extendDrafts_append hc]

/-- No call of the second script is misused after the first. -/
theorem misuses_append (hB : B.misuses = []) : (A ++ B).misuses = A.misuses := by
  induction B using List.reverseRecOn with
  | nil => rw [List.append_nil]
  | append_singleton B c ih =>
    obtain ⟨hmisuses, hc⟩ := misuses_concat_eq_nil_iff.1 hB
    rw [← List.append_assoc, misuses_concat, ih hmisuses, Call.misuse?_eq_misuseIn?,
      outline_append hmisuses, Call.misuseIn?_append hc, Option.toList_none, List.append_nil]

/-- The mark is that of the second script, moved behind the states of the first, if it has one. -/
theorem marked?_append (hB : B.misuses = []) :
    (A ++ B).marked? = (B.marked?.map (· + A.outline.length)).or A.marked? := by
  induction B using List.reverseRecOn with
  | nil => rw [List.append_nil]; rfl
  | append_singleton B c ih =>
    obtain ⟨hmisuses, hc⟩ := misuses_concat_eq_nil_iff.1 hB
    rw [← List.append_assoc, marked?_concat, marked?_concat, ih hmisuses, outline_append hmisuses]
    by_cases hinitial : c = .initial
    · subst hinitial
      have hstates : outline B ≠ [] := by simpa [Call.misuseIn?] using hc
      have hlength : 0 < (outline B).length := List.length_pos_iff.2 hstates
      have hlast : (outline A).length + (outline B).length - 1 =
          (outline B).length - 1 + (outline A).length := by
        omega
      simp [hstates, hlast]
    · simp [hinitial]

end Script

/-! ## Linking more states -/

section

variable {as bs : List DraftState} {states all : List (State StateId)}

/-- What has been found is found in the same place if there are more states to look through. -/
theorem bind_firstNamed?_append {i : StateId} {name? : Option String}
    (h : name?.bind (firstNamed? as) = some i) : name?.bind (firstNamed? (as ++ bs)) = some i := by
  obtain ⟨name, rfl, hname⟩ := Option.bind_eq_some_iff.1 h
  rw [Option.bind_some, firstNamed?_append, hname, Option.some_or]

/-- Names that have been found mean the same if there are more states to look through. -/
theorem Linked.map_mapTargets_append (h : Linked as states) :
    as.map (·.mapTargets (·.bind (firstNamed? (as ++ bs)))) = states.map (·.mapTargets some) := by
  rw [h]
  refine List.map_congr_left fun d hd => State.mapTargets_congr fun t ht => ?_
  obtain ⟨i, hi⟩ := h.exists_target hd ht
  rw [hi, bind_firstNamed?_append hi]

/-- **States that were linked stay as they are** if they are linked together with later ones. -/
theorem Linked.append (h : Linked as states) (hall : Linked (as ++ bs) all) :
    ∃ later, all = states ++ later ∧
      later.map (·.mapTargets some) = bs.map (·.mapTargets (·.bind (firstNamed? (as ++ bs)))) := by
  rw [Linked, List.map_append, h.map_mapTargets_append] at hall
  obtain ⟨earlier, later, rfl, hearlier, hlater⟩ := List.map_eq_append_iff.1 hall
  have hinjective : Function.Injective (State.mapTargets (some : StateId → Option StateId)) :=
    State.mapTargets_injective fun _ _ => Option.some.inj
  rw [List.map_injective_iff.2 hinjective hearlier]
  exact ⟨later, rfl, hlater⟩

end

/-! ## The machine of two scripts -/

namespace Script

variable {A B : Script} {a : Machine}

/-- A script that points only at states of its own and of one that was built can follow it. -/
theorem exists_build_append (ha : A.build = .ok a) (hmisuses : B.misuses = [])
    (htargets : ∀ s ∈ B.outline, ∀ t ∈ s.transitions,
      ∃ name, t.target = some name ∧ (.state name ∈ A ∨ .state name ∈ B)) :
    ∃ m, (A ++ B).build = .ok m := by
  obtain ⟨hA, hfaults⟩ := exists_build_iff.1 ⟨a, ha⟩
  refine exists_build_iff.2 ⟨(misuses_append hmisuses).trans hA, faults_eq_nil_iff.2 ?_⟩
  rw [outline_append hmisuses]
  intro s hs t ht
  rcases List.mem_append.1 hs with hs | hs
  · obtain ⟨name, hname, hmem⟩ := faults_eq_nil_iff.1 hfaults s hs t ht
    exact ⟨name, hname, List.mem_append_left _ hmem⟩
  · obtain ⟨name, hname, hmem⟩ := htargets s hs t ht
    exact ⟨name, hname, List.mem_append.2 hmem⟩

/-- **A machine can be extended by a further script.**  Let a script be built on its own, and let
another have no misuse on its own and point only at states that one of the two declares.  Then the
one followed by the other is built.

The machine has the states of the first script as they were built, and behind them those that the
second declares, with each target that the first script declares at its position there and each
other one at its first position among the new states.  It starts where the second script marks a
state last, if it marks any, and else where it would have started.  Its variables are those of both
scripts, all at `0`.  Whatever a name or a position has led to in the first machine, it leads to in
the whole. -/
theorem build_append (ha : A.build = .ok a) (hmisuses : B.read.misuses = [])
    (htargets : ∀ s ∈ B.outline, ∀ t ∈ s.transitions,
      ∃ name, t.target = some name ∧ (.state name ∈ A ∨ .state name ∈ B)) :
    ∃ m, (A ++ B).build = .ok m ∧
      (∃ later, m.states = a.states ++ later ∧
        later.map (·.mapTargets some) = B.outline.map (·.mapTargets (·.bind fun name =>
          (a.stateId? name).or ((firstNamed? B.outline name).map (· + a.states.length))))) ∧
      (.initial ∈ B → ∃ i, B.marked? = some i ∧ m.initial = some (i + a.states.length)) ∧
      (.initial ∉ B → m.initial = a.initial) ∧
      (∀ x, x ∈ m.store ↔ x ∈ a.store ∨ .integer x ∈ B) ∧
      (∀ x, m.store.read x = 0) ∧
      (∀ name i, a.stateId? name = some i → m.stateId? name = some i) ∧
      ∀ (i : StateId) s, a.states[i]? = some s → m.states[i]? = some s := by
  rw [read_misuses] at hmisuses
  obtain ⟨m, hm⟩ := exists_build_append ha hmisuses htargets
  obtain ⟨-, hlinkedA, hinitialA, hstoreA⟩ := build_eq_ok_iff.1 ha
  obtain ⟨-, hlinked, hinitial, hstore⟩ := build_eq_ok_iff.1 hm
  rw [outline_append hmisuses] at hlinked
  rw [marked?_append hmisuses, ← hlinkedA.length_eq, ← hinitialA] at hinitial
  obtain ⟨later, hstates, hlater⟩ := hlinkedA.append hlinked
  have hlookup : firstNamed? (A.outline ++ B.outline) = fun name =>
      (a.stateId? name).or ((firstNamed? B.outline name).map (· + a.states.length)) := by
    funext name
    rw [firstNamed?_append, stateId?_of_build ha, hlinkedA.length_eq]
  have hmarked : B.marked? = none ↔ .initial ∉ B := marked?_eq_none_iff hmisuses
  refine ⟨m, hm, ⟨later, hstates, hlookup ▸ hlater⟩, ?_, ?_, ?_, ?_, ?_, ?_⟩
  · intro hmem
    obtain ⟨i, hi⟩ := Option.ne_none_iff_exists'.1 fun hnone => hmarked.1 hnone hmem
    rw [hi] at hinitial
    exact ⟨i, hi, hinitial⟩
  · intro hmem
    rw [hmarked.2 hmem] at hinitial
    exact hinitial
  · intro x
    rw [hstore, hstoreA, mem_declared, mem_declared, List.mem_append]
  · intro x
    rw [hstore, read_declared]
  · intro name i hi
    rw [Graph.stateId?, hstates, firstNamed?_append, show firstNamed? a.states name = _ from hi,
      Option.some_or]
  · intro i s hs
    rw [hstates]
    exact List.getElem?_append_left (List.getElem?_eq_some_iff.1 hs).1 ▸ hs

end Script

/-- A state "broken" for the turnstile, and one more state that is called "locked".  Both scripts
have a state of that name, and the turnstile ends with a transition that could still be changed. -/
def breakdown : Script :=
  [.integer "alarms", .integer "coins", .state "locked", .when "kick", .goto "broken",
    .update ⟨"alarms", .increment⟩, .state "broken", .initial, .when "repair", .goto "locked"]

/-- The turnstile with a breakdown still has its three states.  The new transition to "locked" leads
to the first of them and the one to "broken" behind all of them, which is where it starts. -/
theorem turnstile_append_breakdown :
    turnstile.build = .ok turnstileMachine ∧ breakdown.read.misuses = [] ∧
      ∃ m, (turnstile ++ breakdown).build = .ok m ∧
        (∃ later, m.states = turnstileMachine.states ++ later ∧
          later.map (·.mapTargets some) =
            [⟨"locked", [⟨"kick", some 4, some ⟨"alarms", .increment⟩, none⟩]⟩,
              ⟨"broken", [⟨"repair", some 0, none, none⟩]⟩]) ∧
        m.initial = some 4 ∧ "coins" ∈ m.store ∧ "alarms" ∈ m.store ∧
        m.stateId? "locked" = some 0 := by
  have hmisuses : breakdown.read.misuses = [] := by decide
  obtain ⟨m, hm, ⟨later, hstates, hlater⟩, hinitial, -, hstore, -, hstateId, -⟩ :=
    Script.build_append (B := breakdown) build_turnstile hmisuses (by decide)
  obtain ⟨i, hi, hmi⟩ := hinitial (by decide)
  cases hi
  refine ⟨build_turnstile, hmisuses, m, hm, ⟨later, hstates, hlater⟩, hmi, ?_, ?_, ?_⟩
  · exact (hstore "coins").2 (.inr (by decide))
  · exact (hstore "alarms").2 (.inr (by decide))
  · exact hstateId "locked" 0 rfl

end GuardedMachine
