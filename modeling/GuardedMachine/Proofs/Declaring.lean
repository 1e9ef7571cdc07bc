import GuardedMachine.Proofs.Composition

/-!
# Declaring a state that is missing

A state that is declared behind all others, without transitions, adds no fault of its own.  It
takes away the faults that report its name as undeclared and no others
(`Script.faultsOf_build_declaring`).  If there are no faults left, a machine is built
(`Script.exists_build_declaring_iff`); and if there were none before, it is the same machine with
one state more (`Script.build_declaring`).
-/

set_option autoImplicit false

namespace GuardedMachine

/-- The name that is reported as undeclared. -/
def Fault.undeclared? : Fault → Option String
  | undeclaredTarget _ _ target => some target
  | missingTarget .. | noCurrentState _ | noCurrentTransition _ => none

/-! ## Faults after one more declaration -/

section

variable {names : List String} {n source : String} {before : List Call} {c : Call} {e : Fault}

/-- If one more name is declared, a transition is still at fault unless it points at that name. -/
theorem DraftTransition.fault?_concat (t : DraftTransition) :
    t.fault? (names ++ [n]) source = (t.fault? names source).filter (·.undeclared? ≠ some n) := by
  rw [fault?, fault?]
  cases t.target with
  | none => rfl
  | some name =>
    by_cases hmem : name ∈ names
    · simp [hmem]
    · by_cases hn : name = n
      · subst hn
        simp [hmem, Option.filter, Fault.undeclared?]
      · simp [hmem, hn, Option.filter, Fault.undeclared?]

/-- A misuse is no matter of names. -/
theorem Call.undeclared?_of_misuse? (h : c.misuse? before = some e) : e.undeclared? = none := by
  rw [misuse?_eq_misuseIn?] at h
  cases c with
  | state _ | integer _ => cases h
  | initial | when _ =>
    obtain ⟨-, ⟨⟩⟩ := Option.ite_none_right_eq_some.1 h
    rfl
  | goto _ | update _ | guard _ =>
    obtain ⟨-, ⟨⟩⟩ := Option.ite_none_right_eq_some.1 h
    rfl

end

namespace Script

variable {script : Script} {n : String} {names : List String} {m : Machine}

theorem undeclared?_of_mem_misuses {e : Fault} (h : e ∈ script.misuses) :
    e.undeclared? = none := by
  obtain ⟨p, -, hp⟩ := List.mem_filterMap.1 h
  exact Call.undeclared?_of_misuse? hp

theorem misuses_declaring : misuses (script ++ [.state n]) = script.misuses := by
  rw [misuses_concat]
  exact List.append_nil _

theorem outline_declaring : outline (script ++ [.state n]) = script.outline ++ [⟨n, []⟩] :=
  outline_concat

theorem faults_declaring :
    faults (script ++ [.state n]) = script.faults.filter (·.undeclared? ≠ some n) := by
  have hnames : (script ++ [Call.state n]).filterMap Call.stateName? =
      script.filterMap Call.stateName? ++ [n] := by
    rw [List.filterMap_append]
    rfl
  rw [faults, faults, outline_declaring, hnames, List.flatMap_append, List.filter_flatMap]
  simp [DraftTransition.fault?_concat, List.filter_filterMap]

/-- **One more state** takes away the faults that report its name as undeclared. -/
theorem faultsOf_build_declaring :
    faultsOf (build (script ++ [.state n])) =
      (faultsOf script.build).filter (·.undeclared? ≠ some n) := by
  have hmisuses : script.misuses.filter (·.undeclared? ≠ some n) = script.misuses :=
    List.filter_eq_self.2 fun e he => by simp [undeclared?_of_mem_misuses he]
  rw [faultsOf_build, faultsOf_build, misuses_declaring, faults_declaring, List.filter_append,
    hmisuses]

/-- Several more states take away the faults that report one of their names. -/
theorem faultsOf_build_declaring_all :
    faultsOf (build (script ++ names.map .state)) =
      (faultsOf script.build).filter fun e => ∀ n ∈ names, e.undeclared? ≠ some n := by
  induction names generalizing script with
  | nil => simp
  | cons n names ih =>
    rw [List.map_cons, ← List.singleton_append, ← List.append_assoc, ih, faultsOf_build_declaring,
      List.filter_filter]
    congr 1
    funext e
    simp [Bool.and_comm]

/-- A script is built if it has no faults to report. -/
theorem exists_build_iff_faultsOf : (∃ m, script.build = .ok m) ↔ faultsOf script.build = [] := by
  rw [exists_build_iff, faultsOf_build, List.append_eq_nil_iff]

/-- It is built with several more states if one of them is named by each of its faults. -/
theorem exists_build_declaring_iff (names : List String) :
    (∃ m, build (script ++ names.map .state) = .ok m) ↔
      ∀ e ∈ faultsOf script.build, ∃ n ∈ names, e.undeclared? = some n := by
  rw [exists_build_iff_faultsOf, faultsOf_build_declaring_all, List.filter_eq_nil_iff]
  simp

/-- **A machine that is built gets one state more** and stays as it is apart from that. -/
theorem build_declaring (hm : script.build = .ok m) :
    build (script ++ [.state n]) = .ok { m with states := m.states ++ [⟨n, []⟩] } := by
  obtain ⟨hmisuses, hlinked, hinitial, hstore⟩ := build_eq_ok_iff.1 hm
  refine build_eq_ok_iff.2 ⟨misuses_declaring.trans hmisuses, ?_, ?_, ?_⟩
  · rw [outline_declaring, Linked, List.map_append, List.map_append, hlinked.map_mapTargets_append]
    rfl
  · rw [marked?_concat, if_neg (by simp)]
    exact hinitial
  · rw [declared_concat]
    exact hstore

/-- **Declaring a missing state repairs what named it and nothing else.**  If a state is declared
behind everything else in a script, the faults that report its name as undeclared are gone, and all
other faults are left in the same order.  If no others are left a machine is built.  If there were
none before it is the machine that was built before with that state as its last: all other states,
their transitions and targets, the initial position and the variables are the same.

So if nothing but undeclared names is reported, it is enough to declare all of them, in any order;
once each will do. -/
theorem declaring_repairs (c : Collector Fault) (script : Script) :
    (∀ n, faultsOf (buildWith c (script ++ [.state n])) =
        (faultsOf (script.buildWith c)).filter (·.undeclared? ≠ some n)) ∧
      (∀ n, (∃ m, buildWith c (script ++ [.state n]) = .ok m) ↔
        ∀ e ∈ faultsOf (script.buildWith c), e.undeclared? = some n) ∧
      (∀ n m, script.buildWith c = .ok m →
        buildWith c (script ++ [.state n]) = .ok { m with states := m.states ++ [⟨n, []⟩] }) ∧
      ((∀ e ∈ faultsOf (script.buildWith c), e.undeclared?.isSome) → ∀ names : List String,
        (∃ m, buildWith c (script ++ names.map .state) = .ok m) ↔
          (faultsOf (script.buildWith c)).filterMap Fault.undeclared? ⊆ names) := by
  have hbuild : buildWith c = build := funext fun _ => Reading.buildWith_eq_build c
  rw [hbuild]
  refine ⟨fun n => faultsOf_build_declaring, fun n => ?_, fun n m => build_declaring,
    fun h names => ?_⟩
  · exact (exists_build_declaring_iff [n]).trans (by simp)
  · refine (exists_build_declaring_iff names).trans ⟨fun hnamed n hn => ?_, fun hsub e he => ?_⟩
    · obtain ⟨e, he, hen⟩ := List.mem_filterMap.1 hn
      obtain ⟨k, hk, hek⟩ := hnamed e he
      obtain rfl : n = k := Option.some.inj (hen.symm.trans hek)
      exact hk
    · obtain ⟨n, hn⟩ := Option.isSome_iff_exists.1 (h e he)
      exact ⟨n, hsub (List.mem_filterMap.2 ⟨e, he, hn⟩), hn⟩

end Script

/-- A turnstile without its states: only the first of them is there. -/
def halfTurnstile : Script :=
  [.state "locked", .initial, .when "coin", .goto "open", .when "kick", .goto "broken",
    .when "push", .goto "open"]

/-- Three transitions of the half turnstile point at two states that are missing. -/
theorem halfTurnstile_declaring_repairs :
    faultsOf (halfTurnstile.buildWith .inOrder) =
        [.undeclaredTarget "locked" "coin" "open", .undeclaredTarget "locked" "kick" "broken",
          .undeclaredTarget "locked" "push" "open"] ∧
      faultsOf (Script.buildWith .inOrder (halfTurnstile ++ [.state "open"])) =
        [.undeclaredTarget "locked" "kick" "broken"] ∧
      (∃ m, Script.buildWith .inOrder (halfTurnstile ++ [.state "open", .state "broken"]) =
        .ok m) ∧
      turnstile.buildWith .inOrder = .ok turnstileMachine ∧
      Script.buildWith .inOrder (turnstile ++ [.state "open"]) =
        .ok { turnstileMachine with states := turnstileMachine.states ++ [⟨"open", []⟩] } := by
  have hfaults : faultsOf (halfTurnstile.buildWith .inOrder) =
      [.undeclaredTarget "locked" "coin" "open", .undeclaredTarget "locked" "kick" "broken",
        .undeclaredTarget "locked" "push" "open"] := rfl
  obtain ⟨hone, -, -, hall⟩ := Script.declaring_repairs .inOrder halfTurnstile
  obtain ⟨-, -, hbuilt, -⟩ := Script.declaring_repairs .inOrder turnstile
  refine ⟨hfaults, ?_, ?_, build_turnstile, hbuilt "open" _ build_turnstile⟩
  · rw [hone, hfaults]
    decide
  · rw [hfaults] at hall
    exact (hall (by decide) ["open", "broken"]).2 (by decide)

end GuardedMachine
