import GuardedMachine.Proofs.Building

/-!
# Misused calls do nothing

A call that has nothing to configure is noted as a misuse, and that is all that comes of it
(`Reading.AtEnd.extend_of_misuseIn?_eq_some`).  Any other call does the same whatever misuses have
been noted before it (`Reading.AtEnd.extend_withoutMisuses`).

So the misused calls of a script can be deleted.  By `Script.read_withoutMisuses` what is understood
of the rest is all that was understood of the script, at every point of it; and since misuses are
reported before anything else, the faults of the script are its misuses and then the faults of the
rest (`Script.misused_calls_do_nothing`).
-/

set_option autoImplicit false

namespace GuardedMachine

/-! ## One call -/

namespace Reading

variable {r : Reading} {c : Call} {e : Fault}

/-- The reading without the misuses that were noted. -/
def withoutMisuses (r : Reading) : Reading := { r with misuses := [] }

/-- A call that has nothing to configure is noted, and nothing else changes. -/
theorem AtEnd.extend_of_misuseIn?_eq_some (h : r.AtEnd) (hc : c.misuseIn? r.states = some e) :
    r.extend c = r.misuse e := by
  cases c with
  | state _ | integer _ => cases hc
  | initial | when _ =>
    obtain ⟨hs, ⟨⟩⟩ := Option.ite_none_right_eq_some.1 hc
    rw [Reading.extend, h.atState, if_pos hs]
  | goto _ | update _ | guard _ =>
    obtain ⟨ht, ⟨⟩⟩ := Option.ite_none_right_eq_some.1 hc
    rw [Reading.extend, h.atTransition, if_pos ht]

/-- A call that has something to configure does not look at the misuses. -/
theorem AtEnd.extend_withoutMisuses (h : r.AtEnd) (hc : c.misuseIn? r.states = none) :
    r.withoutMisuses.extend c = (r.extend c).withoutMisuses := by
  have h' : r.withoutMisuses.AtEnd := h
  cases c with
  | state _ | integer _ => rfl
  | initial | when _ =>
    have hs : r.states ≠ [] := by simpa [Call.misuseIn?] using hc
    rw [Reading.extend, Reading.extend, h'.atState, h.atState, if_neg hs]
    exact if_neg hs
  | goto _ | update _ | guard _ =>
    have ht : lastTransitions r.states ≠ [] := by simpa [Call.misuseIn?] using hc
    rw [Reading.extend, Reading.extend, h'.atTransition, h.atTransition, if_neg ht]
    exact if_neg ht

end Reading

/-! ## Scripts without misuses -/

namespace Script

variable {script before : Script} {call : Call} {e : Fault}

/-- The script without the calls that are misused in it. -/
def withoutMisuses (script : Script) : Script :=
  (script.zipIdx.filter fun p => p.1.misuse? (script.take p.2) = none).map (·.1)

theorem withoutMisuses_concat :
    (script ++ [call]).withoutMisuses =
      script.withoutMisuses ++ if call.misuse? script = none then [call] else [] := by
  have hbefore : ∀ p ∈ script.zipIdx,
      decide (p.1.misuse? ((script ++ [call]).take p.2) = none) =
        decide (p.1.misuse? (script.take p.2) = none) :=
    fun p hp => by rw [take_append_of_mem_zipIdx hp]
  rw [withoutMisuses, List.zipIdx_append, List.filter_append, List.filter_congr hbefore,
    List.map_append, ← withoutMisuses]
  split <;> simp [*]

/-- Deleting calls goes from the first to the last. -/
theorem withoutMisuses_mono (h : before <+: script) :
    before.withoutMisuses <+: script.withoutMisuses := by
  obtain ⟨rest, rfl⟩ := h
  induction rest using List.reverseRecOn with
  | nil => simp
  | append_singleton rest call ih =>
    rw [← List.append_assoc, withoutMisuses_concat]
    exact ih.trans (List.prefix_append _ _)

/-- A call is noted as a misuse if it is one, and then it does nothing else. -/
theorem read_concat_of_misuse?_eq_some (h : call.misuse? script = some e) :
    (script ++ [call]).read = script.read.misuse e := by
  rw [Call.misuse?_eq_misuseIn?, ← read_states] at h
  rw [read_concat, (atEnd_read script).extend_of_misuseIn?_eq_some h]

/-- **Nothing else is understood** of a script if its misused calls are deleted. -/
theorem read_withoutMisuses : script.withoutMisuses.read = script.read.withoutMisuses := by
  induction script using List.reverseRecOn with
  | nil => rfl
  | append_singleton script call ih =>
    rw [withoutMisuses_concat]
    cases h : call.misuse? script with
    | none =>
      rw [if_pos rfl, read_concat, read_concat, ih]
      rw [Call.misuse?_eq_misuseIn?, ← read_states] at h
      exact (atEnd_read script).extend_withoutMisuses h
    | some e =>
      rw [if_neg (Option.some_ne_none e), List.append_nil, ih, read_concat_of_misuse?_eq_some h]
      rfl

/-- **Misused calls do nothing.**  A call is noted as a misuse if `Call.misuse?` finds something
wrong with it after the calls before it, and then nothing else comes of it.  Delete the misused
calls from a script, all of them and no others.  Then no call of the rest is misused, and at every
point of the script what is understood of the rest is what was understood before, apart from the
misuses: the same draft states and names, the same place for the next call, the same mark, the same
variables and the same warnings.

Whichever way results are collected, the faults of the script are its misuses and then the faults of
the rest, and a machine is built from it if nothing is misused and that machine is built from the
rest. -/
theorem misused_calls_do_nothing (c : Collector Fault) (script : Script) :
    (∀ (before : Script) (call : Call), (Script.read (before ++ [call])).misuses =
        before.read.misuses ++ (call.misuse? before).toList) ∧
      (∀ (before : Script) (call : Call) (e : Fault), call.misuse? before = some e →
        Script.read (before ++ [call]) = before.read.misuse e) ∧
      (∀ (before : Script) (call : Call), withoutMisuses (before ++ [call]) =
        before.withoutMisuses ++ if call.misuse? before = none then [call] else []) ∧
      script.withoutMisuses.read.misuses = [] ∧
      (∀ before : Script, before <+: script →
        before.withoutMisuses <+: script.withoutMisuses ∧
          before.withoutMisuses.read = before.read.withoutMisuses) ∧
      faultsOf (script.buildWith c) =
        script.read.misuses ++ faultsOf (script.withoutMisuses.buildWith c) ∧
      ∀ m, script.buildWith c = .ok m ↔
        script.read.misuses = [] ∧ script.withoutMisuses.buildWith c = .ok m := by
  refine ⟨fun before call => ?_, fun _ _ _ => read_concat_of_misuse?_eq_some,
    fun _ _ => withoutMisuses_concat, ?_, ?_, ?_, ?_⟩
  · rw [read_misuses, read_misuses, misuses_concat]
  · rw [read_withoutMisuses]
    rfl
  · exact fun before h => ⟨withoutMisuses_mono h, read_withoutMisuses⟩
  · rw [buildWith, buildWith, Reading.buildWith_eq_build, Reading.buildWith_eq_build,
      Reading.faultsOf_build, Reading.faultsOf_build, read_withoutMisuses]
    rfl
  · intro m
    rw [buildWith, buildWith, Reading.buildWith_eq_build, Reading.buildWith_eq_build,
      Reading.build_eq_ok_iff, Reading.build_eq_ok_iff, read_withoutMisuses]
    simp [Reading.withoutMisuses]

end Script

/-- A script that starts with three calls too early, has two more behind a state without
transitions, and points at a state that it does not declare. -/
def stammer : Script :=
  [.initial, .when "push", .goto "open", .integer "pushes", .state "closed", .goto "ajar",
    .initial, .when "push", .goto "open", .state "closed", .update ⟨"pushes", .increment⟩]

/-- Five calls of the stammer are reported and deleted, and what is left has the one other fault. -/
theorem stammer_misused_calls_do_nothing :
    Call.misuse? [] .initial = some (.noCurrentState "initial") ∧
      Script.read ([] ++ [.initial]) = (Script.read []).misuse (.noCurrentState "initial") ∧
      stammer.withoutMisuses =
        [.integer "pushes", .state "closed", .initial, .when "push", .goto "open",
          .state "closed"] ∧
      stammer.withoutMisuses.read.misuses = [] ∧
      stammer.take 9 <+: stammer ∧
      (Script.withoutMisuses (stammer.take 9)).read =
        (Script.read (stammer.take 9)).withoutMisuses ∧
      faultsOf (stammer.buildWith .inOrder) =
        [.noCurrentState "initial", .noCurrentState "when", .noCurrentTransition "to",
          .noCurrentTransition "to", .noCurrentTransition "increment",
          .undeclaredTarget "closed" "push" "open"] := by
  obtain ⟨-, hnoted, -, hnone, hpoints, hfaults, -⟩ :=
    Script.misused_calls_do_nothing .inOrder stammer
  have hmisuse : Call.misuse? [] .initial = some (.noCurrentState "initial") := by decide
  have htake : stammer.take 9 <+: stammer := List.take_prefix 9 stammer
  refine ⟨hmisuse, hnoted [] .initial _ hmisuse, by decide, hnone, htake, (hpoints _ htake).2, ?_⟩
  rw [hfaults]
  rfl

end GuardedMachine
