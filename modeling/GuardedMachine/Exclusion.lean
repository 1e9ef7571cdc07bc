import GuardedMachine.Live
import Mathlib.Data.List.Find
import Mathlib.Data.List.Forall2
import Mathlib.Data.List.Pairwise

/-!
# Guards that exclude each other

The order of the transitions in a state decides between two candidates for an event that are enabled
at once.  If this cannot happen, the state is *exclusive* on the event, and then the order decides
nothing (`State.ExclusiveOn.select?_eq`).

A state is exclusive on an event if its candidates compare the same variable with the same literal,
one for each comparison: of any value exactly one of the three holds
(`Comparison.existsUnique_holds`).  Since one of them always does, such a state does not ignore the
event (`State.TrisectsOn.exists_select?`).
-/

set_option autoImplicit false

namespace GuardedMachine

/-! ## The three comparisons -/

namespace Comparison

variable {a b : Int64} {c d : Comparison}

/-- Of any two values exactly one comparison holds. -/
theorem existsUnique_holds (a b : Int64) : ∃! c : Comparison, c.Holds a b := by
  rcases Int.lt_trichotomy a.toInt b.toInt with h | h | h
  · refine ⟨lessThan, Int64.lt_iff_toInt_lt.2 h, fun c hc => ?_⟩
    cases c <;> simp [Holds, Int64.lt_iff_toInt_lt, ← Int64.toInt_inj] at hc ⊢ <;> omega
  · refine ⟨equals, Int64.toInt_inj.1 h, fun c hc => ?_⟩
    cases c <;> simp [Holds, Int64.lt_iff_toInt_lt] at hc ⊢ <;> omega
  · refine ⟨greaterThan, Int64.lt_iff_toInt_lt.2 h, fun c hc => ?_⟩
    cases c <;> simp [Holds, Int64.lt_iff_toInt_lt, ← Int64.toInt_inj] at hc ⊢ <;> omega

theorem not_holds_and_holds (h : c ≠ d) : ¬ (c.Holds a b ∧ d.Holds a b) :=
  fun hcd => h ((existsUnique_holds a b).unique hcd.1 hcd.2)

end Comparison

/-! ## Exclusive candidates -/

namespace State

variable {τ : Type}

/-- No store enables two of the candidates for the event.  They are told apart by their places, so a
transition that can be enabled is not listed twice. -/
def ExclusiveOn (s : State τ) (e : String) : Prop :=
  ∀ σ, (s.candidates e).Pairwise fun t u => ¬ (t.Enabled σ ∧ u.Enabled σ)

/-- The candidates for the event are three transitions whose guards compare the variable `x` with
the literal `k`, each in another way, in whatever order. -/
def TrisectsOn (s : State τ) (e x : String) (k : Int64) : Prop :=
  ((s.candidates e).map (·.guard)).Perm
    ([.equals, .greaterThan, .lessThan].map fun c => some ⟨x, c, k⟩)

/-- The states differ at most in the order of their transitions, and on no event does it matter. -/
structure Reordered (s s' : State τ) : Prop where
  name_eq : s.name = s'.name
  perm : s.transitions.Perm s'.transitions
  exclusive : ∀ e, s.ExclusiveOn e

/-- The states differ at most in the order of three candidates that trisect the values of some
variable. -/
structure Resorted (s s' : State τ) : Prop where
  name_eq : s.name = s'.name
  candidates : ∀ e, s.candidates e = s'.candidates e ∨
    (∃ x k, s.TrisectsOn e x k) ∧ (s.candidates e).Perm (s'.candidates e)

variable {s s' : State τ} {e x : String} {k : Int64} {t : Transition τ} {σ : Store}

/-- **Where candidates exclude each other their order does not matter.** -/
theorem ExclusiveOn.select?_eq (h : s.ExclusiveOn e)
    (hperm : (s.candidates e).Perm (s'.candidates e)) (σ : Store) :
    s.select? e σ = s'.select? e σ := by
  refine List.find?_eq_find?_of_perm hperm ?_
  rintro t ⟨ht, hσt⟩ u ⟨hu, hσu⟩
  by_contra hne
  have hsymm : Std.Symm fun t u : Transition τ => ¬ (t.Enabled σ ∧ u.Enabled σ) :=
    ⟨fun _ _ htu hut => htu hut.symm⟩
  have hexclude : ¬ (t.Enabled σ ∧ u.Enabled σ) := (h σ).forall ht hu hne
  exact hexclude ⟨of_decide_eq_true hσt, of_decide_eq_true hσu⟩

/-- A single transition has nothing to exclude. -/
theorem exclusiveOn_of_length_le_one (h : s.transitions.length ≤ 1) (e : String) :
    s.ExclusiveOn e := by
  intro σ
  have hlength : (s.candidates e).length ≤ 1 := (List.length_filter_le _ _).trans h
  generalize s.candidates e = ts at hlength
  match ts, hlength with
  | [], _ => exact .nil
  | [t], _ => exact List.pairwise_singleton _ t

theorem Reordered.selectAlike (h : s.Reordered s') : s.SelectAlike s' where
  name_eq := h.name_eq
  select?_eq e σ := (h.exclusive e).select?_eq (h.perm.filter _) σ

/-! ## Three candidates for three comparisons -/

/-- Guards with different comparisons exclude each other. -/
theorem TrisectsOn.exclusiveOn (h : s.TrisectsOn e x k) : s.ExclusiveOn e := by
  intro σ
  have hguards : ((s.candidates e).map (·.guard)).Pairwise
      fun g g' => ¬ ((∀ c ∈ g, c.Holds σ) ∧ ∀ c ∈ g', c.Holds σ) := by
    refine (h.pairwise_iff fun hab hba => hab hba.symm).2 (List.pairwise_map.2 ?_)
    have hdistinct : [Comparison.equals, .greaterThan, .lessThan].Nodup := by decide
    refine hdistinct.imp ?_
    rintro c d hne ⟨hc, hd⟩
    exact Comparison.not_holds_and_holds hne ⟨hc _ rfl, hd _ rfl⟩
  exact List.pairwise_map.1 hguards

/-- Some guard holds, so the event is never ignored. -/
theorem TrisectsOn.exists_select? (h : s.TrisectsOn e x k) (σ : Store) :
    ∃ t ∈ s.candidates e, s.select? e σ = some t := by
  obtain ⟨c, hc, -⟩ := Comparison.existsUnique_holds (σ.read x) k
  have hmem : some ⟨x, c, k⟩ ∈ (s.candidates e).map (·.guard) :=
    h.mem_iff.2 (List.mem_map_of_mem (by cases c <;> simp))
  obtain ⟨t, ht, hguard⟩ := List.mem_map.1 hmem
  have henabled : t.Enabled σ := by
    rw [Transition.Enabled, hguard]
    rintro _ ⟨⟩
    exact hc
  cases hselect : s.select? e σ with
  | none => exact absurd henabled (select?_eq_none_iff.1 hselect t ht)
  | some u => exact ⟨u, mem_candidates_of_select? hselect, rfl⟩

theorem Resorted.selectAlike (h : s.Resorted s') : s.SelectAlike s' where
  name_eq := h.name_eq
  select?_eq e σ := by
    obtain hsame | ⟨⟨x, k, htrisects⟩, hperm⟩ := h.candidates e
    · rw [select?, select?, hsame]
    · exact htrisects.exclusiveOn.select?_eq hperm σ

end State

/-! ## Graphs -/

/-- Lists that are related element by element are so at every position. -/
theorem rel_getElem? {α β : Type} {R : α → β → Prop} {as : List α} {bs : List β}
    (h : List.Forall₂ R as bs) (i : Nat) : Option.Rel R as[i]? bs[i]? := by
  induction h generalizing i with
  | nil => exact .none
  | cons hab _ ih =>
    cases i with
    | zero => exact .some hab
    | succ i => exact ih i

/-- Graphs with states that select alike, one by one, select alike. -/
theorem Graph.selectAlike_of_forall₂ {g g' : Graph} (hi : g.initial = g'.initial)
    (h : List.Forall₂ State.SelectAlike g.states g'.states) : g.SelectAlike g' where
  initial_eq := hi
  states_alike i _ := rel_getElem? h i

end GuardedMachine
