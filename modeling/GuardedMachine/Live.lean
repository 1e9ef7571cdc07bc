import GuardedMachine.Graph

/-!
# What is live in a graph

The first enabled candidate fires, and a candidate without a guard is always enabled.  So of the
candidates of a state for an event only those up to the first unguarded one can ever fire, and these
are the *live* ones.  A position is live if it can be reached from the initial one by live
candidates.

Selection sees only live candidates (`State.select?_eq_find?_live`).  Which ones they are does not
change if what stands behind an unguarded transition for the same event is left out
(`State.sameLive_filter_behind`), or if neighbours for different events change places
(`State.sameLive_swap`).

States with the same live candidates select the same transitions, and so may states whose live
candidates differ.  `Graph.SelectAlike` asks for no more than that, at the live positions.
-/

set_option autoImplicit false

namespace GuardedMachine

/-! ## Cutting a list behind an element -/

section TakeThrough

variable {α : Type}

/-- The elements of a list up to the first one that satisfies `p`, and that one too. -/
def takeThrough (p : α → Bool) : List α → List α
  | [] => []
  | a :: as => if p a then [a] else a :: takeThrough p as

variable {p q : α → Bool} {a : α} {as bs cs : List α}

/-- It makes no difference what comes behind an element that satisfies `p`. -/
theorem takeThrough_append_cons (ha : p a) :
    takeThrough p (as ++ a :: bs) = takeThrough p (as ++ a :: cs) := by
  induction as with
  | nil => simp [takeThrough, ha]
  | cons b as ih => simp only [List.cons_append, takeThrough, ih]

/-- A search that stops at the latest where the list is cut does not notice the cut. -/
theorem find?_takeThrough (h : ∀ a, p a → q a) : (takeThrough p as).find? q = as.find? q := by
  induction as with
  | nil => rfl
  | cons a as ih =>
    rw [takeThrough]
    split
    · rename_i ha
      rw [List.find?_cons_of_pos (h a ha), List.find?_cons_of_pos (h a ha)]
    · rw [List.find?_cons, List.find?_cons, ih]

theorem takeThrough_sublist (p : α → Bool) (as : List α) : (takeThrough p as).Sublist as := by
  induction as with
  | nil => exact .slnil
  | cons a as ih =>
    rw [takeThrough]
    split
    · exact as.nil_sublist.cons_cons a
    · exact ih.cons_cons a

end TakeThrough

/-! ## Live candidates -/

section Unguarded

variable {τ : Type} {t : Transition τ}

/-- Whether nothing but the event is asked for. -/
def Transition.isUnguarded (t : Transition τ) : Bool := t.guard.isNone

theorem Transition.isUnguarded_iff : t.isUnguarded ↔ t.guard = none := Option.isNone_iff_eq_none

theorem Transition.enabled_of_isUnguarded (h : t.isUnguarded) (σ : Store) : t.Enabled σ := by
  simp [Enabled, isUnguarded_iff.1 h]

end Unguarded

namespace State

variable {τ : Type}

/-- The candidates for an event up to the first one without a guard. -/
def live (s : State τ) (e : String) : List (Transition τ) :=
  takeThrough Transition.isUnguarded (s.candidates e)

variable {s : State τ} {e : String} {σ : Store} {t u : Transition τ}
  {before after : List (Transition τ)} {name : String}

/-- What is selected is the first live candidate that is enabled. -/
theorem select?_eq_find?_live : s.select? e σ = (s.live e).find? fun t => t.Enabled σ := by
  refine (find?_takeThrough fun t ht => ?_).symm
  exact decide_eq_true (Transition.enabled_of_isUnguarded ht σ)

theorem mem_candidates_of_mem_live (h : t ∈ s.live e) : t ∈ s.candidates e :=
  (takeThrough_sublist _ _).subset h

theorem mem_live_of_select? (h : s.select? e σ = some t) : t ∈ s.live e :=
  List.mem_of_find?_eq_some (select?_eq_find?_live ▸ h)

/-- The states have the same name and, for every event, the same live candidates. -/
structure SameLive (s s' : State τ) : Prop where
  name_eq : s.name = s'.name
  live_eq : ∀ e, s.live e = s'.live e

/-- The states have the same name and always select the same transition. -/
structure SelectAlike (s s' : State τ) : Prop where
  name_eq : s.name = s'.name
  select?_eq : ∀ e σ, s.select? e σ = s'.select? e σ

theorem SameLive.selectAlike {s s' : State τ} (h : s.SameLive s') : s.SelectAlike s' where
  name_eq := h.name_eq
  select?_eq e σ := by rw [select?_eq_find?_live, select?_eq_find?_live, h.live_eq]

/-- Behind an unguarded transition, those for the same event are dead. -/
theorem sameLive_filter_behind (ht : t.isUnguarded) :
    SameLive ⟨name, before ++ t :: after⟩
      ⟨name, before ++ t :: after.filter fun u => u.event ≠ t.event⟩ := by
  refine ⟨rfl, fun e => ?_⟩
  simp only [live, candidates, List.filter_append, List.filter_cons, List.filter_filter]
  by_cases he : t.event = e
  · rw [if_pos (by simpa using he), if_pos (by simpa using he)]
    exact takeThrough_append_cons ht
  · have hbehind : ∀ u ∈ after,
        decide (u.event = e) = (decide (u.event = e) && decide (u.event ≠ t.event)) := by
      intro u _
      by_cases hu : u.event = e
      · simp [hu, Ne.symm he]
      · simp [hu]
    rw [if_neg (by simpa using he), if_neg (by simpa using he), List.filter_congr hbehind]

/-- How transitions for different events are ordered does not matter. -/
theorem sameLive_swap (h : t.event ≠ u.event) :
    SameLive ⟨name, before ++ t :: u :: after⟩ ⟨name, before ++ u :: t :: after⟩ := by
  refine ⟨rfl, fun e => ?_⟩
  simp only [live, candidates, List.filter_append, List.filter_cons]
  by_cases ht : t.event = e
  · have hu : u.event ≠ e := fun hu => h (ht.trans hu.symm)
    simp [ht, hu]
  · simp [ht]

end State

/-! ## Live positions -/

namespace Graph

/-- The positions that can be reached from the initial one by live candidates. -/
inductive Live (g : Graph) : StateId → Prop
  | initial {i : StateId} (hi : g.initial = some i) : Live g i
  | target {i : StateId} {s : State StateId} {e : String} {t : Transition StateId} (h : Live g i)
      (hs : g.states[i]? = some s) (ht : t ∈ s.live e) : Live g t.target

/-- The graphs start at the same position, and at each position that is live in the first one both
have a state, with the same name and the same live candidates. -/
structure SameLive (g g' : Graph) : Prop where
  initial_eq : g.initial = g'.initial
  exists_states : ∀ i, g.Live i →
    ∃ s s', g.states[i]? = some s ∧ g'.states[i]? = some s' ∧ s.SameLive s'

/-- The graphs start at the same position, and at each position that is live in the first one they
have states that select alike, or neither has a state there. -/
structure SelectAlike (g g' : Graph) : Prop where
  initial_eq : g.initial = g'.initial
  states_alike : ∀ i, g.Live i → Option.Rel State.SelectAlike g.states[i]? g'.states[i]?

theorem SameLive.selectAlike {g g' : Graph} (h : g.SameLive g') : g.SelectAlike g' where
  initial_eq := h.initial_eq
  states_alike i hi := by
    obtain ⟨s, s', hs, hs', hsame⟩ := h.exists_states i hi
    rw [hs, hs']
    exact .some hsame.selectAlike

/-- In a closed graph, live positions are positions of states. -/
theorem Closed.lt_of_live {g : Graph} (hg : g.Closed) {i : StateId} (h : g.Live i) :
    i < g.states.length := by
  cases h with
  | initial hi => exact hg.initial_lt i hi
  | target _ hs ht =>
    have hmem := (State.mem_candidates.1 (State.mem_candidates_of_mem_live ht)).1
    exact hg.target_lt _ (List.mem_of_getElem? hs) _ hmem

end Graph

end GuardedMachine
