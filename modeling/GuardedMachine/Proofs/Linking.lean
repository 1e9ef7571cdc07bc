import GuardedMachine.Proofs.Outline

/-!
# What linking does

Linking changes targets and nothing else.  `Linked` says this as one equation: if the linked states
get `some` around each of their targets, they are the drafts with each name replaced by what a look
through the drafts finds.  The equation determines the linked states, and it has no solution if some
name is not found or some transition has no name.  By `linkStates_eq_ok_iff` linking solves it.

`faultsOf_linkStates` lists the faults that linking reports, and `linkStates_ne_error_nil` says that
linking never fails without a fault.  So there are two ends that building can come to
(`Reading.complete_cases`), and from these one reads off the machine or the faults of a reading and
what is reported (`Reading.build_eq_ok_iff`, `Reading.faultsOf_build`).

All this is about linking with results collected from the first to the last.  There is no other way:
the laws of a collector leave it no choice (`Collector.collect_eq_gather`), so linking is the same
with every one of them (`linkStates_eq_inOrder`).
-/

set_option autoImplicit false

namespace GuardedMachine

/-! ## Changing targets -/

section MapTarget

variable {τ υ : Type}

/-- The transition with `f` applied to its target. -/
def Transition.mapTarget (f : τ → υ) (t : Transition τ) : Transition υ :=
  { t with target := f t.target }

/-- The state with `f` applied to the targets of all its transitions. -/
def State.mapTargets (f : τ → υ) (s : State τ) : State υ :=
  ⟨s.name, s.transitions.map (·.mapTarget f)⟩

variable {f : τ → υ} {s : State τ} {event : String} {σ : Store}

/-- A target that was found was found by its name. -/
theorem Transition.exists_name_of_mapTarget {t : Transition τ} {u : Transition (Option υ)}
    {find? : υ → Option τ} (h : t.mapTarget some = u.mapTarget (·.bind find?)) :
    ∃ name, u.target = some name ∧ find? name = some t.target := by
  have htarget : some t.target = u.target.bind find? := congrArg Transition.target h
  exact Option.bind_eq_some_iff.1 htarget.symm

theorem Transition.mapTarget_injective (hf : f.Injective) :
    (Transition.mapTarget f).Injective := by
  rintro ⟨event, target, update, guard⟩ ⟨event', target', update', guard'⟩ h
  obtain ⟨hevent, htarget, hupdate, hguard⟩ := Transition.mk.inj h
  cases hf htarget
  cases hevent
  cases hupdate
  cases hguard
  rfl

theorem State.mapTargets_injective (hf : f.Injective) : (State.mapTargets f).Injective := by
  rintro ⟨name, transitions⟩ ⟨name', transitions'⟩ h
  obtain ⟨hname, htransitions⟩ := State.mk.inj h
  cases List.map_injective_iff.2 (Transition.mapTarget_injective hf) htransitions
  cases hname
  rfl

theorem State.mapTargets_congr {g : τ → υ} (h : ∀ t ∈ s.transitions, f t.target = g t.target) :
    s.mapTargets f = s.mapTargets g :=
  congrArg (State.mk s.name) <| List.map_congr_left fun t ht =>
    congrArg (fun target => { t with target }) (h t ht)

theorem State.candidates_mapTargets :
    (s.mapTargets f).candidates event = (s.candidates event).map (·.mapTarget f) := by
  rw [candidates, candidates, mapTargets, List.filter_map]
  rfl

/-- Which transition is selected has nothing to do with targets. -/
theorem State.select?_mapTargets :
    (s.mapTargets f).select? event σ = (s.select? event σ).map (·.mapTarget f) := by
  rw [select?, select?, candidates_mapTargets, List.find?_map]
  rfl

end MapTarget

/-! ## Collecting results -/

section Gather

variable {ε α β γ : Type}

/-- Results that are found one by one succeed together if each of them can be told from an
equation. -/
theorem gather_map_eq_ok_iff {f : α → Except (List ε) β} {g : β → γ} {h : α → γ}
    (hf : ∀ a b, f a = .ok b ↔ g b = h a) {as : List α} {bs : List β} :
    gather (as.map f) = .ok bs ↔ bs.map g = as.map h := by
  rw [gather_eq_ok_iff]
  induction as generalizing bs with
  | nil => cases bs <;> simp
  | cons a as ih =>
    cases bs with
    | nil => simp
    | cons b bs => simp [hf, ih]

/-- If no single result fails without a fault, their collection does not. -/
theorem gather_ne_error_nil {rs : List (Except (List ε) α)} (h : ∀ r ∈ rs, r ≠ .error []) :
    gather rs ≠ .error [] := by
  induction rs with
  | nil => simp [gather]
  | cons r rs ih =>
    cases r with
    | error es =>
      intro he
      have hes : es = [] := (List.append_eq_nil_iff.1 (Except.error.inj he)).1
      exact h _ List.mem_cons_self (congrArg _ hes)
    | ok a =>
      have hrs := ih fun r hr => h r (List.mem_cons_of_mem _ hr)
      rw [gather]
      cases hg : gather rs with
      | error es =>
        rw [hg] at hrs
        exact hrs
      | ok as => simp [Except.map]

theorem faultsOf_map {f : α → β} {r : Except (List ε) α} : faultsOf (r.map f) = faultsOf r := by
  cases r <;> rfl

theorem eq_error_iff {r : Except (List ε) α} (h : r ≠ .error []) {es : List ε} :
    r = .error es ↔ es ≠ [] ∧ es = faultsOf r := by
  cases r with
  | ok a =>
    simp only [faultsOf, reduceCtorEq, false_iff, not_and]
    exact fun hes he => hes he
  | error es' =>
    have hes' : es' ≠ [] := fun he => h (congrArg _ he)
    rw [Except.error.injEq, faultsOf]
    exact ⟨fun he => ⟨he ▸ hes', he.symm⟩, fun he => he.2.symm⟩

@[simp] theorem Collector.collect_inOrder {rs : List (Except (List ε) α)} :
    inOrder.collect rs = gather rs := rfl

/-- The laws of a collector determine what it does to results that do not fail without a fault. -/
theorem Collector.collect_eq_gather (c : Collector ε) {rs : List (Except (List ε) α)}
    (h : ∀ r ∈ rs, r ≠ .error []) : c.collect rs = gather rs := by
  cases hg : gather rs with
  | ok as => rw [gather_eq_ok_iff.1 hg, c.collect_ok]
  | error es =>
    obtain ⟨hne, hes⟩ := (eq_error_iff (gather_ne_error_nil h)).1 hg
    rw [faultsOf_gather] at hes
    rw [c.collect_error rs (hes ▸ hne), hes]

end Gather

/-! ## What linking succeeds with -/

section Link

variable {table : NameTable} {source : String} {drafts : List DraftState}

theorem DraftTransition.link_eq_ok_iff (t : DraftTransition) (u : Transition StateId) :
    t.link table source = .ok u ↔ u.mapTarget some = t.mapTarget (·.bind (table[·]?)) := by
  obtain ⟨event, target, update, guard⟩ := t
  obtain ⟨event', i', update', guard'⟩ := u
  rw [link]
  cases target with
  | none => simp [Transition.mapTarget]
  | some name =>
    cases h : table[name]? with
    | none => simp [Transition.mapTarget, h]
    | some i =>
      simp only [Transition.mapTarget, Option.bind_some, h, Except.ok.injEq, Transition.mk.injEq,
        Option.some_inj]
      simp only [eq_comm]

theorem DraftState.link_eq_ok_iff (s : DraftState) (u : State StateId) :
    s.link .inOrder table = .ok u ↔ u.mapTargets some = s.mapTargets (·.bind (table[·]?)) := by
  have hmap : s.link .inOrder table = .ok u ↔
      gather (s.transitions.map (DraftTransition.link table s.name)) = .ok u.transitions ∧
        s.name = u.name := by
    obtain ⟨name, transitions⟩ := u
    rw [link, Collector.collect_inOrder]
    cases gather (s.transitions.map (DraftTransition.link table s.name)) with
    | error es => simp [Except.map]
    | ok transitions => simp [Except.map, and_comm]
  rw [hmap, gather_map_eq_ok_iff DraftTransition.link_eq_ok_iff, State.mapTargets, State.mapTargets,
    State.mk.injEq, and_comm, eq_comm (a := s.name)]

/-- The states are the drafts with each name replaced by the position of the first draft that bears
it. -/
def Linked (drafts : List DraftState) (states : List (State StateId)) : Prop :=
  states.map (·.mapTargets some) = drafts.map (·.mapTargets (·.bind (firstNamed? drafts)))

theorem linkStates_eq_ok_iff {states : List (State StateId)} :
    linkStates .inOrder drafts = .ok states ↔ Linked drafts states := by
  rw [linkStates, Collector.collect_inOrder, gather_map_eq_ok_iff DraftState.link_eq_ok_iff, Linked]
  simp only [getElem?_nameTable]

/-- A linked state stands where its draft stood. -/
theorem Linked.exists_draft {states : List (State StateId)} (h : Linked drafts states)
    {s : State StateId} {i : StateId} (hs : states[i]? = some s) :
    ∃ d, drafts[i]? = some d ∧
      s.mapTargets some = d.mapTargets (·.bind (firstNamed? drafts)) := by
  have hget := congrArg (·[i]?) h
  simp only [List.getElem?_map, hs, Option.map_some] at hget
  obtain ⟨d, hd, heq⟩ := Option.map_eq_some_iff.1 hget.symm
  exact ⟨d, hd, heq.symm⟩

/-- Every target of a draft has been found. -/
theorem Linked.exists_target {states : List (State StateId)} (h : Linked drafts states)
    {d : DraftState} (hd : d ∈ drafts) {t : DraftTransition} (ht : t ∈ d.transitions) :
    ∃ i, t.target.bind (firstNamed? drafts) = some i := by
  have hd' := List.mem_map_of_mem (f := State.mapTargets (·.bind (firstNamed? drafts))) hd
  rw [← h] at hd'
  obtain ⟨s, -, hs⟩ := List.mem_map.1 hd'
  have ht' := List.mem_map_of_mem (f := Transition.mapTarget (·.bind (firstNamed? drafts))) ht
  rw [show d.transitions.map _ = _ from (congrArg State.transitions hs).symm] at ht'
  obtain ⟨u, -, hu⟩ := List.mem_map.1 ht'
  exact ⟨u.target, (congrArg Transition.target hu).symm⟩

theorem Linked.length_eq {states : List (State StateId)} (h : Linked drafts states) :
    states.length = drafts.length := by
  simpa using congrArg List.length h

/-- Linking changes no names. -/
theorem Linked.names_eq {states : List (State StateId)} (h : Linked drafts states) :
    states.map (·.name) = drafts.map (·.name) := by
  have hnames := congrArg (List.map State.name) h
  rw [List.map_map, List.map_map] at hnames
  exact hnames

/-! ## What linking fails with -/

theorem getElem?_nameTable_eq_none_iff {name : String} :
    (nameTable drafts)[name]? = none ↔ name ∉ drafts.map (·.name) := by
  rw [getElem?_nameTable, firstNamed?_eq_none_iff]
  simp

theorem DraftTransition.faultsOf_link (t : DraftTransition) :
    faultsOf (t.link (nameTable drafts) source) =
      (t.fault? (drafts.map (·.name)) source).toList := by
  rw [link, fault?]
  cases t.target with
  | none => rfl
  | some name =>
    by_cases h : name ∈ drafts.map (·.name)
    · obtain ⟨i, hi⟩ := Option.ne_none_iff_exists'.1 fun hi => getElem?_nameTable_eq_none_iff.1 hi h
      simp only [hi, if_pos h]
      rfl
    · simp only [getElem?_nameTable_eq_none_iff.2 h, if_neg h]
      rfl

theorem DraftState.faultsOf_link (s : DraftState) :
    faultsOf (s.link .inOrder (nameTable drafts)) =
      s.transitions.filterMap (DraftTransition.fault? (drafts.map (·.name)) s.name) := by
  rw [link, faultsOf_map, Collector.collect_inOrder, faultsOf_gather, List.flatMap_map,
    List.filterMap_eq_flatMap_toList]
  simp only [DraftTransition.faultsOf_link]

/-- Every transition without a target and every name that no state bears is reported, in order. -/
theorem faultsOf_linkStates :
    faultsOf (linkStates .inOrder drafts) = drafts.flatMap fun s =>
      s.transitions.filterMap (DraftTransition.fault? (drafts.map (·.name)) s.name) := by
  rw [linkStates, Collector.collect_inOrder, faultsOf_gather, List.flatMap_map]
  simp only [DraftState.faultsOf_link]

theorem DraftTransition.link_ne_error_nil (t : DraftTransition) :
    t.link table source ≠ .error [] := by
  rw [link]
  split
  · simp
  · split <;> simp

theorem DraftState.results_ne_error_nil (s : DraftState) :
    ∀ r ∈ s.transitions.map (DraftTransition.link table s.name), r ≠ .error [] := by
  intro r hr
  obtain ⟨t, -, rfl⟩ := List.mem_map.1 hr
  exact t.link_ne_error_nil

theorem DraftState.link_ne_error_nil (s : DraftState) : s.link .inOrder table ≠ .error [] := by
  have hgather : gather (s.transitions.map (DraftTransition.link table s.name)) ≠ .error [] :=
    gather_ne_error_nil s.results_ne_error_nil
  rw [link, Collector.collect_inOrder]
  cases h : gather (s.transitions.map (DraftTransition.link table s.name)) with
  | error es => exact fun he => hgather (h.trans (congrArg _ (Except.error.inj he)))
  | ok transitions => simp [Except.map]

theorem linkStates_results_ne_error_nil :
    ∀ r ∈ drafts.map (DraftState.link .inOrder table), r ≠ .error [] := by
  intro r hr
  obtain ⟨s, -, rfl⟩ := List.mem_map.1 hr
  exact s.link_ne_error_nil

theorem linkStates_ne_error_nil : linkStates .inOrder drafts ≠ .error [] :=
  gather_ne_error_nil linkStates_results_ne_error_nil

/-! ## Linking with another collector -/

theorem DraftState.link_eq_inOrder (c : Collector Fault) (s : DraftState) :
    s.link c table = s.link .inOrder table := by
  rw [link, link, c.collect_eq_gather s.results_ne_error_nil, Collector.collect_inOrder]

/-- Linking gives the same with every collector. -/
theorem linkStates_eq_inOrder (c : Collector Fault) :
    linkStates c drafts = linkStates .inOrder drafts := by
  rw [linkStates, linkStates, funext (DraftState.link_eq_inOrder c)]
  exact c.collect_eq_gather linkStates_results_ne_error_nil

end Link

/-! ## The machine of a reading -/

namespace Reading

variable {r : Reading} {m : Machine} {es : List Fault} {c : Collector Fault}

/-- **Building** comes to one of two ends.  If no call was misused and linking succeeds there is a
machine, which is reported by the numbers that are in it.  Otherwise there is something to report as
wrong, and nothing else is reported. -/
theorem complete_cases (c : Collector Fault) (r : Reading) :
    (∃ states, r.misuses = [] ∧ linkStates c r.states = .ok states ∧
        r.complete c = ⟨.ok ⟨⟨states, r.initial⟩, r.store⟩,
          r.journal ++ [.built states.length r.store.size r.initial.isSome]⟩) ∨
      ∃ es, es ≠ [] ∧ es = r.misuses ++ faultsOf (linkStates c r.states) ∧
        r.complete c = ⟨.error es, r.journal⟩ := by
  rw [complete]
  cases hlink : linkStates c r.states with
  | error faults =>
    have hne : faults ≠ [] := by
      rintro rfl
      exact linkStates_ne_error_nil ((linkStates_eq_inOrder c).symm.trans hlink)
    exact .inr ⟨r.misuses ++ faults, List.append_ne_nil_of_right_ne_nil _ hne, rfl, rfl⟩
  | ok states =>
    by_cases hmisuses : r.misuses = []
    · exact .inl ⟨states, hmisuses, rfl, if_pos hmisuses⟩
    · exact .inr ⟨r.misuses, hmisuses, (List.append_nil _).symm, if_neg hmisuses⟩

/-- A machine is built if no call was misused and linking succeeds. -/
theorem build_eq_ok_iff :
    r.build = .ok m ↔
      r.misuses = [] ∧ linkStates .inOrder r.states = .ok m.states ∧ m.initial = r.initial ∧
        m.store = r.store := by
  obtain ⟨⟨states, initial⟩, store⟩ := m
  rw [build, buildWith]
  obtain ⟨states', hmisuses, hlink, hcomplete⟩ | ⟨es, hne, hes, hcomplete⟩ :=
    complete_cases .inOrder r
  · simp [hmisuses, hlink, hcomplete, eq_comm, and_assoc]
  · simp only [hcomplete, reduceCtorEq, false_iff]
    rintro ⟨hmisuses, hlink, -⟩
    exact hne (by rw [hes, hmisuses, hlink]; rfl)

/-- A building that fails has all the misuses and all the faults of linking to report. -/
theorem faultsOf_build :
    faultsOf r.build = r.misuses ++ faultsOf (linkStates .inOrder r.states) := by
  rw [build, buildWith]
  obtain ⟨states, hmisuses, hlink, hcomplete⟩ | ⟨es, -, hes, hcomplete⟩ :=
    complete_cases .inOrder r
  · rw [hcomplete, hmisuses, hlink]
    rfl
  · rw [hcomplete, ← hes]
    rfl

/-- Building never fails without a fault. -/
theorem build_ne_error_nil : r.build ≠ .error [] := by
  rw [build, buildWith]
  obtain ⟨states, -, -, hcomplete⟩ | ⟨es, hne, -, hcomplete⟩ := complete_cases .inOrder r
  · simp [hcomplete]
  · simp [hcomplete, hne]

/-- Every collector builds the same. -/
theorem buildWith_eq_build (c : Collector Fault) : r.buildWith c = r.build := by
  rw [build, buildWith, buildWith, complete, complete, linkStates_eq_inOrder]

/-- A machine is reported by its own numbers. -/
theorem journalWith_of_buildWith (hm : r.buildWith c = .ok m) :
    r.journalWith c =
      r.journal ++ [.built m.states.length m.store.size m.initial.isSome] := by
  rw [buildWith] at hm
  rw [journalWith]
  obtain ⟨states, -, -, hcomplete⟩ | ⟨es, -, -, hcomplete⟩ := complete_cases c r
  · rw [hcomplete] at hm ⊢
    obtain rfl := Except.ok.inj hm
    rfl
  · rw [hcomplete] at hm
    cases hm

/-- A building that fails reports nothing of its own. -/
theorem journalWith_of_buildWith_eq_error (hes : r.buildWith c = .error es) :
    r.journalWith c = r.journal := by
  rw [buildWith] at hes
  rw [journalWith]
  obtain ⟨states, -, -, hcomplete⟩ | ⟨es, -, -, hcomplete⟩ := complete_cases c r
  · rw [hcomplete] at hes
    cases hes
  · rw [hcomplete]

end Reading

end GuardedMachine
