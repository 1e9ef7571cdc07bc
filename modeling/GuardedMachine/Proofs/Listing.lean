import GuardedMachine.Firing
import GuardedMachine.Script.Listing
import GuardedMachine.Trail
import GuardedMachine.Proofs.Answers

/-!
# The listing of a machine describes it

A machine that was built can be written down as a script and be built once more from it
(`Machine.build_listing`).  The listing is put together from parts, so cutting it gives these parts
back, and the outline of the listing can be read off: its states are those of the machine, with each
target replaced by the name of the state at that position (`Machine.outline_listing`).

Linking then looks up names that were positions before.  What it finds is the first state of the
name, which need not be the state that the name was taken from.  But it is one that transitions of a
machine that was built point at (`Graph.PointsByName`), so positions come out as they went in, also
where states share a name.
-/

set_option autoImplicit false

namespace GuardedMachine

variable {T : Type}

/-- Whatever is found is the same, so it does not matter that the last is taken. -/
theorem findLast?_eq_of_forall {α β : Type} {f : α → Option β} {as : List α} {o : Option β}
    (h : ∀ b, b ∈ as.filterMap f ↔ o = some b) : findLast? f as = o := by
  rw [findLast?]
  cases hlast : (as.filterMap f).getLast? with
  | none =>
    rw [List.getLast?_eq_none_iff] at hlast
    cases ho : o with
    | none => rfl
    | some b =>
      have hb := (h b).2 ho
      rw [hlast] at hb
      cases hb
  | some b => exact ((h b).1 (List.mem_of_getLast? hlast)).symm

/-! ## The parts of a listing -/

/-- The calls after the declaration of a transition. -/
def Transition.details (states : List (State StateId)) (t : Transition StateId) : List Call :=
  (states[t.target]?.map fun s => Call.goto s.name).toList ++ (t.update.map Call.update).toList ++
    (t.guard.map Call.guard).toList

/-- The calls after the declaration of a state. -/
def State.details (g : Graph) (i : StateId) (s : State StateId) : List Call :=
  (if g.initial = some i then [.initial] else []) ++
    s.transitions.flatMap (Transition.listing g.states)

section Details

variable {g : Graph} {i : StateId} {s : State StateId} {t : Transition StateId} {c : Call}

theorem Transition.listing_eq : t.listing g.states = .when t.event :: t.details g.states := rfl

theorem State.listing_eq : s.listing g i = .state s.name :: s.details g i := rfl

theorem Transition.mem_details :
    c ∈ t.details g.states ↔
      (∃ s, g.states[t.target]? = some s ∧ c = .goto s.name) ∨ (∃ u ∈ t.update, c = .update u) ∨
        ∃ e ∈ t.guard, c = .guard e := by
  simp [details, eq_comm (a := c)]

theorem Transition.event?_of_mem_details (h : c ∈ t.details g.states) : c.event? = none := by
  obtain ⟨_, _, rfl⟩ | ⟨_, _, rfl⟩ | ⟨_, _, rfl⟩ := mem_details.1 h <;> rfl

theorem State.mem_details :
    c ∈ s.details g i ↔ (g.initial = some i ∧ c = .initial) ∨
      ∃ t ∈ s.transitions, c = .when t.event ∨ c ∈ t.details g.states := by
  simp [details, Transition.listing_eq]

/-- The details of a state declare neither states nor variables. -/
theorem State.not_declares_of_mem_details (h : c ∈ s.details g i) :
    c.stateName? = none ∧ c.declared? = none := by
  obtain ⟨-, rfl⟩ | ⟨t, -, rfl | h⟩ := mem_details.1 h
  · exact ⟨rfl, rfl⟩
  · exact ⟨rfl, rfl⟩
  · obtain ⟨_, _, rfl⟩ | ⟨_, _, rfl⟩ | ⟨_, _, rfl⟩ := Transition.mem_details.1 h <;>
      exact ⟨rfl, rfl⟩

/-- The state is marked in its details if it is the initial one. -/
theorem State.initial_mem_details : .initial ∈ s.details g i ↔ g.initial = some i := by
  simp [mem_details, Transition.mem_details]

/-- Cutting the details of a state at the transitions gives the details of these. -/
theorem State.cut_details :
    cut Call.event? (s.details g i) = (if g.initial = some i then [.initial] else [],
      s.transitions.map fun t => (t.event, t.details g.states)) := by
  have hparts : cut Call.event? (s.transitions.flatMap (Transition.listing g.states)) =
      ([], s.transitions.map fun t => (t.event, t.details g.states)) :=
    cut_flatMap Call.event? (fun t : Transition StateId => .when t.event) (fun _ => rfl)
      fun _ _ _ hc => Transition.event?_of_mem_details hc
  rw [details, cut_append_of_none, hparts, List.append_nil]
  intro c hc
  split at hc <;> simp_all [Call.event?]

/-- The details of a transition describe it, with a name for its target. -/
theorem Transition.ofCalls_details :
    DraftTransition.ofCalls t.event (t.details g.states) = t.mapTarget g.nameAt? := by
  obtain ⟨event, target, update, guard⟩ := t
  simp only [DraftTransition.ofCalls, Transition.mapTarget, Graph.nameAt?, details, findLast?,
    List.filterMap_append]
  cases g.states[target]? <;> cases update <;> cases guard <;> rfl

/-- The details of a state describe it, with names for the targets of its transitions. -/
theorem State.ofCalls_details :
    DraftState.ofCalls s.name (s.details g i) = s.mapTargets g.nameAt? := by
  rw [DraftState.ofCalls, cut_details, List.map_map, mapTargets]
  congr 1
  exact List.map_congr_left fun t _ => Transition.ofCalls_details

end Details

/-! ## The listing as a whole -/

namespace Machine

variable {m : Machine}

/-- Cutting a listing at the states gives the details of these. -/
theorem cut_listing :
    cut Call.stateName? m.listing = (m.store.names.map Call.integer,
      m.states.zipIdx.map fun p => (p.1.name, p.1.details m.toGraph p.2)) := by
  have hparts : cut Call.stateName? (m.states.zipIdx.flatMap fun p => p.1.listing m.toGraph p.2) =
      ([], m.states.zipIdx.map fun p => (p.1.name, p.1.details m.toGraph p.2)) :=
    cut_flatMap Call.stateName? (fun p : State StateId × StateId => .state p.1.name) (fun _ => rfl)
      fun _ _ _ hc => (State.not_declares_of_mem_details hc).1
  rw [listing, cut_append_of_none, hparts, List.append_nil]
  intro c hc
  obtain ⟨x, -, rfl⟩ := List.mem_map.1 hc
  rfl

/-- The outline of a listing has the states of the machine, with names for targets. -/
theorem outline_listing : m.listing.outline = m.states.map (·.mapTargets m.nameAt?) := by
  rw [Script.outline, Script.parts, cut_listing, List.map_map]
  calc m.states.zipIdx.map (fun p => DraftState.ofCalls p.1.name (p.1.details m.toGraph p.2))
      = m.states.zipIdx.map (fun p => p.1.mapTargets m.nameAt?) :=
        List.map_congr_left fun _ _ => State.ofCalls_details
    _ = (m.states.zipIdx.map (·.1)).map (·.mapTargets m.nameAt?) := by
          rw [List.map_map]
          rfl
    _ = m.states.map (·.mapTargets m.nameAt?) := by rw [List.zipIdx_map_fst]

theorem getElem?_parts_listing (i : StateId) :
    m.listing.parts[i]? = m.states[i]?.map fun s => (s.name, s.details m.toGraph i) := by
  rw [Script.parts, cut_listing, List.getElem?_map, List.getElem?_zipIdx, Option.map_map,
    Nat.zero_add]
  rfl

/-- The mark in a listing is at the initial state. -/
theorem marked?_listing (h : ∀ i ∈ m.initial, i < m.states.length) :
    m.listing.marked? = m.initial := by
  refine findLast?_eq_of_forall fun i => ?_
  rw [List.mem_filterMap]
  constructor
  · rintro ⟨⟨part, j⟩, hmem, hmark⟩
    have hpart := List.mk_mem_zipIdx_iff_getElem?.1 hmem
    rw [getElem?_parts_listing] at hpart
    obtain ⟨s, -, rfl⟩ := Option.map_eq_some_iff.1 hpart
    split at hmark
    · rename_i hinitial
      cases hmark
      exact State.initial_mem_details.1 hinitial
    · cases hmark
  · intro hi
    obtain ⟨s, hs⟩ : ∃ s, m.states[i]? = some s := ⟨_, List.getElem?_eq_getElem (h i hi)⟩
    refine ⟨((s.name, s.details m.toGraph i), i), ?_, ?_⟩
    · rw [List.mk_mem_zipIdx_iff_getElem?, getElem?_parts_listing, hs, Option.map_some]
    · exact if_pos (State.initial_mem_details.2 hi)

/-- The variables that a listing declares are those that the machine holds. -/
theorem mem_declared_listing {x : String} : x ∈ m.listing.declared ↔ x ∈ m.store := by
  rw [Script.mem_declared, listing, List.mem_append, ← Store.mem_names]
  constructor
  · rintro (h | h)
    · obtain ⟨y, hy, heq⟩ := List.mem_map.1 h
      cases heq
      exact hy
    · obtain ⟨p, -, hp⟩ := List.mem_flatMap.1 h
      rw [State.listing_eq, List.mem_cons] at hp
      rcases hp with heq | hp
      · cases heq
      · cases (State.not_declares_of_mem_details hp).2
  · intro h
    exact .inl (List.mem_map_of_mem h)

/-- No call of a listing is misused. -/
theorem misuses_listing : m.listing.misuses = [] := by
  rw [Script.misuses_eq_nil_iff, Script.parts, cut_listing]
  constructor
  · intro c hc
    obtain ⟨x, -, rfl⟩ := List.mem_map.1 hc
    rfl
  · intro q hq c hc
    obtain ⟨p, -, rfl⟩ := List.mem_map.1 hq
    rw [State.cut_details] at hc
    split at hc
    · exact .inl (List.mem_singleton.1 hc)
    · cases hc

end Machine

/-! ## Building a machine from its listing -/

/-- Every transition points at the first of the states of some name. -/
def Graph.PointsByName (g : Graph) : Prop :=
  ∀ s ∈ g.states, ∀ t ∈ s.transitions, ∃ name, g.stateId? name = some t.target

theorem Script.pointsByName_of_build {script : Script} {m : Machine} (hm : script.build = .ok m) :
    m.PointsByName :=
  fun _ hs _ ht => target_of_build hm hs ht

/-- The name of a state that was found by some name leads to that state again. -/
theorem Graph.nameAt?_bind_stateId? {g : Graph} {name : String} {i : StateId}
    (h : g.stateId? name = some i) : (g.nameAt? i).bind g.stateId? = some i := by
  obtain ⟨⟨s, hs, rfl⟩, -⟩ := firstNamed?_eq_some_iff.1 h
  rw [nameAt?_of_getElem? hs, Option.bind_some, h]

namespace Machine

variable {m : Machine}

/-- A name that replaced the position of a target is replaced by the same position. -/
theorem linked_listing (h : m.PointsByName) : Linked m.listing.outline m.states := by
  have hnames : firstNamed? m.listing.outline = m.stateId? := by
    funext name
    rw [Graph.stateId?, firstNamed?_eq_idxOf?, firstNamed?_eq_idxOf?, outline_listing, List.map_map]
    rfl
  rw [Linked, hnames, outline_listing, List.map_map]
  refine List.map_congr_left fun s hs => ?_
  simp only [Function.comp_apply, State.mapTargets, List.map_map, State.mk.injEq, true_and]
  refine List.map_congr_left fun t ht => ?_
  obtain ⟨name, hname⟩ := h s hs t ht
  simp only [Function.comp_apply, Transition.mapTarget, Graph.nameAt?_bind_stateId? hname]

/-- **A listing builds the graph that it was made from**, with the same variables, all at `0`. -/
theorem build_listing (h : m.PointsByName) (hinitial : ∀ i ∈ m.initial, i < m.states.length) :
    m.listing.build = .ok { m with store := m.listing.declared } :=
  Script.build_eq_ok_iff.2 ⟨misuses_listing, linked_listing h, (marked?_listing hinitial).symm, rfl⟩

end Machine

/-! ## Listings of machines in use -/

/-- A session never takes a name out of the store. -/
theorem Session.mem_store_after {s : Session T} {x : String} (hx : x ∈ s.machine.store)
    (xs : List (Step T)) : x ∈ (s.after xs).machine.store := by
  refine after_induction (P := fun s => x ∈ s.machine.store) (fun s _ _ h ha => ?_) hx xs
  cases ha with
  | fired => exact Transition.mem_apply.2 (.inl h)
  | _ => exact h

/-- **Building from a listing gives the machine back.**  At any moment of a session of a machine
that was built, the listing of the machine is built into one with the same graph, also if states
share names.  It holds the names that the machine holds at that moment, all at `0`.  So it is the
machine as it was first built, unless the session has written a name that was not declared. -/
theorem Script.build_listing_after {script : Script} {m : Machine} (hm : script.build = .ok m)
    (xs : List (Step T)) :
    ∃ k, (m.session.after xs).machine.listing.build = .ok k ∧ k.toGraph = m.toGraph ∧
      (∀ x, x ∈ k.store ↔ x ∈ (m.session.after xs).machine.store) ∧
      (∀ x, k.store.read x = 0) ∧
      (k = m ↔ ∀ x ∈ (m.session.after xs).machine.store, x ∈ m.store) := by
  have hgraph : (m.session.after xs).machine.toGraph = m.toGraph :=
    Session.after_graph_eq m.session xs
  have hpoints : (m.session.after xs).machine.PointsByName := hgraph ▸ pointsByName_of_build hm
  have hclosed : (m.session.after xs).machine.Closed := hgraph ▸ closed_of_build hm
  have hbuild := Machine.build_listing hpoints hclosed.initial_lt
  refine ⟨_, hbuild, hgraph, fun x => Machine.mem_declared_listing, fun x => read_declared, ?_⟩
  constructor
  · intro hk x hx
    rw [← hk]
    exact Machine.mem_declared_listing.2 hx
  · intro hnames
    have hstore : (m.session.after xs).machine.listing.declared = m.store := by
      ext x
      · rw [Machine.mem_declared_listing]
        exact ⟨hnames x, fun hx => Session.mem_store_after hx xs⟩
      · rw [read_declared, (build_eq_ok_iff.1 hm).2.2.2, read_declared]
    rw [hgraph, hstore]

/-- Two of the turnstile's states share a name, and the one that it starts in is the second.  When a
coin has been paid it can still be built from its listing. -/
theorem turnstile_build_listing_after :
    turnstile.build = .ok turnstileMachine ∧
      (turnstileMachine.session.after [.bind, .dispatch ⟨"coin", 1⟩]).machine.listing.build =
        .ok turnstileMachine := by
  obtain ⟨k, hk, -, -, -, heq⟩ :=
    Script.build_listing_after build_turnstile [.bind, .dispatch ⟨"coin", 1⟩]
  have hkm : k = turnstileMachine := by
    refine heq.2 fun x hx => ?_
    have hstore : (turnstileMachine.session.after [.bind, .dispatch ⟨"coin", 1⟩]).machine.store =
        turnstileMachine.store.write "coins" 1 := rfl
    rw [hstore, Store.mem_write] at hx
    rcases hx with rfl | hx
    · decide
    · exact hx
  exact ⟨build_turnstile, hkm ▸ hk⟩

/-- A desk with a button; the clicks are counted under a name that is not declared. -/
def clicker : Script :=
  [.state "desk", .initial, .when "click", .goto "desk", .update ⟨"clicks", .increment⟩]

/-- The desk with positions for names. -/
def clickerMachine : Machine where
  states := [⟨"desk", [⟨"click", 0, some ⟨"clicks", .increment⟩, none⟩]⟩]
  initial := some 0
  store := ∅

/-- **A name that is written without being declared stays.**  The listing of the desk, when it was
clicked once, does not build the desk as it was at first. -/
theorem clicker_build_listing_ne :
    clicker.build = .ok clickerMachine ∧
      ∃ k, (clickerMachine.session.after
          [.bind, .dispatch ⟨"click", 1⟩]).machine.listing.build = .ok k ∧
        k ≠ clickerMachine := by
  refine ⟨rfl, { clickerMachine with store := (∅ : Store).declare "clicks" }, rfl, ?_⟩
  decide

end GuardedMachine
