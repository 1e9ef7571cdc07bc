import GuardedMachine.Trail
import GuardedMachine.Proofs.Answers

/-!
# Histories follow trails

What a run stores of its past can be told from outside.  `Run.Follows` says that a run has walked
the hops of a trail and remembers the last of them, exactly as many as the trail counts.  Each thing
that can happen to a run keeps this, if the trail takes note of it; so by induction on the steps it
holds at every moment of every session (`Session.follows_after`).

That a trail, once it has lost a hop, never gets it back is plain from the way it counts
(`Trail.dropped_note`), and with that it holds of histories too.
-/

set_option autoImplicit false

namespace GuardedMachine

variable {T : Type}

/-! ## What is forgotten stays forgotten -/

namespace Trail

variable {t : Trail} {x : Step T} {a : Reply}

@[simp] theorem note_notBound : t.note x .notBound = t := by cases x <;> rfl

@[simp] theorem note_stray : t.note x .stray = t := by cases x <;> rfl

/-- Only a new start takes hops off a trail, or brings the count of forgotten ones down. -/
theorem dropped_note (hbind : x ≠ .bind) (hreset : x ≠ .reset) :
    t.hops <+: (t.note x a).hops ∧ t.dropped ≤ (t.note x a).dropped := by
  unfold note dropped
  split
  · exact absurd rfl hbind
  · exact absurd rfl hreset
  · -- a limit: as many hops, and no more of them are remembered
    exact ⟨List.prefix_rfl, by simp only; omega⟩
  · -- one more hop, and at most one more is remembered
    refine ⟨List.prefix_append _ _, ?_⟩
    simp only [List.length_append, List.length_singleton]
    omega
  · exact ⟨List.prefix_rfl, Nat.le_refl _⟩

end Trail

theorem Session.dropped_trail_append (s : Session T) (xs : List (Step T)) {ys : List (Step T)}
    (hbind : .bind ∉ ys) (hreset : .reset ∉ ys) :
    (s.trail xs).hops <+: (s.trail (xs ++ ys)).hops ∧
      (s.trail xs).dropped ≤ (s.trail (xs ++ ys)).dropped := by
  induction ys using List.reverseRecOn with
  | nil => simp
  | append_singleton ys y ih =>
    simp only [List.mem_append, List.mem_singleton, not_or] at hbind hreset
    obtain ⟨hhops, hdropped⟩ := ih hbind.1 hreset.1
    obtain ⟨hhops', hdropped'⟩ := Trail.dropped_note (t := s.trail (xs ++ ys))
      (a := ((s.after (xs ++ ys)).step y).reply) (Ne.symm hbind.2) (Ne.symm hreset.2)
    rw [← List.append_assoc, trail_concat]
    exact ⟨hhops.trans hhops', Nat.le_trans hdropped hdropped'⟩

/-! ## Runs that follow a trail -/

/-- The run has walked the hops of the trail through the graph, and it remembers as many of the last
ones as the trail counts, under the names of the states. -/
structure Run.Follows (g : Graph) (t : Trail) (r : Run T) : Prop where
  initial : g.initial = some r.start
  walk : g.Walk r.start t.hops r.current
  moves : ∃ moves, g.Named t.hops moves ∧ r.history.moves <:+ moves
  length : r.history.entries.length = t.kept
  limit : r.history.limit = some t.limit
  kept_le : t.kept ≤ t.limit

namespace Run

variable {g : Graph} {t : Trail} {r : Run T}

theorem follows_startAt {i : StateId} (hi : g.initial = some i) :
    (startAt i : Run T).Follows g {} where
  initial := hi
  walk := rfl
  moves := ⟨[], rfl, List.nil_suffix⟩
  length := rfl
  limit := rfl
  kept_le := Nat.zero_le _

theorem Follows.reset (h : r.Follows g t) :
    r.reset.Follows g { t with hops := [], kept := 0 } where
  initial := h.initial
  walk := rfl
  moves := ⟨[], rfl, List.nil_suffix⟩
  length := rfl
  limit := h.limit
  kept_le := Nat.zero_le _

theorem Follows.setLimit (h : r.Follows g t) (n : Nat) :
    (r.setLimit n).Follows g { t with kept := min n t.kept, limit := n } where
  initial := h.initial
  walk := h.walk
  moves := by
    obtain ⟨moves, hnamed, hsuffix⟩ := h.moves
    have hretain : retain (some n) r.history.moves <:+ r.history.moves := retain_suffix
    exact ⟨moves, hnamed, History.moves_setLimit ▸ hretain.trans hsuffix⟩
  length := by rw [Run.setLimit, History.entries_setLimit, length_retain, h.length]
  limit := History.limit_setLimit
  kept_le := Nat.min_le_left _ _

/-- A hop that is recorded comes last, and if there are then too many it is the first that goes. -/
theorem Follows.enter (h : r.Follows g t) {hop : Hop} {m : StampedMove T}
    (hsource : hop.source = r.current) (hjoins : g.Joins hop) (hm : hop.move? g = some m.toMove) :
    (r.enter hop.target m).Follows g
      { t with hops := t.hops ++ [hop], kept := min t.limit (t.kept + 1) } := by
  -- with recording turned off this holds since nothing is kept, so the bound is needed here
  have hmoves : (r.history.record m).moves =
      retain (some t.limit) (r.history.moves ++ [m.toMove]) :=
    History.moves_record_of_limit h.limit (h.length ▸ h.kept_le)
  rw [enter_eq]
  refine ⟨h.initial, ?_, ?_, ?_, ?_, Nat.min_le_left _ _⟩
  · exact Graph.Walk.concat (hsource ▸ h.walk) hjoins
  · obtain ⟨moves, hnamed, hsuffix⟩ := h.moves
    refine ⟨moves ++ [m.toMove], hnamed.concat hm, ?_⟩
    exact hmoves ▸ retain_suffix.trans (List.suffix_append_self_iff.2 hsuffix)
  · rw [← History.length_moves, hmoves, length_retain, List.length_append, History.length_moves,
      h.length, List.length_singleton]
  · exact History.limit_record.trans h.limit

end Run

/-! ## Sessions -/

namespace Session

/-- The run of the session, if there is one, follows the trail. -/
def Follows (t : Trail) (s : Session T) : Prop := ∀ r ∈ s.run, r.Follows s.machine.toGraph t

variable {s : Session T} {t : Trail} {m : Machine}

theorem follows_session : (m.session : Session T).Follows t := nofun

/-- **One step.**  The run goes on following the trail, if the trail takes note of the step and of
the reply to it. -/
theorem Follows.answer (h : s.Follows t) {x : Step T} {a : Response T} (ha : s.Answers x a) :
    a.session.Follows (t.note x a.reply) := by
  cases ha with
  | refused | ignored => exact h
  | notBound => rw [Trail.note_notBound]; exact h
  | stray => rw [Trail.note_stray]; exact h
  | bound hi =>
    rintro _ ⟨⟩
    exact Run.follows_startAt hi
  | unbound => exact nofun
  | @fired r o source target t hr hsource ht htarget =>
    rintro _ ⟨⟩
    obtain ⟨hmem, hevent⟩ := State.mem_candidates.1 (State.mem_candidates_of_select? ht)
    refine (h r hr).enter rfl ⟨source, t, hsource, hmem, hevent, rfl⟩ ?_
    exact Hop.move?_eq_some_iff.2
      ⟨rfl, Graph.nameAt?_of_getElem? hsource, Graph.nameAt?_of_getElem? htarget⟩
  | @reset r hr =>
    rintro _ ⟨⟩
    exact (h r hr).reset
  | @limited r n hr =>
    rintro _ ⟨⟩
    exact (h r hr).setLimit n

/-- Any steps. -/
theorem follows_after (m : Machine) (xs : List (Step T)) :
    (m.session.after xs).Follows (m.session.trail xs) := by
  induction xs using List.reverseRecOn with
  | nil => exact follows_session
  | append_singleton xs x ih =>
    rw [after_append, trail_concat]
    exact ih.answer (answers_step _ x)

/-- The run, seen in the graph that the session began with. -/
theorem follows_of_run {xs : List (Step T)} {r : Run T} (hr : (m.session.after xs).run = some r) :
    r.Follows m.toGraph (m.session.trail xs) := by
  have hgraph : (m.session.after xs).machine.toGraph = m.toGraph := after_graph_eq m.session xs
  exact hgraph ▸ follows_after m xs r hr

end Session

/-- **A history holds the last of what fired.**  At every moment of every session, what the run
remembers are the last of the moves that it has made since it was started or reset, in order and
without a gap.  There are exactly as many as the trail counts, and never more than the limit.  Until
the next start, moves that are forgotten stay forgotten, whatever becomes of the limit. -/
theorem Machine.history_follows_trail (m : Machine) (xs : List (Step T)) {r : Run T}
    (hr : (m.session.after xs).run = some r) :
    (∃ moves, m.Named (m.session.trail xs).hops moves ∧ r.history.moves <:+ moves) ∧
      r.history.entries.length = (m.session.trail xs).kept ∧
      r.history.limit = some (m.session.trail xs).limit ∧
      (m.session.trail xs).kept ≤ (m.session.trail xs).limit ∧
      ∀ ys, .bind ∉ ys → .reset ∉ ys →
        (m.session.trail xs).hops <+: (m.session.trail (xs ++ ys)).hops ∧
          (m.session.trail xs).dropped ≤ (m.session.trail (xs ++ ys)).dropped := by
  have h := Session.follows_of_run hr
  exact ⟨h.moves, h.length, h.limit, h.kept_le,
    fun _ hbind hreset => Session.dropped_trail_append m.session xs hbind hreset⟩

/-- Four events for the turnstile, while the limit is first lowered and then raised. -/
def turnstileVisits : List (Step Nat) :=
  [.bind, .dispatch ⟨"coin", 1⟩, .dispatch ⟨"push", 2⟩, .limit 1, .dispatch ⟨"coin", 3⟩, .limit 5,
    .dispatch ⟨"push", 4⟩]

/-- The run of the turnstile after them. -/
def turnstileRun : Run Nat where
  start := 2
  current := 0
  history := ⟨[⟨⟨"coin", "locked", "open"⟩, 3⟩, ⟨⟨"push", "open", "locked"⟩, 4⟩], some 5⟩

/-- The turnstile remembers two of its four moves. -/
theorem turnstile_history_follows_trail :
    (turnstileMachine.session.after turnstileVisits).run = some turnstileRun ∧
      (∃ moves, turnstileMachine.Named (turnstileMachine.session.trail turnstileVisits).hops moves ∧
        turnstileRun.history.moves <:+ moves) ∧
      (turnstileMachine.session.trail turnstileVisits).kept = 2 ∧
      (turnstileMachine.session.trail turnstileVisits).hops.length = 4 := by
  obtain ⟨hmoves, hlength, -, -, -⟩ :=
    Machine.history_follows_trail turnstileMachine turnstileVisits (r := turnstileRun) rfl
  exact ⟨rfl, hmoves, hlength.symm, rfl⟩

end GuardedMachine
