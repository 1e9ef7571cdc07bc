import GuardedMachine.Report
import GuardedMachine.Proofs.Firing
import GuardedMachine.Proofs.Path

/-!
# The journal tells everything

What is reported of a session can be used to bring its variables up to date.  Every update is
reported with the value that it replaced and with the value that it wrote, in the order in which the
updates were made, so writing these values once more leads to the same store
(`Session.redo_journal`).  What is reported to have been replaced is what had been written before
(`Session.truthful_journal`).

The moves that are reported since a run was started are the hops of its trail under the names of the
states (`Session.named_reported`).  So they lead from the initial state to the current one, and the
last of them are what the run remembers.
-/

set_option autoImplicit false

namespace GuardedMachine

variable {T : Type}

/-! ## What single steps report -/

namespace Session

variable {s : Session T} {g : Graph}

/-- Only starts and events are reported. -/
theorem Answers.tells_silent {x : Step T} {a : Response T} (ha : s.Answers x a) (hbind : x ≠ .bind)
    (hdispatch : ∀ o, x ≠ .dispatch o) : s.Tells x a.reply a.journal := by
  have hjournal : a.journal = [] := by
    cases ha with
    | bound => exact absurd rfl hbind
    | ignored | fired => exact absurd rfl (hdispatch _)
    | _ => rfl
  rw [hjournal]
  exact .silent hbind hdispatch

/-- Every step is told of as it should be. -/
theorem Inside.tells (hg : g.Closed) (h : s.Inside g) (x : Step T) :
    s.Tells x (s.step x).reply (s.step x).journal := by
  cases x with
  | bind =>
    have hgraph : s.machine.toGraph = g := h.graph_eq
    rw [step_bind]
    obtain ⟨hi, hbind⟩ | ⟨i, state, hi, hstate, hbind⟩ := h.bind_cases hg
    · rw [hbind]
      exact .refused (hgraph ▸ hi)
    · rw [hbind]
      refine .bound ?_
      rw [Graph.initialState?, hgraph, hi, Option.bind_some, hstate]
  | dispatch o =>
    have ha := answers_step s (.dispatch o)
    have hstray := h.reply_ne_stray hg (.dispatch o)
    generalize s.step (.dispatch o) = a at ha hstray
    cases ha with
    | notBound hr => exact .notBound hr
    | @ignored r _ source hr hsource ht =>
      have hcurrent := (currentState?_of_run hr).trans hsource
      exact .ignored hr hcurrent ((firing?_dispatch hr hsource).trans ht)
    | @fired r _ source target t hr hsource ht htarget =>
      have hcurrent := (currentState?_of_run hr).trans hsource
      have hfiring := (firing?_dispatch hr hsource).trans ht
      simp only [Transition.appliedEntries]
      cases hu : t.update with
      | none => exact .fired hr hcurrent hfiring htarget hu
      | some u => exact .applied hr hcurrent hfiring htarget hu
    | stray => exact absurd rfl hstray
  | unbind | reset | limit n =>
    exact (answers_step s _).tells_silent (by simp) (by simp)

end Session

/-! ## Updates -/

/-- What is reported to have been replaced is what the store held, if the values before it are
written to `σ`. -/
def Truthful (σ : Store) : List Entry → Prop
  | [] => True
  | e :: es => (∀ p ∈ e.replaced?, σ.read p.1 = p.2) ∧ Truthful (redo σ [e]) es

theorem truthful_append {σ : Store} {es es' : List Entry} :
    Truthful σ (es ++ es') ↔ Truthful σ es ∧ Truthful (redo σ es) es' := by
  induction es generalizing σ with
  | nil => simp [Truthful]
  | cons e es ih =>
    rw [List.cons_append, Truthful, Truthful, ih, and_assoc, ← redo_append, List.singleton_append]

namespace Session

variable {s : Session T}

theorem Answers.redo_journal {x : Step T} {a : Response T} (ha : s.Answers x a) :
    redo s.machine.store a.journal = a.session.machine.store := by
  cases ha with
  | fired => exact redo_fired
  | _ => rfl

theorem Answers.truthful_journal {x : Step T} {a : Response T} (ha : s.Answers x a) :
    Truthful s.machine.store a.journal := by
  cases ha with
  | @fired r o source target t hr hsource ht htarget =>
    simp only [Transition.appliedEntries]
    cases t.update with
    | none => simp [Truthful, Entry.replaced?]
    | some u => simp [Truthful, Entry.replaced?]
  | ignored | bound => simp [Truthful, Entry.replaced?]
  | _ => trivial

/-- Redoing the journal of a session gives the variables as they are at its end. -/
theorem redo_journal (s : Session T) (xs : List (Step T)) :
    redo s.machine.store (s.journal xs) = (s.after xs).machine.store := by
  induction xs generalizing s with
  | nil => rfl
  | cons x xs ih => rw [journal_cons, redo_append, (answers_step s x).redo_journal, ih, after_cons]

theorem truthful_journal (s : Session T) (xs : List (Step T)) :
    Truthful s.machine.store (s.journal xs) := by
  induction xs generalizing s with
  | nil => trivial
  | cons x xs ih =>
    rw [journal_cons, truthful_append, (answers_step s x).redo_journal]
    exact ⟨(answers_step s x).truthful_journal, ih _⟩

end Session

/-! ## Moves -/

namespace Graph

variable {g : Graph} {i j : StateId} {a : String} {hops : List Hop} {moves : List Move}

/-- Moves that name a walk lead from the name of its start to the name of its end. -/
theorem Named.leads (h : g.Named hops moves) (hw : g.Walk i hops j) (ha : g.nameAt? i = some a) :
    ∃ b, g.nameAt? j = some b ∧ Move.Leads a moves b := by
  induction hops generalizing i a moves with
  | nil =>
    obtain rfl : i = j := hw
    exact ⟨a, ha, by rw [h.nil_left]; rfl⟩
  | cons hop hops ih =>
    obtain ⟨hsource, -, hrest⟩ := hw
    obtain ⟨m, ms, rfl, hm, hms⟩ := h.exists_cons
    obtain ⟨-, hmsource, hmtarget⟩ := Hop.move?_eq_some_iff.1 hm
    obtain ⟨b, hb, hleads⟩ := ih hms hrest hmtarget
    refine ⟨b, hb, ?_, hleads⟩
    rw [hsource, ha] at hmsource
    exact (Option.some.inj hmsource).symm

/-- Hops have one list of names. -/
theorem Named.unique {moves' : List Move} (h : g.Named hops moves) (h' : g.Named hops moves') :
    moves = moves' :=
  List.map_injective_iff.2 (fun _ _ => Option.some.inj) (h.symm.trans h')

end Graph

namespace Session

variable {s : Session T} {m : Machine}

/-- What a step reports of moves is what the trail takes note of. -/
theorem Answers.named {g : Graph} (hg : s.machine.toGraph = g) {t : Trail} {moves : List Move}
    (h : g.Named t.hops moves) {x : Step T} {a : Response T} (ha : s.Answers x a) :
    g.Named (t.note x a.reply).hops
      (if a.reply.isRestart x then [] else moves ++ movesIn a.journal) := by
  subst hg
  cases ha with
  | bound | reset => rfl
  | refused | ignored | unbound | limited => exact (List.append_nil moves).symm ▸ h
  | notBound =>
    rw [Trail.note_notBound, Reply.isRestart_notBound]
    exact (List.append_nil moves).symm ▸ h
  | stray =>
    rw [Trail.note_stray, Reply.isRestart_stray]
    exact (List.append_nil moves).symm ▸ h
  | @fired r o source target t hr hsource ht htarget =>
    have hm : Hop.move? s.machine.toGraph ⟨o.event, r.current, t.target⟩ =
        some ⟨o.event, source.name, target.name⟩ :=
      Hop.move?_eq_some_iff.2
        ⟨rfl, Graph.nameAt?_of_getElem? hsource, Graph.nameAt?_of_getElem? htarget⟩
    rw [movesIn_fired]
    exact h.concat hm

/-- The moves that are reported since the last start are the hops of the trail. -/
theorem named_reported (s : Session T) (xs : List (Step T)) :
    s.machine.Named (s.trail xs).hops (s.reported xs) := by
  induction xs using List.reverseRecOn with
  | nil => rfl
  | append_singleton xs x ih =>
    rw [trail_concat, reported_concat]
    exact (answers_step _ x).named (after_graph_eq s xs) ih

end Session

/-- **The journal can be redone.**  Take a machine that was built, whatever values its variables
have, and any steps of a session of it.

Each step reports what it has to, at every moment, and nothing else.  The old value in a report of
an update is the new value in the last report before it that is about the same variable, or else the
value at the beginning.  Writing all new values to the variables as they were at the beginning gives
the variables as they are at the end.  And the moves that are reported since the run was last
started or reset lead from the initial state to the current one, and what the run remembers are the
last of them. -/
theorem Script.journal_redone {script : Script} {m k : Machine} (hm : script.build = .ok m)
    (hk : k.toGraph = m.toGraph) (xs : List (Step T)) :
    (∀ x, (k.session.after xs).Tells x ((k.session.after xs).step x).reply
        ((k.session.after xs).step x).journal) ∧
      (∀ before x old new after, k.session.journal xs = before ++ .applied x old new :: after →
        old = ((before.filterMap (Entry.newValue? x)).getLast?).getD (k.store.read x)) ∧
      redo k.store (k.session.journal xs) = (k.session.after xs).machine.store ∧
      ∀ r, (k.session.after xs).run = some r →
        ∃ first last, m.initialState? = some first ∧
          (k.session.after xs).currentState? = some last ∧
          Move.Leads first.name (k.session.reported xs) last.name ∧
          r.history.moves <:+ k.session.reported xs := by
  have hg : k.Closed := hk ▸ closed_of_build hm
  refine ⟨fun x => (Session.inside_session.after hg xs).tells hg x, ?_,
    Session.redo_journal k.session xs, ?_⟩
  · intro before x old new after hjournal
    have htruthful := Session.truthful_journal k.session xs
    rw [hjournal, truthful_append] at htruthful
    have hold := htruthful.2.1 (x, old) rfl
    rw [← read_redo]
    exact hold.symm
  · intro r hr
    have hfollows := Session.follows_of_run hr
    have hnamed : k.Named (k.session.trail xs).hops (k.session.reported xs) :=
      Session.named_reported k.session xs
    obtain ⟨moves, hmoves, hsuffix⟩ := hfollows.moves
    have hstart := hg.initial_lt r.start hfollows.initial
    obtain ⟨first, hfirst⟩ : ∃ first, k.states[r.start]? = some first :=
      ⟨_, List.getElem?_eq_getElem hstart⟩
    obtain ⟨b, hb, hleads⟩ := hnamed.leads hfollows.walk (Graph.nameAt?_of_getElem? hfirst)
    obtain ⟨last, hlast, rfl⟩ := Option.map_eq_some_iff.1 hb
    refine ⟨first, last, ?_, ?_, hleads, hnamed.unique hmoves ▸ hsuffix⟩
    · rw [← hk, Graph.initialState?, hfollows.initial, Option.bind_some, hfirst]
    · have hgraph : (k.session.after xs).machine.toGraph = k.toGraph :=
        Session.after_graph_eq k.session xs
      rw [Session.currentState?_of_run hr, hgraph, hlast]

/-- A turnstile that has taken four coins before. -/
def usedTurnstile : Machine :=
  { turnstileMachine with store := turnstileMachine.store.write "coins" 4 }

/-- Two people pass the turnstile; the first of them pushes too early and then goes away. -/
def turnstileRush : List (Step Nat) :=
  [.bind, .dispatch ⟨"push", 1⟩, .dispatch ⟨"coin", 2⟩, .reset, .dispatch ⟨"coin", 3⟩,
    .dispatch ⟨"push", 4⟩, .limit 1]

/-- The two coins are counted in the journal, and of the moves only those after the reset lead to
where the run stands. -/
theorem turnstile_journal_redone :
    turnstile.build = .ok turnstileMachine ∧ usedTurnstile.toGraph = turnstileMachine.toGraph ∧
      usedTurnstile.session.journal turnstileRush =
        [.bound "locked", .ignored "push" "locked", .applied "coins" 4 5,
          .fired "coin" "locked" "open", .applied "coins" 5 6, .fired "coin" "locked" "open",
          .fired "push" "open" "locked"] ∧
      redo usedTurnstile.store (usedTurnstile.session.journal turnstileRush) =
        (usedTurnstile.session.after turnstileRush).machine.store ∧
      Move.Leads "locked" (usedTurnstile.session.reported turnstileRush) "locked" ∧
      [⟨"push", "open", "locked"⟩] <:+ usedTurnstile.session.reported turnstileRush := by
  obtain ⟨-, -, hredo, hrun⟩ := Script.journal_redone build_turnstile (k := usedTurnstile) rfl
    turnstileRush
  obtain ⟨first, last, hfirst, hlast, hleads, hsuffix⟩ := hrun _ rfl
  cases hfirst
  cases hlast
  exact ⟨build_turnstile, rfl, by decide, hredo, hleads, hsuffix⟩

end GuardedMachine
