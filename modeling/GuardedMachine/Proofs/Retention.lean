import GuardedMachine.Proofs.Abreast
import GuardedMachine.Proofs.Journal

/-!
# Limits only forget

How much a run may remember has no effect but on what it remembers.  Two sessions of a machine that
are asked the same apart from limits, which may come at different places and be of different sizes,
answer the same, and the shorter of their histories is the end of the longer one.

`Session.SameWay` is what such sessions have in common.  They are abreast, so neither history shows
in an answer; and there is one list of moves, that of all moves since the last start, of which both
of them recall the last ones (`Session.Recalls`).  The list itself is kept by neither.  A step that
both take adds to it what the step reports (`Session.Recalls.answer`), which is the same on both
sides, and a limit that only one of them is given leaves it as it is (`Session.SameWay.skip`).
-/

set_option autoImplicit false

namespace GuardedMachine

variable {T : Type}

/-! ## Steps apart from limits -/

/-- Whether the step limits what a run remembers. -/
def Step.isLimit : Step T → Bool
  | limit _ => true
  | _ => false

/-- The steps without the limits among them. -/
def Step.unlimited (xs : List (Step T)) : List (Step T) := xs.filter (!·.isLimit)

/-- The responses to the steps that are no limits. -/
def Session.mainResponses (s : Session T) (xs : List (Step T)) : List (Response T) :=
  ((xs.zip (s.responses xs)).filter (!·.1.isLimit)).map (·.2)

/-- The responses say the same and leave sessions that are abreast, and the moves that one of the
runs remembers are the last of those that the other one does. -/
structure Response.SameButForgotten (a a' : Response T) : Prop extends a.Abreast a' where
  history : ∀ r ∈ a.session.run, ∀ r' ∈ a'.session.run,
    r.history.moves <:+ r'.history.moves ∨ r'.history.moves <:+ r.history.moves

/-- None of this has to do with instants. -/
theorem Response.SameButForgotten.of_untimed {a a' : Response T}
    (h : a.untimed.SameButForgotten a'.untimed) : a.SameButForgotten a' where
  reply_eq := h.reply_eq
  journal_eq := h.journal_eq
  session := h.session.of_untimed
  history r hr r' hr' := by
    have hmoves := h.history r.untimed (Option.mem_map_of_mem _ hr) r'.untimed
      (Option.mem_map_of_mem _ hr')
    simpa using hmoves

@[simp] theorem Step.isLimit_untimed {x : Step T} : x.untimed.isLimit = x.isLimit := by
  cases x <;> rfl

theorem Step.unlimited_map_untimed {xs : List (Step T)} :
    unlimited (xs.map .untimed) = (unlimited xs).map .untimed := by
  rw [unlimited, List.filter_map, unlimited]
  congr 2
  funext x
  exact congrArg (! ·) isLimit_untimed

theorem Step.unlimited_eq_cons_iff {xs zs : List (Step T)} {z : Step T} :
    unlimited xs = z :: zs ↔ ∃ limits rest, xs = limits ++ z :: rest ∧
      (∀ x ∈ limits, x.isLimit) ∧ z.isLimit = false ∧ unlimited rest = zs := by
  simp [unlimited, List.filter_eq_cons_iff]

theorem Step.unlimited_eq_nil_iff {xs : List (Step T)} :
    unlimited xs = [] ↔ ∀ x ∈ xs, x.isLimit := by
  simp [unlimited]

namespace Session

variable {s s' : Session T} {x : Step T} {xs ys : List (Step T)} {moves : List Move}

@[simp] theorem mainResponses_nil : s.mainResponses [] = [] := rfl

theorem mainResponses_cons :
    s.mainResponses (x :: xs) =
      if x.isLimit then (s.step x).session.mainResponses xs
      else s.step x :: (s.step x).session.mainResponses xs := by
  rw [mainResponses, responses_cons, List.zip_cons_cons, List.filter_cons]
  cases x.isLimit <;> rfl

theorem journal_untimed (s : Session T) (xs : List (Step T)) :
    s.journal xs = s.untimed.journal (xs.map .untimed) := by
  rw [journal, journal, ← responses_untimed, List.flatMap_map]
  rfl

theorem mainResponses_untimed (s : Session T) (xs : List (Step T)) :
    (s.mainResponses xs).map .untimed = s.untimed.mainResponses (xs.map .untimed) := by
  induction xs generalizing s with
  | nil => rfl
  | cons x xs ih =>
    rw [List.map_cons, mainResponses_cons, mainResponses_cons, ← step_untimed, Step.isLimit_untimed]
    split
    · exact ih _
    · rw [List.map_cons, ih]
      rfl

/-! ## What runs recall -/

/-- These are the moves since the last start, and the run, if there is one, remembers the last of
them. -/
def Recalls (moves : List Move) (s : Session T) : Prop :=
  ∃ t, s.Follows t ∧ s.machine.Named t.hops moves

theorem Recalls.suffix (h : s.Recalls moves) {r : Run T} (hr : r ∈ s.run) :
    r.history.moves <:+ moves := by
  obtain ⟨t, hfollows, hnamed⟩ := h
  obtain ⟨moves', hnamed', hsuffix⟩ := (hfollows r hr).moves
  exact hnamed.unique hnamed' ▸ hsuffix

/-- **One step.**  The moves that a step reports come last, unless it is a new start. -/
theorem Recalls.answer (h : s.Recalls moves) {a : Response T} (ha : s.Answers x a) :
    a.session.Recalls (if a.reply.isRestart x then [] else moves ++ movesIn a.journal) := by
  obtain ⟨t, hfollows, hnamed⟩ := h
  refine ⟨t.note x a.reply, hfollows.answer ha, ?_⟩
  rw [ha.graph_eq]
  exact ha.named rfl hnamed

theorem Answers.limit_silent {n : Nat} {a : Response T} (ha : s.Answers (.limit n) a) :
    a.reply.isRestart (.limit n : Step T) = false ∧ a.journal = [] := by
  cases ha <;> exact ⟨rfl, rfl⟩

/-- A limit adds no moves. -/
theorem Recalls.limit (h : s.Recalls moves) (n : Nat) :
    (s.step (.limit n)).session.Recalls moves := by
  have ha := answers_step s (.limit n)
  obtain ⟨hrestart, hjournal⟩ := ha.limit_silent
  have hanswer := h.answer ha
  rw [hrestart, hjournal, movesIn_nil, List.append_nil] at hanswer
  exact hanswer

/-! ## Sessions that go the same way -/

/-- The sessions are abreast, and there are moves of which both recall the last ones. -/
structure SameWay (s s' : Session T) : Prop where
  abreast : s.Abreast s'
  moves : ∃ moves, s.Recalls moves ∧ s'.Recalls moves

theorem SameWay.refl_session (m : Machine) : (m.session : Session T).SameWay m.session :=
  ⟨Abreast.refl _, [], ⟨{}, follows_session, rfl⟩, ⟨{}, follows_session, rfl⟩⟩

theorem SameWay.symm (h : s.SameWay s') : s'.SameWay s := by
  obtain ⟨moves, hs, hs'⟩ := h.moves
  exact ⟨h.abreast.symm, moves, hs', hs⟩

/-- **One step.**  Sessions that go the same way answer the same and go on the same way. -/
theorem SameWay.step (h : s.SameWay s') (x : Step T) :
    (s.step x).session.SameWay (s'.step x).session ∧
      (s.step x).SameButForgotten (s'.step x) := by
  have habreast := h.abreast.step x
  obtain ⟨moves, hs, hs'⟩ := h.moves
  have hs := hs.answer (answers_step s x)
  have hs' := hs'.answer (answers_step s' x)
  rw [← habreast.reply_eq, ← habreast.journal_eq] at hs'
  refine ⟨⟨habreast.session, _, hs, hs'⟩, habreast, ?_⟩
  intro r hr r' hr'
  exact List.suffix_or_suffix_of_suffix (hs.suffix hr) (hs'.suffix hr')

/-- Limits that only one of the sessions is given are passed over. -/
theorem SameWay.skip (h : s.SameWay s') {limits : List (Step T)} (hl : ∀ x ∈ limits, x.isLimit)
    (ys : List (Step T)) :
    s.SameWay (s'.after limits) ∧
      s'.journal (limits ++ ys) = (s'.after limits).journal ys ∧
      s'.mainResponses (limits ++ ys) = (s'.after limits).mainResponses ys := by
  induction limits generalizing s' with
  | nil => exact ⟨h, rfl, rfl⟩
  | cons x limits ih =>
    rw [List.forall_mem_cons] at hl
    obtain ⟨hx, hl⟩ := hl
    cases x with
    | limit n =>
      obtain ⟨moves, hs, hs'⟩ := h.moves
      have hnext : s.SameWay (s'.step (.limit n)).session :=
        ⟨h.abreast.limit_right n, moves, hs, hs'.limit n⟩
      obtain ⟨hafter, hjournal, hresponses⟩ := ih hnext hl
      refine ⟨hafter, ?_, ?_⟩
      · rw [List.cons_append, journal_cons, (answers_step s' (.limit n)).limit_silent.2,
          List.nil_append, hjournal, after_cons]
      · rw [List.cons_append, mainResponses_cons, if_pos hx, hresponses, after_cons]
    | _ => cases hx

/-- **Any steps** that are the same apart from limits. -/
theorem SameWay.responses_alike (h : s.SameWay s') (hxy : Step.unlimited xs = Step.unlimited ys) :
    s.journal xs = s'.journal ys ∧
      List.Forall₂ Response.SameButForgotten (s.mainResponses xs) (s'.mainResponses ys) := by
  -- on the steps that both sessions take, each time with what comes before the next of them
  generalize hzs : Step.unlimited ys = zs at hxy
  induction zs generalizing s s' xs ys with
  | nil =>
    obtain ⟨-, hjournal, hresponses⟩ := h.symm.skip (Step.unlimited_eq_nil_iff.1 hxy) []
    obtain ⟨-, hjournal', hresponses'⟩ := h.skip (Step.unlimited_eq_nil_iff.1 hzs) []
    rw [List.append_nil] at hjournal hresponses hjournal' hresponses'
    rw [hjournal, hjournal', hresponses, hresponses']
    exact ⟨rfl, .nil⟩
  | cons z zs ih =>
    obtain ⟨limits, xs, rfl, hlimits, hz, hxs⟩ := Step.unlimited_eq_cons_iff.1 hxy
    obtain ⟨limits', ys, rfl, hlimits', -, hys⟩ := Step.unlimited_eq_cons_iff.1 hzs
    obtain ⟨hleft, hjournal, hresponses⟩ := h.symm.skip hlimits (z :: xs)
    obtain ⟨hboth, hjournal', hresponses'⟩ := hleft.symm.skip hlimits' (z :: ys)
    obtain ⟨hnext, hsame⟩ := hboth.step z
    obtain ⟨ihjournal, ihresponses⟩ := ih hnext hys hxs
    rw [hjournal, hjournal', hresponses, hresponses']
    constructor
    · rw [journal_cons, journal_cons, hsame.journal_eq, ihjournal]
    · rw [mainResponses_cons, mainResponses_cons, hz]
      exact .cons hsame ihresponses

end Session

/-- **Limits are not to be noticed.**  Let two sessions of a machine be asked the same apart from
limits, at whatever instants, and let each of them be limited wherever one likes and as one likes,
to no moves at all as well.  Then the same is reported in both.  And each step that they share gets
the same reply in both and leaves both with the same variables and at the same state, and what one
of them then remembers of moves is the end of what the other one does. -/
theorem Machine.retention_only_observes (m : Machine) {xs ys : List (Step T)}
    (h : (Step.unlimited xs).map Step.untimed = (Step.unlimited ys).map Step.untimed) :
    m.session.journal xs = m.session.journal ys ∧
      List.Forall₂ Response.SameButForgotten (m.session.mainResponses xs)
        (m.session.mainResponses ys) := by
  rw [← Step.unlimited_map_untimed, ← Step.unlimited_map_untimed] at h
  obtain ⟨hjournal, hresponses⟩ := (Session.SameWay.refl_session m).responses_alike h
  constructor
  · rw [Session.journal_untimed _ xs, Session.journal_untimed _ ys]
    exact hjournal
  · have hmap : List.Forall₂ Response.SameButForgotten
        ((m.session.mainResponses xs).map .untimed)
        ((m.session.mainResponses ys).map .untimed) := by
      rw [Session.mainResponses_untimed _ xs, Session.mainResponses_untimed _ ys]
      exact hresponses
    rw [List.forall₂_map_left_iff, List.forall₂_map_right_iff] at hmap
    exact hmap.imp fun _ _ => .of_untimed

/-- The four events for the turnstile some time later, while recording is turned off for two of
them. -/
def forgetfulVisits : List (Step Nat) :=
  [.limit 7, .bind, .dispatch ⟨"coin", 5⟩, .limit 0, .dispatch ⟨"push", 6⟩, .dispatch ⟨"coin", 6⟩,
    .limit 3, .dispatch ⟨"push", 9⟩]

/-- With other limits the turnstile remembers one move instead of two, and that is all. -/
theorem turnstile_retention_only_observes :
    (Step.unlimited turnstileVisits).map Step.untimed =
        (Step.unlimited forgetfulVisits).map Step.untimed ∧
      turnstileMachine.session.journal turnstileVisits =
        turnstileMachine.session.journal forgetfulVisits ∧
      List.Forall₂ Response.SameButForgotten
        (turnstileMachine.session.mainResponses turnstileVisits)
        (turnstileMachine.session.mainResponses forgetfulVisits) ∧
      (turnstileMachine.session.after turnstileVisits).run.map (·.history.moves) =
        some [⟨"coin", "locked", "open"⟩, ⟨"push", "open", "locked"⟩] ∧
      (turnstileMachine.session.after forgetfulVisits).run.map (·.history.moves) =
        some [⟨"push", "open", "locked"⟩] := by
  have hsame : (Step.unlimited turnstileVisits).map Step.untimed =
      (Step.unlimited forgetfulVisits).map Step.untimed := by decide
  obtain ⟨hjournal, hresponses⟩ := Machine.retention_only_observes turnstileMachine hsame
  exact ⟨hsame, hjournal, hresponses, rfl, rfl⟩

end GuardedMachine
