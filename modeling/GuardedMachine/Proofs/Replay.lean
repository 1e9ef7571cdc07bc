import GuardedMachine.Proofs.Abreast
import GuardedMachine.Proofs.Firing

/-!
# Replaying what a run remembers

An event that is ignored leaves nothing behind, so the events that are heeded bring about everything
that a list of events does (`Session.responses_heeded`, `Session.after_heeded`).

As long as its limit stays the same, a history is what it was before with all the moves added that
are reported, cut down to the limit (`Session.moves_after_dispatches`).  If nothing had to be cut,
it lists the events that were heeded, and the run can be made once more from it.  Since histories do
not show in any answer (`Session.Abreast`), a second run that may remember less than the first one
makes all of its moves and forgets some of them.
-/

set_option autoImplicit false

namespace GuardedMachine

variable {T : Type}

namespace Session

/-! ## Events that are ignored -/

section Heeded

variable {s : Session T} {o : Occurrence T} {a : Response T}

/-- Either nothing fires and nothing changes, or the run makes one move, for this event, and that is
what is reported. -/
theorem Answers.dispatch_cases (ha : s.Answers (.dispatch o) a) :
    a.reply.isFired = false ∧ a.session = s ∧ movesIn a.journal = [] ∨
      a.reply.isFired = true ∧ ∃ r i m, s.run = some r ∧ a.session.run = some (r.enter i m) ∧
        movesIn a.journal = [m.toMove] ∧ m.event = o.event := by
  cases ha with
  | notBound | ignored | stray => exact .inl ⟨rfl, rfl, rfl⟩
  | fired hr => exact .inr ⟨rfl, _, _, _, hr, rfl, movesIn_fired, rfl⟩

theorem session_step_of_not_isFired (h : ¬ (s.step (.dispatch o)).reply.isFired) :
    (s.step (.dispatch o)).session = s := by
  obtain ⟨-, hs, -⟩ | ⟨hfired, -⟩ := (answers_step s (.dispatch o)).dispatch_cases
  · exact hs
  · exact absurd hfired h

/-- The heeded events by themselves get the responses that they got among the ignored ones. -/
theorem responses_heeded (s : Session T) (os : List (Occurrence T)) :
    s.responses ((s.heeded os).map .dispatch) =
      (s.responses (os.map .dispatch)).filter (·.reply.isFired) := by
  induction os generalizing s with
  | nil => rfl
  | cons o os ih =>
    rw [heeded_cons, List.map_cons, responses_cons, List.filter_cons]
    split
    · rw [List.map_cons, responses_cons, ih]
    · rename_i h
      rw [session_step_of_not_isFired h, ih]

/-- They also lead to the same place. -/
theorem after_heeded (s : Session T) (os : List (Occurrence T)) :
    s.after ((s.heeded os).map .dispatch) = s.after (os.map .dispatch) := by
  induction os generalizing s with
  | nil => rfl
  | cons o os ih =>
    rw [heeded_cons, List.map_cons, after_cons]
    split
    · rw [List.map_cons, after_cons, ih]
    · rename_i h
      rw [session_step_of_not_isFired h, ih]

/-- What is reported of moves is the same. -/
theorem movesIn_heeded (s : Session T) (os : List (Occurrence T)) :
    movesIn (s.journal ((s.heeded os).map .dispatch)) =
      movesIn (s.journal (os.map .dispatch)) := by
  induction os generalizing s with
  | nil => rfl
  | cons o os ih =>
    rw [heeded_cons, List.map_cons, journal_cons, movesIn_append]
    obtain ⟨hfired, hs, hmoves⟩ | ⟨hfired, -⟩ :=
      (answers_step s (.dispatch o)).dispatch_cases
    · rw [hfired, hs, hmoves]
      exact ih s
    · rw [if_pos hfired, List.map_cons, journal_cons, movesIn_append, ih]

/-- The moves that are reported are for the events that are heeded. -/
theorem map_event_movesIn (s : Session T) (os : List (Occurrence T)) :
    (movesIn (s.journal (os.map .dispatch))).map (·.event) = (s.heeded os).map (·.event) := by
  induction os generalizing s with
  | nil => rfl
  | cons o os ih =>
    rw [heeded_cons, List.map_cons, journal_cons, movesIn_append, List.map_append, ih]
    obtain ⟨hfired, -, hmoves⟩ | ⟨hfired, _, _, m, -, -, hmoves, hevent⟩ :=
      (answers_step s (.dispatch o)).dispatch_cases
    · rw [hfired, hmoves]
      rfl
    · rw [hfired, hmoves, if_pos rfl, List.map_cons, List.map_cons, ← hevent]
      rfl

end Heeded

/-! ## What a run remembers while its limit stays the same -/

section History

variable {s : Session T} {r : Run T} {n : Nat}

/-- Dispatches add the moves that are reported to the history and cut it down to the limit. -/
theorem moves_after_dispatches (hr : s.run = some r) (hlimit : r.history.limit = some n)
    (hlength : r.history.entries.length ≤ n) (os : List (Occurrence T)) :
    ∃ r', (s.after (os.map .dispatch)).run = some r' ∧ r'.history.moves =
      retain (some n) (r.history.moves ++ movesIn (s.journal (os.map .dispatch))) := by
  induction os generalizing s r with
  | nil =>
    refine ⟨r, hr, ?_⟩
    rw [List.map_nil, journal_nil, movesIn_nil, List.append_nil,
      retain_eq_self (History.length_moves.trans_le hlength)]
  | cons o os ih =>
    rw [List.map_cons, after_cons, journal_cons, movesIn_append]
    obtain ⟨-, hs, hmoves⟩ | ⟨-, r₀, i, m, hr₀, hrun, hmoves, -⟩ :=
      (answers_step s (.dispatch o)).dispatch_cases
    · rw [hs, hmoves, List.nil_append]
      exact ih hr hlimit hlength
    · obtain rfl : r = r₀ := Option.some.inj (hr.symm.trans hr₀)
      have hentered : (r.enter i m).history.moves =
          retain (some n) (r.history.moves ++ [m.toMove]) := by
        rw [Run.history_enter, History.moves_record_of_limit hlimit hlength]
      have hlimit' : (r.enter i m).history.limit = some n := by
        rw [Run.history_enter, History.limit_record, hlimit]
      have hlength' : (r.enter i m).history.entries.length ≤ n := by
        rw [← History.length_moves, hentered, length_retain]
        exact Nat.min_le_left _ _
      obtain ⟨r', hr', hhistory⟩ := ih hrun hlimit' hlength'
      refine ⟨r', hr', ?_⟩
      rw [hhistory, hentered, hmoves, retain_retain_append, List.append_assoc]

end History

end Session

/-! ## Replaying a history -/

/-- The steps that start a run and then limit what it remembers, as often as one likes. -/
def starting (limits : List Nat) : List (Step T) := .bind :: limits.map .limit

/-- How much is remembered of a run that was started so. -/
def startingLimit (limits : List Nat) : Nat := limits.getLastD defaultLimit

/-- The events that a run remembers, to be dispatched once more. -/
def Run.again (r : Run T) : List String := r.history.moves.map (·.event)

namespace Session

section Replay

variable {s s' : Session T} {r r' : Run T} {n n' : Nat} {os ps : List (Occurrence T)}

/-- To bind is to start a run, whatever run there was before. -/
theorem step_bind_of_bound (h : (s.step .bind).reply = .bound) :
    s.machine.session.step .bind = s.step .bind ∧
      ∃ i, (s.step .bind).session = ⟨s.machine, some (.startAt i)⟩ := by
  obtain ⟨m, run⟩ := s
  rw [step_bind] at h
  simp only [step_bind, Session.bind, Machine.session] at h ⊢
  split at h
  · cases h
  · split at h
    · cases h
    · exact ⟨rfl, _, rfl⟩

/-- A run that remembers nothing yet can be limited without any other effect. -/
theorem after_limits (hr : s.run = some r) (hhistory : r.history = ⟨[], some n⟩)
    (limits : List Nat) :
    ∃ r', s.after (limits.map .limit) = ⟨s.machine, some r'⟩ ∧ r.Abreast r' ∧
      r'.history = ⟨[], some (limits.getLastD n)⟩ := by
  obtain ⟨m, run⟩ := s
  obtain rfl : run = some r := hr
  induction limits generalizing r n with
  | nil => exact ⟨r, rfl, ⟨rfl, rfl⟩, hhistory⟩
  | cons k limits ih =>
    have hhistory' : (r.setLimit k).history = ⟨[], some k⟩ := by
      rw [Run.setLimit, hhistory, History.setLimit_eq, List.eq_nil_of_suffix_nil retain_suffix]
    obtain ⟨r', hafter, habreast, hlimit⟩ := ih hhistory'
    rw [List.getLastD_cons]
    exact ⟨r', hafter, ⟨habreast.start_eq, habreast.current_eq⟩, hlimit⟩

/-- A machine that has an initial state can be started there with any limits. -/
theorem after_starting (h : (s.step .bind).reply = .bound) :
    ∃ i, ∀ limits, ∃ r, s.after (starting limits) = ⟨s.machine, some r⟩ ∧
      (Run.startAt i).Abreast r ∧ r.history = ⟨[], some (startingLimit limits)⟩ := by
  obtain ⟨-, i, hi⟩ := step_bind_of_bound h
  refine ⟨i, fun limits => ?_⟩
  obtain ⟨r, hr, habreast, hlimit⟩ := after_limits (s := (s.step .bind).session)
    (r := .startAt i) (n := defaultLimit) (by rw [hi]) rfl limits
  refine ⟨r, ?_, habreast, hlimit⟩
  rw [starting, after_cons, hr, hi]

/-- A fresh copy of the machine is started in the same way. -/
theorem after_starting_session (h : (s.step .bind).reply = .bound) (limits : List Nat) :
    s.machine.session.after (starting limits) = s.after (starting limits) := by
  rw [starting, after_cons, after_cons, (step_bind_of_bound h).1]

/-- As long as nothing has to be forgotten, a run that remembered nothing at first remembers the
moves that are reported, and so the events that are heeded. -/
theorem again_after_dispatches (hr : s.run = some r) (hhistory : r.history = ⟨[], some n⟩)
    (hn : (s.heeded os).length ≤ n) :
    ∃ p, (s.after (os.map .dispatch)).run = some p ∧
      p.history.moves = movesIn (s.journal (os.map .dispatch)) ∧
      p.again = (s.heeded os).map (·.event) := by
  obtain ⟨p, hp, hpast⟩ :=
    moves_after_dispatches hr (by rw [hhistory]) (by simp [hhistory]) os
  have hevents := map_event_movesIn s os
  have hmoves : p.history.moves = movesIn (s.journal (os.map .dispatch)) := by
    rw [hpast, hhistory]
    refine retain_eq_self ?_
    rw [← List.length_map (·.event)]
    exact (congrArg List.length hevents).trans_le ((List.length_map _).trans_le hn)
  exact ⟨p, hp, hmoves, by rw [Run.again, hmoves, hevents]⟩

/-- A run that is abreast of another at the start can make the moves of the other from the events
that were heeded, whenever they come now.  It remembers as many of them as it may. -/
theorem Abreast.replay {p : Run T} (h : s.Abreast s') (hr' : s'.run = some r')
    (hhistory' : r'.history = ⟨[], some n'⟩) (hp : (s.after (os.map .dispatch)).run = some p)
    (hps : ps.map (·.event) = (s.heeded os).map (·.event)) :
    ∃ p', s'.after (ps.map .dispatch) = ⟨(s.after (os.map .dispatch)).machine, some p'⟩ ∧
      p'.current = p.current ∧
      p'.history.moves = retain (some n') (movesIn (s.journal (os.map .dispatch))) := by
  obtain ⟨q, hq, hqpast⟩ := moves_after_dispatches hr' (by rw [hhistory'])
    (by simp [hhistory']) (s.heeded os)
  have hafter : (s.after (os.map .dispatch)).Abreast
      (s'.after ((s.heeded os).map .dispatch)) := after_heeded s os ▸ h.after _
  -- the same run at other instants
  obtain ⟨p', hp', hpq⟩ :=
    exists_run_of_untimed_eq (after_alike (Step.map_untimed_dispatch hps)) hq
  refine ⟨p', ?_, ?_, ?_⟩
  · rw [hp', hafter.machine_eq]
  · rw [(hafter.run_abreast hp hq).current_eq, ← Run.current_untimed, hpq, Run.current_untimed]
  · have hmoves := congrArg (fun r => r.history.moves) hpq
    simp only [Run.history_untimed, History.moves_untimed] at hmoves
    rw [hmoves, hqpast, hhistory', ← h.journal_eq, movesIn_heeded]
    rfl

/-- All that is dispatched in it fires. -/
theorem Abreast.isFired_of_mem_responses (h : s.Abreast s')
    (hps : ps.map (·.event) = (s.heeded os).map (·.event)) {a : Response T}
    (ha : a ∈ s'.responses (ps.map .dispatch)) : a.reply.isFired := by
  have hreplies : (s'.responses (ps.map .dispatch)).map (·.reply) =
      (s.responses ((s.heeded os).map .dispatch)).map (·.reply) :=
    (replies_alike (Step.map_untimed_dispatch hps)).trans (h.replies_eq _).symm
  obtain ⟨b, hb, hbreply⟩ := List.mem_map.1 (hreplies ▸ List.mem_map_of_mem ha)
  rw [responses_heeded] at hb
  exact hbreply ▸ (List.mem_filter.1 hb).2

end Replay

/-- **Ignored events can be left out, and a history that has lost nothing can be replayed.**

For any session and any events: those that are heeded get, by themselves and whenever they come, the
responses that they got among the others, so that all of them fire, and they end with the same
session; only the instants may be other ones.

And if a run is started, with whatever limits, and as many transitions fire as its limit allows or
fewer, then it remembers the events that were heeded.  On a fresh copy of the machine as it was when
the run was started, all of these fire, at whatever instants, and they lead to the same machine,
with the values that its variables then have, and to the same position.  What is remembered then are
the same moves, or the last of them if the limit of the second run is smaller than their number. -/
theorem history_replays (s : Session T) :
    (∀ os ps : List (Occurrence T), ps.map (·.event) = (s.heeded os).map (·.event) →
      (s.responses (ps.map .dispatch)).map Response.untimed =
          ((s.responses (os.map .dispatch)).filter (·.reply.isFired)).map Response.untimed ∧
        (∀ a ∈ s.responses (ps.map .dispatch), a.reply.isFired) ∧
        (s.after (ps.map .dispatch)).untimed = (s.after (os.map .dispatch)).untimed) ∧
      ((s.step .bind).reply = .bound → ∀ limits os,
        ((s.after (starting limits)).heeded os).length ≤ startingLimit limits →
          ∃ r, (s.after (starting limits ++ os.map .dispatch)).run = some r ∧
            r.again = ((s.after (starting limits)).heeded os).map (·.event) ∧
            ∀ limits' (ps : List (Occurrence T)), ps.map (·.event) = r.again →
              (∀ a ∈ (s.machine.session.after (starting limits')).responses (ps.map .dispatch),
                a.reply.isFired) ∧
              ∃ r', s.machine.session.after (starting limits' ++ ps.map .dispatch) =
                  ⟨(s.after (starting limits ++ os.map .dispatch)).machine, some r'⟩ ∧
                r'.current = r.current ∧
                r'.history.moves = retain (some (startingLimit limits')) r.history.moves ∧
                (r.history.entries.length ≤ startingLimit limits' →
                  r'.history.path = r.history.path)) := by
  refine ⟨fun os ps hps => ⟨?_, fun a ha => ?_, ?_⟩, fun hbound limits os hn => ?_⟩
  · rw [← responses_heeded s os, responses_alike (Step.map_untimed_dispatch hps)]
  · exact (Abreast.refl s).isFired_of_mem_responses hps ha
  · rw [← after_heeded s os, after_alike (Step.map_untimed_dispatch hps)]
  obtain ⟨i, hstart⟩ := after_starting hbound
  obtain ⟨q, hq, hqi, hqhistory⟩ := hstart limits
  have hqrun : (s.after (starting limits)).run = some q := by rw [hq]
  obtain ⟨r, hr, hmoves, hagain⟩ := again_after_dispatches hqrun hqhistory hn
  rw [after_append]
  refine ⟨r, hr, hagain, fun limits' ps hps => ?_⟩
  -- the second run starts where the first one did, with another limit
  obtain ⟨q', hq', hqi', hqhistory'⟩ := hstart limits'
  have hq'run : (s.after (starting limits')).run = some q' := by rw [hq']
  have hfresh := after_starting_session hbound limits'
  have habreast : (s.after (starting limits)).Abreast
      (s.machine.session.after (starting limits')) := by
    rw [hfresh, hq, hq']
    exact abreast_withRun ⟨hqi.start_eq.symm.trans hqi'.start_eq,
      hqi.current_eq.symm.trans hqi'.current_eq⟩
  have hheeded := hps.trans hagain
  obtain ⟨r', hr', hcurrent, hmoves'⟩ := habreast.replay (hfresh ▸ hq'run) hqhistory' hr hheeded
  rw [← hmoves] at hmoves'
  refine ⟨fun a ha => habreast.isFired_of_mem_responses hheeded ha, r', ?_, hcurrent, hmoves',
    fun hlength => ?_⟩
  · rw [after_append, hr']
  · rw [History.path, hmoves', retain_eq_self (History.length_moves.trans_le hlength)]
    rfl

end Session

/-- The odometer is honked at twice; only the second time is heeded. -/
def odometerRide : List (Occurrence Nat) :=
  [⟨"drive", 1⟩, ⟨"honk", 2⟩, ⟨"tamper", 3⟩, ⟨"drive", 4⟩, ⟨"honk", 5⟩]

/-- What was heeded of the ride, on another day. -/
def odometerSecondRide : List (Occurrence Nat) :=
  [⟨"drive", 71⟩, ⟨"tamper", 72⟩, ⟨"drive", 73⟩, ⟨"honk", 75⟩]

/-- Four of five events are heeded, which a limit of four is enough for.  On the second ride they
get the same responses without the one that is ignored, and two of them are remembered. -/
theorem odometer_history_replays :
    (odometerMachine.session.step .bind : Response Nat).reply = .bound ∧
      ((odometerMachine.session.after (starting [9, 4])).heeded odometerRide).map (·.event) =
        ["drive", "tamper", "drive", "honk"] ∧
      ((odometerMachine.session.after (starting [9, 4])).responses
          (odometerSecondRide.map .dispatch)).map Response.untimed =
        (((odometerMachine.session.after (starting [9, 4])).responses
          (odometerRide.map .dispatch)).filter (·.reply.isFired)).map Response.untimed ∧
      ∃ r, (odometerMachine.session.after
          (starting [9, 4] ++ odometerRide.map .dispatch)).run = some r ∧
        r.again = ["drive", "tamper", "drive", "honk"] ∧
        ∃ r', odometerMachine.session.after
              (starting [2] ++ odometerSecondRide.map .dispatch) =
            ⟨(odometerMachine.session.after
              (starting [9, 4] ++ odometerRide.map .dispatch)).machine, some r'⟩ ∧
          r'.current = r.current ∧
          r'.history.moves = [⟨"drive", "road", "road"⟩, ⟨"honk", "road", "road"⟩] := by
  have hheeded : ((odometerMachine.session.after (starting [9, 4])).heeded odometerRide).map
      (·.event) = ["drive", "tamper", "drive", "honk"] := by decide
  obtain ⟨-, hreplay⟩ := Session.history_replays (odometerMachine.session : Session Nat)
  obtain ⟨hleft, -⟩ :=
    Session.history_replays (odometerMachine.session.after (starting [9, 4]) : Session Nat)
  obtain ⟨r, hr, hagain, hsecond⟩ := hreplay rfl [9, 4] odometerRide (by decide)
  obtain ⟨-, r', hr', hcurrent, hmoves, -⟩ :=
    hsecond [2] odometerSecondRide (by rw [hagain, hheeded]; rfl)
  refine ⟨rfl, hheeded, (hleft odometerRide odometerSecondRide (by rw [hheeded]; rfl)).1, r, hr,
    hagain.trans hheeded, r', hr', hcurrent, ?_⟩
  obtain rfl := Option.some.inj hr
  exact hmoves

/-! ## What the first run remembers may be too much for the second -/

/-- A belt that one can step on and get nowhere. -/
def treadmill : Script := [.state "belt", .initial, .when "step", .goto "belt"]

/-- The treadmill with positions for names. -/
def treadmillMachine : Machine where
  states := [⟨"belt", [⟨"step", 0, none, none⟩]⟩]
  initial := some 0
  store := ∅

theorem build_treadmill : treadmill.build = .ok treadmillMachine := rfl

/-- So many steps, by a clock that stands still. -/
def treadmillSteps (n : Nat) : List (Occurrence Nat) := List.replicate n ⟨"step", 0⟩

/-- Every step on the treadmill is the same move. -/
theorem movesIn_journal_treadmill (r : Run Nat) (hr : r.current = 0) (n : Nat) :
    movesIn (Session.journal ⟨treadmillMachine, some r⟩ ((treadmillSteps n).map .dispatch)) =
      List.replicate n ⟨"step", "belt", "belt"⟩ := by
  induction n generalizing r with
  | zero => rfl
  | succ n ih =>
    let m : StampedMove Nat := ⟨⟨"step", "belt", "belt"⟩, 0⟩
    have hstep : Session.step ⟨treadmillMachine, some r⟩ (.dispatch ⟨"step", 0⟩) =
        ⟨⟨treadmillMachine, some (r.enter 0 m)⟩, .dispatched (.fired 0 0),
          [.fired "step" "belt" "belt"]⟩ := by
      obtain ⟨start, current, history⟩ := r
      obtain rfl : current = 0 := hr
      rfl
    rw [treadmillSteps, List.replicate_succ, List.map_cons, Session.journal_cons, movesIn_append,
      hstep, ← treadmillSteps, ih (r.enter 0 m) rfl]
    rfl

/-- Every step is heeded, and steps fill the history of a run. -/
theorem treadmill_after_steps (limits : List Nat) (n : Nat) :
    ((treadmillMachine.session.after (starting limits)).heeded (treadmillSteps n)).length = n ∧
      ∃ r, (treadmillMachine.session.after
          (starting limits ++ (treadmillSteps n).map .dispatch)).run = some r ∧
        r.history.moves =
          retain (some (startingLimit limits)) (List.replicate n ⟨"step", "belt", "belt"⟩) := by
  obtain ⟨q, hq, hstart, hhistory⟩ :=
    Session.after_limits (s := ⟨treadmillMachine, some (.startAt 0)⟩) rfl rfl limits
  have hstarted : treadmillMachine.session.after (starting limits) =
      ⟨treadmillMachine, some q⟩ := hq
  have hmoves := movesIn_journal_treadmill q hstart.current_eq.symm n
  obtain ⟨r, hr, hpast⟩ := Session.moves_after_dispatches (s := ⟨treadmillMachine, some q⟩) rfl
    (by rw [hhistory]) (by simp [hhistory]) (treadmillSteps n)
  rw [Session.after_append, hstarted]
  refine ⟨?_, r, hr, ?_⟩
  · rw [← List.length_map (·.event), ← Session.map_event_movesIn, hmoves, List.length_map,
      List.length_replicate]
  · rw [hpast, hhistory, hmoves]
    rfl

/-- **A run that may remember less does not make the same path.**  One may step on the treadmill
1025 times, which all are remembered if the limit is 1025.  A second run, which is started without
any limit being given, forgets the first of these steps. -/
theorem treadmill_path_not_replayed :
    treadmill.build = .ok treadmillMachine ∧
      ((treadmillMachine.session.after (starting [1025])).heeded (treadmillSteps 1025)).length ≤
        startingLimit [1025] ∧
      ∃ r, (treadmillMachine.session.after
          (starting [1025] ++ (treadmillSteps 1025).map .dispatch)).run = some r ∧
        (treadmillSteps 1025).map (·.event) = r.again ∧
        ∃ r', (treadmillMachine.session.after
            (.bind :: (treadmillSteps 1025).map .dispatch)).run = some r' ∧
          r'.history.path ≠ r.history.path := by
  obtain ⟨hheeded, r, hr, hmoves⟩ := treadmill_after_steps [1025] 1025
  obtain ⟨-, r', hr', hmoves'⟩ := treadmill_after_steps [] 1025
  have hall : r.history.moves = List.replicate 1025 ⟨"step", "belt", "belt"⟩ :=
    hmoves.trans (retain_eq_self (List.length_replicate ..).le)
  have hagain : (treadmillSteps 1025).map (·.event) = r.again := by
    rw [Run.again, hall, treadmillSteps, List.map_replicate, List.map_replicate]
  have hcount : r.history.moves.length = 1025 := by rw [hall, List.length_replicate]
  have hcount' : r'.history.moves.length = 1024 := by
    rw [hmoves', length_retain, List.length_replicate]
    rfl
  have hpath : r.history.path.length = 1026 := by
    rw [History.path, Move.length_path_of_ne_nil (List.ne_nil_of_length_eq_add_one hcount), hcount]
  have hpath' : r'.history.path.length = 1025 := by
    rw [History.path, Move.length_path_of_ne_nil (List.ne_nil_of_length_eq_add_one hcount'),
      hcount']
  refine ⟨build_treadmill, hheeded.le, r, hr, hagain, r', hr', fun h => ?_⟩
  rw [h, hpath] at hpath'
  cases hpath'

end GuardedMachine
