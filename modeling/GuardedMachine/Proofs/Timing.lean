import GuardedMachine.Proofs.Recording
import Mathlib.Algebra.GroupWithZero.Nat

/-!
# The time that a history spans

A history spans the time from the first move that it keeps to the last one.  On every timeline this
is the exact difference of their positions in nanoseconds, and it is missing only if there is no
move or the last one is earlier than the first (`History.span?_eq_some_iff`,
`History.span?_eq_none_iff`); the moves in between have no say in it.

They do if the moves are in the order of time.  Then each of them lies some span behind the one
before it, and these gaps add up to the span of all (`StampedMove.Chronological.exists_gaps`).  And
since a lower limit leaves the last move where it is and makes the first one later, it never makes
the span longer (`History.span?_setLimit_le`).  `History.span_is_exact` says all this of every
history that can be made.
-/

set_option autoImplicit false

namespace GuardedMachine

/-! ## Moves in the order of time -/

namespace Timeline

variable {T D : Type} (time : Timeline T D)

/-- No move is earlier than one before it. -/
def Chronological (ms : List (StampedMove T)) : Prop :=
  ms.Pairwise fun a b => time.position a.time ≤ time.position b.time

instance (ms : List (StampedMove T)) : Decidable (time.Chronological ms) :=
  inferInstanceAs (Decidable (ms.Pairwise _))

/-- The time from each move to the next, which is missing where the next one is earlier. -/
def gaps (ms : List (StampedMove T)) : List (Option Span) :=
  List.zipWith (fun a b => time.until? a.time b.time) ms ms.tail

variable {time} {a b first last : StampedMove T} {ms : List (StampedMove T)}

theorem gaps_cons_cons :
    time.gaps (a :: b :: ms) = time.until? a.time b.time :: time.gaps (b :: ms) := rfl

/-- The first move is the earliest. -/
theorem Chronological.le_of_mem (h : time.Chronological ms) (hfirst : ms.head? = some first)
    (ha : a ∈ ms) : time.position first.time ≤ time.position a.time := by
  obtain ⟨rest, rfl⟩ := List.head?_eq_some_iff.1 hfirst
  rcases List.mem_cons.1 ha with rfl | ha
  · exact Int.le_refl _
  · exact (List.pairwise_cons.1 h).1 a ha

/-- **Gaps add up.** -/
theorem Chronological.exists_gaps (h : time.Chronological (a :: ms))
    (hlast : (a :: ms).getLast? = some last) :
    ∃ ds : List Span, time.gaps (a :: ms) = ds.map some ∧
      time.position a.time + (ds.map Span.toNanos).sum = time.position last.time := by
  induction ms generalizing a with
  | nil =>
    obtain rfl : a = last := Option.some.inj hlast
    exact ⟨[], rfl, by simp⟩
  | cons b ms ih =>
    obtain ⟨hle, hrest⟩ := List.pairwise_cons.1 h
    have hab : time.position a.time ≤ time.position b.time := hle b List.mem_cons_self
    obtain ⟨ds, hds, hsum⟩ := ih hrest (by rw [← hlast, List.getLast?_cons_cons])
    obtain ⟨d, hd⟩ := time.exists_until? hab
    refine ⟨d :: ds, by rw [gaps_cons_cons, hds, hd, List.map_cons], ?_⟩
    rw [time.until?_eq_some_iff] at hd
    simp only [List.map_cons, List.sum_cons]
    omega

end Timeline

/-! ## Spans of histories -/

namespace History

open Timeline

variable {T D : Type} {time : Timeline T D} {h : History (StampedMove T)} {d : Span}
  {first last : StampedMove T}

theorem span?_eq_some_iff :
    h.span? time = some d ↔ ∃ first last, h.entries.head? = some first ∧
      h.entries.getLast? = some last ∧
      time.position first.time + d.toNanos = time.position last.time := by
  simp [span?, Option.bind_eq_some_iff, time.until?_eq_some_iff]

theorem span?_eq_none_iff :
    h.span? time = none ↔ h.entries = [] ∨ ∃ first last, h.entries.head? = some first ∧
      h.entries.getLast? = some last ∧ time.position last.time < time.position first.time := by
  rcases h.entries.eq_nil_or_concat' with hnil | ⟨before, last, hlast⟩
  · simp [span?, hnil]
  · have hne : h.entries ≠ [] := by simp [hlast]
    have hhead : h.entries.head? = some (h.entries.head hne) := List.head?_eq_some_head hne
    have hgetLast : h.entries.getLast? = some last := by rw [hlast, List.getLast?_concat]
    simp [span?, hhead, hgetLast, time.until?_eq_none_iff, hne]

/-- The span is there unless time ran backwards, and it is the only one of its length. -/
theorem exists_span? (hfirst : h.entries.head? = some first)
    (hlast : h.entries.getLast? = some last)
    (hle : time.position first.time ≤ time.position last.time) :
    ∃ d, h.span? time = some d ∧
      time.position first.time + d.toNanos = time.position last.time := by
  obtain ⟨d, hd⟩ := time.exists_until? hle
  exact ⟨d, by simp [span?, hfirst, hlast, hd], time.until?_eq_some_iff.1 hd⟩

/-- Of moves in the order of time the gaps add up to the span. -/
theorem exists_span?_eq_sum (hc : time.Chronological h.entries) (hne : h.entries ≠ []) :
    ∃ (d : Span) (ds : List Span), h.span? time = some d ∧ time.gaps h.entries = ds.map some ∧
      d.toNanos = (ds.map Span.toNanos).sum := by
  obtain ⟨first, rest, hentries⟩ := List.exists_cons_of_ne_nil hne
  obtain ⟨last, hlast⟩ : ∃ last, h.entries.getLast? = some last :=
    ⟨_, List.getLast?_eq_some_getLast hne⟩
  have hfirst : h.entries.head? = some first := by rw [hentries, List.head?_cons]
  have hle := hc.le_of_mem hfirst (List.mem_of_getLast? hlast)
  obtain ⟨d, hd, hsum⟩ := exists_span? hfirst hlast hle
  rw [hentries] at hc hlast ⊢
  obtain ⟨ds, hds, hgaps⟩ := hc.exists_gaps hlast
  exact ⟨d, ds, hd, hds, by omega⟩

/-- A lower limit that leaves a move leaves the last one, and then no longer span. -/
theorem span?_setLimit_le (hc : time.Chronological h.entries) (hd : h.span? time = some d) {n : Nat}
    (hn : n ≠ 0) : ∃ d', (h.setLimit (some n)).span? time = some d' ∧ d'.toNanos ≤ d.toNanos := by
  obtain ⟨first, last, hfirst, hlast, hsum⟩ := span?_eq_some_iff.1 hd
  have hsuffix : (h.setLimit (some n)).entries <:+ h.entries := by
    rw [entries_setLimit]
    exact retain_suffix
  have hne : (h.setLimit (some n)).entries ≠ [] := by
    have hpos : 0 < h.entries.length := List.length_pos_of_mem (List.mem_of_mem_head? hfirst)
    rw [← List.length_pos_iff, entries_setLimit, length_retain]
    omega
  have hlast' : (h.setLimit (some n)).entries.getLast? = some last := by
    obtain ⟨dropped, hdropped⟩ := hsuffix
    rw [← hlast, ← hdropped, List.getLast?_append_of_ne_nil _ hne]
  have hfirst' := List.head?_eq_some_head hne
  have hmem := List.mem_of_mem_head? hfirst'
  obtain ⟨d', hd', hsum'⟩ := exists_span? hfirst' hlast'
    (Chronological.le_of_mem (hc.sublist hsuffix.sublist) hfirst' (List.mem_of_getLast? hlast'))
  have hle := hc.le_of_mem hfirst (hsuffix.mem hmem)
  exact ⟨d', hd', by omega⟩

/-- **The span of a history is exact.**  Take any timeline, a new history, with a limit or without
one, and any requests to record and to change the limit.  The history has no span if and only if it
keeps no move or the last move that it keeps is earlier than the first; otherwise its span is the
only one that is as long as the time from the first to the last, to the nanosecond, whatever moves
lie between.

If moves are recorded in the order of time, those that are kept are in that order too.  Then there
is a span as soon as there is a move, the time from each move to the next one is a span as well,
these add up to the span of all, and no limit other than `0` makes it longer. -/
theorem span_is_exact (time : Timeline T D) (limit : Option Nat)
    (xs : List (Request (StampedMove T))) :
    ((made limit xs).span? time = none ↔
        (made limit xs).entries = [] ∨ ∃ first last, (made limit xs).entries.head? = some first ∧
          (made limit xs).entries.getLast? = some last ∧
          time.position last.time < time.position first.time) ∧
      (∀ first last, (made limit xs).entries.head? = some first →
        (made limit xs).entries.getLast? = some last →
        time.position first.time ≤ time.position last.time →
        ∃ d, (made limit xs).span? time = some d ∧
          ∀ e : Span, e = d ↔ (e.seconds : Int) * nanosPerSecond + e.nanos =
            time.position last.time - time.position first.time) ∧
      (time.Chronological (requested xs) → time.Chronological (made limit xs).entries) ∧
      (time.Chronological (made limit xs).entries → (made limit xs).entries ≠ [] →
        ∃ (d : Span) (ds : List Span), (made limit xs).span? time = some d ∧
          time.gaps (made limit xs).entries = ds.map some ∧
          d.toNanos = (ds.map Span.toNanos).sum ∧
          ∀ n, n ≠ 0 → ∃ d', ((made limit xs).setLimit (some n)).span? time = some d' ∧
            d'.toNanos ≤ d.toNanos) := by
  refine ⟨span?_eq_none_iff, fun first last hfirst hlast hle => ?_, fun hc => ?_,
    fun hc hne => ?_⟩
  · obtain ⟨d, hd, hsum⟩ := exists_span? hfirst hlast hle
    refine ⟨d, hd, fun e => ?_⟩
    rw [← Span.toNanos_inj]
    simp only [Span.toNanos] at hsum ⊢
    omega
  · rw [(keeps_made limit xs).entries_eq]
    exact hc.sublist (List.drop_sublist _ _)
  · obtain ⟨d, ds, hd, hds, hsum⟩ := exists_span?_eq_sum hc hne
    exact ⟨d, ds, hd, hds, hsum, fun n hn => span?_setLimit_le hc hd hn⟩

end History

/-- Three moves of a turnstile within little more than two seconds, two of them before the epoch. -/
def passages : List (Request (StampedMove Instant)) :=
  [.record ⟨⟨"coin", "locked", "open"⟩, ⟨-2, 999999999, by decide⟩⟩,
    .record ⟨⟨"push", "open", "locked"⟩, ⟨-1, 500, by decide⟩⟩,
    .record (stamped "coin" "locked" "open" 1)]

/-- The passages span two seconds and a nanosecond, and less if only two moves are kept.  With the
first and the last of them the other way round there is no span. -/
theorem passages_span_is_exact :
    Instant.timeline.Chronological (History.made none passages).entries ∧
      (History.made none passages).entries ≠ [] ∧
      (History.made none passages).span? Instant.timeline = some ⟨2, 1, by decide⟩ ∧
      (∃ d, ((History.made none passages).setLimit (some 2)).span? Instant.timeline = some d ∧
        d.toNanos ≤ 2000000001) ∧
      (History.made none passages.reverse).span? Instant.timeline = none := by
  obtain ⟨-, hsome, hkept, hordered⟩ := History.span_is_exact Instant.timeline none passages
  obtain ⟨hnone, -⟩ := History.span_is_exact Instant.timeline none passages.reverse
  have hchronological := hkept (by decide)
  have hne : (History.made none passages).entries ≠ [] := by decide
  obtain ⟨d, hd, hunique⟩ := hsome _ _ rfl rfl (by decide)
  have hexact : (⟨2, 1, by decide⟩ : Span) = d := (hunique _).2 (by decide)
  obtain ⟨d', -, hd', -, -, hlimit⟩ := hordered hchronological hne
  obtain rfl : d = d' := Option.some.inj (hd.symm.trans hd')
  obtain ⟨shorter, hshorter, hle⟩ := hlimit 2 (by decide)
  refine ⟨hchronological, hne, hexact ▸ hd, ⟨shorter, hshorter, ?_⟩,
    hnone.2 (.inr ⟨_, _, rfl, rfl, by decide⟩)⟩
  rw [← hexact] at hle
  exact hle

end GuardedMachine
