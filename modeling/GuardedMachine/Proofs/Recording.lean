import GuardedMachine.Recording
import Mathlib.Data.List.Induction

/-!
# A history keeps the last entries

Whatever is asked of a history, it keeps the last of the entries that it was ever given, as many as
the tally counts and no others.  `History.Keeps` is this invariant.  It holds of a new history and
is kept by each of the two requests, so it holds of every history that can be made
(`History.keeps_made`), and `History.made_keeps_last` reads off from it what such a history shows.
-/

set_option autoImplicit false

namespace GuardedMachine

theorem length_rtake {α : Type} {l : List α} {k : Nat} (h : k ≤ l.length) :
    (l.rtake k).length = k := by
  rw [List.rtake, List.length_drop]
  omega

namespace History

variable {α : Type} {given : List α} {t : Tally} {h : History α} {limit : Option Nat}

/-- Of the entries that were given the history keeps the last ones, as many as the tally counts, and
these are no more than it may keep. -/
structure Keeps (given : List α) (t : Tally) (h : History α) : Prop where
  limit_eq : h.limit = t.limit
  entries_eq : h.entries = given.rtake t.kept
  kept_le : t.kept ≤ given.length
  kept_le_limit : ∀ n ∈ t.limit, t.kept ≤ n

theorem keeps_new : Keeps (α := α) [] { limit } { limit } where
  limit_eq := rfl
  entries_eq := rfl
  kept_le := Nat.le_refl 0
  kept_le_limit _ _ := Nat.zero_le _

theorem Keeps.length_entries (hk : h.Keeps given t) : h.entries.length = t.kept := by
  rw [hk.entries_eq, length_rtake hk.kept_le]

theorem Keeps.length_le (hk : h.Keeps given t) : ∀ n ∈ h.limit, h.entries.length ≤ n := by
  rw [hk.length_entries, hk.limit_eq]
  exact hk.kept_le_limit

/-- One more entry comes last, and if there are then too many it is the first that goes. -/
theorem Keeps.record (hk : h.Keeps given t) (a : α) :
    (h.record a).Keeps (given ++ [a]) (t.note (.record a)) where
  limit_eq := limit_record.trans hk.limit_eq
  entries_eq := by
    rw [entries_record hk.length_le, hk.limit_eq, hk.entries_eq, ← List.rtake_concat_succ,
      retain_rtake]
    rfl
  kept_le := by
    rw [List.length_append, List.length_singleton]
    exact atMost_le.trans (Nat.succ_le_succ hk.kept_le)
  kept_le_limit := atMost_le_limit

/-- A lower limit makes the first ones go, and a higher one brings nothing back. -/
theorem Keeps.setLimit (hk : h.Keeps given t) (limit : Option Nat) :
    (h.setLimit limit).Keeps given (t.note (.limit limit : Request α)) where
  limit_eq := limit_setLimit
  entries_eq := by
    rw [entries_setLimit, hk.entries_eq, retain_rtake]
    rfl
  kept_le := atMost_le.trans hk.kept_le
  kept_le_limit := atMost_le_limit

/-- **Every history that can be made** keeps the last of what it was given. -/
theorem keeps_made (limit : Option Nat) (xs : List (Request α)) :
    (made limit xs).Keeps (requested xs) (tally limit xs) := by
  induction xs using List.reverseRecOn with
  | nil => exact keeps_new
  | append_singleton xs x ih =>
    rw [made, tally, requested, List.foldl_concat, List.foldl_concat, List.filterMap_append]
    cases x with
    | record a => exact ih.record a
    | limit limit' => exact (List.append_nil (requested xs)).symm ▸ ih.setLimit limit'

/-- **A history keeps the last entries.**  Take a new history, with a limit or without one, and any
requests to record and to change the limit.  The entries that it holds then are the last of all
those that were to be recorded, as they were given, and exactly as many as the tally counts: one
more with each entry and never more than the limit, fewer if the limit is lowered, and no more if it
is raised or taken away.

To record is to append and to keep the last ones, also where recording is turned off and nothing is
appended at all.  Of two limits in a row the smaller one decides.  The last entry, the number of
entries and the states gone through are those of the entries that are held. -/
theorem made_keeps_last {T : Type} (limit : Option Nat) (xs : List (Request (StampedMove T))) :
    (made limit xs).entries = (requested xs).rtake (tally limit xs).kept ∧
      (made limit xs).limit = (tally limit xs).limit ∧
      (made limit xs).size = (tally limit xs).kept ∧
      (∀ n ∈ (made limit xs).limit, (made limit xs).size ≤ n) ∧
      (∀ a, (made limit xs).limit = none →
        ((made limit xs).record a).entries = (made limit xs).entries ++ [a]) ∧
      (∀ a n, (made limit xs).limit = some n →
        ((made limit xs).record a).entries = ((made limit xs).entries ++ [a]).rtake n) ∧
      (∀ n k, (((made limit xs).setLimit (some n)).setLimit (some k)).entries =
        (made limit xs).entries.rtake (min n k)) ∧
      (made limit xs).last? = ((requested xs).rtake (tally limit xs).kept).getLast? ∧
      ((made limit xs).isEmpty ↔ (tally limit xs).kept = 0) ∧
      ((tally limit xs).kept = 0 → (made limit xs).path = []) ∧
      ∀ first rest, (requested xs).rtake (tally limit xs).kept = first :: rest →
        (made limit xs).path = first.source :: (first :: rest).map (·.target) := by
  have hk := keeps_made limit xs
  have hlength := hk.length_entries
  have hentries := hk.entries_eq
  refine ⟨hentries, hk.limit_eq, hlength, hk.length_le, fun a hnone => ?_, fun a n hsome => ?_,
    fun n k => ?_, congrArg List.getLast? hentries, ?_, fun hzero => ?_,
    fun first rest hsuffix => ?_⟩
  · rw [entries_record hk.length_le, hnone, retain_none]
  · rw [entries_record hk.length_le, hsome]
    rfl
  · rw [entries_setLimit, entries_setLimit, retain_retain]
    rfl
  · rw [isEmpty, List.isEmpty_iff, ← hlength, List.length_eq_zero_iff]
  · have hnil : (made limit xs).entries = [] := List.length_eq_zero_iff.1 (hlength.trans hzero)
    rw [path, moves, hnil]
    rfl
  · rw [path, moves, hentries, hsuffix]
    simp [Move.path]

end History

/-- The move of a turnstile that is stamped with the given second. -/
def stamped (event source target : String) (seconds : Int) : StampedMove Instant where
  event := event
  source := source
  target := target
  time := ⟨seconds, 0, by decide⟩

/-- Five moves, while recording is turned off and on again and a limit is set and raised. -/
def turnstileRequests : List (Request (StampedMove Instant)) :=
  [.record (stamped "coin" "locked" "open" 0), .limit (some 0),
    .record (stamped "push" "open" "locked" 5), .limit none,
    .record (stamped "coin" "locked" "open" 7), .record (stamped "push" "open" "locked" 8),
    .limit (some 2), .record (stamped "coin" "locked" "open" 9), .limit (some 3)]

/-- Two of the five moves are kept after the limit was raised to three, and the next one is the
third. -/
theorem turnstile_made_keeps_last :
    (History.made none turnstileRequests).limit = some 3 ∧
      (History.made none turnstileRequests).entries =
        [stamped "push" "open" "locked" 8, stamped "coin" "locked" "open" 9] ∧
      (History.made none turnstileRequests).size ≤ 3 ∧
      ((History.made none turnstileRequests).record (stamped "push" "open" "locked" 12)).entries =
        [stamped "push" "open" "locked" 8, stamped "coin" "locked" "open" 9,
          stamped "push" "open" "locked" 12] ∧
      (History.made none turnstileRequests).path = ["open", "locked", "open"] := by
  obtain ⟨hentries, hlimit, -, hle, -, hrecord, -, -, -, -, hpath⟩ :=
    History.made_keeps_last none turnstileRequests
  have hlimit' : (History.made none turnstileRequests).limit = some 3 := hlimit
  have hlast : (requested turnstileRequests).rtake (tally none turnstileRequests).kept =
      [stamped "push" "open" "locked" 8, stamped "coin" "locked" "open" 9] := rfl
  refine ⟨hlimit', hentries.trans hlast, hle 3 hlimit', ?_, hpath _ _ hlast⟩
  rw [hrecord _ 3 hlimit', hentries, hlast]
  rfl

end GuardedMachine
