import GuardedMachine.Instant
import GuardedMachine.Move

/-!
# Histories

A `History` keeps the most recent of the entries it is given, up to a limit if it has one.  A limit
of `0` turns recording off.  Lowering the limit drops the oldest entries at once; raising it again
brings nothing back.

Entries are dropped one by one, and what is left of them is said by one function, `retain`
(`dropOldest_eq_retain`): `entries_record` says that recording appends and then retains, also when
recording is off, and `retain_retain` that two limits in a row keep what the smaller of them keeps.
-/

set_option autoImplicit false

namespace GuardedMachine

/-- The last entries of a list, as many as a limit allows; all of them if there is no limit. -/
def retain {α : Type} (limit : Option Nat) (l : List α) : List α :=
  match limit with
  | none => l
  | some n => l.drop (l.length - n)

section Retain

variable {α β : Type} {l : List α} {n m : Nat}

@[simp] theorem retain_none : retain none l = l := rfl

theorem retain_some : retain (some n) l = l.drop (l.length - n) := rfl

@[simp] theorem retain_zero : retain (some 0) l = [] := by simp [retain]

theorem retain_suffix {limit : Option Nat} : retain limit l <:+ l := by
  cases limit with
  | none => exact List.suffix_refl l
  | some n => exact List.drop_suffix _ _

theorem length_retain : (retain (some n) l).length = min n l.length := by
  rw [retain_some, List.length_drop]
  omega

theorem retain_eq_self (h : l.length ≤ n) : retain (some n) l = l := by
  rw [retain_some, Nat.sub_eq_zero_of_le h, List.drop_zero]

/-- A limit that is raised again does not bring anything back. -/
theorem retain_retain : retain (some m) (retain (some n) l) = retain (some (min n m)) l := by
  rw [retain_some, length_retain, retain_some, List.drop_drop, retain_some]
  congr 1
  omega

/-- Nothing is retained of what has enough behind it. -/
theorem retain_append_of_le {l' : List α} (h : n ≤ l'.length) :
    retain (some n) (l ++ l') = retain (some n) l' := by
  rw [retain_some, retain_some, List.length_append, Nat.add_sub_assoc h,
    List.drop_length_add_append]

/-- It makes no difference whether the oldest are dropped before more is added or after that. -/
theorem retain_retain_append {l' : List α} :
    retain (some n) (retain (some n) l ++ l') = retain (some n) (l ++ l') := by
  by_cases hn : l.length ≤ n
  · rw [retain_eq_self hn]
  · have hsplit : l.take (l.length - n) ++ retain (some n) l = l := List.take_append_drop _ _
    have hlength : n ≤ (retain (some n) l ++ l').length := by
      rw [List.length_append, length_retain]
      omega
    rw [← retain_append_of_le (l := l.take (l.length - n)) hlength, ← List.append_assoc, hsplit]

theorem map_retain {limit : Option Nat} (f : α → β) :
    (retain limit l).map f = retain limit (l.map f) := by
  cases limit with
  | none => rfl
  | some n => rw [retain_some, retain_some, List.map_drop, List.length_map]

/-- Drops the first entry as long as there are more than `n`. -/
def dropOldest (n : Nat) : List α → List α
  | [] => []
  | a :: l => if n < (a :: l).length then dropOldest n l else a :: l

theorem dropOldest_eq_retain : dropOldest n l = retain (some n) l := by
  induction l with
  | nil => rw [dropOldest, retain_eq_self (Nat.zero_le n)]
  | cons a l ih =>
    rw [dropOldest]
    split
    · rename_i hlt
      rw [ih, ← retain_append_of_le (l := [a]) (Nat.le_of_lt_succ hlt), List.singleton_append]
    · rename_i hle
      rw [retain_eq_self (Nat.not_lt.1 hle)]

end Retain

/-- Entries, oldest first, and the number of them that may be kept. -/
structure History (α : Type) where
  entries : List α := []
  limit : Option Nat := none
deriving DecidableEq

namespace History

variable {α : Type}

/-- Whether an entry that is recorded will be kept. -/
def isRecording (h : History α) : Bool := h.limit ≠ some 0

/-- Drops the oldest entries until there are no more than the limit allows. -/
def enforceLimit (h : History α) : History α :=
  match h.limit with
  | none => h
  | some n => { h with entries := dropOldest n h.entries }

/-- Adds an entry, and drops the oldest one if there are then too many. -/
def record (h : History α) (a : α) : History α :=
  if h.isRecording then { h with entries := h.entries ++ [a] }.enforceLimit else h

/-- Changes the limit and drops the oldest entries that are now too many. -/
def setLimit (h : History α) (limit : Option Nat) : History α := { h with limit }.enforceLimit

/-- Drops every entry and keeps the limit. -/
def clear (h : History α) : History α := { h with entries := [] }

/-- The number of entries kept. -/
def size (h : History α) : Nat := h.entries.length

/-- Whether no entry is kept. -/
def isEmpty (h : History α) : Bool := h.entries.isEmpty

/-- The most recent entry. -/
def last? (h : History α) : Option α := h.entries.getLast?

/-- The moves that are kept, without their instants. -/
def moves {T : Type} (h : History (StampedMove T)) : List Move := h.entries.map (·.toMove)

/-- The states gone through by the moves that are kept. -/
def path {T : Type} (h : History (StampedMove T)) : List String := Move.path h.moves

/-- The time from the first move that is kept to the last one. -/
def span? {T D : Type} (time : Timeline T D) (h : History (StampedMove T)) : Option Span := do
  let first ← h.entries.head?
  let last ← h.entries.getLast?
  time.until? first.time last.time

variable {h : History α} {a : α} {limit : Option Nat}

/-- What becomes of a history whose limit is enforced. -/
theorem enforceLimit_eq : h.enforceLimit = ⟨retain h.limit h.entries, h.limit⟩ := by
  unfold enforceLimit
  split
  · rename_i hlimit
    rw [hlimit, retain_none, ← hlimit]
  · rename_i hlimit
    rw [hlimit, dropOldest_eq_retain]

theorem setLimit_eq : h.setLimit limit = ⟨retain limit h.entries, limit⟩ := enforceLimit_eq

@[simp] theorem limit_record : (h.record a).limit = h.limit := by
  unfold record
  split
  · rw [enforceLimit_eq]
  · rfl

/-- Where nothing is recorded, nothing changes. -/
theorem record_of_not_isRecording (hoff : ¬ h.isRecording) : h.record a = h := if_neg hoff

/-- Recording appends and retains.  When recording is off, this says that nothing was kept before,
so it needs the limit to have been respected so far. -/
theorem entries_record (hlen : ∀ n ∈ h.limit, h.entries.length ≤ n) :
    (h.record a).entries = retain h.limit (h.entries ++ [a]) := by
  unfold record
  split
  · rw [enforceLimit_eq]
  · rename_i hoff
    have hlimit : h.limit = some 0 := by simpa [isRecording] using hoff
    have : h.entries = [] := by simpa using hlen 0 hlimit
    rw [hlimit, retain_zero, this]

/-- The same where the limit is known. -/
theorem entries_record_of_limit {n : Nat} (hlimit : h.limit = some n)
    (hlen : h.entries.length ≤ n) : (h.record a).entries = retain (some n) (h.entries ++ [a]) := by
  rw [entries_record fun k hk => ?_, hlimit]
  obtain rfl : n = k := Option.some.inj (hlimit.symm.trans hk)
  exact hlen

@[simp] theorem entries_setLimit : (h.setLimit limit).entries = retain limit h.entries := by
  rw [setLimit_eq]

@[simp] theorem limit_setLimit : (h.setLimit limit).limit = limit := by rw [setLimit_eq]

@[simp] theorem entries_clear : h.clear.entries = [] := rfl

@[simp] theorem limit_clear : h.clear.limit = h.limit := rfl

section Moves

variable {T : Type} {h : History (StampedMove T)} {m : StampedMove T} {n : Nat}

@[simp] theorem length_moves : h.moves.length = h.entries.length := List.length_map _

theorem moves_setLimit : (h.setLimit limit).moves = retain limit h.moves := by
  rw [moves, entries_setLimit, map_retain, moves]

theorem moves_record_of_limit (hlimit : h.limit = some n) (hlen : h.entries.length ≤ n) :
    (h.record m).moves = retain (some n) (h.moves ++ [m.toMove]) := by
  rw [moves, entries_record_of_limit hlimit hlen, map_retain, List.map_append, moves]
  rfl

end Moves

end History

end GuardedMachine
