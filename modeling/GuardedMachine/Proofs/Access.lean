import GuardedMachine.Access
import Mathlib.Data.List.Dedup

/-!
# A store is a finite map

What a store holds is decided by the last write to each name, and by nothing else.  The names are
the ones that were written, each once (`Store.names_made_perm`); the value of a name is what the
last access that writes it has made of the value before (`Store.read_made_of_last`).  Since stores
that hold the same names with the same values are equal, it does not matter in which order different
names are written (`Store.made_eq_of_filter_eq`).

Values alone do not make stores equal.  A name that is held with value `0` can be told from one that
is not held, though neither a read nor a guard does so (`Store.declare_of_not_mem`).
`Store.made_by_last_writes` puts all this together.
-/

set_option autoImplicit false

namespace GuardedMachine

namespace Store

variable {σ : Store} {xs ys before after : List Access} {x : Access} {n : String}

/-- The names that are held are the different ones that were written. -/
theorem names_made_perm : (made xs).names.Perm (xs.filterMap Access.target?).dedup :=
  names_perm (List.nodup_dedup _) fun n => by rw [List.mem_dedup, List.mem_filterMap, mem_made]

/-- The last access that writes a name decides its value. -/
theorem read_made_of_last (hx : x.target? = some n) (hafter : ∀ y ∈ after, y.target? ≠ some n) :
    (made (before ++ x :: after)).read n = x.written ((made before).read n) := by
  have hnil : (after.filter fun y => y.target? = some n) = [] :=
    List.filter_eq_nil_iff.2 fun y hy => by simpa using hafter y hy
  rw [List.append_cons, made, accessed_append, ← made, read_accessed, hnil, List.foldl_nil,
    made_concat, read_access, if_pos hx]

/-- A name that was not written reads `0`. -/
theorem read_made_of_forall_ne (h : ∀ x ∈ xs, x.target? ≠ some n) : (made xs).read n = 0 :=
  read_of_not_mem fun hn => by
    obtain ⟨x, hx, htarget⟩ := mem_made.1 hn
    exact h x hx htarget

/-- Without a write nothing is held. -/
theorem isEmpty_made_iff : (made xs).isEmpty ↔ ∀ x ∈ xs, x.target? = none := by
  rw [isEmpty_iff]
  constructor
  · intro h x hx
    exact Option.eq_none_iff_forall_ne_some.2 fun n hn => h n (mem_made.2 ⟨x, hx, hn⟩)
  · intro h n hn
    obtain ⟨x, hx, htarget⟩ := mem_made.1 hn
    exact Option.some_ne_none n (htarget.symm.trans (h x hx))

/-- It matters in which order each name is written, and how those of different names are mixed does
not. -/
theorem made_eq_of_filter_eq
    (h : ∀ n, (xs.filter fun x => x.target? = some n) = ys.filter fun x => x.target? = some n) :
    made xs = made ys := by
  have hmem (zs : List Access) (n : String) :
      n ∈ made zs ↔ (zs.filter fun x => x.target? = some n) ≠ [] := by
    simp [mem_made, List.filter_eq_nil_iff]
  ext n
  · rw [hmem, hmem, h]
  · rw [read_made, read_made, h]

/-- To declare a name that is not held changes the store, and nothing that can be read. -/
theorem declare_of_not_mem (hn : n ∉ σ) :
    σ.declare n ≠ σ ∧ (∀ m, (σ.declare n).read m = σ.read m) ∧
      ∀ g : Guard, g.Holds (σ.declare n) ↔ g.Holds σ := by
  have hread (m : String) : (σ.declare n).read m = σ.read m := by
    rw [read_declare]
    split
    · rename_i hm
      rw [← hm, read_of_not_mem hn]
    · rfl
  exact ⟨fun h => hn (h ▸ mem_write_self), hread, fun g => Guard.holds_congr (hread g.var)⟩

/-- **The last write decides.**  Take any two lists of accesses to an empty store.  The store that
the first makes holds the names that are written in it, and no read and no check writes any.  Each
name is held with the value that the last access to write it has given it: `0` by a declaration, the
given value by a write, and by an update what its change makes of the value before, which is
answered together with the old value.  Any other name reads `0`.  The size is the number of
different names that were written, and each of them is listed once, with its value; the store is
empty if nothing was written.

The two stores are equal if and only if they hold the same names and read the same.  It is enough
that each name is written by the same accesses in the same order, whatever is written in between.
But to declare a name that was not written makes another store, although everything reads as before
and every guard holds as before. -/
theorem made_by_last_writes (xs ys : List Access) :
    (∀ n, n ∈ made xs ↔ ∃ x ∈ xs, x.target? = some n) ∧
      (∀ n before x after, xs = before ++ x :: after → x.target? = some n →
        (∀ y ∈ after, y.target? ≠ some n) →
        (made xs).read n = x.written ((made before).read n)) ∧
      (∀ n, (∀ x ∈ xs, x.target? ≠ some n) → (made xs).read n = 0) ∧
      (∀ u : Update,
        (made (xs ++ [.update u])).read u.var = u.change.eval ((made xs).read u.var) ∧
          ((made xs).access (.update u)).2 =
            .change ((made xs).read u.var) ((made (xs ++ [.update u])).read u.var)) ∧
      (made xs).size = (xs.filterMap Access.target?).dedup.length ∧
      (made xs).toList.Perm
        ((xs.filterMap Access.target?).dedup.map fun n => (n, (made xs).read n)) ∧
      ((made xs).isEmpty ↔ ∀ x ∈ xs, x.target? = none) ∧
      (made xs = made ys ↔
        ∀ n, (n ∈ made xs ↔ n ∈ made ys) ∧ (made xs).read n = (made ys).read n) ∧
      ((∀ n, (xs.filter fun x => x.target? = some n) = ys.filter fun x => x.target? = some n) →
        made xs = made ys) ∧
      ∀ n, n ∉ made xs → made (xs ++ [.declare n]) ≠ made xs ∧
        (∀ m, (made (xs ++ [.declare n])).read m = (made xs).read m) ∧
        ∀ g : Guard, g.Holds (made (xs ++ [.declare n])) ↔ g.Holds (made xs) := by
  refine ⟨fun n => mem_made, ?_, fun n => read_made_of_forall_ne, fun u => ?_, ?_, ?_,
    isEmpty_made_iff, ?_, made_eq_of_filter_eq, fun n hn => ?_⟩
  · rintro n before x after rfl
    exact read_made_of_last
  · have hwritten : (made (xs ++ [.update u])).read u.var = u.change.eval ((made xs).read u.var) :=
      read_made_of_last rfl (by simp)
    rw [hwritten]
    exact ⟨rfl, rfl⟩
  · rw [← length_names, names_made_perm.length_eq]
  · rw [toList_eq_map]
    exact names_made_perm.map _
  · refine ⟨fun h n => by rw [h]; exact ⟨.rfl, rfl⟩, fun h => ?_⟩
    exact ext (fun n => (h n).1) fun n => (h n).2
  · rw [made_concat]
    exact declare_of_not_mem hn

end Store

/-- A cash box is opened with five notes in it, takes a coin and gives a note away, and is asked for
stamps. -/
def cashBox : List Access :=
  [.declare "coins", .write "notes" 5, .update ⟨"coins", .increment⟩, .read "stamps",
    .update ⟨"notes", .decrement⟩, .check ⟨"stamps", .equals, 0⟩]

/-- The same is done with the notes first, and nobody asks for stamps. -/
def cashBoxByNotes : List Access :=
  [.write "notes" 5, .update ⟨"notes", .decrement⟩, .declare "coins",
    .update ⟨"coins", .increment⟩]

theorem cashBox_filter_eq (n : String) :
    (cashBox.filter fun x => x.target? = some n) =
      cashBoxByNotes.filter fun x => x.target? = some n := by
  by_cases hcoins : "coins" = n
  · subst hcoins
    decide
  · by_cases hnotes : "notes" = n
    · subst hnotes
      decide
    · simp [cashBox, cashBoxByNotes, Access.target?, hcoins, hnotes]

/-- The notes are counted by the last access to them, both orders come to the same store, and there
is no entry for stamps before they are declared. -/
theorem cashBox_made_by_last_writes :
    "notes" ∈ Store.made cashBox ∧ (Store.made cashBox).read "notes" = 4 ∧
      (Store.made cashBox).read "stamps" = 0 ∧ (Store.made cashBox).size = 2 ∧
      Store.made cashBox = Store.made cashBoxByNotes ∧
      Store.made (cashBox ++ [.declare "stamps"]) ≠ Store.made cashBox ∧
      (Store.made (cashBox ++ [.declare "stamps"])).read "stamps" =
        (Store.made cashBox).read "stamps" := by
  obtain ⟨hmem, hlast, hzero, -, hsize, -, -, -, hreorder, hdeclare⟩ :=
    Store.made_by_last_writes cashBox cashBoxByNotes
  have hnotes : (Store.made cashBox).read "notes" = 4 :=
    hlast "notes" (cashBox.take 4) (.update ⟨"notes", .decrement⟩) (cashBox.drop 5) rfl rfl
      (by decide)
  have hstamps : "stamps" ∉ Store.made cashBox := fun h => absurd ((hmem "stamps").1 h) (by decide)
  obtain ⟨hne, hread, -⟩ := hdeclare "stamps" hstamps
  exact ⟨(hmem "notes").2 (by decide), hnotes, hzero "stamps" (by decide), hsize,
    hreorder cashBox_filter_eq, hne, hread "stamps"⟩

end GuardedMachine
